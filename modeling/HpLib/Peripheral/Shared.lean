import HpLib.Lib.Approx
import HpLib.Peripheral.Accessors
import HpLib.Peripheral.Independence
import HpLib.Peripheral.Scheduling

/-!
# Extractors that share a packet structure

A packet structure is handed to its extractors as a `shared_ptr`, one for each
peer, say. The constructor of each calls `init_packet`, and nothing ever takes
sections out of `packet_`. So the second extractor that is made for a packet
structure finds all its sections twice, the third three times, and goes
through all of them in one pass.

A pass starts with fresh local variables, a further copy of the sections
inside a pass does not. As `data_len` is the only one that a section reads
before the pass has set it, no harm is done where Data stands behind the
Length section (`shared_structure_harmless`).
-/

namespace HpLib.MessageExtractor

open Lib CircularBuffer PacketStructure

variable {M : Type}

/-- A packet structure for which `n` extractors have been made. -/
def structureAfter (init : List (Section M) → List (Section M)) :
    Nat → Except Fault (PacketStructure M)
  | 0 => return {}
  | n + 1 => do
      let x ← MessageExtractor.new (← structureAfter init n) init
      return x.packetStructure

/-- The same sections over and over. -/
def copies (ss : List (Section M)) : Nat → List (Section M)
  | 0 => []
  | n + 1 => ss ++ copies ss n

/-- Where there is a Length section, no Data section stands before it. -/
def LengthFirst (ss : List (Section M)) : Prop :=
  .length ∈ ss.map Section.getType →
    .data ∉ (ss.takeWhile fun s => s.getType ≠ .length).map Section.getType

instance (ss : List (Section M)) : Decidable (LengthFirst ss) :=
  inferInstanceAs (Decidable (_ → _))

/-! ## The structure -/

theorem copies_succ (ss : List (Section M)) (n : Nat) : copies ss n ++ ss = copies ss (n + 1) := by
  induction n with
  | zero => exact (List.append_nil ss).symm
  | succ n ih =>
      rw [copies, List.append_assoc, ih]
      rfl

theorem lastOf_append (ss ts : List (Section M)) (k : PacketSections) :
    lastOf (ss ++ ts) k = (lastOf ts k).or (lastOf ss k) := by
  rw [lastOf, List.reverse_append, List.find?_append]
  rfl

theorem lastOf_copies (ss : List (Section M)) (n : Nat) (k : PacketSections) :
    lastOf (copies ss (n + 1)) k = lastOf ss k := by
  induction n with
  | zero => rw [copies, copies, List.append_nil]
  | succ n ih =>
      rw [copies, lastOf_append, ih]
      cases lastOf ss k <;> rfl

theorem mem_copies {ss : List (Section M)} {n : Nat} {s : Section M} :
    s ∈ copies ss (n + 1) ↔ s ∈ ss := by
  induction n with
  | zero => rw [copies, copies, List.append_nil]
  | succ n ih => rw [copies, List.mem_append, ih, or_self]

theorem kind_mem_copies {ss : List (Section M)} {n : Nat} {k : PacketSections} :
    k ∈ (copies ss (n + 1)).map Section.getType ↔ k ∈ ss.map Section.getType := by
  simp only [List.mem_map, mem_copies]

/-- More copies do not bring Data before the Length section. -/
theorem LengthFirst.copies {ss : List (Section M)} (h : LengthFirst ss) (n : Nat) :
    LengthFirst (copies ss (n + 1)) := by
  intro hmem
  have hlength := kind_mem_copies.mp hmem
  have hbefore : (MessageExtractor.copies ss (n + 1)).takeWhile (fun s => s.getType ≠ .length)
      = ss.takeWhile fun s => s.getType ≠ .length := by
    rw [MessageExtractor.copies, List.takeWhile_append, if_neg]
    intro hall
    -- otherwise there would be no Length section in the first copy
    have heq := (List.takeWhile_prefix _).eq_of_length hall
    obtain ⟨s, hs, htype⟩ := List.mem_map.mp hlength
    rw [← heq] at hs
    simpa [htype] using List.mem_takeWhile_imp hs
  rw [hbefore]
  exact h hlength

theorem packet_foldlM {p p' : PacketStructure M} {ss : List (Section M)}
    (h : ss.foldlM visit p = .ok p') : p'.packet = p.packet := by
  induction ss generalizing p with
  | nil =>
      cases h
      rfl
  | cons s ss ih =>
      rw [List.foldlM_cons] at h
      obtain ⟨u, hu, h⟩ := bind_eq_ok.mp h
      rw [ih h]
      cases s <;> cases hu <;> rfl

/-- What `n` constructors have made of a structure. -/
structure Filled (ss : List (Section M)) (n : Nat) (p : PacketStructure M) : Prop where
  packet : p.packet = copies ss n
  pointer : ∀ k, p.pointer k = lastOf (copies ss n) k
  framed : p.isLengthExist = true ↔ .length ∈ (copies ss n).map Section.getType

theorem Filled.empty (ss : List (Section M)) : Filled ss 0 {} where
  packet := rfl
  pointer k := by cases k <;> rfl
  framed := by simp [copies]

variable {ss : List (Section M)} {init : List (Section M) → List (Section M)}

/-- One more constructor, one more copy. -/
theorem Filled.new {n : Nat} {p : PacketStructure M} {x : MessageExtractor M} (h : Filled ss n p)
    (hinit : ∀ packet, init packet = packet ++ ss) (hx : MessageExtractor.new p init = .ok x) :
    Filled ss (n + 1) x.packetStructure ∧ x.packetSections = copies ss (n + 1) := by
  obtain ⟨q, hq, rfl⟩ := new_eq_ok.mp hx
  have hpacket : init p.packet = copies ss (n + 1) := by rw [hinit, h.packet, copies_succ]
  rw [hpacket] at hq
  refine ⟨⟨?_, fun k => ?_, ?_⟩, hpacket⟩
  · rw [packet_foldlM hq]
    exact hpacket
  · have hpointer : (p.initPacket init).pointer k = p.pointer k := by cases k <;> rfl
    rw [pointer_foldlM hq k, hpointer, h.pointer]
    cases n with
    | zero =>
        have hnone : lastOf (copies ss 0) k = none := rfl
        rw [hnone, Option.or_none]
    | succ n =>
        rw [lastOf_copies, lastOf_copies]
        cases lastOf ss k <;> rfl
  · rw [(foldlM_visit_pointsTo hq).2.2]
    show _ ∨ p.isLengthExist = true ↔ _
    rw [h.framed]
    refine ⟨fun hor => hor.elim id fun hmem => ?_, .inl⟩
    rw [← copies_succ, List.map_append]
    exact List.mem_append_left _ hmem

theorem filled_structureAfter (hinit : ∀ packet, init packet = packet ++ ss) {n : Nat}
    {p : PacketStructure M} (hp : structureAfter init n = .ok p) : Filled ss n p := by
  induction n generalizing p with
  | zero =>
      cases hp
      exact Filled.empty ss
  | succ n ih =>
      obtain ⟨q, hq, hp⟩ := bind_eq_ok.mp hp
      obtain ⟨x, hx, hp⟩ := bind_eq_ok.mp hp
      cases hp
      exact ((ih hq).new hinit hx).1

/-! ## The sections of a pass -/

variable [SerializableMessage M] {x y : MessageExtractor M} {v v' : Locals M}

/-- The two extractors read every section alike. -/
def ReadsAlike (x y : MessageExtractor M) : Prop :=
  ∀ v t, x.readSection v t = y.readSection v t

theorem ReadsAlike.sectionsLoop (h : ReadsAlike x y) (ss : List (Section M)) (v : Locals M) :
    x.sectionsLoop ss v = y.sectionsLoop ss v := by
  induction ss generalizing v with
  | nil => rfl
  | cons s ss ih =>
      rw [MessageExtractor.sectionsLoop, MessageExtractor.sectionsLoop, h]
      split
      · rfl
      · congr 1
        funext u
        exact ih u

/-- The pointers and the flag decide how sections are read. -/
theorem readsAlike_of_filled {m n : Nat} (hx : Filled ss (m + 1) x.packetStructure)
    (hy : Filled ss (n + 1) y.packetStructure) : ReadsAlike x.reading y.reading := by
  have hpointer : ∀ k, x.packetStructure.pointer k = y.packetStructure.pointer k := by
    intro k
    rw [hx.pointer, hy.pointer, lastOf_copies, lastOf_copies]
  have hframed : x.packetStructure.isLengthExist = y.packetStructure.isLengthExist := by
    rw [Bool.eq_iff_iff, hx.framed, hy.framed, kind_mem_copies, kind_mem_copies]
  have hheader : x.packetStructure.header = y.packetStructure.header :=
    Option.map_injective (fun _ _ h => Section.header.inj h) (hpointer .header)
  have hlength : x.packetStructure.length = y.packetStructure.length :=
    Option.map_injective (fun _ _ h => Section.length.inj h) (hpointer .length)
  have hcmd : x.packetStructure.cmd = y.packetStructure.cmd :=
    Option.map_injective (fun _ _ h => Section.cmd.inj h) (hpointer .cmd)
  have hfooter : x.packetStructure.footer = y.packetStructure.footer :=
    Option.map_injective (fun _ _ h => Section.footer.inj h) (hpointer .footer)
  have hcrc : x.packetStructure.crc = y.packetStructure.crc :=
    Option.map_injective (fun _ _ h => Section.crc.inj h) (hpointer .crc)
  have hdata : x.packetStructure.data = y.packetStructure.data :=
    Option.map_injective (fun _ _ h => Section.data.inj h) (hpointer .data)
  have hpure : ∀ {α : Type} (p : PacketStructure M) (f : PacketStructure M → Extract α),
      (pure p : Extract (PacketStructure M)) >>= f = f p := fun _ _ => rfl
  intro v t
  cases t with
  | header => rfl
  | other => rfl
  | length =>
      show (deref x.packetStructure.length >>= _) = (deref y.packetStructure.length >>= _)
      rw [hlength]
  | crc =>
      show (deref x.packetStructure.crc >>= _) = (deref y.packetStructure.crc >>= _)
      rw [hcrc]
  | footer =>
      show (deref x.packetStructure.footer >>= _) = (deref y.packetStructure.footer >>= _)
      rw [hfooter]
  | cmd =>
      show x.reading.readCmd v = y.reading.readCmd v
      simp only [readCmd, structureOf, reading, hpure, hcmd, hheader]
  | data =>
      show x.reading.readData v = y.reading.readData v
      simp only [readData, dataSizeOf, structureOf, reading, hpure, hframed, hdata]

/-! ## Stale local variables -/

variable {α : Type} {K K' : Locals M → Extract α}

/-- The local variables that decide how the loop goes on. -/
def Alike (v v' : Locals M) : Prop :=
  v.msg = v'.msg ∧ v.isCmdNull = v'.isCmdNull ∧ v.isFooterOk = v'.isFooterOk

omit [SerializableMessage M] in
/-- Those, and the length that was read. -/
theorem respected_same_len :
    Respected fun v v' : Locals M => Alike v v' ∧ v.dataLen = v'.dataLen := by
  constructor
  · exact fun h => h.1.2
  · exact fun _ h => h
  · exact fun _ h => h
  · exact fun _ _ h => h
  · exact fun _ _ h => ⟨⟨rfl, h.1.2⟩, h.2⟩
  · exact fun _ h => ⟨⟨rfl, rfl, h.1.2.2⟩, h.2⟩

/-- A Length section sets the length, whatever it was. -/
theorem readLength_alike (h : Alike v v')
    (hK : ∀ u u', Alike u u' ∧ u.dataLen = u'.dataLen → K u = K' u') :
    x.reading.readSection v .length >>= K = x.reading.readSection v' .length >>= K' := by
  show (deref x.packetStructure.length >>= _) >>= K = (deref x.packetStructure.length >>= _) >>= K'
  apply Prog.bind_bind_congr
  intro l
  apply Prog.bind_bind_congr
  intro len
  apply Prog.bind_bind_congr
  intro lenVal
  exact hK _ _ ⟨h, rfl⟩

/-- With the same length, the sections are read alike to the end. -/
theorem sectionsLoop_same_len {ts : List (Section M)}
    (hcovers : ∀ s ∈ ts, x.packetStructure.Covers s.getType)
    (h : Alike v v' ∧ v.dataLen = v'.dataLen) (hK : ∀ u u', Alike u u' → K u = K' u') :
    x.reading.sectionsLoop ts v >>= K = x.reading.sectionsLoop ts v' >>= K' := by
  induction ts generalizing v v' with
  | nil => exact hK v v' h.1
  | cons s ts ih =>
      have hrest : ∀ u u', Alike u u' ∧ u.dataLen = u'.dataLen →
          x.reading.sectionsLoop ts u >>= K = x.reading.sectionsLoop ts u' >>= K' :=
        fun u u' hu => ih (fun t ht => hcovers t (List.mem_cons_of_mem s ht)) hu
      rw [MessageExtractor.sectionsLoop, MessageExtractor.sectionsLoop, h.1.2.1, h.1.2.2]
      split
      · exact hK v v' h.1
      · rw [Prog.bind_assoc, Prog.bind_assoc]
        by_cases hlength : s.getType = .length
        · rw [hlength]
          exact readLength_alike h.1 hrest
        · refine respected_same_len.readSection (hcovers s List.mem_cons_self) hlength ?_ h hrest
          intro _
          rw [frameSize, frameSize, h.1.1, h.2]

/-- Where Data finds the length read before it, a pass takes no notice of an
old one. -/
theorem sectionsLoop_alike {ts : List (Section M)}
    (hcovers : ∀ s ∈ ts, x.packetStructure.Covers s.getType)
    (hframed : x.packetStructure.isLengthExist = true ↔ .length ∈ ts.map Section.getType)
    (hfirst : LengthFirst ts) (h : Alike v v') (hK : ∀ u u', Alike u u' → K u = K' u') :
    x.reading.sectionsLoop ts v >>= K = x.reading.sectionsLoop ts v' >>= K' := by
  by_cases hlength : .length ∈ ts.map Section.getType
  · -- up to the Length section there is neither Data nor Length
    have hsplit := List.takeWhile_append_dropWhile (p := fun s => s.getType ≠ .length) (l := ts)
    have hbefore : .length ∉ (ts.takeWhile fun s => s.getType ≠ .length).map Section.getType := by
      intro hmem
      obtain ⟨s, hs, htype⟩ := List.mem_map.mp hmem
      have hne := List.mem_takeWhile_imp hs
      simp [htype] at hne
    rw [← hsplit, sectionsLoop_append, sectionsLoop_append, Prog.bind_assoc, Prog.bind_assoc]
    refine respected_same_msg.sectionsLoop
      (fun s hs => hcovers s (List.takeWhile_subset _ hs)) hbefore
      (fun hdata => absurd hdata (hfirst hlength)) h fun u u' hu => ?_
    cases hrest : ts.dropWhile fun s => s.getType ≠ .length with
    | nil => exact hK u u' hu
    | cons s rest =>
        have htype : s.getType = .length := by
          have hhead := List.head?_dropWhile_not (fun s : Section M => s.getType ≠ .length) ts
          rw [hrest] at hhead
          simpa using hhead
        have hmem : ∀ t ∈ s :: rest, t ∈ ts := fun t ht =>
          List.dropWhile_subset _ (hrest ▸ ht)
        rw [MessageExtractor.sectionsLoop, MessageExtractor.sectionsLoop, hu.2.1, hu.2.2]
        split
        · exact hK u u' hu
        · rw [Prog.bind_assoc, Prog.bind_assoc, htype]
          exact readLength_alike hu fun w w' hw =>
            sectionsLoop_same_len (fun t ht => hcovers t (hmem t (List.mem_cons_of_mem s ht))) hw hK
  · have hunframed : x.packetStructure.isLengthExist = false := by
      rw [← Bool.not_eq_true]
      exact fun htrue => hlength (hframed.mp htrue)
    exact respected_same_msg.sectionsLoop hcovers hlength
      (fun _ _ _ hu => frameSize_congr hunframed hu.1) h hK

/-! ## Passes cut into passes -/

/-- The first extractor of a packet structure. -/
structure First (ss : List (Section M)) (x : MessageExtractor M) : Prop where
  filled : Filled ss 1 x.packetStructure
  sections : x.packetSections = ss
  covers : ∀ s ∈ ss, x.packetStructure.Covers s.getType

omit [SerializableMessage M] in
theorem First.of_new (hinit : ∀ packet, init packet = packet ++ ss)
    (hx : MessageExtractor.new {} init = .ok x) : First ss x := by
  obtain ⟨hfilled, hsections⟩ := (Filled.empty ss).new hinit hx
  rw [copies, copies, List.append_nil] at hsections
  refine ⟨hfilled, hsections, ?_⟩
  rw [← hsections]
  exact covers_of_new hx

variable {F : Option M → Extract (Option M)}

/-- Behind a copy of the sections, the next ones go on as a pass of their own
would. -/
theorem First.sectionsLoop_restart (hx : First ss x) (hfirst : LengthFirst ss)
    (hnull : v.isCmdNull = false) (hok : v.isFooterOk = true) (n : Nat) :
    (x.reading.sectionsLoop (copies ss n) v >>= fun u => F u.msg)
      = x.reading.sectionsLoop (copies ss n) { msg := v.msg } >>= fun u => F u.msg := by
  cases n with
  | zero => rfl
  | succ n =>
      refine sectionsLoop_alike (fun s hs => hx.covers s (mem_copies.mp hs)) ?_ (hfirst.copies n)
        ⟨rfl, hnull, hok⟩ ?_
      · rw [hx.filled.framed, kind_mem_copies, kind_mem_copies]
      · intro u u' hu
        rw [hu.1]

/-- One copy, and then the others. -/
theorem First.sectionsLoop_copies (hx : First ss x) (hfirst : LengthFirst ss) (n : Nat)
    (msg : Option M) :
    (x.reading.sectionsLoop (copies ss (n + 1)) { msg := msg } >>= fun u => F u.msg)
      = x.reading.sectionsLoop ss { msg := msg } >>= fun v =>
          if v.isCmdNull || !v.isFooterOk then F v.msg
          else x.reading.sectionsLoop (copies ss n) { msg := v.msg } >>= fun u => F u.msg := by
  rw [copies, sectionsLoop_append, Prog.bind_assoc]
  congr 1
  funext v
  split
  next hstop =>
      rw [sectionsLoop_stop _ hstop]
      rfl
  next hgo =>
      simp only [Bool.or_eq_true, Bool.not_eq_true', not_or, Bool.not_eq_true,
        Bool.not_eq_false] at hgo
      exact hx.sectionsLoop_restart hfirst hgo.1 hgo.2 n

theorem First.findLoop_succ (hx : First ss x) (k : Nat) (msg : Option M) :
    x.reading.findLoop (k + 1) msg false
      = x.reading.sectionsLoop ss { msg := msg } >>= fun v =>
          x.reading.findLoop k v.msg false := by
  rw [findLoop, show x.reading.packetSections = ss from hx.sections]

/-- More passes lose nothing. -/
theorem findLoop_mono (k j : Nat) (msg : Option M) :
    Prog.Approx .diverges (x.findLoop k msg false) (x.findLoop (k + j) msg false) := by
  induction k generalizing msg with
  | zero =>
      rw [findLoop]
      exact .cut _
  | succ k ih =>
      rw [Nat.add_right_comm, findLoop, findLoop]
      exact .bind (.refl _) fun v => ih v.msg

/-- One pass over `n` copies is at most `n` passes. -/
theorem First.copies_approx (hx : First ss x) (hfirst : LengthFirst ss) {k : Nat}
    (hF : ∀ msg, Prog.Approx .diverges (F msg) (x.reading.findLoop k msg false)) (n : Nat)
    (msg : Option M) :
    Prog.Approx .diverges
      (x.reading.sectionsLoop (copies ss n) { msg := msg } >>= fun u => F u.msg)
      (x.reading.findLoop (n + k) msg false) := by
  induction n generalizing msg with
  | zero =>
      rw [Nat.zero_add]
      exact hF msg
  | succ n ih =>
      rw [hx.sectionsLoop_copies hfirst, Nat.add_right_comm, hx.findLoop_succ]
      refine .bind (.refl _) fun v => ?_
      split
      · rw [Nat.add_comm]
        exact (hF v.msg).trans (findLoop_mono k n v.msg)
      · exact ih v.msg

/-- And at least as many as there are. -/
theorem First.approx_copies (hx : First ss x) (hfirst : LengthFirst ss) {k : Nat}
    (hF : ∀ msg, Prog.Approx .diverges (x.reading.findLoop k msg false) (F msg)) (n : Nat)
    (msg : Option M) :
    Prog.Approx .diverges (x.reading.findLoop k msg false)
      (x.reading.sectionsLoop (copies ss n) { msg := msg } >>= fun u => F u.msg) := by
  induction n generalizing k msg with
  | zero => exact hF msg
  | succ n ih =>
      cases k with
      | zero =>
          rw [findLoop]
          exact .cut _
      | succ k =>
          have hless : ∀ msg, Prog.Approx .diverges (x.reading.findLoop k msg false) (F msg) :=
            fun msg => (findLoop_mono k 1 msg).trans (hF msg)
          rw [hx.sectionsLoop_copies hfirst, hx.findLoop_succ]
          refine .bind (.refl _) fun v => ?_
          split
          · exact hless v.msg
          · exact ih hless v.msg

/-! ## Calls of `find_message` -/

variable {n : Nat} {p : PacketStructure M}

/-- An extractor that comes later. -/
structure Later (ss : List (Section M)) (n : Nat) (x y : MessageExtractor M) : Prop where
  alike : ReadsAlike y.reading x.reading
  sections : y.packetSections = copies ss (n + 1)

theorem First.later (hx : First ss x) (hinit : ∀ packet, init packet = packet ++ ss)
    (hp : structureAfter init n = .ok p) (hy : MessageExtractor.new p init = .ok y) :
    Later ss n x y := by
  obtain ⟨hfilled, hsections⟩ := (filled_structureAfter hinit hp).new hinit hy
  exact ⟨readsAlike_of_filled hfilled hx.filled, hsections⟩

theorem Later.findLoop_succ (hy : Later ss n x y) (k : Nat) (msg : Option M) :
    y.reading.findLoop (k + 1) msg false
      = x.reading.sectionsLoop (copies ss (n + 1)) { msg := msg } >>= fun v =>
          y.reading.findLoop k v.msg false := by
  rw [findLoop, show y.reading.packetSections = _ from hy.sections, hy.alike.sectionsLoop]

/-- A pass of the later extractor is some passes of the first. -/
theorem Later.findLoop_approx (hy : Later ss n x y) (hx : First ss x) (hfirst : LengthFirst ss)
    (k : Nat) (msg : Option M) :
    Prog.Approx .diverges (y.reading.findLoop k msg false)
      (x.reading.findLoop ((n + 1) * k) msg false) := by
  induction k generalizing msg with
  | zero =>
      rw [findLoop]
      exact .cut _
  | succ k ih =>
      rw [hy.findLoop_succ, Nat.mul_succ, Nat.add_comm _ (n + 1)]
      exact hx.copies_approx hfirst ih (n + 1) msg

/-- A pass of the first is a part of one of the later. -/
theorem Later.approx_findLoop (hy : Later ss n x y) (hx : First ss x) (hfirst : LengthFirst ss)
    (k : Nat) (msg : Option M) :
    Prog.Approx .diverges (x.reading.findLoop k msg false) (y.reading.findLoop k msg false) := by
  induction k generalizing msg with
  | zero =>
      rw [findLoop]
      exact .cut _
  | succ k ih =>
      rw [hy.findLoop_succ, hx.findLoop_succ,
        hx.sectionsLoop_copies (F := fun msg => y.reading.findLoop k msg false) hfirst]
      refine .bind (.refl _) fun v => ?_
      split
      · exact ih v.msg
      · exact hx.approx_copies hfirst ih n v.msg

/-- As constructed, two extractors go wrong alike. -/
theorem approx_unset (hx : x.extractor = none) (hy : y.extractor = none)
    (hall : x.packetSections.all (·.getType == .header)
      = y.packetSections.all (·.getType == .header)) {k j : Nat} (hkj : k ≤ j) (msg : Option M) :
    Prog.Approx .diverges (x.findLoop k msg false) (y.findLoop j msg false) := by
  by_cases hheaders : x.packetSections.all (·.getType == .header) = true
  · rw [findLoop_unset hx hheaders]
    exact .cut _
  · cases k with
    | zero =>
        rw [findLoop]
        exact .cut _
    | succ k =>
        obtain ⟨j, rfl⟩ := Nat.exists_eq_add_of_lt hkj
        rw [findLoop_unset_of_not hx hheaders, findLoop_unset_of_not hy (hall ▸ hheaders)]
        exact .refl _

/-- What one call does the other does too: it is cut short, if anything. -/
def Matches (x y : MessageExtractor M) (fuel fuel' : Nat) : Prop :=
  ∀ (b : CircularBuffer) (as : List (Prog.ServerAct Chunk))
    (s : CircularBuffer × Extract (Option M)),
    (x.system b fuel).exec (x.system b fuel).init as = some s →
      ∃ s', (y.system b fuel').exec (y.system b fuel').init as = some s' ∧ s'.1 = s.1 ∧
        Prog.Approx .diverges s.2 s'.2 ∧
        seen b (y.findMessage fuel') as = seen b (x.findMessage fuel) as

theorem matches_of_approx {fuel fuel' : Nat}
    (h : Prog.Approx .diverges (x.findMessage fuel) (y.findMessage fuel')) :
    Matches x y fuel fuel' := by
  intro b as s hrun
  obtain ⟨p', hexec, hleft, hseen⟩ := h.exec hrun
  exact ⟨(s.1, p'), hexec, rfl, hleft, hseen⟩

/-- **Harmless where Data comes after the Length section**: with every
extractor made for it a packet structure has one copy more of its sections,
but the reads, the reports and the buffer are those that the first extractor
would have shown, run for run. So it is with `extractor_` set, and so it is as
constructed. -/
theorem shared_structure_harmless (hinit : ∀ packet, init packet = packet ++ ss)
    (hfirst : LengthFirst ss) (hx : MessageExtractor.new {} init = .ok x)
    (hp : structureAfter init n = .ok p) (hy : MessageExtractor.new p init = .ok y) (fuel : Nat) :
    y.packetSections = copies ss (n + 1) ∧
      Matches y.reading x.reading fuel ((n + 1) * fuel) ∧
      Matches x.reading y.reading fuel fuel ∧
      Matches y x fuel ((n + 1) * fuel) ∧ Matches x y fuel fuel := by
  have hone := First.of_new hinit hx
  have hlater := hone.later hinit hp hy
  have hunset : x.extractor = none ∧ y.extractor = none := ⟨(new_spec hx).1, (new_spec hy).1⟩
  have hall : x.packetSections.all (·.getType == .header)
      = y.packetSections.all (·.getType == .header) := by
    rw [hone.sections, hlater.sections, Bool.eq_iff_iff, List.all_eq_true, List.all_eq_true]
    simp only [mem_copies]
  refine ⟨hlater.sections, matches_of_approx ?_, matches_of_approx ?_, matches_of_approx ?_,
    matches_of_approx ?_⟩
  · exact hlater.findLoop_approx hone hfirst fuel none
  · exact hlater.approx_findLoop hone hfirst fuel none
  · exact approx_unset hunset.2 hunset.1 hall.symm (Nat.le_mul_of_pos_left fuel n.succ_pos) none
  · exact approx_unset hunset.1 hunset.2 hall (Nat.le_refl fuel) none

/-- The second extractor for `mixedLayout`. -/
theorem shared_structure_harmless_mixed :
    ∃ (p : PacketStructure Blob) (x y : MessageExtractor Blob),
      structureAfter (fun packet => packet ++ mixedLayout) 1 = .ok p ∧
      MessageExtractor.new {} (fun packet => packet ++ mixedLayout) = .ok x ∧
      MessageExtractor.new p (fun packet => packet ++ mixedLayout) = .ok y ∧
      LengthFirst mixedLayout ∧ y.packetSections = copies mixedLayout 2 ∧
      Matches y.reading x.reading 3 6 ∧ Matches x.reading y.reading 3 3 ∧
      Matches y x 3 6 ∧ Matches x y 3 3 := by
  have hfirst : LengthFirst mixedLayout := by decide
  obtain ⟨x, hx⟩ : ∃ x : MessageExtractor Blob,
      MessageExtractor.new {} (fun packet => packet ++ mixedLayout) = .ok x := ⟨_, rfl⟩
  have hp : structureAfter (fun packet => packet ++ mixedLayout) 1 = .ok x.packetStructure := by
    rw [structureAfter, structureAfter, pure_bind, hx]
    rfl
  obtain ⟨y, hy⟩ : ∃ y, MessageExtractor.new x.packetStructure (fun packet => packet ++ mixedLayout)
      = .ok y := by
    cases hx
    exact ⟨_, rfl⟩
  exact ⟨x.packetStructure, x, y, hp, hx, hy, hfirst,
    shared_structure_harmless (fun _ => rfl) hfirst hx hp hy 3⟩

/-- Data before its Length section. -/
def lateLayout : List (Section Blob) :=
  [.data ⟨4⟩, .length ⟨1, PacketSections.data.bit, false⟩]

/-- What the `n`-th extractor for `lateLayout` asks for. -/
def lateRequests (n : Nat) : Except Fault (List Request) := do
  let x ← MessageExtractor.new (← structureAfter (fun packet => packet ++ lateLayout) n)
    fun packet => packet ++ lateLayout
  return Prog.requests serveBytes (x.reading.findMessage 2) [2, 0, 0]

/-- There the second copy reads as much as the first one was told. -/
example : lateRequests 0 = .ok [.read 0, .read 1, .read 0, .read 1] ∧
    lateRequests 1 = .ok [.read 0, .read 1, .read 2, .read 1] := by
  decide

end HpLib.MessageExtractor
