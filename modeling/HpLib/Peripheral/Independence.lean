import HpLib.Peripheral.Partition
import HpLib.Peripheral.Wedge

/-!
# Are passes independent?

`msg` is declared outside the loop of `find_message`, so a pass finds the
message of the one before. Without a Length section the size of the data is
that of the message at hand, and where a Data section stands before the first
CMD section this is the message of an earlier packet. The buffer of this
module never runs full: a history is a stream of bytes and as many passes over
it as have come to their end.
-/

namespace HpLib

open Lib CircularBuffer

variable {M : Type}

namespace MessageExtractor

variable [SerializableMessage M]

/-- What a pass shows: `cmd`, `data`, `crc` and `footer`. -/
def fields (v : Locals M) : Bytes × Bytes × Bytes × Bytes :=
  (v.cmd, v.data, v.crc, v.footer)

/-- The pass that finds `msg`, and shows its fields. -/
def pass (x : MessageExtractor M) (msg : Option M) : Extract (Bytes × Bytes × Bytes × Bytes) := do
  let v ← x.reading.sectionsLoop x.packetSections { msg := msg }
  return fields v

/-- Some passes over `stream` have left `msg` and the unread bytes. -/
inductive Reaches (x : MessageExtractor M) (stream : Bytes) : Option M → Bytes → Prop
  | start : Reaches x stream none stream
  | next {msg : Option M} {bytes rest : Bytes} {v : Locals M} (h : Reaches x stream msg bytes)
      (hrun : runBytes (x.reading.sectionsLoop x.packetSections { msg := msg }) bytes
        = some (.ok v, rest)) : Reaches x stream v.msg rest

/-- Whatever has gone before, a pass over the same bytes shows the same
fields and leaves the same bytes. -/
def Independent (x : MessageExtractor M) : Prop :=
  ∀ stream₁ stream₂ msg₁ msg₂ bytes, Reaches x stream₁ msg₁ bytes → Reaches x stream₂ msg₂ bytes →
    runBytes (x.pass msg₁) bytes = runBytes (x.pass msg₂) bytes

omit [SerializableMessage M] in
/-- A Data section stands before the first CMD section. -/
def DataFirst (ss : List (Section M)) : Prop :=
  ∃ pre c post, ss = pre ++ .cmd c :: post ∧ .cmd ∉ pre.map Section.getType ∧
    .data ∈ pre.map Section.getType

/-- The factory makes `msg` of a command. -/
def Builds (p : PacketStructure M) (msg : M) : Prop :=
  ∃ c factory cmd, p.cmd = some c ∧ c.msgFactory = some factory ∧
    cmd.length = c.sizeBytes.toNat ∧ factory (cString cmd) = some msg

/-- Every message that the factory makes has the fixed size. -/
def BuildsFixed (p : PacketStructure M) : Prop :=
  ∀ msg d, Builds p msg → p.data = some d →
    UInt32.ofNat (SerializableMessage.getSerializeSize msg) = d.fixSizeBytes

variable {x : MessageExtractor M} {v v' : Locals M} {bytes rest : Bytes}

/-- The histories are those of `find_message`. -/
theorem Reaches.findLoop {stream : Bytes} {msg : Option M} (h : Reaches x stream msg bytes) :
    ∃ k, ∀ fuel, runBytes (x.reading.findLoop (k + fuel) none false) stream
      = runBytes (x.reading.findLoop fuel msg false) bytes := by
  induction h with
  | start => exact ⟨0, fun fuel => by rw [Nat.zero_add]⟩
  | next _ hrun ih =>
      obtain ⟨k, hk⟩ := ih
      refine ⟨k + 1, fun fuel => ?_⟩
      rw [Nat.add_assoc, Nat.add_comm 1, hk, MessageExtractor.findLoop]
      exact Prog.run_bind_ok hrun

/-! ## Passes that differ in what they do not use -/

/-- Related local variables stay related, whatever a section is read as. -/
structure Respected (R : Locals M → Locals M → Prop) : Prop where
  flags : ∀ {v v'}, R v v' → v.isCmdNull = v'.isCmdNull ∧ v.isFooterOk = v'.isFooterOk
  crc : ∀ {v v'} crc, R v v' → R { v with crc := crc } { v' with crc := crc }
  footer : ∀ {v v'} footer, R v v' → R { v with footer := footer } { v' with footer := footer }
  data : ∀ {v v'} data size, R v v' →
    R { v with data := data, dataSize := size } { v' with data := data, dataSize := size }
  cmd : ∀ {v v'} cmd msg, R v v' →
    R { v with cmd := cmd, msg := some msg } { v' with cmd := cmd, msg := some msg }
  cmdNull : ∀ {v v'} cmd, R v v' →
    R { v with cmd := cmd, msg := none, isCmdNull := true }
      { v' with cmd := cmd, msg := none, isCmdNull := true }

variable {α : Type} {R : Locals M → Locals M → Prop} {K K' : Locals M → Extract α}

/-- One section, where Data is given the same size on both sides. -/
theorem Respected.readSection (hR : Respected R) {s : Section M}
    (hcovers : x.packetStructure.Covers s.getType) (hlength : s.getType ≠ .length)
    (hsize : s.getType = .data →
      frameSize x.packetStructure v = frameSize x.packetStructure v')
    (h : R v v') (hK : ∀ u u', R u u' → K u = K' u') :
    x.reading.readSection v s.getType >>= K = x.reading.readSection v' s.getType >>= K' := by
  cases ht : s.getType with
  | header => exact hK v v' h
  | other => exact hK v v' h
  | length => exact absurd ht hlength
  | crc =>
      show (deref x.packetStructure.crc >>= _) >>= K = (deref x.packetStructure.crc >>= _) >>= K'
      apply Prog.bind_bind_congr
      intro c
      apply Prog.bind_bind_congr
      intro crc
      exact hK _ _ (hR.crc crc h)
  | footer =>
      show (deref x.packetStructure.footer >>= _) >>= K
        = (deref x.packetStructure.footer >>= _) >>= K'
      apply Prog.bind_bind_congr
      intro f
      apply Prog.bind_bind_congr
      intro footer
      exact hK _ _ (hR.footer footer h)
  | data =>
      rw [ht] at hcovers
      show x.reading.readData v >>= K = x.reading.readData v' >>= K'
      rw [readData_eq hcovers, readData_eq hcovers, hsize ht]
      apply Prog.bind_bind_congr
      intro data
      exact hK _ _ (hR.data _ _ h)
  | cmd =>
      show (deref x.packetStructure.cmd >>= _) >>= K = (deref x.packetStructure.cmd >>= _) >>= K'
      apply Prog.bind_bind_congr
      intro c
      apply Prog.bind_bind_congr
      intro cmd
      apply Prog.bind_bind_congr
      intro factory
      cases hmsg : factory (cString cmd) with
      | some msg => exact hK _ _ (hR.cmd cmd msg h)
      | none =>
          show (deref x.packetStructure.header >>= _) >>= K
            = (deref x.packetStructure.header >>= _) >>= K'
          apply Prog.bind_bind_congr
          intro header
          apply Prog.bind_bind_congr
          intro answer
          exact hK _ _ (hR.cmdNull cmd h)

/-- All sections. The sizes matter only where there is Data. -/
theorem Respected.sectionsLoop (hR : Respected R) {ss : List (Section M)}
    (hcovers : ∀ s ∈ ss, x.packetStructure.Covers s.getType)
    (hlength : .length ∉ ss.map Section.getType)
    (hsize : .data ∈ ss.map Section.getType → ∀ {u u'}, R u u' →
      frameSize x.packetStructure u = frameSize x.packetStructure u')
    (h : R v v') (hK : ∀ u u', R u u' → K u = K' u') :
    x.reading.sectionsLoop ss v >>= K = x.reading.sectionsLoop ss v' >>= K' := by
  induction ss generalizing v v' with
  | nil => exact hK v v' h
  | cons s ss ih =>
      rw [List.map_cons, List.mem_cons, not_or] at hlength
      obtain ⟨hnull, hok⟩ := hR.flags h
      rw [MessageExtractor.sectionsLoop, MessageExtractor.sectionsLoop, hnull, hok]
      split
      · exact hK v v' h
      · rw [Prog.bind_assoc, Prog.bind_assoc]
        apply hR.readSection (hcovers s List.mem_cons_self) (Ne.symm hlength.1)
        · intro htype
          exact hsize (htype ▸ List.mem_cons_self) h
        · exact h
        · intro u u' hu
          exact ih (fun t ht => hcovers t (List.mem_cons_of_mem s ht)) hlength.2
            (fun hmem => hsize (List.mem_cons_of_mem _ hmem)) hu

omit [SerializableMessage M] in
/-- Local variables that differ in the message only, and there by what two
passes have found. -/
theorem respected_but_msg (msg₁ msg₂ : Option M) :
    Respected fun v v' : Locals M => { v with msg := v'.msg } = v' ∧
      (v.msg = msg₁ ∧ v'.msg = msg₂ ∨ v.msg = v'.msg) := by
  constructor
  · rintro v v' ⟨h, -⟩
    rw [← h]
    exact ⟨rfl, rfl⟩
  · rintro v v' crc ⟨h, hmsg⟩
    rw [← h]
    exact ⟨rfl, hmsg⟩
  · rintro v v' footer ⟨h, hmsg⟩
    rw [← h]
    exact ⟨rfl, hmsg⟩
  · rintro v v' data size ⟨h, hmsg⟩
    rw [← h]
    exact ⟨rfl, hmsg⟩
  · rintro v v' cmd msg ⟨h, -⟩
    rw [← h]
    exact ⟨rfl, .inr rfl⟩
  · rintro v v' cmd ⟨h, -⟩
    rw [← h]
    exact ⟨rfl, .inr rfl⟩

omit [SerializableMessage M] in
/-- Local variables that agree in what decides how the pass goes on. -/
theorem respected_same_msg :
    Respected fun v v' : Locals M =>
      v.msg = v'.msg ∧ v.isCmdNull = v'.isCmdNull ∧ v.isFooterOk = v'.isFooterOk := by
  constructor
  · exact fun h => h.2
  · exact fun _ h => h
  · exact fun _ h => h
  · exact fun _ _ h => h
  · exact fun _ _ h => ⟨rfl, h.2⟩
  · exact fun _ h => ⟨rfl, rfl, h.2.2⟩

/-- Without a Length section the message decides on the size. -/
theorem frameSize_congr {p : PacketStructure M} (hframed : p.isLengthExist = false)
    (h : v.msg = v'.msg) : frameSize p v = frameSize p v' := by
  rw [frameSize, frameSize, hframed, h]
  rfl

/-- A CMD section makes no use of the message it finds. -/
theorem sectionsLoop_cmd {c : CMDSection M} {ss : List (Section M)} (msg : Option M)
    (hnull : v.isCmdNull = false) (hok : v.isFooterOk = true) :
    x.reading.sectionsLoop (.cmd c :: ss) { v with msg := msg }
      = x.reading.sectionsLoop (.cmd c :: ss) v := by
  rw [sectionsLoop_cons hnull hok, sectionsLoop_cons (v := { v with msg := msg }) hnull hok]
  rfl

/-- Up to the first CMD section only the sizes of Data tell passes apart. -/
theorem pass_congr (hcovers : ∀ s ∈ x.packetSections, x.packetStructure.Covers s.getType)
    (hframed : x.packetStructure.isLengthExist = false)
    (hlength : .length ∉ x.packetSections.map Section.getType) {pre post : List (Section M)}
    {c : CMDSection M} (hsplit : x.packetSections = pre ++ .cmd c :: post) {msg₁ msg₂ : Option M}
    (hsize : .data ∈ pre.map Section.getType →
      frameSize x.packetStructure { msg := msg₁ } = frameSize x.packetStructure { msg := msg₂ }) :
    x.pass msg₁ = x.pass msg₂ := by
  rw [hsplit] at hcovers hlength
  rw [pass, pass, hsplit, sectionsLoop_append, sectionsLoop_append, Prog.bind_assoc,
    Prog.bind_assoc]
  apply (respected_but_msg msg₁ msg₂).sectionsLoop
    (fun s hs => hcovers s (List.mem_append_left _ hs))
  · intro hmem
    rw [List.map_append] at hlength
    exact hlength (List.mem_append_left _ hmem)
  · rintro hdata u u' ⟨-, ⟨hu, hu'⟩ | hmsg⟩
    · have hfirst : frameSize x.packetStructure u = frameSize x.packetStructure { msg := msg₁ } :=
        frameSize_congr hframed hu
      rw [hfirst, hsize hdata]
      exact frameSize_congr hframed hu'.symm
    · exact frameSize_congr hframed hmsg
  · exact ⟨rfl, .inl ⟨rfl, rfl⟩⟩
  · rintro u u' ⟨h, -⟩
    rw [← h]
    by_cases hstop : (u.isCmdNull || !u.isFooterOk) = true
    · rw [sectionsLoop_stop _ hstop, sectionsLoop_stop (v := { u with msg := u'.msg }) _ hstop]
      rfl
    · simp only [Bool.or_eq_true, Bool.not_eq_true', not_or, Bool.not_eq_true,
        Bool.not_eq_false] at hstop
      rw [sectionsLoop_cmd u'.msg hstop.1 hstop.2]

/-! ## What a pass can find -/

/-- A message that a pass finds was made by the factory. -/
def Found (x : MessageExtractor M) (msg : Option M) : Prop :=
  ∀ m, msg = some m → .cmd ∈ x.packetSections.map Section.getType ∧ Builds x.packetStructure m

theorem found_readSection {s : Section M} (hs : s ∈ x.packetSections)
    (hcovers : x.packetStructure.Covers s.getType) (h : Found x v.msg) :
    Prog.wp (fun _ => True) (fun u => Found x u.msg) (x.reading.readSection v s.getType) := by
  cases ht : s.getType with
  | header => exact h
  | other => exact h
  | length => exact wp_readLength.mpr fun _ _ => ⟨fun _ => trivial, fun _ _ _ _ => h⟩
  | crc => exact wp_readCrc.mpr fun _ _ => ⟨fun _ => trivial, fun _ _ => h⟩
  | footer => exact wp_readFooter.mpr fun _ _ => ⟨fun _ => trivial, fun _ _ => h⟩
  | data =>
      rw [ht] at hcovers
      show Prog.wp _ _ (x.reading.readData v)
      rw [readData_eq hcovers, Prog.wp_bind, wp_ask]
      exact ⟨trivial, fun _ => h⟩
  | cmd =>
      have hmem : PacketSections.cmd ∈ x.packetSections.map Section.getType :=
        List.mem_map.mpr ⟨s, hs, ht⟩
      refine wp_readCmd.mpr fun c hc => ⟨fun _ => trivial, fun cmd hcmd factory hfac =>
        ⟨fun msg hmsg m hm => ?_, fun _ _ _ => ⟨trivial, fun m hm => ?_⟩⟩⟩
      · cases hm
        exact ⟨hmem, c, factory, cmd, hc, hfac, hcmd, hmsg⟩
      · cases hm

theorem found_sectionsLoop (hcovers : ∀ s ∈ x.packetSections, x.packetStructure.Covers s.getType)
    {ss : List (Section M)} (hss : ∀ s ∈ ss, s ∈ x.packetSections) (h : Found x v.msg) :
    Prog.wp (fun _ => True) (fun u => Found x u.msg) (x.reading.sectionsLoop ss v) := by
  induction ss generalizing v with
  | nil => exact h
  | cons s ss ih =>
      have hs := hss s List.mem_cons_self
      rw [sectionsLoop]
      split
      · exact h
      · rw [Prog.wp_bind]
        apply Prog.wp_mono _ (found_readSection hs (hcovers s hs) h)
        intro u hu
        exact ih (fun t ht => hss t (List.mem_cons_of_mem s ht)) hu

theorem Reaches.found (hcovers : ∀ s ∈ x.packetSections, x.packetStructure.Covers s.getType)
    {stream : Bytes} {msg : Option M} (h : Reaches x stream msg bytes) : Found x msg := by
  induction h with
  | start => exact fun m hm => by cases hm
  | next _ hrun ih =>
      exact Prog.wp_of_run (Q := fun u : Locals M => Found x u.msg)
        (found_sectionsLoop hcovers (fun s hs => hs) ih) hrun

omit [SerializableMessage M] in
/-- The sections in front of the first CMD section. -/
theorem split_first_cmd {ss : List (Section M)} (h : .cmd ∈ ss.map Section.getType) :
    ∃ pre c post, ss = pre ++ .cmd c :: post ∧ .cmd ∉ pre.map Section.getType := by
  induction ss with
  | nil => cases h
  | cons s ss ih =>
      by_cases hs : s.getType = .cmd
      · cases s with
        | cmd c => exact ⟨[], c, ss, rfl, List.not_mem_nil⟩
        | _ => cases hs
      · have hmem : .cmd ∈ ss.map Section.getType := by
          rw [List.map_cons, List.mem_cons] at h
          exact h.resolve_left (Ne.symm hs)
        obtain ⟨pre, c, post, rfl, hpre⟩ := ih hmem
        refine ⟨s :: pre, c, post, rfl, ?_⟩
        rw [List.map_cons, List.mem_cons, not_or]
        exact ⟨Ne.symm hs, hpre⟩

/-- **Enough.** Where the sizes cannot differ, neither can passes. -/
theorem independent_of_fixed
    (hcovers : ∀ s ∈ x.packetSections, x.packetStructure.Covers s.getType)
    (hframed : x.packetStructure.isLengthExist = false)
    (hlength : .length ∉ x.packetSections.map Section.getType)
    (hfixed : DataFirst x.packetSections → BuildsFixed x.packetStructure) : Independent x := by
  intro stream₁ stream₂ msg₁ msg₂ bytes h₁ h₂
  have hfound₁ := h₁.found hcovers
  have hfound₂ := h₂.found hcovers
  by_cases hcmd : .cmd ∈ x.packetSections.map Section.getType
  · obtain ⟨pre, c, post, hsplit, hpre⟩ := split_first_cmd hcmd
    rw [pass_congr hcovers hframed hlength hsplit]
    intro hdata
    have hbuilds := hfixed ⟨pre, c, post, hsplit, hpre, hdata⟩
    obtain ⟨s, hs, htype⟩ := List.mem_map.mp hdata
    have hcover := hcovers s (by rw [hsplit]; exact List.mem_append_left _ hs)
    rw [htype] at hcover
    obtain ⟨d, hd⟩ := Option.isSome_iff_exists.mp hcover
    -- every message that can be found asks for the fixed size
    have hsize : ∀ msg, Found x msg → frameSize x.packetStructure { msg := msg } = d.fixSizeBytes := by
      intro msg hfound
      rw [frameSize, hframed, hd]
      cases msg with
      | none => rfl
      | some m => exact hbuilds m d (hfound m rfl).2 hd
    rw [hsize msg₁ hfound₁, hsize msg₂ hfound₂]
  · have hnone : ∀ msg, Found x msg → msg = none := by
      intro msg hfound
      cases msg with
      | none => rfl
      | some m => exact absurd (hfound m rfl).1 hcmd
    rw [hnone msg₁ hfound₁, hnone msg₂ hfound₂]

/-! ## Telling the histories apart -/

omit [SerializableMessage M] in
theorem serveBytes_append {r : Request} {answer : r.Answer} (tail : Bytes)
    (h : serveBytes bytes r = some (answer, rest)) :
    serveBytes (bytes ++ tail) r = some (answer, rest ++ tail) := by
  cases r with
  | packetSectionError e texts =>
      cases h
      rfl
  | read len =>
      rw [serveBytes] at h ⊢
      split at h
      · rename_i hle
        cases h
        have hle' : len.toNat ≤ (bytes ++ tail).length := by
          rw [List.length_append]
          omega
        rw [dif_pos hle']
        congr 2
        · exact Subtype.ext (List.take_append_of_le_length hle)
        · exact List.drop_append_of_le_length hle
      · cases h

omit [SerializableMessage M] in
/-- What comes behind the bytes that were read does not matter. -/
theorem runBytes_append {β : Type} {p : Extract β} {a : Except Fault β} (tail : Bytes)
    (hrun : runBytes p bytes = some (a, rest)) :
    runBytes p (bytes ++ tail) = some (a, rest ++ tail) := by
  induction p generalizing bytes with
  | done b =>
      cases hrun
      rfl
  | fail e =>
      cases hrun
      rfl
  | ask r k ih =>
      obtain ⟨⟨answer, mid⟩, hserve, hrest⟩ := Option.bind_eq_some_iff.mp hrun
      exact (Prog.run_ask (serveBytes_append tail hserve)).trans (ih answer hrest)

/-- What a section of the type takes where Data takes `size`. -/
def fieldSize (p : PacketStructure M) (size : Nat) : PacketSections → Nat
  | .data => size
  | .crc => crcSize p
  | .footer => footerSize p
  | .header | .length | .cmd | .other => 0

/-- What the sections in front of a command take. -/
def prefixSize (p : PacketStructure M) (size : Nat) : List PacketSections → Nat
  | [] => 0
  | t :: ts => fieldSize p size t + prefixSize p size ts

omit [SerializableMessage M] in
theorem prefixSize_le {p : PacketStructure M} {size size' : Nat} (hle : size ≤ size')
    (ts : List PacketSections) : prefixSize p size ts ≤ prefixSize p size' ts := by
  induction ts with
  | nil => exact Nat.le_refl 0
  | cons t ts ih =>
      cases t with
      | data => exact Nat.add_le_add hle ih
      | _ => exact Nat.add_le_add_left ih _

omit [SerializableMessage M] in
/-- It tells the sizes of Data apart. -/
theorem prefixSize_lt {p : PacketStructure M} {size size' : Nat} {ts : List PacketSections}
    (hlt : size < size') (h : .data ∈ ts) : prefixSize p size ts < prefixSize p size' ts := by
  induction ts with
  | nil => cases h
  | cons t ts ih =>
      cases t with
      | data => exact Nat.add_lt_add_of_lt_of_le hlt (prefixSize_le (Nat.le_of_lt hlt) ts)
      | _ => exact Nat.add_lt_add_left (ih (List.mem_of_ne_of_mem (by simp) h)) _

/-- One section in front of a command. -/
theorem runBytes_field {t : PacketSections} (hcovers : x.packetStructure.Covers t)
    (hcmd : t ≠ .cmd) (hlength : t ≠ .length) (v : Locals M) (bytes : Bytes) :
    ∃ u, (u.msg = v.msg ∧ u.isCmdNull = v.isCmdNull ∧ u.isFooterOk = v.isFooterOk) ∧
      runBytes (x.reading.readSection v t) bytes
        = if fieldSize x.packetStructure (frameSize x.packetStructure v).toNat t ≤ bytes.length then
            some (.ok u, bytes.drop
              (fieldSize x.packetStructure (frameSize x.packetStructure v).toNat t))
          else none := by
  cases t with
  | header => exact ⟨v, ⟨rfl, rfl, rfl⟩, rfl⟩
  | other => exact ⟨v, ⟨rfl, rfl, rfl⟩, rfl⟩
  | cmd => exact absurd rfl hcmd
  | length => exact absurd rfl hlength
  | data =>
      refine ⟨_, ?_, runBytes_readData (v := v) hcovers bytes⟩
      exact ⟨rfl, rfl, rfl⟩
  | crc =>
      obtain ⟨c, hc⟩ := Option.isSome_iff_exists.mp hcovers
      rw [fieldSize, crcSize, hc]
      refine ⟨_, ?_, runBytes_readCrc (v := v) hc bytes⟩
      exact ⟨rfl, rfl, rfl⟩
  | footer =>
      obtain ⟨f, hf⟩ := Option.isSome_iff_exists.mp hcovers
      rw [fieldSize, footerSize, hf]
      refine ⟨_, ?_, runBytes_readFooter (v := v) hf bytes⟩
      exact ⟨rfl, rfl, rfl⟩

/-- All of them. -/
theorem runBytes_beforeCmd {pre : List (Section M)}
    (hcovers : ∀ s ∈ pre, x.packetStructure.Covers s.getType)
    (hcmd : .cmd ∉ pre.map Section.getType) (hlength : .length ∉ pre.map Section.getType)
    (hframed : x.packetStructure.isLengthExist = false) (hnull : v.isCmdNull = false)
    (hok : v.isFooterOk = true) (bytes : Bytes) :
    ∃ u, (u.isCmdNull = false ∧ u.isFooterOk = true) ∧
      runBytes (x.reading.sectionsLoop pre v) bytes
        = if prefixSize x.packetStructure (frameSize x.packetStructure v).toNat
              (pre.map Section.getType) ≤ bytes.length then
            some (.ok u, bytes.drop (prefixSize x.packetStructure
              (frameSize x.packetStructure v).toNat (pre.map Section.getType)))
          else none := by
  induction pre generalizing v bytes with
  | nil => exact ⟨v, ⟨hnull, hok⟩, rfl⟩
  | cons s ss ih =>
      rw [List.map_cons, List.mem_cons, not_or] at hcmd hlength
      rw [List.map_cons, prefixSize, sectionsLoop_cons hnull hok]
      obtain ⟨u, ⟨hmsg, hnull', hok'⟩, hread⟩ := runBytes_field (hcovers s List.mem_cons_self)
        (Ne.symm hcmd.1) (Ne.symm hlength.1) v bytes
      generalize fieldSize x.packetStructure (frameSize x.packetStructure v).toNat s.getType = k
        at hread ⊢
      obtain ⟨w, hw, hrest⟩ := ih (v := u) (fun t ht => hcovers t (List.mem_cons_of_mem s ht))
        hcmd.2 hlength.2 (hnull'.trans hnull) (hok'.trans hok) (bytes.drop k)
      rw [frameSize_congr hframed hmsg, List.length_drop, List.drop_drop] at hrest
      refine ⟨w, hw, ?_⟩
      by_cases hk : k ≤ bytes.length
      · rw [if_pos hk] at hread
        rw [runBytes, Prog.run_bind_ok hread]
        refine hrest.trans ?_
        congr 1
        exact propext (by omega)
      · rw [if_neg hk] at hread
        rw [runBytes, Prog.run_bind_none hread, if_neg (by omega)]

/-- From the first CMD section on, nothing that was found decides whether the
pass comes to its end. -/
theorem isSome_sectionsLoop_cmd {c : CMDSection M} {post : List (Section M)}
    (hcovers : ∀ s ∈ .cmd c :: post, x.packetStructure.Covers s.getType)
    (hlength : .length ∉ (.cmd c :: post : List (Section M)).map Section.getType)
    (hframed : x.packetStructure.isLengthExist = false) (hnull : v.isCmdNull = false)
    (hok : v.isFooterOk = true) (bytes : Bytes) :
    (runBytes (x.reading.sectionsLoop (.cmd c :: post) v) bytes).isSome
      = (runBytes (x.reading.sectionsLoop (.cmd c :: post) { msg := none }) bytes).isSome := by
  have hsame : x.reading.sectionsLoop (.cmd c :: post) { v with msg := none } >>= (fun _ => pure ())
      = x.reading.sectionsLoop (.cmd c :: post) { msg := none } >>= fun _ => pure () := by
    apply respected_same_msg.sectionsLoop hcovers hlength
    · intro _ u u' h
      exact frameSize_congr hframed h.1
    · exact ⟨rfl, hnull, hok⟩
    · intro _ _ _
      rfl
  rw [sectionsLoop_cmd none hnull hok] at hsame
  rw [runBytes, ← Prog.isSome_run_bind_pure _ fun _ => (), hsame, Prog.isSome_run_bind_pure]

/-- When a pass comes to its end: the sections in front of the first CMD
section take what depends on the message, the others what does not. -/
theorem isSome_pass_iff (hcovers : ∀ s ∈ x.packetSections, x.packetStructure.Covers s.getType)
    (hframed : x.packetStructure.isLengthExist = false)
    (hlength : .length ∉ x.packetSections.map Section.getType) {pre post : List (Section M)}
    {c : CMDSection M} (hsplit : x.packetSections = pre ++ .cmd c :: post)
    (hpre : .cmd ∉ pre.map Section.getType) (msg : Option M) {k : Nat}
    (hk : k = prefixSize x.packetStructure (frameSize x.packetStructure { msg := msg }).toNat
      (pre.map Section.getType)) (bytes : Bytes) :
    (runBytes (x.pass msg) bytes).isSome = true ↔ k ≤ bytes.length ∧
      (runBytes (x.reading.sectionsLoop (.cmd c :: post) { msg := none })
        (bytes.drop k)).isSome = true := by
  subst hk
  rw [hsplit] at hcovers hlength
  rw [List.map_append, List.mem_append, not_or] at hlength
  obtain ⟨u, ⟨hnull, hok⟩, hrun⟩ := runBytes_beforeCmd (v := { msg := msg })
    (fun s hs => hcovers s (List.mem_append_left _ hs)) hpre hlength.1 hframed rfl rfl bytes
  rw [pass, hsplit, runBytes, Prog.isSome_run_bind_pure, sectionsLoop_append]
  generalize prefixSize x.packetStructure _ _ = k at hrun ⊢
  by_cases hle : k ≤ bytes.length
  · rw [if_pos hle] at hrun
    have htail := isSome_sectionsLoop_cmd
      (fun s hs => hcovers s (List.mem_append_right _ hs)) hlength.2 hframed hnull hok
      (bytes.drop k)
    rw [Prog.run_bind_ok hrun, ← htail]
    exact ⟨fun h => ⟨hle, h⟩, fun h => h.2⟩
  · rw [if_neg hle] at hrun
    rw [Prog.run_bind_none hrun]
    exact ⟨fun h => (by cases h), fun h => absurd h.1 hle⟩

/-- Some stream brings the factory's message about. -/
theorem exists_stream {m : M} (hm : Builds x.packetStructure m) {ss : List (Section M)}
    (hcovers : ∀ s ∈ ss, x.packetStructure.Covers s.getType)
    (hlength : .length ∉ ss.map Section.getType) (hnull : v.isCmdNull = false)
    (hok : v.isFooterOk = true) :
    ∃ bytes u, runBytes (x.reading.sectionsLoop ss v) bytes = some (.ok u, []) ∧
      (u.msg = some m ∨ .cmd ∉ ss.map Section.getType ∧ u.msg = v.msg) := by
  induction ss generalizing v with
  | nil => exact ⟨[], v, rfl, .inr ⟨List.not_mem_nil, rfl⟩⟩
  | cons s ss ih =>
      rw [List.map_cons, List.mem_cons, not_or] at hlength
      have hrest : ∀ t ∈ ss, x.packetStructure.Covers t.getType :=
        fun t ht => hcovers t (List.mem_cons_of_mem s ht)
      rw [sectionsLoop_cons hnull hok]
      by_cases hs : s.getType = .cmd
      · obtain ⟨c, factory, cmd, hc, hfac, hcmd, hmsg⟩ := hm
        obtain ⟨bytes, u, hrun, hu⟩ :=
          ih (v := { v with cmd := cmd, msg := some m }) hrest hlength.2 hnull hok
        have htake : (cmd ++ bytes).take c.sizeBytes.toNat = cmd := by
          rw [← hcmd, List.take_left]
        have hdrop : (cmd ++ bytes).drop c.sizeBytes.toNat = bytes := by
          rw [← hcmd, List.drop_left]
        have hle : c.sizeBytes.toNat ≤ (cmd ++ bytes).length := by
          rw [List.length_append, hcmd]
          omega
        have hread := runBytes_readCmd (v := v) hc hfac hle (htake.symm ▸ hmsg)
        rw [htake, hdrop] at hread
        refine ⟨cmd ++ bytes, u, ?_, .inl (hu.elim id And.right)⟩
        rw [hs]
        exact (Prog.run_bind_ok hread).trans hrun
      · obtain ⟨w, ⟨hmsg, hnull', hok'⟩, hfield⟩ := runBytes_field (hcovers s List.mem_cons_self)
          hs (Ne.symm hlength.1) v (List.replicate (fieldSize x.packetStructure
            (frameSize x.packetStructure v).toNat s.getType) 0)
        rw [List.length_replicate, if_pos (Nat.le_refl _), List.drop_replicate, Nat.sub_self] at hfield
        obtain ⟨bytes, u, hrun, hu⟩ :=
          ih (v := w) hrest hlength.2 (hnull'.trans hnull) (hok'.trans hok)
        refine ⟨_ ++ bytes, u, (Prog.run_bind_ok (runBytes_append bytes hfield)).trans hrun, ?_⟩
        rw [List.map_cons, List.mem_cons, not_or, ← hmsg]
        exact hu.imp_right fun h => ⟨⟨Ne.symm hs, h.1⟩, h.2⟩

omit [SerializableMessage M] in
/-- A predicate that still holds behind `k'` bytes whenever it holds behind
`k` has `k'` no greater than `k`: else the lists that meet it had no
shortest. -/
theorem skip_le {C : Bytes → Prop} {k k' : Nat} (hex : ∃ bytes, C bytes)
    (h : ∀ bytes : Bytes, k ≤ bytes.length → C (bytes.drop k) →
      k' ≤ bytes.length ∧ C (bytes.drop k')) : k' ≤ k := by
  by_contra hlt
  obtain ⟨bytes, hC⟩ := hex
  induction hn : bytes.length using Nat.strongRecOn generalizing bytes with
  | ind n ih =>
      have hlen : (List.replicate k 0 ++ bytes).length = k + bytes.length := by
        rw [List.length_append, List.length_replicate]
      obtain ⟨hle, hC'⟩ := h (List.replicate k 0 ++ bytes) (by omega)
        (by rwa [List.drop_left' List.length_replicate])
      refine ih _ ?_ _ hC' rfl
      rw [List.length_drop]
      omega

/-- **Only so.** Where a message has another size, its pass and the first one
end on different streams. -/
theorem fixed_of_independent
    (hcovers : ∀ s ∈ x.packetSections, x.packetStructure.Covers s.getType)
    (hframed : x.packetStructure.isLengthExist = false)
    (hlength : .length ∉ x.packetSections.map Section.getType) (h : Independent x)
    (hfirst : DataFirst x.packetSections) : BuildsFixed x.packetStructure := by
  intro m d hbuilds hd
  obtain ⟨pre, c, post, hsplit, hpre, hdata⟩ := hfirst
  obtain ⟨stream, u, hrun, hu⟩ := exists_stream (v := { msg := none }) hbuilds hcovers hlength rfl rfl
  have hmem : .cmd ∈ x.packetSections.map Section.getType := by
    rw [hsplit, List.map_append]
    exact List.mem_append_right _ List.mem_cons_self
  have hmsg : u.msg = some m := hu.resolve_right fun hno => hno.1 hmem
  -- the first pass and the one behind it agree on every stream
  have hagree : ∀ bytes, runBytes (x.pass none) bytes = runBytes (x.pass (some m)) bytes := by
    intro bytes
    have hstart : Reaches x (stream ++ bytes) none (stream ++ bytes) := .start
    have hnext := hstart.next (runBytes_append bytes hrun)
    rw [hmsg] at hnext
    exact h _ _ _ _ _ Reaches.start hnext
  have hends := fun msg => isSome_pass_iff hcovers hframed hlength hsplit hpre msg rfl
  have hex : ∃ bytes, (runBytes (x.reading.sectionsLoop (.cmd c :: post) { msg := none })
      bytes).isSome = true := by
    have hpass : (runBytes (x.pass none) stream).isSome = true := by
      rw [pass, runBytes, Prog.isSome_run_bind_pure]
      exact (congrArg Option.isSome hrun).trans rfl
    exact ⟨_, ((hends none stream).mp hpass).2⟩
  have hsize : ∀ msg msg', (∀ bytes, runBytes (x.pass msg) bytes = runBytes (x.pass msg') bytes) →
      ¬ (frameSize x.packetStructure { msg := msg }).toNat
        < (frameSize x.packetStructure { msg := msg' }).toNat := by
    intro msg msg' hsame hlt
    have hle := skip_le hex fun bytes hk hC =>
      (hends msg' bytes).mp (hsame bytes ▸ (hends msg bytes).mpr ⟨hk, hC⟩)
    exact absurd hle (Nat.not_le_of_lt (prefixSize_lt hlt hdata))
  have heq : frameSize x.packetStructure { msg := some m }
      = frameSize x.packetStructure { msg := none } := by
    apply UInt32.toNat_inj.mp
    have hle := hsize none (some m) hagree
    have hge := hsize (some m) none fun bytes => (hagree bytes).symm
    omega
  rw [frameSize, frameSize, hframed, hd] at heq
  exact heq

/-- **Are passes independent?** In a structure without a Length section. -/
theorem independent_iff {init : List (Section M) → List (Section M)}
    (hnew : MessageExtractor.new {} init = .ok x) (hlength : .length ∉ (init []).map Section.getType) :
    Independent x ↔ (DataFirst (init []) → BuildsFixed x.packetStructure) := by
  have hcovers := covers_of_new hnew
  have hframed : x.packetStructure.isLengthExist = false :=
    Bool.eq_false_iff.mpr fun hexist => hlength ((framed_iff_of_new hnew).mp hexist)
  rw [← (new_spec hnew).2] at hlength ⊢
  exact ⟨fixed_of_independent hcovers hframed hlength, independent_of_fixed hcovers hframed hlength⟩

/-- Data of `k` bytes before a command of one byte, whose message always has
size one. -/
def dataFirstLayout (k : UInt32) : List (Section Blob) :=
  [.data ⟨k⟩, .cmd ⟨1, some fun _ => some ⟨[0]⟩⟩]

/-- What the constructor makes of it. -/
def dataFirstExtractor (k : UInt32) : MessageExtractor Blob :=
  { packetStructure :=
      { packet := dataFirstLayout k, data := some ⟨k⟩,
        cmd := some ⟨1, some fun _ => some ⟨[0]⟩⟩, isDataExist := true, isCmdExist := true },
    packetSections := dataFirstLayout k, extractor := none }

theorem new_dataFirstLayout (k : UInt32) :
    MessageExtractor.new {} (fun _ => dataFirstLayout k) = .ok (dataFirstExtractor k) := rfl

theorem length_not_mem_dataFirstLayout (k : UInt32) :
    PacketSections.length ∉ (dataFirstLayout k).map Section.getType := by
  simp [dataFirstLayout, Section.getType]

/-- Where the fixed size is one as well. -/
theorem independent_dataFirst_one : Independent (dataFirstExtractor 1) := by
  apply (independent_iff (new_dataFirstLayout 1) (length_not_mem_dataFirstLayout 1)).mpr
  rintro - m d ⟨c, factory, cmd, hc, hfac, -, hmsg⟩ hd
  cases hc
  cases hfac
  cases hmsg
  cases hd
  rfl

/-- A fixed size of two: on `05 06 07` the first pass takes `05 06` as data,
the one behind `00 00 01` only `05`. -/
theorem leftover_message_frames :
    ¬ ∀ (init : List (Section Blob) → List (Section Blob)) (x : MessageExtractor Blob),
      MessageExtractor.new {} init = .ok x → .length ∉ (init []).map Section.getType →
        Independent x := by
  intro hall
  have h := hall _ _ (new_dataFirstLayout 2) (length_not_mem_dataFirstLayout 2)
  obtain ⟨v, hrun, hmsg⟩ : ∃ v, runBytes ((dataFirstExtractor 2).reading.sectionsLoop
      (dataFirstExtractor 2).packetSections { msg := none }) [0, 0, 1, 5, 6, 7]
        = some (.ok v, [5, 6, 7]) ∧ v.msg = some ⟨[0]⟩ := ⟨_, rfl, rfl⟩
  have hnext := Reaches.next Reaches.start hrun
  rw [hmsg] at hnext
  have hrest := congrArg (Option.map Prod.snd) (h _ _ _ _ _ Reaches.start hnext)
  exact absurd hrest (by decide)

end MessageExtractor

end HpLib
