import HpLib.Peripheral.Partition

/-!
# The passes cut the stream up

`find_message` goes round for ever. Each pass takes up the stream where the
one before it left it, and takes over its message object. On a stream that is
long enough for `k` passes these cut its beginning into the fields of `k`
packets without a gap (`passes_cut`). A packet here is what one pass takes: of
a Header section it takes no byte, whatever its content.

`extractor_` is taken to be the packet structure (`reading`); nothing in the
source sets it, and without it a pass fails at its first section that is no
Header.
-/

namespace HpLib.MessageExtractor

open Lib CircularBuffer PacketStructure

variable {M : Type} [SerializableMessage M]

/-- The first `k` passes, with the local variables each of them ends with. -/
def passes (x : MessageExtractor M) : Nat → Option M → Extract (List (Locals M))
  | 0, _ => return []
  | k + 1, msg => do
      let v ← x.sectionsLoop x.packetSections { msg := msg }
      let vs ← x.passes k v.msg
      return v :: vs

/-- The message object after the passes. -/
def lastMsg (msg : Option M) (vs : List (Locals M)) : Option M :=
  vs.foldl (fun _ v => v.msg) msg

/-- `find_message` is its first passes and then the others. -/
theorem findLoop_eq_passes (x : MessageExtractor M) (k fuel : Nat) (msg : Option M) :
    x.findLoop (k + fuel) msg false
      = x.passes k msg >>= fun vs => x.findLoop fuel (lastMsg msg vs) false := by
  induction k generalizing msg with
  | zero =>
      rw [Nat.zero_add]
      rfl
  | succ k ih =>
      rw [Nat.add_right_comm, findLoop, passes, Prog.bind_assoc]
      congr 1
      funext v
      rw [ih, Prog.bind_assoc]
      rfl

/-- What a pass leaves of the bytes, and the message object it hands on. -/
def leftBy (framed : Bool) : Nat → Option M → List (Section M) → Bytes → Bytes × Option M
  | _, msg, [], bytes => (bytes, msg)
  | declared, msg, s :: ss, bytes =>
      let chunk := bytes.take (sectionSize framed declared msg s)
      leftBy framed (nextDeclared declared chunk s) (nextMsg msg chunk s) ss
        (bytes.drop (sectionSize framed declared msg s))

/-- There are as many bytes as `k` passes take. -/
def LongEnoughFor (framed : Bool) (ss : List (Section M)) : Nat → Option M → Bytes → Prop
  | 0, _, _ => True
  | k + 1, msg, bytes =>
      LongEnough framed 0 msg ss bytes ∧
        LongEnoughFor framed ss k (leftBy framed 0 msg ss bytes).2 (leftBy framed 0 msg ss bytes).1

instance decidableLongEnoughFor (framed : Bool) (ss : List (Section M)) : (k : Nat) →
    (msg : Option M) → (bytes : Bytes) → Decidable (LongEnoughFor framed ss k msg bytes)
  | 0, _, _ => isTrue trivial
  | k + 1, msg, bytes =>
      have := decidableLongEnoughFor framed ss k (leftBy framed 0 msg ss bytes).2
        (leftBy framed 0 msg ss bytes).1
      inferInstanceAs (Decidable (LongEnough framed 0 msg ss bytes ∧ _))

/-- The passes take `bytes` down to `rest`, one packet after the other, and
each packet has the fields and the sizes of its sections. -/
def Cuts (ss : List (Section M)) : Option M → List (Locals M) → Bytes → Bytes → Prop
  | _, [], bytes, rest => rest = bytes
  | msg, v :: vs, bytes, rest =>
      ∃ packet tail, bytes = packet ++ tail ∧ Partitions ss v packet ∧ Sized ss msg v ∧
        Cuts ss v.msg vs tail rest

variable {x : MessageExtractor M} {v : Locals M} {bytes : Bytes}

omit [SerializableMessage M] in
theorem filled_msg (v : Locals M) (chunk : Bytes) (s : Section M) :
    (filled v chunk s).msg = nextMsg v.msg chunk s := by
  cases s <;> rfl

omit [SerializableMessage M] in
theorem filled_dataLen (v : Locals M) (chunk : Bytes) (s : Section M) :
    (filled v chunk s).dataLen.toNat = nextDeclared v.dataLen.toNat chunk s := by
  cases s with
  | length l => exact UInt32.toNat_ofNat_of_lt' (declaredBy_lt l _)
  | _ => rfl

/-- Where a pass ends. -/
theorem runBytes_sectionsLoop_left {ss : List (Section M)}
    (hpoints : ∀ s ∈ ss, x.packetStructure.PointsTo s)
    (hfactory : ∀ c, .cmd c ∈ ss → ∃ factory, c.msgFactory = some factory ∧
      ∀ cmd, (factory cmd).isSome = true)
    (hnull : v.isCmdNull = false) (hok : v.isFooterOk = true) (hlt : bytes.length < 2 ^ 32)
    (hlong : LongEnough x.packetStructure.isLengthExist v.dataLen.toNat v.msg ss bytes) :
    ∃ v', runBytes (x.reading.sectionsLoop ss v) bytes
        = some (.ok v', (leftBy x.packetStructure.isLengthExist v.dataLen.toNat v.msg ss bytes).1) ∧
      v'.msg = (leftBy x.packetStructure.isLengthExist v.dataLen.toNat v.msg ss bytes).2 := by
  induction ss generalizing v bytes with
  | nil => exact ⟨v, rfl, rfl⟩
  | cons s ss ih =>
      obtain ⟨hle, hlong⟩ := hlong
      have hread := runBytes_readSection (v := v) (hpoints s List.mem_cons_self)
        (fun c hc => hfactory c (hc ▸ List.mem_cons_self)) hlt hle
      have hleft : leftBy x.packetStructure.isLengthExist v.dataLen.toNat v.msg (s :: ss) bytes
          = leftBy x.packetStructure.isLengthExist
              (nextDeclared v.dataLen.toNat (bytes.take (sectionSize
                x.packetStructure.isLengthExist v.dataLen.toNat v.msg s)) s)
              (nextMsg v.msg (bytes.take (sectionSize x.packetStructure.isLengthExist
                v.dataLen.toNat v.msg s)) s) ss
              (bytes.drop (sectionSize x.packetStructure.isLengthExist v.dataLen.toNat v.msg s)) :=
        rfl
      rw [hleft]
      generalize sectionSize x.packetStructure.isLengthExist v.dataLen.toNat v.msg s = size
        at hle hlong hread
      have hdrop : (bytes.drop size).length < 2 ^ 32 := by
        rw [List.length_drop]
        omega
      rw [← filled_msg, ← filled_dataLen] at hlong ⊢
      obtain ⟨v', hrun, hmsg'⟩ := ih (fun t ht => hpoints t (List.mem_cons_of_mem s ht))
        (fun c hc => hfactory c (List.mem_cons_of_mem s hc))
        (by cases s <;> exact hnull) (by cases s <;> exact hok) hdrop hlong
      refine ⟨v', ?_, hmsg'⟩
      rw [sectionsLoop_cons hnull hok]
      exact (Prog.run_bind_ok hread).trans hrun

/-- **One pass** cuts a packet off. -/
theorem runBytes_pass {init : List (Section M) → List (Section M)}
    (hnew : MessageExtractor.new {} init = .ok x) (hone : AtMostOne (init []))
    (hfactory : ∀ c, .cmd c ∈ init [] → ∃ factory, c.msgFactory = some factory ∧
      ∀ cmd, (factory cmd).isSome = true) (msg : Option M) (hlt : bytes.length < 2 ^ 32)
    (hlong : LongEnough x.packetStructure.isLengthExist 0 msg (init []) bytes) :
    ∃ v packet, runBytes (x.reading.sectionsLoop x.reading.packetSections { msg := msg }) bytes
        = some (.ok v, (leftBy x.packetStructure.isLengthExist 0 msg (init []) bytes).1) ∧
      bytes = packet ++ (leftBy x.packetStructure.isLengthExist 0 msg (init []) bytes).1 ∧
      v.msg = (leftBy x.packetStructure.isLengthExist 0 msg (init []) bytes).2 ∧
      Partitions (init []) v packet ∧ Sized (init []) msg v := by
  have hpoints := pointsTo_of_new hnew hone
  obtain ⟨v, rest, hrun, hparts, hkeep, hsized⟩ := runBytes_sectionsLoop (v := { msg := msg })
    hpoints hone hfactory rfl rfl hlt hlong
  obtain ⟨v', hrun', hmsg⟩ := runBytes_sectionsLoop_left (v := { msg := msg })
    hpoints hfactory rfl rfl hlt hlong
  cases hrun.symm.trans hrun'
  have hsections : x.reading.packetSections = init [] := (new_spec hnew).2
  rw [hsections]
  refine ⟨v, _, hrun, hparts, hmsg, ⟨rfl, ?_⟩, hsized.sized (framed_iff_of_new hnew)⟩
  intro t ht
  rw [hkeep t ht]
  cases t <;> rfl

theorem runBytes_passes {init : List (Section M) → List (Section M)}
    (hnew : MessageExtractor.new {} init = .ok x) (hone : AtMostOne (init []))
    (hfactory : ∀ c, .cmd c ∈ init [] → ∃ factory, c.msgFactory = some factory ∧
      ∀ cmd, (factory cmd).isSome = true) (k : Nat) (msg : Option M)
    (hlt : bytes.length < 2 ^ 32)
    (hlong : LongEnoughFor x.packetStructure.isLengthExist (init []) k msg bytes) :
    ∃ vs rest, runBytes (x.reading.passes k msg) bytes = some (.ok vs, rest) ∧ vs.length = k ∧
      Cuts (init []) msg vs bytes rest := by
  induction k generalizing msg bytes with
  | zero => exact ⟨[], bytes, rfl, rfl, rfl⟩
  | succ k ih =>
      obtain ⟨hfirst, hlong⟩ := hlong
      obtain ⟨v, packet, hrun, hparts, hmsg, hpart, hsized⟩ :=
        runBytes_pass hnew hone hfactory msg hlt hfirst
      have htail : (leftBy x.packetStructure.isLengthExist 0 msg (init []) bytes).1.length
          < 2 ^ 32 := by
        have hlen := congrArg List.length hparts
        rw [List.length_append] at hlen
        omega
      rw [← hmsg] at hlong
      obtain ⟨vs, rest, hrest, hlen, hcuts⟩ := ih v.msg htail hlong
      refine ⟨v :: vs, rest, ?_, by rw [List.length_cons, hlen], packet, _, hparts, hpart, hsized,
        hcuts⟩
      rw [passes, runBytes, Prog.run_bind_ok hrun, Prog.run_bind_ok hrest]
      rfl

/-- **The passes cut the stream up**: with `extractor_` set, a section of each
type but Header at most and a factory that never returns null, on a buffer
with bytes enough for `k` passes, `find_message` goes round `k` times and
takes `k` packets off, one right behind the other, before it goes on with the
rest. Each packet is the fields of its sections in order, of the sizes that
the structure gives them, and nothing for a Header. -/
theorem passes_cut {init : List (Section M) → List (Section M)}
    (hnew : MessageExtractor.new {} init = .ok x) (hone : AtMostOne (init []))
    (hfactory : ∀ c, .cmd c ∈ init [] → ∃ factory, c.msgFactory = some factory ∧
      ∀ cmd, (factory cmd).isSome = true)
    {n : UInt32} {b : CircularBuffer} {q : BoundedQueue UInt8 (n.toNat - 1)} (hb : Holds n b q)
    (k fuel : Nat)
    (hlong : LongEnoughFor x.packetStructure.isLengthExist (init []) k none q.items) :
    ∃ vs b' q', Holds n b' q' ∧ vs.length = k ∧ Cuts (init []) none vs q.items q'.items ∧
      Prog.run serve (x.reading.passes k none) b = some (.ok vs, b') ∧
      Prog.run serve (x.reading.findMessage (k + fuel)) b
        = Prog.run serve (x.reading.findLoop fuel (lastMsg none vs) false) b' := by
  have hlt : q.items.length < 2 ^ 32 := by
    have hbound := q.bound
    have hn := n.toNat_lt
    omega
  obtain ⟨vs, rest, hrun, hlen, hcuts⟩ := runBytes_passes hnew hone hfactory k none hlt hlong
  obtain ⟨b', q', hb', hholds, rfl⟩ := run_of_runBytes hb hrun
  refine ⟨vs, b', q', hholds, hlen, hcuts, hb', ?_⟩
  rw [findMessage, findLoop_eq_passes]
  exact Prog.run_bind_ok hb'

/-- Two packets of `mixedLayout`, one with three bytes of data and one with
none. -/
theorem passes_cut_mixed :
    ∃ (x : MessageExtractor Blob) (b : CircularBuffer) (q : BoundedQueue UInt8 15),
      q.items = [3, 0xd1, 0xd2, 1, 2, 3, 0x55, 0, 0xe1, 0xe2, 0x55] ∧
      MessageExtractor.new {} (fun packet => packet ++ mixedLayout) = .ok x ∧
      ∃ vs b' q', Holds 16 b' q' ∧ vs.length = 2 ∧ Cuts mixedLayout none vs q.items q'.items ∧
        Prog.run serve (x.reading.passes 2 none) b = some (.ok vs, b') ∧
        Prog.run serve (x.reading.findMessage (2 + 0)) b
          = Prog.run serve (x.reading.findLoop 0 (lastMsg none vs) false) b' := by
  obtain ⟨b, hholds⟩ := exists_holds (n := 16) (by decide)
    ⟨[3, 0xd1, 0xd2, 1, 2, 3, 0x55, 0, 0xe1, 0xe2, 0x55], by decide⟩
  obtain ⟨x, hnew⟩ : ∃ x : MessageExtractor Blob,
      MessageExtractor.new {} (fun packet => packet ++ mixedLayout) = .ok x := ⟨_, rfl⟩
  have hone : AtMostOne mixedLayout := by simp [AtMostOne, mixedLayout, Section.getType]
  have hframed : x.packetStructure.isLengthExist = true :=
    (framed_iff_of_new hnew).mpr (by decide)
  refine ⟨x, b, ⟨[3, 0xd1, 0xd2, 1, 2, 3, 0x55, 0, 0xe1, 0xe2, 0x55], by decide⟩, rfl, hnew, ?_⟩
  apply passes_cut hnew hone _ hholds 2 0
  · rw [hframed]
    decide
  · intro c hc
    have heq : c = ⟨2, some fun cmd => some ⟨cmd⟩⟩ := by simpa [mixedLayout] using hc
    exact ⟨_, congrArg CMDSection.msgFactory heq, fun _ => rfl⟩

end HpLib.MessageExtractor
