import HpLib.Peripheral.Passes

/-!
# What the message factory is given

`find_message` hands `cmd.data()` to `build_message`, which takes a
`std::string`. So a `const char*` stands between the two, and the string that
is made of it ends before the first zero byte. What is passed does not depend
on the factory; the runs below use one that keeps its argument, so that it can
be seen.
-/

namespace HpLib.MessageExtractor

open Lib CircularBuffer

/-- The string made of a `const char*` is the whole exactly when no byte of
it is zero. -/
theorem cString_eq_self_iff {data : Bytes} : cString data = data ↔ 0 ∉ data := by
  rw [cString, List.takeWhile_eq_self_iff]
  constructor
  · intro hall hzero
    simpa using hall 0 hzero
  · intro hzero c hc
    have hne : c ≠ 0 := fun heq => hzero (heq ▸ hc)
    simpa using hne

/-- A factory whose message is what it was given. -/
def keepArgument (cmd : Bytes) : Option Blob :=
  some ⟨cmd⟩

/-- A pass at a CMD section of the given size, with the bytes of the command
unread. -/
structure CommandRun where
  extractor : MessageExtractor Blob
  sizeBytes : UInt32
  locals : Locals Blob
  n : UInt32
  buffer : CircularBuffer
  queue : BoundedQueue UInt8 (n.toNat - 1)
  section_cmd : extractor.packetStructure.cmd = some ⟨sizeBytes, some keepArgument⟩
  holds : Holds n buffer queue
  enough : sizeBytes.toNat ≤ queue.items.length

namespace CommandRun

/-- The bytes of the command. -/
def cmd (r : CommandRun) : Bytes :=
  r.queue.items.take r.sizeBytes.toNat

/-- `arg` is passed to `build_message`. -/
def Passes (r : CommandRun) (arg : Bytes) : Prop :=
  ∃ v b, Prog.run serve (r.extractor.reading.readSection r.locals .cmd) r.buffer
    = some (.ok v, b) ∧ v.msg = some ⟨arg⟩

/-- The factory is given the command, byte for byte. -/
def SeesAll (r : CommandRun) : Prop :=
  ∃ arg, r.Passes arg ∧ arg.length = r.sizeBytes.toNat ∧ arg = r.cmd

/-- For different commands the factory is given different arguments. -/
def KeptApart (r s : CommandRun) : Prop :=
  r.cmd ≠ s.cmd → ∀ arg arg', r.Passes arg → s.Passes arg' → arg ≠ arg'

theorem cmd_length (r : CommandRun) : r.cmd.length = r.sizeBytes.toNat :=
  List.length_take_of_le r.enough

theorem passes_iff (r : CommandRun) {arg : Bytes} : r.Passes arg ↔ arg = cString r.cmd := by
  have hbytes := runBytes_readCmd (v := r.locals) r.section_cmd rfl r.enough
    (show keepArgument (cString r.cmd) = some ⟨cString r.cmd⟩ from rfl)
  obtain ⟨b, q, hrun, -⟩ := run_of_runBytes r.holds hbytes
  constructor
  · rintro ⟨v, b', hrun', hmsg⟩
    cases hrun.symm.trans hrun'
    cases hmsg
    rfl
  · rintro rfl
    exact ⟨_, b, hrun, rfl⟩

theorem seesAll_iff (r : CommandRun) : r.SeesAll ↔ 0 ∉ r.cmd := by
  rw [← cString_eq_self_iff]
  constructor
  · rintro ⟨arg, hpass, -, rfl⟩
    exact (r.passes_iff.mp hpass).symm
  · intro hself
    exact ⟨r.cmd, r.passes_iff.mpr hself.symm, r.cmd_length, rfl⟩

/-- Two commands are conflated when they differ only behind a zero byte. -/
theorem keptApart_iff (r s : CommandRun) :
    KeptApart r s ↔ (cString r.cmd = cString s.cmd → r.cmd = s.cmd) := by
  constructor
  · intro h heq
    by_contra hne
    exact h hne _ _ (r.passes_iff.mpr rfl) (s.passes_iff.mpr rfl) heq
  · intro h hne arg arg' hr hs heq
    rw [r.passes_iff.mp hr, s.passes_iff.mp hs] at heq
    exact hne (h heq)

/-- **When the factory sees the commands** of any two runs, and keeps them
apart. -/
theorem faithful_iff_zeroFree (r s : CommandRun) :
    (r.SeesAll ∧ s.SeesAll ∧ KeptApart r s) ↔ 0 ∉ r.cmd ∧ 0 ∉ s.cmd := by
  rw [seesAll_iff, seesAll_iff, keptApart_iff]
  constructor
  · rintro ⟨hr, hs, -⟩
    exact ⟨hr, hs⟩
  · rintro ⟨hr, hs⟩
    refine ⟨hr, hs, fun heq => ?_⟩
    rwa [cString_eq_self_iff.mpr hr, cString_eq_self_iff.mpr hs] at heq

/-- `00 01` and `00 02` are both passed as the empty string. -/
theorem zero_commands_conflated :
    ¬ ∀ r s : CommandRun, r.SeesAll ∧ s.SeesAll ∧ KeptApart r s := by
  intro hall
  obtain ⟨b₁, h₁⟩ := exists_holds (n := 8) (by decide) ⟨[0, 1], by decide⟩
  obtain ⟨b₂, h₂⟩ := exists_holds (n := 8) (by decide) ⟨[0, 2], by decide⟩
  let x : MessageExtractor Blob :=
    { packetStructure := { cmd := some ⟨2, some keepArgument⟩ },
      packetSections := [.cmd ⟨2, some keepArgument⟩], extractor := none }
  let r : CommandRun :=
    { extractor := x, sizeBytes := 2, locals := { msg := none }, n := 8, buffer := b₁,
      queue := _, section_cmd := rfl, holds := h₁, enough := by decide }
  let s : CommandRun :=
    { extractor := x, sizeBytes := 2, locals := { msg := none }, n := 8, buffer := b₂,
      queue := _, section_cmd := rfl, holds := h₂, enough := by decide }
  have hr : r.cmd = [0, 1] := rfl
  have hs : s.cmd = [0, 2] := rfl
  have hne : r.cmd ≠ s.cmd := by
    rw [hr, hs]
    decide
  refine (hall r s).2.2 hne [] [] (r.passes_iff.mpr ?_) (s.passes_iff.mpr ?_) rfl
  · rw [hr]
    rfl
  · rw [hs]
    rfl

end CommandRun

end HpLib.MessageExtractor
