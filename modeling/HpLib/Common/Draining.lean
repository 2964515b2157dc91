import HpLib.Common.Wakeup

/-!
# CircularBuffer: get_all_bytes among other threads

`get_all_bytes` takes `m` for its `read` only: it samples `count()` before,
without the lock, and then reads that many bytes with timeout 0. Here the two
are steps of their own, and any number of other threads write, read and clear
in between, each call one step under `m`.

Writes do no harm, also those that overflow: they never leave less to read.
A read or a `clear_buffer` in between may, and then `get_all_bytes` waits for
bytes that somebody else has.
-/

namespace HpLib.Draining

open Lib CircularBuffer

/-- Where the call of `get_all_bytes` stands: outside, between its two steps,
or thrown out by `data.resize(len)` of a negative `int`. -/
inductive Pc where
  | idle
  | sampled (len : UInt32)
  | threw
  deriving Repr, DecidableEq

structure State where
  obj : CircularBuffer
  pc : Pc
  deriving Repr, DecidableEq

/-- The steps of the other threads, and `sample` and `tryRead` of the call. -/
inductive Act where
  | write (data : Chunk)
  | read (data : Chunk) (timeout : UInt32)
  | clearBuffer
  | sample
  | tryRead
  deriving DecidableEq

namespace State

/-- `int len = count(); data.resize(len);`. -/
def sample (s : State) : Option State :=
  match s.pc with
  | .idle =>
      if s.obj.count ≥ 0x80000000 then some { s with pc := .threw }
      else some { s with pc := .sampled s.obj.count }
  | .sampled _ | .threw => none

/-- `read((uint8_t*)data.data(), len)`. A call that waits has not come by its
step yet. -/
def tryRead (s : State) : Option State :=
  match s.pc with
  | .sampled len =>
      match s.obj.read (zeros len).bytes len 0 with
      | .ok (.returns _ b) => some { obj := b, pc := .idle }
      | _ => none
  | .idle | .threw => none

def step (s : State) : Act → Option State
  | .write data =>
      match s.obj.write data.bytes data.len with
      | .ok (_, b) => some { s with obj := b }
      | .error _ => none
  | .read data timeout =>
      match s.obj.read data.bytes data.len timeout with
      | .ok (.returns _ b) => some { s with obj := b }
      | _ => none
  | .clearBuffer => some { s with obj := s.obj.clearBuffer }
  | .sample => s.sample
  | .tryRead => s.tryRead

end State

/-- A new buffer of `n` bytes. -/
def machine (n : UInt32) : Machine State Act where
  init := { obj := new n, pc := .idle }
  step := State.step

namespace State

/-- The call has not thrown, and its read step, tried now, returns at once
with the `len` oldest bytes. -/
structure Prompt (s : State) : Prop where
  notThrown : s.pc ≠ .threw
  enough : ∀ len, s.pc = .sampled len → s.obj.count ≥ len
  returns : ∀ len, s.pc = .sampled len → ∃ b, s.obj.read (zeros len).bytes len 0
    = .ok (.returns (.bufNoError, s.obj.unread.take len.toNat) b)

/-- What may come while the call stands between its steps: a read only if it
leaves `len` bytes or finds too few, a `clear_buffer` only if `len` is zero.
And what is sampled must be an `int`. -/
def LeavesEnough (s : State) : Act → Prop
  | .write _ | .tryRead => True
  | .read data _ => ∀ len, s.pc = .sampled len → data.bytes.length ≤ s.obj.count.toNat →
      len.toNat + data.bytes.length ≤ s.obj.count.toNat
  | .clearBuffer => ∀ len, s.pc = .sampled len → len = 0
  | .sample => s.pc = .idle → s.obj.count.toNat < 2 ^ 31

/-! ## What a step does -/

/-- How a step moves the call and what it leaves to read. -/
inductive Change (s s' : State) : Act → Prop
  | wrote (data : Chunk) (hpc : s'.pc = s.pc) (hused : s.obj.used ≤ s'.obj.used) :
      Change s s' (.write data)
  | took (data : Chunk) (timeout : UInt32) (hpc : s'.pc = s.pc)
      (hused : s'.obj.used + data.bytes.length = s.obj.used) : Change s s' (.read data timeout)
  | gaveUp (data : Chunk) (timeout : UInt32) (hlt : s.obj.used < data.bytes.length)
      (hsame : s' = s) : Change s s' (.read data timeout)
  | cleared (hpc : s'.pc = s.pc) (hused : s'.obj.used = 0) : Change s s' .clearBuffer
  | sampled (hpc : s.pc = .idle) (hsmall : s.obj.used < 2 ^ 31)
      (hnext : s' = { s with pc := .sampled s.obj.count }) : Change s s' .sample
  | threw (hpc : s.pc = .idle) (hbig : 2 ^ 31 ≤ s.obj.used) (hnext : s'.pc = .threw) :
      Change s s' .sample
  | returned (hpc : s'.pc = .idle) : Change s s' .tryRead

variable {s s' : State}

theorem change_of_sample (h : s.obj.Steady) (hs : s.sample = some s') :
    s'.obj.Steady ∧ Change s s' .sample := by
  have hbig : s.obj.count ≥ 0x80000000 ↔ 2 ^ 31 ≤ s.obj.used := by
    rw [ge_iff_le, UInt32.le_iff_toNat_le, h.count_toNat]
    rfl
  rw [sample] at hs
  split at hs
  · rename_i hpc
    split at hs <;> rename_i hcount <;> cases hs
    · exact ⟨h, .threw hpc (hbig.mp hcount) rfl⟩
    · exact ⟨h, .sampled hpc (Nat.lt_of_not_le fun hc => hcount (hbig.mpr hc)) rfl⟩
  · cases hs
  · cases hs

theorem change_of_read (h : s.obj.Steady) {data : Chunk} {timeout : UInt32}
    (hs : s.step (.read data timeout) = some s') :
    s'.obj.Steady ∧ Change s s' (.read data timeout) := by
  rw [step] at hs
  by_cases hle : data.bytes.length ≤ s.obj.used
  · obtain ⟨b, hrun, hsteady, hused⟩ := h.read_spec data timeout hle
    rw [hrun] at hs
    cases hs
    exact ⟨hsteady, .took data timeout rfl hused⟩
  · have hlt := Nat.lt_of_not_le hle
    rw [h.read_short data timeout hlt] at hs
    by_cases ht : timeout = 0
    · rw [if_pos ht] at hs
      cases hs
    · rw [if_neg ht] at hs
      cases hs
      exact ⟨h, .gaveUp data timeout hlt rfl⟩

theorem change_of_step (h : s.obj.Steady) {a : Act} (hs : s.step a = some s') :
    s'.obj.Steady ∧ Change s s' a := by
  cases a with
  | write data =>
      rw [step] at hs
      split at hs <;> cases hs
      rename_i hrun
      obtain ⟨hsteady, hused⟩ := h.write hrun
      exact ⟨hsteady, .wrote data rfl hused⟩
  | read data timeout => exact change_of_read h hs
  | clearBuffer =>
      cases hs
      obtain ⟨hsteady, hused⟩ := h.clearBuffer
      exact ⟨hsteady, .cleared rfl hused⟩
  | sample => exact change_of_sample h hs
  | tryRead =>
      change s.tryRead = some s' at hs
      rw [tryRead] at hs
      split at hs
      · rename_i len hpc
        split at hs <;> cases hs
        rename_i hrun
        have hread : s.obj.read (zeros len).bytes (zeros len).len 0
            = s.obj.read (zeros len).bytes len 0 := by
          rw [zeros_len]
        exact ⟨(h.read (hread.trans hrun)).1, .returned rfl⟩
      · cases hs
      · cases hs

/-! ## Enough is left -/

/-- The buffer is well formed, the call has not thrown, and what it sampled is
still there. -/
structure Ahead (s : State) : Prop where
  steady : s.obj.Steady
  notThrown : s.pc ≠ .threw
  enough : ∀ len, s.pc = .sampled len → len.toNat ≤ s.obj.used

theorem Ahead.init (n : UInt32) : Ahead (machine n).init where
  steady := steady_new n
  notThrown := nofun
  enough := nofun

theorem Ahead.prompt (h : Ahead s) : s.Prompt where
  notThrown := h.notThrown
  enough := by
    intro len hpc
    rw [ge_iff_le, UInt32.le_iff_toNat_le, h.steady.count_toNat]
    exact h.enough len hpc
  returns := by
    intro len hpc
    obtain ⟨b, hrun, -⟩ := h.steady.read_spec (zeros len) 0
      (by rw [zeros_length]; exact h.enough len hpc)
    rw [zeros_len, zeros_length] at hrun
    exact ⟨b, hrun⟩

/-- **One step** that leaves enough. -/
theorem Ahead.step (h : Ahead s) {a : Act} (hg : s.LeavesEnough a) (hs : s.step a = some s') :
    Ahead s' := by
  obtain ⟨hsteady, hchange⟩ := change_of_step h.steady hs
  have hcount := h.steady.count_toNat
  cases hchange with
  | wrote data hpc hused =>
      refine ⟨hsteady, hpc ▸ h.notThrown, fun len hlen => ?_⟩
      exact Nat.le_trans (h.enough len (hpc ▸ hlen)) hused
  | took data timeout hpc hused =>
      refine ⟨hsteady, hpc ▸ h.notThrown, fun len hlen => ?_⟩
      have hleft := hg len (hpc ▸ hlen) (by omega)
      omega
  | gaveUp data timeout hlt hsame =>
      rw [hsame]
      exact h
  | cleared hpc hused =>
      refine ⟨hsteady, hpc ▸ h.notThrown, fun len hlen => ?_⟩
      rw [hg len (hpc ▸ hlen)]
      exact Nat.zero_le _
  | sampled hpc hsmall hnext =>
      subst hnext
      refine ⟨hsteady, nofun, fun len hlen => ?_⟩
      cases hlen
      exact Nat.le_of_eq hcount
  | threw hpc hbig hnext =>
      have hsmall := hg hpc
      omega
  | returned hpc => exact ⟨hsteady, by rw [hpc]; nofun, by rw [hpc]; nofun⟩

/-- A step that does not leave enough takes what was sampled away. -/
theorem Ahead.lost (h : Ahead s) {a : Act} (hg : ¬ s.LeavesEnough a) (hs : s.step a = some s') :
    ¬ s'.Prompt := by
  obtain ⟨hsteady, hchange⟩ := change_of_step h.steady hs
  have hcount := h.steady.count_toNat
  intro hprompt
  have henough : ∀ len, s'.pc = .sampled len → len.toNat ≤ s'.obj.used := by
    intro len hlen
    rw [← hsteady.count_toNat]
    exact UInt32.le_iff_toNat_le.mp (hprompt.enough len hlen)
  apply hg
  cases hchange with
  | wrote data hpc hused => trivial
  | took data timeout hpc hused =>
      intro len hlen hle
      have hleft := henough len (hpc.trans hlen)
      omega
  | gaveUp data timeout hlt hsame =>
      intro len hlen hle
      omega
  | cleared hpc hused =>
      intro len hlen
      have hleft := henough len (hpc.trans hlen)
      apply UInt32.toNat_inj.mp
      exact Nat.le_zero.mp (hused ▸ hleft)
  | sampled hpc hsmall hnext =>
      intro _
      omega
  | threw hpc hbig hnext => exact absurd hnext hprompt.notThrown
  | returned hpc => trivial

end State

/-- **When the call never waits.** In every state of a run between the sample
and the read step the bytes it sampled are there, whether the read step is
tried in that state or not, if and only if no step of the run took them away,
even for a while. -/
theorem prompt_iff_leavesEnough (n : UInt32) (as : List Act) :
    (machine n).Always State.Prompt (machine n).init as ↔
      (machine n).Guarded State.LeavesEnough (machine n).init as :=
  Machine.always_iff_guarded_of_inv (M := machine n)
    (fun _ _ _ h hg hs => State.Ahead.step h hg hs) (fun _ h => h.prompt)
    (fun _ _ _ h hg hs => State.Ahead.lost h hg hs) (State.Ahead.init n) as

theorem State.tryRead_eq_some {b b' : CircularBuffer} {len : UInt32} :
    State.tryRead ⟨b, .sampled len⟩ = some ⟨b', .idle⟩ ↔
      ∃ x, b.read (zeros len).bytes len 0 = .ok (.returns x b') := by
  simp only [State.tryRead]
  constructor
  · intro h
    split at h <;> cases h
    rename_i x hrun
    exact ⟨x, hrun⟩
  · rintro ⟨x, hrun⟩
    simp only [hrun]

/-- The call reads what it has counted, if that is an `int`. -/
theorem getAllBytes_eq_returns {b b' : CircularBuffer} :
    (∃ data, b.getAllBytes = .ok (.returns data b')) ↔ ¬ b.count ≥ 0x80000000 ∧
      ∃ x, b.read (zeros b.count).bytes b.count 0 = .ok (.returns x b') := by
  rw [CircularBuffer.getAllBytes]
  by_cases hbig : b.count ≥ 0x80000000
  · simp only [if_pos hbig]
    constructor
    · rintro ⟨data, h⟩
      cases h
    · rintro ⟨h, -⟩
      exact absurd hbig h
  · simp only [if_neg hbig]
    constructor
    · rintro ⟨data, h⟩
      refine ⟨hbig, ?_⟩
      obtain ⟨r, hrun, h⟩ := bind_eq_ok.mp h
      cases r with
      | returns x c =>
          cases h
          exact ⟨x, hrun⟩
      | _ => cases h
    · rintro ⟨-, x, hrun⟩
      exact ⟨x.2, bind_eq_ok.mpr ⟨_, hrun, rfl⟩⟩

/-- The two steps one after the other are the call. -/
theorem sample_tryRead (n : UInt32) {s : State} (hpc : s.pc = .idle) (b : CircularBuffer) :
    (machine n).exec s [.sample, .tryRead] = some ⟨b, .idle⟩ ↔
      ∃ data, s.obj.getAllBytes = .ok (.returns data b) := by
  rw [getAllBytes_eq_returns, Machine.exec_cons]
  change s.sample.bind _ = _ ↔ _
  rw [State.sample, hpc]
  by_cases hbig : s.obj.count ≥ 0x80000000
  · simp only [if_pos hbig]
    constructor
    · intro h
      cases h
    · rintro ⟨h, -⟩
      exact absurd hbig h
  · simp only [if_neg hbig]
    change (State.tryRead ⟨s.obj, .sampled s.obj.count⟩).bind some = _ ↔ _
    rw [Option.bind_fun_some, State.tryRead_eq_some]
    exact (and_iff_right hbig).symm

/-- Three bytes are sampled and then cleared away: the call waits for bytes
to come. -/
theorem cleared_bytes_awaited :
    ¬ ∀ (n : UInt32) (s : State), (machine n).Reachable s → s.Prompt := by
  intro hall
  obtain ⟨s, hrun, hpc, hcount, -⟩ : ∃ s, (machine 8).exec (machine 8).init
      [.write ⟨[1, 2, 3], by decide⟩, .sample, .clearBuffer] = some s ∧ s.pc = .sampled 3 ∧
        s.obj.count = 0 ∧ s.obj.read [0, 0, 0] 3 0 = .ok .waits :=
    ⟨_, rfl, rfl, rfl, rfl⟩
  have henough := (hall 8 s ⟨_, hrun⟩).enough 3 hpc
  rw [hcount] at henough
  exact absurd henough (by decide)

end HpLib.Draining
