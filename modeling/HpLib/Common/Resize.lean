import HpLib.Common.ByteQueue
import HpLib.Lib.Machine

/-!
# CircularBuffer with its resizing operations

`erase_buffer` and `set_new_buffer_size` resize the vector and leave `size_`
alone; `set_size` does the opposite. `Keeps` is the exact condition under
which such a call leaves the representation invariant standing, and
`safe_iff_keeps` is about whole call sequences: every state is well formed
and no call goes wrong exactly when each call meets its condition.
-/

namespace HpLib

open Lib

/-- The public calls of `CircularBuffer`. -/
inductive Call where
  | queue (call : QueueCall)
  | eraseBuffer
  | setNewBufferSize (size : Nat)
  | setSize (size : UInt32)
  deriving DecidableEq

/-- The size a call asks for is at least one. -/
def Call.Positive : Call → Prop
  | .setNewBufferSize size => 1 ≤ size
  | .setSize size => 1 ≤ size.toNat
  | _ => True

namespace CircularBuffer

def call (b : CircularBuffer) : Call → Except Fault (Reply × CircularBuffer)
  | .queue c => b.queueCall c
  | .eraseBuffer => .ok (.done, b.eraseBuffer)
  | .setNewBufferSize size => .ok (.done, b.setNewBufferSize size)
  | .setSize size => .ok (.done, b.setSize size)

/-- The buffer under calls one after the other. A call that goes wrong is
not a step. -/
def machine (n : UInt32) : Machine CircularBuffer Call where
  init := new n
  step b c :=
    match b.call c with
    | .ok (_, b') => some b'
    | .error _ => none

/-- What a call may ask of a well-formed buffer. -/
def Keeps (b : CircularBuffer) : Call → Prop
  | .queue _ => True
  | .eraseBuffer => False
  | .setNewBufferSize size => b.size.toNat ≤ size
  | .setSize size =>
      b.head.toNat < size.toNat ∧ b.tail.toNat < size.toNat ∧ size.toNat ≤ b.buf.length

instance (b : CircularBuffer) (c : Call) : Decidable (b.Keeps c) := by
  cases c <;> unfold Keeps <;> infer_instance

/-- Well formed, and not being destroyed. -/
def Alive (b : CircularBuffer) : Prop :=
  b.Inv ∧ b.destructorCall = false

theorem machine_step_eq_some {n : UInt32} {b b' : CircularBuffer} {c : Call} :
    (machine n).step b c = some b' ↔ ∃ r, b.call c = .ok (r, b') := by
  simp only [machine]
  cases hcall : b.call c with
  | error e => simp
  | ok v =>
      obtain ⟨r, b1⟩ := v
      simp

/-- Reads, writes and clears keep a well-formed buffer well formed. -/
theorem Alive.queueCall {b : CircularBuffer} (h : b.Alive) (c : QueueCall) :
    ∃ r b', b.queueCall c = .ok (r, b') ∧ b'.Alive := by
  obtain ⟨hinv, hd⟩ := h
  have hbound : b.unread.length ≤ b.size.toNat - 1 := by
    rw [unread_length]
    exact Nat.le_pred_of_lt hinv.used_lt
  obtain ⟨b', hrun, hinv', hsame, -⟩ := hinv.queueCall_spec hd (q := ⟨b.unread, hbound⟩) rfl c
  exact ⟨_, b', hrun, hinv', hsame.destructorCall.trans hd⟩

/-- No call goes wrong on a well-formed buffer. -/
theorem Alive.call {b : CircularBuffer} (h : b.Alive) (c : Call) :
    ∃ r b', b.call c = .ok (r, b') := by
  cases c with
  | queue c =>
      obtain ⟨r, b', hrun, -⟩ := h.queueCall c
      exact ⟨r, b', hrun⟩
  | eraseBuffer => exact ⟨_, _, rfl⟩
  | setNewBufferSize size => exact ⟨_, _, rfl⟩
  | setSize size => exact ⟨_, _, rfl⟩

/-- **One call**: the buffer is well formed after it exactly when the call
met its condition. -/
theorem alive_iff_keeps {n : UInt32} (b : CircularBuffer) (c : Call) (b' : CircularBuffer)
    (h : b.Alive) (hstep : (machine n).step b c = some b') : b'.Alive ↔ b.Keeps c := by
  obtain ⟨r, hcall⟩ := machine_step_eq_some.mp hstep
  cases c with
  | queue c =>
      obtain ⟨r', b1, hrun, halive⟩ := h.queueCall c
      change b.queueCall c = _ at hcall
      rw [hrun] at hcall
      cases hcall
      exact ⟨fun _ => trivial, fun _ => halive⟩
  | eraseBuffer =>
      cases hcall
      -- the vector is empty, and `size_` is not zero
      have hpos := h.1.size_pos
      refine ⟨fun hc => ?_, fun hc => hc.elim⟩
      have hle := hc.1.size_le
      simp only [CircularBuffer.eraseBuffer, resize_length] at hle
      omega
  | setNewBufferSize size =>
      cases hcall
      constructor
      · intro hc
        have hle := hc.1.size_le
        rwa [CircularBuffer.setNewBufferSize, resize_length] at hle
      · intro hk
        refine ⟨⟨h.1.head_lt, h.1.tail_lt, ?_⟩, h.2⟩
        rw [CircularBuffer.setNewBufferSize, resize_length]
        exact hk
  | setSize size =>
      cases hcall
      constructor
      · intro hc
        exact ⟨hc.1.head_lt, hc.1.tail_lt, hc.1.size_le⟩
      · intro hk
        exact ⟨⟨hk.1, hk.2.1, hk.2.2⟩, h.2⟩

/-- Every state of a call sequence is well formed, and no call of it indexes
outside the vector, divides by zero or copies for ever. -/
def SafeRun (n : UInt32) (calls : List Call) : Prop :=
  (machine n).Always Alive (new n) calls ∧ ((machine n).exec (new n) calls).isSome

theorem new_alive {n : UInt32} (hn : 1 ≤ n.toNat) : (new n).Alive :=
  ⟨new_inv hn, rfl⟩

/-- **Exactly the careful sequences are safe**: the invariant stands and no
call goes wrong if and only if `erase_buffer` is never called, the vector is
never resized below `size_`, and `size_` is only set to a value above both
indices and within the vector. -/
theorem safe_iff_keeps (n : UInt32) (hn : 1 ≤ n.toNat) (calls : List Call) :
    SafeRun n calls ↔ (machine n).Guarded Keeps (new n) calls := by
  have hiff := Machine.always_iff_guarded (M := machine n) alive_iff_keeps (new_alive hn) calls
  rw [SafeRun, hiff]
  constructor
  · rintro ⟨hg, -⟩
    exact hg
  · intro hg
    refine ⟨hg, Machine.exec_isSome_of_guarded (P := Alive) (G := Keeps) ?_ ?_
      (new_alive hn) hg⟩
    · intro b c b' h hk hstep
      exact (alive_iff_keeps b c b' h hstep).mpr hk
    · intro b c h
      obtain ⟨r, b', hcall⟩ := h.call c
      exact Option.isSome_iff_exists.mpr ⟨b', machine_step_eq_some.mpr ⟨r, hcall⟩⟩

theorem safe_iff_keeps_grow :
    1 ≤ (8 : UInt32).toNat ∧
      (SafeRun 8 [.setNewBufferSize 16, .setSize 12] ↔
        (machine 8).Guarded Keeps (new 8) [.setNewBufferSize 16, .setSize 12]) :=
  ⟨by decide, safe_iff_keeps 8 (by decide) _⟩

/-- Shrinking the vector of a buffer of eight bytes to two leaves `size_` at
eight, and the next `write` of four bytes runs out of the vector. -/
theorem shrinking_runs_out :
    ¬ (∀ n : UInt32, 1 ≤ n.toNat → ∀ calls : List Call, (∀ c ∈ calls, c.Positive) →
        SafeRun n calls) ∧
      (new 8).call (.setNewBufferSize 2) = .ok (.done, (new 8).setNewBufferSize 2) ∧
      ((new 8).setNewBufferSize 2).call (.queue (.write ⟨[1, 2, 3, 4], by decide⟩))
        = .error .outOfBounds := by
  refine ⟨fun hall => ?_, rfl, by decide⟩
  have hrun := hall 8 (by decide) [.setNewBufferSize 2] (by simp [Call.Positive])
  have hlast : ((new 8).setNewBufferSize 2).Alive := hrun.1.2 _ rfl
  exact absurd hlast.1.size_le (by decide)

end CircularBuffer

end HpLib
