import HpLib.Common.CircularSpec
import HpLib.Lib.Monitor

/-!
# CircularBuffer: no reader sleeps on bytes that are there

The mutex `m` and the condition variable `read_signal_`, with any number of
threads. `read` with timeout 0 waits for `check_free_space(len)`, `write`
calls `notify_all` before it gives `m` back, and `clear_buffer` notifies
nobody. The readers wait for different lengths and may take each other's
bytes; a `write` may overflow and move `tail_`.

Only `write` can make more bytes readable, and `write` notifies: that is all
`Monitor.not_ready_of_asleep` needs.
-/

namespace HpLib

open Lib

namespace CircularBuffer

/-- The calls on a buffer of `n` bytes, each with its caller's array. A call
that goes wrong does not come back. -/
def monitor (n : UInt32) : Monitor CircularBuffer Chunk Chunk Unit where
  init := new n
  ready b data := b.checkFreeSpace data.len
  serve b data :=
    match b.read data.bytes data.len 0 with
    | .ok (.returns _ b') => some b'
    | _ => none
  update b data :=
    match b.write data.bytes data.len with
    | .ok (_, b') => some b'
    | .error _ => none
  quiet b _ := some b.clearBuffer

/-- No destructor runs, and the buffer is well formed. A buffer of no bytes
never is; it stays as it was made, since every `write` to it goes wrong. -/
structure Steady (b : CircularBuffer) : Prop where
  alive : b.destructorCall = false
  shape : b.Inv ∨ b = new 0

variable {b b' : CircularBuffer}

theorem steady_new (n : UInt32) : (new n).Steady where
  alive := rfl
  shape := by
    by_cases hn : n = 0
    · subst hn
      exact .inr rfl
    · refine .inl (new_inv ?_)
      rw [Nat.pos_iff_ne_zero]
      intro h
      exact hn (UInt32.toNat_inj.mp h)

theorem Steady.checkFreeSpace_iff (h : b.Steady) (len : UInt32) :
    b.checkFreeSpace len = true ↔ len.toNat ≤ b.used := by
  rcases h.shape with hinv | rfl
  · exact hinv.checkFreeSpace_iff h.alive len
  · show decide ((new 0).count ≥ len) = true ↔ _
    rw [decide_eq_true_iff, ge_iff_le, UInt32.le_iff_toNat_le]
    rfl

theorem Steady.count_lt_iff (h : b.Steady) (len : UInt32) :
    b.checkFreeSpace len = false ↔ ¬ b.count ≥ len := by
  rw [checkFreeSpace, h.alive]
  simp

theorem Steady.not_ready_mono (h : b.Steady) (h' : b'.Steady) (hused : b'.used ≤ b.used)
    (len : UInt32) (hready : b.checkFreeSpace len = false) : b'.checkFreeSpace len = false := by
  rw [Bool.eq_false_iff, ne_eq, h.checkFreeSpace_iff] at hready
  rw [Bool.eq_false_iff, ne_eq, h'.checkFreeSpace_iff]
  omega

theorem Steady.count_toNat (h : b.Steady) : b.count.toNat = b.used := by
  rcases h.shape with hinv | rfl
  · exact hinv.count_toNat
  · rfl

/-- A read that finds its bytes takes them. -/
theorem Steady.read_spec (h : b.Steady) (data : Chunk) (timeout : UInt32)
    (hle : data.bytes.length ≤ b.used) :
    ∃ b', b.read data.bytes data.len timeout
        = .ok (.returns (.bufNoError, b.unread.take data.bytes.length) b') ∧
      b'.Steady ∧ b'.used + data.bytes.length = b.used := by
  rcases h.shape with hinv | rfl
  · obtain ⟨b', hrun, hinv', hsame, hun⟩ := hinv.read_spec h.alive data.bytes data.len timeout
      data.len_toNat.symm (by rw [data.len_toNat]; exact hle)
    rw [data.len_toNat] at hrun hun
    refine ⟨b', hrun, ⟨hsame.destructorCall.trans h.alive, .inl hinv'⟩, ?_⟩
    rw [← unread_length, hun, List.length_drop, unread_length]
    omega
  · -- a buffer of no bytes is never read further than this
    obtain ⟨bytes, hbound⟩ := data
    obtain rfl : bytes = [] := List.eq_nil_of_length_eq_zero (Nat.le_zero.mp hle)
    exact ⟨_, rfl, h, rfl⟩

/-- One that does not waits, or gives up. -/
theorem Steady.read_short (h : b.Steady) (data : Chunk) (timeout : UInt32)
    (hlt : b.used < data.bytes.length) :
    b.read data.bytes data.len timeout
      = .ok (if timeout = 0 then .waits else .returns (.bufTimeout, data.bytes) b) := by
  apply read_of_not_free
  rw [Bool.eq_false_iff, ne_eq, h.checkFreeSpace_iff, data.len_toNat]
  omega

/-- A read that comes back has made nothing readable. -/
theorem Steady.read (h : b.Steady) {data : Chunk} {x : BufferError × Bytes}
    (hrun : b.read data.bytes data.len 0 = .ok (.returns x b')) :
    b'.Steady ∧ b'.used ≤ b.used := by
  by_cases hle : data.bytes.length ≤ b.used
  · obtain ⟨c, hc, hsteady, hused⟩ := h.read_spec data 0 hle
    rw [hc] at hrun
    cases hrun
    exact ⟨hsteady, by omega⟩
  · rw [h.read_short data 0 (Nat.lt_of_not_le hle)] at hrun
    cases hrun

/-- The copy loop takes a remainder by `size_`. -/
theorem write_new_zero {data : Chunk} (hlen : data.len > 0) :
    (new 0).write data.bytes data.len = .error .divByZero := by
  have hmin : min32 data.len 0 = 0 := by
    rw [min32, if_pos hlen]
  have hloop : writeLoop (data.len.toNat + 2) (new 0) data.bytes 0 data.len = .error .divByZero := by
    rw [writeLoop, if_pos hlen]
    show (memcpy [] 0 data.bytes 0 (min32 data.len 0).toNat >>= _) = _
    rw [hmin, memcpy_eq_ok (Nat.le_refl 0) (Nat.zero_le _)]
    rfl
  rw [CircularBuffer.write, hloop]
  rfl

/-- A write makes more readable, or at least as much, if it overflows. -/
theorem Steady.write (h : b.Steady) {data : Chunk} {e : BufferError}
    (hrun : b.write data.bytes data.len = .ok (e, b')) : b'.Steady ∧ b.used ≤ b'.used := by
  rcases h.shape with hinv | rfl
  · obtain ⟨c, hc, hinv', hsame, hun⟩ := hinv.write_spec data
    rw [hc] at hrun
    cases hrun
    refine ⟨⟨hsame.destructorCall.trans h.alive, .inl hinv'⟩, ?_⟩
    have hlt := hinv.used_lt
    rw [← unread_length b', hun, rtake_length, List.length_append, unread_length]
    omega
  · by_cases hlen : data.len > 0
    · rw [write_new_zero hlen] at hrun
      cases hrun
    · have hzero : data.len = 0 := UInt32.toNat_inj.mp (toNat_eq_zero_of_not_pos hlen)
      rw [hzero] at hrun
      cases hrun
      exact ⟨h, le_rfl⟩

theorem Steady.clearBuffer (h : b.Steady) :
    b.clearBuffer.Steady ∧ b.clearBuffer.used = 0 := by
  rcases h.shape with hinv | rfl
  · obtain ⟨hinv', hsame, hun⟩ := hinv.clearBuffer_spec
    refine ⟨⟨hsame.destructorCall.trans h.alive, .inl hinv'⟩, ?_⟩
    rw [← unread_length, hun]
    rfl
  · exact ⟨h, rfl⟩

/-- **No wake-up is lost**: in no reachable state is `m` free while a reader
is asleep, with no wake-up on its way, and at least the bytes it waits for
are there. -/
theorem not_asleep_beside_data {ι : Type*} [DecidableEq ι] (n : UInt32)
    {s : Monitor.State ι CircularBuffer Chunk Chunk Unit}
    (hs : ((monitor n).machine ι).Reachable s) :
    ¬ (s.holder = none ∧ ∃ t data, s.pc t = .asleep data ∧ s.obj.count ≥ data.len) := by
  rintro ⟨hfree, t, data, hpc, hcount⟩
  have hmono : ∀ {b b' : CircularBuffer}, b.Steady → b'.Steady ∧ b'.used ≤ b.used →
      b'.Steady ∧ ∀ r, (monitor n).ready b r = false → (monitor n).ready b' r = false := by
    rintro b b' h ⟨h', hused⟩
    exact ⟨h', fun r => h.not_ready_mono h' hused r.len⟩
  have hasleep := Monitor.not_ready_of_asleep (I := Steady) (steady_new n) ?_ ?_ ?_ hs hfree hpc
  · obtain ⟨hsteady, hready⟩ := hasleep
    exact (hsteady.count_lt_iff data.len).mp hready hcount
  · intro b r b' h hserve
    simp only [monitor] at hserve
    split at hserve <;> cases hserve
    rename_i hrun
    exact hmono h (h.read hrun)
  · intro b w b' h hupdate
    simp only [monitor] at hupdate
    split at hupdate <;> cases hupdate
    rename_i hrun
    exact (h.write hrun).1
  · intro b k b' h hquiet
    cases hquiet
    obtain ⟨h', hnone⟩ := h.clearBuffer
    exact hmono h ⟨h', by omega⟩

/-- A reader waits for three bytes; a writer brings two and wakes it, and it
goes back to sleep. -/
def tooFew : List (Monitor.Act Bool Chunk Chunk Unit) :=
  [.wait false ⟨[0, 0, 0], by decide⟩, .go false, .update true ⟨[7, 8], by decide⟩, .go true,
    .go true, .go true, .go false, .go false]

theorem not_asleep_beside_data_tooFew :
    ∃ s, ((monitor 4).machine Bool).exec ((monitor 4).machine Bool).init tooFew = some s ∧
      s.holder = none ∧ s.pc false = .asleep ⟨[0, 0, 0], by decide⟩ ∧
      ¬ (s.holder = none ∧ ∃ t data, s.pc t = .asleep data ∧ s.obj.count ≥ data.len) :=
  ⟨_, rfl, rfl, rfl, not_asleep_beside_data 4 ⟨tooFew, rfl⟩⟩

end CircularBuffer

end HpLib
