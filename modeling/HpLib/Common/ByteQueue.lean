import HpLib.Common.CircularSpec
import HpLib.Lib.Machine
import HpLib.Lib.Queue

/-!
# CircularBuffer is a bounded byte queue

What the ring buffer is for: a queue of at most `size_ - 1` bytes (one cell
always stays free, to tell a full ring from an empty one) that drops its
oldest bytes when more arrive. `queueSpec` says it without indices, and
`queueCall_refines` is the simulation: every call answers as the queue does
and leaves the queue's contents unread.
-/

namespace HpLib

open Lib CircularBuffer

/-- The calls on a bounded byte queue. -/
def queueSpec (cap : Nat) (q : BoundedQueue UInt8 cap) :
    QueueCall → Reply × BoundedQueue UInt8 cap
  | .write data =>
      (.wrote (if q.items.length + data.bytes.length ≤ cap then .bufNoError else .bufOverflow),
        q.push data.bytes)
  | .read data timeout =>
      if data.bytes.length ≤ q.items.length then
        (.read .bufNoError (q.items.take data.bytes.length), q.pop data.bytes.length)
      else if timeout = 0 then (.waits, q)
      else (.read .bufTimeout data.bytes, q)
  | .readNextByte =>
      match q.items with
      | [] => (.waits, q)
      | c :: _ => (.byte c, q.pop 1)
  | .getAllBytes =>
      if 2 ^ 31 ≤ q.items.length then (.throws, q)
      else (.bytes q.items, q.pop q.items.length)
  | .clearBuffer => (.done, .empty)

namespace CircularBuffer

/-- The buffer `b` of size `n` holds the queue `q`. -/
structure Holds (n : UInt32) (b : CircularBuffer) (q : BoundedQueue UInt8 (n.toNat - 1)) :
    Prop where
  inv : b.Inv
  size : b.size = n
  extent : b.buf.length = n.toNat
  alive : b.destructorCall = false
  unread : b.unread = q.items

theorem Holds.new {n : UInt32} (hn : 0 < n.toNat) : Holds n (new n) .empty where
  inv := new_inv hn
  size := rfl
  extent := by simp [CircularBuffer.new]
  alive := rfl
  unread := new_unread n

/-- The relation goes along a call that keeps the shape of the buffer. -/
theorem Holds.next {n : UInt32} {b b' : CircularBuffer} {q q' : BoundedQueue UInt8 (n.toNat - 1)}
    (h : Holds n b q) (hinv : b'.Inv) (hsame : Same b b') (hun : b'.unread = q'.items) :
    Holds n b' q' where
  inv := hinv
  size := hsame.size.trans h.size
  extent := hsame.extent.trans h.extent
  alive := hsame.destructorCall.trans h.alive
  unread := hun

theorem Holds.used {n : UInt32} {b : CircularBuffer} {q : BoundedQueue UInt8 (n.toNat - 1)}
    (h : Holds n b q) : b.used = q.items.length := by
  rw [← unread_length, h.unread]

/-- **`write`** answers as the bounded queue does. -/
theorem Holds.write {n : UInt32} {b : CircularBuffer} {q : BoundedQueue UInt8 (n.toNat - 1)}
    (h : Holds n b q) (d : Chunk) :
    ∃ b', b.write d.bytes d.len
        = .ok (if q.items.length + d.bytes.length ≤ n.toNat - 1 then .bufNoError
               else .bufOverflow, b')
      ∧ Holds n b' (q.push d.bytes) := by
  obtain ⟨b', hrun, hinv, hsame, hun⟩ := h.inv.write_spec d
  rw [h.used, h.size] at hrun
  rw [h.unread, h.size] at hun
  exact ⟨b', hrun, h.next hinv hsame hun⟩

/-- Every queue is held by a buffer. -/
theorem exists_holds {n : UInt32} (hn : 0 < n.toNat) (q : BoundedQueue UInt8 (n.toNat - 1)) :
    ∃ b, Holds n b q := by
  have hlt := n.toNat_lt
  have hbound := q.bound
  obtain ⟨b, -, hb⟩ := (Holds.new hn).write ⟨q.items, by omega⟩
  rw [q.empty_push] at hb
  exact ⟨b, hb⟩

/-- A **`read`** that finds enough takes the oldest bytes. -/
theorem Holds.read {n : UInt32} {b : CircularBuffer} {q : BoundedQueue UInt8 (n.toNat - 1)}
    (h : Holds n b q) (d : Chunk) (timeout : UInt32) (hle : d.bytes.length ≤ q.items.length) :
    ∃ b', b.read d.bytes d.len timeout
        = .ok (.returns (.bufNoError, q.items.take d.bytes.length) b')
      ∧ Holds n b' (q.pop d.bytes.length) := by
  obtain ⟨b', hrun, hinv, hsame, hun⟩ := h.inv.read_spec h.alive d.bytes d.len timeout
    d.len_toNat.symm (by rw [d.len_toNat, h.used]; exact hle)
  rw [d.len_toNat, h.unread] at hrun hun
  exact ⟨b', hrun, h.next hinv hsame hun⟩

/-- One that does not sleeps, or gives up when its timeout is over. -/
theorem Holds.read_short {n : UInt32} {b : CircularBuffer}
    {q : BoundedQueue UInt8 (n.toNat - 1)} (h : Holds n b q) (d : Chunk) (timeout : UInt32)
    (hlt : q.items.length < d.bytes.length) :
    b.read d.bytes d.len timeout
      = .ok (if timeout = 0 then .waits else .returns (.bufTimeout, d.bytes) b) :=
  h.inv.read_short h.alive d.bytes d.len timeout (by rw [d.len_toNat, h.used]; exact hlt)

/-- What a call answers and leaves unread, on any well-formed buffer. -/
theorem Inv.queueCall_spec {b : CircularBuffer} (h : b.Inv) (hd : b.destructorCall = false)
    {q : BoundedQueue UInt8 (b.size.toNat - 1)} (hq : b.unread = q.items) (call : QueueCall) :
    ∃ b', b.queueCall call = .ok ((queueSpec (b.size.toNat - 1) q call).1, b')
      ∧ b'.Inv ∧ Same b b' ∧ b'.unread = (queueSpec (b.size.toNat - 1) q call).2.items := by
  have hused : b.used = q.items.length := by rw [← unread_length, hq]
  cases call with
  | write data =>
      obtain ⟨b', hrun, hinv, hsame, hun⟩ := h.write_spec data
      rw [hused] at hrun
      rw [hq] at hun
      refine ⟨b', ?_, hinv, hsame, hun⟩
      rw [queueCall, hrun]
      rfl
  | read data timeout =>
      rw [queueSpec]
      split
      · rename_i hle
        obtain ⟨b', hrun, hinv, hsame, hun⟩ := h.read_spec hd data.bytes data.len timeout
          data.len_toNat.symm (by rw [data.len_toNat, hused]; exact hle)
        rw [data.len_toNat, hq] at hrun hun
        refine ⟨b', ?_, hinv, hsame, hun⟩
        rw [queueCall, hrun]
        rfl
      · rename_i hgt
        have hshort := h.read_short hd data.bytes data.len timeout
          (by rw [data.len_toNat, hused]; exact Nat.lt_of_not_le hgt)
        refine ⟨b, ?_, h, Same.refl b, ?_⟩
        · rw [queueCall, hshort]
          split <;> rfl
        · split <;> exact hq
  | readNextByte =>
      have hspec := h.readNextByte_spec hd
      rw [hq] at hspec
      rw [queueSpec]
      split
      · rename_i hnone
        rw [hnone] at hspec
        refine ⟨b, ?_, h, Same.refl b, hq⟩
        rw [queueCall, hspec]
        rfl
      · rename_i c rest hsome
        rw [hsome] at hspec
        obtain ⟨b', hrun, hinv, hsame, hun⟩ := hspec
        refine ⟨b', ?_, hinv, hsame, ?_⟩
        · rw [queueCall, hrun]
          rfl
        · rw [hun, BoundedQueue.pop_items, hsome]
          rfl
  | getAllBytes =>
      have hspec := h.getAllBytes_spec hd
      rw [hused] at hspec
      rw [queueSpec]
      split
      · rename_i hbig
        rw [if_pos hbig] at hspec
        refine ⟨b, ?_, h, Same.refl b, hq⟩
        rw [queueCall, hspec]
        rfl
      · rename_i hsmall
        rw [if_neg hsmall] at hspec
        obtain ⟨b', hrun, hinv, hsame, hun⟩ := hspec
        rw [hq] at hrun
        refine ⟨b', ?_, hinv, hsame, ?_⟩
        · rw [queueCall, hrun]
          rfl
        · rw [hun, BoundedQueue.pop_items, List.drop_length]
  | clearBuffer =>
      obtain ⟨hinv, hsame, hun⟩ := h.clearBuffer_spec
      exact ⟨b.clearBuffer, rfl, hinv, hsame, hun⟩

/-- **One call simulates.** -/
theorem queueCall_refines {n : UInt32} {b : CircularBuffer}
    {q : BoundedQueue UInt8 (n.toNat - 1)} (h : Holds n b q) (call : QueueCall) :
    ∃ b', b.queueCall call = .ok ((queueSpec (n.toNat - 1) q call).1, b')
      ∧ Holds n b' (queueSpec (n.toNat - 1) q call).2 := by
  have hsize := h.size
  subst hsize
  obtain ⟨b', hrun, hinv, hsame, hun⟩ := h.inv.queueCall_spec h.alive h.unread call
  exact ⟨b', hrun, h.next hinv hsame hun⟩

/-- Every call sequence on a new buffer goes right and simulates. -/
theorem calls_refine {n : UInt32} (hn : 0 < n.toNat) (calls : List QueueCall) :
    ∃ b, execCalls queueCall (new n) calls = .ok ((runCalls (queueSpec (n.toNat - 1)) .empty calls).1, b) ∧
      Holds n b (runCalls (queueSpec (n.toNat - 1)) .empty calls).2 :=
  execCalls_refines (R := Holds n) (fun _ _ call h => queueCall_refines h call) (Holds.new hn)
    calls

/-- What a caller of a buffer of size `n` can rely on in a state. -/
structure ByteQueue (n : UInt32) (b : CircularBuffer) : Prop where
  /-- The vector has the constructor's extent, so `memcpy` is checked against it. -/
  extent : b.buf.length = n.toNat
  count : b.count.toNat = b.unread.length
  remain : b.count.toNat + b.remainBytes.toNat = n.toNat - 1
  write : ∀ d : Chunk, ∃ ret b', b.write d.bytes d.len = .ok (ret, b')
    ∧ b'.unread = (b.unread ++ d.bytes).rtake (n.toNat - 1)
    ∧ (ret = .bufOverflow ↔ n.toNat - 1 < b.unread.length + d.bytes.length)
    ∧ (ret = .bufNoError ↔ b.unread.length + d.bytes.length ≤ n.toNat - 1)
  read : ∀ (d : Chunk) (timeout : UInt32), d.bytes.length ≤ b.unread.length →
    ∃ b', b.read d.bytes d.len timeout
        = .ok (.returns (.bufNoError, b.unread.take d.bytes.length) b')
      ∧ b'.unread = b.unread.drop d.bytes.length
  timeout : ∀ (d : Chunk) (timeout : UInt32), b.unread.length < d.bytes.length →
    b.read d.bytes d.len timeout
      = .ok (if timeout = 0 then .waits else .returns (.bufTimeout, d.bytes) b)
  clear : b.clearBuffer.unread = []

theorem Holds.byteQueue {n : UInt32} {b : CircularBuffer}
    {q : BoundedQueue UInt8 (n.toNat - 1)} (h : Holds n b q) : ByteQueue n b where
  extent := h.extent
  count := by rw [h.inv.count_toNat, unread_length]
  remain := by
    have hlt := h.inv.used_lt
    rw [h.inv.count_toNat, h.inv.remainBytes_toNat, ← h.size]
    omega
  write := by
    intro d
    obtain ⟨b', hrun, hnext⟩ := h.write d
    rw [← h.unread] at hrun
    refine ⟨_, b', hrun, by rw [hnext.unread, BoundedQueue.push_items, h.unread], ?_, ?_⟩
    · split
      · rename_i hfits
        exact ⟨nofun, fun hc => by omega⟩
      · rename_i hover
        exact ⟨fun _ => by omega, fun _ => rfl⟩
    · split
      · rename_i hfits
        exact ⟨fun _ => hfits, fun _ => rfl⟩
      · rename_i hover
        exact ⟨nofun, fun hc => absurd hc hover⟩
  read := by
    intro d timeout hle
    rw [h.unread] at hle
    obtain ⟨b', hrun, hnext⟩ := h.read d timeout hle
    refine ⟨b', by rw [hrun, h.unread], by rw [hnext.unread, BoundedQueue.pop_items, h.unread]⟩
  timeout := by
    intro d timeout hlt
    exact h.read_short d timeout (by rw [← h.unread]; exact hlt)
  clear := h.inv.clearBuffer_spec.2.2

/-- **The refinement**: after any calls on a buffer of size `n`, every reply
was the bounded queue's, the queue's contents are unread, and the state is
one a caller can rely on. No call ran out of its arrays or stuck in its loop:
the whole sequence is `ok`. -/
theorem circularBuffer_is_byteQueue (n : UInt32) (hn : 1 ≤ n.toNat) (calls : List QueueCall) :
    ∃ b, execCalls queueCall (new n) calls
        = .ok ((runCalls (queueSpec (n.toNat - 1)) .empty calls).1, b)
      ∧ b.unread = (runCalls (queueSpec (n.toNat - 1)) .empty calls).2.items
      ∧ ByteQueue n b := by
  obtain ⟨b, hrun, hholds⟩ := calls_refine hn calls
  exact ⟨b, hrun, hholds.unread, hholds.byteQueue⟩

/-- Six bytes into a ring of four cells, then two out of the three kept. -/
theorem circularBuffer_is_byteQueue_four :
    1 ≤ (4 : UInt32).toNat ∧
      ∃ b, execCalls queueCall (new 4)
          [.write ⟨[1, 2, 3, 4, 5, 6], by decide⟩, .read ⟨[0, 0], by decide⟩ 5]
          = .ok ([.wrote .bufOverflow, .read .bufNoError [4, 5]], b)
        ∧ b.unread = [6] ∧ ByteQueue 4 b :=
  ⟨by decide, circularBuffer_is_byteQueue 4 (by decide)
    [.write ⟨[1, 2, 3, 4, 5, 6], by decide⟩, .read ⟨[0, 0], by decide⟩ 5]⟩

end CircularBuffer

end HpLib
