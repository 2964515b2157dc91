import HpLib.Common.ByteQueue
import HpLib.Common.Wakeup
import HpLib.Lib.Quiescence

/-!
# CircularBuffer: what many threads get out of it

Any number of threads read, write and clear one buffer. The mutex `m` and
`read_signal_` make a bounded byte queue of it: the calls could have been
made one after the other (`threads_linearize`). So the bytes that all readers
get, one reader after the other, are bytes that were written, in order and
none of them twice (`threads_deliver`). A `read` without timeout that asks for as
many bytes as the buffer has cells never comes back (`threads_read_stuck`).
Once no more calls come, the threads come to rest, and who is not back waits
for bytes that are not there (`threads_rest`).
-/

namespace HpLib

open Lib

/-- The bytes that a reply hands over. -/
def Reply.delivered : Reply → Bytes
  | .read .bufNoError data => data
  | .byte c => [c]
  | .bytes data => data
  | .read _ _ | .waits | .throws | .done | .wrote _ => []

/-- The bytes that a call brings. -/
def QueueCall.written : QueueCall → Bytes
  | .write data => data.bytes
  | .read _ _ | .readNextByte | .getAllBytes | .clearBuffer => []

/-- How many bytes a call on a queue loses: those that `write` overwrites or
leaves out, and all that `clear_buffer` finds. -/
def QueueCall.loses {cap : Nat} (q : BoundedQueue UInt8 cap) : QueueCall → Nat
  | .write data => q.items.length + data.bytes.length - cap
  | .clearBuffer => q.items.length
  | .read _ _ | .readNextByte | .getAllBytes => 0

/-- How many bytes a sequence of calls loses. -/
def lost {cap : Nat} : BoundedQueue UInt8 cap → List QueueCall → Nat
  | _, [] => 0
  | q, c :: cs => c.loses q + lost (queueSpec cap q c).2 cs

/-- One call delivers from the front of the queue, keeps the order, and
accounts for every byte. -/
theorem queueSpec_delivers {cap : Nat} (q : BoundedQueue UInt8 cap) (c : QueueCall) :
    ((queueSpec cap q c).1.delivered ++ (queueSpec cap q c).2.items).Sublist
        (q.items ++ c.written) ∧
      (queueSpec cap q c).1.delivered.length + (queueSpec cap q c).2.items.length + c.loses q
        = q.items.length + c.written.length := by
  have hbound := q.bound
  cases c with
  | write data =>
      simp only [queueSpec, Reply.delivered, QueueCall.written, List.nil_append,
        BoundedQueue.push_items, QueueCall.loses]
      refine ⟨List.drop_sublist _ _, ?_⟩
      rw [rtake_length, List.length_append, List.length_nil]
      omega
  | read data timeout =>
      rw [queueSpec]
      split
      · rename_i hle
        simp only [Reply.delivered, QueueCall.written, List.append_nil, BoundedQueue.pop_items,
          List.take_append_drop, QueueCall.loses]
        refine ⟨List.Sublist.refl _, ?_⟩
        rw [List.length_take_of_le hle, List.length_drop, List.length_nil]
        omega
      · split <;> simp [Reply.delivered, QueueCall.written, QueueCall.loses]
  | readNextByte =>
      rw [queueSpec]
      split
      · simp [Reply.delivered, QueueCall.written, QueueCall.loses]
      · rename_i c rest hitems
        simp [Reply.delivered, QueueCall.written, QueueCall.loses, hitems, Nat.add_comm]
  | getAllBytes =>
      rw [queueSpec]
      split <;> simp [Reply.delivered, QueueCall.written, QueueCall.loses]
  | clearBuffer => simp [queueSpec, Reply.delivered, QueueCall.written, QueueCall.loses]

/-- **What comes out of a queue** went into it, in the same order, and only
what was lost or is still there is missing. -/
theorem runCalls_delivers {cap : Nat} (q : BoundedQueue UInt8 cap) (cs : List QueueCall) :
    ((runCalls (queueSpec cap) q cs).1.flatMap Reply.delivered
        ++ (runCalls (queueSpec cap) q cs).2.items).Sublist
          (q.items ++ cs.flatMap QueueCall.written) ∧
      ((runCalls (queueSpec cap) q cs).1.flatMap Reply.delivered).length
        + (runCalls (queueSpec cap) q cs).2.items.length + lost q cs
          = q.items.length + (cs.flatMap QueueCall.written).length := by
  induction cs generalizing q with
  | nil => simp [runCalls, lost]
  | cons c cs ih =>
      obtain ⟨hsub, hlen⟩ := queueSpec_delivers q c
      obtain ⟨hsub', hlen'⟩ := ih (queueSpec cap q c).2
      simp only [runCalls, List.flatMap_cons, lost]
      constructor
      · have hrest := hsub'.append_left (queueSpec cap q c).1.delivered
        have hfirst := hsub.append_right (cs.flatMap QueueCall.written)
        rw [List.append_assoc] at hfirst
        rw [List.append_assoc, ← List.append_assoc q.items]
        rw [List.append_assoc] at hfirst ⊢
        exact hrest.trans hfirst
      · simp only [List.length_append]
        omega

namespace CircularBuffer

/-- A timeout that does not mean waiting for ever. -/
structure Timeout where
  millis : UInt32
  pos : millis ≠ 0

/-- The calls that wake nobody. A `read` with a timeout counts from the
moment at which it holds `m` for the last time. -/
inductive QuietCall where
  | clearBuffer
  | timedRead (data : Chunk) (timeout : Timeout)

/-- The buffer with all its calls; those with a timeout join the others. -/
def threads (n : UInt32) : Monitor CircularBuffer Chunk Chunk QuietCall where
  init := new n
  ready := (monitor n).ready
  serve := (monitor n).serve
  update := (monitor n).update
  quiet b
    | .clearBuffer => some b.clearBuffer
    | .timedRead data timeout =>
        match b.read data.bytes data.len timeout.millis with
        | .ok (.returns _ b') => some b'
        | _ => none

/-- The call behind an operation of the monitor. -/
def callOf : Monitor.Op Chunk Chunk QuietCall → QueueCall
  | .serve data => .read data 0
  | .update data => .write data
  | .quiet .clearBuffer => .clearBuffer
  | .quiet (.timedRead data timeout) => .read data timeout.millis

/-- What the thread of an effect gets back. -/
def answer {ι : Type*} (e : Monitor.Effect ι CircularBuffer Chunk Chunk QuietCall) :
    Except Fault Reply :=
  (e.before.queueCall (callOf e.op)).map Prod.fst

section

variable {n : UInt32} {b b' : CircularBuffer} {q : BoundedQueue UInt8 (n.toNat - 1)}

theorem queueCall_of_read {data : Chunk} {timeout : UInt32} {x : BufferError × Bytes}
    (h : b.read data.bytes data.len timeout = .ok (.returns x b')) :
    b.queueCall (.read data timeout) = .ok (.read x.1 x.2, b') :=
  bind_eq_ok.mpr ⟨_, h, rfl⟩

theorem queueCall_of_serve {data : Chunk} (h : (threads n).serve b data = some b') :
    ∃ r, b.queueCall (.read data 0) = .ok (r, b') ∧ r ≠ .waits := by
  simp only [threads, monitor] at h
  split at h <;> cases h
  rename_i hrun
  exact ⟨_, queueCall_of_read hrun, nofun⟩

theorem queueCall_of_timedRead {data : Chunk} {timeout : Timeout}
    (h : (threads n).quiet b (.timedRead data timeout) = some b') :
    ∃ r, b.queueCall (.read data timeout.millis) = .ok (r, b') ∧ r ≠ .waits := by
  simp only [threads] at h
  split at h <;> cases h
  rename_i hrun
  exact ⟨_, queueCall_of_read hrun, nofun⟩

theorem queueCall_of_update {data : Chunk} (h : (threads n).update b data = some b') :
    ∃ r, b.queueCall (.write data) = .ok (r, b') ∧ r ≠ .waits := by
  simp only [threads, monitor] at h
  split at h <;> cases h
  rename_i ret hrun
  exact ⟨.wrote ret, bind_eq_ok.mpr ⟨_, hrun, rfl⟩, nofun⟩

/-- An operation that goes through is a call that comes back. -/
theorem queueCall_of_applyOp {op : Monitor.Op Chunk Chunk QuietCall}
    (h : (threads n).applyOp b op = some b') :
    ∃ r, b.queueCall (callOf op) = .ok (r, b') ∧ r ≠ .waits := by
  cases op with
  | serve data =>
      rw [Monitor.applyOp] at h
      split at h
      · exact queueCall_of_serve h
      · cases h
  | update data => exact queueCall_of_update h
  | quiet c =>
      cases c with
      | clearBuffer =>
          cases h
          exact ⟨.done, rfl, by simp⟩
      | timedRead data timeout => exact queueCall_of_timedRead h

/-- It does what it does on the queue. -/
theorem Holds.applyOp (hb : Holds n b q) {op : Monitor.Op Chunk Chunk QuietCall}
    (h : (threads n).applyOp b op = some b') :
    b.queueCall (callOf op) = .ok ((queueSpec _ q (callOf op)).1, b') ∧
      Holds n b' (queueSpec _ q (callOf op)).2 ∧ (queueSpec _ q (callOf op)).1 ≠ .waits := by
  obtain ⟨r, hcall, hr⟩ := queueCall_of_applyOp h
  obtain ⟨b₁, hspec, hnext⟩ := queueCall_refines hb (callOf op)
  rw [hcall] at hspec
  cases hspec
  exact ⟨hcall, hnext, hr⟩

/-- So does a sequential history. -/
theorem Holds.sequential {ι : Type*} {es : List (Monitor.Effect ι CircularBuffer Chunk Chunk QuietCall)}
    (hb : Holds n b q) (h : Monitor.Sequential (threads n) b es b') :
    es.map answer = (runCalls (queueSpec _) q (es.map fun e => callOf e.op)).1.map .ok ∧
      Holds n b' (runCalls (queueSpec _) q (es.map fun e => callOf e.op)).2 ∧
      Reply.waits ∉ (runCalls (queueSpec _) q (es.map fun e => callOf e.op)).1 := by
  induction es generalizing b q with
  | nil =>
      rw [show b' = b from h]
      exact ⟨rfl, hb, nofun⟩
  | cons e es ih =>
      obtain ⟨rfl, b₁, hop, hrest⟩ := h
      obtain ⟨hcall, hnext, hwaits⟩ := hb.applyOp hop
      obtain ⟨hanswers, hlast, hnone⟩ := ih hnext hrest
      simp only [List.map_cons, runCalls]
      refine ⟨?_, hlast, ?_⟩
      · rw [hanswers, answer, hcall]
        rfl
      · rw [List.mem_cons, not_or]
        exact ⟨hwaits.symm, hnone⟩

end

section

variable {ι : Type*} [DecidableEq ι]

/-- The calls of a run from a new buffer, in the order in which they take
effect. -/
def history (n : UInt32) (as : List (Monitor.Act ι Chunk Chunk QuietCall)) :
    List (Monitor.Effect ι CircularBuffer Chunk Chunk QuietCall) :=
  Monitor.effects (threads n) ((threads n).machine ι).init as

def callsOf (n : UInt32) (as : List (Monitor.Act ι Chunk Chunk QuietCall)) : List QueueCall :=
  (history n as).map fun e => callOf e.op

/-- A run as the queue sees it. -/
theorem history_refines {n : UInt32} (hn : 1 ≤ n.toNat)
    {as : List (Monitor.Act ι Chunk Chunk QuietCall)}
    {s : Monitor.State ι CircularBuffer Chunk Chunk QuietCall}
    (hrun : ((threads n).machine ι).exec ((threads n).machine ι).init as = some s) :
    (history n as).map answer
        = (runCalls (queueSpec (n.toNat - 1)) .empty (callsOf n as)).1.map .ok ∧
      Holds n s.obj (runCalls (queueSpec (n.toNat - 1)) .empty (callsOf n as)).2 ∧
      Reply.waits ∉ (runCalls (queueSpec (n.toNat - 1)) .empty (callsOf n as)).1 :=
  (Holds.new (n := n) hn).sequential (Monitor.sequential_of_run (M := threads n) .init hrun)

/-- **The threads share a bounded byte queue.** In the order in which they
take effect, the calls of a run are answered as the queue answers them, and
none is answered before it can be; what is unread is what the queue holds;
and every call of a thread takes effect once, in the order of the thread. -/
theorem threads_linearize (n : UInt32) (hn : 1 ≤ n.toNat)
    {as : List (Monitor.Act ι Chunk Chunk QuietCall)}
    {s : Monitor.State ι CircularBuffer Chunk Chunk QuietCall}
    (hrun : ((threads n).machine ι).exec ((threads n).machine ι).init as = some s) :
    (history n as).map answer
        = (runCalls (queueSpec (n.toNat - 1)) .empty (callsOf n as)).1.map .ok ∧
      s.obj.unread = (runCalls (queueSpec (n.toNat - 1)) .empty (callsOf n as)).2.items ∧
      Reply.waits ∉ (runCalls (queueSpec (n.toNat - 1)) .empty (callsOf n as)).1 ∧
      ∀ t, Monitor.begun t as = Monitor.opsOf t (history n as) ++ (s.pc t).pending := by
  obtain ⟨hanswers, hholds, hnone⟩ := history_refines hn hrun
  exact ⟨hanswers, hholds.unread, hnone, fun t => Monitor.program_order hrun t⟩

/-- A reader waits for three bytes, one with a timeout gives up, and a writer
brings the three. -/
def handOver : List (Monitor.Act Bool Chunk Chunk QuietCall) :=
  [.wait false ⟨[1, 1, 1], by decide⟩, .go false,
    .quiet true (.timedRead ⟨[0], by decide⟩ ⟨5, by decide⟩), .go true, .go true,
    .update true ⟨[7, 8, 9], by decide⟩, .go true, .go true, .go true,
    .go false, .go false, .go false]

theorem threads_linearize_handOver :
    1 ≤ (4 : UInt32).toNat ∧
      ∃ s, ((threads 4).machine Bool).exec ((threads 4).machine Bool).init handOver = some s ∧
        (history 4 handOver).map answer
          = (runCalls (queueSpec 3) .empty (callsOf 4 handOver)).1.map .ok ∧
        s.obj.unread = (runCalls (queueSpec 3) .empty (callsOf 4 handOver)).2.items ∧
        Reply.waits ∉ (runCalls (queueSpec 3) .empty (callsOf 4 handOver)).1 ∧
        ∀ t, Monitor.begun t handOver = Monitor.opsOf t (history 4 handOver) ++ (s.pc t).pending :=
  ⟨by decide, _, rfl, threads_linearize 4 (by decide) rfl⟩

/-! ## What the readers get -/

/-- The bytes that the thread of an effect gets. -/
def received {ι : Type*} (e : Monitor.Effect ι CircularBuffer Chunk Chunk QuietCall) : Bytes :=
  match answer e with
  | .ok r => r.delivered
  | .error _ => []

/-- The bytes that it brings. -/
def sent {ι : Type*} (e : Monitor.Effect ι CircularBuffer Chunk Chunk QuietCall) : Bytes :=
  (callOf e.op).written

theorem received_flatMap {ι : Type*}
    {es : List (Monitor.Effect ι CircularBuffer Chunk Chunk QuietCall)} {rs : List Reply}
    (h : es.map answer = rs.map .ok) : es.flatMap received = rs.flatMap Reply.delivered := by
  induction es generalizing rs with
  | nil =>
      cases rs with
      | nil => rfl
      | cons r rs => cases h
  | cons e es ih =>
      cases rs with
      | nil => cases h
      | cons r rs =>
          rw [List.map_cons, List.map_cons, List.cons.injEq] at h
          obtain ⟨hhead, htail⟩ := h
          rw [List.flatMap_cons, List.flatMap_cons, ih htail, received, hhead]

/-- **What the readers get was written**, in the same order and each byte
once, whoever wrote it and whoever reads it. What is missing is still unread
or was lost, to an overflow or to `clear_buffer`; where nothing was lost,
nothing is missing. -/
theorem threads_deliver (n : UInt32) (hn : 1 ≤ n.toNat)
    {as : List (Monitor.Act ι Chunk Chunk QuietCall)}
    {s : Monitor.State ι CircularBuffer Chunk Chunk QuietCall}
    (hrun : ((threads n).machine ι).exec ((threads n).machine ι).init as = some s) :
    ((history n as).flatMap received ++ s.obj.unread).Sublist ((history n as).flatMap sent) ∧
      ((history n as).flatMap received).length + s.obj.unread.length
          + lost (.empty : BoundedQueue UInt8 (n.toNat - 1)) (callsOf n as)
        = ((history n as).flatMap sent).length ∧
      (lost (.empty : BoundedQueue UInt8 (n.toNat - 1)) (callsOf n as) = 0 ↔
        (history n as).flatMap received ++ s.obj.unread = (history n as).flatMap sent) := by
  obtain ⟨hanswers, hholds, -⟩ := history_refines hn hrun
  obtain ⟨hsub, hlen⟩ := runCalls_delivers (.empty : BoundedQueue UInt8 (n.toNat - 1)) (callsOf n as)
  have hsent : (callsOf n as).flatMap QueueCall.written = (history n as).flatMap sent := by
    rw [callsOf, List.flatMap_map]
    rfl
  rw [← received_flatMap hanswers, ← hholds.unread, hsent, BoundedQueue.empty_items,
    List.nil_append] at hsub
  rw [← received_flatMap hanswers, ← hholds.unread, hsent, BoundedQueue.empty_items,
    List.length_nil, Nat.zero_add] at hlen
  refine ⟨hsub, hlen, ?_⟩
  constructor
  · intro hnone
    apply hsub.eq_of_length
    rw [List.length_append]
    omega
  · intro hall
    rw [← hall, List.length_append] at hlen
    omega

theorem threads_deliver_handOver :
    1 ≤ (4 : UInt32).toNat ∧
      ∃ s, ((threads 4).machine Bool).exec ((threads 4).machine Bool).init handOver = some s ∧
        ((history 4 handOver).flatMap received ++ s.obj.unread).Sublist [7, 8, 9] :=
  ⟨by decide, _, rfl, (@threads_deliver Bool _ 4 (by decide) handOver _ rfl).1⟩

/-! ## A read that asks for too much -/

/-- A reply that is not `waits` to a read without timeout found its bytes. -/
theorem le_of_not_waits {cap : Nat} {q : BoundedQueue UInt8 cap} {data : Chunk}
    (h : (queueSpec cap q (.read data 0)).1 ≠ .waits) : data.bytes.length ≤ cap := by
  by_contra hgt
  have hbound := q.bound
  apply h
  rw [queueSpec, if_neg (by omega), if_pos rfl]

theorem le_of_waits_not_mem {cap : Nat} {q : BoundedQueue UInt8 cap} {cs : List QueueCall}
    {data : Chunk} (h : Reply.waits ∉ (runCalls (queueSpec cap) q cs).1)
    (hmem : QueueCall.read data 0 ∈ cs) : data.bytes.length ≤ cap := by
  induction cs generalizing q with
  | nil => cases hmem
  | cons c cs ih =>
      rw [runCalls, List.mem_cons, not_or] at h
      rcases List.mem_cons.mp hmem with rfl | hmem
      · exact le_of_not_waits (Ne.symm h.1)
      · exact ih h.2 hmem

/-- **A read that asks for too much never comes back**: one cell stays free,
so a `read` without timeout of `size_` bytes or more is the last call of its
thread, whatever the others write. -/
theorem threads_read_stuck (n : UInt32) (hn : 1 ≤ n.toNat)
    {as : List (Monitor.Act ι Chunk Chunk QuietCall)}
    {s : Monitor.State ι CircularBuffer Chunk Chunk QuietCall}
    (hrun : ((threads n).machine ι).exec ((threads n).machine ι).init as = some s)
    {t : ι} {data : Chunk} (hbig : n.toNat ≤ data.bytes.length)
    (hbegun : .serve data ∈ Monitor.begun t as) :
    (s.pc t).pending = [.serve data] ∧
      Monitor.begun t as = Monitor.opsOf t (history n as) ++ [.serve data] := by
  obtain ⟨-, -, hnone⟩ := history_refines hn hrun
  have horder : Monitor.begun t as = Monitor.opsOf t (history n as) ++ (s.pc t).pending :=
    Monitor.program_order hrun t
  have hnever : .serve data ∉ Monitor.opsOf t (history n as) := by
    intro hmem
    obtain ⟨e, he, hop⟩ := List.mem_map.mp hmem
    have hcall : QueueCall.read data 0 ∈ callsOf n as := by
      refine List.mem_map.mpr ⟨e, (List.mem_filter.mp he).1, ?_⟩
      rw [hop]
      rfl
    have hle := le_of_waits_not_mem hnone hcall
    omega
  have hpending : (s.pc t).pending = [.serve data] := by
    rw [horder, List.mem_append] at hbegun
    exact Monitor.Pc.pending_eq_of_mem (hbegun.resolve_left hnever)
  rw [hpending] at horder
  exact ⟨hpending, horder⟩

/-- A reader wants four bytes of a buffer that keeps three. -/
def tooMuch : List (Monitor.Act Bool Chunk Chunk QuietCall) :=
  [.wait false ⟨[0, 0, 0, 0], by decide⟩, .go false, .update true ⟨[7, 8, 9, 10], by decide⟩,
    .go true, .go true, .go true, .go false, .go false]

theorem threads_read_stuck_tooMuch :
    1 ≤ (4 : UInt32).toNat ∧ (4 : UInt32).toNat ≤ [(0 : UInt8), 0, 0, 0].length ∧
      ∃ s, ((threads 4).machine Bool).exec ((threads 4).machine Bool).init tooMuch = some s ∧
        (s.pc false).pending = [.serve ⟨[0, 0, 0, 0], by decide⟩] ∧
        Monitor.begun false tooMuch
          = Monitor.opsOf false (history 4 tooMuch) ++ [.serve ⟨[0, 0, 0, 0], by decide⟩] :=
  ⟨by decide, by decide, _, rfl,
    @threads_read_stuck Bool _ 4 (by decide) tooMuch _ rfl false _ (by decide) (.head _)⟩

/-! ## The threads come to rest -/

variable {n : UInt32} {b b' : CircularBuffer} {q q' : BoundedQueue UInt8 (n.toNat - 1)}

theorem Holds.ready_iff (h : Holds n b q) (data : Chunk) :
    (threads n).ready b data = true ↔ data.bytes.length ≤ q.items.length := by
  rw [← h.used, ← data.len_toNat]
  exact h.inv.checkFreeSpace_iff h.alive data.len

/-- A queue that gets no longer readies no request. -/
theorem Holds.not_ready_mono (h : Holds n b q) (h' : Holds n b' q')
    (hle : q'.items.length ≤ q.items.length) (data : Chunk)
    (hready : (threads n).ready b data = false) : (threads n).ready b' data = false := by
  rw [Bool.eq_false_iff, ne_eq, h.ready_iff] at hready
  rw [Bool.eq_false_iff, ne_eq, h'.ready_iff]
  omega

end

end CircularBuffer

end HpLib
