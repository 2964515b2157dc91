import HpLib.Common.ByteQueue
import HpLib.Peripheral.TcpClient

/-!
# The byte stream of a client

A connected client whose data path is the 1024-byte buffer of `initialize`:
receives that complete without error on one side, `read_next_bytes` on the
other, in any order. `handle_read_data` drops the error code of `write`, so
what the ring overwrites is gone without a word.

`received`, `delivered` and `events` record the history and steer nothing.
-/

namespace HpLib.ClientStream

open Lib CircularBuffer

/-- What the user of the client sees happen. -/
inductive Event where
  | signal (s : Signal)
  | readReturned (ret : BufferError) (data : Bytes)
  deriving Repr, DecidableEq

/-- A call that returned the overflow code would report the loss. -/
def Event.reportsLoss : Event → Prop
  | .readReturned ret _ => ret = .bufOverflow
  | .signal _ => False

structure State where
  client : TCPClient
  received : Bytes
  delivered : Bytes
  events : List Event
  deriving Repr, DecidableEq

inductive Act where
  | receive (d : Received)
  | readNextBytes (data : Chunk) (timeout : UInt32)
  deriving DecidableEq

namespace State

/-- `handle_read_data` without error. -/
def receive (s : State) (d : Received) : Option State :=
  match s.client.handleReadData false d with
  | .error _ => none
  | .ok h =>
      some { s with client := h.client, received := s.received ++ d.bytes,
                    events := s.events ++ h.signals.map .signal }

/-- A read that is asleep leaves everything as it was. -/
def readNextBytes (s : State) (data : Chunk) (timeout : UInt32) : Option State :=
  match s.client.readNextBytes data.bytes data.len timeout with
  | .error _ => none
  | .ok none => some s
  | .ok (some ((ret, bytes), client)) =>
      some { s with client := client,
                    delivered := if ret = .bufNoError then s.delivered ++ bytes else s.delivered,
                    events := s.events ++ [.readReturned ret bytes] }

def step (s : State) : Act → Option State
  | .receive d => s.receive d
  | .readNextBytes data timeout => s.readNextBytes data timeout

/-- The received bytes fit the free part of the buffer: the test by which
`write` finds its overflow. -/
def Fits (s : State) : Act → Prop
  | .receive d => ∀ b, s.client.buffer = some b → ¬ d.chunk.len > b.remainBytes
  | .readNextBytes _ _ => True

/-- The bytes waiting in the buffer. -/
def unread (s : State) : Bytes :=
  match s.client.buffer with
  | some b => b.unread
  | none => []

end State

/-- A client that has just connected. -/
def machine (id : Nat) : Machine State Act where
  init := { client := .initializeClient id true, received := [], delivered := [], events := [] }
  step := State.step

/-- The client's buffer holds `q`, reads go through it, and no event so far
has reported a loss. -/
structure Buffered (s : State) (q : TCPClient.Queue) : Prop where
  buffers : s.client.Buffers q
  noStructure : s.client.hasPacketStructure = false
  silent : ∀ e ∈ s.events, ¬ e.reportsLoss

theorem Buffered.init (id : Nat) : Buffered (machine id).init .empty where
  buffers := TCPClient.Buffers.new id true
  noStructure := rfl
  silent := by
    intro e he
    cases he

theorem Buffered.unread {s : State} {q : TCPClient.Queue} (h : Buffered s q) :
    s.unread = q.items := by
  obtain ⟨b, hb, hholds⟩ := h.buffers.holds
  rw [State.unread, hb]
  exact hholds.unread

/-- The guard in terms of the queue. -/
theorem Buffered.fits_iff {s : State} {q : TCPClient.Queue} (h : Buffered s q) (d : Received) :
    s.Fits (.receive d) ↔ q.items.length + d.bytes.length ≤ TCPClient.bufferSize.toNat - 1 := by
  obtain ⟨b, hb, hholds⟩ := h.buffers.holds
  have hrem := hholds.inv.remainBytes_toNat
  rw [hholds.used, hholds.size] at hrem
  have hbound := q.bound
  rw [State.Fits, hb]
  simp only [Option.some.injEq, forall_eq', gt_iff_lt, UInt32.lt_iff_toNat_lt, Chunk.len_toNat,
    Received.chunk_bytes, hrem]
  omega

/-- An event that reports no loss joins the history. -/
theorem Buffered.silent_append {s : State} {q : TCPClient.Queue} (h : Buffered s q) {e : Event}
    (he : ¬ e.reportsLoss) : ∀ x ∈ s.events ++ [e], ¬ x.reportsLoss := by
  intro x hx
  rcases List.mem_append.mp hx with hx | hx
  · exact h.silent x hx
  · cases List.mem_singleton.mp hx
    exact he

/-- A receive pushes its bytes into the queue and never goes wrong. -/
theorem Buffered.receive {s : State} {q : TCPClient.Queue} (h : Buffered s q) (d : Received) :
    ∃ s', s.step (.receive d) = some s' ∧ Buffered s' (q.push d.bytes)
      ∧ s'.received = s.received ++ d.bytes ∧ s'.delivered = s.delivered := by
  obtain ⟨c, hrun, hbuf, -, -, hstr⟩ := h.buffers.receive d
  refine ⟨{ s with client := c, received := s.received ++ d.bytes,
                   events := s.events ++ [.signal (.dataReceived d.bytes)] },
    ?_, ⟨hbuf, hstr.trans h.noStructure, h.silent_append fun hc => hc⟩, rfl, rfl⟩
  rw [State.step, State.receive, hrun]
  rfl

/-- How many bytes a read takes: what it asks for, or none when it sleeps or
times out. -/
def taken (q : TCPClient.Queue) (data : Chunk) : Nat :=
  if data.bytes.length ≤ q.items.length then data.bytes.length else 0

/-- A read takes bytes off the front of the queue and delivers just these. -/
theorem Buffered.read {s : State} {q : TCPClient.Queue} (h : Buffered s q) (data : Chunk)
    (timeout : UInt32) :
    ∃ s', s.step (.readNextBytes data timeout) = some s' ∧ Buffered s' (q.pop (taken q data))
      ∧ s'.received = s.received ∧ s'.delivered = s.delivered ++ q.items.take (taken q data) := by
  obtain ⟨b, hb, hholds⟩ := h.buffers.holds
  by_cases hle : data.bytes.length ≤ q.items.length
  · obtain ⟨b', hread, hnext⟩ := hholds.read data timeout hle
    rw [taken, if_pos hle]
    refine ⟨{ s with client := { s.client with buffer := some b' },
                     delivered := s.delivered ++ q.items.take data.bytes.length,
                     events := s.events
                       ++ [.readReturned .bufNoError (q.items.take data.bytes.length)] },
      ?_, ⟨⟨h.buffers.doBufferData, b', rfl, hnext⟩, h.noStructure,
        h.silent_append nofun⟩, rfl, rfl⟩
    rw [State.step, State.readNextBytes, TCPClient.readNextBytes, hb]
    simp only [h.noStructure, Bool.false_eq_true, if_false, hread]
    rfl
  · have hshort := hholds.read_short data timeout (Nat.lt_of_not_le hle)
    have hpop : q.pop 0 = q := by
      ext1
      rw [BoundedQueue.pop_items, List.drop_zero]
    rw [taken, if_neg hle, hpop, List.take_zero, List.append_nil]
    by_cases ht : timeout = 0
    · refine ⟨s, ?_, h, rfl, rfl⟩
      rw [State.step, State.readNextBytes, TCPClient.readNextBytes, hb]
      simp only [h.noStructure, Bool.false_eq_true, if_false, hshort, if_pos ht]
      rfl
    · refine ⟨{ s with client := { s.client with buffer := some b },
                       events := s.events ++ [.readReturned .bufTimeout data.bytes] },
        ?_, ⟨⟨h.buffers.doBufferData, b, rfl, hholds⟩, h.noStructure,
          h.silent_append nofun⟩, rfl, rfl⟩
      rw [State.step, State.readNextBytes, TCPClient.readNextBytes, hb]
      simp only [h.noStructure, Bool.false_eq_true, if_false, hshort, if_neg ht]
      rfl

/-! ## Whole runs -/

/-- Everything received is delivered or waits in the buffer, in order. -/
def Complete (s : State) : Prop :=
  ∃ q, Buffered s q ∧ s.delivered ++ q.items = s.received

/-- Some received byte is neither. -/
def Lossy (s : State) : Prop :=
  ∃ q, Buffered s q ∧ s.delivered.length + q.items.length < s.received.length

theorem Complete.step {s s' : State} {a : Act} (h : Complete s) (hfits : s.Fits a)
    (hs : s.step a = some s') : Complete s' := by
  obtain ⟨q, hbuf, heq⟩ := h
  cases a with
  | receive d =>
      obtain ⟨t, ht, hnext, hrec, hdel⟩ := hbuf.receive d
      cases ht.symm.trans hs
      refine ⟨_, hnext, ?_⟩
      rw [BoundedQueue.push_items_of_fits ((hbuf.fits_iff d).mp hfits), hrec, hdel, ← heq,
        List.append_assoc]
  | readNextBytes data timeout =>
      obtain ⟨t, ht, hnext, hrec, hdel⟩ := hbuf.read data timeout
      cases ht.symm.trans hs
      refine ⟨_, hnext, ?_⟩
      rw [BoundedQueue.pop_items, hdel, hrec, List.append_assoc, List.take_append_drop, heq]

/-- What does not fit is lost. -/
theorem Complete.overflow {s s' : State} {a : Act} (h : Complete s) (hover : ¬ s.Fits a)
    (hs : s.step a = some s') : Lossy s' := by
  obtain ⟨q, hbuf, heq⟩ := h
  cases a with
  | receive d =>
      obtain ⟨t, ht, hnext, hrec, hdel⟩ := hbuf.receive d
      cases ht.symm.trans hs
      rw [hbuf.fits_iff] at hover
      -- the queue is full, and holds less than was there and came
      have hbound := (q.push d.bytes).bound
      have hlen := congrArg List.length heq
      rw [List.length_append] at hlen
      refine ⟨_, hnext, ?_⟩
      rw [hdel, hrec, List.length_append]
      omega
  | readNextBytes data timeout => exact absurd trivial hover

/-- And stays lost. -/
theorem Lossy.step {s s' : State} {a : Act} (h : Lossy s) (hs : s.step a = some s') :
    Lossy s' := by
  obtain ⟨q, hbuf, hlt⟩ := h
  cases a with
  | receive d =>
      obtain ⟨t, ht, hnext, hrec, hdel⟩ := hbuf.receive d
      cases ht.symm.trans hs
      have hpush : (q.push d.bytes).items.length ≤ q.items.length + d.bytes.length := by
        rw [BoundedQueue.push_items, rtake_length, List.length_append]
        exact Nat.min_le_right _ _
      refine ⟨_, hnext, ?_⟩
      rw [hdel, hrec, List.length_append]
      omega
  | readNextBytes data timeout =>
      obtain ⟨t, ht, hnext, hrec, hdel⟩ := hbuf.read data timeout
      cases ht.symm.trans hs
      refine ⟨_, hnext, ?_⟩
      have hsplit := congrArg List.length (List.take_append_drop (taken q data) q.items)
      rw [List.length_append] at hsplit
      rw [BoundedQueue.pop_items, hdel, hrec, List.length_append]
      omega

/-- Every step of a client that is set up goes right. -/
theorem Buffered.step {s : State} {q : TCPClient.Queue} (h : Buffered s q) (a : Act) :
    ∃ s' q', s.step a = some s' ∧ Buffered s' q' := by
  cases a with
  | receive d =>
      obtain ⟨s', hs, hnext, -⟩ := h.receive d
      exact ⟨s', _, hs, hnext⟩
  | readNextBytes data timeout =>
      obtain ⟨s', hs, hnext, -⟩ := h.read data timeout
      exact ⟨s', _, hs, hnext⟩

theorem Buffered.of_step {s s' : State} {a : Act} (h : ∃ q, Buffered s q)
    (hs : s.step a = some s') : ∃ q, Buffered s' q := by
  obtain ⟨q, hq⟩ := h
  obtain ⟨t, q', ht, hnext⟩ := hq.step a
  cases ht.symm.trans hs
  exact ⟨q', hnext⟩

theorem buffered_of_run {id : Nat} {as : List Act} {s : State}
    (hrun : (machine id).exec (machine id).init as = some s) : ∃ q, Buffered s q :=
  Machine.inv_of_exec (M := machine id) (P := fun s => ∃ q, Buffered s q)
    (fun _ _ _ h hs => Buffered.of_step h hs) ⟨_, Buffered.init id⟩ hrun

/-- No run goes wrong. -/
theorem run_exists (id : Nat) (as : List Act) :
    ∃ s, (machine id).exec (machine id).init as = some s := by
  refine Option.isSome_iff_exists.mp (Machine.exec_isSome_of_guarded (G := fun _ _ => True)
    (P := fun s => ∃ q, Buffered s q) (fun _ _ _ h _ hs => Buffered.of_step h hs) ?_
    ⟨_, Buffered.init id⟩ (Machine.guarded_of_forall (fun _ _ => trivial) _ _))
  rintro s a ⟨q, h⟩
  obtain ⟨t, q', ht, -⟩ := h.step a
  exact Option.isSome_iff_exists.mpr ⟨t, ht⟩

/-- **Delivery**: no run goes wrong and none reports a loss. Nothing is lost
exactly as long as every receive fits the free part of the buffer, and then
what reads have delivered is the beginning of what was received. -/
theorem delivered_prefix_of_fits (id : Nat) (as : List Act) :
    ∃ s, (machine id).exec (machine id).init as = some s
      ∧ (∀ e ∈ s.events, ¬ e.reportsLoss)
      ∧ ((machine id).Guarded State.Fits (machine id).init as → s.delivered <+: s.received)
      ∧ (s.delivered ++ s.unread = s.received
          ↔ (machine id).Guarded State.Fits (machine id).init as) := by
  obtain ⟨s, hrun⟩ := run_exists id as
  refine ⟨s, hrun, ?_⟩
  have hinit : Complete (machine id).init := ⟨_, Buffered.init id, rfl⟩
  rcases Machine.guarded_or_not (fun _ _ _ h hg hs => h.step hg hs)
      (fun _ _ _ h hg hs => h.overflow hg hs) (fun _ _ _ h hs => h.step hs) hinit hrun
    with ⟨hg, q, hbuf, heq⟩ | ⟨hg, q, hbuf, hlt⟩
  · refine ⟨hbuf.silent, fun _ => ⟨q.items, heq⟩, fun _ => hg, fun _ => ?_⟩
    rw [hbuf.unread, heq]
  · refine ⟨hbuf.silent, fun hc => absurd hc hg, fun hc => ?_, fun hc => absurd hc hg⟩
    rw [hbuf.unread] at hc
    have hlen := congrArg List.length hc
    rw [List.length_append] at hlen
    omega

/-- One receive and one read after it. -/
theorem run_receive_read (id : Nat) (d : Received) (data : Chunk) :
    ∃ s, (machine id).exec (machine id).init [.receive d, .readNextBytes data 0] = some s
      ∧ s.received = d.bytes
      ∧ s.delivered = (BoundedQueue.push (.empty : TCPClient.Queue) d.bytes).items.take
          (taken (BoundedQueue.push .empty d.bytes) data) := by
  obtain ⟨s, hs, hbuf, hrec, hdel⟩ := (Buffered.init id).receive d
  obtain ⟨t, ht, -, hrec', hdel'⟩ := hbuf.read data 0
  refine ⟨t, ?_, hrec'.trans hrec, ?_⟩
  · exact Machine.exec_cons_eq_some.mpr ⟨s, hs, Machine.exec_cons_eq_some.mpr ⟨t, ht, rfl⟩⟩
  · rw [hdel', hdel]
    rfl

/-- Two bytes in, two bytes out. -/
theorem delivered_prefix_of_fits_two :
    ∃ s, (machine 0).exec (machine 0).init
          [.receive ⟨[7, 8], by decide⟩, .readNextBytes ⟨[0, 0], by decide⟩ 0] = some s
      ∧ s.delivered = [7, 8] ∧ s.delivered <+: s.received := by
  obtain ⟨s, hrun, -, hpre, -⟩ := delivered_prefix_of_fits 0
    [.receive ⟨[7, 8], by decide⟩, .readNextBytes ⟨[0, 0], by decide⟩ 0]
  obtain ⟨t, hrun', -, hdel⟩ := run_receive_read 0 ⟨[7, 8], by decide⟩ ⟨[0, 0], by decide⟩
  cases hrun.symm.trans hrun'
  refine ⟨s, hrun, hdel, hpre ?_⟩
  intro u hu
  refine ⟨((Buffered.init 0).fits_iff _).mpr (by decide), ?_⟩
  exact fun v _ => ⟨trivial, trivial⟩

/-- One byte more than the buffer holds. -/
def burst : Received :=
  ⟨0 :: List.replicate 1023 1, by rw [List.length_cons, List.length_replicate]; decide⟩

/-- The first byte of the burst is overwritten, and a read gives the second. -/
theorem burst_loses_first_byte :
    ¬ ∀ (id : Nat) (as : List Act) (s : State),
        (machine id).exec (machine id).init as = some s →
          (∃ e ∈ s.events, e.reportsLoss) ∨ s.delivered <+: s.received := by
  intro hall
  obtain ⟨s, hrun, hrec, hdel⟩ := run_receive_read 0 burst ⟨[0], by decide⟩
  have hkept : (BoundedQueue.push (.empty : TCPClient.Queue) burst.bytes).items = List.replicate 1023 1 := by
    have hlen : burst.bytes.length - (TCPClient.bufferSize.toNat - 1) = 1 := by
      rw [burst, List.length_cons, List.length_replicate]
      rfl
    rw [BoundedQueue.push_items, BoundedQueue.empty_items, List.nil_append, List.rtake, hlen]
    rfl
  have hread : s.delivered = [1] := by
    rw [hdel, taken, hkept, if_pos (by rw [List.length_replicate]; decide)]
    rfl
  obtain ⟨q, hbuf⟩ := buffered_of_run hrun
  rcases hall 0 _ s hrun with ⟨e, he, hloss⟩ | ⟨rest, hpre⟩
  · exact hbuf.silent e he hloss
  · rw [hread, hrec] at hpre
    injection hpre with hone
    exact absurd hone (by decide)

end HpLib.ClientStream
