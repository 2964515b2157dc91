import HpLib.Peripheral.ClientStream
import Mathlib.Logic.Function.Basic

/-!
# Two clients on one connection

A `TCPClient` at either end of a TCP connection, both sending and reading.
The network is taken as TCP promises it: what a socket has accepted arrives
at the other end once, in order, in pieces of any size, or the connection
fails. A `send` may be accepted in part or throw, a receive that is pending
may complete with bytes or with an error, and the users may disconnect.

What the other user reads are bytes that were accepted, in order and each
once, in either direction and in every run (`connected_delivers`). The counter
`send_size_` however counts what `send` was asked for, accepted or not.

`accepted` and `asked` record the history and steer nothing.
-/

namespace HpLib

open Lib ClientStream

/-- One end. `receiving` says that an `async_receive` is pending. -/
structure Endpoint where
  stream : ClientStream.State
  sendSize : UInt64
  receiving : Bool
  accepted : Bytes
  asked : Nat

/-- `wire s` is what the end `s` has sent and the other has not received. -/
structure Connected where
  ends : Bool → Endpoint
  wire : Bool → Bytes

/-- `send` of `data` answers with the number of bytes that the socket
accepted, or not at all when the socket throws. -/
inductive ConnectedAct where
  | send (s : Bool) (data : Chunk) (answer : Option Nat)
  | receive (s : Bool) (k : Nat)
  | fail (s : Bool)
  | readNextBytes (s : Bool) (data : Chunk) (timeout : UInt32)
  | disconnect (s : Bool)
  deriving DecidableEq

namespace Connected

def setEnd (x : Connected) (s : Bool) (e : Endpoint) : Connected :=
  { x with ends := Function.update x.ends s e }

@[simp] theorem setEnd_ends_self (x : Connected) (s : Bool) (e : Endpoint) :
    (x.setEnd s e).ends s = e :=
  Function.update_self ..

theorem setEnd_ends_of_ne (x : Connected) {s t : Bool} (e : Endpoint) (h : t ≠ s) :
    (x.setEnd s e).ends t = x.ends t :=
  Function.update_of_ne h ..

/-- `TCPClient::send`. A client that is not connected returns -1. -/
def send (x : Connected) (s : Bool) (data : Chunk) (answer : Option Nat) : Option Connected :=
  let e := x.ends s
  if e.stream.client.isConnected then
    -- it is counted before the socket is asked
    let e := { e with sendSize := e.sendSize + data.len.toUInt64,
                      asked := e.asked + data.bytes.length }
    match answer with
    | none => some (x.setEnd s e)
    | some k =>
        if k ≤ data.bytes.length then
          some { ends := Function.update x.ends s { e with accepted := e.accepted ++ data.bytes.take k },
                 wire := Function.update x.wire s (x.wire s ++ data.bytes.take k) }
        else none
  else some x

/-- `k` bytes off the wire are what one receive can put into `data_`. -/
def arrival (x : Connected) (s : Bool) (k : Nat) : Received where
  bytes := (x.wire !s).take (min k maxLength)
  bound := Nat.le_trans (List.length_take_le _ _) (Nat.min_le_right _ _)

/-- The pending receive of the end `s` completes with the next bytes. -/
def receive (x : Connected) (s : Bool) (k : Nat) : Option Connected :=
  let e := x.ends s
  if e.receiving ∧ 0 < k ∧ k ≤ (x.wire !s).length ∧ k ≤ maxLength then
    (e.stream.receive (x.arrival s k)).map fun stream =>
      { ends := Function.update x.ends s { e with stream := stream },
        wire := Function.update x.wire (!s) ((x.wire !s).drop k) }
  else none

/-- It completes with an error, of the connection or of its own socket. -/
def fail (x : Connected) (s : Bool) : Option Connected :=
  let e := x.ends s
  if e.receiving then
    match e.stream.client.handleReadData true ⟨[], Nat.zero_le _⟩ with
    | .error _ => none
    | .ok h =>
        some (x.setEnd s { e with
          stream := { e.stream with client := h.client,
                                    events := e.stream.events ++ h.signals.map .signal }
          receiving := h.rearmed })
  else none

def readNextBytes (x : Connected) (s : Bool) (data : Chunk) (timeout : UInt32) :
    Option Connected :=
  ((x.ends s).stream.readNextBytes data timeout).map fun stream =>
    x.setEnd s { x.ends s with stream := stream }

/-- `TCPClient::disconnect`. The pending receive completes some time later. -/
def disconnect (x : Connected) (s : Bool) : Connected :=
  let e := x.ends s
  x.setEnd s
    { e with stream := { e.stream with client := { e.stream.client with isConnected := false } } }

def step (x : Connected) : ConnectedAct → Option Connected
  | .send s data answer => x.send s data answer
  | .receive s k => x.receive s k
  | .fail s => x.fail s
  | .readNextBytes s data timeout => x.readNextBytes s data timeout
  | .disconnect s => some (x.disconnect s)

/-- The bytes of a receive fit the free part of the buffer at `s`. -/
def Fits (s : Bool) (x : Connected) : ConnectedAct → Prop
  | .receive t k => t = s → (x.ends s).stream.Fits (.receive (x.arrival s k))
  | .send _ _ _ | .fail _ | .readNextBytes _ _ _ | .disconnect _ => True

end Connected

/-- Two clients that have just connected. -/
def connectedMachine (id : Bool → Nat) : Machine Connected ConnectedAct where
  init := { ends := fun s => { stream := (ClientStream.machine (id s)).init, sendSize := 0,
                               receiving := true, accepted := [], asked := 0 }
            wire := fun _ => [] }
  step := Connected.step

namespace Connected

/-! ## What a step does to the stream of an end -/

/-- The client is no longer connected, which its stream takes no notice of. -/
structure HungUp (st st' : ClientStream.State) : Prop where
  client : st'.client = { st.client with isConnected := false }
  received : st'.received = st.received
  delivered : st'.delivered = st.delivered
  events : ∃ signals : List Signal, st'.events = st.events ++ signals.map .signal

/-- What may become of the stream at `s` in the step `a`. -/
inductive Streams (x : Connected) (a : ConnectedAct) (s : Bool) : ClientStream.State → Prop
  | same : Streams x a s (x.ends s).stream
  | received (k : Nat) (st : ClientStream.State) (ha : a = .receive s k)
      (hs : (x.ends s).stream.step (.receive (x.arrival s k)) = some st) : Streams x a s st
  | read (data : Chunk) (timeout : UInt32) (st : ClientStream.State)
      (ha : a = .readNextBytes s data timeout)
      (hs : (x.ends s).stream.step (.readNextBytes data timeout) = some st) : Streams x a s st
  | hungUp (st : ClientStream.State) (h : HungUp (x.ends s).stream st) : Streams x a s st

variable {x x' : Connected} {a : ConnectedAct} {s : Bool}

/-- An end at which nothing happens keeps its stream. -/
theorem streams_update {ends : Bool → Endpoint} {t : Bool} {e : Endpoint}
    (hself : t = s → Streams x a s e.stream) (hrest : ends s = x.ends s) :
    Streams x a s (Function.update ends t e s).stream := by
  by_cases hst : s = t
  · subst hst
    rw [Function.update_self]
    exact hself rfl
  · rw [Function.update_of_ne hst, hrest]
    exact .same

theorem streams_of_step (hs : x.step a = some x') (s : Bool) : Streams x a s (x'.ends s).stream := by
  cases a with
  | send t data answer =>
      rw [step, send] at hs
      split at hs
      · cases answer with
        | none =>
            cases hs
            apply streams_update _ rfl
            rintro rfl
            exact .same
        | some k =>
            obtain ⟨-, hs⟩ := Option.ite_none_right_eq_some.mp hs
            cases hs
            apply streams_update _ rfl
            rintro rfl
            exact .same
      · cases hs
        exact .same
  | receive t k =>
      obtain ⟨-, hs⟩ := Option.ite_none_right_eq_some.mp hs
      obtain ⟨st, hst, rfl⟩ := Option.map_eq_some_iff.mp hs
      apply streams_update _ rfl
      rintro rfl
      exact .received k st rfl hst
  | fail t =>
      obtain ⟨-, hs⟩ := Option.ite_none_right_eq_some.mp hs
      rw [TCPClient.handleReadData_error] at hs
      cases hs
      apply streams_update _ rfl
      rintro rfl
      exact .hungUp _ ⟨rfl, rfl, rfl, _, rfl⟩
  | readNextBytes t data timeout =>
      obtain ⟨st, hst, rfl⟩ := Option.map_eq_some_iff.mp hs
      apply streams_update _ rfl
      rintro rfl
      exact .read data timeout st rfl hst
  | disconnect t =>
      cases hs
      apply streams_update _ rfl
      rintro rfl
      exact .hungUp _ ⟨rfl, rfl, rfl, [], (List.append_nil _).symm⟩

/-! ## The stream at one end -/

/-- What is delivered and unread at an end was received there, in order, and
`receive_size_` counts what was received. -/
structure Kept (st : ClientStream.State) (q : TCPClient.Queue) : Prop where
  buffered : Buffered st q
  sublist : (st.delivered ++ q.items).Sublist st.received
  receiveSize : st.client.receiveSize = UInt64.ofNat st.received.length

variable {st st' : ClientStream.State} {q : TCPClient.Queue}

theorem receiveSize_receive {d : Received} (hs : st.step (.receive d) = some st') :
    st'.client.receiveSize = st.client.receiveSize + UInt64.ofNat d.bytes.length := by
  rw [ClientStream.State.step, ClientStream.State.receive] at hs
  split at hs <;> cases hs
  rename_i h hrun
  obtain ⟨buffer, -, rfl⟩ := TCPClient.handleReadData_success hrun
  rfl

theorem receiveSize_read {data : Chunk} {timeout : UInt32}
    (hs : st.step (.readNextBytes data timeout) = some st') :
    st'.client.receiveSize = st.client.receiveSize := by
  rw [ClientStream.State.step, ClientStream.State.readNextBytes] at hs
  split at hs <;> cases hs
  · rfl
  · rename_i hrun
    rw [TCPClient.readNextBytes] at hrun
    split at hrun
    · cases hrun
      rfl
    · split at hrun
      · cases hrun
        rfl
      · obtain ⟨r, -, hr⟩ := bind_eq_ok.mp hrun
        cases r <;> cases hr
        rfl

theorem Kept.receive (h : Kept st q) {d : Received} (hs : st.step (.receive d) = some st') :
    Kept st' (q.push d.bytes) ∧ st'.received = st.received ++ d.bytes := by
  obtain ⟨t, ht, hbuf, hrec, hdel⟩ := h.buffered.receive d
  have hsize := receiveSize_receive hs
  cases ht.symm.trans hs
  refine ⟨⟨hbuf, ?_, ?_⟩, hrec⟩
  · rw [hdel, hrec, BoundedQueue.push_items]
    have hdrop := (List.drop_sublist ((q.items ++ d.bytes).length - (TCPClient.bufferSize.toNat - 1))
      (q.items ++ d.bytes)).append_left st.delivered
    rw [← List.append_assoc] at hdrop
    exact hdrop.trans (h.sublist.append_right d.bytes)
  · rw [hsize, h.receiveSize, hrec, List.length_append, UInt64.ofNat_add]

theorem Kept.read (h : Kept st q) {data : Chunk} {timeout : UInt32}
    (hs : st.step (.readNextBytes data timeout) = some st') :
    (∃ q', Kept st' q') ∧ st'.received = st.received := by
  obtain ⟨t, ht, hbuf, hrec, hdel⟩ := h.buffered.read data timeout
  have hsize := receiveSize_read hs
  cases ht.symm.trans hs
  refine ⟨⟨_, hbuf, ?_, ?_⟩, hrec⟩
  · rw [hdel, hrec, BoundedQueue.pop_items, List.append_assoc, List.take_append_drop]
    exact h.sublist
  · rw [hsize, h.receiveSize, hrec]

theorem HungUp.buffered (h : HungUp st st') (hbuf : Buffered st q) : Buffered st' q where
  buffers := by
    rw [h.client]
    exact ⟨hbuf.buffers.doBufferData, hbuf.buffers.holds⟩
  noStructure := by
    rw [h.client]
    exact hbuf.noStructure
  silent := by
    obtain ⟨signals, hevents⟩ := h.events
    rw [hevents]
    intro e he
    rcases List.mem_append.mp he with he | he
    · exact hbuf.silent e he
    · obtain ⟨signal, -, rfl⟩ := List.mem_map.mp he
      exact fun hloss => hloss

theorem HungUp.kept (h : HungUp st st') (hkept : Kept st q) : Kept st' q where
  buffered := h.buffered hkept.buffered
  sublist := by
    rw [h.delivered, h.received]
    exact hkept.sublist
  receiveSize := by
    rw [h.client, h.received]
    exact hkept.receiveSize

theorem kept_of_step (h : ∀ t, ∃ q, Kept (x.ends t).stream q) (hs : x.step a = some x') (t : Bool) :
    ∃ q, Kept (x'.ends t).stream q := by
  obtain ⟨q, hq⟩ := h t
  generalize hst : (x'.ends t).stream = st'
  have hstreams := streams_of_step hs t
  rw [hst] at hstreams
  cases hstreams with
  | same => exact ⟨q, hq⟩
  | received k _ _ hrun => exact ⟨_, (hq.receive hrun).1⟩
  | read data timeout _ _ hrun => exact (hq.read hrun).1
  | hungUp _ hup => exact ⟨q, hup.kept hq⟩

/-! ## The two directions -/

/-- What the end `s` has sent is received at the other or on the wire, and
`send_size_` counts what it was asked to send. -/
structure Carries (x : Connected) (s : Bool) : Prop where
  received : (x.ends !s).stream.received ++ x.wire s = (x.ends s).accepted
  sendSize : (x.ends s).sendSize = UInt64.ofNat (x.ends s).asked
  asked : (x.ends s).accepted.length ≤ (x.ends s).asked

/-- An end that has received, accepted and been asked as much as before. -/
theorem Carries.setEnd (h : x.Carries s) {t : Bool} {e : Endpoint}
    (hrec : e.stream.received = (x.ends t).stream.received)
    (haccepted : e.accepted = (x.ends t).accepted) (hsize : e.sendSize = (x.ends t).sendSize)
    (hasked : e.asked = (x.ends t).asked) : (x.setEnd t e).Carries s := by
  have hends : ∀ u, ((x.setEnd t e).ends u).stream.received = (x.ends u).stream.received ∧
      ((x.setEnd t e).ends u).accepted = (x.ends u).accepted ∧
      ((x.setEnd t e).ends u).sendSize = (x.ends u).sendSize ∧
      ((x.setEnd t e).ends u).asked = (x.ends u).asked := by
    intro u
    by_cases hut : u = t
    · subst hut
      rw [setEnd_ends_self]
      exact ⟨hrec, haccepted, hsize, hasked⟩
    · rw [setEnd_ends_of_ne x e hut]
      exact ⟨rfl, rfl, rfl, rfl⟩
  obtain ⟨-, haccepted', hsize', hasked'⟩ := hends s
  constructor
  · rw [(hends !s).1, haccepted']
    exact h.received
  · rw [hsize', hasked']
    exact h.sendSize
  · rw [haccepted', hasked']
    exact h.asked

/-- The counter and what it counts go up together. -/
theorem sendSize_add (n : Nat) (data : Chunk) :
    UInt64.ofNat n + data.len.toUInt64 = UInt64.ofNat (n + data.bytes.length) := by
  have hlt := data.bound
  rw [UInt64.ofNat_add]
  congr 1
  apply UInt64.toNat_inj.mp
  rw [UInt32.toNat_toUInt64, data.len_toNat, UInt64.toNat_ofNat_of_lt' (Nat.lt_trans hlt (by decide))]

theorem Carries.send (h : x.Carries s) {t : Bool} {data : Chunk} {answer : Option Nat}
    (hs : x.send t data answer = some x') : x'.Carries s := by
  have hsize := h.sendSize
  have hasked := h.asked
  rw [Connected.send] at hs
  split at hs
  · cases answer with
    | none =>
        cases hs
        by_cases hst : s = t
        · subst hst
          refine ⟨?_, ?_, ?_⟩
          · simpa [Connected.setEnd] using h.received
          · simpa [Connected.setEnd, hsize] using sendSize_add (x.ends s).asked data
          · simp only [Connected.setEnd, Function.update_self]
            omega
        · obtain rfl : t = !s := by cases s <;> cases t <;> simp_all
          refine ⟨?_, ?_, ?_⟩
          · simpa [Connected.setEnd] using h.received
          · simpa [Connected.setEnd] using hsize
          · simpa [Connected.setEnd] using hasked
    | some k =>
        obtain ⟨hk, hs⟩ := Option.ite_none_right_eq_some.mp hs
        cases hs
        by_cases hst : s = t
        · subst hst
          refine ⟨?_, ?_, ?_⟩
          · simp [← h.received]
          · simpa [hsize] using sendSize_add (x.ends s).asked data
          · simp only [Function.update_self, List.length_append, List.length_take]
            omega
        · obtain rfl : t = !s := by cases s <;> cases t <;> simp_all
          refine ⟨?_, ?_, ?_⟩
          · simpa using h.received
          · simpa using hsize
          · simpa using hasked
  · cases hs
    exact h

theorem Carries.receive (hkept : ∀ t, ∃ q, Kept (x.ends t).stream q) (h : x.Carries s) {t : Bool}
    {k : Nat} (hs : x.receive t k = some x') : x'.Carries s := by
  obtain ⟨⟨-, -, -, hmax⟩, hs⟩ := Option.ite_none_right_eq_some.mp hs
  obtain ⟨st, hst, rfl⟩ := Option.map_eq_some_iff.mp hs
  obtain ⟨q, hq⟩ := hkept t
  obtain ⟨-, hrec⟩ := hq.receive hst
  have htake : (x.arrival t k).bytes = (x.wire !t).take k := by
    show (x.wire !t).take (min k maxLength) = _
    rw [Nat.min_eq_left hmax]
  rw [htake] at hrec
  by_cases hst : s = t
  · subst hst
    refine ⟨?_, ?_, ?_⟩
    · simpa using h.received
    · simpa using h.sendSize
    · simpa using h.asked
  · obtain rfl : t = !s := by cases s <;> cases t <;> simp_all
    rw [Bool.not_not] at hrec
    refine ⟨?_, ?_, ?_⟩
    · simp [hrec, h.received]
    · simpa using h.sendSize
    · simpa using h.asked

theorem carries_of_step (hkept : ∀ t, ∃ q, Kept (x.ends t).stream q) (h : x.Carries s)
    (hs : x.step a = some x') : x'.Carries s := by
  cases a with
  | send t data answer => exact h.send hs
  | receive t k => exact h.receive hkept hs
  | fail t =>
      obtain ⟨-, hs⟩ := Option.ite_none_right_eq_some.mp hs
      rw [TCPClient.handleReadData_error] at hs
      cases hs
      exact h.setEnd rfl rfl rfl rfl
  | readNextBytes t data timeout =>
      obtain ⟨st, hst, rfl⟩ := Option.map_eq_some_iff.mp hs
      obtain ⟨q, hq⟩ := hkept t
      exact h.setEnd (hq.read hst).2 rfl rfl rfl
  | disconnect t =>
      cases hs
      exact h.setEnd rfl rfl rfl rfl

/-! ## Whole runs -/

theorem HungUp.complete (h : HungUp st st') (hc : Complete st) : Complete st' := by
  obtain ⟨q, hbuf, heq⟩ := hc
  exact ⟨q, h.buffered hbuf, by rw [h.delivered, h.received]; exact heq⟩

theorem HungUp.lossy (h : HungUp st st') (hl : Lossy st) : Lossy st' := by
  obtain ⟨q, hbuf, hlt⟩ := hl
  exact ⟨q, h.buffered hbuf, by rw [h.delivered, h.received]; exact hlt⟩

/-- An end stays complete as long as what it receives fits. -/
theorem complete_of_step (hc : Complete (x.ends s).stream) (hfits : Fits s x a)
    (hs : x.step a = some x') : Complete (x'.ends s).stream := by
  have hstreams := streams_of_step hs s
  generalize (x'.ends s).stream = st at hstreams ⊢
  cases hstreams with
  | same => exact hc
  | received k _ ha hrun =>
      subst ha
      exact hc.step (hfits rfl) hrun
  | read data timeout _ ha hrun => exact hc.step (a := .readNextBytes data timeout) trivial hrun
  | hungUp _ hup => exact hup.complete hc

theorem lossy_of_overflow (hc : Complete (x.ends s).stream) (hover : ¬ Fits s x a)
    (hs : x.step a = some x') : Lossy (x'.ends s).stream := by
  cases a with
  | receive t k =>
      rw [Fits, Classical.not_imp] at hover
      obtain ⟨rfl, hover⟩ := hover
      obtain ⟨-, hs⟩ := Option.ite_none_right_eq_some.mp hs
      obtain ⟨st, hst, rfl⟩ := Option.map_eq_some_iff.mp hs
      show Lossy (Function.update x.ends t _ t).stream
      rw [Function.update_self]
      exact hc.overflow hover hst
  | _ => exact absurd trivial hover

theorem lossy_of_step (hl : Lossy (x.ends s).stream) (hs : x.step a = some x') :
    Lossy (x'.ends s).stream := by
  have hstreams := streams_of_step hs s
  generalize (x'.ends s).stream = st at hstreams ⊢
  cases hstreams with
  | same => exact hl
  | received k _ ha hrun => exact hl.step hrun
  | read data timeout _ ha hrun => exact hl.step hrun
  | hungUp _ hup => exact hup.lossy hl

/-- Everything holds of two clients that have just connected, and goes on
to hold. -/
theorem sound_of_run {id : Bool → Nat} {as : List ConnectedAct}
    (hrun : (connectedMachine id).exec (connectedMachine id).init as = some x) :
    (∀ t, ∃ q, Kept (x.ends t).stream q) ∧ ∀ t, x.Carries t := by
  refine Machine.inv_of_exec (M := connectedMachine id)
    (P := fun x => (∀ t, ∃ q, Kept (x.ends t).stream q) ∧ ∀ t, x.Carries t) ?_ ?_ hrun
  · rintro x a x' ⟨hkept, hcarries⟩ hs
    exact ⟨kept_of_step hkept hs, fun t => carries_of_step hkept (hcarries t) hs⟩
  · exact ⟨fun t => ⟨_, Buffered.init (id t), .slnil, rfl⟩, fun t => ⟨rfl, rfl, Nat.le_refl 0⟩⟩

/-- **What is read at one end was accepted at the other**, in order and each
byte once, in either direction and in every run. What of it is not read is
unread, on the wire, or overwritten in the buffer; the last happens exactly in
the runs in which a receive does not fit. The counters say what was received
and what `send` was called with, which is never less than what was sent. -/
theorem connected_delivers (id : Bool → Nat) {as : List ConnectedAct} {x : Connected}
    (hrun : (connectedMachine id).exec (connectedMachine id).init as = some x) (s : Bool) :
    ((x.ends !s).stream.delivered ++ (x.ends !s).stream.unread ++ x.wire s).Sublist
        (x.ends s).accepted ∧
      ((x.ends !s).stream.delivered ++ (x.ends !s).stream.unread ++ x.wire s = (x.ends s).accepted
        ↔ (connectedMachine id).Guarded (Fits !s) (connectedMachine id).init as) ∧
      (x.ends !s).stream.client.receiveSize
        = UInt64.ofNat ((x.ends s).accepted.length - (x.wire s).length) ∧
      (x.ends s).sendSize = UInt64.ofNat (x.ends s).asked ∧
      (x.ends s).accepted.length ≤ (x.ends s).asked := by
  obtain ⟨hkept, hcarries⟩ := sound_of_run hrun
  obtain ⟨q, hbuf, hsub, hsize⟩ := hkept !s
  have hexact := (hcarries s).received
  have hlen := congrArg List.length hexact
  rw [List.length_append] at hlen
  rw [hbuf.unread]
  refine ⟨?_, ?_, ?_, (hcarries s).sendSize, (hcarries s).asked⟩
  · rw [← hexact]
    exact hsub.append_right (x.wire s)
  · rw [← hexact, List.append_left_inj]
    have hinit : Complete ((connectedMachine id).init.ends !s).stream := ⟨_, Buffered.init _, rfl⟩
    rcases Machine.guarded_or_not (P := fun x => Complete (Connected.ends x !s).stream)
        (Q := fun x => Lossy (Connected.ends x !s).stream)
        (fun _ _ _ h hg hs => complete_of_step h hg hs)
        (fun _ _ _ h hg hs => lossy_of_overflow h hg hs) (fun _ _ _ h hs => lossy_of_step h hs)
        hinit hrun with ⟨hg, q', hbuf', heq⟩ | ⟨hg, q', hbuf', hlt⟩
    · refine ⟨fun _ => hg, fun _ => ?_⟩
      rw [← hbuf.unread, hbuf'.unread]
      exact heq
    · refine ⟨fun heq => ?_, fun hc => absurd hc hg⟩
      -- what was lost is missing from the lengths
      rw [← hbuf.unread, hbuf'.unread] at heq
      have hlen' := congrArg List.length heq
      rw [List.length_append] at hlen'
      omega
  · rw [hsize]
    congr 1
    omega

/-- A send that is accepted in part, a byte read at the other end. -/
def partSent : List ConnectedAct :=
  [.send false ⟨[6, 5, 4], by decide⟩ (some 2), .receive true 1,
    .readNextBytes true ⟨[9], by decide⟩ 0]

set_option maxRecDepth 8000 in
theorem connected_delivers_partSent :
    ∃ x, (connectedMachine fun _ => 0).exec (connectedMachine fun _ => 0).init partSent = some x ∧
      (x.ends true).stream.delivered = [6] ∧ x.wire false = [5] ∧ (x.ends false).sendSize = 3 ∧
      ((x.ends true).stream.delivered ++ (x.ends true).stream.unread ++ x.wire false).Sublist
        (x.ends false).accepted :=
  ⟨_, rfl, rfl, rfl, rfl, (@connected_delivers (fun _ => 0) partSent _ rfl false).1⟩

end Connected

end HpLib
