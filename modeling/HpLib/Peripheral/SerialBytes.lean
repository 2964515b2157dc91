import HpLib.Common.Threads
import HpLib.Peripheral.SerialData

/-!
# The bytes of a serial port

A port may be started and stopped any number of times. Without a buffer of
the user's each start that goes well makes a new one, so what is unread
before it is gone (`serial_delivers`). Before the first start there is no
buffer to read from (`serial_crashes_iff`).

The calls of the user and the handlers are single steps; a read completes in
a step of its own and puts its bytes into `data_`, which all reads share. The
handler takes as many bytes from there as its read has brought, whatever has
come over them. The reads of a port that `stop` has closed still have their
handlers run, on whatever port there is by then; where a start has posted
another read meanwhile, two are in flight, and what the handlers pass on is
no longer what was read (`State.InTime`). A buffer that the user sets is not
null, and no size is zero.

`arrived`, `handed`, `offered`, `buffered`, `delivered` and `calls` record
the history and steer nothing.
-/

namespace HpLib

open Lib CircularBuffer

namespace SerialRun

open SerialData

/-- A buffer as a user has one: what calls have left of a new one. -/
structure Made where
  size : UInt32
  queue : BoundedQueue UInt8 (size.toNat - 1)
  buffer : CircularBuffer
  holds : Holds size buffer queue

inductive Get where
  | nextBytes (data : Chunk) (timeout : UInt32)
  | nextByte
  | allBytes
  | remainBytes

/-- A read that has completed and whose handler has not run. -/
structure Completion where
  ec : Bool
  bytesTransferred : Nat
  bound : bytesTransferred ≤ serialPortReadBufSize
  deriving DecidableEq

/-- What becomes of a read whose port is closed. -/
def Completion.aborted : Completion :=
  ⟨true, 0, Nat.zero_le _⟩

/-- `arrive` and `fail` are how a read on the port there is completes. -/
inductive Act (φ : Type) where
  | setBuffer (b : Made)
  | setBufferSize (size : UInt32) (positive : 0 < size.toNat)
  | extractMessages
  | dontBuffer (func : φ)
  | start (steps : StartSteps)
  | stop (steps : StopSteps)
  | arrive (d : SerialReceived)
  | fail
  | handle (i : Nat)
  | get (g : Get)

/-- `data` is the part of `data_` that reads have written. `arrived` are the
bytes that reads have brought, `handed` those that handlers have passed on;
`offered` is what has been put before the reader, and `buffered` the part of
it that came from the port. -/
structure State (φ : Type) where
  port : SerialData φ
  data : Bytes
  completed : List Completion
  crashed : Bool
  arrived : Bytes
  handed : Bytes
  buffered : Bytes
  offered : Bytes
  delivered : Bytes
  calls : List (φ × Bytes)

namespace State

variable {φ : Type}

/-- A call by the user to get bytes, and the bytes it gives. -/
def reading (s : State φ) : Get → Except Fault (Bytes × SerialData φ)
  | .nextBytes data timeout => do
      let (r, port) ← s.port.getNextBytes data timeout
      return (r.delivered, port)
  | .nextByte => do
      let (r, port) ← s.port.getNextByte
      return (r.delivered, port)
  | .allBytes => do
      let (r, port) ← s.port.getAllBytes
      return (r.delivered, port)
  | .remainBytes => do
      let _ ← s.port.getRemainBytes
      return ([], s.port)

def get (s : State φ) (g : Get) : State φ :=
  match s.reading g with
  | .error _ => { s with crashed := true }
  | .ok (bytes, port) => { s with port := port, delivered := s.delivered ++ bytes }

def setBuffer (s : State φ) (b : Made) : State φ :=
  { s with port := s.port.set (.setBuffer (some b.buffer)),
           offered := s.offered ++ b.buffer.unread }

/-- The reads that are no longer posted on the port after `stop` complete. -/
def stop (s : State φ) (steps : StopSteps) : State φ :=
  { s with
    port := s.port.stop steps
    completed := s.completed ++ List.replicate
      (postedOn s.port.serial.port - postedOn (s.port.stop steps).serial.port) .aborted }

/-- A read on the port has completed. -/
def complete (s : State φ) (k : Completion) : Option (State φ) :=
  match s.port.serial.port with
  | none => none
  | some p =>
      if 0 < p.reads then
        some { s with
          port := { s.port with serial :=
            { s.port.serial with port := some { p with reads := p.reads - 1 } } }
          completed := s.completed ++ [k] }
      else none

/-- It has brought bytes, which are at the front of `data_` now. -/
def arrive (s : State φ) (d : SerialReceived) : Option (State φ) :=
  (s.complete ⟨false, d.bytes.length, d.bound⟩).map fun t =>
    { t with data := d.bytes ++ s.data.drop d.bytes.length, arrived := s.arrived ++ d.bytes }

/-- The first `bytes_transferred` bytes of `data_`. -/
def received (s : State φ) (k : Completion) : SerialReceived :=
  ⟨s.data.take k.bytesTransferred, Nat.le_trans (List.length_take_le ..) k.bound⟩

/-- `handle_read_data` with what it finds in `data_`. -/
def handleReadData (s : State φ) (ec : Bool) (d : SerialReceived) : State φ :=
  match s.port.handleReadData ec d with
  | .error _ => { s with crashed := true }
  | .ok (calls, port) =>
      let read := if (s.port.serial.port.any AsioPort.isOpen && !ec) then d.bytes else []
      let put := if s.port.isBufferedData then read else []
      { s with port := port, handed := s.handed ++ read, buffered := s.buffered ++ put,
               offered := s.offered ++ put, calls := s.calls ++ calls }

/-- The handler of a completed read runs. -/
def handle (s : State φ) (i : Nat) : Option (State φ) :=
  s.completed[i]?.map fun k =>
    { s with completed := s.completed.eraseIdx i }.handleReadData k.ec (s.received k)

variable [DecidableEq φ]

def dontBuffer (s : State φ) (func : φ) : Option (State φ) :=
  if func ∈ s.port.dataReceivedConnections then none
  else some { s with port := s.port.dontBufferNotifyMeDataReceived func }

/-- Nothing follows a crash. -/
def step (s : State φ) (a : Act φ) : Option (State φ) :=
  if s.crashed then none
  else
    match a with
    | .setBuffer b => some (s.setBuffer b)
    | .setBufferSize size _ => some { s with port := s.port.set (.setBufferSize size) }
    | .extractMessages => some { s with port := s.port.set .extractMessages }
    | .dontBuffer func => s.dontBuffer func
    | .start steps => some { s with port := s.port.start steps }
    | .stop steps => some (s.stop steps)
    | .arrive d => s.arrive d
    | .fail => s.complete .aborted
    | .handle i => s.handle i
    | .get g => some (s.get g)

/-- What a function has been told. -/
def heard (s : State φ) (func : φ) : Bytes :=
  (s.calls.filter fun c => c.1 = func).flatMap (·.2)

end State

def machine (φ : Type) [DecidableEq φ] : Machine (State φ) (Act φ) where
  init := { port := .new, data := [], completed := [], crashed := false, arrived := [],
            handed := [], buffered := [], offered := [], delivered := [], calls := [] }
  step := State.step

variable {φ : Type}

/-! ## One step -/

namespace State

/-- What is unread stays with the reader, and what comes finds room. -/
def Keeps (s : State φ) : Act φ → Prop
  | .setBuffer _ => s.port.unread = []
  | .start steps =>
      s.port.serial.port = none → steps.AllSucceed → s.port.serial.isSetBuffer = false →
        s.port.unread = []
  | .handle i =>
      ∀ k, s.completed[i]? = some k → s.port.Listening → k.ec = false →
        s.port.isBufferedData = true →
        ∀ b, s.port.serial.buffer = some b → ¬ (s.received k).chunk.len > b.remainBytes
  | .setBufferSize _ _ | .extractMessages | .dontBuffer _ | .stop _ | .arrive _ | .fail
  | .get _ => True

/-- The user reads only where a start has gone well or a buffer is set. -/
def Ready (s : State φ) : Act φ → Prop
  | .get _ => s.port.serial.isRunning = true ∨ s.port.serial.isSetBuffer = true
  | .setBuffer _ | .setBufferSize _ _ | .extractMessages | .dontBuffer _ | .start _ | .stop _
  | .arrive _ | .fail | .handle _ => True

/-- No start goes well while a read of an earlier port is still to be handled,
and a handler with bytes finds its port open. -/
def InTime (s : State φ) : Act φ → Prop
  | .start steps => s.port.serial.port = none → steps.AllSucceed → s.completed = []
  | .handle i => ∀ k ∈ s.completed[i]?, k.ec = false → s.port.Listening
  | .setBuffer _ | .setBufferSize _ _ | .extractMessages | .dontBuffer _ | .stop _ | .arrive _
  | .fail | .get _ => True

instance (s : State φ) : DecidablePred s.InTime
  | .start steps =>
      inferInstanceAs (Decidable (s.port.serial.port = none → steps.AllSucceed → s.completed = []))
  | .handle i =>
      inferInstanceAs (Decidable (∀ k ∈ s.completed[i]?, k.ec = false → s.port.Listening))
  | .setBuffer _ | .setBufferSize _ _ | .extractMessages | .dontBuffer _ | .stop _ | .arrive _
  | .fail | .get _ => .isTrue trivial

/-- What completed reads have brought, as their handlers would find it. -/
def waiting (s : State φ) : Bytes :=
  s.completed.flatMap fun k => if k.ec then [] else (s.received k).bytes

/-- The reads in flight. -/
def inFlight (s : State φ) : Nat :=
  postedOn s.port.serial.port + s.completed.length

/-- What the function that was connected first has been told. -/
def told [DecidableEq φ] (s : State φ) : Bytes :=
  match s.port.dataReceivedConnections with
  | [] => []
  | func :: _ => s.heard func

end State

/-- From `s` to `s'`, `put` has come before the reader, the reader has got
`out`, and of what was to be read `loss` bytes are gone. -/
structure Moved (s s' : State φ) (put out : Bytes) (loss : Nat) : Prop where
  offered : s'.offered = s.offered ++ put
  delivered : s'.delivered = s.delivered ++ out
  ordered : (out ++ s'.port.unread).Sublist (s.port.unread ++ put)
  counted : out.length + s'.port.unread.length + loss = s.port.unread.length + put.length

/-- What handlers passed on went into the buffer until the first function was
connected, and has been told to each function since it was connected. -/
structure Handed [DecidableEq φ] (s : State φ) : Prop where
  nodup : s.port.dataReceivedConnections.Nodup
  mode : s.port.isBufferedData = true ↔ s.port.dataReceivedConnections = []
  offered : s.buffered.Sublist s.offered
  unheard : ∀ func, func ∉ s.port.dataReceivedConnections → s.heard func = []
  heard : ∀ func, s.heard func <:+ s.handed
  whole : s.buffered ++ s.told = s.handed

variable {s s' : State φ}

/-- A step that leaves the reader and the buffer alone. -/
theorem Moved.still (hoffered : s'.offered = s.offered) (hdelivered : s'.delivered = s.delivered)
    (hunread : s'.port.unread = s.port.unread) : Moved s s' [] [] 0 where
  offered := by rw [hoffered, List.append_nil]
  delivered := by rw [hdelivered, List.append_nil]
  ordered := by
    rw [hunread, List.append_nil]
    exact List.Sublist.refl _
  counted := by rw [hunread, Nat.add_comm, Nat.zero_add, Nat.add_comm]

section Functions

variable [DecidableEq φ]

/-- A step that neither reads the port nor connects anything. -/
theorem Handed.of_eq (h : Handed s)
    (hconn : s'.port.dataReceivedConnections = s.port.dataReceivedConnections)
    (hmode : s'.port.isBufferedData = s.port.isBufferedData) (hhanded : s'.handed = s.handed)
    (hbuffered : s'.buffered = s.buffered) (hcalls : s'.calls = s.calls)
    (hoffered : s.offered <+: s'.offered) : Handed s' := by
  have hheard : s'.heard = s.heard := by
    funext func
    rw [State.heard, State.heard, hcalls]
  have htold : s'.told = s.told := by rw [State.told, State.told, hconn, hheard]
  refine ⟨?_, ?_, ?_, ?_, ?_, ?_⟩
  · rw [hconn]
    exact h.nodup
  · rw [hconn, hmode]
    exact h.mode
  · rw [hbuffered]
    exact h.offered.trans hoffered.sublist
  · rw [hconn, hheard]
    exact h.unheard
  · rw [hheard, hhanded]
    exact h.heard
  · rw [hbuffered, htold, hhanded]
    exact h.whole

theorem Handed.dontBuffer (h : Handed s) {func : φ} (hs : s.dontBuffer func = some s') :
    Handed s' := by
  rw [State.dontBuffer] at hs
  split at hs
  · cases hs
  · rename_i hnew
    cases hs
    refine ⟨?_, ?_, h.offered, fun f hf => ?_, h.heard, ?_⟩
    · exact List.nodup_append.mpr ⟨h.nodup, List.nodup_singleton func, fun a ha b hb => by
        rintro rfl
        exact hnew (List.mem_singleton.mp hb ▸ ha)⟩
    · simp [SerialData.dontBufferNotifyMeDataReceived]
    · exact h.unheard f fun hmem => hf (List.mem_append_left _ hmem)
    · have hwhole := h.whole
      rw [State.told] at hwhole ⊢
      cases hconn : s.port.dataReceivedConnections with
      | nil =>
          rw [hconn] at hwhole
          rw [SerialData.dontBufferNotifyMeDataReceived, hconn]
          show s.buffered ++ s.heard func = s.handed
          rw [h.unheard func hnew]
          exact hwhole
      | cons f fs =>
          rw [hconn] at hwhole
          rw [SerialData.dontBufferNotifyMeDataReceived, hconn]
          exact hwhole

/-- Each of the functions is called once. -/
theorem heard_map (conns : List φ) (hnodup : conns.Nodup) (func : φ) (d : Bytes) :
    ((conns.map fun f => (f, d)).filter fun c => c.1 = func).flatMap (·.2)
      = if func ∈ conns then d else [] := by
  induction conns with
  | nil => rfl
  | cons f fs ih =>
      obtain ⟨hf, hfs⟩ := List.nodup_cons.mp hnodup
      rw [List.map_cons, List.filter_cons]
      by_cases hfunc : f = func
      · subst hfunc
        rw [if_neg hf] at ih
        rw [if_pos (by simp), List.flatMap_cons, ih hfs, if_pos List.mem_cons_self,
          List.append_nil]
      · rw [if_neg (by simp [hfunc]), ih hfs]
        simp [List.mem_cons, Ne.symm hfunc]

end Functions

/-! ## The handler -/

/-- A handler that finds no open port, or an error, does nothing but read
again; one with bytes gives them to the functions or to the buffer. -/
theorem handle_cases (s : State φ) (h : Sound s.port) (ec : Bool) (d : SerialReceived) :
    (¬ (s.port.Listening ∧ ec = false) ∧
      ∃ port, PortOnly s.port port ∧ s.handleReadData ec d = { s with port := port }) ∨
    (s.port.Listening ∧ ec = false ∧ s.port.isBufferedData = false ∧
      ∃ port, PortOnly s.port port ∧
        s.handleReadData ec d = { s with
          port := port
          handed := s.handed ++ d.bytes
          calls := s.calls ++ s.port.dataReceivedConnections.map fun f => (f, d.bytes) }) ∨
    (s.port.Listening ∧ ec = false ∧ s.port.isBufferedData = true ∧
      ∃ n b q b' port, s.port.serial.buffer = some b ∧ Holds n b q ∧
        Holds n b' (queueSpec (n.toNat - 1) q (.write d.chunk)).2 ∧
        PortOnly { s.port with serial := { s.port.serial with buffer := some b' } } port ∧
        s.handleReadData ec d = { s with
          port := port
          handed := s.handed ++ d.bytes
          buffered := s.buffered ++ d.bytes
          offered := s.offered ++ d.bytes }) := by
  cases hport : s.port.serial.port with
  | none =>
      refine .inl ⟨fun hl => ?_, s.port, PortOnly.refl _, ?_⟩
      · obtain ⟨⟨p, hp, -⟩, -⟩ := hl
        rw [hport] at hp
        cases hp
      · simp [State.handleReadData, SerialData.handleReadData, hport, pure, Except.pure]
  | some p =>
      cases hopen : p.isOpen with
      | false =>
          refine .inl ⟨fun hl => ?_, s.port, PortOnly.refl _, ?_⟩
          · obtain ⟨⟨p', hp, ho⟩, -⟩ := hl
            cases hport.symm.trans hp
            rw [hopen] at ho
            cases ho
          · simp [State.handleReadData, SerialData.handleReadData, hport, hopen, pure, Except.pure]
      | true =>
          have hlistening : s.port.Listening := ⟨p, hport, hopen⟩
          cases ec with
          | true =>
              refine .inl ⟨fun hl => ?_, _, portOnly_asyncReadSome s.port, ?_⟩
              · cases hl.2
              · simp [State.handleReadData, SerialData.handleReadData, hport, hopen, pure,
                  Except.pure]
          | false =>
              cases hmode : s.port.isBufferedData with
              | false =>
                  refine .inr (.inl ⟨hlistening, rfl, rfl, _, portOnly_asyncReadSome s.port, ?_⟩)
                  simp [State.handleReadData, SerialData.handleReadData, hport, hopen, hmode, pure,
                    Except.pure]
              | true =>
                  obtain ⟨n, b, q, hb, hheld⟩ := h.present (.inl (h.running hlistening))
                  obtain ⟨b', hrun, hnext⟩ := onBuffer_spec hb hheld (.write d.chunk)
                  refine .inr (.inr ⟨hlistening, rfl, rfl, n, b, q, b', _, hb, hheld, hnext,
                    portOnly_asyncReadSome _, ?_⟩)
                  simp [State.handleReadData, SerialData.handleReadData, hport, hopen, hmode, hrun,
                    pure, Except.pure, bind, Except.bind]

/-- A read that completes is no longer posted. -/
theorem complete_cases {s u : State φ} {k : Completion} (hu : s.complete k = some u) :
    ∃ port, PortOnly s.port port ∧
      postedOn s.port.serial.port = postedOn port.serial.port + 1 ∧
      u = { s with port := port, completed := s.completed ++ [k] } := by
  rw [State.complete] at hu
  split at hu
  · cases hu
  · rename_i p hp
    split at hu <;> cases hu
    rename_i hreads
    have hposted : postedOn s.port.serial.port = p.reads - 1 + 1 := by
      rw [hp]
      exact (Nat.sub_add_cancel hreads).symm
    refine ⟨{ s.port with serial :=
      { s.port.serial with port := some { p with reads := p.reads - 1 } } },
      ⟨_, rfl, ?_, ?_⟩, hposted, rfl⟩
    · rintro ⟨p', hp', hopen⟩
      cases hp'
      exact ⟨p, hp, hopen⟩
    · rw [hposted]
      exact Nat.le_add_right _ 2

/-- What fits is not lost. -/
theorem loses_eq_zero_iff {n : UInt32} {b : CircularBuffer}
    {q : BoundedQueue UInt8 (n.toNat - 1)} (h : Holds n b q) (d : SerialReceived) :
    QueueCall.loses q (.write d.chunk) = 0 ↔ ¬ d.chunk.len > b.remainBytes := by
  have hrem := h.inv.remainBytes_toNat
  have hbound := q.bound
  rw [h.used, h.size] at hrem
  rw [QueueCall.loses, gt_iff_lt, UInt32.lt_iff_toNat_lt, Chunk.len_toNat, hrem]
  omega

/-- What there is to say about the bytes a handler finds. -/
theorem Moved.handleReadData (hs : Sound s.port) (ec : Bool) (d : SerialReceived) :
    ∃ put out loss, Moved s (s.handleReadData ec d) put out loss ∧
      (loss = 0 ↔ (s.port.Listening → ec = false → s.port.isBufferedData = true →
        ∀ b, s.port.serial.buffer = some b → ¬ d.chunk.len > b.remainBytes)) := by
  rcases handle_cases s hs ec d with ⟨hnot, port, hport, heq⟩ | ⟨-, -, hmode, port, hport, heq⟩ |
    ⟨hl, hec, hmode, n, b, q, b', port, hb, hheld, hnext, hport, heq⟩
  · refine ⟨[], [], 0, Moved.still (by rw [heq]) (by rw [heq]) ?_, ?_⟩
    · rw [heq]
      exact hport.unread
    · exact iff_of_true rfl fun hl hec => absurd ⟨hl, hec⟩ hnot
  · refine ⟨[], [], 0, Moved.still (by rw [heq]) (by rw [heq]) ?_, ?_⟩
    · rw [heq]
      exact hport.unread
    · refine iff_of_true rfl fun _ _ hbuffered => ?_
      rw [hmode] at hbuffered
      cases hbuffered
  · obtain ⟨hsub, hlen⟩ := queueSpec_delivers q (.write d.chunk)
    have hunread : s.port.unread = q.items := by
      rw [SerialData.unread, hb]
      exact hheld.unread
    have hunread' : (s.handleReadData ec d).port.unread
        = (queueSpec (n.toNat - 1) q (.write d.chunk)).2.items := by
      rw [heq]
      exact hport.unread.trans hnext.unread
    refine ⟨d.bytes, [], QueueCall.loses q (.write d.chunk),
      ⟨by rw [heq], by rw [heq, List.append_nil], ?_, ?_⟩, ?_⟩
    · rw [hunread, hunread']
      exact hsub
    · rw [hunread, hunread']
      exact hlen
    · rw [loses_eq_zero_iff hheld]
      constructor
      · intro hfits _ _ _ b₀ hb₀
        rw [hb] at hb₀
        cases hb₀
        exact hfits
      · exact fun hkeeps => hkeeps hl hec hmode b hb

theorem Sound.handleReadData (hs : Sound s.port) (ec : Bool) (d : SerialReceived) :
    Sound (s.handleReadData ec d).port ∧ (s.handleReadData ec d).crashed = s.crashed := by
  rcases handle_cases s hs ec d with ⟨-, port, hport, heq⟩ | ⟨-, -, -, port, hport, heq⟩ |
    ⟨hl, -, -, n, b, q, b', port, hb, -, hnext, hport, heq⟩
  · rw [heq]
    exact ⟨hs.portOnly hport, rfl⟩
  · rw [heq]
    exact ⟨hs.portOnly hport, rfl⟩
  · rw [heq]
    exact ⟨(hs.setBuffer hnext (.inl (hs.running hl))).portOnly hport, rfl⟩

/-- Getting bytes is one call of the buffer that brings and loses none, or
none at all. -/
theorem reading_cases (s : State φ) (g : Get) :
    (∃ c : QueueCall, c.written = [] ∧
      (∀ {n : Nat} (q : BoundedQueue UInt8 n), c.loses q = 0) ∧
      s.reading g = (s.port.onBuffer c >>= fun r => pure (r.1.delivered, r.2))) ∨
    s.reading g = (s.port.getRemainBytes >>= fun _ => pure ([], s.port)) := by
  cases g with
  | nextBytes data timeout => exact .inl ⟨.read data timeout, rfl, fun _ => rfl, rfl⟩
  | nextByte => exact .inl ⟨.readNextByte, rfl, fun _ => rfl, rfl⟩
  | allBytes => exact .inl ⟨.getAllBytes, rfl, fun _ => rfl, rfl⟩
  | remainBytes => exact .inr rfl

/-- Without a buffer there is nothing to call. -/
theorem get_absent (hb : s.port.serial.buffer = none) (g : Get) :
    s.get g = { s with crashed := true } := by
  have hnone : ∀ c, s.port.onBuffer c = .error .nullDeref := by
    intro c
    rw [SerialData.onBuffer, hb]
  rw [State.get]
  rcases reading_cases s g with ⟨c, -, -, hread⟩ | hread
  · rw [hread, hnone]
    rfl
  · rw [hread, SerialData.getRemainBytes, hb]
    rfl

/-- With one, the oldest bytes come out of it, and none is lost. -/
theorem get_present {n : UInt32} {b : CircularBuffer} {q : BoundedQueue UInt8 (n.toNat - 1)}
    (hb : s.port.serial.buffer = some b) (hheld : Holds n b q) (g : Get) :
    ∃ b' q' out, Holds n b' q' ∧ (out ++ q'.items).Sublist q.items ∧
      out.length + q'.items.length = q.items.length ∧
      s.get g = { s with
        port := { s.port with serial := { s.port.serial with buffer := some b' } }
        delivered := s.delivered ++ out } := by
  rcases reading_cases s g with ⟨c, hwritten, hloses, hread⟩ | hread
  · obtain ⟨b', hrun, hnext⟩ := onBuffer_spec hb hheld c
    obtain ⟨hsub, hlen⟩ := queueSpec_delivers q c
    rw [hwritten, List.append_nil] at hsub
    rw [hwritten, hloses, List.length_nil, Nat.add_zero, Nat.add_zero] at hlen
    refine ⟨b', _, _, hnext, hsub, hlen, ?_⟩
    rw [State.get, hread, hrun]
    rfl
  · refine ⟨b, q, [], hheld, List.Sublist.refl _, Nat.zero_add _, ?_⟩
    have hsame : ({ s.port.serial with buffer := some b } : SerialPort) = s.port.serial := by
      rw [← hb]
    rw [State.get, hread, SerialData.getRemainBytes, hb, hsame]
    rfl

/-- A step keeps the order of what it delivers. -/
theorem Moved.ordered_step {put out : Bytes} {loss : Nat} (h : Moved s s' put out loss)
    (hs : (s.delivered ++ s.port.unread).Sublist s.offered) :
    (s'.delivered ++ s'.port.unread).Sublist s'.offered := by
  have hnew := h.ordered.append_left s.delivered
  have hold := hs.append_right put
  rw [h.delivered, h.offered, List.append_assoc]
  rw [List.append_assoc] at hold
  exact hnew.trans hold

theorem Moved.length_step {put out : Bytes} {loss : Nat} (h : Moved s s' put out loss) :
    (s'.delivered ++ s'.port.unread).length + loss + s.offered.length
      = (s.delivered ++ s.port.unread).length + s'.offered.length := by
  have hcounted := h.counted
  rw [h.delivered, h.offered]
  simp only [List.length_append]
  omega

/-- A step as the reader and the functions see it. -/
structure Fair [DecidableEq φ] (s s' : State φ) (a : Act φ) : Prop where
  sound : Sound s'.port
  handed : Handed s'
  moved : ∃ put out loss, Moved s s' put out loss ∧ (loss = 0 ↔ s.Keeps a)
  crashed : s'.crashed = false ↔ s.Ready a

section Fairness

variable [DecidableEq φ] {s s' : State φ}

/-- Every connected function is told, the first among them. -/
theorem Handed.tell (h : Handed s) (d : Bytes) (hmode : s.port.isBufferedData = false)
    {port : SerialData φ} (hport : PortOnly s.port port) :
    Handed { s with
      port := port
      handed := s.handed ++ d
      calls := s.calls ++ s.port.dataReceivedConnections.map fun f => (f, d) } := by
  obtain ⟨hconn, hmode'⟩ := hport.connections
  generalize hs' : ({ s with
      port := port
      handed := s.handed ++ d
      calls := s.calls ++ s.port.dataReceivedConnections.map fun f => (f, d) } : State φ) = s'
  have hheard : ∀ func, s'.heard func
      = s.heard func ++ if func ∈ s.port.dataReceivedConnections then d else [] := by
    intro func
    rw [← hs', State.heard, State.heard, List.filter_append, List.flatMap_append,
      heard_map _ h.nodup]
  have hhanded : s'.handed = s.handed ++ d := by rw [← hs']
  have hconn' : s'.port.dataReceivedConnections = s.port.dataReceivedConnections := by
    rw [← hs']
    exact hconn
  refine ⟨?_, ?_, ?_, ?_, ?_, ?_⟩
  · rw [hconn']
    exact h.nodup
  · rw [hconn', ← h.mode, ← hmode', ← hs']
  · rw [← hs']
    exact h.offered
  · intro func hfunc
    rw [hconn'] at hfunc
    rw [hheard, if_neg hfunc, h.unheard func hfunc, List.append_nil]
  · intro func
    rw [hheard, hhanded]
    split
    · obtain ⟨front, hfront⟩ := h.heard func
      exact ⟨front, by rw [← List.append_assoc, hfront]⟩
    · rename_i hfunc
      rw [h.unheard func hfunc]
      exact List.nil_suffix
  · have hwhole := h.whole
    have hbuffered : s'.buffered = s.buffered := by rw [← hs']
    rw [State.told] at hwhole ⊢
    rw [hconn', hbuffered, hhanded]
    cases hfirst : s.port.dataReceivedConnections with
    | nil =>
        rw [h.mode.mpr hfirst] at hmode
        cases hmode
    | cons f fs =>
        rw [hfirst] at hwhole
        simp only at hwhole ⊢
        rw [hheard, hfirst, if_pos List.mem_cons_self, ← List.append_assoc, hwhole]

/-- With no function connected, it goes into the buffer. -/
theorem Handed.put (h : Handed s) (d : Bytes) (hmode : s.port.isBufferedData = true)
    {port : SerialData φ}
    (hconn : port.dataReceivedConnections = s.port.dataReceivedConnections)
    (hmode' : port.isBufferedData = s.port.isBufferedData) :
    Handed { s with
      port := port
      handed := s.handed ++ d
      buffered := s.buffered ++ d
      offered := s.offered ++ d } := by
  have hnone : s.port.dataReceivedConnections = [] := h.mode.mp hmode
  have hunheard : ∀ func, s.heard func = [] := fun func =>
    h.unheard func (by rw [hnone]; exact List.not_mem_nil)
  have hwhole := h.whole
  rw [State.told, hnone, List.append_nil] at hwhole
  rw [hnone] at hconn
  refine ⟨?_, ?_, ?_, fun func _ => hunheard func, fun func => ?_, ?_⟩
  · show port.dataReceivedConnections.Nodup
    rw [hconn]
    exact List.nodup_nil
  · show port.isBufferedData = true ↔ port.dataReceivedConnections = []
    rw [hmode', hconn]
    exact iff_of_true hmode rfl
  · exact h.offered.append_right d
  · show s.heard func <:+ _
    rw [hunheard func]
    exact List.nil_suffix
  · rw [State.told]
    simp only [hconn, List.append_nil, hwhole]

theorem Handed.handleReadData (hs : Sound s.port) (h : Handed s) (ec : Bool) (d : SerialReceived) :
    Handed (s.handleReadData ec d) := by
  rcases handle_cases s hs ec d with ⟨-, port, hport, heq⟩ | ⟨-, -, hmode, port, hport, heq⟩ |
    ⟨-, -, hmode, n, b, q, b', port, -, -, -, hport, heq⟩
  · rw [heq]
    exact h.of_eq hport.connections.1 hport.connections.2 rfl rfl rfl (List.prefix_refl _)
  · rw [heq]
    exact h.tell d.bytes hmode hport
  · rw [heq]
    exact h.put d.bytes hmode hport.connections.1 hport.connections.2

theorem Fair.get (h : Sound s.port) (hh : Handed s) (hcrashed : s.crashed = false) (g : Get) :
    Fair s (s.get g) (.get g) := by
  by_cases hset : s.port.serial.isRunning = true ∨ s.port.serial.isSetBuffer = true
  · obtain ⟨n, b, q, hb, hheld⟩ := h.present hset
    obtain ⟨b', q', out, hnext, hsub, hlen, heq⟩ := get_present (s := s) hb hheld g
    have hunread : s.port.unread = q.items := by
      rw [SerialData.unread, hb]
      exact hheld.unread
    rw [heq]
    refine ⟨h.setBuffer hnext hset, hh.of_eq rfl rfl rfl rfl rfl (List.prefix_refl _),
      ⟨[], out, 0, ⟨(List.append_nil _).symm, rfl, ?_, ?_⟩, iff_of_true rfl trivial⟩,
      iff_of_true hcrashed hset⟩
    · show (out ++ b'.unread).Sublist _
      rw [hnext.unread, hunread, List.append_nil]
      exact hsub
    · show out.length + b'.unread.length + 0 = _
      rw [hnext.unread, hunread]
      exact hlen
  · have hboth := not_or.mp hset
    have hnone := h.absent (by simpa using hboth.1) (by simpa using hboth.2)
    rw [get_absent hnone]
    exact ⟨h, hh.of_eq rfl rfl rfl rfl rfl (List.prefix_refl _),
      ⟨[], [], 0, Moved.still rfl rfl rfl, iff_of_true rfl trivial⟩,
      iff_of_false (by simp) hset⟩

/-- A new buffer, with what is in it already. -/
theorem Fair.setBuffer (h : Sound s.port) (hh : Handed s) (hcrashed : s.crashed = false)
    (b : Made) : Fair s (s.setBuffer b) (.setBuffer b) := by
  have hunread : (s.setBuffer b).port.unread = b.buffer.unread := rfl
  refine ⟨⟨h.size, fun _ hset => ?_, fun _ => ⟨b.size, b.buffer, b.queue, rfl, b.holds⟩,
      h.running⟩, hh.of_eq rfl rfl rfl rfl rfl (List.prefix_append _ _),
    ⟨b.buffer.unread, [], s.port.unread.length, ⟨rfl, (List.append_nil _).symm, ?_, ?_⟩, ?_⟩,
    iff_of_true hcrashed trivial⟩
  · cases hset
  · rw [hunread]
    exact List.sublist_append_right _ _
  · rw [hunread, List.length_nil, Nat.zero_add, Nat.add_comm]
  · exact List.length_eq_zero_iff

/-- A start that goes well makes a buffer, where none has been set. -/
theorem Fair.start (h : Sound s.port) (hh : Handed s) (hcrashed : s.crashed = false)
    (steps : StartSteps) : Fair s { s with port := s.port.start steps } (.start steps) := by
  have hconn : (s.port.start steps).dataReceivedConnections = s.port.dataReceivedConnections := rfl
  refine ⟨h.start steps, hh.of_eq rfl rfl rfl rfl rfl (List.prefix_refl _), ?_,
    iff_of_true hcrashed trivial⟩
  rcases start_cases s.port steps with ⟨hsome, heq⟩ | ⟨hnone, hall, heq⟩ | ⟨hnone, hall, heq⟩
  · rw [heq]
    refine ⟨[], [], 0, Moved.still rfl rfl rfl, iff_of_true rfl fun hport => ?_⟩
    rw [hport] at hsome
    cases hsome
  · rw [heq]
    cases hset : s.port.serial.isSetBuffer with
    | true =>
        refine ⟨[], [], 0, Moved.still rfl rfl ?_, iff_of_true rfl fun _ _ hfalse => ?_⟩
        · simp [SerialData.unread, SerialPort.started, hset]
        · rw [hset] at hfalse
          cases hfalse
    | false =>
        have hunread : ({ s.port with serial := s.port.serial.started } : SerialData φ).unread
            = [] := by
          simp [SerialData.unread, SerialPort.started, hset, new_unread]
        refine ⟨[], [], s.port.unread.length,
          ⟨(List.append_nil _).symm, (List.append_nil _).symm, ?_, ?_⟩, ?_⟩
        · show ([] ++ SerialData.unread _).Sublist _
          rw [hunread]
          exact List.nil_sublist _
        · show _ + (SerialData.unread _).length + _ = _
          rw [hunread, List.length_nil, Nat.zero_add, Nat.add_zero]
        · rw [List.length_eq_zero_iff]
          exact ⟨fun hkeeps _ _ _ => hkeeps, fun hkeeps => hkeeps hnone hall hset⟩
  · rw [heq]
    exact ⟨[], [], 0, Moved.still rfl rfl rfl, iff_of_true rfl fun _ hsucceed =>
      absurd hsucceed hall⟩

/-- A read completes. -/
theorem Fair.complete (h : Sound s.port) (hh : Handed s) (hcrashed : s.crashed = false)
    {k : Completion} {u : State φ} (hu : s.complete k = some u) {a : Act φ} (ha : s.Keeps a)
    (hready : s.Ready a) (data arrived : Bytes) :
    Fair s { u with data := data, arrived := arrived } a := by
  obtain ⟨port, hport, -, rfl⟩ := complete_cases hu
  exact ⟨h.portOnly hport,
    hh.of_eq hport.connections.1 hport.connections.2 rfl rfl rfl (List.prefix_refl _),
    ⟨[], [], 0, Moved.still rfl rfl hport.unread, iff_of_true rfl ha⟩,
    iff_of_true hcrashed hready⟩

/-- Its handler runs. -/
theorem Fair.handle (h : Sound s.port) (hh : Handed s) (hcrashed : s.crashed = false) {i : Nat}
    (hs : s.handle i = some s') : Fair s s' (.handle i) := by
  obtain ⟨k, hk, rfl⟩ := Option.map_eq_some_iff.mp hs
  have hhanded : Handed { s with completed := s.completed.eraseIdx i } :=
    hh.of_eq rfl rfl rfl rfl rfl (List.prefix_refl _)
  obtain ⟨hafter, hcrash⟩ := Sound.handleReadData
    (s := { s with completed := s.completed.eraseIdx i }) h k.ec (s.received k)
  obtain ⟨put, out, loss, hmoved, hloss⟩ := Moved.handleReadData
    (s := { s with completed := s.completed.eraseIdx i }) h k.ec (s.received k)
  refine ⟨hafter, Handed.handleReadData (s := { s with completed := s.completed.eraseIdx i })
    h hhanded _ _, ⟨put, out, loss, ?_, hloss.trans ?_⟩, ?_⟩
  · exact ⟨hmoved.offered, hmoved.delivered, hmoved.ordered, hmoved.counted⟩
  · constructor
    · intro hkeeps k' hk'
      rw [hk] at hk'
      cases hk'
      exact hkeeps
    · exact fun hkeeps => hkeeps k hk
  · rw [hcrash]
    exact iff_of_true hcrashed trivial

theorem Fair.step (h : Sound s.port) (hh : Handed s) {a : Act φ} (hs : s.step a = some s') :
    Fair s s' a := by
  unfold State.step at hs
  split at hs
  · cases hs
  · rename_i hcrashed
    replace hcrashed : s.crashed = false := by simpa using hcrashed
    cases a with
    | setBuffer b =>
        cases hs
        exact Fair.setBuffer h hh hcrashed b
    | setBufferSize size positive =>
        cases hs
        exact ⟨⟨positive, h.absent, h.present, h.running⟩,
          hh.of_eq rfl rfl rfl rfl rfl (List.prefix_refl _),
          ⟨[], [], 0, Moved.still rfl rfl rfl, iff_of_true rfl trivial⟩,
          iff_of_true hcrashed trivial⟩
    | extractMessages =>
        cases hs
        exact ⟨⟨h.size, h.absent, h.present, h.running⟩,
          hh.of_eq rfl rfl rfl rfl rfl (List.prefix_refl _),
          ⟨[], [], 0, Moved.still rfl rfl rfl, iff_of_true rfl trivial⟩,
          iff_of_true hcrashed trivial⟩
    | dontBuffer func =>
        replace hs : s.dontBuffer func = some s' := hs
        have hhanded := hh.dontBuffer hs
        rw [State.dontBuffer] at hs
        split at hs <;> cases hs
        exact ⟨⟨h.size, h.absent, h.present, h.running⟩, hhanded,
          ⟨[], [], 0, Moved.still rfl rfl rfl, iff_of_true rfl trivial⟩,
          iff_of_true hcrashed trivial⟩
    | start steps =>
        cases hs
        exact Fair.start h hh hcrashed steps
    | stop steps =>
        cases hs
        have hport := portOnly_stop s.port steps
        exact ⟨h.portOnly hport,
          hh.of_eq hport.connections.1 hport.connections.2 rfl rfl rfl (List.prefix_refl _),
          ⟨[], [], 0, Moved.still rfl rfl hport.unread, iff_of_true rfl trivial⟩,
          iff_of_true hcrashed trivial⟩
    | arrive d =>
        obtain ⟨u, hu, rfl⟩ := Option.map_eq_some_iff.mp hs
        exact Fair.complete h hh hcrashed hu (a := .arrive d) trivial trivial _ _
    | fail => exact Fair.complete h hh hcrashed hs (a := .fail) trivial trivial _ _
    | handle i => exact Fair.handle h hh hcrashed hs
    | get g =>
        cases hs
        exact Fair.get h hh hcrashed g

end Fairness

/-! ## The array of the reads -/

section InTime

variable [DecidableEq φ] {s s' : State φ}

omit [DecidableEq φ] in
/-- What a handler does to the reads and to the record of what is passed on. -/
theorem handleReadData_spec (hs : Sound s.port) (ec : Bool) (d : SerialReceived) :
    postedOn (s.handleReadData ec d).port.serial.port ≤ postedOn s.port.serial.port + 1 ∧
      (s.handleReadData ec d).completed = s.completed ∧
      (s.handleReadData ec d).arrived = s.arrived ∧
      ((s.handleReadData ec d).handed = if s.port.Listening ∧ ec = false then s.handed ++ d.bytes
        else s.handed) := by
  rcases handle_cases s hs ec d with ⟨hnot, port, hport, heq⟩ | ⟨hl, hec, -, port, hport, heq⟩ |
    ⟨hl, hec, -, n, b, q, b', port, -, -, -, hport, heq⟩
  · rw [heq, if_neg hnot]
    exact ⟨hport.posted, rfl, rfl, rfl⟩
  · rw [heq, if_pos ⟨hl, hec⟩]
    exact ⟨hport.posted, rfl, rfl, rfl⟩
  · rw [heq, if_pos ⟨hl, hec⟩]
    exact ⟨hport.posted, rfl, rfl, rfl⟩

/-- One read is in flight at most, and what it has brought is all that is not
passed on. -/
structure Prompt (s : State φ) : Prop where
  sound : Sound s.port
  handed : Handed s
  single : s.inFlight ≤ 1
  whole : s.handed ++ s.waiting = s.arrived

/-- A step that leaves the reads alone. -/
theorem Prompt.of_eq (h : Prompt s) (hsound : Sound s'.port) (hhanded : Handed s')
    (hport : s'.port.serial.port = s.port.serial.port) (hcompleted : s'.completed = s.completed)
    (hdata : s'.data = s.data) (heq : s'.handed = s.handed) (harrived : s'.arrived = s.arrived) :
    Prompt s' := by
  refine ⟨hsound, hhanded, ?_, ?_⟩
  · rw [State.inFlight, hport, hcompleted]
    exact h.single
  · have hwaiting : s'.waiting = s.waiting := by
      simp only [State.waiting, State.received, hcompleted, hdata]
    rw [heq, hwaiting, harrived]
    exact h.whole

/-- A read on the port is the only one. -/
theorem Prompt.alone (h : Prompt s) (hposted : 0 < postedOn s.port.serial.port) :
    s.completed = [] := by
  have hsingle := h.single
  rw [State.inFlight] at hsingle
  exact List.length_eq_zero_iff.mp (by omega)

theorem Prompt.start (h : Prompt s) {steps : StartSteps}
    (hfair : Fair s { s with port := s.port.start steps } (.start steps))
    (hg : s.InTime (.start steps)) : Prompt { s with port := s.port.start steps } := by
  refine ⟨hfair.sound, hfair.handed, ?_, h.whole⟩
  have hsingle := h.single
  rw [State.inFlight] at hsingle ⊢
  rcases start_cases s.port steps with ⟨-, heq⟩ | ⟨hnone, hall, heq⟩ | ⟨-, -, heq⟩
  · rw [heq]
    exact hsingle
  · rw [heq, hg hnone hall]
    exact Nat.le_refl _
  · rw [heq]
    exact Nat.le_trans (Nat.add_le_add_right (Nat.zero_le _) _) hsingle

/-- The handlers of aborted reads have nothing to pass on. -/
theorem Prompt.stop (h : Prompt s) {steps : StopSteps}
    (hfair : Fair s (s.stop steps) (.stop steps)) : Prompt (s.stop steps) := by
  refine ⟨hfair.sound, hfair.handed, ?_, ?_⟩
  · have hsingle := h.single
    have hle := posted_stop s.port steps
    rw [State.inFlight] at hsingle ⊢
    rw [State.stop]
    simp only [List.length_append, List.length_replicate]
    omega
  · have hwaiting : (s.stop steps).waiting = s.waiting := by
      rw [State.waiting, State.stop, List.flatMap_append]
      simp [Completion.aborted, State.waiting, State.received]
    rw [hwaiting]
    exact h.whole

/-- The one read completes and has brought `bytes`. -/
theorem Prompt.complete (h : Prompt s) {k : Completion} {u : State φ} {a : Act φ}
    {data bytes : Bytes} (hu : s.complete k = some u)
    (hfair : Fair s { u with data := data, arrived := s.arrived ++ bytes } a)
    (hbytes : (if k.ec then [] else data.take k.bytesTransferred) = bytes) :
    Prompt { u with data := data, arrived := s.arrived ++ bytes } := by
  obtain ⟨port, -, hposted, rfl⟩ := complete_cases hu
  have hnone := h.alone (by rw [hposted]; exact Nat.succ_pos _)
  refine ⟨hfair.sound, hfair.handed, ?_, ?_⟩
  · have hsingle := h.single
    rw [State.inFlight, hposted] at hsingle
    rw [State.inFlight, List.length_append]
    simp only [List.length_singleton]
    omega
  · have hwhole := h.whole
    rw [State.waiting, hnone, List.flatMap_nil, List.append_nil] at hwhole
    rw [State.waiting, hnone, List.nil_append, List.flatMap_singleton, hwhole, ← hbytes]
    rfl

theorem Prompt.arrive (h : Prompt s) {d : SerialReceived} (hfair : Fair s s' (.arrive d))
    (hs : s.arrive d = some s') : Prompt s' := by
  obtain ⟨u, hu, rfl⟩ := Option.map_eq_some_iff.mp hs
  exact h.complete hu hfair (List.take_left' rfl)

/-- An aborted read has brought nothing. -/
theorem Prompt.fail (h : Prompt s) (hfair : Fair s s' .fail)
    (hs : s.complete .aborted = some s') : Prompt s' := by
  have heq : s' = { s' with data := s'.data, arrived := s.arrived ++ [] } := by
    obtain ⟨port, -, -, rfl⟩ := complete_cases hs
    rw [List.append_nil]
  rw [heq] at hfair ⊢
  exact h.complete hs hfair rfl

/-- The handler of the one read passes on what it has brought. -/
theorem Prompt.handle (h : Prompt s) {i : Nat} (hfair : Fair s s' (.handle i))
    (hg : s.InTime (.handle i)) (hs : s.handle i = some s') : Prompt s' := by
  obtain ⟨k, hk, rfl⟩ := Option.map_eq_some_iff.mp hs
  have hlt := (List.getElem?_eq_some_iff.mp hk).1
  have hsingle := h.single
  rw [State.inFlight] at hsingle
  obtain ⟨k', hone⟩ := List.length_eq_one_iff.mp (show s.completed.length = 1 by omega)
  have hi : i = 0 := by
    rw [hone, List.length_singleton] at hlt
    omega
  subst hi
  rw [hone] at hk
  cases hk
  have herase : s.completed.eraseIdx 0 = [] := by rw [hone]; rfl
  have hwhole := h.whole
  rw [State.waiting, hone, List.flatMap_singleton] at hwhole
  rw [herase] at hfair ⊢
  obtain ⟨hposted, hcompleted, harrived, hhanded⟩ := handleReadData_spec
    (s := { s with completed := [] }) h.sound k.ec (s.received k)
  refine ⟨hfair.sound, hfair.handed, ?_, ?_⟩
  · rw [hone, List.length_singleton] at hsingle
    replace hposted : _ ≤ postedOn s.port.serial.port + 1 := hposted
    rw [State.inFlight, hcompleted, List.length_nil]
    omega
  · rw [State.waiting, hcompleted, List.flatMap_nil, List.append_nil, hhanded, harrived]
    show ite _ _ _ = s.arrived
    rw [← hwhole]
    cases hec : k.ec with
    | true => rw [if_neg (fun h => nomatch h.2), if_pos rfl, List.append_nil]
    | false =>
        have hl : s.port.Listening := hg k (by rw [hone]; rfl) hec
        rw [if_pos ⟨hl, rfl⟩, if_neg Bool.false_ne_true]

theorem Prompt.step (h : Prompt s) {a : Act φ} (hg : s.InTime a) (hs : s.step a = some s') :
    Prompt s' := by
  have hfair := Fair.step h.sound h.handed hs
  unfold State.step at hs
  split at hs
  · cases hs
  · cases a with
    | setBuffer b =>
        cases hs
        exact h.of_eq hfair.sound hfair.handed rfl rfl rfl rfl rfl
    | setBufferSize size positive =>
        cases hs
        exact h.of_eq hfair.sound hfair.handed rfl rfl rfl rfl rfl
    | extractMessages =>
        cases hs
        exact h.of_eq hfair.sound hfair.handed rfl rfl rfl rfl rfl
    | dontBuffer func =>
        replace hs : s.dontBuffer func = some s' := hs
        rw [State.dontBuffer] at hs
        split at hs <;> cases hs
        exact h.of_eq hfair.sound hfair.handed rfl rfl rfl rfl rfl
    | start steps =>
        cases hs
        exact h.start hfair hg
    | stop steps =>
        cases hs
        exact h.stop hfair
    | arrive d => exact h.arrive hfair hs
    | fail => exact h.fail hfair hs
    | handle i => exact h.handle hfair hg hs
    | get g =>
        cases hs
        by_cases hset : s.port.serial.isRunning = true ∨ s.port.serial.isSetBuffer = true
        · obtain ⟨n, b, q, hb, hheld⟩ := h.sound.present hset
          obtain ⟨b', q', out, -, -, -, heq⟩ := get_present (s := s) hb hheld g
          rw [heq] at hfair ⊢
          exact h.of_eq hfair.sound hfair.handed rfl rfl rfl rfl rfl
        · have hboth := not_or.mp hset
          have hnone := h.sound.absent (by simpa using hboth.1) (by simpa using hboth.2)
          rw [get_absent hnone] at hfair ⊢
          exact h.of_eq hfair.sound hfair.handed rfl rfl rfl rfl rfl

end InTime

/-! ## Whole runs -/

section Runs

variable [DecidableEq φ] {s s' : State φ} {as : List (Act φ)}

/-- Everything that was put before the reader has been delivered or waits. -/
structure Complete (s : State φ) : Prop where
  sound : Sound s.port
  handed : Handed s
  whole : s.delivered ++ s.port.unread = s.offered

/-- The order was kept, and something is missing. -/
structure Lossy (s : State φ) : Prop where
  sound : Sound s.port
  handed : Handed s
  ordered : (s.delivered ++ s.port.unread).Sublist s.offered
  missing : (s.delivered ++ s.port.unread).length < s.offered.length

theorem Complete.init : Complete (machine φ).init where
  sound := Sound.new
  handed :=
    { nodup := List.nodup_nil
      mode := iff_of_true rfl rfl
      offered := List.Sublist.refl _
      unheard := fun _ _ => rfl
      heard := fun _ => List.nil_suffix
      whole := rfl }
  whole := rfl

theorem Prompt.init : Prompt (machine φ).init where
  sound := Complete.init.sound
  handed := Complete.init.handed
  single := Nat.zero_le _
  whole := rfl

theorem Complete.step {a : Act φ} (h : Complete s) (hkeeps : s.Keeps a) (hs : s.step a = some s') :
    Complete s' := by
  have hfair := Fair.step h.sound h.handed hs
  obtain ⟨put, out, loss, hmoved, hloss⟩ := hfair.moved
  refine ⟨hfair.sound, hfair.handed, ?_⟩
  have hordered := hmoved.ordered_step (by rw [h.whole])
  have hlength := hmoved.length_step
  rw [hloss.mpr hkeeps, h.whole] at hlength
  exact hordered.eq_of_length (by omega)

theorem Complete.lose {a : Act φ} (h : Complete s) (hkeeps : ¬ s.Keeps a)
    (hs : s.step a = some s') : Lossy s' := by
  have hfair := Fair.step h.sound h.handed hs
  obtain ⟨put, out, loss, hmoved, hloss⟩ := hfair.moved
  have hpos : loss ≠ 0 := fun hzero => hkeeps (hloss.mp hzero)
  have hlength := hmoved.length_step
  rw [h.whole] at hlength
  exact ⟨hfair.sound, hfair.handed, hmoved.ordered_step (by rw [h.whole]), by omega⟩

theorem Lossy.step {a : Act φ} (h : Lossy s) (hs : s.step a = some s') : Lossy s' := by
  have hfair := Fair.step h.sound h.handed hs
  obtain ⟨put, out, loss, hmoved, -⟩ := hfair.moved
  have hlength := hmoved.length_step
  have hmissing := h.missing
  exact ⟨hfair.sound, hfair.handed, hmoved.ordered_step h.ordered, by omega⟩

/-- **Where the bytes go.** In every run, over any number of starts and
stops, what the user gets and can still get was put before the reader in this
order; it is all of it exactly as long as no buffer with unread bytes is
replaced, by the user or by a start, and what comes fits. From the first
function on, what handlers find goes to the functions instead. If no start
goes well while a read of an earlier port is still to be handled, and no
handler with bytes finds its port closed, then what was buffered, what the
first function was told and what a handler is still to pass on are all that
was read, and every other function was told the end of what was passed on. -/
theorem serial_delivers (hrun : (machine φ).exec (machine φ).init as = some s) :
    (s.delivered ++ s.port.unread).Sublist s.offered ∧
      (s.delivered ++ s.port.unread = s.offered
        ↔ (machine φ).Guarded State.Keeps (machine φ).init as) ∧
      s.buffered.Sublist s.offered ∧
      ((machine φ).Guarded State.InTime (machine φ).init as →
        s.buffered ++ s.told ++ s.waiting = s.arrived ∧
          ∀ func, s.heard func <:+ s.buffered ++ s.told) := by
  have hintime : (machine φ).Guarded State.InTime (machine φ).init as →
      s.buffered ++ s.told ++ s.waiting = s.arrived ∧
        ∀ func, s.heard func <:+ s.buffered ++ s.told := by
    intro hg
    have h := Machine.inv_of_guarded (G := State.InTime) (fun _ _ _ h hg hs => Prompt.step h hg hs)
      Prompt.init hrun hg
    rw [h.handed.whole]
    exact ⟨h.whole, h.handed.heard⟩
  rcases Machine.guarded_or_not (fun _ _ _ h hg hs => h.step hg hs)
      (fun _ _ _ h hg hs => h.lose hg hs) (fun _ _ _ h hs => h.step hs) Complete.init hrun
    with ⟨hg, h⟩ | ⟨hg, h⟩
  · exact ⟨by rw [h.whole], iff_of_true h.whole hg, h.handed.offered, hintime⟩
  · refine ⟨h.ordered, iff_of_false (fun hwhole => ?_) hg, h.handed.offered, hintime⟩
    have hmissing := h.missing
    rw [hwhole] at hmissing
    exact absurd hmissing (Nat.lt_irrefl _)

/-- A start in which nothing goes wrong. -/
def smoothly : StartSteps :=
  ⟨.succeeds, .succeeds, .succeeds, .succeeds, .succeeds, .succeeds⟩

/-- Two bytes, of which the user gets one before a restart; the read that the
stop aborted is handled before it, and a function is connected after it. -/
def restarted : List (Act Bool) :=
  [.setBufferSize 4 (by decide), .start smoothly, .arrive ⟨[71, 72], by decide⟩, .handle 0,
    .get .nextByte, .stop ⟨.succeeds, .succeeds⟩, .handle 0, .start smoothly, .dontBuffer true,
    .arrive ⟨[73], by decide⟩, .handle 0, .arrive ⟨[74], by decide⟩]

theorem serial_delivers_restarted :
    ∃ s, (machine Bool).exec (machine Bool).init restarted = some s ∧
      s.delivered = [71] ∧ s.offered = [71, 72] ∧ s.arrived = [71, 72, 73, 74] ∧
      [71].Sublist s.offered ∧ ¬ (machine Bool).Guarded State.Keeps (machine Bool).init restarted ∧
      (machine Bool).Guarded State.InTime (machine Bool).init restarted ∧
      [71, 72] ++ s.told ++ [74] = s.arrived := by
  obtain ⟨s, hrun, hdelivered, hunread, hoffered, hbuffered, harrived, hwaiting⟩ :
      ∃ s, (machine Bool).exec (machine Bool).init restarted = some s ∧ s.delivered = [71] ∧
        s.port.unread = [] ∧ s.offered = [71, 72] ∧ s.buffered = [71, 72] ∧
        s.arrived = [71, 72, 73, 74] ∧ s.waiting = [74] :=
    ⟨_, rfl, rfl, rfl, rfl, rfl, rfl, rfl⟩
  have hg : (machine Bool).Guarded State.InTime (machine Bool).init restarted := by decide
  obtain ⟨hsub, hkeeps, -, hintime⟩ := serial_delivers hrun
  have hwhole := (hintime hg).1
  rw [hdelivered, hunread, List.append_nil] at hsub hkeeps
  rw [hbuffered, hwaiting] at hwhole
  refine ⟨s, hrun, hdelivered, hoffered, harrived, hsub, fun hg => ?_, hg, hwhole⟩
  have hall := hkeeps.mpr hg
  rw [hoffered] at hall
  cases hall

/-- Two reads in flight: the bytes of the second come over those of the first
before its handler runs. -/
example :
    ((machine Bool).exec (machine Bool).init
      [.dontBuffer true, .start smoothly, .stop ⟨.succeeds, .succeeds⟩, .start smoothly, .handle 0,
        .arrive ⟨[1, 2], by decide⟩, .arrive ⟨[3], by decide⟩, .handle 0, .handle 0]).map
      (fun s => (s.arrived, s.told)) = some ([1, 2, 3], [3, 2, 3]) := rfl

/-- Nothing has crashed. -/
structure Calm (s : State φ) : Prop where
  sound : Sound s.port
  handed : Handed s
  going : s.crashed = false

theorem Calm.step {a : Act φ} (h : Calm s) (hready : s.Ready a) (hs : s.step a = some s') :
    Calm s' := by
  have hfair := Fair.step h.sound h.handed hs
  exact ⟨hfair.sound, hfair.handed, hfair.crashed.mpr hready⟩

theorem Calm.crash {a : Act φ} (h : Calm s) (hready : ¬ s.Ready a) (hs : s.step a = some s') :
    s'.crashed = true := by
  have hfair := Fair.step h.sound h.handed hs
  simpa using mt hfair.crashed.mp hready

/-- **Only an early read crashes**: a run has crashed exactly where the user
read before any start had gone well and any buffer was set. A handler never
does. -/
theorem serial_crashes_iff (hrun : (machine φ).exec (machine φ).init as = some s) :
    s.crashed = false ↔ (machine φ).Guarded State.Ready (machine φ).init as := by
  have hstay : ∀ (u : State φ) (a : Act φ) (v : State φ), u.crashed = true →
      u.step a = some v → v.crashed = true := by
    intro u a v hu hv
    unfold State.step at hv
    rw [if_pos hu] at hv
    cases hv
  rcases Machine.guarded_or_not (fun _ _ _ h hg hs => h.step hg hs)
      (fun _ _ _ h hg hs => h.crash hg hs) hstay
      (show Calm (machine φ).init from ⟨Complete.init.sound, Complete.init.handed, rfl⟩) hrun
    with ⟨hg, h⟩ | ⟨hg, h⟩
  · exact iff_of_true h.going hg
  · exact iff_of_false (by rw [h]; decide) hg

/-- The user asks for a byte of a port that has never been started. -/
def tooEarly : List (Act Bool) :=
  [.setBufferSize 8 (by decide), .extractMessages, .get .nextByte]

theorem serial_crashes_iff_tooEarly :
    ∃ s, (machine Bool).exec (machine Bool).init tooEarly = some s ∧ s.crashed = true ∧
      ¬ (machine Bool).Guarded State.Ready (machine Bool).init tooEarly := by
  obtain ⟨s, hrun, hcrashed⟩ : ∃ s,
      (machine Bool).exec (machine Bool).init tooEarly = some s ∧ s.crashed = true :=
    ⟨_, rfl, rfl⟩
  refine ⟨s, hrun, hcrashed, fun hg => ?_⟩
  rw [(serial_crashes_iff hrun).mpr hg] at hcrashed
  cases hcrashed

end Runs

end SerialRun

end HpLib
