import HpLib.Common.ByteQueue
import HpLib.Peripheral.SerialPort

/-!
# SerialPort: the data path

What `handle_read_data` of `peripheral/src/serial_port.cc` does with what a
read brings: it writes it into `buffer_`, or, from the first call of
`dont_buffer_notify_me_data_received` on, calls the functions connected. The
calls that get bytes out go straight to `buffer_`, which is null until a
start has gone well or the user has set one (`Sound`).
-/

namespace HpLib

open Lib CircularBuffer

/-- `SERIAL_PORT_READ_BUF_SIZE`, the size of `data_`. -/
def serialPortReadBufSize : Nat := 256

/-- The bytes one read can put into `data_`. -/
structure SerialReceived where
  bytes : Bytes
  bound : bytes.length ≤ serialPortReadBufSize
  deriving DecidableEq

def SerialReceived.chunk (d : SerialReceived) : Chunk :=
  ⟨d.bytes, Nat.lt_of_le_of_lt d.bound (by decide)⟩

@[simp] theorem SerialReceived.chunk_bytes (d : SerialReceived) : d.chunk.bytes = d.bytes := rfl

/-- A port with what its data path has besides. `dataReceivedConnections` are
the functions of the signal, each under a name of its own. -/
structure SerialData (φ : Type) where
  serial : SerialPort
  isBufferedData : Bool
  dataReceivedConnections : List φ
  deriving Repr, DecidableEq

namespace SerialData

variable {φ : Type}

/-- The constructor. -/
def new : SerialData φ :=
  { serial := .new, isBufferedData := true, dataReceivedConnections := [] }

def set (s : SerialData φ) (x : SerialPort.Setting) : SerialData φ :=
  { s with serial := s.serial.set x }

def dontBufferNotifyMeDataReceived (s : SerialData φ) (func : φ) : SerialData φ :=
  { s with dataReceivedConnections := s.dataReceivedConnections ++ [func],
           isBufferedData := false }

def start (s : SerialData φ) (steps : StartSteps) : SerialData φ :=
  { s with serial := (SerialPort.call (SerialPort.start steps) s.serial).2 }

def stop (s : SerialData φ) (steps : StopSteps) : SerialData φ :=
  { s with serial := (SerialPort.call (SerialPort.stop steps) s.serial).2 }

def asyncReadSome (s : SerialData φ) : SerialData φ :=
  { s with serial := (SerialPort.call SerialPort.asyncReadSome s.serial).2 }

/-- A call through `buffer_`. -/
def onBuffer (s : SerialData φ) (c : QueueCall) : Except Fault (Reply × SerialData φ) :=
  match s.serial.buffer with
  | none => .error .nullDeref
  | some b => do
      let (r, b') ← b.queueCall c
      return (r, { s with serial := { s.serial with buffer := some b' } })

def getNextBytes (s : SerialData φ) (data : Chunk) (timeout : UInt32) :
    Except Fault (Reply × SerialData φ) :=
  s.onBuffer (.read data timeout)

def getNextByte (s : SerialData φ) : Except Fault (Reply × SerialData φ) :=
  s.onBuffer .readNextByte

def getAllBytes (s : SerialData φ) : Except Fault (Reply × SerialData φ) :=
  s.onBuffer .getAllBytes

def getRemainBytes (s : SerialData φ) : Except Fault UInt32 :=
  match s.serial.buffer with
  | none => .error .nullDeref
  | some b => return b.getRemainBytes

/-- `handle_read_data`: the calls of connected functions, and the object
after it. The error code of `write` is dropped here, as it is there. -/
def handleReadData (s : SerialData φ) (ec : Bool) (d : SerialReceived) :
    Except Fault (List (φ × Bytes) × SerialData φ) :=
  match s.serial.port with
  | none => return ([], s)
  | some p =>
      if !p.isOpen then return ([], s)
      else if ec then return ([], s.asyncReadSome)
      else if !s.isBufferedData then
        return (s.dataReceivedConnections.map fun func => (func, d.bytes), s.asyncReadSome)
      else do
        let (_, s') ← s.onBuffer (.write d.chunk)
        return ([], s'.asyncReadSome)

/-- The bytes waiting in the buffer. -/
def unread (s : SerialData φ) : Bytes :=
  match s.serial.buffer with
  | none => []
  | some b => b.unread

/-- There is a port, and it is open. -/
def Listening (s : SerialData φ) : Prop :=
  ∃ p, s.serial.port = some p ∧ p.isOpen = true

instance (s : SerialData φ) : Decidable s.Listening :=
  decidable_of_iff (s.serial.port.any AsioPort.isOpen = true) (Option.any_eq_true _ _)

/-! ## One call -/

/-- How many reads are posted on a port. -/
def postedOn : Option AsioPort → Nat
  | none => 0
  | some p => p.reads

/-- All that has changed is the port: it has not been opened, and one more
read may be posted on it. -/
def PortOnly (s t : SerialData φ) : Prop :=
  ∃ port, t = { s with serial := { s.serial with port := port } } ∧
    (t.Listening → s.Listening) ∧ postedOn port ≤ postedOn s.serial.port + 1

/-- No port, or a closed one. -/
def Closed (port : Option AsioPort) : Prop :=
  ∀ p, port = some p → p = ⟨false, 0⟩

theorem closed_none : Closed none := by
  intro p hp
  cases hp

theorem Closed.posted {port : Option AsioPort} (h : Closed port) : postedOn port = 0 := by
  cases port with
  | none => rfl
  | some p => rw [h p rfl, postedOn]

theorem portOnly_closed (s : SerialData φ) {port : Option AsioPort} (hport : Closed port) :
    PortOnly s { s with serial := { s.serial with port := port } } := by
  refine ⟨port, rfl, ?_, by rw [hport.posted]; exact Nat.zero_le _⟩
  rintro ⟨p, hp, hopen⟩
  rw [hport p hp] at hopen
  cases hopen

theorem PortOnly.refl (s : SerialData φ) : PortOnly s s :=
  ⟨s.serial.port, rfl, id, Nat.le_succ _⟩

theorem PortOnly.unread {s t : SerialData φ} (h : PortOnly s t) : t.unread = s.unread := by
  obtain ⟨port, rfl, -⟩ := h
  rfl

theorem PortOnly.posted {s t : SerialData φ} (h : PortOnly s t) :
    postedOn t.serial.port ≤ postedOn s.serial.port + 1 := by
  obtain ⟨port, rfl, -, hposted⟩ := h
  exact hposted

theorem PortOnly.connections {s t : SerialData φ} (h : PortOnly s t) :
    t.dataReceivedConnections = s.dataReceivedConnections ∧
      t.isBufferedData = s.isBufferedData := by
  obtain ⟨port, rfl, -⟩ := h
  exact ⟨rfl, rfl⟩

theorem portOnly_asyncReadSome (s : SerialData φ) : PortOnly s s.asyncReadSome := by
  rw [SerialData.asyncReadSome, SerialPort.asyncReadSome, SerialPort.call_modify]
  cases hport : s.serial.port with
  | none => exact PortOnly.refl s
  | some p =>
      simp only
      split
      · rename_i hopen
        exact ⟨_, rfl, fun _ => ⟨p, hport, hopen⟩, by rw [hport]; exact Nat.le_refl _⟩
      · exact PortOnly.refl s

/-- A stop does nothing, or leaves no port or a closed one. -/
theorem stop_cases (s : SerialData φ) (steps : StopSteps) :
    s.stop steps = s ∨
      ∃ port, Closed port ∧ s.stop steps = { s with serial := { s.serial with port := port } } := by
  rw [SerialData.stop]
  cases hport : s.serial.port with
  | none =>
      rw [SerialPort.call_stop_of_none hport]
      exact .inl rfl
  | some p =>
      rw [SerialPort.stop, SerialPort.call_bind, SerialPort.call_get]
      simp only [hport, Option.isSome_some, if_true]
      rw [SerialPort.call_throwing_bind]
      split
      · rw [SerialPort.call_bind, SerialPort.call_modify]
        simp only [SerialPort.call_throwing_bind]
        split
        · exact .inr ⟨none, closed_none, rfl⟩
        · refine .inr ⟨some ⟨false, 0⟩, fun _ hp => (Option.some.inj hp).symm, ?_⟩
          rw [hport]
          rfl
      · exact .inl rfl

theorem portOnly_stop (s : SerialData φ) (steps : StopSteps) : PortOnly s (s.stop steps) := by
  rcases stop_cases s steps with heq | ⟨port, hclosed, heq⟩
  · rw [heq]
    exact PortOnly.refl s
  · rw [heq]
    exact portOnly_closed s hclosed

theorem posted_stop (s : SerialData φ) (steps : StopSteps) :
    postedOn (s.stop steps).serial.port ≤ postedOn s.serial.port := by
  rcases stop_cases s steps with heq | ⟨port, hclosed, heq⟩
  · rw [heq]
  · rw [heq, hclosed.posted]
    exact Nat.zero_le _

/-- A start finds a port, or goes well, or leaves a port that is not open. -/
theorem start_cases (s : SerialData φ) (steps : StartSteps) :
    (s.serial.port.isSome = true ∧ s.start steps = s) ∨
    (s.serial.port = none ∧ steps.AllSucceed ∧
      s.start steps = { s with serial := s.serial.started }) ∨
    (s.serial.port = none ∧ ¬ steps.AllSucceed ∧
      s.start steps = { s with serial := s.serial.published }) := by
  rw [SerialData.start]
  cases hport : s.serial.port with
  | some p =>
      rw [SerialPort.call_start_of_isSome (by rw [hport]; rfl)]
      exact .inl ⟨rfl, rfl⟩
  | none =>
      by_cases hall : steps.AllSucceed
      · rw [SerialPort.call_start_of_succeed hport hall]
        exact .inr (.inl ⟨rfl, hall, rfl⟩)
      · rw [(SerialPort.call_start_of_fail hport hall).2]
        exact .inr (.inr ⟨rfl, hall, rfl⟩)

theorem onBuffer_spec {s : SerialData φ} {n : UInt32} {b : CircularBuffer}
    {q : BoundedQueue UInt8 (n.toNat - 1)} (hb : s.serial.buffer = some b) (h : Holds n b q)
    (c : QueueCall) :
    ∃ b', s.onBuffer c = .ok ((queueSpec (n.toNat - 1) q c).1,
        { s with serial := { s.serial with buffer := some b' } }) ∧
      Holds n b' (queueSpec (n.toNat - 1) q c).2 := by
  obtain ⟨b', hrun, hnext⟩ := queueCall_refines h c
  refine ⟨b', ?_, hnext⟩
  rw [SerialData.onBuffer, hb]
  simp only [hrun]
  rfl

/-! ## The buffer of a port -/

/-- There is a buffer once a start has gone well or the user has set one. -/
structure Sound (s : SerialData φ) : Prop where
  size : 0 < s.serial.bufferSize.toNat
  absent : s.serial.isRunning = false → s.serial.isSetBuffer = false → s.serial.buffer = none
  present : s.serial.isRunning = true ∨ s.serial.isSetBuffer = true →
    ∃ n b q, s.serial.buffer = some b ∧ Holds n b q
  running : s.Listening → s.serial.isRunning = true

theorem Sound.new : Sound (new : SerialData φ) where
  size := show 0 < (2 * 1024 * 1024 : UInt32).toNat by decide
  absent _ _ := rfl
  present h := by
    rcases h with h | h <;> cases h
  running := by
    rintro ⟨p, hp, -⟩
    cases hp

theorem Sound.portOnly {s t : SerialData φ} (h : Sound s) (hport : PortOnly s t) : Sound t := by
  obtain ⟨port, rfl, hlistening, -⟩ := hport
  exact ⟨h.size, h.absent, h.present, fun hl => h.running (hlistening hl)⟩

/-- The buffer is another one, or in another state. -/
theorem Sound.setBuffer {s : SerialData φ} (h : Sound s) {n : UInt32} {b : CircularBuffer}
    {q : BoundedQueue UInt8 (n.toNat - 1)} (hheld : Holds n b q)
    (hset : s.serial.isRunning = true ∨ s.serial.isSetBuffer = true) :
    Sound { s with serial := { s.serial with buffer := some b } } where
  size := h.size
  absent hrunning hbuffer := by
    rw [hrunning, hbuffer] at hset
    rcases hset with hset | hset <;> cases hset
  present _ := ⟨n, b, q, rfl, hheld⟩
  running := h.running

theorem Sound.start {s : SerialData φ} (h : Sound s) (steps : StartSteps) :
    Sound (s.start steps) := by
  rcases start_cases s steps with ⟨-, heq⟩ | ⟨-, -, heq⟩ | ⟨-, -, heq⟩
  · rw [heq]
    exact h
  · rw [heq]
    refine ⟨h.size, fun hrunning => ?_, fun _ => ?_, fun _ => rfl⟩
    · cases hrunning
    · cases hset : s.serial.isSetBuffer with
      | true =>
          obtain ⟨n, b, q, hb, hheld⟩ := h.present (.inr hset)
          exact ⟨n, b, q, by simp [SerialPort.started, hset, hb], hheld⟩
      | false =>
          exact ⟨_, _, _, by simp [SerialPort.started, hset], Holds.new h.size⟩
  · rw [heq]
    exact h.portOnly (portOnly_closed s fun p hp => (Option.some.inj hp).symm)

end SerialData

end HpLib
