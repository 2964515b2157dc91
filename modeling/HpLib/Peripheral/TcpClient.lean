import HpLib.Common.ByteQueue

/-!
# TCPClient

The data path of `peripheral/src/tcp_client.cc`: what `initialize` sets, what
`handle_read_data` does with a completed receive, and `read_next_bytes`.

The sockets and the io thread are not here. A receive that completes is a
call of `handleReadData` with its error flag and the first
`bytes_transferred` bytes of `data_`; the answer says which signals fired and
whether the next `async_receive` was posted.
-/

namespace HpLib

/-- `MAX_LENGTH`, the size of `data_`. -/
def maxLength : Nat := 1 * 1024 * 1024

/-- The bytes one receive can put into `data_`. -/
structure Received where
  bytes : Bytes
  bound : bytes.length ≤ maxLength
  deriving DecidableEq

/-- `bytes_transferred` fits the `uint32_t` of `AbstractBuffer::write`. -/
def Received.chunk (d : Received) : Chunk :=
  ⟨d.bytes, Nat.lt_of_le_of_lt d.bound (by decide)⟩

@[simp] theorem Received.chunk_bytes (d : Received) : d.chunk.bytes = d.bytes := rfl

/-- The two signals of a client, as its user sees them fire. -/
inductive Signal where
  | dataReceived (data : Bytes)
  | disconnected (id : Nat)
  deriving Repr, DecidableEq

def Signal.isDisconnected : Signal → Bool
  | .disconnected _ => true
  | .dataReceived _ => false

/-- `hasPacketStructure` says that `packet_structure_` is not null. -/
structure TCPClient where
  id : Nat
  isConnected : Bool
  doBufferData : Bool
  buffer : Option CircularBuffer
  hasPacketStructure : Bool
  receiveSize : UInt64
  deriving Repr, DecidableEq

/-- What `handle_read_data` leaves behind. -/
structure Handled where
  client : TCPClient
  signals : List Signal
  rearmed : Bool
  deriving Repr, DecidableEq

namespace TCPClient

/-- `buffer_size_` as `initialize` sets it. -/
def bufferSize : UInt32 := 1 * 1024

/-- `initialize`, with the `is_connected_` that the constructor around it
sets: false for a client made by address, true for one made from a socket
that a server accepted. -/
def initializeClient (idCounter : Nat) (isConnected : Bool) : TCPClient :=
  { id := idCounter, isConnected := isConnected, doBufferData := true,
    buffer := some (CircularBuffer.new bufferSize), hasPacketStructure := false,
    receiveSize := 0 }

/-- `if (do_buffer_data_) buffer_->write(...)`. The error code of `write` is
dropped here, as it is there. -/
def bufferData (c : TCPClient) (d : Received) : Except Fault (Option CircularBuffer) :=
  if c.doBufferData then
    match c.buffer with
    | none => .error .nullDeref
    | some b => do
        let (_, b') ← b.write d.bytes d.chunk.len
        return some b'
  else .ok c.buffer

def handleReadData (c : TCPClient) (error : Bool) (d : Received) : Except Fault Handled :=
  if !error then do
    let buffer ← c.bufferData d
    return { client := { c with buffer := buffer,
                                receiveSize := c.receiveSize + UInt64.ofNat d.bytes.length },
             signals := [.dataReceived d.bytes], rearmed := true }
  else if c.isConnected then
    return { client := { c with isConnected := false }, signals := [.disconnected c.id],
             rearmed := false }
  else
    return { client := c, signals := [], rearmed := false }

/-- `read_next_bytes`; `none` says that the call is asleep in `read`, which
never throws. -/
def readNextBytes (c : TCPClient) (data : Bytes) (len timeout : UInt32) :
    Except Fault (Option ((BufferError × Bytes) × TCPClient)) :=
  match c.buffer with
  | none => return some ((.bufNoData, data), c)
  | some b =>
      if c.hasPacketStructure then
        return some ((.bufNoData, data), c)
      else do
        match ← b.read data len timeout with
        | .returns ret b' => return some (ret, { c with buffer := some b' })
        | .waits | .throws => return none

/-! ## What the handler leaves -/

variable {c : TCPClient} {d : Received} {h : Handled}

theorem handleReadData_success (hrun : c.handleReadData false d = .ok h) :
    ∃ buffer, c.bufferData d = .ok buffer ∧
      h = { client := { c with buffer := buffer,
                               receiveSize := c.receiveSize + UInt64.ofNat d.bytes.length },
            signals := [.dataReceived d.bytes], rearmed := true } := by
  rw [handleReadData] at hrun
  obtain ⟨buffer, hbuf, hrun⟩ := bind_eq_ok.mp hrun
  cases hrun
  exact ⟨buffer, hbuf, rfl⟩

/-- A failed receive of a connected client takes it down and says so. -/
theorem handleReadData_error (c : TCPClient) (d : Received) :
    c.handleReadData true d
      = .ok ⟨{ c with isConnected := false },
          if c.isConnected then [.disconnected c.id] else [], false⟩ := by
  rw [handleReadData]
  cases hc : c.isConnected with
  | true => rfl
  | false =>
      have : c = { c with isConnected := false } := by rw [← hc]
      simp only [Bool.not_true, Bool.false_eq_true, if_false]
      rw [← this]
      rfl

/-! ## The queue inside a client -/

/-- The queue that the buffer of `initialize` implements. -/
abbrev Queue : Type := Lib.BoundedQueue UInt8 (bufferSize.toNat - 1)

/-- The client buffers what it receives, and its buffer holds `q`. -/
structure Buffers (c : TCPClient) (q : Queue) : Prop where
  doBufferData : c.doBufferData = true
  holds : ∃ b, c.buffer = some b ∧ CircularBuffer.Holds bufferSize b q

theorem Buffers.new (idCounter : Nat) (isConnected : Bool) :
    (initializeClient idCounter isConnected).Buffers .empty where
  doBufferData := rfl
  holds := ⟨_, rfl, CircularBuffer.Holds.new (by decide)⟩

/-- `buffer_->write` pushes what was received. -/
theorem Buffers.bufferData {q : Queue} (hq : c.Buffers q) (d : Received) :
    ∃ b, c.bufferData d = .ok (some b) ∧ CircularBuffer.Holds bufferSize b (q.push d.bytes) := by
  obtain ⟨b, hb, hholds⟩ := hq.holds
  obtain ⟨b', hwrite, hnext⟩ := hholds.write d.chunk
  refine ⟨b', ?_, hnext⟩
  rw [TCPClient.bufferData, if_pos hq.doBufferData, hb]
  simp only [← Received.chunk_bytes, hwrite]
  rfl

/-- A successful receive goes right and is buffered. -/
theorem Buffers.receive {q : Queue} (hq : c.Buffers q) (d : Received) :
    ∃ c', c.handleReadData false d = .ok ⟨c', [.dataReceived d.bytes], true⟩
      ∧ c'.Buffers (q.push d.bytes) ∧ c'.id = c.id ∧ c'.isConnected = c.isConnected
      ∧ c'.hasPacketStructure = c.hasPacketStructure := by
  obtain ⟨b, hbuf, hnext⟩ := hq.bufferData d
  refine ⟨{ c with buffer := some b,
                   receiveSize := c.receiveSize + UInt64.ofNat d.bytes.length },
    ?_, ⟨hq.doBufferData, b, rfl, hnext⟩, rfl, rfl, rfl⟩
  rw [handleReadData, hbuf]
  rfl

end TCPClient

end HpLib
