import HpLib.Lib.Ring
import Mathlib.Algebra.Group.Nat.Defs

/-!
# CircularBuffer

The ring buffer of `common/src/circular_buffer.cc`, function by function.
Sizes and indices are `UInt32` as in the source, so index arithmetic wraps
here where it wraps there. A `memcpy` outside its arrays, a remainder by
zero and a loop that never leaves are `Fault`s.

Every public operation runs under the mutex `m`, so a call is one step on
the object. The exception is the wait at the top of `read`: it gives `m`
back until `check_free_space` holds or the timeout is over. `read` below is
the call as it stands when it holds `m` again, and `Outcome.waits` says that
it would go on sleeping. The `char` and `uint8_t` overloads of `read` and
`write` have the same bodies and are one definition each.
-/

namespace HpLib

abbrev Bytes := List UInt8

/-- What a piece of the C++ can come to instead of a result. -/
inductive Fault where
  | outOfBounds
  | divByZero
  | diverges
  | nullDeref
  | uninitialised
  deriving Repr, DecidableEq

/-- What comes to a result has come to one on the way. -/
theorem bind_eq_ok {ε α β : Type} {x : Except ε α} {f : α → Except ε β} {b : β} :
    x >>= f = .ok b ↔ ∃ a, x = .ok a ∧ f a = .ok b := by
  constructor
  · intro h
    cases x with
    | error e => cases h
    | ok a => exact ⟨a, rfl, h⟩
  · rintro ⟨a, rfl, h⟩
    exact h

/-- `abstract_buffer.h`, `enum BufferError`. -/
inductive BufferError where
  | bufNoError
  | bufOverflow
  | bufNoData
  | bufTimeout
  deriving Repr, DecidableEq

/-- `memcpy` of `c` bytes from `src + j` to `dst + i`. -/
def memcpy (dst : Bytes) (i : Nat) (src : Bytes) (j c : Nat) : Except Fault Bytes :=
  match Lib.blit dst i src j c with
  | some dst' => .ok dst'
  | none => .error .outOfBounds

/-- `x % size` on `uint32_t`. -/
def rem32 (x size : UInt32) : Except Fault UInt32 :=
  if size = 0 then .error .divByZero else .ok (x % size)

/-- `std::min` on `uint32_t`. -/
def min32 (a b : UInt32) : UInt32 :=
  if b < a then b else a

/-- `std::vector<char>::resize`. -/
def resize (buf : Bytes) (size : Nat) : Bytes :=
  buf.take size ++ List.replicate (size - buf.length) 0

structure CircularBuffer where
  size : UInt32
  destructorCall : Bool
  buf : Bytes
  head : UInt32
  tail : UInt32
  deriving Repr, DecidableEq

/-- How a call ends: asleep on `read_signal_`, with a C++ exception, or with
a value and the object after it. The first two leave the object as it was. -/
inductive Outcome (α : Type) where
  | waits
  | throws
  | returns (a : α) (b : CircularBuffer)
  deriving Repr, DecidableEq

namespace CircularBuffer

/-- The constructor. -/
def new (sizeBytes : UInt32) : CircularBuffer :=
  { size := sizeBytes, destructorCall := false,
    buf := List.replicate sizeBytes.toNat 0, head := 0, tail := 0 }

def remainBytes (b : CircularBuffer) : UInt32 :=
  if b.head ≥ b.tail then (b.size - 1) - (b.head - b.tail)
  else b.tail - b.head - 1

def getRemainBytes (b : CircularBuffer) : UInt32 :=
  b.remainBytes

def count (b : CircularBuffer) : UInt32 :=
  (b.size - 1) - b.remainBytes

def checkFreeSpace (b : CircularBuffer) (len : UInt32) : Bool :=
  if !b.destructorCall then b.count ≥ len else true

/-- The copy loop of `read`. `data + off` is the caller's pointer, moved on
by the copies so far. -/
def readLoop : Nat → CircularBuffer → Bytes → Nat → UInt32 →
    Except Fault (CircularBuffer × Bytes)
  | 0, _, _, _, _ => .error .diverges
  | fuel + 1, b, data, off, lenData =>
      if lenData > 0 then do
        let c := min32 lenData (b.size - b.tail)
        let data ← memcpy data off b.buf b.tail.toNat c.toNat
        let tail ← rem32 (b.tail + c) b.size
        readLoop fuel { b with tail := tail } data (off + c.toNat) (lenData - c)
      else
        .ok (b, data)

/-- `read(data, len, timeout)`, with the caller's `len` bytes before and
after. At most one iteration of the loop can copy nothing (with `tail_` at
`size_`), which is what the fuel allows for. -/
def read (b : CircularBuffer) (data : Bytes) (len timeout : UInt32) :
    Except Fault (Outcome (BufferError × Bytes)) :=
  if !b.checkFreeSpace len && timeout = 0 then
    .ok .waits
  else if b.count < len || b.destructorCall then
    .ok (.returns (.bufTimeout, data) b)
  else do
    let (b', data') ← readLoop (len.toNat + 2) b data 0 len
    return .returns (.bufNoError, data') b'

/-- The copy loop of `write`. -/
def writeLoop : Nat → CircularBuffer → Bytes → Nat → UInt32 → Except Fault CircularBuffer
  | 0, _, _, _, _ => .error .diverges
  | fuel + 1, b, data, off, lenData =>
      if lenData > 0 then do
        let c := min32 lenData (b.size - b.head)
        let buf ← memcpy b.buf b.head.toNat data off c.toNat
        let head ← rem32 (b.head + c) b.size
        writeLoop fuel { b with buf := buf, head := head } data (off + c.toNat) (lenData - c)
      else
        .ok b

def write (b : CircularBuffer) (data : Bytes) (len : UInt32) :
    Except Fault (BufferError × CircularBuffer) := do
  let overflow := len > b.remainBytes
  let b' ← writeLoop (len.toNat + 2) b data 0 len
  if overflow then do
    let tail ← rem32 (b'.head + 1) b'.size
    return (.bufOverflow, { b' with tail := tail })
  else
    return (.bufNoError, b')

def clearBuffer (b : CircularBuffer) : CircularBuffer :=
  { b with head := 0, tail := 0 }

def eraseBuffer (b : CircularBuffer) : CircularBuffer :=
  { b with buf := resize b.buf 0 }

def setNewBufferSize (b : CircularBuffer) (size : Nat) : CircularBuffer :=
  { b with buf := resize b.buf size }

def setSize (b : CircularBuffer) (size : UInt32) : CircularBuffer :=
  { b with size := size }

/-- `read_next_byte`: a `read` of one byte into an uninitialised local. -/
def readNextByte (b : CircularBuffer) : Except Fault (Outcome UInt8) := do
  match ← b.read [0] 1 0 with
  | .returns (.bufNoError, [data]) b' => return .returns data b'
  | .returns _ _ => .error .uninitialised
  | .waits => return .waits
  | .throws => return .throws

/-- `get_all_bytes`. From `2^31` on `int len = count()` is negative and
`data.resize(len)` throws `std::length_error`. -/
def getAllBytes (b : CircularBuffer) : Except Fault (Outcome Bytes) :=
  let len := b.count
  if len ≥ 0x80000000 then
    return .throws
  else do
    match ← b.read (List.replicate len.toNat 0) len 0 with
    | .returns (_, data) b' => return .returns data b'
    | .waits => return .waits
    | .throws => return .throws

end CircularBuffer

/-! ## Calls as data -/

/-- The bytes a caller hands over, with a length that a `uint32_t` holds. -/
structure Chunk where
  bytes : Bytes
  bound : bytes.length < 2 ^ 32
  deriving DecidableEq

def Chunk.len (c : Chunk) : UInt32 :=
  UInt32.ofNat c.bytes.length

@[simp] theorem Chunk.len_toNat (c : Chunk) : c.len.toNat = c.bytes.length :=
  UInt32.toNat_ofNat_of_lt' c.bound

/-- An array of `len` zeroes to read into. -/
def zeros (len : UInt32) : Chunk :=
  ⟨List.replicate len.toNat 0, by rw [List.length_replicate]; exact len.toNat_lt⟩

theorem zeros_length (len : UInt32) : (zeros len).bytes.length = len.toNat :=
  List.length_replicate

@[simp] theorem zeros_len (len : UInt32) : (zeros len).len = len := by
  apply UInt32.toNat_inj.mp
  rw [Chunk.len_toNat, zeros_length]

/-- The calls that leave the size of the buffer alone. -/
inductive QueueCall where
  | write (data : Chunk)
  | read (data : Chunk) (timeout : UInt32)
  | readNextByte
  | getAllBytes
  | clearBuffer
  deriving DecidableEq

/-- What a caller sees of a call. -/
inductive Reply where
  | waits
  | throws
  | done
  | wrote (ret : BufferError)
  | read (ret : BufferError) (data : Bytes)
  | byte (c : UInt8)
  | bytes (data : Bytes)
  deriving Repr, DecidableEq

/-- The reply to a call that may wait, and the object after it. -/
def Outcome.reply {α : Type} (f : α → Reply) (b : CircularBuffer) :
    Outcome α → Reply × CircularBuffer
  | .waits => (.waits, b)
  | .throws => (.throws, b)
  | .returns a b' => (f a, b')

namespace CircularBuffer

def queueCall (b : CircularBuffer) : QueueCall → Except Fault (Reply × CircularBuffer)
  | .write data => do
      let (ret, b') ← b.write data.bytes data.len
      return (.wrote ret, b')
  | .read data timeout => do
      return (← b.read data.bytes data.len timeout).reply (fun r => .read r.1 r.2) b
  | .readNextByte => do return (← b.readNextByte).reply .byte b
  | .getAllBytes => do return (← b.getAllBytes).reply .bytes b
  | .clearBuffer => .ok (.done, b.clearBuffer)

end CircularBuffer

end HpLib
