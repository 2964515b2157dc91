import HpLib.Common.ByteQueue
import HpLib.Lib.Prog
import HpLib.Peripheral.Packet

/-!
# MessageExtractor

`peripheral/src/message_extractor.cc` as a program that asks its buffer for
bytes. `find_message` sleeps inside `buffer_->read` until the peer has sent
enough, so what it does between two reads is a step and the reads are its
requests; `system` runs it against a `CircularBuffer` that the peer writes
into.

The constructor does not set `extractor_`. `reading` is the extractor with
`extractor_` taken as the packet structure it was given, which is how the
source means it.
-/

namespace HpLib

open Lib

/-- What `find_message` asks of the world: bytes from the buffer, or the
user's `packet_section_error`. -/
inductive Request where
  | read (len : UInt32)
  | packetSectionError (error : PacketErrors) (packet : SectionTexts)
  deriving Repr, DecidableEq

/-- A read that returns has filled all the bytes it was given. -/
def Request.Answer : Request → Type
  | .read len => { bytes : Bytes // bytes.length = len.toNat }
  | .packetSectionError _ _ => Unit

abbrev Extract : Type → Type :=
  Prog Request Request.Answer Fault

def ask (r : Request) : Extract r.Answer :=
  Prog.request r

/-- The `std::string` that a `const char*` converts to. -/
def cString (data : Bytes) : Bytes :=
  data.takeWhile (· ≠ 0)

/-- Following a pointer. -/
def deref {α : Type} : Option α → Extract α
  | some a => pure a
  | none => .fail .nullDeref

structure MessageExtractor (M : Type) where
  packetStructure : PacketStructure M
  packetSections : List (Section M)
  extractor : Option (PacketStructure M)

variable {M : Type}

/-- The local variables of one pass. `msg` belongs to the call and is handed
from pass to pass. -/
structure Locals (M : Type) where
  msg : Option M
  footer : Bytes := []
  data : Bytes := []
  cmd : Bytes := []
  len : Bytes := []
  crc : Bytes := []
  isFooterOk : Bool := true
  isCmdNull : Bool := false
  canFindLength : Bool := false
  dataLen : UInt32 := 0
  dataSize : UInt32 := 0

namespace MessageExtractor

/-- The constructor, for a structure whose `init_packet_structure` is given. -/
def new (packetStructure : PacketStructure M)
    (initPacketStructure : List (Section M) → List (Section M)) :
    Except Fault (MessageExtractor M) := do
  let p := packetStructure.initPacket initPacketStructure
  let packetSections := p.packet
  let (_, p) ← p.isPacketSectionsCorrect packetSections
  return { packetStructure := p, packetSections := packetSections, extractor := none }

def reading (x : MessageExtractor M) : MessageExtractor M :=
  { x with extractor := some x.packetStructure }

/-- Following `extractor_`. -/
def structureOf (x : MessageExtractor M) : Extract (PacketStructure M) :=
  match x.extractor with
  | some p => pure p
  | none => .fail .uninitialised

/-- `data[i]` of a string that ends in a zero. -/
def byteAt (data : Bytes) (i : Nat) : Except Fault UInt8 :=
  match data[i]? with
  | some c => .ok c
  | none => .error .outOfBounds

/-- `calc_len`. Case 3 falls through to case 4; only case 1 lets the `char`
keep its sign. -/
def calcLen (data : Bytes) (size : UInt32) (isMsb : Bool) : Except Fault Int32 := do
  match size.toNat with
  | 1 => return (← byteAt data 0).toInt8.toInt32
  | 2 =>
      let d0 := (← byteAt data 0).toUInt32
      let d1 := (← byteAt data 1).toUInt32
      if isMsb then return (d0 <<< 8 ||| d1).toInt32
      else return (d1 <<< 8 ||| d0).toInt32
  | 3 | 4 =>
      let d0 := (← byteAt data 0).toUInt32
      let d1 := (← byteAt data 1).toUInt32
      let d2 := (← byteAt data 2).toUInt32
      let d3 := (← byteAt data 3).toUInt32
      if isMsb then return (d0 <<< 24 ||| d1 <<< 16 ||| d2 <<< 8 ||| d3).toInt32
      else return (d3 <<< 24 ||| d2 <<< 16 ||| d1 <<< 8 ||| d0).toInt32
  | _ => return 0

/-- `buffer_->read_next_byte()`, a read of one byte. -/
def readNextByte : Extract UInt8 := do
  let bytes ← ask (.read 1)
  return bytes.val.headD 0

def getNextBytesLoop : Nat → Extract Bytes
  | 0 => pure []
  | k + 1 => do
      let c ← readNextByte
      let rest ← getNextBytesLoop k
      return c :: rest

def getNextBytes (size : UInt32) : Extract Bytes :=
  getNextBytesLoop size.toNat

/-- Its body is commented out. -/
def findHeader : Extract Unit :=
  pure ()

section

variable [SerializableMessage M] (x : MessageExtractor M)

/-- `case PacketSections::CMD`. -/
def readCmd (v : Locals M) : Extract (Locals M) := do
  let c ← deref (← x.structureOf).cmd
  let cmd ← getNextBytes c.sizeBytes
  let factory ← deref c.msgFactory
  match factory (cString cmd) with
  | some msg => return { v with cmd := cmd, msg := some msg }
  | none => do
      let h ← deref (← x.structureOf).header
      let _ ← ask (.packetSectionError .wrongCmd [(.header, h.content), (.cmd, cmd)])
      return { v with cmd := cmd, msg := none, isCmdNull := true }

/-- `case PacketSections::Length`. -/
def readLength (v : Locals M) : Extract (Locals M) := do
  let l ← deref (← x.structureOf).length
  let len ← getNextBytes l.sizeBytes
  let lenVal ← Prog.ofExcept (calcLen (len ++ [0]) l.sizeBytes l.isFirstByteMsb)
  return { v with len := len, dataLen := lenVal.toUInt32, canFindLength := true }

/-- The size `case PacketSections::Data` settles on. -/
def dataSizeOf (v : Locals M) : Extract UInt32 := do
  let p ← x.structureOf
  if p.isLengthExist then return v.dataLen
  else
    match v.msg with
    | some msg => return UInt32.ofNat (SerializableMessage.getSerializeSize msg)
    | none => return (← deref p.data).fixSizeBytes

/-- `case PacketSections::Data`. -/
def readData (v : Locals M) : Extract (Locals M) := do
  let size ← x.dataSizeOf v
  let data ← ask (.read size)
  return { v with data := data.val, dataSize := size }

/-- `case PacketSections::CRC`. -/
def readCrc (v : Locals M) : Extract (Locals M) := do
  let c ← deref (← x.structureOf).crc
  return { v with crc := ← getNextBytes c.sizeBytes }

/-- `case PacketSections::Footer`. -/
def readFooter (v : Locals M) : Extract (Locals M) := do
  let f ← deref (← x.structureOf).footer
  return { v with footer := ← getNextBytes (UInt32.ofNat f.content.length) }

/-- The `switch` on the type of a section. -/
def readSection (v : Locals M) : PacketSections → Extract (Locals M)
  | .header => do
      findHeader
      return v
  | .cmd => x.readCmd v
  | .length => x.readLength v
  | .data => x.readData v
  | .crc => x.readCrc v
  | .footer => x.readFooter v
  | .other => return v

/-- The loop over `packet_sections_`. -/
def sectionsLoop : List (Section M) → Locals M → Extract (Locals M)
  | [], v => return v
  | s :: ss, v =>
      if v.isCmdNull || !v.isFooterOk then return v
      else do
        let v ← x.readSection v s.getType
        sectionsLoop ss v

/-- `while (!is_find_message)`. The lines that would check the CRC, call
`deserialize` and set `is_find_message` are commented out. -/
def findLoop : Nat → Option M → Bool → Extract (Option M)
  | _, msg, true => return msg
  | 0, _, false => .fail .diverges
  | fuel + 1, msg, false => do
      let v ← x.sectionsLoop x.packetSections { msg := msg }
      findLoop fuel v.msg false

/-- `find_message`, for as many passes as the fuel allows. -/
def findMessage (fuel : Nat) : Extract (Option M) :=
  x.findLoop fuel none false

/-! ## Against a buffer -/

/-- `buffer_->read(data, len)` with no timeout, on a string resized to `len`.
`none` while the read is asleep. -/
def serve (b : CircularBuffer) : (r : Request) → Option (r.Answer × CircularBuffer)
  | .read len =>
      match b.read (List.replicate len.toNat 0) len 0 with
      | .ok (.returns (.bufNoError, data) b') =>
          if h : data.length = len.toNat then some (⟨data, h⟩, b') else none
      | _ => none
  | .packetSectionError _ _ => some ((), b)

/-- The peer's bytes, as `handle_read_data` writes them. -/
def peerWrites (b : CircularBuffer) (d : Chunk) : Option CircularBuffer :=
  match b.write d.bytes d.len with
  | .ok (_, b') => some b'
  | .error _ => none

/-- A call of `find_message` while the peer goes on sending. -/
def system (b : CircularBuffer) (fuel : Nat) :
    Machine (CircularBuffer × Extract (Option M)) (Prog.ServerAct Chunk) :=
  Prog.server serve peerWrites b (x.findMessage fuel)

end

end MessageExtractor

end HpLib
