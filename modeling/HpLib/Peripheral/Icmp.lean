import HpLib.Common.CircularBuffer

/-!
# ICMP packets as Ping sees them

`ipv4_header.hpp` and `icmp_header.hpp`: reading both headers off a received
packet, and making an echo request. A stream that has failed is `none`.
-/

namespace HpLib

/-- `decode(a, b)` of two neighbouring bytes. -/
def decode16 (a b : UInt8) : UInt16 :=
  (a.toUInt16 <<< 8) + b.toUInt16

/-- `encode(a, b, n)`. -/
def encode16 (n : UInt16) : Bytes :=
  [(n >>> 8).toUInt8, n.toUInt8]

structure IcmpHeader where
  type : UInt8
  code : UInt8
  checksum : UInt16
  identifier : UInt16
  sequenceNumber : UInt16
  deriving Repr, DecidableEq

namespace IcmpHeader

def echoReply : UInt8 := 0

def echoRequest : UInt8 := 8

/-- `operator<<`. -/
def encode (h : IcmpHeader) : Bytes :=
  [h.type, h.code] ++ encode16 h.checksum ++ encode16 h.identifier ++ encode16 h.sequenceNumber

/-- `operator>>`, a read of eight bytes. -/
def decode : Bytes → Option IcmpHeader
  | type :: code :: c₀ :: c₁ :: i₀ :: i₁ :: s₀ :: s₁ :: _ =>
      some ⟨type, code, decode16 c₀ c₁, decode16 i₀ i₁, decode16 s₀ s₁⟩
  | _ => none

/-- The loop of `compute_checksum` over the body. -/
def sumBody (sum : UInt32) : Bytes → UInt32
  | [] => sum
  | [b] => sum + (b.toUInt32 <<< 8)
  | b₀ :: b₁ :: body => sumBody (sum + (b₀.toUInt32 <<< 8) + b₁.toUInt32) body

def computeChecksum (h : IcmpHeader) (body : Bytes) : IcmpHeader :=
  let sum := sumBody ((h.type.toUInt32 <<< 8) + h.code.toUInt32 + h.identifier.toUInt32
    + h.sequenceNumber.toUInt32) body
  let sum := (sum >>> 16) + (sum &&& 0xFFFF)
  let sum := sum + (sum >>> 16)
  { h with checksum := (~~~sum).toUInt16 }

end IcmpHeader

/-- `operator>>` of `ipv4_header`: twenty bytes and the options. What is left
in the stream after it. -/
def skipIpv4Header (packet : Bytes) : Option Bytes :=
  match packet with
  | [] => none
  | first :: _ =>
      let version := (first >>> 4) &&& 0xF
      let headerLength := (first &&& 0xF).toNat * 4
      if packet.length < 20 then none
      else if version ≠ 4 then none
      else if headerLength < 20 ∨ headerLength - 20 > 40 then none
      else if packet.length < headerLength then none
      else some (packet.drop headerLength)

/-- `is >> ipv4_hdr >> icmp_hdr`. -/
def readHeaders (packet : Bytes) : Option IcmpHeader :=
  (skipIpv4Header packet).bind IcmpHeader.decode

/-- The filter of `handle_receive`: an echo reply with our identifier and the
expected sequence number. -/
def isEchoReply (identifier sequenceNumber : UInt16) (packet : Bytes) : Bool :=
  match readHeaders packet with
  | some h => h.type == IcmpHeader.echoReply && h.identifier == identifier
      && h.sequenceNumber == sequenceNumber
  | none => false

/-- `"Hello!" from Asio ping.`, with the quotation marks. -/
def pingBody : Bytes :=
  [0x22, 0x48, 0x65, 0x6c, 0x6c, 0x6f, 0x21, 0x22, 0x20, 0x66, 0x72, 0x6f, 0x6d, 0x20, 0x41, 0x73,
    0x69, 0x6f, 0x20, 0x70, 0x69, 0x6e, 0x67, 0x2e]

/-- What `start_send` sends. -/
def echoRequestPacket (identifier sequenceNumber : UInt16) : Bytes :=
  let header : IcmpHeader :=
    { type := IcmpHeader.echoRequest, code := 0, checksum := 0, identifier := identifier,
      sequenceNumber := sequenceNumber }
  (header.computeChecksum pingBody).encode ++ pingBody

/-! ## Round trips -/

@[simp] theorem decode16_encode16 (n : UInt16) :
    decode16 (n >>> 8).toUInt8 n.toUInt8 = n := by
  have hlt := n.toNat_lt
  apply UInt16.toNat_inj.mp
  simp only [decode16, UInt16.toNat_add, UInt16.toNat_shiftLeft, UInt8.toNat_toUInt16,
    UInt16.toNat_toUInt8, UInt16.toNat_shiftRight, UInt16.reduceToNat, Nat.shiftLeft_eq,
    Nat.shiftRight_eq_div_pow, Nat.reduceMod, Nat.reducePow] at hlt ⊢
  omega

theorem IcmpHeader.decode_encode (h : IcmpHeader) (rest : Bytes) :
    decode (h.encode ++ rest) = some h := by
  simp [encode, encode16, decode]

/-- What a host makes of a request: the same with the type changed and a new
checksum, behind an IPv4 header of its own. -/
def echoReplyPacket (ipv4Header : Bytes) (identifier sequenceNumber : UInt16) : Bytes :=
  let header : IcmpHeader :=
    { type := IcmpHeader.echoReply, code := 0, checksum := 0, identifier := identifier,
      sequenceNumber := sequenceNumber }
  ipv4Header ++ ((header.computeChecksum pingBody).encode ++ pingBody)

/-- The answer to a request passes the filter for it. -/
theorem isEchoReply_echoReplyPacket {ipv4Header : Bytes} (hlen : ipv4Header.length = 20)
    (hfirst : ipv4Header.head? = some 0x45) (identifier sequenceNumber : UInt16) :
    isEchoReply identifier sequenceNumber
      (echoReplyPacket ipv4Header identifier sequenceNumber) = true := by
  cases ipv4Header with
  | nil => cases hlen
  | cons first rest =>
      cases hfirst
      have hskip : ∀ tail : Bytes, skipIpv4Header (0x45 :: rest ++ tail) = some tail := by
        intro tail
        have hl : ¬ (0x45 :: rest ++ tail).length < 20 := by
          rw [List.length_append, hlen]
          omega
        show (if (0x45 :: rest ++ tail).length < 20 then none
          else if (0x45 :: rest ++ tail).length < 20 then none
          else some ((0x45 :: rest ++ tail).drop 20)) = some tail
        rw [if_neg hl, if_neg hl, ← hlen, List.drop_left]
      rw [isEchoReply, readHeaders, echoReplyPacket, hskip, Option.bind_some,
        IcmpHeader.decode_encode]
      simp [IcmpHeader.computeChecksum]

end HpLib
