import HpLib.Common.CircularBuffer

/-!
# Packet structures

The sections of `abstract_message.h` and what `is_packet_sections_correct`
collects from a list of them. A null `shared_ptr` is `none`; the virtual
functions that a user implements are arguments. `Other` reports the type
`Data`, as in the source, so the cast that follows gives null.
-/

namespace HpLib

/-- `enum PacketSections`; `bit` is the value of an enumerator. -/
inductive PacketSections where
  | header
  | length
  | cmd
  | footer
  | crc
  | data
  | other
  deriving Repr, DecidableEq

def PacketSections.bit : PacketSections → UInt8
  | .header => 1
  | .length => 2
  | .cmd => 4
  | .footer => 8
  | .crc => 16
  | .data => 32
  | .other => 64

/-- `enum class PacketErrors`. -/
inductive PacketErrors where
  | wrongCrc
  | wrongFooter
  | wrongCmd
  | wrongLengthInclude
  deriving Repr, DecidableEq

/-- `AbstractSerializableMessage`. `serialize` is what it writes into a
buffer large enough, `deserialize` the message after reading one. -/
class SerializableMessage (M : Type) where
  serialize : M → Bytes
  deserialize : M → Bytes → M
  getSerializeSize : M → Nat

/-- A message that is its bytes. -/
structure Blob where
  bytes : Bytes
  deriving Repr, DecidableEq

instance : SerializableMessage Blob where
  serialize m := m.bytes
  deserialize _ bytes := ⟨bytes⟩
  getSerializeSize m := m.bytes.length

/-- `std::map<PacketSections, std::string>`. -/
abbrev SectionTexts : Type := List (PacketSections × Bytes)

structure HeaderSection where
  content : Bytes

structure FooterSection where
  content : Bytes

/-- `build_message` of the factory may return null. -/
structure CMDSection (M : Type) where
  sizeBytes : UInt32
  msgFactory : Option (Bytes → Option M)

structure LengthSection where
  sizeBytes : UInt32
  includeMask : UInt8
  isFirstByteMsb : Bool

structure DataSection where
  fixSizeBytes : UInt32

/-- `crcChecker` is `AbstractCRC::is_valid`. -/
structure CRCSection where
  sizeBytes : UInt32
  includeMask : UInt8
  crcChecker : Option (SectionTexts → Bytes → Bool)

structure Other where
  sizeBytes : UInt32

inductive Section (M : Type) where
  | header (s : HeaderSection)
  | length (s : LengthSection)
  | cmd (s : CMDSection M)
  | footer (s : FooterSection)
  | crc (s : CRCSection)
  | data (s : DataSection)
  | other (s : Other)

variable {M : Type}

def Section.getType : Section M → PacketSections
  | .header _ => .header
  | .length _ => .length
  | .cmd _ => .cmd
  | .footer _ => .footer
  | .crc _ => .crc
  | .data _ => .data
  | .other _ => .data

/-- `AbstractPacketStructure`, with the pointers and flags that
`is_packet_sections_correct` sets. -/
structure PacketStructure (M : Type) where
  packet : List (Section M) := []
  header : Option HeaderSection := none
  footer : Option FooterSection := none
  length : Option LengthSection := none
  data : Option DataSection := none
  cmd : Option (CMDSection M) := none
  crc : Option CRCSection := none
  isHeaderExist : Bool := false
  isFooterExist : Bool := false
  isLengthExist : Bool := false
  isDataExist : Bool := false
  isCmdExist : Bool := false
  isCrcExist : Bool := false

namespace PacketStructure

/-- The user's `init_packet_structure` appends to the vector it is given. -/
def initPacket (p : PacketStructure M)
    (initPacketStructure : List (Section M) → List (Section M)) : PacketStructure M :=
  { p with packet := initPacketStructure p.packet }

/-- One round of the loop of `is_packet_sections_correct`. -/
def visit (p : PacketStructure M) : Section M → Except Fault (PacketStructure M)
  | .header s => .ok { p with header := some s, isHeaderExist := true }
  | .cmd s => .ok { p with cmd := some s, isCmdExist := true }
  | .length s => .ok { p with length := some s, isLengthExist := true }
  | .data s => .ok { p with data := some s, isDataExist := true }
  | .crc s => .ok { p with crc := some s, isCrcExist := true }
  | .footer s => .ok { p with footer := some s, isFooterExist := true }
  | .other _ => .error .nullDeref

def isPacketSectionsCorrect (p : PacketStructure M) (packetSections : List (Section M)) :
    Except Fault (Bool × PacketStructure M) := do
  let p ← packetSections.foldlM visit p
  return (true, p)

/-! ## What an accepted structure has -/

/-- The pointer for a type of section is set. -/
def Covers (p : PacketStructure M) : PacketSections → Prop
  | .header => p.header.isSome = true
  | .length => p.length.isSome = true ∧ p.isLengthExist = true
  | .cmd => p.cmd.isSome = true
  | .footer => p.footer.isSome = true
  | .crc => p.crc.isSome = true
  | .data => p.data.isSome = true
  | .other => True

theorem visit_covers {p p' : PacketStructure M} {s : Section M} (h : p.visit s = .ok p') :
    p'.Covers s.getType ∧ ∀ t, p.Covers t → p'.Covers t := by
  cases s with
  | other s => cases h
  | length s =>
      cases h
      refine ⟨⟨rfl, rfl⟩, fun t ht => ?_⟩
      cases t <;> first | exact ht | exact ⟨rfl, rfl⟩
  | _ =>
      cases h
      refine ⟨rfl, fun t ht => ?_⟩
      cases t <;> first | exact ht | rfl

/-- Every section of an accepted list has its pointer set. -/
theorem foldlM_visit_covers {p p' : PacketStructure M} {ss : List (Section M)}
    (h : ss.foldlM visit p = .ok p') :
    (∀ s ∈ ss, p'.Covers s.getType) ∧ ∀ t, p.Covers t → p'.Covers t := by
  induction ss generalizing p with
  | nil =>
      cases h
      exact ⟨nofun, fun t ht => ht⟩
  | cons s ss ih =>
      rw [List.foldlM_cons] at h
      obtain ⟨u, hv, h⟩ := bind_eq_ok.mp h
      obtain ⟨hself, hkeep⟩ := visit_covers hv
      obtain ⟨hrest, hkeep'⟩ := ih h
      refine ⟨fun t ht => ?_, fun t ht => hkeep' t (hkeep t ht)⟩
      rcases List.mem_cons.mp ht with rfl | ht
      · exact hkeep' _ hself
      · exact hrest t ht

end PacketStructure

end HpLib
