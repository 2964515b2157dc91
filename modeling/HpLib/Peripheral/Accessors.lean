import HpLib.Peripheral.Partition
import HpLib.Peripheral.Validation

/-!
# Packet structures: what the accessors say

The accessors of `AbstractPacketStructure` after the constructor of
`MessageExtractor`, next to the list of sections they speak of. The pointers
are right: each is the last section of its kind. Of the flags, `is_crc_exist`
hands out the one of CMD, and nothing sets the eleven that say what the
include masks name: `set_crc_include_sections` is never called, and there is
no such function for the length.
-/

namespace HpLib

variable {M : Type}

/-- `AbstractPacketStructure` with its include flags; `sections` is the rest. -/
structure AbstractPacketStructure (M : Type) where
  sections : PacketStructure M := {}
  crcIncludeHeader : Bool := false
  crcIncludeFooter : Bool := false
  crcIncludeLength : Bool := false
  crcIncludeData : Bool := false
  crcIncludeCmd : Bool := false
  lengthIncludeHeader : Bool := false
  lengthIncludeFooter : Bool := false
  lengthIncludeLength : Bool := false
  lengthIncludeData : Bool := false
  lengthIncludeCmd : Bool := false
  lengthIncludeCrc : Bool := false

namespace AbstractPacketStructure

/-- What the constructor of `MessageExtractor` makes of its packet structure. -/
def afterConstructor (p : AbstractPacketStructure M)
    (initPacketStructure : List (Section M) → List (Section M)) :
    Except Fault (AbstractPacketStructure M) := do
  let x ← MessageExtractor.new p.sections initPacketStructure
  return { p with sections := x.packetStructure }

/-- `set_crc_include_sections`. Nobody calls it. -/
def setCrcIncludeSections (p : AbstractPacketStructure M) (crc : CRCSection) :
    AbstractPacketStructure M :=
  { p with
    crcIncludeData := p.crcIncludeData || includes crc.includeMask .data
    crcIncludeCmd := p.crcIncludeCmd || includes crc.includeMask .cmd
    crcIncludeLength := p.crcIncludeLength || includes crc.includeMask .length
    crcIncludeFooter := p.crcIncludeFooter || includes crc.includeMask .footer
    crcIncludeHeader := p.crcIncludeHeader || includes crc.includeMask .header }

variable (p : AbstractPacketStructure M)

def isLengthIncludeHeader : Bool := p.lengthIncludeHeader
def isLengthIncludeFooter : Bool := p.lengthIncludeFooter
def isLengthIncludeLength : Bool := p.lengthIncludeLength
def isLengthIncludeData : Bool := p.lengthIncludeData
def isLengthIncludeCmd : Bool := p.lengthIncludeCmd
def isLengthIncludeCrc : Bool := p.lengthIncludeCrc

def isCrcIncludeHeader : Bool := p.crcIncludeHeader
def isCrcIncludeFooter : Bool := p.crcIncludeFooter
def isCrcIncludeLength : Bool := p.crcIncludeLength
def isCrcIncludeData : Bool := p.crcIncludeData
def isCrcIncludeCmd : Bool := p.crcIncludeCmd

def isHeaderExist : Bool := p.sections.isHeaderExist
def isLengthExist : Bool := p.sections.isLengthExist
def isFooterExist : Bool := p.sections.isFooterExist
def isDataExist : Bool := p.sections.isDataExist
def isCmdExist : Bool := p.sections.isCmdExist
/-- It returns `is_cmd_exist_`. -/
def isCrcExist : Bool := p.sections.isCmdExist

def getHeader : Option HeaderSection := p.sections.header
def getLength : Option LengthSection := p.sections.length
def getFooter : Option FooterSection := p.sections.footer
def getData : Option DataSection := p.sections.data
def getCmd : Option (CMDSection M) := p.sections.cmd
def getCrc : Option CRCSection := p.sections.crc

/-! ## The accessors by kind -/

/-- `is_X_exist`. -/
def isExist : PacketSections → Option Bool
  | .header => some p.isHeaderExist
  | .length => some p.isLengthExist
  | .footer => some p.isFooterExist
  | .data => some p.isDataExist
  | .cmd => some p.isCmdExist
  | .crc => some p.isCrcExist
  | .other => none

/-- `get_X`. -/
def get : PacketSections → Option (Section M)
  | .header => p.getHeader.map .header
  | .length => p.getLength.map .length
  | .footer => p.getFooter.map .footer
  | .data => p.getData.map .data
  | .cmd => p.getCmd.map .cmd
  | .crc => p.getCrc.map .crc
  | .other => none

/-- `is_length_include_Y`. -/
def isLengthInclude : PacketSections → Option Bool
  | .header => some p.isLengthIncludeHeader
  | .footer => some p.isLengthIncludeFooter
  | .length => some p.isLengthIncludeLength
  | .data => some p.isLengthIncludeData
  | .cmd => some p.isLengthIncludeCmd
  | .crc => some p.isLengthIncludeCrc
  | .other => none

/-- `is_crc_include_Y`. There is none for CRC. -/
def isCrcInclude : PacketSections → Option Bool
  | .header => some p.isCrcIncludeHeader
  | .footer => some p.isCrcIncludeFooter
  | .length => some p.isCrcIncludeLength
  | .data => some p.isCrcIncludeData
  | .cmd => some p.isCrcIncludeCmd
  | .crc | .other => none

end AbstractPacketStructure

/-- The last section of a kind. -/
def lastOf (ss : List (Section M)) (k : PacketSections) : Option (Section M) :=
  ss.reverse.find? fun s => s.kind = k

/-- The include mask of the last Length section. -/
def lastLengthMask (ss : List (Section M)) : Option UInt8 :=
  match lastOf ss .length with
  | some (.length s) => some s.includeMask
  | _ => none

/-- The include mask of the last CRC section. -/
def lastCrcMask (ss : List (Section M)) : Option UInt8 :=
  match lastOf ss .crc with
  | some (.crc s) => some s.includeMask
  | _ => none

/-- Every accessor says what the list says. -/
structure AbstractPacketStructure.Mirrors (p : AbstractPacketStructure M)
    (ss : List (Section M)) : Prop where
  exist : ∀ k b, p.isExist k = some b → (b = true ↔ ∃ s ∈ ss, s.kind = k)
  get : ∀ k, p.get k = lastOf ss k
  lengthInclude : ∀ k b, p.isLengthInclude k = some b →
    (b = true ↔ ∃ mask, lastLengthMask ss = some mask ∧ includes mask k = true)
  crcInclude : ∀ k b, p.isCrcInclude k = some b →
    (b = true ↔ ∃ mask, lastCrcMask ss = some mask ∧ includes mask k = true)

/-- A list on which they do: it has both CRC and CMD or neither, and the
masks that count name nothing an accessor is asked for. -/
structure Mirrorable (ss : List (Section M)) : Prop where
  crcCmd : (∃ s ∈ ss, s.kind = .crc) ↔ ∃ s ∈ ss, s.kind = .cmd
  lengthMask : ∀ mask, lastLengthMask ss = some mask → ∀ k, k ≠ .other →
    includes mask k = false
  crcMask : ∀ mask, lastCrcMask ss = some mask → ∀ k, k ≠ .crc → k ≠ .other →
    includes mask k = false

/-! ## The fold -/

namespace PacketStructure

/-- The pointer for a kind of section. There is none for `Other`. -/
def pointer (p : PacketStructure M) : PacketSections → Option (Section M)
  | .header => p.header.map .header
  | .length => p.length.map .length
  | .cmd => p.cmd.map .cmd
  | .footer => p.footer.map .footer
  | .crc => p.crc.map .crc
  | .data => p.data.map .data
  | .other => none

theorem pointer_visit {p p' : PacketStructure M} {s : Section M} (h : p.visit s = .ok p')
    (k : PacketSections) : p'.pointer k = if s.kind = k then some s else p.pointer k := by
  cases s with
  | other s => cases h
  | _ =>
      cases h
      cases k <;> rfl

/-- Each pointer ends up at the last section of its kind. -/
theorem pointer_foldlM {p p' : PacketStructure M} {ss : List (Section M)}
    (h : ss.foldlM visit p = .ok p') (k : PacketSections) :
    p'.pointer k = (lastOf ss k).or (p.pointer k) := by
  induction ss generalizing p with
  | nil =>
      cases h
      rfl
  | cons s ss ih =>
      rw [List.foldlM_cons] at h
      obtain ⟨u, hv, h⟩ := bind_eq_ok.mp h
      have hlast : lastOf (s :: ss) k
          = (lastOf ss k).or (if s.kind = k then some s else none) := by
        rw [lastOf, List.reverse_cons, List.find?_append, lastOf]
        by_cases hk : s.kind = k <;> simp [hk]
      rw [ih h, pointer_visit hv, hlast, Option.or_assoc]
      by_cases hk : s.kind = k <;> simp [hk]

end PacketStructure

namespace AbstractPacketStructure

/-- The accessors mirror the sections that `init_packet_structure` puts into
a fresh structure. -/
def MirrorsAfter (init : List (Section M) → List (Section M)) : Prop :=
  ∃ p, ({} : AbstractPacketStructure M).afterConstructor init = .ok p ∧ p.Mirrors (init [])

/-- The constructor runs the loop and leaves the include flags down. -/
theorem exists_afterConstructor {init : List (Section M) → List (Section M)}
    (hkinds : ∀ s ∈ init [], s.kind ≠ .other) :
    ∃ q, (init []).foldlM PacketStructure.visit ({ packet := init [] } : PacketStructure M) = .ok q ∧
      ({} : AbstractPacketStructure M).afterConstructor init = .ok { sections := q } := by
  obtain ⟨q, hq⟩ := (PacketStructure.exists_foldlM_visit
    (p := ({ packet := init [] } : PacketStructure M))).mpr hkinds
  refine ⟨q, hq, ?_⟩
  exact bind_eq_ok.mpr ⟨_, MessageExtractor.new_eq_ok.mpr ⟨q, hq, rfl⟩, rfl⟩

/-- Each pointer is the last section of its kind. -/
theorem get_eq_lastOf {q : PacketStructure M} {ss packet : List (Section M)}
    (hq : ss.foldlM PacketStructure.visit { packet := packet } = .ok q) (k : PacketSections) :
    ({ sections := q } : AbstractPacketStructure M).get k = lastOf ss k := by
  have hget : ({ sections := q } : AbstractPacketStructure M).get k = q.pointer k := by
    cases k <;> rfl
  have hfresh : ({ packet := packet } : PacketStructure M).pointer k = none := by
    cases k <;> rfl
  rw [hget, PacketStructure.pointer_foldlM hq k, hfresh, Option.or_none]

/-- The flag of a kind is up when a section of it is there. -/
theorem flag_iff {q : PacketStructure M} {ss packet : List (Section M)}
    (hq : ss.foldlM PacketStructure.visit { packet := packet } = .ok q) {k : PacketSections}
    {b : Bool} (hb : q.flag k = some b) : b = true ↔ ∃ s ∈ ss, s.kind = k := by
  have hflag := PacketStructure.flag_foldlM hq k
  rw [hb] at hflag
  have hany : b = ss.any fun s => s.kind == k := by
    cases k with
    | other => cases hflag
    | _ => simpa [PacketStructure.flag] using hflag
  rw [hany, List.any_eq_true]
  simp

/-- With the flags for the masks down, an accessor is right when the mask
that counts does not name its kind. -/
theorem include_iff (mask : Option UInt8) {f : PacketSections → Option Bool}
    (hdown : ∀ k b, f k = some b → b = false) :
    (∀ k b, f k = some b → (b = true ↔ ∃ m, mask = some m ∧ includes m k = true)) ↔
      ∀ m, mask = some m → ∀ k, f k ≠ none → includes m k = false := by
  constructor
  · intro h m hm k hk
    obtain ⟨b, hb⟩ := Option.ne_none_iff_exists'.mp hk
    rw [Bool.eq_false_iff]
    intro hin
    have hup := (h k b hb).mpr ⟨m, hm, hin⟩
    rw [hdown k b hb] at hup
    cases hup
  · intro h k b hb
    rw [hdown k b hb]
    refine ⟨nofun, ?_⟩
    rintro ⟨m, hm, hin⟩
    rw [h m hm k (by rw [hb]; nofun)] at hin
    cases hin

/-- The flags say what is there, all but the one of CRC, which asks for CMD. -/
theorem exist_iff {q : PacketStructure M} {ss packet : List (Section M)}
    (hq : ss.foldlM PacketStructure.visit { packet := packet } = .ok q) :
    (∀ k b, ({ sections := q } : AbstractPacketStructure M).isExist k = some b →
        (b = true ↔ ∃ s ∈ ss, s.kind = k)) ↔
      ((∃ s ∈ ss, s.kind = .crc) ↔ ∃ s ∈ ss, s.kind = .cmd) := by
  have hcmd : q.isCmdExist = true ↔ ∃ s ∈ ss, s.kind = .cmd :=
    flag_iff hq (k := .cmd) rfl
  constructor
  · intro h
    rw [← hcmd]
    exact (h .crc _ rfl).symm
  · intro h k b hb
    cases k with
    | crc =>
        cases hb
        exact hcmd.trans h.symm
    | _ => exact flag_iff hq hb

/-- **Which lists the accessors mirror.** -/
theorem mirrorsAfter_iff (init : List (Section M) → List (Section M))
    (hkinds : ∀ s ∈ init [], s.kind ≠ .other) : MirrorsAfter init ↔ Mirrorable (init []) := by
  obtain ⟨q, hq, hrun⟩ := exists_afterConstructor hkinds
  have hlength := include_iff (lastLengthMask (init []))
    (f := ({ sections := q } : AbstractPacketStructure M).isLengthInclude)
    (by intro k b hb; cases k <;> cases hb <;> rfl)
  have hcrc := include_iff (lastCrcMask (init []))
    (f := ({ sections := q } : AbstractPacketStructure M).isCrcInclude)
    (by intro k b hb; cases k <;> cases hb <;> rfl)
  constructor
  · rintro ⟨p, hp, hm⟩
    rw [hrun] at hp
    cases hp
    refine ⟨(exist_iff hq).mp hm.exist, ?_, ?_⟩
    · intro mask hmask k hk
      exact hlength.mp hm.lengthInclude mask hmask k (by cases k <;> first | contradiction | nofun)
    · intro mask hmask k hk hk'
      exact hcrc.mp hm.crcInclude mask hmask k (by cases k <;> first | contradiction | nofun)
  · intro h
    refine ⟨_, hrun, (exist_iff hq).mpr h.crcCmd, get_eq_lastOf hq, hlength.mpr ?_, hcrc.mpr ?_⟩
    · intro mask hmask k hk
      exact h.lengthMask mask hmask k (by rintro rfl; exact hk rfl)
    · intro mask hmask k hk
      exact h.crcMask mask hmask k (by rintro rfl; exact hk rfl) (by rintro rfl; exact hk rfl)

/-- The call that is missing would have been right. -/
theorem setCrcIncludeSections_spec (q : PacketStructure M) (crc : CRCSection) {k : PacketSections}
    {b : Bool}
    (hb : (({ sections := q } : AbstractPacketStructure M).setCrcIncludeSections crc).isCrcInclude k
      = some b) : b = includes crc.includeMask k := by
  cases k <;> cases hb <;> rfl

/-- Two Length sections, the masks of the last ones empty. -/
def emptyMasks : List (Section Blob) :=
  [.header ⟨[0xaa]⟩, .length ⟨2, PacketSections.data.bit, true⟩, .cmd ⟨1, none⟩, .length ⟨1, 0, true⟩,
    .data ⟨0⟩, .crc ⟨2, 0, none⟩, .footer ⟨[0xbb]⟩]

theorem mirrorsAfter_emptyMasks : MirrorsAfter fun _ => emptyMasks := by
  refine (mirrorsAfter_iff (fun _ => emptyMasks) ?_).mpr ⟨?_, ?_, ?_⟩
  · simp [emptyMasks, Section.kind]
  · simp [emptyMasks, Section.kind]
  · rintro mask ⟨⟩ k -
    cases k <;> decide
  · rintro mask ⟨⟩ k - -
    cases k <;> decide

/-- A command and no CRC: `is_crc_exist()` is true, and `get_crc()` null. -/
theorem command_seen_as_crc :
    ¬ ∀ init : List (Section Blob) → List (Section Blob), (∀ s ∈ init [], s.kind ≠ .other) →
      MirrorsAfter init := by
  intro hall
  obtain ⟨p, hp, hm⟩ := hall (fun _ => [.cmd ⟨1, none⟩]) (by simp [Section.kind])
  cases hp
  obtain ⟨s, hs, hk⟩ := (hm.exist .crc true rfl).mp rfl
  rw [List.mem_singleton] at hs
  rw [hs] at hk
  cases hk

end AbstractPacketStructure

end HpLib
