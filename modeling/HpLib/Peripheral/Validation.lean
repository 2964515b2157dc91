import HpLib.Peripheral.Packet

/-!
# Packet structures: what the validation reports

`is_packet_sections_correct` with its calls of `get_packet_define_error`,
next to the defects a list of sections can have. The function collects
pointers and flags and returns true: nothing calls `is_crc_ok` or
`is_length_include_ok`, and nothing else looks for a defect. So it answers
rightly on the lists without any defect and on no others.
-/

namespace HpLib

/-- `enum class PacketDefineErrors`. -/
inductive PacketDefineErrors where
  | crcIncludeDataButPacketNot
  | crcIncludeFooterButPacketNot
  | crcIncludeHeaderButPacketNot
  | crcIncludeLengthButPacketNot
  | crcIncludeCmdButPacketNot
  | lengthIncludeDataButPacketNot
  | lengthIncludeFooterButPacketNot
  | lengthIncludeHeaderButPacketNot
  | lengthIncludeCrcButPacketNot
  | lengthIncludeCmdButPacketNot
  | packetNotIncludeHeader
  | cmdFactoryNull
  | crcCheckerNull
  | noError
  deriving Repr, DecidableEq

/-- A computation that calls `get_packet_define_error`. The state is the
arguments of the calls so far. -/
abbrev Reporting (α : Type) : Type := StateT (List PacketDefineErrors) (Except Fault) α

def getPacketDefineError (error : PacketDefineErrors) : Reporting Unit :=
  modify fun errors => errors ++ [error]

/-- `include & section`, as a condition. -/
def includes (mask : UInt8) (k : PacketSections) : Bool :=
  mask &&& k.bit != 0

variable {M : Type}

namespace PacketStructure

/-- `is_packet_sections_correct`, with what it reports. -/
def checkSections (p : PacketStructure M) (packetSections : List (Section M)) :
    Reporting (Bool × PacketStructure M) := do
  let p ← packetSections.foldlM (fun p s => liftM (p.visit s)) p
  return (true, p)

def reportIf (cond : Bool) (error : PacketDefineErrors) : Reporting Unit :=
  if cond then getPacketDefineError error else pure ()

/-- `is_crc_ok`. A null checker is reported as `CMD_Factory_Null`. -/
def isCrcOk (p : PacketStructure M) (crc : CRCSection) : Reporting Bool := do
  reportIf (includes crc.includeMask .data && !p.isDataExist) .crcIncludeDataButPacketNot
  reportIf (includes crc.includeMask .footer && !p.isFooterExist) .crcIncludeFooterButPacketNot
  reportIf (includes crc.includeMask .header && !p.isHeaderExist) .crcIncludeHeaderButPacketNot
  reportIf (includes crc.includeMask .cmd && !p.isCmdExist) .crcIncludeCmdButPacketNot
  reportIf (includes crc.includeMask .length && !p.isLengthExist) .crcIncludeLengthButPacketNot
  reportIf crc.crcChecker.isNone .cmdFactoryNull
  return true

/-- `is_length_include_ok`. It reads the member `length_` and not its
argument, and ends without a value. -/
def isLengthIncludeOk (p : PacketStructure M) : Reporting Unit := do
  match p.length with
  | none => throw .nullDeref
  | some length =>
      reportIf (includes length.includeMask .data && !p.isDataExist) .lengthIncludeDataButPacketNot
      reportIf (includes length.includeMask .footer && !p.isFooterExist)
        .lengthIncludeFooterButPacketNot
      reportIf (includes length.includeMask .header && !p.isHeaderExist)
        .lengthIncludeHeaderButPacketNot
      reportIf (includes length.includeMask .cmd && !p.isCmdExist) .lengthIncludeCmdButPacketNot
      reportIf (includes length.includeMask .crc && !p.isCrcExist) .lengthIncludeCrcButPacketNot

end PacketStructure

/-! ## Defects -/

/-- The declared type of a section. `Other` keeps its own here, whatever it
reports. -/
def Section.kind : Section M → PacketSections
  | .header _ => .header
  | .length _ => .length
  | .cmd _ => .cmd
  | .footer _ => .footer
  | .crc _ => .crc
  | .data _ => .data
  | .other _ => .other

/-- Nothing in the list is of this kind. -/
def Absent (ss : List (Section M)) (k : PacketSections) : Prop :=
  ∀ s ∈ ss, s.kind ≠ k

/-- What can be wrong with a list of sections. -/
inductive Defect where
  | crcIncludes (k : PacketSections)
  | lengthIncludes (k : PacketSections)
  | noHeader
  | cmdFactoryNull
  | crcCheckerNull

/-- The code for a defect. There is none for a mask that includes `Other`. -/
def Defect.code : Defect → Option PacketDefineErrors
  | .crcIncludes .data => some .crcIncludeDataButPacketNot
  | .crcIncludes .footer => some .crcIncludeFooterButPacketNot
  | .crcIncludes .header => some .crcIncludeHeaderButPacketNot
  | .crcIncludes .length => some .crcIncludeLengthButPacketNot
  | .crcIncludes .cmd => some .crcIncludeCmdButPacketNot
  | .crcIncludes .crc | .crcIncludes .other => none
  | .lengthIncludes .data => some .lengthIncludeDataButPacketNot
  | .lengthIncludes .footer => some .lengthIncludeFooterButPacketNot
  | .lengthIncludes .header => some .lengthIncludeHeaderButPacketNot
  | .lengthIncludes .crc => some .lengthIncludeCrcButPacketNot
  | .lengthIncludes .cmd => some .lengthIncludeCmdButPacketNot
  | .lengthIncludes .length | .lengthIncludes .other => none
  | .noHeader => some .packetNotIncludeHeader
  | .cmdFactoryNull => some .cmdFactoryNull
  | .crcCheckerNull => some .crcCheckerNull

/-- The list has the defect. -/
def HasDefect (ss : List (Section M)) : Defect → Prop
  | .crcIncludes k => (∃ s, .crc s ∈ ss ∧ includes s.includeMask k) ∧ Absent ss k
  | .lengthIncludes k => (∃ s, .length s ∈ ss ∧ includes s.includeMask k) ∧ Absent ss k
  | .noHeader => Absent ss .header
  | .cmdFactoryNull => ∃ s, .cmd s ∈ ss ∧ s.msgFactory = none
  | .crcCheckerNull => ∃ s, .crc s ∈ ss ∧ s.crcChecker = none

namespace PacketStructure

/-- The answer to `ss` is right: no null pointer is dereferenced, the codes
reported are those of the defects, and it is true when there are none. -/
def Validates (p : PacketStructure M) (ss : List (Section M)) : Prop :=
  ∃ ret p' errors, (p.checkSections ss).run [] = .ok ((ret, p'), errors) ∧
    (∀ e, e ∈ errors ↔ ∃ d, HasDefect ss d ∧ d.code = some e) ∧
    (ret = true ↔ ∀ d, ¬ HasDefect ss d)

/-- A list that may be handed to the packet structure: it has none of the
defects, and no `Other`. -/
structure Sound (ss : List (Section M)) : Prop where
  noOther : ∀ s ∈ ss, s.kind ≠ .other
  header : ∃ s ∈ ss, s.kind = .header
  factory : ∀ s, .cmd s ∈ ss → s.msgFactory ≠ none
  checker : ∀ s, .crc s ∈ ss → s.crcChecker ≠ none
  crcIncludes : ∀ s, .crc s ∈ ss → ∀ k, includes s.includeMask k → ∃ t ∈ ss, t.kind = k
  lengthIncludes : ∀ s, .length s ∈ ss → ∀ k, includes s.includeMask k → ∃ t ∈ ss, t.kind = k

/-! ## What the loop does -/

/-- The loop reports nothing, and its value is true. -/
theorem checkSections_run (p : PacketStructure M) (ss : List (Section M))
    (errors : List PacketDefineErrors) :
    (p.checkSections ss).run errors
      = (ss.foldlM visit p).map fun p' => ((true, p'), errors) := by
  induction ss generalizing p with
  | nil => rfl
  | cons s ss ih =>
      rw [List.foldlM_cons]
      cases hv : p.visit s with
      | error e =>
          simp [checkSections, hv]
          rfl
      | ok u =>
          have hnext : (p.checkSections (s :: ss)).run errors = (u.checkSections ss).run errors := by
            simp [checkSections, hv]
            rfl
          rw [hnext, ih u]
          rfl

/-- `visit` fails at an `Other` only. -/
theorem exists_visit {p : PacketStructure M} {s : Section M} :
    (∃ p', p.visit s = .ok p') ↔ s.kind ≠ .other := by
  cases s with
  | other s => simp [visit, Section.kind]
  | _ => simp [visit, Section.kind]

theorem exists_foldlM_visit {p : PacketStructure M} {ss : List (Section M)} :
    (∃ p', ss.foldlM visit p = .ok p') ↔ ∀ s ∈ ss, s.kind ≠ .other := by
  induction ss generalizing p with
  | nil => exact ⟨fun _ => nofun, fun _ => ⟨p, rfl⟩⟩
  | cons s ss ih =>
      rw [List.forall_mem_cons, ← exists_visit (p := p), List.foldlM_cons]
      cases hv : p.visit s with
      | error e =>
          constructor
          · rintro ⟨p', h⟩
            cases h
          · rintro ⟨⟨p', h⟩, -⟩
            cases h
      | ok u =>
          rw [← ih (p := u)]
          exact ⟨fun h => ⟨⟨u, rfl⟩, h⟩, fun h => h.2⟩

theorem not_absent {ss : List (Section M)} {k : PacketSections} :
    ¬ Absent ss k ↔ ∃ s ∈ ss, s.kind = k := by
  simp [Absent]

/-- Without a defect a list is sound, an `Other` apart. -/
theorem sound_iff {ss : List (Section M)} :
    Sound ss ↔ (∀ s ∈ ss, s.kind ≠ .other) ∧ ∀ d, ¬ HasDefect ss d := by
  constructor
  · intro h
    refine ⟨h.noOther, fun d => ?_⟩
    cases d with
    | crcIncludes k =>
        rintro ⟨⟨s, hs, hk⟩, habs⟩
        exact not_absent.mpr (h.crcIncludes s hs k hk) habs
    | lengthIncludes k =>
        rintro ⟨⟨s, hs, hk⟩, habs⟩
        exact not_absent.mpr (h.lengthIncludes s hs k hk) habs
    | noHeader => exact not_absent.mpr h.header
    | cmdFactoryNull =>
        rintro ⟨s, hs, hnull⟩
        exact h.factory s hs hnull
    | crcCheckerNull =>
        rintro ⟨s, hs, hnull⟩
        exact h.checker s hs hnull
  · rintro ⟨hother, hd⟩
    constructor
    · exact hother
    · exact not_absent.mp (hd .noHeader)
    · intro s hs hnull
      exact hd .cmdFactoryNull ⟨s, hs, hnull⟩
    · intro s hs hnull
      exact hd .crcCheckerNull ⟨s, hs, hnull⟩
    · intro s hs k hk
      exact not_absent.mp fun habs => hd (.crcIncludes k) ⟨⟨s, hs, hk⟩, habs⟩
    · intro s hs k hk
      exact not_absent.mp fun habs => hd (.lengthIncludes k) ⟨⟨s, hs, hk⟩, habs⟩

/-- **The validation is right exactly on the sound lists.** -/
theorem validates_iff_sound (p : PacketStructure M) (ss : List (Section M)) :
    p.Validates ss ↔ Sound ss := by
  rw [sound_iff, ← exists_foldlM_visit (p := p)]
  constructor
  · rintro ⟨ret, p', errors, hrun, -, hret⟩
    rw [checkSections_run] at hrun
    cases hf : ss.foldlM visit p with
    | error e =>
        rw [hf] at hrun
        cases hrun
    | ok u =>
        rw [hf] at hrun
        cases hrun
        exact ⟨⟨_, rfl⟩, hret.mp rfl⟩
  · rintro ⟨⟨p', hf⟩, hd⟩
    refine ⟨true, p', [], ?_, ?_, ?_⟩
    · rw [checkSections_run, hf]
      rfl
    · intro e
      simp [hd]
    · simp [hd]

end PacketStructure

/-- `Include_Packet_Wrong` of the extractor's test: two masks that name a
header and a command, and neither is there. -/
def includePacketWrong : List (Section Blob) :=
  let mask := PacketSections.header.bit ||| PacketSections.cmd.bit ||| PacketSections.footer.bit
  [.length ⟨2, mask, true⟩, .data ⟨0⟩, .crc ⟨2, mask, none⟩, .footer ⟨[0xbb, 0xcc]⟩]

theorem not_validates_includePacketWrong :
    ¬ PacketStructure.Validates (M := Blob) {} includePacketWrong := by
  rintro ⟨ret, p', errors, hrun, herr, -⟩
  cases hrun
  have hheader : HasDefect includePacketWrong .noHeader := by
    intro s hs
    simp only [includePacketWrong, List.mem_cons, List.not_mem_nil, or_false] at hs
    rcases hs with rfl | rfl | rfl | rfl <;> nofun
  cases (herr .packetNotIncludeHeader).mpr ⟨.noHeader, hheader, rfl⟩

namespace PacketStructure

/-! ## The two checks that nobody calls -/

/-- The flag for a kind of section. There is none for `Other`. -/
def flag (p : PacketStructure M) : PacketSections → Option Bool
  | .header => some p.isHeaderExist
  | .length => some p.isLengthExist
  | .cmd => some p.isCmdExist
  | .footer => some p.isFooterExist
  | .crc => some p.isCrcExist
  | .data => some p.isDataExist
  | .other => none

/-- The flags a fresh object ends up with are those of the kinds in the list. -/
theorem flag_visit {p p' : PacketStructure M} {s : Section M} (h : p.visit s = .ok p')
    (k : PacketSections) : p'.flag k = (p.flag k).map (s.kind == k || ·) := by
  cases s with
  | other s => cases h
  | _ =>
      cases h
      cases k <;> rfl

theorem flag_foldlM {p p' : PacketStructure M} {ss : List (Section M)}
    (h : ss.foldlM visit p = .ok p') (k : PacketSections) :
    p'.flag k = (p.flag k).map (ss.any (·.kind == k) || ·) := by
  induction ss generalizing p with
  | nil =>
      cases h
      simp
  | cons s ss ih =>
      rw [List.foldlM_cons] at h
      obtain ⟨u, hv, h⟩ := bind_eq_ok.mp h
      rw [ih h, flag_visit hv, Option.map_map, List.any_cons]
      congr 1
      funext b
      simp [Bool.or_comm, Bool.or_assoc]

/-- After the loop on a fresh object: an unset flag is an absent kind. -/
theorem flag_eq_false {p : PacketStructure M} {ss : List (Section M)}
    (h : ss.foldlM visit {} = .ok p) {k : PacketSections} :
    p.flag k = some false ↔ k ≠ .other ∧ Absent ss k := by
  rw [flag_foldlM h k]
  cases k <;> simp [flag, Absent]

/-- The same, flag by flag. -/
theorem flags_eq_false {p : PacketStructure M} {ss : List (Section M)}
    (h : ss.foldlM visit {} = .ok p) :
    (p.isHeaderExist = false ↔ Absent ss .header) ∧ (p.isLengthExist = false ↔ Absent ss .length) ∧
      (p.isCmdExist = false ↔ Absent ss .cmd) ∧ (p.isFooterExist = false ↔ Absent ss .footer) ∧
      (p.isCrcExist = false ↔ Absent ss .crc) ∧ (p.isDataExist = false ↔ Absent ss .data) := by
  refine ⟨?_, ?_, ?_, ?_, ?_, ?_⟩
  · simpa [flag] using flag_eq_false h (k := .header)
  · simpa [flag] using flag_eq_false h (k := .length)
  · simpa [flag] using flag_eq_false h (k := .cmd)
  · simpa [flag] using flag_eq_false h (k := .footer)
  · simpa [flag] using flag_eq_false h (k := .crc)
  · simpa [flag] using flag_eq_false h (k := .data)

/-- What `reportIf` adds to the calls. -/
theorem reportIf_run (cond : Bool) (e : PacketDefineErrors) (errors : List PacketDefineErrors) :
    (reportIf cond e).run errors = .ok ((), errors ++ if cond then [e] else []) := by
  cases cond with
  | false =>
      simp [reportIf]
      rfl
  | true => rfl

theorem exists_kind {P : PacketSections → Prop} :
    (∃ k, P k) ↔ P .header ∨ P .length ∨ P .cmd ∨ P .footer ∨ P .crc ∨ P .data ∨ P .other := by
  constructor
  · rintro ⟨k, hk⟩
    cases k <;> simp [hk]
  · rintro (h | h | h | h | h | h | h) <;> exact ⟨_, h⟩

/-- `is_crc_ok` would find the absent kinds that a mask includes, each under
its code, but has the wrong code for a null checker. -/
theorem isCrcOk_run {p : PacketStructure M} {ss : List (Section M)}
    (h : ss.foldlM visit {} = .ok p) (crc : CRCSection) :
    ∃ errors, (p.isCrcOk crc).run [] = .ok (true, errors) ∧ ∀ e, e ∈ errors ↔
      (∃ k, includes crc.includeMask k ∧ Absent ss k ∧ (Defect.crcIncludes k).code = some e) ∨
        crc.crcChecker = none ∧ e = .cmdFactoryNull := by
  refine ⟨_, by simp [isCrcOk, reportIf_run]; rfl, fun e => ?_⟩
  obtain ⟨hheader, hlength, hcmd, hfooter, -, hdata⟩ := flags_eq_false h
  rw [exists_kind]
  cases e <;> simp [Defect.code, hheader, hlength, hcmd, hfooter, hdata]

/-- `is_length_include_ok` would find those of the section that `length_`
points at. -/
theorem isLengthIncludeOk_run {p : PacketStructure M} {ss : List (Section M)}
    (h : ss.foldlM visit {} = .ok p) {length : LengthSection} (hlen : p.length = some length) :
    ∃ errors, p.isLengthIncludeOk.run [] = .ok ((), errors) ∧ ∀ e, e ∈ errors ↔
      ∃ k, includes length.includeMask k ∧ Absent ss k ∧
        (Defect.lengthIncludes k).code = some e := by
  refine ⟨_, by simp [isLengthIncludeOk, hlen, reportIf_run]; rfl, fun e => ?_⟩
  obtain ⟨hheader, -, hcmd, hfooter, hcrc, hdata⟩ := flags_eq_false h
  rw [exists_kind]
  cases e <;> simp [Defect.code, hheader, hcmd, hfooter, hcrc, hdata]

end PacketStructure

end HpLib
