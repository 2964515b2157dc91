import HpLib.Peripheral.Passes

/-!
# One pass partitions the stream

A pass over the sections of a packet takes a prefix of the unread bytes and
cuts it into the fields, in section order and without gaps. The statement
is about lists with at most one section of each type but Header, and says
how long each field is; the size of Data depends on where a Length section
stands and on the message at hand.
-/

namespace HpLib

open Lib CircularBuffer

variable {M : Type}

/-- At most one section of each type; Headers may repeat. -/
def AtMostOne (ss : List (Section M)) : Prop :=
  ss.Pairwise fun s t => s.getType = t.getType → s.getType = .header

namespace PacketStructure

/-- The pointer for the type of the section points to it. -/
def PointsTo (p : PacketStructure M) : Section M → Prop
  | .header _ => True
  | .length l => p.length = some l
  | .cmd c => p.cmd = some c
  | .footer f => p.footer = some f
  | .crc c => p.crc = some c
  | .data d => p.data = some d
  | .other _ => False

theorem visit_pointsTo {p p' : PacketStructure M} {s : Section M} (h : p.visit s = .ok p') :
    p'.PointsTo s ∧ (∀ t, s.getType ≠ t.getType → p.PointsTo t → p'.PointsTo t) ∧
      (p'.isLengthExist = true ↔ s.getType = .length ∨ p.isLengthExist = true) := by
  cases s with
  | other s => cases h
  | header s =>
      cases h
      refine ⟨trivial, fun t _ ht => ?_, by simp [Section.getType]⟩
      cases t <;> exact ht
  | _ =>
      cases h
      refine ⟨rfl, fun t hne ht => ?_, by simp [Section.getType]⟩
      cases t <;> first | exact ht | exact absurd rfl hne

theorem foldlM_visit_pointsTo {p p' : PacketStructure M} {ss : List (Section M)}
    (h : ss.foldlM visit p = .ok p') :
    (AtMostOne ss → ∀ s ∈ ss, p'.PointsTo s) ∧
      (∀ t, (∀ s ∈ ss, s.getType ≠ t.getType) → p.PointsTo t → p'.PointsTo t) ∧
      (p'.isLengthExist = true
        ↔ .length ∈ ss.map Section.getType ∨ p.isLengthExist = true) := by
  induction ss generalizing p with
  | nil =>
      cases h
      exact ⟨fun _ _ hs => absurd hs List.not_mem_nil, fun _ _ ht => ht, by simp⟩
  | cons s ss ih =>
      rw [List.foldlM_cons] at h
      obtain ⟨u, hv, h⟩ := bind_eq_ok.mp h
      obtain ⟨hself, hother, hlength⟩ := visit_pointsTo hv
      obtain ⟨hrest, hkeep, hlength'⟩ := ih h
      refine ⟨fun hone t ht => ?_, fun t hne ht => ?_, ?_⟩
      · obtain ⟨hfirst, hone⟩ := List.pairwise_cons.mp hone
        rcases List.mem_cons.mp ht with rfl | ht
        · cases t with
          | header t => trivial
          | other t => cases hself
          | _ =>
              apply hkeep _ _ hself
              intro r hr heq
              exact absurd (hfirst r hr heq.symm) (by simp [Section.getType])
        · exact hrest hone t ht
      · apply hkeep t (fun r hr => hne r (List.mem_cons_of_mem s hr))
        exact hother t (hne s List.mem_cons_self) ht
      · rw [hlength', hlength, List.map_cons, List.mem_cons]
        constructor
        · rintro (hmem | hs | hp)
          · exact .inl (.inr hmem)
          · exact .inl (.inl hs.symm)
          · exact .inr hp
        · rintro ((hs | hmem) | hp)
          · exact .inr (.inl hs.symm)
          · exact .inl hmem
          · exact .inr (.inr hp)

end PacketStructure

namespace MessageExtractor

open PacketStructure

/-- What the constructor makes of a fresh structure. -/
theorem visited_of_new {init : List (Section M) → List (Section M)} {x : MessageExtractor M}
    (h : MessageExtractor.new {} init = .ok x) :
    (init []).foldlM visit ({ packet := init [] } : PacketStructure M) = .ok x.packetStructure := by
  obtain ⟨q, hfold, rfl⟩ := new_eq_ok.mp h
  exact hfold

theorem framed_iff_of_new {init : List (Section M) → List (Section M)} {x : MessageExtractor M}
    (h : MessageExtractor.new {} init = .ok x) :
    x.packetStructure.isLengthExist = true ↔ .length ∈ (init []).map Section.getType := by
  rw [(foldlM_visit_pointsTo (visited_of_new h)).2.2]
  simp

/-- With at most one section of each type the pointers are those sections. -/
theorem pointsTo_of_new {init : List (Section M) → List (Section M)} {x : MessageExtractor M}
    (h : MessageExtractor.new {} init = .ok x) (hone : AtMostOne (init [])) :
    ∀ s ∈ init [], x.packetStructure.PointsTo s :=
  (foldlM_visit_pointsTo (visited_of_new h)).1 hone

/-! ## The fields of a pass -/

/-- The field that the section of a type was read into. -/
def text (v : Locals M) : PacketSections → Bytes
  | .cmd => v.cmd
  | .length => v.len
  | .data => v.data
  | .crc => v.crc
  | .footer => v.footer
  | .header | .other => []

/-- The command of the sections, if there is one. -/
def commandIn : List (Section M) → Option (CMDSection M)
  | [] => none
  | .cmd c :: _ => some c
  | _ :: ss => commandIn ss

/-- The length field of the sections, if there is one. -/
def lengthIn : List (Section M) → Option LengthSection
  | [] => none
  | .length l :: _ => some l
  | _ :: ss => lengthIn ss

/-- `(uint32_t)calc_len` of the bytes of a length field. -/
def declaredBy (l : LengthSection) (len : Bytes) : Nat :=
  match calcLen (len ++ [0]) l.sizeBytes l.isFirstByteMsb with
  | .ok lenVal => lenVal.toUInt32.toNat
  | .error _ => 0

/-- The message that the factory makes of a command. -/
def built (c : CMDSection M) (cmd : Bytes) : Option M :=
  c.msgFactory.bind fun factory => factory (cString cmd)

/-- The message object at hand after the sections: the one built from the
command, or the one there was. -/
def atHand (pre : List (Section M)) (msg : Option M) (cmd : Bytes) : Option M :=
  match commandIn pre with
  | some c => built c cmd
  | none => msg

section

variable [SerializableMessage M]

/-- What Data holds when the structure has no Length section. -/
def unframedSize (d : DataSection) : Option M → Nat
  | some msg => SerializableMessage.getSerializeSize msg
  | none => d.fixSizeBytes.toNat

/-- The size of Data between the sections `pre` and `post`: what a Length
before it declares, nothing when a Length comes after it, and without one
what the message at hand serializes to or else the fixed size. -/
def dataSizeBetween (pre : List (Section M)) (d : DataSection) (post : List (Section M))
    (msg : Option M) (v : Locals M) : Nat :=
  match lengthIn pre with
  | some l => declaredBy l v.len
  | none =>
      match lengthIn post with
      | some _ => 0
      | none => unframedSize d (atHand pre msg v.cmd)

/-- The fields have the sizes that their sections declare. -/
structure Sized (ss : List (Section M)) (msg : Option M) (v : Locals M) : Prop where
  cmd : ∀ c, .cmd c ∈ ss → v.cmd.length = c.sizeBytes.toNat
  len : ∀ l, .length l ∈ ss → v.len.length = l.sizeBytes.toNat
  crc : ∀ c, .crc c ∈ ss → v.crc.length = c.sizeBytes.toNat
  footer : ∀ f, .footer f ∈ ss → v.footer.length = f.content.length
  data : ∀ pre d post, ss = pre ++ .data d :: post →
    v.data.length = dataSizeBetween pre d post msg v

/-- The fields are, in section order, consecutive pieces of `consumed`, and
together all of it. -/
structure Partitions (ss : List (Section M)) (v : Locals M) (consumed : Bytes) : Prop where
  consumed : consumed = (ss.map fun s => text v s.getType).flatten
  absent : ∀ t, t ∉ ss.map Section.getType → text v t = []

/-- The size of a section in a pass that has read what `declared` and `msg`
say. `framed` says that the structure has a Length section. -/
def sectionSize (framed : Bool) (declared : Nat) (msg : Option M) : Section M → Nat
  | .header _ | .other _ => 0
  | .cmd c => c.sizeBytes.toNat
  | .length l => l.sizeBytes.toNat
  | .crc c => c.sizeBytes.toNat
  | .footer f => f.content.length
  | .data d => if framed then declared else unframedSize d msg

/-- The message at hand after a section that was read as `chunk`. -/
def nextMsg (msg : Option M) (chunk : Bytes) : Section M → Option M
  | .cmd c => built c chunk
  | _ => msg

/-- What has been declared after a section that was read as `chunk`. -/
def nextDeclared (declared : Nat) (chunk : Bytes) : Section M → Nat
  | .length l => declaredBy l chunk
  | _ => declared

/-- There are as many bytes as the sections take. -/
def LongEnough (framed : Bool) : Nat → Option M → List (Section M) → Bytes → Prop
  | _, _, [], _ => True
  | declared, msg, s :: ss, bytes =>
      let size := sectionSize framed declared msg s
      size ≤ bytes.length ∧
        LongEnough framed (nextDeclared declared (bytes.take size) s)
          (nextMsg msg (bytes.take size) s) ss (bytes.drop size)

instance decidableLongEnough (framed : Bool) : (declared : Nat) → (msg : Option M) →
    (ss : List (Section M)) → (bytes : Bytes) → Decidable (LongEnough framed declared msg ss bytes)
  | _, _, [], _ => isTrue trivial
  | declared, msg, s :: ss, bytes =>
      let size := sectionSize framed declared msg s
      have := decidableLongEnough framed (nextDeclared declared (bytes.take size) s)
        (nextMsg msg (bytes.take size) s) ss (bytes.drop size)
      inferInstanceAs (Decidable (size ≤ bytes.length ∧ LongEnough framed _ _ ss _))

/-! ## One section -/

/-- The local variables after a section was read as `chunk`. -/
def filled (v : Locals M) (chunk : Bytes) : Section M → Locals M
  | .header _ | .other _ => v
  | .cmd c => { v with cmd := chunk, msg := built c chunk }
  | .length l =>
      { v with len := chunk, dataLen := UInt32.ofNat (declaredBy l chunk), canFindLength := true }
  | .crc _ => { v with crc := chunk }
  | .footer _ => { v with footer := chunk }
  | .data _ => { v with data := chunk, dataSize := UInt32.ofNat chunk.length }

omit [SerializableMessage M] in
theorem declaredBy_lt (l : LengthSection) (len : Bytes) : declaredBy l len < 2 ^ 32 := by
  rw [declaredBy]
  split
  · exact UInt32.toNat_lt _
  · exact Nat.two_pow_pos 32

omit [SerializableMessage M] in
theorem text_filled_of_ne (v : Locals M) (chunk : Bytes) {s : Section M} {t : PacketSections}
    (h : t ≠ s.getType) : text (filled v chunk s) t = text v t := by
  cases s <;> cases t <;> first | rfl | exact absurd rfl h

/-- What the section itself is filled with; a Header takes no bytes. -/
theorem text_filled_self (v : Locals M) (framed : Bool) (declared : Nat) (msg : Option M)
    (bytes : Bytes) {s : Section M} {p : PacketStructure M} (hs : p.PointsTo s) :
    text (filled v (bytes.take (sectionSize framed declared msg s)) s) s.getType
      = bytes.take (sectionSize framed declared msg s) := by
  cases s with
  | other s => exact hs.elim
  | header s => rfl
  | _ => rfl

variable {x : MessageExtractor M} {v : Locals M} {bytes : Bytes}

/-- What the Data branch asks for, where that is no more than a `uint32_t`
holds. -/
theorem frameSize_toNat {d : DataSection} (hd : x.packetStructure.data = some d)
    (hlt : sectionSize x.packetStructure.isLengthExist v.dataLen.toNat v.msg (.data d) < 2 ^ 32) :
    (frameSize x.packetStructure v).toNat
      = sectionSize x.packetStructure.isLengthExist v.dataLen.toNat v.msg (.data d) := by
  rw [sectionSize] at hlt ⊢
  rw [frameSize, hd]
  cases hframed : x.packetStructure.isLengthExist with
  | true => rfl
  | false =>
      rw [hframed] at hlt
      cases hmsg : v.msg with
      | none => rfl
      | some msg =>
          rw [hmsg] at hlt
          exact UInt32.toNat_ofNat_of_lt' hlt

/-- **One section** takes its size off the front. -/
theorem runBytes_readSection {s : Section M} (hpoints : x.packetStructure.PointsTo s)
    (hfactory : ∀ c, s = .cmd c → ∃ factory, c.msgFactory = some factory ∧
      ∀ cmd, (factory cmd).isSome = true) (hlt : bytes.length < 2 ^ 32)
    (hle : sectionSize x.packetStructure.isLengthExist v.dataLen.toNat v.msg s ≤ bytes.length) :
    runBytes (x.reading.readSection v s.getType) bytes
      = some (.ok (filled v
            (bytes.take (sectionSize x.packetStructure.isLengthExist v.dataLen.toNat v.msg s)) s),
          bytes.drop
            (sectionSize x.packetStructure.isLengthExist v.dataLen.toNat v.msg s)) := by
  cases s with
  | other s => exact hpoints.elim
  | header s => rfl
  | cmd c =>
      obtain ⟨factory, hfac, hsome⟩ := hfactory c rfl
      obtain ⟨msg, hmsg⟩ :=
        Option.isSome_iff_exists.mp (hsome (cString (bytes.take c.sizeBytes.toNat)))
      have hbuilt : built c (bytes.take c.sizeBytes.toNat) = some msg := by
        rw [built, hfac]
        exact hmsg
      have hrun := runBytes_readCmd (v := v) hpoints hfac hle hmsg
      rw [← hbuilt] at hrun
      exact hrun
  | length l =>
      have hlen : (bytes.take l.sizeBytes.toNat).length = l.sizeBytes.toNat :=
        List.length_take_of_le hle
      obtain ⟨lenVal, hval⟩ := calcLen_total hlen l.isFirstByteMsb
      have hdeclared : UInt32.ofNat (declaredBy l (bytes.take l.sizeBytes.toNat))
          = lenVal.toUInt32 := by
        simp only [declaredBy, hval]
        exact UInt32.ofNat_toNat
      have hrun := runBytes_readLength (v := v) hpoints hle hval
      rw [← hdeclared] at hrun
      exact hrun
  | crc c =>
      have hle' : c.sizeBytes.toNat ≤ bytes.length := hle
      have hrun := runBytes_readCrc (v := v) hpoints bytes
      rw [if_pos hle'] at hrun
      exact hrun
  | footer f =>
      have hle' : f.content.length ≤ bytes.length := hle
      have hsize : (UInt32.ofNat f.content.length).toNat = f.content.length :=
        UInt32.toNat_ofNat_of_lt' (Nat.lt_of_le_of_lt hle' hlt)
      have hrun := runBytes_readFooter (v := v) hpoints bytes
      rw [hsize, if_pos hle'] at hrun
      exact hrun
  | data d =>
      have hd : x.packetStructure.data = some d := hpoints
      have hsome : x.packetStructure.data.isSome = true := by
        rw [hd]
        rfl
      -- a size that the bytes suffice for does not wrap
      have hsize := frameSize_toNat hd (Nat.lt_of_le_of_lt hle hlt)
      have hrun := runBytes_readData (v := v) hsome bytes
      rw [hsize, if_pos hle] at hrun
      have hdata : frameSize x.packetStructure v = UInt32.ofNat (bytes.take (sectionSize
          x.packetStructure.isLengthExist v.dataLen.toNat v.msg (.data d))).length := by
        rw [List.length_take_of_le hle, ← hsize]
        exact UInt32.ofNat_toNat.symm
      rw [hdata] at hrun
      exact hrun

/-! ## All sections -/

/-- The sizes of the fields of `ss`, in a pass that has come to them with
`declared` and `msg`. -/
structure SizedFrom (framed : Bool) (declared : Nat) (msg : Option M) (ss : List (Section M))
    (v : Locals M) : Prop where
  cmd : ∀ c, .cmd c ∈ ss → v.cmd.length = c.sizeBytes.toNat
  len : ∀ l, .length l ∈ ss → v.len.length = l.sizeBytes.toNat
  crc : ∀ c, .crc c ∈ ss → v.crc.length = c.sizeBytes.toNat
  footer : ∀ f, .footer f ∈ ss → v.footer.length = f.content.length
  data : ∀ pre d post, ss = pre ++ .data d :: post → v.data.length =
    if framed then (match lengthIn pre with
      | some l => declaredBy l v.len
      | none => declared)
    else unframedSize d (atHand pre msg v.cmd)

omit [SerializableMessage M] in
theorem lengthIn_eq_none_iff {ss : List (Section M)} :
    lengthIn ss = none ↔ .length ∉ ss.map Section.getType := by
  induction ss with
  | nil => simp [lengthIn]
  | cons s ss ih => cases s <;> simp [lengthIn, Section.getType, ih]

omit [SerializableMessage M] in
theorem commandIn_eq_none_iff {ss : List (Section M)} :
    commandIn ss = none ↔ .cmd ∉ ss.map Section.getType := by
  induction ss with
  | nil => simp [commandIn]
  | cons s ss ih => cases s <;> simp [commandIn, Section.getType, ih]

/-- The sizes of a list, from those of its tail. -/
theorem SizedFrom.cons {framed : Bool} {declared : Nat} {msg : Option M} {s : Section M}
    {ss : List (Section M)} {v' : Locals M} {p : PacketStructure M} (hs : p.PointsTo s)
    (hone : AtMostOne (s :: ss))
    (hself : (text v' s.getType).length = sectionSize framed declared msg s)
    (h : SizedFrom framed (nextDeclared declared (text v' s.getType) s)
      (nextMsg msg (text v' s.getType) s) ss v') :
    SizedFrom framed declared msg (s :: ss) v' := by
  obtain ⟨hfirst, -⟩ := List.pairwise_cons.mp hone
  constructor
  · intro c hc
    rcases List.mem_cons.mp hc with rfl | hc
    · exact hself
    · exact h.cmd c hc
  · intro l hl
    rcases List.mem_cons.mp hl with rfl | hl
    · exact hself
    · exact h.len l hl
  · intro c hc
    rcases List.mem_cons.mp hc with rfl | hc
    · exact hself
    · exact h.crc c hc
  · intro f hf
    rcases List.mem_cons.mp hf with rfl | hf
    · exact hself
    · exact h.footer f hf
  · intro pre d post hsplit
    cases pre with
    | nil =>
        cases hsplit
        exact hself
    | cons r pre =>
        obtain ⟨rfl, hrest⟩ := List.cons.inj hsplit
        have hdata := h.data pre d post hrest
        -- no second section of the type of the first stands before Data
        have hnot : ∀ t, t ≠ .header → s.getType = t → t ∉ pre.map Section.getType := by
          intro t ht heq hmem
          obtain ⟨r, hr, hrt⟩ := List.mem_map.mp hmem
          have hr' : r ∈ ss := by
            rw [hrest]
            exact List.mem_append_left _ hr
          have hheader := hfirst r hr' (heq.trans hrt.symm)
          exact ht (heq.symm.trans hheader)
        rw [hdata]
        cases s with
        | length l =>
            have hnone : lengthIn pre = none :=
              lengthIn_eq_none_iff.mpr (hnot .length (by simp) rfl)
            simp only [hnone, lengthIn, nextDeclared, nextMsg, text, Section.getType, atHand,
              commandIn]
        | cmd c =>
            have hnone : commandIn pre = none :=
              commandIn_eq_none_iff.mpr (hnot .cmd (by simp) rfl)
            simp only [hnone, lengthIn, nextDeclared, nextMsg, text, Section.getType, atHand,
              commandIn]
        | other s => exact hs.elim
        | _ => rfl

/-- **The loop.** From fields that are still empty where a section of `ss`
will be read, a pass over `ss` takes what it fills them with. -/
theorem runBytes_sectionsLoop {ss : List (Section M)}
    (hpoints : ∀ s ∈ ss, x.packetStructure.PointsTo s) (hone : AtMostOne ss)
    (hfactory : ∀ c, .cmd c ∈ ss → ∃ factory, c.msgFactory = some factory ∧
      ∀ cmd, (factory cmd).isSome = true)
    (hnull : v.isCmdNull = false) (hok : v.isFooterOk = true) (hlt : bytes.length < 2 ^ 32)
    (hlong : LongEnough x.packetStructure.isLengthExist v.dataLen.toNat v.msg ss bytes) :
    ∃ v' rest, runBytes (x.reading.sectionsLoop ss v) bytes = some (.ok v', rest) ∧
      bytes = (ss.map fun s => text v' s.getType).flatten ++ rest ∧
      (∀ t, t ∉ ss.map Section.getType → text v' t = text v t) ∧
      SizedFrom x.packetStructure.isLengthExist v.dataLen.toNat v.msg ss v' := by
  induction ss generalizing v bytes with
  | nil =>
      refine ⟨v, bytes, rfl, rfl, fun _ _ => rfl, ?_⟩
      constructor <;> simp
  | cons s ss ih =>
      obtain ⟨hle, hlong⟩ := hlong
      obtain ⟨hfirst, hone'⟩ := List.pairwise_cons.mp hone
      have hs := hpoints s List.mem_cons_self
      have hread := runBytes_readSection (v := v) hs
        (fun c hc => hfactory c (hc ▸ List.mem_cons_self)) hlt hle
      have hself := text_filled_self v x.packetStructure.isLengthExist v.dataLen.toNat v.msg
        bytes hs
      generalize hsize : sectionSize x.packetStructure.isLengthExist v.dataLen.toNat v.msg s
        = size at hle hlong hread hself
      have hmsg : (filled v (bytes.take size) s).msg = nextMsg v.msg (bytes.take size) s := by
        cases s <;> rfl
      have hlen : (filled v (bytes.take size) s).dataLen.toNat
          = nextDeclared v.dataLen.toNat (bytes.take size) s := by
        cases s with
        | length l => exact UInt32.toNat_ofNat_of_lt' (declaredBy_lt l _)
        | _ => rfl
      have hdrop : (bytes.drop size).length < 2 ^ 32 := by
        rw [List.length_drop]
        omega
      rw [← hmsg, ← hlen] at hlong
      obtain ⟨v', rest, hrun, hparts, hkeep, hsized⟩ :=
        ih (fun t ht => hpoints t (List.mem_cons_of_mem s ht)) hone'
          (fun c hc => hfactory c (List.mem_cons_of_mem s hc))
          (by cases s <;> exact hnull) (by cases s <;> exact hok) hdrop hlong
      -- a later section leaves what this one was filled with
      have hchunk : text v' s.getType = bytes.take size := by
        by_cases hmem : s.getType ∈ ss.map Section.getType
        · obtain ⟨t, ht, htype⟩ := List.mem_map.mp hmem
          have hheader := hfirst t ht htype.symm
          rw [hheader] at hself ⊢
          exact hself
        · rw [hkeep _ hmem, hself]
      refine ⟨v', rest, ?_, ?_, ?_, ?_⟩
      · rw [sectionsLoop_cons hnull hok]
        exact (Prog.run_bind_ok hread).trans hrun
      · rw [List.map_cons, List.flatten_cons, hchunk, List.append_assoc, ← hparts]
        exact (List.take_append_drop size bytes).symm
      · intro t ht
        rw [List.map_cons, List.mem_cons, not_or] at ht
        rw [hkeep t ht.2, text_filled_of_ne v _ ht.1]
      · apply SizedFrom.cons hs hone
        · rw [hchunk, hsize]
          exact List.length_take_of_le hle
        · rw [hchunk, ← hmsg, ← hlen]
          exact hsized

/-- For a whole list, whether it is framed can be seen from where Length
stands. -/
theorem SizedFrom.sized {framed : Bool} {msg : Option M} {ss : List (Section M)} {v : Locals M}
    (hframed : framed = true ↔ .length ∈ ss.map Section.getType)
    (h : SizedFrom framed 0 msg ss v) : Sized ss msg v := by
  refine ⟨h.cmd, h.len, h.crc, h.footer, fun pre d post hsplit => ?_⟩
  rw [h.data pre d post hsplit, dataSizeBetween]
  rw [hsplit, List.map_append, List.map_cons, List.mem_append, List.mem_cons] at hframed
  cases hpre : lengthIn pre with
  | some l =>
      have hmem : .length ∈ pre.map Section.getType := by
        by_contra hnone
        rw [lengthIn_eq_none_iff.mpr hnone] at hpre
        cases hpre
      rw [if_pos (hframed.mpr (.inl hmem))]
  | none =>
      have hnot := lengthIn_eq_none_iff.mp hpre
      cases hpost : lengthIn post with
      | some l =>
          have hmem : .length ∈ post.map Section.getType := by
            by_contra hnone
            rw [lengthIn_eq_none_iff.mpr hnone] at hpost
            cases hpost
          rw [if_pos (hframed.mpr (.inr (.inr hmem)))]
      | none =>
          have hno : framed ≠ true := by
            intro htrue
            rcases hframed.mp htrue with hmem | htype | hmem
            · exact hnot hmem
            · cases htype
            · exact lengthIn_eq_none_iff.mp hpost hmem
          rw [if_neg hno]

/-- **One pass of `find_message` partitions the stream.** -/
theorem pass_partitions {init : List (Section M) → List (Section M)}
    (hnew : MessageExtractor.new {} init = .ok x) (hone : AtMostOne (init []))
    (hfactory : ∀ c, .cmd c ∈ init [] → ∃ factory, c.msgFactory = some factory ∧
      ∀ cmd, (factory cmd).isSome = true)
    {n : UInt32} {b : CircularBuffer} {q : BoundedQueue UInt8 (n.toNat - 1)} (hb : Holds n b q)
    (msg : Option M)
    (hlong : LongEnough x.packetStructure.isLengthExist 0 msg (init []) q.items) :
    ∃ v b' q' consumed,
      Prog.run serve (x.reading.sectionsLoop x.packetSections { msg := msg }) b
        = some (.ok v, b') ∧
      Holds n b' q' ∧ q.items = consumed ++ q'.items ∧
      Partitions (init []) v consumed ∧ Sized (init []) msg v := by
  have hpoints := pointsTo_of_new hnew hone
  have hframed := framed_iff_of_new hnew
  have hlt : q.items.length < 2 ^ 32 := by
    have hbound := q.bound
    have hn := n.toNat_lt
    omega
  obtain ⟨v, rest, hrun, hparts, hkeep, hsized⟩ :=
    runBytes_sectionsLoop (v := { msg := msg }) hpoints hone hfactory rfl rfl hlt hlong
  obtain ⟨b', q', hb', hholds, rfl⟩ := run_of_runBytes hb hrun
  rw [(new_spec hnew).2]
  refine ⟨v, b', q', _, hb', hholds, hparts, ⟨rfl, fun t ht => ?_⟩, hsized.sized hframed⟩
  rw [hkeep t ht]
  cases t <;> rfl

end

/-- A Length field of one byte, a command of two, Data and a footer. -/
def mixedLayout : List (Section Blob) :=
  [.header ⟨[0xaa]⟩, .length ⟨1, PacketSections.data.bit, false⟩,
   .cmd ⟨2, some fun cmd => some ⟨cmd⟩⟩, .data ⟨4⟩, .footer ⟨[0x55]⟩]

/-- The packet `03 d1 d2 01 02 03 55` with one byte behind it. -/
theorem pass_partitions_mixed :
    ∃ (x : MessageExtractor Blob) (b : CircularBuffer) (q : BoundedQueue UInt8 15),
      q.items = [3, 0xd1, 0xd2, 1, 2, 3, 0x55, 9] ∧ ∃ v b' q' consumed,
        Prog.run serve (x.reading.sectionsLoop x.packetSections { msg := none }) b
          = some (.ok v, b') ∧
        Holds 16 b' q' ∧ q.items = consumed ++ q'.items ∧
        Partitions mixedLayout v consumed ∧ Sized mixedLayout none v := by
  obtain ⟨b, hholds⟩ :=
    exists_holds (n := 16) (by decide) ⟨[3, 0xd1, 0xd2, 1, 2, 3, 0x55, 9], by decide⟩
  obtain ⟨x, hnew⟩ : ∃ x : MessageExtractor Blob,
      MessageExtractor.new {} (fun packet => packet ++ mixedLayout) = .ok x := ⟨_, rfl⟩
  have hone : AtMostOne mixedLayout := by simp [AtMostOne, mixedLayout, Section.getType]
  have hframed : x.packetStructure.isLengthExist = true :=
    (framed_iff_of_new hnew).mpr (by decide)
  refine ⟨x, b, ⟨[3, 0xd1, 0xd2, 1, 2, 3, 0x55, 9], by decide⟩, rfl, ?_⟩
  apply pass_partitions hnew hone _ hholds none
  · rw [hframed]
    decide
  · intro c hc
    have heq : c = ⟨2, some fun cmd => some ⟨cmd⟩⟩ := by simpa [mixedLayout] using hc
    exact ⟨_, congrArg CMDSection.msgFactory heq, fun _ => rfl⟩

end MessageExtractor

end HpLib
