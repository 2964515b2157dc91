import HpLib.Peripheral.Partition
import HpLib.Peripheral.Wedge

/-!
# Does the include mask count?

`LengthSection::include` names the sections that a length field covers, and
what is left of it after the others is the size of the data. `find_message`
never looks at the mask: it reads as many bytes as were declared, and reports
no length that is too small. So a mask is followed exactly when the other
sections that it names have no bytes.
-/

namespace HpLib

open Lib CircularBuffer

variable {M : Type}

namespace PacketStructure

/-- The size of a section of the structure, nothing where there is none. -/
def sizeOf (p : PacketStructure M) : PacketSections → Nat
  | .header => (p.header.map fun s => s.content.length).getD 0
  | .footer => (p.footer.map fun s => s.content.length).getD 0
  | .cmd => (p.cmd.map fun s => s.sizeBytes.toNat).getD 0
  | .length => (p.length.map fun s => s.sizeBytes.toNat).getD 0
  | .crc => (p.crc.map fun s => s.sizeBytes.toNat).getD 0
  | .data | .other => 0

/-- What the sections other than Data that the mask names have together. -/
def includedSize (p : PacketStructure M) (mask : UInt8) : Nat :=
  let included (t : PacketSections) := if mask &&& t.bit ≠ 0 then p.sizeOf t else 0
  included .header + included .footer + included .cmd + included .length + included .crc

end PacketStructure

namespace MessageExtractor

variable [SerializableMessage M]

/-- A request for bytes, as opposed to a report. -/
def IsRead : Request → Prop
  | .read _ => True
  | .packetSectionError _ _ => False

variable {x : MessageExtractor M} {v v' : Locals M} {bytes rest : Bytes}

/-! ## A pass that comes to its Data section -/

theorem reads_getNextBytes (size : UInt32) :
    ∀ r ∈ Prog.requests serveBytes (getNextBytes size) bytes, IsRead r := by
  intro r hr
  apply Prog.wp_of_mem_requests (Q := fun _ => True) _ hr
  rw [wp_getNextBytes]
  exact ⟨fun _ => trivial, fun _ _ => trivial⟩

omit [SerializableMessage M] in
theorem deref_of_run {α : Type} {o : Option α} {a : α}
    (hrun : runBytes (deref o) bytes = some (.ok a, rest)) : o = some a ∧ bytes = rest := by
  cases o with
  | none => cases hrun
  | some b =>
      cases hrun
      exact ⟨rfl, rfl⟩

omit [SerializableMessage M] in
/-- The CMD branch reports only where it gives up. -/
theorem reads_readCmd (hrun : runBytes (x.reading.readCmd v) bytes = some (.ok v', rest))
    (hnull : v'.isCmdNull = false) :
    ∀ r ∈ Prog.requests serveBytes (x.reading.readCmd v) bytes, IsRead r := by
  obtain ⟨c, _, hderef, hafter⟩ := Prog.exists_of_run_bind
    (show Prog.run serveBytes (deref x.packetStructure.cmd >>= _) bytes = _ from hrun)
  obtain ⟨hc, rfl⟩ := deref_of_run hderef
  obtain ⟨cmd, _, hget, hbuild⟩ := Prog.exists_of_run_bind hafter
  obtain ⟨factory, _, hderef', hanswer⟩ := Prog.exists_of_run_bind hbuild
  obtain ⟨hfac, rfl⟩ := deref_of_run hderef'
  intro r hr
  cases hmsg : factory (cString cmd) with
  | some msg =>
      have hreq : Prog.requests serveBytes (x.reading.readCmd v) bytes
          = Prog.requests serveBytes (getNextBytes c.sizeBytes) bytes := by
        show Prog.requests serveBytes (deref x.packetStructure.cmd >>= _) bytes = _
        rw [hc]
        show Prog.requests serveBytes (getNextBytes c.sizeBytes >>= _) bytes = _
        rw [Prog.requests_bind_ok hget, hfac, deref_some_bind, hmsg]
        exact List.append_nil _
      rw [hreq] at hr
      exact reads_getNextBytes c.sizeBytes r hr
  | none =>
      rw [hmsg] at hanswer
      obtain ⟨_, _, -, hreport⟩ := Prog.exists_of_run_bind
        (show Prog.run serveBytes (deref x.packetStructure.header >>= _) _ = _ from hanswer)
      obtain ⟨_, _, -, hdone⟩ := Prog.exists_of_run_bind hreport
      cases hdone
      cases hnull

/-- A section that the pass goes on from has only been read. -/
theorem reads_readSection (hdata : x.packetStructure.isLengthExist = true) {t : PacketSections}
    (hrun : runBytes (x.reading.readSection v t) bytes = some (.ok v', rest))
    (hnull : v'.isCmdNull = false) :
    ∀ r ∈ Prog.requests serveBytes (x.reading.readSection v t) bytes, IsRead r := by
  have hreads : ∀ {p : Extract (Locals M)}, Prog.wp IsRead (fun _ => True) p →
      ∀ r ∈ Prog.requests serveBytes p bytes, IsRead r :=
    fun hp r hr => Prog.wp_of_mem_requests hp hr
  cases t with
  | cmd => exact reads_readCmd hrun hnull
  | header => exact hreads trivial
  | other => exact hreads trivial
  | length => exact hreads (wp_readLength.mpr fun _ _ => ⟨fun _ => trivial, fun _ _ _ _ => trivial⟩)
  | data => exact hreads ((wp_readData hdata).mpr ⟨trivial, fun _ _ => trivial⟩)
  | crc => exact hreads (wp_readCrc.mpr fun _ _ => ⟨fun _ => trivial, fun _ _ => trivial⟩)
  | footer => exact hreads (wp_readFooter.mpr fun _ _ => ⟨fun _ => trivial, fun _ _ => trivial⟩)

/-- Nothing is reported on the way to a section that the pass comes to. -/
theorem reads_sectionsLoop (hdata : x.packetStructure.isLengthExist = true)
    {ss : List (Section M)}
    (hrun : runBytes (x.reading.sectionsLoop ss v) bytes = some (.ok v', rest))
    (hnull : v'.isCmdNull = false) :
    ∀ r ∈ Prog.requests serveBytes (x.reading.sectionsLoop ss v) bytes, IsRead r := by
  induction ss generalizing v bytes with
  | nil =>
      intro r hr
      cases hr
  | cons s ss ih =>
      rw [sectionsLoop] at hrun ⊢
      by_cases hstop : (v.isCmdNull || !v.isFooterOk) = true
      · rw [if_pos hstop]
        intro r hr
        cases hr
      · rw [if_neg hstop] at hrun ⊢
        obtain ⟨u, r₁, hread, hrest⟩ := Prog.exists_of_run_bind hrun
        have hu : u.isCmdNull = false := by
          by_contra hne
          have hstop' : (u.isCmdNull || !u.isFooterOk) = true := by
            rw [eq_true_of_ne_false hne]
            rfl
          rw [sectionsLoop_stop ss hstop'] at hrest
          cases hrest
          exact hne hnull
        intro r hr
        rw [Prog.requests_bind_ok hread] at hr
        rcases List.mem_append.mp hr with hr | hr
        · exact reads_readSection hdata hread hu r hr
        · exact ih hrest r hr

/-! ## What has been declared -/

/-- What `data_len` says, and that no footer has been found wrong. -/
structure Declares (l : LengthSection) (v : Locals M) : Prop where
  dataLen : v.dataLen.toNat = declaredBy l v.len
  footerOk : v.isFooterOk = true

omit [SerializableMessage M] in
theorem declares_init (l : LengthSection) (msg : Option M) : Declares l { msg := msg } := by
  refine ⟨?_, rfl⟩
  -- no bytes declare nothing, whatever the size
  have hzero : calcLen [0] l.sizeBytes l.isFirstByteMsb = .ok 0 ∨
      ∃ e, calcLen [0] l.sizeBytes l.isFirstByteMsb = .error e := by
    unfold calcLen
    split
    · exact .inl rfl
    · exact .inr ⟨_, rfl⟩
    · exact .inr ⟨_, rfl⟩
    · exact .inr ⟨_, rfl⟩
    · exact .inl rfl
  rcases hzero with hzero | ⟨e, hzero⟩
  · simp only [declaredBy, List.nil_append, hzero]
    rfl
  · simp only [declaredBy, List.nil_append, hzero]
    rfl

theorem declares_readSection {l : LengthSection} (hl : x.packetStructure.length = some l)
    (hdata : x.packetStructure.isLengthExist = true) (h : Declares l v) (t : PacketSections) :
    Prog.wp (fun _ => True) (Declares l) (x.reading.readSection v t) := by
  cases t with
  | header => exact h
  | other => exact h
  | cmd =>
      exact wp_readCmd.mpr fun _ _ => ⟨fun _ => trivial, fun _ _ _ _ =>
        ⟨fun _ _ => ⟨h.dataLen, h.footerOk⟩, fun _ _ _ => ⟨trivial, h.dataLen, h.footerOk⟩⟩⟩
  | length =>
      refine wp_readLength.mpr fun l' hl' => ⟨fun _ => trivial, fun len _ lenVal hval => ?_⟩
      cases hl.symm.trans hl'
      refine ⟨?_, h.footerOk⟩
      simp only [declaredBy, hval]
  | data =>
      exact (wp_readData hdata).mpr ⟨trivial, fun _ _ => ⟨h.dataLen, h.footerOk⟩⟩
  | crc =>
      exact wp_readCrc.mpr fun _ _ => ⟨fun _ => trivial, fun _ _ => ⟨h.dataLen, h.footerOk⟩⟩
  | footer =>
      exact wp_readFooter.mpr fun _ _ => ⟨fun _ => trivial, fun _ _ => ⟨h.dataLen, h.footerOk⟩⟩

theorem declares_sectionsLoop {l : LengthSection} (hl : x.packetStructure.length = some l)
    (hdata : x.packetStructure.isLengthExist = true) (ss : List (Section M))
    (h : Declares l v) : Prog.wp (fun _ => True) (Declares l) (x.reading.sectionsLoop ss v) := by
  induction ss generalizing v with
  | nil => exact h
  | cons s ss ih =>
      rw [sectionsLoop]
      split
      · exact h
      · rw [Prog.wp_bind]
        exact Prog.wp_mono (fun u hu => ih hu) (declares_readSection hl hdata h s.getType)

/-! ## The mask -/

/-- The pass up to a Data section that it comes to with `v`, `rest` unread. -/
theorem runBytes_throughData (hframed : x.packetStructure.isLengthExist = true)
    (hd : x.packetStructure.data.isSome = true) {l : LengthSection}
    (hl : x.packetStructure.length = some l) {pre : List (Section M)} {msg : Option M}
    (hrun : runBytes (x.reading.sectionsLoop pre { msg := msg }) bytes = some (.ok v, rest))
    (hnull : v.isCmdNull = false) (d : DataSection) :
    runBytes (x.reading.sectionsLoop (pre ++ [.data d]) { msg := msg }) bytes
      = if declaredBy l v.len ≤ rest.length then
          some (.ok { v with data := rest.take (declaredBy l v.len), dataSize := v.dataLen },
            rest.drop (declaredBy l v.len))
        else none := by
  obtain ⟨hdeclared, hok⟩ :=
    Prog.wp_of_run (declares_sectionsLoop hl hframed pre (declares_init l msg)) hrun
  have hsize : frameSize x.packetStructure v = v.dataLen := by
    rw [frameSize, if_pos hframed]
  have hread := runBytes_readData (v := v) hd rest
  rw [hsize, hdeclared] at hread
  have hdata : x.reading.sectionsLoop [.data d] v = x.reading.readData v >>= pure := by
    rw [sectionsLoop_cons hnull hok]
    rfl
  rw [sectionsLoop_append, runBytes, Prog.run_bind_ok hrun, hdata]
  by_cases hle : declaredBy l v.len ≤ rest.length
  · rw [if_pos hle] at hread ⊢
    exact Prog.run_bind_ok hread
  · rw [if_neg hle] at hread ⊢
    exact Prog.run_bind_none hread

/-- One pass takes `L - S` bytes as data where `L` bytes were declared and
the other sections of the mask have `S`; a declaration below that is reported
and no data read. `pre` are the sections before Data, `q` is unread when the
pass comes to it. -/
structure FollowsMask (x : MessageExtractor M) (pre : List (Section M)) (d : DataSection)
    (msg : Option M) {n : UInt32} (b : CircularBuffer) (q : BoundedQueue UInt8 (n.toNat - 1))
    (L S : Nat) : Prop where
  remaining : S ≤ L → ∃ v b' q',
    Prog.run serve (x.reading.sectionsLoop (pre ++ [.data d]) { msg := msg }) b
      = some (.ok v, b') ∧
    Holds n b' q' ∧ v.data = q.items.take (L - S) ∧ q'.items = q.items.drop (L - S)
  tooSmall : L < S → ∃ v b' q',
    Prog.run serve (x.reading.sectionsLoop (pre ++ [.data d]) { msg := msg }) b
      = some (.ok v, b') ∧
    Holds n b' q' ∧ v.data = [] ∧ ∃ e texts, .packetSectionError e texts
      ∈ Prog.requests serve (x.reading.sectionsLoop (pre ++ [.data d]) { msg := msg }) b

/-- **Is the mask followed?** For every pass that comes to a Data section
behind a Length section. -/
theorem followsMask_iff {p : PacketStructure M}
    {initPacketStructure : List (Section M) → List (Section M)}
    (hnew : MessageExtractor.new p initPacketStructure = .ok x) {pre post : List (Section M)}
    {d : DataSection} (hsplit : x.packetSections = pre ++ .data d :: post)
    (hlength : .length ∈ pre.map Section.getType) {l : LengthSection}
    (hl : x.packetStructure.length = some l) {n : UInt32} {b b₁ : CircularBuffer}
    {q₀ q : BoundedQueue UInt8 (n.toNat - 1)} (hb : Holds n b q₀) {msg : Option M}
    (hrun : Prog.run serve (x.reading.sectionsLoop pre { msg := msg }) b = some (.ok v, b₁))
    (hq : Holds n b₁ q) (hnull : v.isCmdNull = false)
    (henough : declaredBy l v.len - x.packetStructure.includedSize l.includeMask
      ≤ q.items.length) :
    FollowsMask x pre d msg b q (declaredBy l v.len)
        (x.packetStructure.includedSize l.includeMask)
      ↔ x.packetStructure.includedSize l.includeMask = 0 := by
  generalize x.packetStructure.includedSize l.includeMask = S at henough ⊢
  have hcovers := covers_of_new hnew
  have hframed : x.packetStructure.isLengthExist = true := by
    apply isLengthExist_of_mem hcovers
    rw [hsplit, List.map_append]
    exact List.mem_append_left _ hlength
  have hd : x.packetStructure.data.isSome = true :=
    hcovers (.data d) (by rw [hsplit]; exact List.mem_append_right _ List.mem_cons_self)
  have hpass := runBytes_throughData hframed hd hl (runBytes_of_run hb hrun hq) hnull d
  constructor
  · intro h
    rcases Nat.lt_or_ge (declaredBy l v.len) S with hlt | hge
    · obtain ⟨v', b', q', hrun', hq', -, e, texts, hmem⟩ := h.tooSmall hlt
      have hbytes := runBytes_of_run hb hrun' hq'
      have hnull' : v'.isCmdNull = false := by
        rw [hbytes] at hpass
        split at hpass
        · have hv := (Prod.mk.inj (Option.some.inj hpass)).1
          cases hv
          exact hnull
        · cases hpass
      rw [Prog.requests_simulates (simulates_bytes n) _ ⟨q₀, hb, rfl⟩] at hmem
      exact (reads_sectionsLoop hframed hbytes hnull' _ hmem).elim
    · obtain ⟨v', b', q', hrun', hq', -, hrest⟩ := h.remaining hge
      rw [runBytes_of_run hb hrun' hq', hrest] at hpass
      split at hpass
      · have hdrop := congrArg List.length (Prod.mk.inj (Option.some.inj hpass)).2
        rw [List.length_drop, List.length_drop] at hdrop
        omega
      · cases hpass
  · rintro rfl
    have hle : declaredBy l v.len ≤ q.items.length := henough
    rw [if_pos hle] at hpass
    obtain ⟨b', q', hrun', hq', hrest⟩ := run_of_runBytes hb hpass
    exact ⟨fun _ => ⟨_, b', q', hrun', hq', rfl, hrest⟩, fun hlt => absurd hlt (Nat.not_lt_zero _)⟩

/-- A Length field of one byte with the given mask, then Data. -/
def maskLayout (mask : UInt8) : List (Section Blob) :=
  [.length ⟨1, mask, false⟩, .data ⟨0⟩]

/-- What the constructor makes of it. -/
def maskExtractor (mask : UInt8) : MessageExtractor Blob :=
  { packetStructure :=
      { packet := maskLayout mask, length := some ⟨1, mask, false⟩, data := some ⟨0⟩,
        isLengthExist := true, isDataExist := true },
    packetSections := maskLayout mask, extractor := none }

theorem new_maskLayout (mask : UInt8) :
    MessageExtractor.new {} (fun _ => maskLayout mask) = .ok (maskExtractor mask) := rfl

/-- `02 07 08` in a buffer of eight, and the buffer behind the length field. -/
theorem maskExtractor_at_data (mask : UInt8) :
    ∃ (b b₁ : CircularBuffer) (q₀ q : BoundedQueue UInt8 7) (v : Locals Blob),
      Holds 8 b q₀ ∧ q₀.items = [2, 7, 8] ∧ Holds 8 b₁ q ∧ q.items = [7, 8] ∧
      Prog.run serve ((maskExtractor mask).reading.sectionsLoop [.length ⟨1, mask, false⟩]
        { msg := none }) b = some (.ok v, b₁) ∧ v.isCmdNull = false ∧ v.len = [2] := by
  obtain ⟨b, hb⟩ := exists_holds (n := 8) (by decide) ⟨[2, 7, 8], by decide⟩
  obtain ⟨v, hbytes, hnull, hlen⟩ : ∃ v, runBytes ((maskExtractor mask).reading.sectionsLoop
      [.length ⟨1, mask, false⟩] { msg := none }) [2, 7, 8] = some (.ok v, [7, 8]) ∧
      v.isCmdNull = false ∧ v.len = [2] := ⟨_, rfl, rfl, rfl⟩
  obtain ⟨b₁, q, hrun, hq, hitems⟩ := run_of_runBytes hb hbytes
  exact ⟨b, b₁, _, q, v, hb, rfl, hq, hitems, hrun, hnull, hlen⟩

/-- A mask that names Data alone. -/
theorem followsMask_data_only :
    ∃ (b : CircularBuffer) (q : BoundedQueue UInt8 7), q.items = [7, 8] ∧
      FollowsMask (n := 8) (maskExtractor 32) [.length ⟨1, 32, false⟩] ⟨0⟩ none b q 2 0 := by
  obtain ⟨b, b₁, q₀, q, v, hb, -, hq, hitems, hrun, hnull, hlen⟩ := maskExtractor_at_data 32
  refine ⟨b, q, hitems, ?_⟩
  have hsplit : (maskExtractor 32).packetSections
      = [.length ⟨1, 32, false⟩] ++ .data ⟨0⟩ :: [] := rfl
  have hall := (followsMask_iff (new_maskLayout 32) hsplit List.mem_cons_self rfl hb hrun hq hnull
    (by rw [hlen, hitems]; decide)).mpr (by decide)
  rwa [hlen] at hall

/-- A mask that names Length too: one byte of data would be left of two. -/
theorem mask_with_length_ignored :
    ¬ ∀ (p : PacketStructure Blob)
        (initPacketStructure : List (Section Blob) → List (Section Blob))
        (x : MessageExtractor Blob) (pre post : List (Section Blob)) (d : DataSection)
        (l : LengthSection) (n : UInt32) (b b₁ : CircularBuffer)
        (q₀ q : BoundedQueue UInt8 (n.toNat - 1)) (msg : Option Blob) (v : Locals Blob),
      MessageExtractor.new p initPacketStructure = .ok x →
      x.packetSections = pre ++ .data d :: post → .length ∈ pre.map Section.getType →
      x.packetStructure.length = some l → l.includeMask &&& PacketSections.data.bit ≠ 0 →
      Holds n b q₀ →
      Prog.run serve (x.reading.sectionsLoop pre { msg := msg }) b = some (.ok v, b₁) →
      Holds n b₁ q → v.isCmdNull = false →
      declaredBy l v.len - x.packetStructure.includedSize l.includeMask ≤ q.items.length →
      FollowsMask x pre d msg b q (declaredBy l v.len)
        (x.packetStructure.includedSize l.includeMask) := by
  intro hall
  obtain ⟨b, b₁, q₀, q, v, hb, hbytes, hq, hitems, hrun, hnull, hlen⟩ := maskExtractor_at_data 34
  have hfollows := hall {} _ _ _ [] ⟨0⟩ _ 8 b b₁ q₀ q none v (new_maskLayout 34) rfl
    List.mem_cons_self rfl (by decide) hb hrun hq hnull (by rw [hlen, hitems]; decide)
  rw [hlen] at hfollows
  obtain ⟨v', b', q', hrun', hq', hdata, -⟩ := hfollows.remaining (by decide)
  have hpass := runBytes_of_run hb hrun' hq'
  rw [hbytes] at hpass
  have hv := (Prod.mk.inj (Option.some.inj hpass)).1
  cases hv
  rw [hitems] at hdata
  exact absurd hdata (by decide)

end MessageExtractor

end HpLib
