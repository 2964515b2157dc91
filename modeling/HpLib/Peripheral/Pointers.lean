import HpLib.Peripheral.ExtractorSpec

/-!
# The pointers that `find_message` follows

`extractor_`, which the constructor leaves unset, the section pointers of the
packet structure, and the factory of the CMD section. The first of them
decides: every branch but that of a Header follows `extractor_`, so an
accepted structure is safe to run exactly when it is made of Headers. The
last section is about the extractor as it is meant to be read, where the
section pointers are all set and what is left is the CMD branch.
-/

namespace HpLib.MessageExtractor

open Lib

/-- The fault is not that of following a null or uninitialised pointer. -/
def NotPointer : Fault → Prop
  | .nullDeref | .uninitialised => False
  | .outOfBounds | .divByZero | .diverges => True

variable {M : Type}

theorem new_spec {p : PacketStructure M} {initPacketStructure : List (Section M) → List (Section M)}
    {x : MessageExtractor M} (h : MessageExtractor.new p initPacketStructure = .ok x) :
    x.extractor = none ∧ x.packetSections = initPacketStructure p.packet := by
  obtain ⟨q, -, rfl⟩ := new_eq_ok.mp h
  exact ⟨rfl, rfl⟩

section

variable [SerializableMessage M] {x : MessageExtractor M} {v : Locals M}

/-- With `extractor_` unset, every branch but the Header's goes wrong at once. -/
theorem readSection_unset (hx : x.extractor = none) {s : Section M} (hs : s.getType ≠ .header) :
    x.readSection v s.getType = .fail .uninitialised := by
  have hdata : x.readData v = .fail .uninitialised := by
    rw [readData, dataSizeOf, structureOf, hx]
    rfl
  cases s with
  | header s => exact absurd rfl hs
  | length s =>
      show x.readLength v = _
      rw [readLength, structureOf, hx]
      rfl
  | cmd s =>
      show x.readCmd v = _
      rw [readCmd, structureOf, hx]
      rfl
  | footer s =>
      show x.readFooter v = _
      rw [readFooter, structureOf, hx]
      rfl
  | crc s =>
      show x.readCrc v = _
      rw [readCrc, structureOf, hx]
      rfl
  | data s => exact hdata
  | other s => exact hdata

theorem sectionsLoop_cons {s : Section M} {ss : List (Section M)} (hnull : v.isCmdNull = false)
    (hok : v.isFooterOk = true) :
    x.sectionsLoop (s :: ss) v
      = x.readSection v s.getType >>= fun v => x.sectionsLoop ss v := by
  rw [sectionsLoop, hnull, hok]
  rfl

/-- So a pass gets as far as the Headers at the front. -/
theorem sectionsLoop_unset (hx : x.extractor = none) (ss : List (Section M))
    (hnull : v.isCmdNull = false) (hok : v.isFooterOk = true) :
    x.sectionsLoop ss v
      = if ss.all (·.getType == .header) then pure v else .fail .uninitialised := by
  induction ss with
  | nil => rfl
  | cons s ss ih =>
      rw [sectionsLoop_cons hnull hok, List.all_cons]
      by_cases hs : s.getType = .header
      · rw [hs]
        exact ih
      · rw [readSection_unset hx hs, if_neg (by simp [hs])]
        rfl

theorem findLoop_unset (hx : x.extractor = none)
    (hall : x.packetSections.all (·.getType == .header) = true) (fuel : Nat) (msg : Option M) :
    x.findLoop fuel msg false = .fail .diverges := by
  induction fuel generalizing msg with
  | zero => rfl
  | succ fuel ih =>
      rw [findLoop, sectionsLoop_unset hx _ rfl rfl, if_pos hall]
      exact ih msg

theorem findLoop_unset_of_not (hx : x.extractor = none)
    (hother : ¬ x.packetSections.all (·.getType == .header) = true) (fuel : Nat)
    (msg : Option M) : x.findLoop (fuel + 1) msg false = .fail .uninitialised := by
  rw [findLoop, sectionsLoop_unset hx _ rfl rfl, if_neg hother]
  rfl

end

variable {α : Type} {E : Fault → Prop}

@[simp] theorem safe_deref (o : Option α) {Q : α → Prop} :
    Prog.safe E Q (deref o) ↔ (o = none → E .nullDeref) ∧ ∀ a, o = some a → Q a := by
  cases o with
  | none => simp [deref]
  | some a => simp [deref]

@[simp] theorem safe_ask (r : Request) {Q : r.Answer → Prop} :
    Prog.safe E Q (ask r) ↔ ∀ x, Q x := Iff.rfl

theorem safe_getNextBytesLoop (k : Nat) {Q : Bytes → Prop} :
    Prog.safe E Q (getNextBytesLoop k) ↔ ∀ bs : Bytes, bs.length = k → Q bs := by
  induction k generalizing Q with
  | zero => simp [getNextBytesLoop]
  | succ k ih =>
      simp only [getNextBytesLoop, readNextByte, Prog.safe_bind, safe_ask, ih, Prog.safe_pure]
      constructor
      · intro h bs hbs
        cases bs with
        | nil => cases hbs
        | cons c rest => exact h ⟨[c], rfl⟩ rest (Nat.succ.inj hbs)
      · intro h c rest hrest
        exact h _ (by rw [List.length_cons, hrest])

@[simp] theorem safe_getNextBytes (size : UInt32) {Q : Bytes → Prop} :
    Prog.safe E Q (getNextBytes size) ↔ ∀ bs : Bytes, bs.length = size.toNat → Q bs :=
  safe_getNextBytesLoop size.toNat

/-- What the CMD branch needs: a factory, and a Header for the report in case
the factory returns null. -/
def CmdFollows (p : PacketStructure M) : Prop :=
  ∃ c factory, p.cmd = some c ∧ c.msgFactory = some factory ∧
    (p.header.isSome = true ∨
      ∀ cmd : Bytes, cmd.length = c.sizeBytes.toNat → factory (cString cmd) ≠ none)

theorem cmdFollows_iff {p : PacketStructure M} {c : CMDSection M} (hc : p.cmd = some c) :
    CmdFollows p ↔ ∃ factory, c.msgFactory = some factory ∧ (p.header.isSome = true ∨
      ∀ cmd : Bytes, cmd.length = c.sizeBytes.toNat → factory (cString cmd) ≠ none) := by
  constructor
  · rintro ⟨c', factory, hc', h⟩
    cases hc.symm.trans hc'
    exact ⟨factory, h⟩
  · rintro ⟨factory, h⟩
    exact ⟨c, factory, hc, h⟩

section

variable {x : MessageExtractor M} {v : Locals M} {Q : Locals M → Prop}

theorem safe_readCmd (hcov : x.packetStructure.Covers .cmd) :
    Prog.safe NotPointer (fun _ => True) (x.reading.readCmd v) ↔ CmdFollows x.packetStructure := by
  obtain ⟨c, hc⟩ := Option.isSome_iff_exists.mp hcov
  rw [cmdFollows_iff hc]
  simp only [readCmd, structureOf_reading, Prog.safe_bind, Prog.safe_pure, safe_deref,
    safe_getNextBytes, hc, Option.some.injEq, forall_eq', reduceCtorEq, false_implies, true_and]
  cases hfac : c.msgFactory with
  | none =>
      simp only [reduceCtorEq, false_and, exists_false, iff_false]
      intro h
      exact (h (List.replicate c.sizeBytes.toNat 0) List.length_replicate).1 trivial
  | some factory =>
      simp only [Option.some.injEq, exists_eq_left', forall_eq', reduceCtorEq, false_implies,
        true_and]
      cases hh : x.packetStructure.header with
      | some h =>
          simp only [Option.isSome_some, true_or, iff_true]
          intro cmd _
          cases factory (cString cmd) <;> simp [hh]
      | none =>
          simp only [Option.isSome_none, Bool.false_eq_true, false_or]
          apply forall₂_congr
          intro cmd _
          cases factory (cString cmd) <;> simp [hh, NotPointer]

variable [SerializableMessage M]

/-- The other branches follow the pointers of sections that are there, and
the pass goes on after them. -/
theorem safe_readSection {t : PacketSections} (hcov : x.packetStructure.Covers t)
    (hcmd : t ≠ .cmd) :
    Prog.safe (fun _ => False)
      (fun v' => v'.isCmdNull = v.isCmdNull ∧ v'.isFooterOk = v.isFooterOk)
      (x.reading.readSection v t) := by
  cases t with
  | header => exact ⟨rfl, rfl⟩
  | other => exact ⟨rfl, rfl⟩
  | cmd => exact absurd rfl hcmd
  | length =>
      obtain ⟨l, hl⟩ := Option.isSome_iff_exists.mp hcov.1
      simp only [readSection, readLength, structureOf_reading, Prog.safe_bind, Prog.safe_pure,
        safe_deref, safe_getNextBytes, Prog.safe_ofExcept, hl, Option.some.injEq, forall_eq',
        reduceCtorEq, false_implies, implies_true, and_true, true_and]
      intro len hlen e he
      obtain ⟨lenVal, hval⟩ := calcLen_total hlen l.isFirstByteMsb
      rw [hval] at he
      cases he
  | data =>
      obtain ⟨d, hd⟩ := Option.isSome_iff_exists.mp hcov
      simp only [readSection, readData, dataSizeOf, structureOf_reading, Prog.safe_bind,
        Prog.safe_pure, safe_ask, implies_true, and_self]
      split
      · trivial
      · split
        · trivial
        · simp [hd]
  | crc =>
      obtain ⟨c, hc⟩ := Option.isSome_iff_exists.mp hcov
      simp [readSection, readCrc, hc]
  | footer =>
      obtain ⟨f, hf⟩ := Option.isSome_iff_exists.mp hcov
      simp [readSection, readFooter, hf]

instance (r : Request) : Nonempty r.Answer :=
  match r with
  | .read _ => ⟨⟨List.replicate _ 0, List.length_replicate⟩⟩
  | .packetSectionError _ _ => ⟨()⟩

/-- A pass of the loop goes as far as the first CMD, and needs what it does. -/
theorem safe_sectionsLoop_iff (ss : List (Section M))
    (hcov : ∀ s ∈ ss, x.packetStructure.Covers s.getType) (v : Locals M)
    (hnull : v.isCmdNull = false) (hok : v.isFooterOk = true) :
    Prog.safe NotPointer (fun _ => True) (x.reading.sectionsLoop ss v)
      ↔ (.cmd ∈ ss.map Section.getType → CmdFollows x.packetStructure) := by
  constructor
  · induction ss generalizing v with
    | nil => exact fun _ => nofun
    | cons s ss ih =>
        have hself := hcov s List.mem_cons_self
        intro hsafe hmem
        rw [sectionsLoop_cons hnull hok, Prog.safe_bind] at hsafe
        by_cases hs : s.getType = .cmd
        · rw [hs] at hsafe hself
          exact (safe_readCmd hself).mp (Prog.safe_mono (fun _ h => h) (fun _ _ => trivial) hsafe)
        · obtain ⟨v', ⟨hnull', hok'⟩, hrest⟩ :=
            Prog.exists_of_safe (safe_readSection hself hs) hsafe
          rw [List.map_cons, List.mem_cons] at hmem
          rcases hmem with heq | hmem
          · exact absurd heq.symm hs
          · exact ih (fun t ht => hcov t (List.mem_cons_of_mem s ht)) v' (hnull'.trans hnull)
              (hok'.trans hok) hrest hmem
  · intro hcmd
    -- the flags play no part here: a pass that stops early is safe too
    clear hnull hok
    induction ss generalizing v with
    | nil => trivial
    | cons s ss ih =>
        have hself := hcov s List.mem_cons_self
        have hrest := fun v => ih (fun t ht => hcov t (List.mem_cons_of_mem s ht)) v
          fun hmem => hcmd (List.mem_cons_of_mem _ hmem)
        rw [sectionsLoop]
        split
        · trivial
        · rw [Prog.safe_bind]
          by_cases hs : s.getType = .cmd
          · rw [hs] at hself ⊢
            apply Prog.safe_mono (fun _ h => h) (fun v _ => hrest v)
            exact (safe_readCmd hself).mpr (hcmd (by rw [List.map_cons, hs]; exact List.mem_cons_self))
          · exact Prog.safe_mono (fun _ h => h.elim) (fun v _ => hrest v) (safe_readSection hself hs)

/-- **With `extractor_` set**, an accepted structure is safe to run exactly
when it has no CMD section or the CMD branch has what it needs. -/
theorem safe_findMessage_iff {p : PacketStructure M}
    {initPacketStructure : List (Section M) → List (Section M)}
    (hnew : MessageExtractor.new p initPacketStructure = .ok x) :
    (∀ fuel, Prog.safe NotPointer (fun _ => True) (x.reading.findMessage fuel)) ↔
      (.cmd ∈ (initPacketStructure p.packet).map Section.getType →
        CmdFollows x.packetStructure) := by
  rw [← (new_spec hnew).2]
  have hpass := fun msg : Option M =>
    safe_sectionsLoop_iff x.packetSections (covers_of_new hnew) { msg := msg } rfl rfl
  constructor
  · intro h
    have hone := h 1
    rw [findMessage, findLoop, Prog.safe_bind] at hone
    exact (hpass none).mp (Prog.safe_mono (fun _ h => h) (fun _ _ => trivial) hone)
  · intro h fuel
    rw [findMessage]
    generalize (none : Option M) = msg
    induction fuel generalizing msg with
    | zero => trivial
    | succ fuel ih =>
        rw [findLoop, Prog.safe_bind]
        exact Prog.safe_mono (fun _ h => h) (fun v _ => ih v.msg) ((hpass msg).mpr h)

end

end HpLib.MessageExtractor
