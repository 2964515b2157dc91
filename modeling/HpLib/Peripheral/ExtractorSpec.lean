import HpLib.Peripheral.LengthField

/-!
# What the extractor asks for

One `wp` rule for each function of `find_message`, for the extractor as it
is meant to be read, and what a `CircularBuffer` answers. The proofs about
`find_message` use these and do not unfold the functions again.
-/

namespace HpLib.MessageExtractor

open Lib CircularBuffer

variable {M α : Type} {R : Request → Prop}

@[simp] theorem wp_ask (r : Request) {Q : r.Answer → Prop} :
    Prog.wp R Q (ask r) ↔ R r ∧ ∀ x, Q x := Iff.rfl

@[simp] theorem wp_deref (o : Option α) {Q : α → Prop} :
    Prog.wp R Q (deref o) ↔ ∀ a, o = some a → Q a := by
  cases o with
  | none => simp [deref]
  | some a => simp [deref]

@[simp] theorem structureOf_reading (x : MessageExtractor M) :
    x.reading.structureOf = pure x.packetStructure := rfl

/-- The constructor runs the loop over the sections and leaves `extractor_`
unset. -/
theorem new_eq_ok {p : PacketStructure M}
    {initPacketStructure : List (Section M) → List (Section M)} {x : MessageExtractor M} :
    MessageExtractor.new p initPacketStructure = .ok x ↔
      ∃ q, (initPacketStructure p.packet).foldlM PacketStructure.visit
          (p.initPacket initPacketStructure) = .ok q ∧
        x = { packetStructure := q, packetSections := initPacketStructure p.packet,
              extractor := none } := by
  constructor
  · intro h
    obtain ⟨⟨ret, q⟩, hcheck, hx⟩ := bind_eq_ok.mp h
    obtain ⟨p', hfold, hp'⟩ := bind_eq_ok.mp hcheck
    cases hp'
    cases hx
    exact ⟨q, hfold, rfl⟩
  · rintro ⟨q, hfold, rfl⟩
    exact bind_eq_ok.mpr ⟨(true, q), bind_eq_ok.mpr ⟨q, hfold, rfl⟩, rfl⟩

/-- A structure that the constructor took has a pointer for each section. -/
theorem covers_of_new {p : PacketStructure M}
    {initPacketStructure : List (Section M) → List (Section M)} {x : MessageExtractor M}
    (h : MessageExtractor.new p initPacketStructure = .ok x) :
    ∀ s ∈ x.packetSections, x.packetStructure.Covers s.getType := by
  obtain ⟨q, hfold, rfl⟩ := new_eq_ok.mp h
  exact (PacketStructure.foldlM_visit_covers hfold).1

@[simp] theorem wp_readNextByte {Q : UInt8 → Prop} :
    Prog.wp R Q readNextByte ↔ R (.read 1) ∧ ∀ c, Q c := by
  rw [readNextByte, Prog.wp_bind, wp_ask]
  refine and_congr_right fun _ => ⟨fun h c => h ⟨[c], rfl⟩, fun h x => h _⟩

theorem wp_getNextBytesLoop (k : Nat) {Q : Bytes → Prop} :
    Prog.wp R Q (getNextBytesLoop k)
      ↔ (0 < k → R (.read 1)) ∧ ∀ bs : Bytes, bs.length = k → Q bs := by
  induction k generalizing Q with
  | zero => simp [getNextBytesLoop]
  | succ k ih =>
      simp only [getNextBytesLoop, Prog.wp_bind, wp_readNextByte, ih, Prog.wp_pure]
      constructor
      · rintro ⟨hR, h⟩
        refine ⟨fun _ => hR, fun bs hbs => ?_⟩
        cases bs with
        | nil => cases hbs
        | cons c rest => exact (h c).2 rest (Nat.succ.inj hbs)
      · rintro ⟨hR, h⟩
        have hR := hR (Nat.succ_pos k)
        exact ⟨hR, fun c => ⟨fun _ => hR, fun rest hrest => h (c :: rest) (by rw [List.length_cons, hrest])⟩⟩

@[simp] theorem wp_getNextBytes (size : UInt32) {Q : Bytes → Prop} :
    Prog.wp R Q (getNextBytes size)
      ↔ (0 < size.toNat → R (.read 1)) ∧ ∀ bs : Bytes, bs.length = size.toNat → Q bs :=
  wp_getNextBytesLoop size.toNat

variable {x : MessageExtractor M} {v : Locals M} {Q : Locals M → Prop}

/-- The CMD branch reads its bytes, and goes on with a message or, after the
report, with none. -/
theorem wp_readCmd :
    Prog.wp R Q (x.reading.readCmd v) ↔ ∀ c, x.packetStructure.cmd = some c →
      (0 < c.sizeBytes.toNat → R (.read 1)) ∧ ∀ cmd : Bytes, cmd.length = c.sizeBytes.toNat →
        ∀ factory, c.msgFactory = some factory →
          (∀ msg, factory (cString cmd) = some msg → Q { v with cmd := cmd, msg := some msg }) ∧
          (factory (cString cmd) = none → ∀ h, x.packetStructure.header = some h →
            R (.packetSectionError .wrongCmd [(.header, h.content), (.cmd, cmd)]) ∧
              Q { v with cmd := cmd, msg := none, isCmdNull := true }) := by
  simp only [readCmd, structureOf_reading, Prog.wp_bind, Prog.wp_pure, wp_deref, wp_getNextBytes]
  -- the factory decides how the branch goes on
  refine forall₂_congr fun c _ => and_congr_right fun _ => forall₂_congr fun cmd _ =>
    forall₂_congr fun factory _ => ?_
  cases hmsg : factory (cString cmd) with
  | some msg => simp
  | none =>
      simp only [Prog.wp_bind, Prog.wp_pure, wp_deref, wp_ask, reduceCtorEq, false_implies,
        implies_true, true_and, forall_const]
      refine forall₂_congr fun h _ => and_congr_right fun _ => ⟨fun hx => hx (), fun hx _ => hx⟩

/-- The Length branch reads its bytes and takes what they declare. -/
theorem wp_readLength :
    Prog.wp R Q (x.reading.readLength v) ↔ ∀ l, x.packetStructure.length = some l →
      (0 < l.sizeBytes.toNat → R (.read 1)) ∧ ∀ len : Bytes, len.length = l.sizeBytes.toNat →
        ∀ lenVal, calcLen (len ++ [0]) l.sizeBytes l.isFirstByteMsb = .ok lenVal →
          Q { v with len := len, dataLen := lenVal.toUInt32, canFindLength := true } := by
  simp only [readLength, structureOf_reading, Prog.wp_bind, Prog.wp_pure, wp_deref,
    wp_getNextBytes, Prog.wp_ofExcept]

/-- With a Length section in the structure, the Data branch reads as many
bytes as were declared. -/
theorem wp_readData [SerializableMessage M] (hlen : x.packetStructure.isLengthExist = true) :
    Prog.wp R Q (x.reading.readData v) ↔ R (.read v.dataLen) ∧
      ∀ data : Bytes, data.length = v.dataLen.toNat →
        Q { v with data := data, dataSize := v.dataLen } := by
  simp only [readData, dataSizeOf, structureOf_reading, Prog.wp_bind, Prog.wp_pure, hlen, if_true,
    wp_ask]
  exact and_congr_right fun _ => ⟨fun h data hdata => h ⟨data, hdata⟩, fun h data => h _ data.2⟩

theorem wp_readCrc :
    Prog.wp R Q (x.reading.readCrc v) ↔ ∀ c, x.packetStructure.crc = some c →
      (0 < c.sizeBytes.toNat → R (.read 1)) ∧ ∀ crc : Bytes, crc.length = c.sizeBytes.toNat →
        Q { v with crc := crc } := by
  simp only [readCrc, structureOf_reading, Prog.wp_bind, Prog.wp_pure, wp_deref, wp_getNextBytes]

theorem wp_readFooter :
    Prog.wp R Q (x.reading.readFooter v) ↔ ∀ f, x.packetStructure.footer = some f →
      (0 < (UInt32.ofNat f.content.length).toNat → R (.read 1)) ∧
        ∀ footer : Bytes, footer.length = (UInt32.ofNat f.content.length).toNat →
          Q { v with footer := footer } := by
  simp only [readFooter, structureOf_reading, Prog.wp_bind, Prog.wp_pure, wp_deref,
    wp_getNextBytes]

/-- A pass that has given up does nothing more. -/
theorem sectionsLoop_stop [SerializableMessage M] (ss : List (Section M))
    (hstop : (v.isCmdNull || !v.isFooterOk) = true) : x.sectionsLoop ss v = pure v := by
  cases ss with
  | nil => rfl
  | cons s ss => rw [sectionsLoop, if_pos hstop]

/-! ## What the buffer answers -/

variable {n : UInt32} {b : CircularBuffer} {q : BoundedQueue UInt8 (n.toNat - 1)}

/-- A read of no more than is unread is answered with the oldest bytes. -/
theorem serve_read (h : Holds n b q) (len : UInt32) (hle : len.toNat ≤ q.items.length) :
    ∃ (b' : CircularBuffer) (hlen : (q.items.take len.toNat).length = len.toNat),
      serve b (.read len) = some (⟨q.items.take len.toNat, hlen⟩, b') ∧
        Holds n b' (q.pop len.toNat) := by
  obtain ⟨b', hread, hnext⟩ := h.read (zeros len) 0 (by rw [zeros_length]; exact hle)
  rw [zeros_len, zeros_length] at hread
  rw [zeros_length] at hnext
  have hlen : (q.items.take len.toNat).length = len.toNat := List.length_take_of_le hle
  refine ⟨b', hlen, ?_, hnext⟩
  have hrun : b.read (List.replicate len.toNat 0) len 0
      = .ok (.returns (.bufNoError, q.items.take len.toNat) b') := hread
  rw [serve]
  simp only [hrun, dif_pos hlen]

/-- One that asks for more sleeps. -/
theorem serve_read_none (h : Holds n b q) {len : UInt32} (hlt : q.items.length < len.toNat) :
    serve b (.read len) = none := by
  have hshort := h.read_short (zeros len) 0 (by rw [zeros_length]; exact hlt)
  rw [zeros_len, if_pos rfl] at hshort
  have hrun : b.read (List.replicate len.toNat 0) len 0 = .ok .waits := hshort
  rw [serve]
  simp only [hrun]

theorem peerWrites_holds (h : Holds n b q) (d : Chunk) :
    ∃ b', peerWrites b d = some b' ∧ Holds n b' (q.push d.bytes) := by
  obtain ⟨b', hwrite, hnext⟩ := h.write d
  exact ⟨b', by rw [peerWrites, hwrite], hnext⟩

/-- Answers leave a buffer that holds a queue. -/
theorem holds_of_serve (h : Holds n b q) {r : Request} {a : r.Answer} {b' : CircularBuffer}
    (hs : serve b r = some (a, b')) : ∃ q', Holds n b' q' := by
  cases r with
  | packetSectionError e p =>
      cases hs
      exact ⟨q, h⟩
  | read len =>
      by_cases hle : len.toNat ≤ q.items.length
      · obtain ⟨b'', hlen, hrun, hnext⟩ := serve_read h len hle
        cases hrun.symm.trans hs
        exact ⟨_, hnext⟩
      · rw [serve_read_none h (Nat.lt_of_not_le hle)] at hs
        cases hs

/-- In every state of a call the buffer holds a queue of its capacity. -/
theorem holds_of_reachable [SerializableMessage M] {b₀ : CircularBuffer} {q₀ : BoundedQueue UInt8 (n.toNat - 1)}
    (h : Holds n b₀ q₀) {fuel : Nat} {s : CircularBuffer × Extract (Option M)}
    (hs : (x.system b₀ fuel).Reachable s) : ∃ q, Holds n s.1 q := by
  refine Prog.inv_of_reachable (I := fun b => ∃ q, Holds n b q) ?_ ?_ ⟨q₀, h⟩ hs
  · rintro b d b' ⟨q, hq⟩ hd
    obtain ⟨b'', hrun, hnext⟩ := peerWrites_holds hq d
    cases hrun.symm.trans hd
    exact ⟨_, hnext⟩
  · rintro b r a b' ⟨q, hq⟩ hserve
    exact holds_of_serve hq hserve

end HpLib.MessageExtractor
