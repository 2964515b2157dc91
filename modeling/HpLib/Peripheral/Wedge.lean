import HpLib.Peripheral.ExtractorSpec

/-!
# Can a peer wedge the extractor?

A ring of capacity `n` never holds more than `n - 1` bytes, so a read of more
sleeps for ever. The length that `find_message` reads with comes off the
wire, and nothing compares it with the buffer. `Fits` says of a packet
structure when no length that its fields can express is too much, and the
theorem below that this is exactly when no peer can wedge the call.
-/

namespace HpLib.MessageExtractor

open Lib CircularBuffer

variable {M : Type}

/-- Reads of at most `m` bytes. -/
def Small (m : Nat) : Request → Prop
  | .read len => len.toNat ≤ m
  | .packetSectionError _ _ => True

/-- The bytes of the CMD section. -/
def cmdSize (p : PacketStructure M) : Nat :=
  match p.cmd with
  | some c => c.sizeBytes.toNat
  | none => 0

/-- The bytes of the Length section. -/
def lengthSize (p : PacketStructure M) : Nat :=
  match p.length with
  | some l => l.sizeBytes.toNat
  | none => 0

/-- The bytes of the CRC section. -/
def crcSize (p : PacketStructure M) : Nat :=
  match p.crc with
  | some c => c.sizeBytes.toNat
  | none => 0

/-- The bytes of the Footer section. -/
def footerSize (p : PacketStructure M) : Nat :=
  match p.footer with
  | some f => (UInt32.ofNat f.content.length).toNat
  | none => 0

/-- The most that the Length section can declare. -/
def declarable (p : PacketStructure M) : Nat :=
  match p.length with
  | some l => maxLen l.sizeBytes l.isFirstByteMsb
  | none => 0

/-- Some command makes the factory build a message. -/
def CanBuild (p : PacketStructure M) : Prop :=
  ∃ c factory cmd, p.cmd = some c ∧ c.msgFactory = some factory ∧
    cmd.length = c.sizeBytes.toNat ∧ (factory (cString cmd)).isSome = true

/-- No section that a pass comes to reads more than `m` bytes at once: fields
are read byte by byte, and data in one go, as much as has been `declared`. -/
def Fits (m : Nat) (p : PacketStructure M) : List PacketSections → Nat → Prop
  | [], _ => True
  | .header :: ts, declared => Fits m p ts declared
  | .cmd :: ts, declared => (0 < cmdSize p → 1 ≤ m) ∧ (CanBuild p → Fits m p ts declared)
  | .length :: ts, _ => (0 < lengthSize p → 1 ≤ m) ∧ Fits m p ts (declarable p)
  | .data :: ts, declared => declared ≤ m ∧ Fits m p ts declared
  | .crc :: ts, declared => (0 < crcSize p → 1 ≤ m) ∧ Fits m p ts declared
  | .footer :: ts, declared => (0 < footerSize p → 1 ≤ m) ∧ Fits m p ts declared
  | .other :: ts, declared => Fits m p ts declared

variable {m : Nat} {p : PacketStructure M}

/-- Declaring less never hurts. -/
theorem Fits.anti {ts : List PacketSections} {d d' : Nat} (hle : d ≤ d')
    (h : Fits m p ts d') : Fits m p ts d := by
  induction ts with
  | nil => trivial
  | cons t ts ih =>
      cases t with
      | header => exact ih h
      | cmd => exact ⟨h.1, fun hc => ih (h.2 hc)⟩
      | length => exact h
      | data => exact ⟨Nat.le_trans hle h.1, ih h.2⟩
      | crc => exact ⟨h.1, ih h.2⟩
      | footer => exact ⟨h.1, ih h.2⟩
      | other => exact ih h

theorem isLengthExist_of_mem {x : MessageExtractor M}
    (hcov : ∀ s ∈ x.packetSections, x.packetStructure.Covers s.getType)
    (hlen : PacketSections.length ∈ x.packetSections.map Section.getType) :
    x.packetStructure.isLengthExist = true := by
  obtain ⟨s, hs, htype⟩ := List.mem_map.mp hlen
  have hself := hcov s hs
  rw [htype] at hself
  exact hself.2

section

variable [SerializableMessage M] {x : MessageExtractor M}

/-- What a pass reads from section to section. -/
theorem wp_sectionsLoop_iff (hexist : x.packetStructure.isLengthExist = true)
    (ss : List (Section M)) (hcov : ∀ s ∈ ss, x.packetStructure.Covers s.getType) (v : Locals M)
    (hnull : v.isCmdNull = false) (hok : v.isFooterOk = true) :
    Prog.wp (Small m) (fun _ => True) (x.reading.sectionsLoop ss v)
      ↔ Fits m x.packetStructure (ss.map Section.getType) v.dataLen.toNat := by
  induction ss generalizing v with
  | nil => exact Iff.rfl
  | cons s ss ih =>
      have hself := hcov s List.mem_cons_self
      have hrest : ∀ t ∈ ss, x.packetStructure.Covers t.getType :=
        fun t ht => hcov t (List.mem_cons_of_mem s ht)
      have ih := fun v => ih hrest v
      rw [sectionsLoop, hnull, hok]
      simp only [Bool.not_true, Bool.or_self, Bool.false_eq_true, if_false, Prog.wp_bind,
        List.map_cons]
      cases ht : s.getType with
      | header => exact ih v hnull hok
      | other => exact ih v hnull hok
      | cmd =>
          rw [ht] at hself
          obtain ⟨c, hc⟩ := Option.isSome_iff_exists.mp hself
          rw [readSection, wp_readCmd, Fits, cmdSize, hc]
          simp only [Option.some.injEq, forall_eq']
          -- what stands behind the command counts only if some command gets there
          refine and_congr_right fun _ => ⟨fun h hbuild => ?_, fun h cmd hcmd factory hfac => ?_⟩
          · obtain ⟨c', factory, cmd, hc', hfac, hcmd, hsome⟩ := hbuild
            cases hc.symm.trans hc'
            obtain ⟨msg, hmsg⟩ := Option.isSome_iff_exists.mp hsome
            exact (ih { v with cmd := cmd, msg := some msg } hnull hok).mp
              ((h cmd hcmd factory hfac).1 msg hmsg)
          · refine ⟨fun msg hmsg => ?_, fun _ _ _ => ⟨trivial, ?_⟩⟩
            · exact (ih { v with cmd := cmd, msg := some msg } hnull hok).mpr
                (h ⟨c, factory, cmd, hc, hfac, hcmd, by rw [hmsg]; rfl⟩)
            · rw [sectionsLoop_stop ss rfl]
              trivial
      | length =>
          rw [ht] at hself
          obtain ⟨l, hl⟩ := Option.isSome_iff_exists.mp hself.1
          rw [readSection, wp_readLength, Fits, lengthSize, declarable, hl]
          simp only [Option.some.injEq, forall_eq']
          refine and_congr_right fun _ => ⟨fun h => ?_, fun h len hlen lenVal hval => ?_⟩
          · -- the peer may send the field that declares the most
            obtain ⟨len, lenVal, hlen, hval, hmax⟩ :=
              exists_calcLen_eq_maxLen l.sizeBytes l.isFirstByteMsb
            rw [← hmax]
            exact (ih { v with len := len, dataLen := lenVal.toUInt32, canFindLength := true }
              hnull hok).mp (h len hlen lenVal hval)
          · exact (ih { v with len := len, dataLen := lenVal.toUInt32, canFindLength := true }
              hnull hok).mpr (h.anti (calcLen_le hlen hval))
      | data =>
          rw [readSection, wp_readData hexist, Fits]
          refine and_congr_right fun _ => ⟨fun h => ?_, fun h data _ => ?_⟩
          · exact (ih { v with data := List.replicate _ 0, dataSize := v.dataLen } hnull hok).mp
              (h (List.replicate _ 0) List.length_replicate)
          · exact (ih { v with data := data, dataSize := v.dataLen } hnull hok).mpr h
      | crc =>
          rw [ht] at hself
          obtain ⟨c, hc⟩ := Option.isSome_iff_exists.mp hself
          rw [readSection, wp_readCrc, Fits, crcSize, hc]
          simp only [Option.some.injEq, forall_eq']
          refine and_congr_right fun _ => ⟨fun h => ?_, fun h crc _ => ?_⟩
          · exact (ih { v with crc := List.replicate _ 0 } hnull hok).mp
              (h (List.replicate _ 0) List.length_replicate)
          · exact (ih { v with crc := crc } hnull hok).mpr h
      | footer =>
          rw [ht] at hself
          obtain ⟨f, hf⟩ := Option.isSome_iff_exists.mp hself
          rw [readSection, wp_readFooter, Fits, footerSize, hf]
          simp only [Option.some.injEq, forall_eq']
          refine and_congr_right fun _ => ⟨fun h => ?_, fun h footer _ => ?_⟩
          · exact (ih { v with footer := List.replicate _ 0 } hnull hok).mp
              (h (List.replicate _ 0) List.length_replicate)
          · exact (ih { v with footer := footer } hnull hok).mpr h

/-- Every pass reads what the first one does. -/
theorem wp_findLoop (hpass : ∀ msg, Prog.wp (Small m) (fun _ => True)
      (x.reading.sectionsLoop x.reading.packetSections { msg := msg })) (fuel : Nat)
    (msg : Option M) :
    Prog.wp (Small m) (fun _ => True) (x.reading.findLoop fuel msg false) := by
  induction fuel generalizing msg with
  | zero => trivial
  | succ fuel ih =>
      rw [findLoop, Prog.wp_bind]
      exact Prog.wp_of_forall (fun v => ih v.msg) (hpass msg)

theorem wp_findMessage_iff (hexist : x.packetStructure.isLengthExist = true)
    (hcov : ∀ s ∈ x.packetSections, x.packetStructure.Covers s.getType) :
    (∀ fuel, Prog.wp (Small m) (fun _ => True) (x.reading.findMessage fuel))
      ↔ Fits m x.packetStructure (x.packetSections.map Section.getType) 0 := by
  have hpass := fun msg : Option M =>
    wp_sectionsLoop_iff (m := m) hexist x.packetSections hcov { msg := msg } rfl rfl
  constructor
  · intro h
    have hone := h 1
    rw [findMessage, findLoop, Prog.wp_bind] at hone
    exact (hpass none).mp (Prog.wp_mono (fun _ _ => trivial) hone)
  · intro h fuel
    exact wp_findLoop (fun msg => (hpass msg).mpr h) fuel none

/-! ## Against a buffer that the peer fills -/

variable {n : UInt32} {b : CircularBuffer} {q : BoundedQueue UInt8 (n.toNat - 1)}

/-- Some further writes make the wake-up predicate of a read true. -/
def CanWake (b : CircularBuffer) (len : UInt32) : Prop :=
  ∃ (ds : List Chunk) (rs : List Reply) (b' : CircularBuffer),
    execCalls queueCall b (ds.map .write) = .ok (rs, b') ∧ b'.checkFreeSpace len = true

/-- As many bytes as the ring takes, beginning with `bs`. -/
def fill (n : UInt32) (bs : Bytes) (h : bs.length ≤ n.toNat - 1) : Chunk :=
  ⟨bs ++ List.replicate (n.toNat - 1 - bs.length) 0, by
    have hlt := n.toNat_lt
    rw [List.length_append, List.length_replicate]
    omega⟩

/-- It overwrites everything there was. -/
theorem push_fill {bs : Bytes} (h : bs.length ≤ n.toNat - 1) :
    (q.push (fill n bs h).bytes).items = (fill n bs h).bytes := by
  have hlen : (fill n bs h).bytes.length = n.toNat - 1 := by
    rw [fill, List.length_append, List.length_replicate]
    omega
  rw [BoundedQueue.push_items, List.rtake, List.length_append, hlen, Nat.add_sub_cancel,
    List.drop_left]

theorem canWake_iff (h : Holds n b q) (len : UInt32) : CanWake b len ↔ len.toNat ≤ n.toNat - 1 := by
  constructor
  · rintro ⟨ds, rs, b', hrun, hfree⟩
    obtain ⟨b'', hrun', hholds⟩ := execCalls_refines (R := Holds n)
      (fun _ _ call hc => queueCall_refines hc call) h (ds.map QueueCall.write)
    cases hrun.symm.trans hrun'
    rw [hholds.inv.checkFreeSpace_iff hholds.alive, hholds.used] at hfree
    exact Nat.le_trans hfree (BoundedQueue.bound _)
  · intro hle
    let d := fill n (List.replicate len.toNat 0) (by rw [List.length_replicate]; exact hle)
    obtain ⟨b', hwrite, hholds⟩ := h.write d
    refine ⟨[d], [.wrote _], b', by simp only [List.map, execCalls, queueCall, hwrite]; rfl, ?_⟩
    rw [hholds.inv.checkFreeSpace_iff hholds.alive, hholds.used, push_fill, fill,
      List.length_append, List.length_replicate]
    exact Nat.le_add_right _ _

/-- The peer can bring about every answer to a read that the ring can hold. -/
theorem supply (h : ∃ q : BoundedQueue UInt8 (n.toNat - 1), Holds n b q) (r : Request)
    (a : r.Answer) (hsmall : Small (n.toNat - 1) r) :
    ∃ d b' b'', peerWrites b d = some b' ∧ serve b' r = some (a, b'') ∧
      ∃ q : BoundedQueue UInt8 (n.toNat - 1), Holds n b'' q := by
  obtain ⟨q, hq⟩ := h
  cases r with
  | packetSectionError e p =>
      obtain ⟨b', hwrite, hholds⟩ := peerWrites_holds hq ⟨[], by decide⟩
      exact ⟨_, b', b', hwrite, rfl, _, hholds⟩
  | read len =>
      obtain ⟨bytes, hbytes⟩ := a
      have hle : bytes.length ≤ n.toNat - 1 := hbytes ▸ hsmall
      obtain ⟨b', hwrite, hholds⟩ := peerWrites_holds hq (fill n bytes hle)
      have hitems : (q.push (fill n bytes hle).bytes).items = (fill n bytes hle).bytes :=
        push_fill hle
      have htake : (q.push (fill n bytes hle).bytes).items.take len.toNat = bytes := by
        rw [hitems, fill, ← hbytes, List.take_left]
      obtain ⟨b'', hlen, hserve, hnext⟩ := serve_read hholds len (by
        rw [hitems, fill, List.length_append, hbytes]
        exact Nat.le_add_right _ _)
      refine ⟨_, b', b'', hwrite, ?_, _, hnext⟩
      rw [hserve]
      simp only [htake]

/-- Every read that a call issues, whatever the peer sends, asks for no more
than the ring can hold. -/
def NeverWedges (x : MessageExtractor M) (n : UInt32) (b : CircularBuffer) : Prop :=
  ∀ fuel b' len k, (x.system b fuel).Reachable (b', .ask (.read len) k) → len.toNat ≤ n.toNat - 1

/-- **A peer can wedge the extractor unless every declarable length fits.**
And what asks for too much is wedged: a pending read can be woken by some
further writes exactly when it asks for at most `n - 1` bytes. -/
theorem neverWedges_iff_fits (p : PacketStructure M)
    (initPacketStructure : List (Section M) → List (Section M))
    (hnew : MessageExtractor.new p initPacketStructure = .ok x)
    (hlen : PacketSections.length ∈ x.packetSections.map Section.getType)
    (hb : Holds n b q) :
    (NeverWedges x.reading n b
        ↔ Fits (n.toNat - 1) x.packetStructure (x.packetSections.map Section.getType) 0)
      ∧ ∀ fuel b' len k, (x.reading.system b fuel).Reachable (b', .ask (.read len) k) →
          (CanWake b' len ↔ len.toNat ≤ n.toNat - 1) := by
  have hcov := covers_of_new hnew
  refine ⟨?_, fun fuel b' len k hreach => ?_⟩
  · rw [← wp_findMessage_iff (isLengthExist_of_mem hcov hlen) hcov]
    constructor
    · intro hsafe fuel
      refine Prog.wp_of_runs (I := fun b => ∃ q : BoundedQueue UInt8 (n.toNat - 1), Holds n b q)
        (fun b r a hI hsmall => supply hI r a hsmall) ⟨q, hb⟩ (fun b' r k hreach => ?_)
      cases r with
      | read len => exact hsafe fuel b' len k hreach
      | packetSectionError e p => trivial
    · intro hwp fuel b' len k hreach
      exact (Prog.wp_of_reachable (hwp fuel) hreach).1
  · obtain ⟨q', hq'⟩ := holds_of_reachable hb hreach
    exact canWake_iff hq' len

end

/-- Header, a Length field of `k` bytes, Data. -/
def lengthLayout (k : UInt32) : List (Section Blob) :=
  [.header ⟨[0xaa, 0xff]⟩, .length ⟨k, PacketSections.data.bit, true⟩, .data ⟨0⟩]

/-- What the constructor makes of it. -/
def lengthExtractor (k : UInt32) : MessageExtractor Blob :=
  { packetStructure :=
      { packet := lengthLayout k, header := some ⟨[0xaa, 0xff]⟩,
        length := some ⟨k, PacketSections.data.bit, true⟩, data := some ⟨0⟩,
        isHeaderExist := true, isLengthExist := true, isDataExist := true },
    packetSections := lengthLayout k, extractor := none }

theorem new_lengthLayout (k : UInt32) :
    MessageExtractor.new {} (fun _ => lengthLayout k) = .ok (lengthExtractor k) := rfl

theorem length_mem_lengthLayout (k : UInt32) :
    PacketSections.length ∈ (lengthLayout k).map Section.getType :=
  List.mem_cons_of_mem _ List.mem_cons_self

/-- Two bytes declare at most 65535, which a ring of 65536 holds. -/
theorem neverWedges_iff_fits_two :
    NeverWedges (lengthExtractor 2).reading 65536 (CircularBuffer.new 65536) := by
  refine (neverWedges_iff_fits {} (fun _ => lengthLayout 2) (new_lengthLayout 2)
    (length_mem_lengthLayout 2) (Holds.new (by decide))).1.mpr ?_
  exact ⟨fun _ => by decide, by decide, trivial⟩

/-- One length byte on the buffer of `TCPClient::initialize`. The peer sends
`0xff`, which declares `2^32 - 1` bytes. -/
theorem one_byte_length_wedges :
    ¬ ∀ (p : PacketStructure Blob) (initPacketStructure : List (Section Blob) → List (Section Blob))
        (x : MessageExtractor Blob) (n : UInt32) (b : CircularBuffer)
        (q : BoundedQueue UInt8 (n.toNat - 1)),
      MessageExtractor.new p initPacketStructure = .ok x →
      PacketSections.length ∈ x.packetSections.map Section.getType → Holds n b q →
        NeverWedges x.reading n b := by
  intro hall
  have hb : Holds 1024 (CircularBuffer.new 1024) .empty := Holds.new (by decide)
  have hsafe := hall {} _ _ 1024 _ _ (new_lengthLayout 1) (length_mem_lengthLayout 1) hb
  obtain ⟨b₁, hwrite, h₁⟩ := peerWrites_holds hb ⟨[0xff], by decide⟩
  obtain ⟨b₂, hlen, hserve, -⟩ := serve_read h₁ 1 (by decide)
  -- a read of one byte, and after `0xff` one of `2^32 - 1`
  obtain ⟨k, hask, hnext⟩ : ∃ k, (lengthExtractor 1).reading.findMessage 1 = .ask (.read 1) k ∧
      ∀ h, ∃ k', k ⟨[0xff], h⟩ = .ask (.read 0xffffffff) k' := ⟨_, rfl, fun _ => ⟨_, rfl⟩⟩
  have hstart : ((lengthExtractor 1).reading.system (CircularBuffer.new 1024) 1).Reachable
      (CircularBuffer.new 1024, .ask (.read 1) k) := ⟨[], by rw [← hask]; rfl⟩
  have hsent := Prog.reachable_serve (Prog.reachable_env hstart hwrite) hserve
  obtain ⟨k', hk'⟩ := hnext hlen
  exact absurd (hsafe 1 b₂ 0xffffffff k' (hk' ▸ hsent)) (by decide)

end HpLib.MessageExtractor
