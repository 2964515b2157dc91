import HpLib.Peripheral.Framing
import HpLib.Peripheral.Independence
import HpLib.Peripheral.Scheduling

/-!
# From the sender's packets to the receiver's passes

A sender fills in the fields of its packets and writes them one behind the
other. Where each field is as long as the fields before it tell the receiver,
the passes of `find_message` find the same fields again, packet by packet, in
whatever pieces and at whatever times the stream comes in
(`packets_round_trip`). A Header with bytes on the wire is not as long as
that: no pass reads any of it. As everywhere in what the passes find,
`extractor_` is the packet structure (`reading`).
-/

namespace HpLib.MessageExtractor

open Lib CircularBuffer PacketStructure

variable {M : Type}

/-- What a sender fills a packet with. -/
structure Fields where
  cmd : Bytes := []
  len : Bytes := []
  data : Bytes := []
  crc : Bytes := []
  footer : Bytes := []
  deriving Repr, DecidableEq

namespace Fields

/-- The bytes of a section. Those of a Header are its own. -/
def of (f : Fields) : Section M → Bytes
  | .header h => h.content
  | .cmd _ => f.cmd
  | .length _ => f.len
  | .data _ => f.data
  | .crc _ => f.crc
  | .footer _ => f.footer
  | .other _ => []

/-- The packet on the wire. -/
def encode (f : Fields) (ss : List (Section M)) : Bytes :=
  ss.flatMap f.of

/-- The factory makes a message of the command. -/
def known (f : Fields) : Section M → Bool
  | .cmd c => (built c f.cmd).isSome
  | _ => true

/-- The message object after the sections. -/
def msgAfter (f : Fields) (ss : List (Section M)) (msg : Option M) : Option M :=
  ss.foldl (fun msg s => nextMsg msg (f.of s) s) msg

/-- Each field is as long as a pass will take it to be; a Header has none. -/
def Fits [SerializableMessage M] (f : Fields) (framed : Bool) :
    Nat → Option M → List (Section M) → Prop
  | _, _, [] => True
  | declared, msg, s :: ss =>
      (f.of s).length = sectionSize framed declared msg s ∧ f.known s ∧
        f.Fits framed (nextDeclared declared (f.of s) s)
          (nextMsg msg (f.of s) s) ss

instance decidableFits [SerializableMessage M] (f : Fields) (framed : Bool) : (declared : Nat) →
    (msg : Option M) → (ss : List (Section M)) → Decidable (f.Fits framed declared msg ss)
  | _, _, [] => .isTrue trivial
  | declared, msg, s :: ss =>
      have := decidableFits f framed (nextDeclared declared (f.of s) s)
        (nextMsg msg (f.of s) s) ss
      inferInstanceAs (Decidable (_ ∧ _ ∧ _))

end Fields

/-- The packets of a sender, of less than 4 GiB each. -/
def Formed [SerializableMessage M] (framed : Bool) (ss : List (Section M)) :
    Option M → List Fields → Prop
  | _, [] => True
  | msg, f :: fs =>
      f.Fits framed 0 msg ss ∧ (f.encode ss).length < 2 ^ 32 ∧
        Formed framed ss (f.msgAfter ss msg) fs

instance decidableFormed [SerializableMessage M] (framed : Bool) (ss : List (Section M)) :
    (msg : Option M) → (fs : List Fields) → Decidable (Formed framed ss msg fs)
  | _, [] => .isTrue trivial
  | msg, f :: fs =>
      have := decidableFormed framed ss (f.msgAfter ss msg) fs
      inferInstanceAs (Decidable (_ ∧ _ ∧ _))

/-- A pass has found the fields. -/
def Shows (ss : List (Section M)) (v : Locals M) (f : Fields) : Prop :=
  ∀ s ∈ ss, text v s.getType = f.of s

/-! ## One packet -/

variable [SerializableMessage M] {x : MessageExtractor M} {v : Locals M} {f : Fields}

omit [SerializableMessage M] in
theorem runBytes_readCmd_append {c : CMDSection M} {factory : Bytes → Option M} {msg : M}
    {cmd : Bytes} (hc : x.packetStructure.cmd = some c) (hfac : c.msgFactory = some factory)
    (hsize : cmd.length = c.sizeBytes.toNat) (hmsg : factory (cString cmd) = some msg)
    (rest : Bytes) :
    runBytes (x.reading.readCmd v) (cmd ++ rest)
      = some (.ok { v with cmd := cmd, msg := some msg }, rest) := by
  have htake : (cmd ++ rest).take c.sizeBytes.toNat = cmd := List.take_left' hsize
  have hdrop : (cmd ++ rest).drop c.sizeBytes.toNat = rest := List.drop_left' hsize
  have hle : c.sizeBytes.toNat ≤ (cmd ++ rest).length := by
    rw [List.length_append]
    omega
  rw [← htake] at hmsg
  have hrun := runBytes_readCmd (v := v) hc hfac hle hmsg
  rwa [htake, hdrop] at hrun

/-- One field is read as it was written. -/
theorem runBytes_field_of {s : Section M} (hpoints : x.packetStructure.PointsTo s)
    (hsize : (f.of s).length
      = sectionSize x.packetStructure.isLengthExist v.dataLen.toNat v.msg s)
    (hknown : f.known s) {rest : Bytes} (hlt : (f.of s ++ rest).length < 2 ^ 32) :
    runBytes (x.reading.readSection v s.getType) (f.of s ++ rest)
      = some (.ok (filled v (f.of s) s), rest) := by
  by_cases hcmd : ∃ c, s = .cmd c
  · obtain ⟨c, rfl⟩ := hcmd
    obtain ⟨msg, hmsg⟩ := Option.isSome_iff_exists.mp hknown
    obtain ⟨factory, hfac, hbuilt⟩ := Option.bind_eq_some_iff.mp hmsg
    have hrun := runBytes_readCmd_append (v := v) hpoints hfac hsize hbuilt rest
    rw [← hmsg] at hrun
    exact hrun
  · have hle : sectionSize x.packetStructure.isLengthExist v.dataLen.toNat v.msg s
        ≤ (f.of s ++ rest).length := by
      rw [← hsize, List.length_append]
      exact Nat.le_add_right _ _
    have hrun := runBytes_readSection (v := v) hpoints (fun c hc => absurd ⟨c, hc⟩ hcmd) hlt hle
    rwa [List.take_left' hsize, List.drop_left' hsize] at hrun

/-- A Header that is as long as a pass takes it to be has no bytes. -/
theorem Fields.of_eq_nil {s : Section M} (h : s.getType = .header) {framed : Bool} {declared : Nat}
    {msg : Option M} (hsize : (f.of s).length = sectionSize framed declared msg s) :
    f.of s = [] := by
  cases s with
  | header s => exact List.length_eq_zero_iff.mp hsize
  | _ => cases h

/-- **One packet** is read as it was written. -/
theorem runBytes_encode {ss : List (Section M)}
    (hpoints : ∀ s ∈ ss, x.packetStructure.PointsTo s) (hone : AtMostOne ss)
    (hnull : v.isCmdNull = false) (hok : v.isFooterOk = true)
    (hfits : f.Fits x.packetStructure.isLengthExist v.dataLen.toNat v.msg ss)
    (hlt : (f.encode ss).length < 2 ^ 32) :
    ∃ v', runBytes (x.reading.sectionsLoop ss v) (f.encode ss) = some (.ok v', []) ∧
      Shows ss v' f ∧ (∀ t, t ∉ ss.map Section.getType → text v' t = text v t) ∧
      v'.msg = f.msgAfter ss v.msg := by
  induction ss generalizing v with
  | nil => exact ⟨v, rfl, fun s hs => absurd hs List.not_mem_nil, fun _ _ => rfl, rfl⟩
  | cons s ss ih =>
      obtain ⟨hsize, hknown, hfits⟩ := hfits
      obtain ⟨hfirst, hone'⟩ := List.pairwise_cons.mp hone
      have hs := hpoints s List.mem_cons_self
      have hread := runBytes_field_of hs hsize hknown hlt
      have hself : text (filled v (f.of s) s) s.getType = f.of s := by
        cases s with
        | header s => exact (Fields.of_eq_nil rfl hsize).symm
        | other s => exact hs.elim
        | _ => rfl
      have hlt' : (f.encode ss).length < 2 ^ 32 := by
        rw [Fields.encode, List.flatMap_cons, List.length_append] at hlt
        exact Nat.lt_of_le_of_lt (Nat.le_add_left _ _) hlt
      rw [← filled_msg, ← filled_dataLen] at hfits
      obtain ⟨v', hrun, hshows, hkeep, hlast⟩ :=
        ih (fun t ht => hpoints t (List.mem_cons_of_mem s ht)) hone'
          (by cases s <;> exact hnull) (by cases s <;> exact hok) hfits hlt'
      refine ⟨v', ?_, ?_, ?_, ?_⟩
      · rw [sectionsLoop_cons hnull hok]
        exact (Prog.run_bind_ok hread).trans hrun
      · intro t ht
        rcases List.mem_cons.mp ht with rfl | ht
        · by_cases hmem : t.getType ∈ ss.map Section.getType
          · -- a later section of its type is a Header, and both find nothing
            obtain ⟨u, hu, htype⟩ := List.mem_map.mp hmem
            have hheader := hfirst u hu htype.symm
            rw [Fields.of_eq_nil hheader hsize, hheader, text]
          · rw [hkeep _ hmem, hself]
        · exact hshows t ht
      · intro t ht
        rw [List.map_cons, List.mem_cons, not_or] at ht
        rw [hkeep t ht.2, text_filled_of_ne v _ ht.1]
      · rw [hlast, filled_msg]
        rfl

/-! ## All of them -/

variable {init : List (Section M) → List (Section M)} {fs : List Fields} {msg : Option M}

/-- The packets are read as they were written, one after the other. -/
theorem runBytes_stream (hnew : MessageExtractor.new {} init = .ok x) (hone : AtMostOne (init []))
    (hformed : Formed x.packetStructure.isLengthExist (init []) msg fs) (rest : Bytes) :
    ∃ vs, runBytes (x.reading.passes fs.length msg)
        (fs.flatMap (fun f => f.encode (init [])) ++ rest) = some (.ok vs, rest) ∧
      List.Forall₂ (Shows (init [])) vs fs := by
  induction fs generalizing msg with
  | nil => exact ⟨[], rfl, .nil⟩
  | cons f fs ih =>
      obtain ⟨hfits, hlt, hformed⟩ := hformed
      obtain ⟨v, hrun, hshows, -, hmsg⟩ := runBytes_encode (v := { msg := msg })
        (pointsTo_of_new hnew hone) hone rfl rfl hfits hlt
      rw [← hmsg] at hformed
      obtain ⟨vs, hrest, hall⟩ := ih hformed
      have hpass := runBytes_append (fs.flatMap (fun f => f.encode (init [])) ++ rest) hrun
      refine ⟨v :: vs, ?_, .cons hshows hall⟩
      rw [List.flatMap_cons, List.append_assoc, List.length_cons, passes, runBytes,
        show x.reading.packetSections = init [] from (new_spec hnew).2, Prog.run_bind_ok hpass]
      exact Prog.run_bind_ok hrest

/-- Whatever has come in and whatever has been read, what is left to do on
what is left to read gives the whole. -/
theorem run_left {n : UInt32} {b : CircularBuffer} {q : BoundedQueue UInt8 (n.toNat - 1)}
    (h : Holds n b q) {α : Type} {p : Extract α} {as : List (Prog.ServerAct Chunk)}
    {s : CircularBuffer × Extract α}
    (hrun : (Prog.server serve peerWrites b p).exec (b, p) as = some s)
    (hfits : (Prog.server serve peerWrites b p).Guarded (Prog.Within HasRoom) (b, p) as) :
    ∃ q', Holds n s.1 q' ∧ runBytes p (q.items ++ arrived as) = runBytes s.2 q'.items := by
  obtain ⟨bytes, ⟨q', hq', rfl⟩, hexec, -⟩ := exec_bytes ⟨q, h, rfl⟩ hrun hfits
  obtain ⟨-, hresult⟩ := Prog.answers_of_exec lasting_bytes hexec
  rw [foldl_growBytes] at hresult
  exact ⟨q', hq', hresult⟩

/-- **What is sent is what is found**: the passes that `find_message` makes,
with `extractor_` set, on a stream of packets without Header bytes, in
whatever pieces and at whatever times it comes in without an overflow. They
never fail; when they are through, each has found the fields of its packet and
they have taken just the packets off the stream; and when all packets are
there, nothing more is needed for that. -/
theorem packets_round_trip (hnew : MessageExtractor.new {} init = .ok x)
    (hone : AtMostOne (init []))
    (hformed : Formed x.packetStructure.isLengthExist (init []) none fs)
    {n : UInt32} {b : CircularBuffer} {q : BoundedQueue UInt8 (n.toNat - 1)} (h : Holds n b q)
    {as : List (Prog.ServerAct Chunk)} {s : CircularBuffer × Extract (List (Locals M))}
    (hrun : (Prog.server serve peerWrites b (x.reading.passes fs.length none)).exec
      (b, x.reading.passes fs.length none) as = some s)
    (hfits : (Prog.server serve peerWrites b (x.reading.passes fs.length none)).Guarded
      (Prog.Within HasRoom) (b, x.reading.passes fs.length none) as)
    (later rest : Bytes)
    (hstream : q.items ++ arrived as ++ later = fs.flatMap (fun f => f.encode (init [])) ++ rest) :
    (∀ e, s.2 ≠ .fail e) ∧
      (∀ vs, s.2 = .done vs →
        List.Forall₂ (Shows (init [])) vs fs ∧ s.1.unread ++ later = rest) ∧
      (later.length ≤ rest.length → ∃ vs b', Prog.run serve s.2 s.1 = some (.ok vs, b') ∧
        List.Forall₂ (Shows (init [])) vs fs) ∧
      ∀ fuel, x.reading.findMessage (fs.length + fuel) = x.reading.passes fs.length none >>=
        fun vs => x.reading.findLoop fuel (lastMsg none vs) false := by
  obtain ⟨q', hq', hleft⟩ := run_left h hrun hfits
  have hall : ∀ result rest', runBytes s.2 q'.items = some (result, rest') →
      ∃ vs, result = .ok vs ∧ List.Forall₂ (Shows (init [])) vs fs ∧ rest' ++ later = rest := by
    intro result rest' hresult
    obtain ⟨vs, hrun, hshows⟩ := runBytes_stream hnew hone hformed rest
    have hmore := runBytes_append later (hleft.trans hresult)
    rw [hstream] at hmore
    cases hmore.symm.trans hrun
    exact ⟨vs, rfl, hshows, rfl⟩
  refine ⟨?_, ?_, ?_, fun fuel => findLoop_eq_passes x.reading fs.length fuel none⟩
  · intro e hfail
    obtain ⟨vs, hvs, -⟩ := hall (.error e) q'.items (by rw [hfail]; rfl)
    cases hvs
  · intro vs hdone
    obtain ⟨vs', hvs, hshows, hrest⟩ := hall (.ok vs) q'.items (by rw [hdone]; rfl)
    cases hvs
    rw [hq'.unread]
    exact ⟨hshows, hrest⟩
  · intro hlater
    -- what comes later is all behind the packets
    obtain ⟨rest', hrest'⟩ : later <:+ rest :=
      List.suffix_of_suffix_length_le ⟨_, hstream⟩ ⟨_, rfl⟩ hlater
    rw [← hrest', ← List.append_assoc] at hstream
    obtain ⟨vs, hrun, hshows⟩ := runBytes_stream hnew hone hformed rest'
    rw [← List.append_cancel_right hstream, hleft] at hrun
    obtain ⟨b', -, hserved, -⟩ := run_of_runBytes hq' hrun
    exact ⟨vs, b', hserved, hshows⟩

/-- A Length field of one byte, a command of two, Data and a footer. -/
def plainLayout : List (Section Blob) :=
  [.length ⟨1, PacketSections.data.bit, false⟩, .cmd ⟨2, some fun cmd => some ⟨cmd⟩⟩, .data ⟨4⟩,
   .footer ⟨[0x55]⟩]

/-- The extractor for it. -/
def plain : MessageExtractor Blob where
  packetStructure :=
    { packet := plainLayout, footer := some ⟨[0x55]⟩,
      length := some ⟨1, PacketSections.data.bit, false⟩, data := some ⟨4⟩,
      cmd := some ⟨2, some fun cmd => some ⟨cmd⟩⟩, isFooterExist := true, isLengthExist := true,
      isDataExist := true, isCmdExist := true }
  packetSections := plainLayout
  extractor := none

/-- Two packets for it, one with three bytes of data and one with none. -/
def twoPackets : List Fields :=
  [{ cmd := [0xd1, 0xd2], len := [3], data := [1, 2, 3], footer := [0x55] },
   { cmd := [0xe1, 0xe2], len := [0], footer := [0x55] }]

/-- The first packet in two pieces, and the second with one more byte. -/
def inPieces : List (Prog.ServerAct Chunk) :=
  [.env ⟨[3, 0xd1], by decide⟩, .serve, .env ⟨[0xd2, 1, 2, 3, 0x55], by decide⟩, .serve, .serve,
   .serve, .serve, .env ⟨[0, 0xe1, 0xe2, 0x55, 3], by decide⟩, .serve, .serve, .serve, .serve,
   .serve]

theorem packets_round_trip_plain :
    ∃ s vs, (Prog.server serve peerWrites (CircularBuffer.new 16)
          (plain.reading.passes 2 none)).exec
        (CircularBuffer.new 16, plain.reading.passes 2 none) inPieces = some s ∧
      s.2 = .done vs ∧ List.Forall₂ (Shows plainLayout) vs twoPackets ∧ s.1.unread = [3] := by
  have hnew : MessageExtractor.new {} (fun packet => packet ++ plainLayout) = .ok plain := rfl
  have hone : AtMostOne plainLayout := by simp [AtMostOne, plainLayout, Section.getType]
  have hformed : Formed true plainLayout none twoPackets := by decide
  have hfits : (Prog.server serve peerWrites (CircularBuffer.new 16)
      (plain.reading.passes twoPackets.length none)).Guarded (Prog.Within HasRoom)
        (CircularBuffer.new 16, plain.reading.passes twoPackets.length none) inPieces := by decide
  obtain ⟨-, hdone, -, -⟩ := packets_round_trip hnew hone hformed
    (Holds.new (n := 16) (by decide)) rfl hfits [] [3] rfl
  obtain ⟨hshows, hrest⟩ := hdone _ rfl
  exact ⟨_, _, rfl, rfl, hshows, hrest⟩

end HpLib.MessageExtractor
