import HpLib.Peripheral.Pointers

/-!
# One pass over a byte stream

What the branches of `find_message` do with the unread bytes when nobody
else touches the buffer. A `CircularBuffer` answers as the list of its
unread bytes does, so a pass is run on that list: each branch takes a prefix
of its size, or sleeps.
-/

namespace HpLib.MessageExtractor

open Lib CircularBuffer

variable {M : Type}

/-- The unread bytes as a buffer of their own. -/
def serveBytes (bytes : Bytes) : (r : Request) → Option (r.Answer × Bytes)
  | .read len =>
      if h : len.toNat ≤ bytes.length then
        some (⟨bytes.take len.toNat, List.length_take_of_le h⟩, bytes.drop len.toNat)
      else none
  | .packetSectionError _ _ => some ((), bytes)

/-- `b` is a buffer of size `n` whose unread bytes are `bytes`. -/
def HoldsBytes (n : UInt32) (b : CircularBuffer) (bytes : Bytes) : Prop :=
  ∃ q : BoundedQueue UInt8 (n.toNat - 1), Holds n b q ∧ q.items = bytes

theorem simulates_bytes (n : UInt32) : Prog.Simulates serve serveBytes (HoldsBytes n) := by
  rintro b bytes r ⟨q, h, rfl⟩
  cases r with
  | packetSectionError e p => exact ⟨b, rfl, q, h, rfl⟩
  | read len =>
      by_cases hle : len.toNat ≤ q.items.length
      · obtain ⟨b', hlen, hrun, hnext⟩ := serve_read h len hle
        simp only [serveBytes, dif_pos hle]
        exact ⟨b', hrun, q.pop len.toNat, hnext, rfl⟩
      · simp only [serveBytes, dif_neg hle]
        exact serve_read_none h (Nat.lt_of_not_le hle)

/-- Run against the unread bytes. -/
abbrev runBytes {α : Type} (p : Extract α) (bytes : Bytes) : Option (Except Fault α × Bytes) :=
  Prog.run serveBytes p bytes

/-- What is computed on the bytes happens on a buffer that holds them. -/
theorem run_of_runBytes {n : UInt32} {b : CircularBuffer} {q : BoundedQueue UInt8 (n.toNat - 1)}
    (h : Holds n b q) {α : Type} {p : Extract α} {a : Except Fault α} {rest : Bytes}
    (hrun : runBytes p q.items = some (a, rest)) :
    ∃ b' q', Prog.run serve p b = some (a, b') ∧ Holds n b' q' ∧ q'.items = rest := by
  obtain ⟨b', hb', q', hq', hitems⟩ :=
    Prog.run_of_simulates (simulates_bytes n) (show HoldsBytes n b q.items from ⟨q, h, rfl⟩) hrun
  exact ⟨b', q', hb', hq', hitems⟩

/-- And nothing else does. -/
theorem runBytes_of_run {n : UInt32} {b b' : CircularBuffer}
    {q q' : BoundedQueue UInt8 (n.toNat - 1)} (h : Holds n b q) {α : Type} {p : Extract α}
    {a : Except Fault α} (hrun : Prog.run serve p b = some (a, b')) (h' : Holds n b' q') :
    runBytes p q.items = some (a, q'.items) := by
  have hsim := Prog.run_simulates (simulates_bytes n) p
    (show HoldsBytes n b q.items from ⟨q, h, rfl⟩)
  rw [runBytes]
  cases hbytes : Prog.run serveBytes p q.items with
  | none =>
      rw [hbytes] at hsim
      cases hrun.symm.trans hsim
  | some result =>
      obtain ⟨a₁, rest⟩ := result
      rw [hbytes] at hsim
      obtain ⟨b₁, hb₁, q₁, hq₁, rfl⟩ := hsim
      cases hrun.symm.trans hb₁
      rw [← h'.unread, hq₁.unread]

/-- It is how a call goes whose peer keeps still. -/
theorem reachable_of_runBytes {n : UInt32} {b : CircularBuffer}
    {q : BoundedQueue UInt8 (n.toNat - 1)} (h : Holds n b q) {α : Type} {p : Extract α} {a : α}
    {rest : Bytes} (hrun : runBytes p q.items = some (.ok a, rest)) :
    ∃ b' q', (Prog.server serve peerWrites b p).Reachable (b', .done a) ∧ Holds n b' q' ∧
      q'.items = rest := by
  obtain ⟨b', q', hserved, hnext, hitems⟩ := run_of_runBytes h hrun
  exact ⟨b', q', Prog.reachable_of_run ⟨[], rfl⟩ hserved, hnext, hitems⟩

/-! ## The functions that read -/

variable {bytes : Bytes}

theorem runBytes_read {len : UInt32} (h : len.toNat ≤ bytes.length) :
    runBytes (ask (.read len)) bytes
      = some (.ok ⟨bytes.take len.toNat, List.length_take_of_le h⟩, bytes.drop len.toNat) := by
  apply Prog.run_ask
  rw [serveBytes, dif_pos h]

theorem runBytes_read_none {len : UInt32} (h : bytes.length < len.toNat) :
    runBytes (ask (.read len)) bytes = none := by
  apply Prog.run_ask_none
  rw [serveBytes, dif_neg (Nat.not_le_of_lt h)]

theorem runBytes_getNextBytesLoop (k : Nat) (bytes : Bytes) :
    runBytes (getNextBytesLoop k) bytes
      = if k ≤ bytes.length then some (.ok (bytes.take k), bytes.drop k) else none := by
  induction k generalizing bytes with
  | zero => simp [getNextBytesLoop]
  | succ k ih =>
      cases bytes with
      | nil =>
          have hnone : runBytes (ask (.read 1)) [] = none := runBytes_read_none Nat.zero_lt_one
          rw [getNextBytesLoop, readNextByte]
          exact Prog.run_bind_none (Prog.run_bind_none hnone)
      | cons c cs =>
          have hone : runBytes readNextByte (c :: cs) = some (.ok c, cs) := by
            have hle : (1 : UInt32).toNat ≤ (c :: cs).length :=
              Nat.succ_le_succ (Nat.zero_le cs.length)
            rw [readNextByte]
            exact Prog.run_bind_ok (runBytes_read hle)
          rw [getNextBytesLoop, runBytes, Prog.run_bind_ok hone]
          by_cases hk : k ≤ cs.length
          · have hrest := ih cs
            rw [if_pos hk] at hrest
            rw [Prog.run_bind_ok hrest, List.length_cons, if_pos (Nat.succ_le_succ hk)]
            rfl
          · have hrest := ih cs
            rw [if_neg hk] at hrest
            rw [Prog.run_bind_none hrest, List.length_cons,
              if_neg (fun hc => hk (Nat.le_of_succ_le_succ hc))]

/-- Read byte by byte, the field is a prefix all the same. -/
theorem runBytes_getNextBytes (size : UInt32) (bytes : Bytes) :
    runBytes (getNextBytes size) bytes
      = if size.toNat ≤ bytes.length then
          some (.ok (bytes.take size.toNat), bytes.drop size.toNat)
        else none :=
  runBytes_getNextBytesLoop size.toNat bytes

/-! ## The branches -/

section

variable {x : MessageExtractor M} {v : Locals M}

theorem deref_some_bind {α β : Type} (a : α) (f : α → Extract β) :
    deref (some a) >>= f = f a := rfl

/-- The branch of a command that the factory knows. -/
theorem runBytes_readCmd {c : CMDSection M} {factory : Bytes → Option M} {msg : M}
    (hc : x.packetStructure.cmd = some c) (hfac : c.msgFactory = some factory)
    (hle : c.sizeBytes.toNat ≤ bytes.length)
    (hmsg : factory (cString (bytes.take c.sizeBytes.toNat)) = some msg) :
    runBytes (x.reading.readCmd v) bytes
      = some (.ok { v with cmd := bytes.take c.sizeBytes.toNat, msg := some msg },
          bytes.drop c.sizeBytes.toNat) := by
  have hget := runBytes_getNextBytes c.sizeBytes bytes
  rw [if_pos hle] at hget
  rw [readCmd, structureOf_reading]
  show runBytes (deref x.packetStructure.cmd >>= _) bytes = _
  rw [hc]
  show runBytes (getNextBytes c.sizeBytes >>= _) bytes = _
  rw [runBytes, Prog.run_bind_ok hget, hfac, deref_some_bind, hmsg]
  rfl

theorem runBytes_readLength {l : LengthSection} {lenVal : Int32}
    (hl : x.packetStructure.length = some l) (hle : l.sizeBytes.toNat ≤ bytes.length)
    (hval : calcLen (bytes.take l.sizeBytes.toNat ++ [0]) l.sizeBytes l.isFirstByteMsb
      = .ok lenVal) :
    runBytes (x.reading.readLength v) bytes
      = some (.ok { v with len := bytes.take l.sizeBytes.toNat, dataLen := lenVal.toUInt32,
                           canFindLength := true },
          bytes.drop l.sizeBytes.toNat) := by
  have hget := runBytes_getNextBytes l.sizeBytes bytes
  rw [if_pos hle] at hget
  rw [readLength, structureOf_reading]
  show runBytes (deref x.packetStructure.length >>= _) bytes = _
  rw [hl]
  show runBytes (getNextBytes l.sizeBytes >>= _) bytes = _
  rw [runBytes, Prog.run_bind_ok hget, hval]
  rfl

theorem runBytes_readCrc {c : CRCSection} (hc : x.packetStructure.crc = some c)
    (bytes : Bytes) :
    runBytes (x.reading.readCrc v) bytes
      = if c.sizeBytes.toNat ≤ bytes.length then
          some (.ok { v with crc := bytes.take c.sizeBytes.toNat },
            bytes.drop c.sizeBytes.toNat)
        else none := by
  have hget := runBytes_getNextBytes c.sizeBytes bytes
  rw [readCrc, structureOf_reading]
  show runBytes (deref x.packetStructure.crc >>= _) bytes = _
  rw [hc]
  show runBytes (getNextBytes c.sizeBytes >>= _) bytes = _
  by_cases hle : c.sizeBytes.toNat ≤ bytes.length
  · rw [if_pos hle] at hget ⊢
    exact Prog.run_bind_ok hget
  · rw [if_neg hle] at hget ⊢
    exact Prog.run_bind_none hget

theorem runBytes_readFooter {f : FooterSection} (hf : x.packetStructure.footer = some f)
    (bytes : Bytes) :
    runBytes (x.reading.readFooter v) bytes
      = if (UInt32.ofNat f.content.length).toNat ≤ bytes.length then
          some (.ok { v with footer := bytes.take (UInt32.ofNat f.content.length).toNat },
            bytes.drop (UInt32.ofNat f.content.length).toNat)
        else none := by
  have hget := runBytes_getNextBytes (UInt32.ofNat f.content.length) bytes
  rw [readFooter, structureOf_reading]
  show runBytes (deref x.packetStructure.footer >>= _) bytes = _
  rw [hf]
  show runBytes (getNextBytes (UInt32.ofNat f.content.length) >>= _) bytes = _
  by_cases hle : (UInt32.ofNat f.content.length).toNat ≤ bytes.length
  · rw [if_pos hle] at hget ⊢
    exact Prog.run_bind_ok hget
  · rw [if_neg hle] at hget ⊢
    exact Prog.run_bind_none hget

variable [SerializableMessage M]

/-- How many bytes the Data branch asks for. -/
def frameSize (p : PacketStructure M) (v : Locals M) : UInt32 :=
  if p.isLengthExist then v.dataLen
  else
    match v.msg, p.data with
    | some msg, _ => UInt32.ofNat (SerializableMessage.getSerializeSize msg)
    | none, some d => d.fixSizeBytes
    | none, none => 0

theorem dataSizeOf_eq (hd : x.packetStructure.data.isSome = true) :
    x.reading.dataSizeOf v = pure (frameSize x.packetStructure v) := by
  obtain ⟨d, hd⟩ := Option.isSome_iff_exists.mp hd
  rw [dataSizeOf, structureOf_reading, frameSize]
  show (if x.packetStructure.isLengthExist = true then _ else _) = _
  split
  · rfl
  · rw [hd]
    cases v.msg <;> rfl

/-- The Data branch is one read. -/
theorem readData_eq (hd : x.packetStructure.data.isSome = true) :
    x.reading.readData v = ask (.read (frameSize x.packetStructure v)) >>= fun data =>
      pure { v with data := data.val, dataSize := frameSize x.packetStructure v } := by
  rw [readData, dataSizeOf_eq hd]
  rfl

theorem runBytes_readData (hd : x.packetStructure.data.isSome = true) (bytes : Bytes) :
    runBytes (x.reading.readData v) bytes
      = if (frameSize x.packetStructure v).toNat ≤ bytes.length then
          some (.ok { v with data := bytes.take (frameSize x.packetStructure v).toNat,
                             dataSize := frameSize x.packetStructure v },
            bytes.drop (frameSize x.packetStructure v).toNat)
        else none := by
  rw [readData_eq hd, runBytes]
  by_cases hle : (frameSize x.packetStructure v).toNat ≤ bytes.length
  · rw [Prog.run_bind_ok (runBytes_read hle), if_pos hle]
    rfl
  · rw [Prog.run_bind_none (runBytes_read_none (Nat.lt_of_not_le hle)), if_neg hle]

/-- A loop over two lists is one loop and then the other. -/
theorem sectionsLoop_append (ss ts : List (Section M)) (v : Locals M) :
    x.sectionsLoop (ss ++ ts) v = x.sectionsLoop ss v >>= x.sectionsLoop ts := by
  induction ss generalizing v with
  | nil => rfl
  | cons s ss ih =>
      rw [List.cons_append, sectionsLoop, sectionsLoop]
      by_cases hstop : (v.isCmdNull || !v.isFooterOk) = true
      · rw [if_pos hstop, if_pos hstop]
        exact (sectionsLoop_stop ts hstop).symm
      · rw [if_neg hstop, if_neg hstop, Prog.bind_assoc]
        congr 1
        funext u
        exact ih u

end

end HpLib.MessageExtractor
