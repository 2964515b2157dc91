import HpLib.Peripheral.ExtractorSpec

/-!
# Decoding a packet

What the extractor is for: the buffer holds some garbage, the encoding of a
message in a packet layout, and more bytes; `find_message` should return the
message and leave the rest. `Case` has a layout and a message as the source's
users would choose them, `Case.packet` is the encoding, and `Case.Decodes` is
what should happen.

It does not. The lines of `find_message` that check the CRC, call
`deserialize` and set `is_find_message` are commented out, so the loop around
the passes has no way out.
-/

namespace HpLib.MessageExtractor

open Lib CircularBuffer

/-! ## Layouts and their packets -/

/-- One Header with content, then the other sections: one CMD before one
Data, and at most one each of Length, CRC and Footer. -/
structure Layout (M : Type) where
  header : HeaderSection
  others : List (Section M)
  content : header.content ≠ []
  plain : ∀ s ∈ others, s.getType ≠ .header ∧ ∀ o, s ≠ .other o
  cmd_one : (others.map Section.getType).count .cmd = 1
  data_one : (others.map Section.getType).count .data = 1
  length_one : (others.map Section.getType).count .length ≤ 1
  crc_one : (others.map Section.getType).count .crc ≤ 1
  footer_one : (others.map Section.getType).count .footer ≤ 1
  cmd_first : (others.map Section.getType).idxOf .cmd < (others.map Section.getType).idxOf .data
  length_first : .length ∈ others.map Section.getType →
    (others.map Section.getType).idxOf .length < (others.map Section.getType).idxOf .data
  length_ok : ∀ l, .length l ∈ others →
    l.includeMask = PacketSections.data.bit ∧ l.sizeBytes ∈ [1, 2, 4]

namespace Layout

variable {M : Type} (l : Layout M)

def sections : List (Section M) :=
  .header l.header :: l.others

/-- The bytes of a section, given those of the command, the data and the CRC. -/
def encodeSection (cmd data crc : Bytes) : Section M → Bytes
  | .header s => s.content
  | .cmd _ => cmd
  | .length s => MessageExtractor.encode s.sizeBytes.toNat s.isFirstByteMsb data.length
  | .data _ => data
  | .crc _ => crc
  | .footer s => s.content
  | .other _ => []

def encode (cmd data crc : Bytes) : Bytes :=
  l.sections.flatMap (encodeSection cmd data crc)

/-- What `is_valid` is given: the sections that the mask names. -/
def checkTexts (cmd data crc : Bytes) (mask : UInt8) : SectionTexts :=
  (l.sections.filter fun s => s.getType.bit &&& mask ≠ 0).map
    fun s => (s.getType, encodeSection cmd data crc s)

end Layout

/-- A message in a layout, between garbage and more bytes, in a buffer of
size `n`. The factory builds `blank` from the command, and reading the
serialized message into it gives the message back. -/
structure Case (M : Type) [SerializableMessage M] where
  layout : Layout M
  message : M
  blank : M
  cmd : Bytes
  crc : Bytes
  garbage : Bytes
  rest : Bytes
  n : UInt32
  buffer : CircularBuffer
  queue : BoundedQueue UInt8 (n.toNat - 1)
  undoes : SerializableMessage.deserialize blank (SerializableMessage.serialize message) = message
  size : .length ∉ layout.others.map Section.getType →
    SerializableMessage.getSerializeSize blank = (SerializableMessage.serialize message).length
  small : (SerializableMessage.serialize message).length < 2 ^ 32
  cmd_ok : ∀ s, .cmd s ∈ layout.others → cmd.length = s.sizeBytes.toNat ∧
    ∃ factory, s.msgFactory = some factory ∧ factory cmd = some blank
  length_ok : ∀ s, .length s ∈ layout.others →
    (SerializableMessage.serialize message).length < 256 ^ s.sizeBytes.toNat
  crc_ok : ∀ s, .crc s ∈ layout.others → crc.length = s.sizeBytes.toNat ∧
    ∃ isValid, s.crcChecker = some isValid ∧
      isValid (layout.checkTexts cmd (SerializableMessage.serialize message) crc s.includeMask)
        crc = true
  header_first : ∀ i < garbage.length,
    ¬ layout.header.content <+: (garbage ++ layout.header.content).drop i
  holds : Holds n buffer queue
  contents : queue.items = garbage
    ++ layout.encode cmd (SerializableMessage.serialize message) crc ++ rest

namespace Case

variable {M : Type} [SerializableMessage M] (c : Case M)

/-- The constructor takes the layout, and `find_message`, with no more bytes
coming in, returns the message and leaves exactly the rest unread. -/
def Decodes : Prop :=
  ∃ x, MessageExtractor.new {} (fun packet => packet ++ c.layout.sections) = .ok x ∧
    ∃ fuel b q, (x.reading.system c.buffer fuel).Reaches (fun _ a => a = .serve)
        (b, .done (some c.message)) ∧ Holds c.n b q ∧ q.items = c.rest

end Case

/-! ## The loop has no way out -/

variable {M : Type} [SerializableMessage M]

/-- Whatever the answers, no pass of the loop leads to a result. -/
theorem findLoop_never_returns (x : MessageExtractor M) (fuel : Nat) (msg : Option M) :
    Prog.wp (fun _ => True) (fun _ => False) (x.findLoop fuel msg false) := by
  induction fuel generalizing msg with
  | zero => trivial
  | succ fuel ih =>
      rw [findLoop, Prog.wp_bind]
      exact Prog.wp_of_forall (fun v : Locals M => ih v.msg) (Prog.wp_true (fun _ => trivial) _)

/-- No run of `find_message` returns, on any buffer, whatever is sent. -/
theorem findMessage_never_returns {x : MessageExtractor M} {b₀ : CircularBuffer} {fuel : Nat}
    {b : CircularBuffer} {msg : Option M} : ¬ (x.system b₀ fuel).Reachable (b, .done msg) :=
  fun hreach => Prog.wp_of_reachable (findLoop_never_returns x fuel none) hreach

/-- **No packet is ever decoded.** -/
theorem Case.not_decodes (c : Case M) : ¬ c.Decodes := by
  rintro ⟨x, -, fuel, b, q, hreach, -⟩
  exact findMessage_never_returns hreach.reachable

/-- Header `aa ff`, two length bytes, the command `d1 d2`, data, a CRC that
is the command over again, footer `bb cc`. -/
def blobLayout : Layout Blob where
  header := ⟨[0xaa, 0xff]⟩
  others :=
    [.length ⟨2, PacketSections.data.bit, true⟩,
     .cmd ⟨2, some fun cmd => if cmd = [0xd1, 0xd2] then some ⟨[]⟩ else none⟩,
     .data ⟨0⟩,
     .crc ⟨2, PacketSections.cmd.bit, some fun texts crc => texts = [(.cmd, crc)]⟩,
     .footer ⟨[0xbb, 0xcc]⟩]
  content := List.cons_ne_nil _ _
  plain := by simp [Section.getType]
  cmd_one := rfl
  data_one := rfl
  length_one := by decide
  crc_one := by decide
  footer_one := by decide
  cmd_first := by decide
  length_first := fun _ => by decide
  length_ok := by simp

/-- Three bytes of data behind one of garbage, in a buffer of 64. -/
theorem blob_packet_not_decoded : ¬ ∀ c : Case Blob, c.Decodes := by
  intro hall
  obtain ⟨b, hholds⟩ := exists_holds (n := 64) (by decide)
    ⟨[0xaa] ++ blobLayout.encode [0xd1, 0xd2] [1, 2, 3] [0xd1, 0xd2] ++ [0x55], by decide⟩
  let c : Case Blob :=
    { layout := blobLayout, message := ⟨[1, 2, 3]⟩, blank := ⟨[]⟩, cmd := [0xd1, 0xd2],
      crc := [0xd1, 0xd2], garbage := [0xaa], rest := [0x55], n := 64, buffer := b, queue := _,
      undoes := rfl, size := fun h => absurd (by decide) h, small := by decide,
      cmd_ok := by simp [blobLayout],
      length_ok := by simp [blobLayout, SerializableMessage.serialize],
      crc_ok := by
        intro s hs
        simp [blobLayout] at hs
        subst hs
        exact ⟨rfl, _, rfl, by decide⟩
      header_first := by decide,
      holds := hholds, contents := by decide }
  obtain ⟨x, -, fuel, b', q, hreach, -⟩ := hall c
  exact findMessage_never_returns hreach.reachable

end HpLib.MessageExtractor
