import HpLib.Lib.Stream
import HpLib.Peripheral.Passes

/-!
# The extractor sees a stream

`find_message` and `handle_read_data` run on two threads, and TCP cuts the
stream up as it likes. As long as no `write` overflows, none of this reaches
`find_message`: what its reads return and what it reports to the user depends
on the bytes alone (`findMessage_same_stream`), and each byte that arrives is
returned by one read, in the order of arrival (`findMessage_reads_stream`).
-/

namespace HpLib.MessageExtractor

open Lib CircularBuffer

variable {M α : Type}

/-- The chunk goes into the buffer without overwriting anything. -/
def HasRoom (b : CircularBuffer) (d : Chunk) : Prop :=
  d.bytes.length ≤ b.remainBytes.toNat

instance (b : CircularBuffer) (d : Chunk) : Decidable (HasRoom b d) :=
  inferInstanceAs (Decidable (_ ≤ _))

/-- What arrives in a run. -/
def arrived (as : List (Prog.ServerAct Chunk)) : Bytes :=
  (Prog.inputs as).flatMap Chunk.bytes

/-- What `find_message` sees in a run: each read and report, with its answer. -/
def seen (b : CircularBuffer) (p : Extract α) (as : List (Prog.ServerAct Chunk)) :
    List (Prog.Answered Request.Answer) :=
  Prog.transcript serve peerWrites (b, p) as

/-- The bytes that were read. -/
def bytesRead : Prog.Answered Request.Answer → Bytes
  | ⟨.read _, data⟩ => data.val
  | ⟨.packetSectionError _ _, _⟩ => []

/-- More unread bytes. -/
def growBytes (bytes : Bytes) (d : Chunk) : Bytes :=
  bytes ++ d.bytes

/-- A read that has its bytes takes no notice of those behind them. -/
theorem lasting_append : Prog.Lasting serveBytes (· ++ · : Bytes → Bytes → Bytes) := by
  intro bytes more r x bytes' h
  cases r with
  | packetSectionError e p =>
      cases h
      rfl
  | read len =>
      simp only [serveBytes] at h ⊢
      split at h <;> cases h
      rename_i hle
      have hle' : len.toNat ≤ (bytes ++ more).length := by
        rw [List.length_append]
        omega
      rw [dif_pos hle']
      simp only [List.take_append_of_le_length hle, List.drop_append_of_le_length hle]

theorem lasting_bytes : Prog.Lasting serveBytes growBytes :=
  fun bytes d => lasting_append bytes d.bytes

theorem foldl_growBytes (bytes : Bytes) (as : List (Prog.ServerAct Chunk)) :
    (Prog.inputs as).foldl growBytes bytes = bytes ++ arrived as :=
  List.foldl_append_eq_append

/-- A chunk that fits is appended to what is unread. -/
theorem holdsBytes_peerWrites (n : UInt32) {b b' : CircularBuffer} {bytes : Bytes} {d : Chunk}
    (h : HoldsBytes n b bytes) (hfits : HasRoom b d) (hb' : peerWrites b d = some b') :
    HoldsBytes n b' (growBytes bytes d) := by
  obtain ⟨q, hq, rfl⟩ := h
  obtain ⟨b₁, hrun, hnext⟩ := peerWrites_holds hq d
  cases hrun.symm.trans hb'
  refine ⟨_, hnext, ?_⟩
  rw [HasRoom, hq.inv.remainBytes_toNat, hq.used, hq.size] at hfits
  have hbound := q.bound
  exact BoundedQueue.push_items_of_fits (by omega)

/-- A run without overflow, on the bytes. -/
theorem exec_bytes {n : UInt32} {b : CircularBuffer} {bytes : Bytes} (h : HoldsBytes n b bytes)
    {p : Extract α} {as : List (Prog.ServerAct Chunk)} {s : CircularBuffer × Extract α}
    (hrun : (Prog.server serve peerWrites b p).exec (b, p) as = some s)
    (hfits : (Prog.server serve peerWrites b p).Guarded (Prog.Within HasRoom) (b, p) as) :
    ∃ bytes', HoldsBytes n s.1 bytes' ∧
      (Prog.server serveBytes (fun bytes d => some (growBytes bytes d)) bytes p).exec (bytes, p) as
        = some (bytes', s.2) ∧
      seen b p as
        = Prog.transcript serveBytes (fun bytes d => some (growBytes bytes d)) (bytes, p) as := by
  obtain ⟨b', p'⟩ := s
  have hwrite : ∀ b bytes d b', HoldsBytes n b bytes → HasRoom b d → peerWrites b d = some b' →
      ∃ bytes', some (growBytes bytes d) = some bytes' ∧ HoldsBytes n b' bytes' :=
    fun b bytes d b' hb hd hb' => ⟨_, rfl, holdsBytes_peerWrites n hb hd hb'⟩
  exact Prog.exec_simulates (simulates_bytes n) hwrite h hrun hfits

/-- Where the bytes of one answer come from. -/
theorem bytesRead_serveBytes {bytes bytes' : Bytes} {r : Request} {x : r.Answer}
    (h : serveBytes bytes r = some (x, bytes')) : bytes = bytesRead ⟨r, x⟩ ++ bytes' := by
  cases r with
  | packetSectionError e p =>
      cases h
      rfl
  | read len =>
      simp only [serveBytes] at h
      split at h <;> cases h
      exact (List.take_append_drop _ _).symm

/-- Along a run on the bytes, what arrives is read or still unread. -/
theorem exec_bytes_read {bytes₀ : Bytes} {p₀ : Extract α} {t t' : Bytes × Extract α}
    {as : List (Prog.ServerAct Chunk)}
    (hrun : (Prog.server serveBytes (fun bytes d => some (growBytes bytes d)) bytes₀ p₀).exec t as
      = some t') :
    t.1 ++ arrived as = (Prog.transcript serveBytes
      (fun bytes d => some (growBytes bytes d)) t as).flatMap bytesRead ++ t'.1 := by
  induction as generalizing t with
  | nil =>
      cases hrun
      exact List.append_nil _
  | cons a as ih =>
      obtain ⟨u, hu, hrest⟩ := Machine.exec_cons_eq_some.mp hrun
      rw [Prog.transcript_cons hu, List.flatMap_append, List.append_assoc, ← ih hrest]
      obtain ⟨bytes, p⟩ := t
      cases a with
      | env d =>
          cases hu
          exact (List.append_assoc bytes d.bytes _).symm
      | serve =>
          cases p with
          | done a => cases hu
          | fail e => cases hu
          | ask r k =>
              obtain ⟨⟨x, bytes'⟩, hx, rfl⟩ := Option.map_eq_some_iff.mp hu
              rw [Prog.answered_serve hx, List.flatMap_singleton, ← List.append_assoc,
                ← bytesRead_serveBytes hx]
              rfl

section

variable [SerializableMessage M] (x : MessageExtractor M)

/-- **Each byte is read once**: what arrives without an overflow is what the
reads of `find_message` have returned, in order, and after it what is unread. -/
theorem findMessage_reads_stream {n : UInt32} {b : CircularBuffer}
    {q : BoundedQueue UInt8 (n.toNat - 1)} (h : Holds n b q) (fuel : Nat)
    {as : List (Prog.ServerAct Chunk)} {s : CircularBuffer × Extract (Option M)}
    (hrun : (x.system b fuel).exec (x.system b fuel).init as = some s)
    (hfits : (x.system b fuel).Guarded (Prog.Within HasRoom) (x.system b fuel).init as) :
    q.items ++ arrived as = (seen b (x.findMessage fuel) as).flatMap bytesRead ++ s.1.unread := by
  obtain ⟨bytes, ⟨q', hq', rfl⟩, hexec, hseen⟩ := exec_bytes ⟨q, h, rfl⟩ hrun hfits
  rw [hseen, hq'.unread]
  exact exec_bytes_read hexec

/-- What has been seen is the beginning of what the whole stream shows. -/
theorem seen_prefix {n : UInt32} {b : CircularBuffer} {q : BoundedQueue UInt8 (n.toNat - 1)}
    (h : Holds n b q) {fuel : Nat} {as : List (Prog.ServerAct Chunk)}
    {s : CircularBuffer × Extract (Option M)}
    (hrun : (x.system b fuel).exec (x.system b fuel).init as = some s)
    (hfits : (x.system b fuel).Guarded (Prog.Within HasRoom) (x.system b fuel).init as)
    (later : Bytes) :
    seen b (x.findMessage fuel) as
      <+: Prog.answers serveBytes (x.findMessage fuel) (q.items ++ arrived as ++ later) := by
  obtain ⟨bytes, -, hexec, hseen⟩ := exec_bytes ⟨q, h, rfl⟩ hrun hfits
  obtain ⟨hanswers, -⟩ := Prog.answers_of_exec lasting_bytes hexec
  rw [foldl_growBytes] at hanswers
  rw [hseen]
  have hsofar : Prog.transcript serveBytes (fun bytes d => some (growBytes bytes d))
      (q.items, x.findMessage fuel) as
        <+: Prog.answers serveBytes (x.findMessage fuel) (q.items ++ arrived as) := by
    rw [hanswers]
    exact List.prefix_append _ _
  exact hsofar.trans (lasting_append.answers_prefix _ (q.items ++ arrived as) [later])

/-- **The stream is all that counts**: two calls of `find_message` on buffers
that may differ in size but hold the same bytes, with the same stream coming
in, cut up and timed in any two ways but without an overflow. The one has
seen what the other has, as far as it has got; where they have seen as much,
they have left the same bytes of the stream. -/
theorem findMessage_same_stream {n₁ n₂ : UInt32} {b₁ b₂ : CircularBuffer}
    {q₁ : BoundedQueue UInt8 (n₁.toNat - 1)} {q₂ : BoundedQueue UInt8 (n₂.toNat - 1)}
    (h₁ : Holds n₁ b₁ q₁) (h₂ : Holds n₂ b₂ q₂) (hsame : q₁.items = q₂.items) (fuel : Nat)
    {as₁ as₂ : List (Prog.ServerAct Chunk)} {s₁ s₂ : CircularBuffer × Extract (Option M)}
    (hrun₁ : (x.system b₁ fuel).exec (x.system b₁ fuel).init as₁ = some s₁)
    (hrun₂ : (x.system b₂ fuel).exec (x.system b₂ fuel).init as₂ = some s₂)
    (hfits₁ : (x.system b₁ fuel).Guarded (Prog.Within HasRoom) (x.system b₁ fuel).init as₁)
    (hfits₂ : (x.system b₂ fuel).Guarded (Prog.Within HasRoom) (x.system b₂ fuel).init as₂)
    (later : Bytes) (hstream : arrived as₁ ++ later = arrived as₂) :
    (seen b₁ (x.findMessage fuel) as₁ <+: seen b₂ (x.findMessage fuel) as₂ ∨
        seen b₂ (x.findMessage fuel) as₂ <+: seen b₁ (x.findMessage fuel) as₁) ∧
      ((seen b₁ (x.findMessage fuel) as₁).length = (seen b₂ (x.findMessage fuel) as₂).length →
        seen b₁ (x.findMessage fuel) as₁ = seen b₂ (x.findMessage fuel) as₂ ∧
          s₁.1.unread ++ later = s₂.1.unread) := by
  have hprefix₁ := seen_prefix x h₁ hrun₁ hfits₁ later
  have hprefix₂ := seen_prefix x h₂ hrun₂ hfits₂ []
  rw [List.append_assoc, hstream, hsame] at hprefix₁
  rw [List.append_nil] at hprefix₂
  have hor := List.prefix_or_prefix_of_prefix hprefix₁ hprefix₂
  refine ⟨hor, ?_⟩
  intro hlen
  have heq : seen b₁ (x.findMessage fuel) as₁ = seen b₂ (x.findMessage fuel) as₂ := by
    rcases hor with hle | hle
    · exact hle.eq_of_length hlen
    · exact (hle.eq_of_length hlen.symm).symm
  refine ⟨heq, ?_⟩
  -- both have read the same bytes of the same stream
  have hread₁ := findMessage_reads_stream x h₁ fuel hrun₁ hfits₁
  have hread₂ := findMessage_reads_stream x h₂ fuel hrun₂ hfits₂
  rw [← hstream, ← hsame, ← List.append_assoc, hread₁, heq, List.append_assoc] at hread₂
  exact List.append_cancel_left hread₂

end

/-- Data of two bytes and nothing else. -/
def pairs : MessageExtractor Blob :=
  reading { packetStructure := { packet := [.data ⟨2⟩], data := some ⟨2⟩ },
            packetSections := [.data ⟨2⟩], extractor := none }

/-- Three bytes in one piece. -/
def atOnce : List (Prog.ServerAct Chunk) :=
  [.env ⟨[1, 2, 3], by decide⟩, .serve]

/-- Four bytes in three pieces, the first read between them. -/
def pieces : List (Prog.ServerAct Chunk) :=
  [.env ⟨[1], by decide⟩, .env ⟨[2], by decide⟩, .serve, .env ⟨[3, 4], by decide⟩]

theorem findMessage_reads_stream_pieces :
    ∃ s, (pairs.system (CircularBuffer.new 8) 2).exec (pairs.system (CircularBuffer.new 8) 2).init
        pieces = some s ∧
      (pairs.system (CircularBuffer.new 8) 2).Guarded (Prog.Within HasRoom)
        (pairs.system (CircularBuffer.new 8) 2).init pieces ∧
      [] ++ arrived pieces
        = (seen (CircularBuffer.new 8) (pairs.findMessage 2) pieces).flatMap bytesRead
          ++ s.1.unread :=
  have hfits := by decide
  ⟨_, rfl, hfits, findMessage_reads_stream pairs (Holds.new (n := 8) (by decide)) 2 rfl hfits⟩

theorem findMessage_same_stream_pieces :
    ∃ s₁ s₂, (pairs.system (CircularBuffer.new 8) 2).exec
        (pairs.system (CircularBuffer.new 8) 2).init pieces = some s₂ ∧
      (pairs.system (CircularBuffer.new 4) 2).exec
        (pairs.system (CircularBuffer.new 4) 2).init atOnce = some s₁ ∧
      (pairs.system (CircularBuffer.new 8) 2).Guarded (Prog.Within HasRoom)
        (pairs.system (CircularBuffer.new 8) 2).init pieces ∧
      (pairs.system (CircularBuffer.new 4) 2).Guarded (Prog.Within HasRoom)
        (pairs.system (CircularBuffer.new 4) 2).init atOnce ∧
      seen (CircularBuffer.new 4) (pairs.findMessage 2) atOnce
        = seen (CircularBuffer.new 8) (pairs.findMessage 2) pieces ∧
      s₁.1.unread ++ [4] = s₂.1.unread :=
  have hfits₁ := by decide
  have hfits₂ := by decide
  ⟨_, _, rfl, rfl, hfits₂, hfits₁,
    (findMessage_same_stream pairs (Holds.new (n := 4) (by decide)) (Holds.new (n := 8) (by decide))
      rfl 2 rfl rfl hfits₁ hfits₂ [4] rfl).2 rfl⟩

end HpLib.MessageExtractor
