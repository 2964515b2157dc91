import HpLib.Peripheral.Extractor

/-!
# TCPClient: starting to find messages

`start_find_messages` on the fields it reads and sets. Packet structures and
buffers are objects that a client shares with its user, so a pointer is an
address, and the constructor of an extractor changes the structure it is
given where it lies.

The two branches are the wrong way round. Without an extractor, as on a
fresh client, one is built from `packet_structure_`, which is still null;
with one, every call starts a further thread.
-/

namespace HpLib

/-- What a `shared_ptr` that is not null holds. -/
abbrev Address : Type := Nat

/-- How building an extractor goes wrong: the packet structure is null, or
its constructor runs into something else. -/
inductive StartFault where
  | nullPacketStructure
  | inConstructor (fault : Fault)
  deriving Repr, DecidableEq

/-- A `MessageExtractor` and the two pointers it was given. -/
structure ExtractorObject (M : Type) where
  packetStructure : Address
  buffer : Option Address
  extractor : MessageExtractor M

/-- The members of a `TCPClient` that are about finding messages, with the
packet structures that its user has made. `threads` counts the threads that
were started on `extract_message`. -/
structure FindingClient (M : Type) where
  structures : Address → PacketStructure M
  buffer : Option Address
  packetStructure : Option Address
  tcpMessageExtractor : Option (ExtractorObject M)
  threads : Nat

variable {M : Type}

namespace FindingClient

/-- As `initialize` leaves a client. -/
def fresh (structures : Address → PacketStructure M) (buffer : Address) : FindingClient M :=
  { structures := structures, buffer := some buffer, packetStructure := none,
    tcpMessageExtractor := none, threads := 0 }

section

-- `init_packet_structure` of each of the structures
variable (initPacketStructure : Address → List (Section M) → List (Section M))

/-- `std::make_shared<MessageExtractor>(packet_structure_, buffer_)`. -/
def makeExtractor (c : FindingClient M) : Except StartFault (ExtractorObject M × FindingClient M) :=
  match c.packetStructure with
  | none => .error .nullPacketStructure
  | some a =>
      match MessageExtractor.new (c.structures a) (initPacketStructure a) with
      | .error fault => .error (.inConstructor fault)
      | .ok x =>
          .ok (⟨a, c.buffer, x⟩,
            { c with structures := fun b => if b = a then x.packetStructure else c.structures b })

def startFindMessages (c : FindingClient M) (packetStructure : Address) :
    Except StartFault (FindingClient M) :=
  if c.tcpMessageExtractor.isSome then do
    let (e, c) ← { c with packetStructure := some packetStructure }.makeExtractor initPacketStructure
    return { c with tcpMessageExtractor := some e, threads := c.threads + 1 }
  else do
    let (e, c) ← c.makeExtractor initPacketStructure
    return { c with tcpMessageExtractor := some e }

/-- The call has taken `s`: it is the packet structure of the client and of
its extractor, and the extractor reads from the client's buffer. -/
structure Took (s : Address) (c : FindingClient M) : Prop where
  packetStructure : c.packetStructure = some s
  extractor : ∃ e, c.tcpMessageExtractor = some e ∧ e.packetStructure = s ∧ e.buffer = c.buffer

/-- No call dereferences a null packet structure, and each that returns has
taken its structure and leaves one thread extracting. -/
def StartsCorrectly : FindingClient M → List Address → Prop
  | _, [] => True
  | c, s :: ss =>
      match c.startFindMessages initPacketStructure s with
      | .error fault => fault ≠ .nullPacketStructure
      | .ok c' => c'.Took s ∧ c'.threads = 1 ∧ StartsCorrectly c' ss

/-- The calls in order, as long as they return. -/
def startAll : FindingClient M → List Address → Except StartFault (FindingClient M)
  | c, [] => .ok c
  | c, s :: ss => do
      let c' ← c.startFindMessages initPacketStructure s
      startAll c' ss

end

variable {initPacketStructure : Address → List (Section M) → List (Section M)}

theorem makeExtractor_spec {c c' : FindingClient M} {e : ExtractorObject M}
    (h : c.makeExtractor initPacketStructure = .ok (e, c')) :
    c.packetStructure = some e.packetStructure ∧ e.buffer = c.buffer ∧
      c'.packetStructure = c.packetStructure ∧ c'.buffer = c.buffer ∧ c'.threads = c.threads := by
  rw [makeExtractor] at h
  split at h
  · cases h
  · rename_i a hp
    split at h <;> cases h
    exact ⟨hp, rfl, rfl, rfl, rfl⟩

/-- With an extractor in place a call does what it should, except that it
starts one more thread. -/
theorem startFindMessages_spec {c c' : FindingClient M} {s : Address}
    (hc : c.tcpMessageExtractor.isSome = true)
    (h : c.startFindMessages initPacketStructure s = .ok c') :
    c'.Took s ∧ c'.threads = c.threads + 1 := by
  rw [startFindMessages, if_pos hc] at h
  cases hmake : makeExtractor initPacketStructure { c with packetStructure := some s } with
  | error fault =>
      rw [hmake] at h
      cases h
  | ok r =>
      obtain ⟨e, u⟩ := r
      rw [hmake] at h
      cases h
      obtain ⟨hp, hb, hp', hb', hthreads⟩ := makeExtractor_spec hmake
      constructor
      · constructor
        · exact hp'
        · exact ⟨e, rfl, (Option.some.inj hp).symm, hb.trans hb'.symm⟩
      · show u.threads + 1 = c.threads + 1
        rw [hthreads]

theorem threads_of_startAll {c c' : FindingClient M} {ss : List Address}
    (hc : c.tcpMessageExtractor.isSome = true) (h : c.startAll initPacketStructure ss = .ok c') :
    c'.threads = c.threads + ss.length := by
  induction ss generalizing c with
  | nil =>
      cases h
      rfl
  | cons s ss ih =>
      rw [startAll] at h
      cases hs : c.startFindMessages initPacketStructure s with
      | error fault =>
          rw [hs] at h
          cases h
      | ok u =>
          rw [hs] at h
          obtain ⟨htook, hthreads⟩ := startFindMessages_spec hc hs
          obtain ⟨e, he, -, -⟩ := htook.extractor
          rw [ih (by rw [he]; rfl) h, hthreads, List.length_cons]
          omega

/-- **Only the empty sequence of calls goes right.** -/
theorem startsCorrectly_iff_nil
    (initPacketStructure : Address → List (Section M) → List (Section M))
    (structures : Address → PacketStructure M) (b : Address) (calls : List Address) :
    StartsCorrectly initPacketStructure (fresh structures b) calls ↔ calls = [] := by
  constructor
  · intro h
    cases calls with
    | nil => rfl
    | cons s ss => exact absurd rfl h
  · rintro rfl
    trivial

/-- One call, with a packet structure of one header. -/
theorem not_startsCorrectly_header :
    ¬ StartsCorrectly (M := Blob) (fun _ packet => packet ++ [.header ⟨[0xaa, 0xff]⟩])
        (fresh (fun _ => {}) 0) [1] :=
  fun h => h rfl

end FindingClient

end HpLib
