import HpLib.Peripheral.PingSpacing

/-!
# Several Pings in one process

Each `Ping` has a raw socket, and every ICMP packet that reaches the host is
put into all of them. The filter in `handle_receive` compares the identifier,
which is that of the process, and the sequence number, which every `Ping`
counts from one: nothing in it tells the hosts apart. `Distinct` is the exact
condition on a packet under which the filter is not mistaken.

The pings `ι` have a destination each, all different, so a destination is
named by its `Ping`.
-/

namespace HpLib

open Lib

/-- Where a packet comes from: `answer j k` is what the destination of `j`
sends in answer to the `k`th request to it. -/
inductive Origin (ι : Type*) where
  | answer (j : ι) (k : Nat)
  | other
  deriving Repr, DecidableEq

structure Arrival (ι : Type*) where
  origin : Origin ι
  packet : Bytes
  deriving Repr, DecidableEq

/-- A reply was counted by `ping` while its latest request was its `request`th. -/
structure Counted (ι : Type*) where
  ping : ι
  origin : Origin ι
  request : Nat
  deriving Repr, DecidableEq

/-- The `Ping`s of a process, with what waits in their sockets; `none` stands
for a `Ping` that is yet to be constructed. `counted` is for reading only. -/
structure Process (ι : Type*) where
  now : Nat
  pings : ι → Ping
  socket : ι → Option (List (Arrival ι))
  counted : List (Counted ι)

inductive ProcessAct (ι : Type*) where
  | advance (d : Nat)
  | construct (i : ι)
  | pingUntilDisconnect (i : ι) (counter : Int)
  | arrive (a : Arrival ι)
  | fire (i : ι) (wait : Wait PingHandler)
  | receive (i : ι)
  deriving Repr, DecidableEq

/-- How many requests it has sent. -/
def Ping.requests (p : Ping) : Nat :=
  (sendTimes p.log).length

/-- The sequence number of the `k`th request. -/
def sequenceOf (k : Nat) : UInt16 :=
  UInt16.ofNat k

variable {ι : Type*}

/-- An answer is to a request that was sent, and it is an echo reply that
carries the identifier and the sequence number of that request. -/
def Process.CanArrive (identifier : UInt16) (s : Process ι) (a : Arrival ι) : Prop :=
  match a.origin with
  | .answer j k => 1 ≤ k ∧ k ≤ (s.pings j).requests ∧
      isEchoReply identifier (sequenceOf k) a.packet = true
  | .other => True

instance (identifier : UInt16) (s : Process ι) (a : Arrival ι) :
    Decidable (s.CanArrive identifier a) :=
  match a with
  | ⟨.answer j k, packet⟩ => inferInstanceAs (Decidable (1 ≤ k ∧ k ≤ (s.pings j).requests ∧
      isEchoReply identifier (sequenceOf k) packet = true))
  | ⟨.other, _⟩ => .isTrue trivial

variable [DecidableEq ι]

namespace Process

def setPing (s : Process ι) (i : ι) (p : Ping) : Process ι :=
  { s with pings := Function.update s.pings i p }

/-- `Ping::Ping` opens the socket. -/
def construct (s : Process ι) (i : ι) : Option (Process ι) :=
  match s.socket i with
  | none => some { s with socket := Function.update s.socket i (some []) }
  | some _ => none

/-- `ping_until_disconnect` is called once, on an object that there is. -/
def pingUntilDisconnect (identifier : UInt16) (s : Process ι) (i : ι) (counter : Int) :
    Option (Process ι) :=
  if (s.socket i).isSome ∧ s.pings i = {} then
    some (s.setPing i ((s.pings i).pingUntilDisconnect identifier counter s.now))
  else none

/-- Every open socket gets the packet. -/
def arrive (identifier : UInt16) (s : Process ι) (a : Arrival ι) : Option (Process ι) :=
  if s.CanArrive identifier a then
    some { s with socket := fun i => (s.socket i).map (· ++ [a]) }
  else none

/-- A `Ping` receives the first packet in its socket. -/
def receive (identifier : UInt16) (s : Process ι) (i : ι) : Option (Process ι) :=
  match s.socket i with
  | some (a :: rest) =>
      ((s.pings i).receive identifier a.packet).map fun p =>
        { s.setPing i p with
          socket := Function.update s.socket i (some rest)
          counted :=
            if (s.pings i).numReplies < p.numReplies then
              ⟨i, a.origin, (s.pings i).requests⟩ :: s.counted
            else s.counted }
  | some [] | none => none

def step (identifier : UInt16) (s : Process ι) : ProcessAct ι → Option (Process ι)
  | .advance d => some { s with now := s.now + d }
  | .construct i => s.construct i
  | .pingUntilDisconnect i counter => s.pingUntilDisconnect identifier i counter
  | .arrive a => s.arrive identifier a
  | .fire i wait => ((s.pings i).fire identifier s.now wait).map (s.setPing i)
  | .receive i => s.receive identifier i

end Process

/-- A process before any `Ping` is constructed. -/
def processMachine (ι : Type*) [DecidableEq ι] (identifier : UInt16) :
    Machine (Process ι) (ProcessAct ι) where
  init := { now := 0, pings := fun _ => {}, socket := fun _ => none, counted := [] }
  step := Process.step identifier

/-- A `Ping` has counted only what its own destination sent in answer to its
own current request. -/
def Process.NoInterference (s : Process ι) : Prop :=
  ∀ c ∈ s.counted, c.origin = .answer c.ping c.request

/-- The filter tells the packet from an answer to the current request. For an
answer to a request of another `Ping` that takes a different sequence number,
for a late answer to an own one that it is not late by a multiple of 65536
requests, and for any other packet that the filter stops it. -/
def Distinct (identifier : UInt16) (p : Ping) (i : ι) (a : Arrival ι) : Prop :=
  match a.origin with
  | .answer j k =>
      if j = i then k % 65536 = p.requests % 65536 → k = p.requests
      else k % 65536 ≠ p.requests % 65536
  | .other => isEchoReply identifier p.sequenceNumber a.packet = false

/-- Every packet that is handled is distinct. -/
def Process.Separated (identifier : UInt16) (s : Process ι) : ProcessAct ι → Prop
  | .receive i => ∀ a ∈ ((s.socket i).getD []).head?, Distinct identifier (s.pings i) i a
  | .advance _ | .construct _ | .pingUntilDisconnect _ _ | .arrive _ | .fire _ _ => True

instance (identifier : UInt16) (p : Ping) (i : ι) (a : Arrival ι) :
    Decidable (Distinct identifier p i a) :=
  match a with
  | ⟨.answer j k, _⟩ => inferInstanceAs (Decidable (if j = i then
      k % 65536 = p.requests % 65536 → k = p.requests else k % 65536 ≠ p.requests % 65536))
  | ⟨.other, packet⟩ =>
      inferInstanceAs (Decidable (isEchoReply identifier p.sequenceNumber packet = false))

instance (identifier : UInt16) (s : Process ι) (a : ProcessAct ι) :
    Decidable (s.Separated identifier a) :=
  match a with
  | .receive i => inferInstanceAs
      (Decidable (∀ a ∈ ((s.socket i).getD []).head?, Distinct identifier (s.pings i) i a))
  | .advance _ | .construct _ | .pingUntilDisconnect _ _ | .arrive _ | .fire _ _ => .isTrue trivial

/-! ## What the filter sees -/

variable {identifier : UInt16} {p p' : Ping} {packet : Bytes} {q q' : UInt16}

/-- A packet has one sequence number. -/
theorem isEchoReply_iff_eq (h : isEchoReply identifier q packet = true) :
    isEchoReply identifier q' packet = true ↔ q' = q := by
  rw [isEchoReply] at h ⊢
  cases hread : readHeaders packet with
  | none =>
      rw [hread] at h
      cases h
  | some header =>
      rw [hread] at h
      simp only [Bool.and_eq_true, beq_iff_eq] at h ⊢
      obtain ⟨⟨htype, hid⟩, hseq⟩ := h
      simp [htype, hid, hseq, eq_comm]

theorem sequenceOf_eq_iff {k m : Nat} : sequenceOf k = sequenceOf m ↔ k % 65536 = m % 65536 := by
  rw [sequenceOf, sequenceOf, ← UInt16.toNat_inj, UInt16.toNat_ofNat', UInt16.toNat_ofNat']

theorem Ping.receive_counts (h : p.receive identifier packet = some p') :
    p.numReplies < p'.numReplies ↔ isEchoReply identifier p.sequenceNumber packet = true := by
  rw [Ping.receive] at h
  split at h <;> cases h
  by_cases hreply : isEchoReply identifier p.sequenceNumber packet = true
  · simp [Ping.handleReceive, hreply, Ping.startReceive]
  · simp [Ping.handleReceive, hreply, Ping.startReceive]

/-- The sequence number is that of the latest request. -/
def Ping.Numbered (p : Ping) : Prop :=
  p.sequenceNumber = sequenceOf p.requests

theorem Ping.Numbered.startSend (h : p.Numbered) {now : Nat} {t : Timer PingHandler} :
    ({ p with timer := t }.startSend identifier now).Numbered := by
  show p.sequenceNumber + 1 = UInt16.ofNat (p.requests + 1)
  rw [h, sequenceOf, UInt16.ofNat_add]
  rfl

theorem Ping.Numbered.fire (h : p.Numbered) {now : Nat} {wait : Wait PingHandler}
    (hrun : p.fire identifier now wait = some p') : p'.Numbered := by
  rw [Ping.fire] at hrun
  split at hrun <;> cases hrun
  cases wait.handler with
  | startSend => exact h.startSend
  | handleTimeout =>
      dsimp only [Ping.handle, Ping.handleTimeout]
      split
      · split
        · exact h
        · exact h
      · exact h

theorem Ping.Numbered.receive (h : p.Numbered) (hrun : p.receive identifier packet = some p') :
    p'.Numbered := by
  rw [Ping.receive] at hrun
  split at hrun <;> cases hrun
  rw [Ping.handleReceive]
  split
  · exact h
  · exact h

/-- An answer carries the sequence number of its request. -/
def Arrival.Genuine (identifier : UInt16) (a : Arrival ι) : Prop :=
  match a.origin with
  | .answer _ k => isEchoReply identifier (sequenceOf k) a.packet = true
  | .other => True

/-- A packet is distinct when the filter lets it pass only as the answer to
the current request. -/
theorem distinct_iff {a : Arrival ι} {i : ι} (ha : a.Genuine identifier) (hp : p.Numbered) :
    Distinct identifier p i a ↔
      (isEchoReply identifier p.sequenceNumber a.packet = true → a.origin = .answer i p.requests) := by
  obtain ⟨origin, packet⟩ := a
  cases origin with
  | other =>
      show isEchoReply identifier p.sequenceNumber packet = false ↔ _
      simp
  | answer j k =>
      have hpass : isEchoReply identifier p.sequenceNumber packet = true
          ↔ k % 65536 = p.requests % 65536 := by
        rw [isEchoReply_iff_eq ha, hp, sequenceOf_eq_iff, eq_comm]
      show (if j = i then k % 65536 = p.requests % 65536 → k = p.requests
        else k % 65536 ≠ p.requests % 65536) ↔ _
      rw [hpass]
      by_cases hji : j = i
      · simp [hji]
      · simp [hji]

/-! ## What a run counts -/

namespace Process

variable {s s' : Process ι} {i : ι}

/-- `Q` holds of everything that waits in a socket. -/
def Waiting (Q : Arrival ι → Prop) (s : Process ι) : Prop :=
  ∀ i box, s.socket i = some box → ∀ a ∈ box, Q a

/-- Every `Ping` knows its number, and what waits in a socket is genuine. -/
structure Sound (identifier : UInt16) (s : Process ι) : Prop where
  numbered : ∀ i, (s.pings i).Numbered
  genuine : s.Waiting (Arrival.Genuine identifier)

theorem sound_init : Sound identifier (processMachine ι identifier).init where
  numbered _ := rfl
  genuine := nofun

theorem numbered_setPing (h : ∀ i, (s.pings i).Numbered) {p : Ping} (hp : p.Numbered) :
    ∀ j, ((s.setPing i p).pings j).Numbered :=
  (Function.forall_update_iff s.pings fun _ p => p.Numbered).mpr ⟨hp, fun j _ => h j⟩

/-- What `receive` does. -/
theorem receive_eq_some (h : s.receive identifier i = some s') :
    ∃ a rest p, s.socket i = some (a :: rest) ∧
      (s.pings i).receive identifier a.packet = some p ∧
      s' = { s.setPing i p with
        socket := Function.update s.socket i (some rest)
        counted :=
          if (s.pings i).numReplies < p.numReplies then
            ⟨i, a.origin, (s.pings i).requests⟩ :: s.counted
          else s.counted } := by
  rw [receive] at h
  split at h
  · rename_i a rest hbox
    obtain ⟨p, hp, rfl⟩ := Option.map_eq_some_iff.mp h
    exact ⟨a, rest, p, hbox, hp, rfl⟩
  · cases h
  · cases h

theorem waiting_update {Q : Arrival ι → Prop} (h : s.Waiting Q) {rest : List (Arrival ι)}
    (hrest : ∀ a ∈ rest, Q a) :
    ∀ j box, Function.update s.socket i (some rest) j = some box → ∀ a ∈ box, Q a := by
  rw [Function.forall_update_iff s.socket fun _ o => ∀ box, o = some box → ∀ a ∈ box, Q a]
  constructor
  · rintro box hbox
    cases hbox
    exact hrest
  · exact fun j _ => h j

/-- What waits has arrived. -/
theorem Waiting.step {Q : Arrival ι → Prop} (h : s.Waiting Q) {a : ProcessAct ι}
    (harrive : ∀ b, a = .arrive b → s.CanArrive identifier b → Q b)
    (hs : s.step identifier a = some s') : s'.Waiting Q := by
  cases a with
  | advance d =>
      cases hs
      exact h
  | construct j =>
      rw [Process.step, construct] at hs
      split at hs <;> cases hs
      exact waiting_update h nofun
  | pingUntilDisconnect j counter =>
      rw [Process.step, pingUntilDisconnect] at hs
      split at hs <;> cases hs
      exact h
  | arrive b =>
      rw [Process.step, arrive] at hs
      split at hs <;> cases hs
      rename_i hcan
      intro i box hbox a ha
      obtain ⟨before, hbefore, rfl⟩ := Option.map_eq_some_iff.mp hbox
      rcases List.mem_append.mp ha with ha | ha
      · exact h i before hbefore a ha
      · rw [List.mem_singleton.mp ha]
        exact harrive b rfl hcan
  | fire j wait =>
      obtain ⟨p, hp, rfl⟩ := Option.map_eq_some_iff.mp hs
      exact h
  | receive j =>
      obtain ⟨a, rest, p, hbox, hp, rfl⟩ := receive_eq_some hs
      exact waiting_update h fun b hb => h j _ hbox b (List.mem_cons_of_mem a hb)

omit [DecidableEq ι] in
theorem genuine_of_canArrive {a : Arrival ι} (h : s.CanArrive identifier a) :
    a.Genuine identifier := by
  obtain ⟨origin, packet⟩ := a
  cases origin with
  | answer j k => exact h.2.2
  | other => trivial

theorem Sound.step (h : Sound identifier s) {a : ProcessAct ι}
    (hs : s.step identifier a = some s') : Sound identifier s' where
  numbered := by
    cases a with
    | advance d =>
        cases hs
        exact h.numbered
    | construct j =>
        rw [Process.step, construct] at hs
        split at hs <;> cases hs
        exact h.numbered
    | pingUntilDisconnect j counter =>
        rw [Process.step, pingUntilDisconnect] at hs
        split at hs <;> cases hs
        rename_i hfresh
        apply numbered_setPing h.numbered
        rw [hfresh.2]
        rfl
    | arrive b =>
        rw [Process.step, arrive] at hs
        split at hs <;> cases hs
        exact h.numbered
    | fire j wait =>
        obtain ⟨p, hp, rfl⟩ := Option.map_eq_some_iff.mp hs
        exact numbered_setPing h.numbered ((h.numbered j).fire hp)
    | receive j =>
        obtain ⟨a, rest, p, hbox, hp, rfl⟩ := receive_eq_some hs
        exact numbered_setPing h.numbered ((h.numbered j).receive hp)
  genuine := h.genuine.step (fun _ _ hcan => genuine_of_canArrive hcan) hs

/-- A step other than a receive counts nothing. -/
theorem counted_of_step {a : ProcessAct ι} (ha : ∀ i, a ≠ .receive i)
    (hs : s.step identifier a = some s') : s'.counted = s.counted := by
  cases a with
  | advance d =>
      cases hs
      rfl
  | construct j =>
      rw [Process.step, construct] at hs
      split at hs <;> cases hs
      rfl
  | pingUntilDisconnect j counter =>
      rw [Process.step, pingUntilDisconnect] at hs
      split at hs <;> cases hs
      rfl
  | arrive b =>
      rw [Process.step, arrive] at hs
      split at hs <;> cases hs
      rfl
  | fire j wait =>
      obtain ⟨p, -, rfl⟩ := Option.map_eq_some_iff.mp hs
      rfl
  | receive j => exact absurd rfl (ha j)

/-- What a receive counts. -/
theorem noInterference_receive (h : Sound identifier s)
    (hs : s.step identifier (.receive i) = some s') :
    s'.NoInterference ↔ s.NoInterference ∧ s.Separated identifier (.receive i) := by
  obtain ⟨a, rest, p, hbox, hp, rfl⟩ := receive_eq_some hs
  have hsep : s.Separated identifier (.receive i) ↔
      (isEchoReply identifier (s.pings i).sequenceNumber a.packet = true →
        a.origin = .answer i (s.pings i).requests) := by
    rw [← distinct_iff (h.genuine i _ hbox a List.mem_cons_self) (h.numbered i)]
    simp [Separated, hbox]
  rw [hsep, NoInterference, ← Ping.receive_counts hp]
  by_cases hcount : (s.pings i).numReplies < p.numReplies
  · rw [if_pos hcount, List.forall_mem_cons, and_comm]
    simp [hcount, NoInterference]
  · rw [if_neg hcount]
    simp [hcount, NoInterference]

theorem noInterference_step (h : Sound identifier s) {a : ProcessAct ι}
    (hs : s.step identifier a = some s') :
    s'.NoInterference ↔ s.NoInterference ∧ s.Separated identifier a := by
  by_cases ha : ∀ i, a ≠ .receive i
  · rw [NoInterference, counted_of_step ha hs]
    have hsep : s.Separated identifier a := by
      cases a with
      | receive i => exact absurd rfl (ha i)
      | _ => trivial
    exact ⟨fun hall => ⟨hall, hsep⟩, And.left⟩
  · obtain ⟨i, hi⟩ := not_forall.mp ha
    cases not_not.mp hi
    exact noInterference_receive h hs

/-- **Pings of different hosts do not interfere exactly in the runs in which
every packet that is handled is distinct.** -/
theorem noInterference_iff_separated (identifier : UInt16) {as : List (ProcessAct ι)}
    {t : Process ι} (hrun : (processMachine ι identifier).exec
      (processMachine ι identifier).init as = some t) :
    t.NoInterference ↔ (processMachine ι identifier).Guarded (Separated identifier)
      (processMachine ι identifier).init as := by
  have hcases := Machine.guarded_or_not (G := Separated identifier)
    (P := fun s => Sound identifier s ∧ s.NoInterference)
    (Q := fun s => Sound identifier s ∧ ¬ s.NoInterference) ?_ ?_ ?_
    ⟨sound_init, nofun⟩ hrun
  · rcases hcases with ⟨hg, -, ht⟩ | ⟨hg, -, ht⟩
    · exact ⟨fun _ => hg, fun _ => ht⟩
    · exact ⟨fun h => absurd h ht, fun h => absurd h hg⟩
  · rintro s a s' ⟨h, hno⟩ hsep hs
    exact ⟨h.step hs, (noInterference_step h hs).mpr ⟨hno, hsep⟩⟩
  · rintro s a s' ⟨h, hno⟩ hsep hs
    exact ⟨h.step hs, fun hno' => hsep ((noInterference_step h hs).mp hno').2⟩
  · rintro s a s' ⟨h, hno⟩ hs
    exact ⟨h.step hs, fun hno' => hno ((noInterference_step h hs).mp hno').1⟩

/-- A host is silent in a step that brings no answer from it. -/
def Silent (i : ι) : ProcessAct ι → Prop
  | .arrive a => ∀ k, a.origin ≠ .answer i k
  | .advance _ | .construct _ | .pingUntilDisconnect _ _ | .fire _ _ | .receive _ => True

/-- So in such a run a silent host is never taken to have answered. -/
theorem not_counted_of_silent (identifier : UInt16) (i : ι) {t : Process ι}
    (ht : (processMachine ι identifier).Reaches
      (fun s a => s.Separated identifier a ∧ Silent i a) t) :
    ∀ c ∈ t.counted, c.ping ≠ i := by
  suffices h : t.NoInterference ∧ ∀ c ∈ t.counted, ∀ k, c.origin ≠ .answer i k by
    rintro c hc rfl
    exact h.2 c hc c.request (h.1 c hc)
  suffices h : Sound identifier t ∧ t.NoInterference ∧
      t.Waiting (fun a => ∀ k, a.origin ≠ .answer i k) ∧
      ∀ c ∈ t.counted, ∀ k, c.origin ≠ .answer i k from ⟨h.2.1, h.2.2.2⟩
  apply ht.inv (P := fun s => Sound identifier s ∧ s.NoInterference ∧
    s.Waiting (fun a => ∀ k, a.origin ≠ .answer i k) ∧
    ∀ c ∈ s.counted, ∀ k, c.origin ≠ .answer i k)
  · exact ⟨sound_init, nofun, nofun, nofun⟩
  · rintro s a s' ⟨h, hno, hwait, hcount⟩ ⟨hsep, hsilent⟩ hs
    refine ⟨h.step hs, (noInterference_step h hs).mpr ⟨hno, hsep⟩, ?_, ?_⟩
    · apply hwait.step _ hs
      rintro b rfl _
      exact hsilent
    · by_cases ha : ∀ j, a ≠ .receive j
      · rw [counted_of_step ha hs]
        exact hcount
      · obtain ⟨j, hj⟩ := not_forall.mp ha
        cases not_not.mp hj
        obtain ⟨b, rest, p, hbox, hp, rfl⟩ := receive_eq_some hs
        have hb := hwait j _ hbox b List.mem_cons_self
        intro c hc
        by_cases hreply : (s.pings j).numReplies < p.numReplies
        · simp only [if_pos hreply, List.mem_cons] at hc
          rcases hc with rfl | hc
          · exact hb
          · exact hcount c hc
        · simp only [if_neg hreply] at hc
          exact hcount c hc

/-- Two hosts; the answer of the first is handled by its own `Ping`. -/
def ownAnswer : List (ProcessAct Bool) :=
  [.construct false, .construct true, .pingUntilDisconnect false 3, .pingUntilDisconnect true 3,
    .arrive ⟨.answer false 1, Ping.answer 1⟩, .receive false]

theorem noInterference_iff_separated_ownAnswer :
    ∃ t, (processMachine Bool 7).exec (processMachine Bool 7).init ownAnswer = some t ∧
      t.counted = [⟨false, .answer false 1, 1⟩] ∧ t.NoInterference := by
  obtain ⟨t, hrun, hcounted⟩ : ∃ t, (processMachine Bool 7).exec
      (processMachine Bool 7).init ownAnswer = some t ∧
      t.counted = [⟨false, .answer false 1, 1⟩] := ⟨_, rfl, rfl⟩
  exact ⟨t, hrun, hcounted, (noInterference_iff_separated 7 hrun).mpr (by decide)⟩

/-- The same answer in the socket of the second, whose host is silent. -/
theorem answer_of_other_host_counted :
    ∃ t, (processMachine Bool 7).Reachable t ∧
      t.counted = [⟨true, .answer false 1, 1⟩, ⟨false, .answer false 1, 1⟩] ∧
      ¬ t.NoInterference := by
  refine ⟨_, ⟨ownAnswer ++ [.receive true], rfl⟩, rfl, fun hall => ?_⟩
  cases hall ⟨true, .answer false 1, 1⟩ List.mem_cons_self

end Process

end HpLib
