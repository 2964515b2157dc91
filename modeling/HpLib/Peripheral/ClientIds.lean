import HpLib.Lib.Machine
import HpLib.Lib.Table
import Mathlib.Algebra.Group.Nat.Defs
import Mathlib.Data.List.Nodup
import Mathlib.Data.List.Range

/-!
# The ids of clients

`TCPClient::initialize` takes an id in two steps: it loads `ID_Counter_`
into `id_`, then increments the counter. Both are atomic, the pair is not.
Any number of threads construct clients: the worker threads of servers, who
then put the client into `all_clients_map_`, and the threads of users.
-/

namespace HpLib.ClientIds

open Lib

/-- The `number`-th client whose `id_` was set. -/
structure Client where
  number : Nat
  id : Int32
  deriving Repr, DecidableEq

/-- Where a thread stands: outside, in a constructor between the load and
the increment, or back from the constructor with the client it made. -/
inductive Pc where
  | idle
  | loaded (c : Client)
  | made (c : Client)
  deriving Repr, DecidableEq

/-- `clients` and `replaced` record the history and steer nothing: the
clients in the order in which their `id_` was set, and the insertions that
put a client where another one was. -/
structure State (ι κ : Type) where
  idCounter : Int32
  clients : List Client
  threads : ι → Pc
  allClientsMap : κ → Table Int32 Client
  replaced : List (Client × Client)

/-- `handleOver` is what a thread does with the client it made;
`disconnect` is `TCPServer::disconnect`. -/
inductive Act (ι κ : Type) where
  | load (t : ι)
  | increment (t : ι)
  | handOver (t : ι)
  | disconnect (s : κ) (id : Int32)
  deriving Repr, DecidableEq

variable {ι κ : Type} [DecidableEq ι] [DecidableEq κ]

namespace State

def init : State ι κ :=
  { idCounter := 0, clients := [], threads := fun _ => .idle, allClientsMap := fun _ => .empty,
    replaced := [] }

def setPc (s : State ι κ) (t : ι) (pc : Pc) : State ι κ :=
  { s with threads := Function.update s.threads t pc }

/-- The client whose constructor sets `id_` next. -/
def next (s : State ι κ) : Client :=
  ⟨s.clients.length, s.idCounter⟩

/-- `id_ = ID_Counter_`. -/
def load (s : State ι κ) (t : ι) : State ι κ :=
  { s with clients := s.clients ++ [s.next] }.setPc t (.loaded s.next)

/-- `ID_Counter_++`, and the constructor returns. -/
def increment (s : State ι κ) (t : ι) (c : Client) : State ι κ :=
  { s with idCounter := s.idCounter + 1 }.setPc t (.made c)

/-- `all_clients_map_[tcp_client->get_client_id()] = tcp_client`. -/
def register (s : State ι κ) (k : κ) (c : Client) : State ι κ :=
  { s with
    allClientsMap := Function.update s.allClientsMap k ((s.allClientsMap k).assign c.id c)
    replaced := match (s.allClientsMap k).find c.id with
      | some old => if old = c then s.replaced else s.replaced ++ [(old, c)]
      | none => s.replaced }

/-- A worker thread is in `handle_accept` and registers the client, a user's
thread keeps it. -/
def handOver (s : State ι κ) (server : Option κ) (t : ι) (c : Client) : State ι κ :=
  match server with
  | some k => (s.register k c).setPc t .idle
  | none => s.setPc t .idle

def disconnect (s : State ι κ) (k : κ) (id : Int32) : State ι κ :=
  { s with allClientsMap := Function.update s.allClientsMap k ((s.allClientsMap k).erase id) }

/-- `serves t` is the server whose worker thread `t` is, none for a thread
of a user. -/
def step (serves : ι → Option κ) (s : State ι κ) : Act ι κ → Option (State ι κ)
  | .load t =>
      match s.threads t with
      | .idle => some (s.load t)
      | .loaded _ | .made _ => none
  | .increment t =>
      match s.threads t with
      | .loaded c => some (s.increment t c)
      | .idle | .made _ => none
  | .handOver t =>
      match s.threads t with
      | .made c => some (s.handOver (serves t) t c)
      | .idle | .loaded _ => none
  | .disconnect k id => some (s.disconnect k id)

end State

/-- Constructions on any number of threads, interleaved. -/
def machine (serves : ι → Option κ) : Machine (State ι κ) (Act ι κ) where
  init := .init
  step := State.step serves

namespace State

/-- No two clients have the same id, and no insertion replaced a client. -/
def Unique (s : State ι κ) : Prop :=
  (s.clients.map Client.id).Nodup ∧ s.replaced = []

/-- No constructor stands between its load and its increment. -/
def Quiet (s : State ι κ) : Prop :=
  ∀ t c, s.threads t ≠ .loaded c

/-- A load is taken only while no other constructor has loaded and not yet
incremented, and while the counter has not come around. -/
def Alone (s : State ι κ) : Act ι κ → Prop
  | .load _ => s.Quiet ∧ s.clients.length < 2 ^ 32
  | .increment _ | .handOver _ | .disconnect _ _ => True

/-! ## What a step does -/

variable {serves : ι → Option κ} {s s' : State ι κ}

theorem step_cases {a : Act ι κ} (h : s.step serves a = some s') :
    (∃ t, a = .load t ∧ s.threads t = .idle ∧ s' = s.load t) ∨
    (∃ t c, a = .increment t ∧ s.threads t = .loaded c ∧ s' = s.increment t c) ∨
    (∃ t c, a = .handOver t ∧ s.threads t = .made c ∧ s' = s.handOver (serves t) t c) ∨
    (∃ k id, a = .disconnect k id ∧ s' = s.disconnect k id) := by
  cases a with
  | load t =>
      cases hpc : s.threads t <;> simp only [step, hpc] at h <;> cases h
      exact .inl ⟨t, rfl, hpc, rfl⟩
  | increment t =>
      cases hpc : s.threads t <;> simp only [step, hpc] at h <;> cases h
      exact .inr (.inl ⟨t, _, rfl, hpc, rfl⟩)
  | handOver t =>
      cases hpc : s.threads t <;> simp only [step, hpc] at h <;> cases h
      exact .inr (.inr (.inl ⟨t, _, rfl, hpc, rfl⟩))
  | disconnect k id =>
      cases h
      exact .inr (.inr (.inr ⟨k, id, rfl, rfl⟩))

omit [DecidableEq κ] in
@[simp] theorem setPc_self (s : State ι κ) (t : ι) (pc : Pc) : (s.setPc t pc).threads t = pc :=
  Function.update_self ..

omit [DecidableEq κ] in
theorem setPc_of_ne (s : State ι κ) {t u : ι} (pc : Pc) (h : u ≠ t) :
    (s.setPc t pc).threads u = s.threads u :=
  Function.update_of_ne h ..

@[simp] theorem handOver_clients (s : State ι κ) (server : Option κ) (t : ι) (c : Client) :
    (s.handOver server t c).clients = s.clients := by
  cases server <;> rfl

@[simp] theorem handOver_idCounter (s : State ι κ) (server : Option κ) (t : ι) (c : Client) :
    (s.handOver server t c).idCounter = s.idCounter := by
  cases server <;> rfl

theorem handOver_threads (s : State ι κ) (server : Option κ) (t : ι) (c : Client) :
    (s.handOver server t c).threads = (s.setPc t .idle).threads := by
  cases server <;> rfl

/-- Clients are only added. -/
theorem clients_kept {a : Act ι κ} (h : s.step serves a = some s') :
    s.clients <+: s'.clients := by
  rcases step_cases h with ⟨t, -, -, rfl⟩ | ⟨t, c, -, -, rfl⟩ | ⟨t, c, -, -, rfl⟩ | ⟨k, id, -, rfl⟩
  · exact List.prefix_append _ _
  · exact List.prefix_rfl
  · show s.clients <+: (s.handOver (serves t) t c).clients
    exact (handOver_clients s (serves t) t c).symm ▸ List.prefix_rfl
  · exact List.prefix_rfl

/-! ## Where the clients are -/

/-- A client that is under way or in a table is one of the clients, under
its own id. -/
structure Known (s : State ι κ) : Prop where
  loaded : ∀ t c, s.threads t = .loaded c → c ∈ s.clients
  made : ∀ t c, s.threads t = .made c → c ∈ s.clients
  entry : ∀ k id c, (s.allClientsMap k).find id = some c → c ∈ s.clients ∧ c.id = id

omit [DecidableEq ι] [DecidableEq κ] in
theorem Known.init : (init : State ι κ).Known where
  loaded t c h := by cases h
  made t c h := by cases h
  entry k id c h := by cases h

omit [DecidableEq ι] [DecidableEq κ] in
theorem Known.add (h : s.Known) (c : Client) : { s with clients := s.clients ++ [c] }.Known where
  loaded t d ht := List.mem_append_left _ (h.loaded t d ht)
  made t d ht := List.mem_append_left _ (h.made t d ht)
  entry k id d hd := ⟨List.mem_append_left _ (h.entry k id d hd).1, (h.entry k id d hd).2⟩

omit [DecidableEq κ] in
theorem Known.setPc (h : s.Known) {pc : Pc}
    (hpc : ∀ c, pc = .loaded c ∨ pc = .made c → c ∈ s.clients) (t : ι) :
    (s.setPc t pc).Known := by
  constructor
  · intro u d hu
    by_cases hut : u = t
    · subst hut
      rw [setPc_self] at hu
      exact hpc d (.inl hu)
    · rw [setPc_of_ne _ _ hut] at hu
      exact h.loaded u d hu
  · intro u d hu
    by_cases hut : u = t
    · subst hut
      rw [setPc_self] at hu
      exact hpc d (.inr hu)
    · rw [setPc_of_ne _ _ hut] at hu
      exact h.made u d hu
  · exact h.entry

omit [DecidableEq κ] in
theorem Known.load (h : s.Known) (t : ι) : (s.load t).Known := by
  apply (h.add s.next).setPc
  rintro c (hc | hc)
  · cases hc
    exact List.mem_append_right _ List.mem_cons_self
  · cases hc

omit [DecidableEq κ] in
theorem Known.increment (h : s.Known) {c : Client} (hc : c ∈ s.clients) (t : ι) :
    (s.increment t c).Known := by
  have hcount : { s with idCounter := s.idCounter + 1 }.Known := ⟨h.loaded, h.made, h.entry⟩
  apply hcount.setPc
  rintro d (hd | hd)
  · cases hd
  · cases hd
    exact hc

omit [DecidableEq κ] in
theorem Known.setPc_idle (h : s.Known) (t : ι) : (s.setPc t .idle).Known := by
  apply h.setPc
  rintro c (hc | hc) <;> cases hc

omit [DecidableEq ι] [DecidableEq κ] in
/-- Tables whose entries are old ones or clients under their own ids. -/
theorem Known.tables (h : s.Known) {m : κ → Table Int32 Client} {l : List (Client × Client)}
    (hm : ∀ k id c, (m k).find id = some c →
      (s.allClientsMap k).find id = some c ∨ (c ∈ s.clients ∧ c.id = id)) :
    { s with allClientsMap := m, replaced := l }.Known where
  loaded := h.loaded
  made := h.made
  entry k id c hc := by
    rcases hm k id c hc with hold | hnew
    · exact h.entry k id c hold
    · exact hnew

omit [DecidableEq ι] in
theorem Known.register (h : s.Known) {c : Client} (hc : c ∈ s.clients) (k : κ) :
    (s.register k c).Known := by
  apply h.tables
  intro l id d hd
  by_cases hl : l = k
  · subst hl
    rw [Function.update_self] at hd
    by_cases hid : id = c.id
    · subst hid
      rw [Table.find_assign_self] at hd
      cases hd
      exact .inr ⟨hc, rfl⟩
    · rw [Table.find_assign_of_ne _ _ hid] at hd
      exact .inl hd
  · rw [Function.update_of_ne hl] at hd
    exact .inl hd

omit [DecidableEq ι] in
theorem Known.disconnect (h : s.Known) (k : κ) (id : Int32) : (s.disconnect k id).Known := by
  apply h.tables
  intro l jd d hd
  by_cases hl : l = k
  · subst hl
    rw [Function.update_self] at hd
    by_cases hid : jd = id
    · subst hid
      rw [Table.find_erase_self] at hd
      cases hd
    · rw [Table.find_erase_of_ne _ hid] at hd
      exact .inl hd
  · rw [Function.update_of_ne hl] at hd
    exact .inl hd

theorem Known.handOver (h : s.Known) {c : Client} (hc : c ∈ s.clients) (server : Option κ)
    (t : ι) : (s.handOver server t c).Known := by
  cases server with
  | none => exact h.setPc_idle t
  | some k => exact (h.register hc k).setPc_idle t

theorem Known.step {a : Act ι κ} (h : s.Known) (hstep : s.step serves a = some s') :
    s'.Known := by
  rcases step_cases hstep with
    ⟨t, -, -, rfl⟩ | ⟨t, c, -, hpc, rfl⟩ | ⟨t, c, -, hpc, rfl⟩ | ⟨k, id, -, rfl⟩
  · exact h.load t
  · exact h.increment (h.loaded t c hpc) t
  · exact h.handOver (h.made t c hpc) (serves t) t
  · exact h.disconnect k id

/-! ## Loads that stay apart -/

/-- The ids that `n` clients get when no two constructors overlap. -/
def serialIds (n : Nat) : List Int32 :=
  (List.range n).map Int32.ofNat

@[simp] theorem serialIds_succ (n : Nat) : serialIds (n + 1) = serialIds n ++ [Int32.ofNat n] := by
  simp [serialIds, List.range_succ]

theorem ofNat_mod (a b : Nat) (h : Int32.ofNat a = Int32.ofNat b) : a % 2 ^ 32 = b % 2 ^ 32 := by
  have := congrArg (fun x => x.toUInt32.toNat) h
  simpa using this

theorem nodup_serialIds {n : Nat} (h : n ≤ 2 ^ 32) : (serialIds n).Nodup := by
  apply List.Nodup.map_on _ List.nodup_range
  intro a ha b hb hab
  have := ofNat_mod a b hab
  rw [List.mem_range] at ha hb
  omega

/-- What holds while loads stay apart: the ids count up, and the counter
stands at the next id, or at the last one while its constructor is about to
increment. -/
structure Serial (s : State ι κ) : Prop where
  known : s.Known
  ids : s.clients.map Client.id = serialIds s.clients.length
  few : s.clients.length ≤ 2 ^ 32
  counter : (s.Quiet ∧ s.idCounter = Int32.ofNat s.clients.length) ∨
    ∃ t c n, s.threads t = .loaded c ∧ (∀ u d, s.threads u = .loaded d → u = t)
      ∧ s.clients.length = n + 1 ∧ s.idCounter = Int32.ofNat n
  kept : s.replaced = []

omit [DecidableEq ι] [DecidableEq κ] in
theorem Serial.init : (init : State ι κ).Serial where
  known := .init
  ids := rfl
  few := Nat.zero_le _
  counter := .inl ⟨fun _ _ => Pc.noConfusion, rfl⟩
  kept := rfl

omit [DecidableEq ι] [DecidableEq κ] in
theorem Serial.unique (h : s.Serial) : s.Unique := by
  constructor
  · rw [h.ids]
    exact nodup_serialIds h.few
  · exact h.kept

omit [DecidableEq ι] [DecidableEq κ] in
/-- Clients with one id are one client. -/
theorem Serial.eq_of_id (h : s.Serial) {c d : Client} (hc : c ∈ s.clients) (hd : d ∈ s.clients)
    (hid : c.id = d.id) : c = d :=
  List.inj_on_of_nodup_map h.unique.1 hc hd hid

omit [DecidableEq κ] in
theorem Serial.load (h : s.Serial) {t : ι} (hq : s.Quiet) (hlt : s.clients.length < 2 ^ 32) :
    (s.load t).Serial := by
  have hcount : s.idCounter = Int32.ofNat s.clients.length := by
    rcases h.counter with ⟨-, hcount⟩ | ⟨u, c, -, hu, -⟩
    · exact hcount
    · exact absurd hu (hq u c)
  have hlen : (s.load t).clients.length = s.clients.length + 1 := List.length_append
  constructor
  · exact h.known.load t
  · rw [hlen, serialIds_succ, ← h.ids, ← hcount]
    exact List.map_append
  · rw [hlen]
    exact hlt
  · refine .inr ⟨t, s.next, s.clients.length, setPc_self .., ?_, hlen, hcount⟩
    intro u d hu
    by_contra hut
    rw [State.load, setPc_of_ne _ _ hut] at hu
    exact hq u d hu
  · exact h.kept

omit [DecidableEq κ] in
theorem Serial.increment (h : s.Serial) {t : ι} {c : Client} (hpc : s.threads t = .loaded c) :
    (s.increment t c).Serial := by
  constructor
  · exact h.known.increment (h.known.loaded t c hpc) t
  · exact h.ids
  · exact h.few
  · left
    rcases h.counter with ⟨hq, -⟩ | ⟨u, -, n, -, honly, hlen, hcount⟩
    · exact absurd hpc (hq t c)
    · constructor
      · intro v d hv
        by_cases hvt : v = t
        · subst hvt
          rw [State.increment, setPc_self] at hv
          cases hv
        · rw [State.increment, setPc_of_ne _ _ hvt] at hv
          exact hvt ((honly v d hv).trans (honly t c hpc).symm)
      · show s.idCounter + 1 = Int32.ofNat s.clients.length
        rw [hlen, hcount, Int32.ofNat_add]
        rfl
  · exact h.kept

omit [DecidableEq ι] [DecidableEq κ] in
/-- The counter does not see threads move between `idle` and `made`. -/
theorem Serial.counter_of_loaded (h : s.Serial) (hclients : s'.clients = s.clients)
    (hcounter : s'.idCounter = s.idCounter)
    (hloaded : ∀ t c, s'.threads t = .loaded c ↔ s.threads t = .loaded c) :
    (s'.Quiet ∧ s'.idCounter = Int32.ofNat s'.clients.length) ∨
      ∃ t c n, s'.threads t = .loaded c ∧ (∀ u d, s'.threads u = .loaded d → u = t)
        ∧ s'.clients.length = n + 1 ∧ s'.idCounter = Int32.ofNat n := by
  simp only [Quiet, ne_eq, hloaded, hclients, hcounter]
  exact h.counter

omit [DecidableEq ι] in
theorem Serial.register_replaced (h : s.Serial) {c : Client} (hc : c ∈ s.clients) (k : κ) :
    (s.register k c).replaced = [] := by
  show (match (s.allClientsMap k).find c.id with
    | some old => if old = c then s.replaced else s.replaced ++ [(old, c)]
    | none => s.replaced) = []
  cases hfind : (s.allClientsMap k).find c.id with
  | none => exact h.kept
  | some old =>
      obtain ⟨hold, hid⟩ := h.known.entry k c.id old hfind
      simp only [if_pos (h.eq_of_id hold hc hid)]
      exact h.kept

theorem Serial.handOver (h : s.Serial) {t : ι} {c : Client} (hpc : s.threads t = .made c)
    (server : Option κ) : (s.handOver server t c).Serial := by
  have hc : c ∈ s.clients := h.known.made t c hpc
  constructor
  · exact h.known.handOver hc server t
  · rw [handOver_clients]
    exact h.ids
  · rw [handOver_clients]
    exact h.few
  · apply h.counter_of_loaded (handOver_clients ..) (handOver_idCounter ..)
    intro u d
    rw [handOver_threads]
    by_cases hut : u = t
    · subst hut
      rw [setPc_self, hpc]
      constructor <;> intro hd <;> cases hd
    · rw [setPc_of_ne _ _ hut]
  · cases server with
    | none => exact h.kept
    | some k => exact h.register_replaced hc k

omit [DecidableEq ι] in
theorem Serial.disconnect (h : s.Serial) (k : κ) (id : Int32) : (s.disconnect k id).Serial where
  known := h.known.disconnect k id
  ids := h.ids
  few := h.few
  counter := h.counter
  kept := h.kept

theorem Serial.step {a : Act ι κ} (h : s.Serial) (ha : s.Alone a)
    (hstep : s.step serves a = some s') : s'.Serial := by
  rcases step_cases hstep with
    ⟨t, rfl, -, rfl⟩ | ⟨t, c, -, hpc, rfl⟩ | ⟨t, c, -, hpc, rfl⟩ | ⟨k, id, -, rfl⟩
  · exact h.load ha.1 ha.2
  · exact h.increment hpc
  · exact h.handOver hpc (serves t)
  · exact h.disconnect k id

/-! ## Loads that do not -/

/-- Out of a serial state, a load that is not alone takes an id that is
already taken. -/
theorem Serial.not_nodup (h : s.Serial) {a : Act ι κ} (ha : ¬ s.Alone a)
    (hstep : s.step serves a = some s') : ¬ (s'.clients.map Client.id).Nodup := by
  rcases step_cases hstep with
    ⟨t, rfl, -, rfl⟩ | ⟨t, c, rfl, -, -⟩ | ⟨t, c, rfl, -, -⟩ | ⟨k, id, rfl, -⟩
  · have htaken : s.idCounter ∈ serialIds s.clients.length := by
      rcases h.counter with ⟨hq, hcount⟩ | ⟨u, c, n, -, -, hlen, hcount⟩
      · have hfull : s.clients.length = 2 ^ 32 := by
          have hnot : ¬ s.clients.length < 2 ^ 32 := fun hlt => ha ⟨hq, hlt⟩
          have := h.few
          omega
        rw [hcount, hfull]
        exact List.mem_map.mpr ⟨0, List.mem_range.mpr (by decide), rfl⟩
      · rw [hlen, hcount, serialIds_succ]
        exact List.mem_append_right _ List.mem_cons_self
    rw [← h.ids] at htaken
    intro hnodup
    rw [State.load, setPc] at hnodup
    simp only [List.map_append, List.map_cons, List.map_nil] at hnodup
    exact (List.nodup_append.mp hnodup).2.2 _ htaken _ List.mem_cons_self rfl
  · exact absurd trivial ha
  · exact absurd trivial ha
  · exact absurd trivial ha

theorem not_nodup_step {a : Act ι κ} (h : ¬ (s.clients.map Client.id).Nodup)
    (hstep : s.step serves a = some s') : ¬ (s'.clients.map Client.id).Nodup := by
  intro hnodup
  exact h (hnodup.sublist ((clients_kept hstep).sublist.map _))

end State

open State in
/-- **Client ids are unique exactly when constructions take turns.** In every
run, the ids of all clients are distinct and no insertion has replaced a
client if and only if every load of the counter was taken while no other
constructor stood between its load and its increment, and by one of the
first 2^32 clients. -/
theorem unique_iff_alone (serves : ι → Option κ) {as : List (Act ι κ)} {t : State ι κ}
    (hrun : (machine serves).exec (machine serves).init as = some t) :
    t.Unique ↔ (machine serves).Guarded Alone (machine serves).init as := by
  have hsplit := Machine.guarded_or_not (M := machine serves) (G := Alone) (P := Serial)
    (Q := fun s => ¬ (s.clients.map Client.id).Nodup)
    (fun _ _ _ h ha hstep => h.step ha hstep) (fun _ _ _ h ha hstep => h.not_nodup ha hstep)
    (fun _ _ _ h hstep => not_nodup_step h hstep) Serial.init hrun
  rcases hsplit with ⟨hg, ht⟩ | ⟨hg, ht⟩
  · exact ⟨fun _ => hg, fun _ => ht.unique⟩
  · exact ⟨fun hu => absurd hu.1 ht, fun hc => absurd hc hg⟩

/-- The worker thread of one server, and one thread of a user. -/
def workerAndUser : Bool → Option Unit
  | true => some ()
  | false => none

/-- An accepted client, then one of the user's, each made in one go. -/
theorem unique_in_turns : ∃ t, (machine workerAndUser).exec (machine workerAndUser).init
      [.load true, .increment true, .handOver true, .load false, .increment false] = some t ∧
    (t.Unique ↔ (machine workerAndUser).Guarded State.Alone (machine workerAndUser).init
      [.load true, .increment true, .handOver true, .load false, .increment false]) := by
  obtain ⟨t, hrun⟩ : ∃ t, (machine workerAndUser).exec (machine workerAndUser).init
      [.load true, .increment true, .handOver true, .load false, .increment false] = some t :=
    ⟨_, rfl⟩
  exact ⟨t, hrun, unique_iff_alone workerAndUser hrun⟩

/-- The worker loads the counter, the user's thread loads it too, and both
constructors return clients with the id 0. -/
theorem ids_repeat : ¬ ∀ (as : List (Act Bool Unit)) (t : State Bool Unit),
    (machine workerAndUser).exec (machine workerAndUser).init as = some t → t.Unique := by
  intro h
  have hu := h [.load true, .load false, .increment true, .increment false] _ rfl
  have hnodup : ¬ ([0, 0] : List Int32).Nodup := by decide
  exact hnodup hu.1

end HpLib.ClientIds
