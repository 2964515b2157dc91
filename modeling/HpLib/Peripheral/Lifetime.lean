import HpLib.Lib.Machine
import HpLib.Lib.Table
import Mathlib.Data.List.Basic

/-!
# Who owns a client

`all_clients_map_`, the running `handle_accept` and the user hold a client of
a server by `std::shared_ptr`, and the last of them to let go destroys it.
Its handlers do not hold it: `async_receive` is given `this`, so a completion
that comes after the destructor runs on freed memory.

With the one receive that the constructor posts this never happens
(`completion_finds_client`): the table lets go of a client only in its own
last handler. But `connect()`, which `handle_accept` calls between putting
the client into the table and connecting the slot, and which the user may
call, posts another receive when it finds the client disconnected and reaches
the peer. The completion of the first, which the `disconnect` in between
aborted, then takes the client out of the table under the second.

The handlers of a worker run one after the other, the user's calls on any
number of threads; the steps here interleave freely. The constructor of a
client is one step, and so is `connect()`, at the moment at which it posts
the receive or gives up. The ids of clients are distinct.
-/

namespace HpLib.Lifetime

open Lib

/-- A receive of a client: outstanding, completed and queued, or in a handler
that is about to fire `disconnect_connections_`. -/
inductive Receive where
  | posted
  | queued (error : Bool)
  | closing
  deriving DecidableEq

/-- How far `handle_accept` has come with a client: it has made it, put it
into the table, called `connect()`, connected the slot, or is `done`; or
`connect()` threw and it gave up. It holds the client until then. -/
inductive Accepting where
  | made
  | registered
  | connected
  | watched
  | done
  | failed
  deriving DecidableEq

/-- What `connect()` comes to when it finds the client disconnected: the
resolver throws (`port_` is a `short`), the peer is not reached, or it is. -/
inductive Answer where
  | throws
  | refused
  | reached
  deriving DecidableEq

/-- `refs` are the pointers that the user holds, and `receives` those that
are not over. `reconnected` records that `connect()` has posted a receive. -/
structure Client where
  id : Int32
  isConnected : Bool
  socketOpen : Bool
  accepting : Accepting
  receives : List Receive
  refs : Nat
  reconnected : Bool
  destroyed : Bool
  deriving DecidableEq

/-- Every client ever made, in the order of the constructions. After
`crashed`, a handler on a destroyed client, nothing is said. -/
structure State where
  clients : List Client
  allClientsMap : Table Int32 Nat
  crashed : Bool

/-- Clients are named by their place in the order of constructions, and a
receive by its place among those of the client. -/
inductive Act where
  | construct (id : Int32)
  | register (n : Nat)
  | acceptConnect (n : Nat) (answer : Answer)
  | connectSlot (n : Nat)
  | handOver (n : Nat)
  | getClient (id : Int32)
  | copy (n : Nat)
  | drop (n : Nat)
  | connect (n : Nat) (answer : Answer)
  | disconnect (n : Nat)
  | disconnectClient (id : Int32)
  | arrive (n i : Nat) (error : Bool)
  | handleReadData (n i : Nat)
  | fireDisconnected (n i : Nat)

/-- What the constructor for an accepted socket leaves. -/
def Client.new (id : Int32) : Client :=
  { id := id, isConnected := true, socketOpen := true, accepting := .made, receives := [.posted],
    refs := 0, reconnected := false, destroyed := false }

/-- A socket that is closed completes its outstanding receives. -/
def Receive.abort : Receive → Receive
  | .posted => .queued true
  | r => r

/-- `TCPClient::connect`. -/
def Client.connect (c : Client) (answer : Answer) : Client :=
  if c.isConnected then c
  else if answer = .reached then
    { c with isConnected := true, socketOpen := true, receives := c.receives ++ [.posted],
             reconnected := true }
  else c

/-- `TCPClient::disconnect`. -/
def Client.disconnect (c : Client) : Client :=
  { c with isConnected := false, socketOpen := false, receives := c.receives.map Receive.abort }

/-- The slot that `handle_accept` connects to `disconnect_connections_`. -/
def Client.hasSlot (c : Client) : Bool :=
  c.accepting = .watched ∨ c.accepting = .done

/-- `handle_accept` has let go of the client. -/
def Accepting.isOver : Accepting → Bool
  | .done | .failed => true
  | .made | .registered | .connected | .watched => false

/-- A callback was given the client, or the user has a pointer to it. -/
def Client.InHand (c : Client) : Prop :=
  c.accepting = .watched ∨ c.refs ≠ 0

instance (c : Client) : Decidable c.InHand :=
  inferInstanceAs (Decidable (_ ∨ _))

namespace State

def put (s : State) (n : Nat) (c : Client) : State :=
  { s with clients := s.clients.set n c }

/-- Someone holds the client. -/
def Held (s : State) (n : Nat) (c : Client) : Prop :=
  c.accepting.isOver = false ∨ c.refs ≠ 0 ∨ s.allClientsMap.find c.id = some n

instance (s : State) (n : Nat) (c : Client) : Decidable (s.Held n c) :=
  inferInstanceAs (Decidable (_ ∨ _ ∨ _))

/-- A pointer to a client has gone; the last one takes the client with it. -/
def release (s : State) (n : Nat) : State :=
  match s.clients[n]? with
  | none => s
  | some c => if s.Held n c then s else s.put n { c.disconnect with destroyed := true }

/-- A change of one client, where it can be made. -/
def change (s : State) (n : Nat) (f : Client → Option Client) : Option State :=
  (s.clients[n]?.bind f).map (s.put n)

/-- `make_shared<TCPClient>(socket)`. -/
def construct (s : State) (id : Int32) : Option State :=
  if s.clients.all fun c => c.id ≠ id then
    some { s with clients := s.clients ++ [.new id] }
  else none

/-- `all_clients_map_[tcp_client->get_client_id()] = tcp_client`. -/
def register (s : State) (n : Nat) : Option State :=
  match s.clients[n]? with
  | none => none
  | some c =>
      if c.accepting = .made then
        let s' := { s.put n { c with accepting := .registered } with
          allClientsMap := s.allClientsMap.assign c.id n }
        match s.allClientsMap.find c.id with
        | none => some s'
        | some m => some (s'.release m)
      else none

/-- `tcp_client->connect()` in `handle_accept`; what it throws ends in the
`catch`, where the client is let go of. -/
def acceptConnect (s : State) (n : Nat) (answer : Answer) : Option State :=
  (s.change n fun c =>
    if c.accepting = .registered then
      if c.isConnected = false ∧ answer = .throws then some { c with accepting := .failed }
      else some { c.connect answer with accepting := .connected }
    else none).map (·.release n)

/-- `notify_me_when_disconnected`. -/
def connectSlot (s : State) (n : Nat) : Option State :=
  s.change n fun c =>
    if c.accepting = .connected then some { c with accepting := .watched } else none

/-- The callbacks have returned, or one has thrown, and `handle_accept` lets
go of the client. -/
def handOver (s : State) (n : Nat) : Option State :=
  (s.change n fun c =>
    if c.accepting = .watched then some { c with accepting := .done } else none).map (·.release n)

/-- `get_client`, which copies the pointer under the mutex. -/
def getClient (s : State) (id : Int32) : Option State :=
  match s.allClientsMap.find id with
  | none => some s
  | some n => s.change n fun c => some { c with refs := c.refs + 1 }

/-- Who has a pointer copies it. -/
def copy (s : State) (n : Nat) : Option State :=
  s.change n fun c => if c.InHand then some { c with refs := c.refs + 1 } else none

def drop (s : State) (n : Nat) : Option State :=
  (s.change n fun c =>
    if c.refs ≠ 0 then some { c with refs := c.refs - 1 } else none).map (·.release n)

/-- `TCPClient::connect` by the user. -/
def connect (s : State) (n : Nat) (answer : Answer) : Option State :=
  s.change n fun c => if c.InHand then some (c.connect answer) else none

/-- `TCPClient::disconnect` by the user. -/
def disconnect (s : State) (n : Nat) : Option State :=
  s.change n fun c => if c.InHand then some c.disconnect else none

def disconnectClient (s : State) (id : Int32) : Option State :=
  match s.allClientsMap.find id with
  | none => some s
  | some n => s.change n fun c => some (if c.isConnected then c.disconnect else c)

/-- A receive completes. -/
def arrive (s : State) (n i : Nat) (error : Bool) : Option State :=
  s.change n fun c =>
    if c.receives[i]? = some .posted then
      some { c with receives := c.receives.set i (.queued error) }
    else none

/-- `handle_read_data` up to the signal that it may fire. A receive posted on
a closed socket completes at once. -/
def handleReadData (s : State) (n i : Nat) : Option State :=
  match s.clients[n]? with
  | none => none
  | some c =>
      match c.receives[i]? with
      | some (.queued error) =>
          if c.destroyed then some { s with crashed := true }
          else if error = false then
            some (s.put n { c with
              receives := c.receives.set i (if c.socketOpen then .posted else .queued true) })
          else if c.isConnected then
            some (s.put n { c with isConnected := false, receives := c.receives.set i .closing })
          else some (s.put n { c with receives := c.receives.eraseIdx i })
      | _ => none

/-- `disconnect_connections_(id_)`, the end of the handler; the server's slot,
where it is connected, is `TCPServer::disconnect`. -/
def fireDisconnected (s : State) (n i : Nat) : Option State :=
  match s.clients[n]? with
  | none => none
  | some c =>
      if c.receives[i]? = some .closing then
        if c.destroyed then some { s with crashed := true }
        else
          let s' := s.put n { c with receives := c.receives.eraseIdx i }
          if c.hasSlot then
            match s.allClientsMap.find c.id with
            | none => some s'
            | some m => some ({ s' with allClientsMap := s.allClientsMap.erase c.id }.release m)
          else some s'
      else none

def next (s : State) : Act → Option State
  | .construct id => s.construct id
  | .register n => s.register n
  | .acceptConnect n answer => s.acceptConnect n answer
  | .connectSlot n => s.connectSlot n
  | .handOver n => s.handOver n
  | .getClient id => s.getClient id
  | .copy n => s.copy n
  | .drop n => s.drop n
  | .connect n answer => s.connect n answer
  | .disconnect n => s.disconnect n
  | .disconnectClient id => s.disconnectClient id
  | .arrive n i error => s.arrive n i error
  | .handleReadData n i => s.handleReadData n i
  | .fireDisconnected n i => s.fireDisconnected n i

def step (s : State) (a : Act) : Option State :=
  if s.crashed then none else s.next a

end State

def machine : Machine State Act where
  init := ⟨[], .empty, false⟩
  step := State.step

variable {s s' : State} {n m i : Nat} {c c' d : Client}

/-! ## One client changes -/

theorem get_put_self (hc : s.clients[n]? = some c) : (s.put n c').clients[n]? = some c' :=
  List.getElem?_set_self (List.getElem?_eq_some_iff.mp hc).1

theorem get_put_of_ne (h : m ≠ n) : (s.put n c').clients[m]? = s.clients[m]? :=
  List.getElem?_set_ne h.symm

/-- A client after one of them changed. -/
theorem put_cases (hc : s.clients[n]? = some c) (h : (s.put n c').clients[m]? = some d) :
    (m = n ∧ d = c') ∨ (m ≠ n ∧ s.clients[m]? = some d) := by
  by_cases hm : m = n
  · subst hm
    rw [get_put_self hc] at h
    exact .inl ⟨rfl, (Option.some.inj h).symm⟩
  · rw [get_put_of_ne hm] at h
    exact .inr ⟨hm, h⟩

theorem change_eq_some {f : Client → Option Client} (h : s.change n f = some s') :
    ∃ c c', s.clients[n]? = some c ∧ f c = some c' ∧ s' = s.put n c' := by
  obtain ⟨c', hf, rfl⟩ := Option.map_eq_some_iff.mp h
  obtain ⟨c, hc, hf⟩ := Option.bind_eq_some_iff.mp hf
  exact ⟨c, c', hc, hf, rfl⟩

/-- What is true of a client by itself: if `connect()` has posted nothing it
has one receive at most, and if it is destroyed nobody outside the table
holds it, and it has none. -/
structure Client.Sound (c : Client) : Prop where
  single : c.reconnected = false → c.receives.length ≤ 1
  alone : c.destroyed = true →
    c.accepting.isOver = true ∧ c.refs = 0 ∧ (c.reconnected = false → c.receives = [])

/-- Ids are distinct, the table holds living clients under their ids, and
every client of the table that has a receive, and no other from `connect()`,
is in it. -/
structure Sound (s : State) : Prop where
  ids : ∀ (n m : Nat) (c d : Client), s.clients[n]? = some c → s.clients[m]? = some d →
    c.id = d.id → n = m
  table : ∀ (id : Int32) (n : Nat), s.allClientsMap.find id = some n →
    ∃ c, s.clients[n]? = some c ∧ c.id = id ∧ c.accepting ≠ .made ∧ c.destroyed = false
  kept : ∀ (n : Nat) (c : Client), s.clients[n]? = some c → c.reconnected = false →
    c.receives ≠ [] → c.accepting ≠ .made → s.allClientsMap.find c.id = some n
  each : ∀ (n : Nat) (c : Client), s.clients[n]? = some c → c.Sound
  crash : s.crashed = true →
    ∃ (n : Nat) (c : Client), s.clients[n]? = some c ∧ c.destroyed = true ∧ c.reconnected = true

theorem Sound.init : Sound machine.init where
  ids _ _ _ _ hc := by cases hc
  table _ _ h := by cases h
  kept _ _ hc := by cases hc
  each _ _ hc := by cases hc
  crash h := by cases h

theorem Sound.alive_of_find (h : Sound s) {id : Int32} (hfind : s.allClientsMap.find id = some n)
    (hc : s.clients[n]? = some c) : c.id = id ∧ c.accepting ≠ .made ∧ c.destroyed = false := by
  obtain ⟨d, hd, hall⟩ := h.table id n hfind
  rw [hc] at hd
  cases hd
  exact hall

/-- Whom `handle_accept` or the user holds is not destroyed. -/
theorem Client.Sound.alive (h : c.Sound) (hheld : c.accepting.isOver = false ∨ c.refs ≠ 0) :
    c.destroyed = false := by
  by_contra hd
  obtain ⟨hover, hrefs, -⟩ := h.alone (by simpa using hd)
  rcases hheld with hheld | hheld
  · rw [hover] at hheld
    cases hheld
  · exact hheld hrefs

theorem Client.Sound.alive_of_inHand (h : c.Sound) (hhand : c.InHand) : c.destroyed = false := by
  refine h.alive (hhand.imp (fun hacc => ?_) fun hrefs => hrefs)
  rw [hacc]
  rfl

/-- A client changes that stays where it is. -/
theorem Sound.put (h : Sound s) (hup : s.crashed = false) (hc : s.clients[n]? = some c)
    (hid : c'.id = c.id) (hmade : c'.accepting = .made ↔ c.accepting = .made)
    (hsound : c'.Sound) (hout : s.allClientsMap.find c.id = some n → c'.destroyed = false)
    (hkept : c'.reconnected = false → c'.receives ≠ [] →
      c.reconnected = false ∧ c.receives ≠ []) : Sound (s.put n c') where
  ids := by
    intro i j x y hx hy hxy
    rcases put_cases hc hx with ⟨rfl, rfl⟩ | ⟨-, hx'⟩ <;>
      rcases put_cases hc hy with ⟨rfl, rfl⟩ | ⟨-, hy'⟩
    · rfl
    · exact h.ids _ _ _ _ hc hy' (hid.symm.trans hxy)
    · exact h.ids _ _ _ _ hx' hc (hxy.trans hid)
    · exact h.ids _ _ _ _ hx' hy' hxy
  table := by
    intro id i hi
    obtain ⟨x, hx, hxid, hxmade, hxd⟩ := h.table id i hi
    by_cases hin : i = n
    · subst hin
      rw [hc] at hx
      cases hx
      exact ⟨c', get_put_self hc, hid.trans hxid, fun hm => hxmade (hmade.mp hm),
        hout (hxid ▸ hi)⟩
    · exact ⟨x, (get_put_of_ne hin).trans hx, hxid, hxmade, hxd⟩
  kept := by
    intro i x hx hfirst hsome hnot
    rcases put_cases hc hx with ⟨rfl, rfl⟩ | ⟨-, hx⟩
    · rw [hid]
      obtain ⟨hfirst, hsome⟩ := hkept hfirst hsome
      exact h.kept _ _ hc hfirst hsome fun hm => hnot (hmade.mpr hm)
    · exact h.kept _ _ hx hfirst hsome hnot
  each := by
    intro i x hx
    rcases put_cases hc hx with ⟨rfl, rfl⟩ | ⟨-, hx⟩
    · exact hsound
    · exact h.each _ _ hx
  crash hcrashed := by
    rw [State.put, hup] at hcrashed
    cases hcrashed

theorem ne_nil_of_length_le {α : Type*} {l l' : List α} (h : l'.length ≤ l.length)
    (hne : l' ≠ []) : l ≠ [] := by
  rintro rfl
  exact hne (List.length_eq_zero_iff.mp (Nat.le_zero.mp h))

/-- A living client changes, and only `connect()` gives it another receive. -/
theorem Sound.put_alive (h : Sound s) (hup : s.crashed = false) (hc : s.clients[n]? = some c)
    (hid : c'.id = c.id) (hmade : c'.accepting = .made ↔ c.accepting = .made)
    (hd : c'.destroyed = false)
    (hreceives : c'.reconnected = false →
      c.reconnected = false ∧ c'.receives.length ≤ c.receives.length) :
    Sound (s.put n c') := by
  refine h.put hup hc hid hmade ⟨fun hfirst => ?_, fun hdestroyed => ?_⟩ (fun _ => hd)
    fun hfirst hne => ?_
  · obtain ⟨hold, hle⟩ := hreceives hfirst
    exact Nat.le_trans hle ((h.each n c hc).single hold)
  · rw [hd] at hdestroyed
    cases hdestroyed
  · obtain ⟨hold, hle⟩ := hreceives hfirst
    exact ⟨hold, ne_nil_of_length_le hle hne⟩

/-- A client that nobody holds any more goes. -/
theorem Sound.release (h : Sound s) (hup : s.crashed = false) (n : Nat) :
    Sound (s.release n) := by
  rw [State.release]
  split
  · exact h
  · rename_i c hc
    split
    · exact h
    · rename_i hheld
      rw [State.Held, not_or, not_or, Bool.not_eq_false, not_not] at hheld
      obtain ⟨hover, hrefs, hout⟩ := hheld
      have hmade : c.accepting ≠ .made := by
        intro hmade
        rw [hmade] at hover
        cases hover
      have hnone : c.reconnected = false → c.receives = [] := by
        intro hfirst
        by_contra hne
        exact hout (h.kept n c hc hfirst hne hmade)
      refine h.put hup hc rfl Iff.rfl ⟨fun hfirst => ?_, fun _ => ⟨hover, hrefs, fun hfirst => ?_⟩⟩
        (fun hfind => absurd hfind hout) fun hfirst hne => ⟨hfirst, ?_⟩
      · rw [Client.disconnect, List.length_map]
        exact (h.each n c hc).single hfirst
      · rw [Client.disconnect, hnone hfirst]
        rfl
      · exact ne_nil_of_length_le (Nat.le_of_eq (List.length_map ..)) hne

/-! ## What the calls do to a client -/

theorem Client.connect_id (c : Client) (answer : Answer) : (c.connect answer).id = c.id := by
  rw [Client.connect]
  split
  · rfl
  · split <;> rfl

theorem Client.connect_accepting (c : Client) (answer : Answer) :
    (c.connect answer).accepting = c.accepting := by
  rw [Client.connect]
  split
  · rfl
  · split <;> rfl

theorem Client.connect_destroyed (c : Client) (answer : Answer) :
    (c.connect answer).destroyed = c.destroyed := by
  rw [Client.connect]
  split
  · rfl
  · split <;> rfl

/-- `connect()` that leaves no mark has posted nothing. -/
theorem Client.connect_receives (answer : Answer)
    (h : (c.connect answer).reconnected = false) :
    c.reconnected = false ∧ (c.connect answer).receives.length ≤ c.receives.length := by
  rw [Client.connect] at h ⊢
  split
  · rename_i hconnected
    rw [if_pos hconnected] at h
    exact ⟨h, Nat.le_refl _⟩
  · rename_i hconnected
    rw [if_neg hconnected] at h
    split
    · rename_i hreached
      rw [if_pos hreached] at h
      cases h
    · rename_i hreached
      rw [if_neg hreached] at h
      exact ⟨h, Nat.le_refl _⟩

theorem Client.disconnect_receives (h : c.disconnect.reconnected = false) :
    c.reconnected = false ∧ c.disconnect.receives.length ≤ c.receives.length :=
  ⟨h, Nat.le_of_eq (List.length_map ..)⟩

/-! ## Steps -/

theorem Sound.construct (h : Sound s) (hup : s.crashed = false) {id : Int32}
    (hs : s.construct id = some s') : Sound s' := by
  rw [State.construct] at hs
  split at hs <;> cases hs
  rename_i hfresh
  rw [List.all_eq_true] at hfresh
  have hnew : ∀ c ∈ s.clients, c.id ≠ id := fun c hc => of_decide_eq_true (hfresh c hc)
  have hcases : ∀ {i : Nat} {x : Client}, (s.clients ++ [Client.new id])[i]? = some x →
      s.clients[i]? = some x ∨ (i = s.clients.length ∧ x = .new id) := by
    intro i x hx
    rw [List.getElem?_append] at hx
    split at hx
    · exact .inl hx
    · rename_i hi
      obtain ⟨hlt, rfl⟩ := List.getElem?_eq_some_iff.mp hx
      have hlen : i - s.clients.length = 0 := Nat.lt_one_iff.mp hlt
      exact .inr ⟨by omega, by simp⟩
  constructor
  · intro i j x y hx hy hxy
    rcases hcases hx with hx | ⟨rfl, rfl⟩ <;> rcases hcases hy with hy | ⟨rfl, rfl⟩
    · exact h.ids _ _ _ _ hx hy hxy
    · exact absurd hxy (hnew x (List.mem_of_getElem? hx))
    · exact absurd hxy.symm (hnew y (List.mem_of_getElem? hy))
    · rfl
  · intro k i hi
    obtain ⟨x, hx, hall⟩ := h.table k i hi
    refine ⟨x, ?_, hall⟩
    rw [List.getElem?_append_left (List.getElem?_eq_some_iff.mp hx).1]
    exact hx
  · intro i x hx hfirst hsome hnot
    rcases hcases hx with hx | ⟨rfl, rfl⟩
    · exact h.kept i x hx hfirst hsome hnot
    · exact absurd rfl hnot
  · intro i x hx
    rcases hcases hx with hx | ⟨rfl, rfl⟩
    · exact h.each i x hx
    · exact ⟨fun _ => Nat.le_refl _, nofun⟩
  · intro hcrashed
    rw [show s.crashed = true from hcrashed] at hup
    cases hup

/-- A client enters the table under an id that is not in it. -/
theorem Sound.register (h : Sound s) (hup : s.crashed = false) (hs : s.register n = some s') :
    Sound s' := by
  rw [State.register] at hs
  split at hs
  · cases hs
  rename_i c hc
  split at hs
  swap
  · cases hs
  rename_i hmade
  have hnone : s.allClientsMap.find c.id = none := by
    rw [Option.eq_none_iff_forall_ne_some]
    intro m hm
    obtain ⟨d, hd, hid, hnot, -⟩ := h.table c.id m hm
    rw [h.ids m n d c hd hc hid, hc] at hd
    cases hd
    exact hnot hmade
  rw [hnone] at hs
  cases hs
  have halive : c.destroyed = false := (h.each n c hc).alive (.inl (by rw [hmade]; rfl))
  have hother : ∀ {i : Nat} {x : Client}, s.clients[i]? = some x → i ≠ n → x.id ≠ c.id :=
    fun hx hi hid => hi (h.ids _ _ _ _ hx hc hid)
  have hput : ∀ {i : Nat} {x : Client},
      (s.put n { c with accepting := .registered }).clients[i]? = some x →
      (i = n ∧ x = { c with accepting := .registered }) ∨ (i ≠ n ∧ s.clients[i]? = some x) :=
    fun hx => put_cases hc hx
  constructor
  · intro i j x y hx hy hxy
    rcases hput hx with ⟨rfl, rfl⟩ | ⟨hi, hx'⟩ <;> rcases hput hy with ⟨rfl, rfl⟩ | ⟨hj, hy'⟩
    · rfl
    · exact absurd hxy.symm (hother hy' hj)
    · exact absurd hxy (hother hx' hi)
    · exact h.ids _ _ _ _ hx' hy' hxy
  · intro id i hi
    by_cases hid : id = c.id
    · subst hid
      rw [Table.find_assign_self] at hi
      cases hi
      exact ⟨_, get_put_self hc, rfl, nofun, halive⟩
    · rw [Table.find_assign_of_ne _ _ hid] at hi
      obtain ⟨x, hx, hall⟩ := h.table id i hi
      have hin : i ≠ n := by
        rintro rfl
        rw [hc] at hx
        cases hx
        exact hall.2.1 hmade
      exact ⟨x, (get_put_of_ne hin).trans hx, hall⟩
  · intro i x hx hfirst hsome hnot
    rcases hput hx with ⟨rfl, rfl⟩ | ⟨hi, hx'⟩
    · exact Table.find_assign_self ..
    · rw [Table.find_assign_of_ne _ _ (hother hx' hi)]
      exact h.kept i x hx' hfirst hsome hnot
  · intro i x hx
    rcases hput hx with ⟨rfl, rfl⟩ | ⟨hi, hx'⟩
    · refine ⟨(h.each _ _ hc).single, fun hd => ?_⟩
      rw [show c.destroyed = true from hd] at halive
      cases halive
    · exact h.each i x hx'
  · intro hcrashed
    rw [show s.crashed = true from hcrashed] at hup
    cases hup

/-- A client leaves the table in one of its own handlers. -/
theorem Sound.erase (h : Sound s) (hup : s.crashed = false) (hc : s.clients[n]? = some c)
    (hlast : c.reconnected = false → c.receives = []) :
    Sound { s with allClientsMap := s.allClientsMap.erase c.id } where
  ids := h.ids
  table := by
    intro id i hi
    by_cases hid : id = c.id
    · subst hid
      rw [Table.find_erase_self] at hi
      cases hi
    · rw [Table.find_erase_of_ne _ hid] at hi
      exact h.table id i hi
  kept := by
    intro i x hx hfirst hsome hmade
    have hne : x.id ≠ c.id := by
      intro hid
      obtain rfl := h.ids i n x c hx hc hid
      rw [show s.clients[i]? = some x from hx] at hc
      cases hc
      exact hsome (hlast hfirst)
    exact (Table.find_erase_of_ne _ hne).trans (h.kept i x hx hfirst hsome hmade)
  each := h.each
  crash hcrashed := by
    rw [show s.crashed = true from hcrashed] at hup
    cases hup

/-- A handler runs on a client that is gone. -/
theorem Sound.crashes (h : Sound s) (hc : s.clients[n]? = some c) (hd : c.destroyed = true)
    (hreceives : c.receives ≠ []) : Sound { s with crashed := true } where
  ids := h.ids
  table := h.table
  kept := h.kept
  each := h.each
  crash _ := by
    refine ⟨n, c, hc, hd, ?_⟩
    by_contra hfirst
    exact hreceives (((h.each n c hc).alone hd).2.2 (by simpa using hfirst))

theorem ne_nil_of_getElem? {α : Type*} {l : List α} {x : α} (h : l[i]? = some x) : l ≠ [] := by
  rintro rfl
  cases h

theorem Sound.handleReadData (h : Sound s) (hup : s.crashed = false)
    (hs : s.handleReadData n i = some s') : Sound s' := by
  rw [State.handleReadData] at hs
  split at hs
  · cases hs
  rename_i c hc
  split at hs
  swap
  · cases hs
  rename_i error hi
  split at hs
  · rename_i hd
    cases hs
    exact h.crashes hc hd (ne_nil_of_getElem? hi)
  rename_i hd
  rw [Bool.not_eq_true] at hd
  split at hs
  · cases hs
    exact h.put_alive hup hc rfl Iff.rfl hd fun hfirst => ⟨hfirst, Nat.le_of_eq List.length_set⟩
  split at hs <;> cases hs
  · exact h.put_alive hup hc rfl Iff.rfl hd fun hfirst => ⟨hfirst, Nat.le_of_eq List.length_set⟩
  · exact h.put_alive hup hc rfl Iff.rfl hd fun hfirst => ⟨hfirst, List.length_eraseIdx_le ..⟩

theorem Sound.fireDisconnected (h : Sound s) (hup : s.crashed = false)
    (hs : s.fireDisconnected n i = some s') : Sound s' := by
  rw [State.fireDisconnected] at hs
  split at hs
  · cases hs
  rename_i c hc
  split at hs
  swap
  · cases hs
  rename_i hi
  split at hs
  · rename_i hd
    cases hs
    exact h.crashes hc hd (ne_nil_of_getElem? hi)
  rename_i hd
  rw [Bool.not_eq_true] at hd
  have hput : Sound (s.put n { c with receives := c.receives.eraseIdx i }) :=
    h.put_alive hup hc rfl Iff.rfl hd fun hfirst => ⟨hfirst, List.length_eraseIdx_le ..⟩
  split at hs
  swap
  · cases hs
    exact hput
  split at hs <;> cases hs
  · exact hput
  · refine (hput.erase hup (get_put_self hc) fun hfirst => ?_).release hup _
    have hsingle := (h.each n c hc).single hfirst
    have hlt := (List.getElem?_eq_some_iff.mp hi).1
    refine List.length_eq_zero_iff.mp ?_
    show (c.receives.eraseIdx i).length = 0
    rw [List.length_eraseIdx, if_pos hlt]
    omega

/-- `connect()` in `handle_accept`, which lets go of the client if it throws. -/
theorem Sound.acceptConnect (h : Sound s) (hup : s.crashed = false) {answer : Answer}
    (hs : s.acceptConnect n answer = some s') : Sound s' := by
  obtain ⟨t, ht, rfl⟩ := Option.map_eq_some_iff.mp hs
  obtain ⟨c, c', hc, hf, rfl⟩ := change_eq_some ht
  split at hf
  swap
  · cases hf
  rename_i hacc
  have halive : c.destroyed = false := (h.each n c hc).alive (.inl (by rw [hacc]; rfl))
  split at hf <;> cases hf
  · have hput : Sound (s.put n { c with accepting := .failed }) :=
      h.put_alive hup hc rfl (by simp [hacc]) halive fun hfirst => ⟨hfirst, Nat.le_refl _⟩
    exact hput.release hup n
  · have hput : Sound (s.put n { c.connect answer with accepting := .connected }) :=
      h.put_alive hup hc (c.connect_id answer) (by simp [hacc])
        ((c.connect_destroyed answer).trans halive) (Client.connect_receives answer)
    exact hput.release hup n

theorem Sound.connectSlot (h : Sound s) (hup : s.crashed = false)
    (hs : s.connectSlot n = some s') : Sound s' := by
  obtain ⟨c, c', hc, hf, rfl⟩ := change_eq_some hs
  split at hf <;> cases hf
  rename_i hacc
  have halive : c.destroyed = false := (h.each n c hc).alive (.inl (by rw [hacc]; rfl))
  exact h.put_alive hup hc rfl (by simp [hacc]) halive fun hfirst => ⟨hfirst, Nat.le_refl _⟩

theorem Sound.handOver (h : Sound s) (hup : s.crashed = false) (hs : s.handOver n = some s') :
    Sound s' := by
  obtain ⟨t, ht, rfl⟩ := Option.map_eq_some_iff.mp hs
  obtain ⟨c, c', hc, hf, rfl⟩ := change_eq_some ht
  split at hf <;> cases hf
  rename_i hacc
  have halive : c.destroyed = false := (h.each n c hc).alive (.inl (by rw [hacc]; rfl))
  have hput : Sound (s.put n { c with accepting := .done }) :=
    h.put_alive hup hc rfl (by simp [hacc]) halive fun hfirst => ⟨hfirst, Nat.le_refl _⟩
  exact hput.release hup n

theorem Sound.getClient (h : Sound s) (hup : s.crashed = false) {id : Int32}
    (hs : s.getClient id = some s') : Sound s' := by
  rw [State.getClient] at hs
  split at hs
  · cases hs
    exact h
  · rename_i n hfind
    obtain ⟨c, c', hc, hf, rfl⟩ := change_eq_some hs
    cases hf
    exact h.put_alive hup hc rfl Iff.rfl (h.alive_of_find hfind hc).2.2
      fun hfirst => ⟨hfirst, Nat.le_refl _⟩

/-- A pointer goes, and with the last one the client. -/
theorem Sound.drop (h : Sound s) (hup : s.crashed = false) (hs : s.drop n = some s') :
    Sound s' := by
  obtain ⟨t, ht, rfl⟩ := Option.map_eq_some_iff.mp hs
  obtain ⟨c, c', hc, hf, rfl⟩ := change_eq_some ht
  split at hf <;> cases hf
  rename_i hrefs
  have hput : Sound (s.put n { c with refs := c.refs - 1 }) :=
    h.put_alive hup hc rfl Iff.rfl ((h.each n c hc).alive (.inr hrefs))
      fun hfirst => ⟨hfirst, Nat.le_refl _⟩
  exact hput.release hup n

theorem Sound.disconnectClient (h : Sound s) (hup : s.crashed = false) {id : Int32}
    (hs : s.disconnectClient id = some s') : Sound s' := by
  rw [State.disconnectClient] at hs
  split at hs
  · cases hs
    exact h
  · rename_i n hfind
    obtain ⟨c, c', hc, hf, rfl⟩ := change_eq_some hs
    cases hf
    have halive := (h.alive_of_find hfind hc).2.2
    split
    · exact h.put_alive hup hc rfl Iff.rfl halive Client.disconnect_receives
    · exact h.put_alive hup hc rfl Iff.rfl halive fun hfirst => ⟨hfirst, Nat.le_refl _⟩

/-- A completion is queued, also for a client that is gone. -/
theorem Sound.arrive (h : Sound s) (hup : s.crashed = false) {error : Bool}
    (hs : s.arrive n i error = some s') : Sound s' := by
  obtain ⟨c, c', hc, hf, rfl⟩ := change_eq_some hs
  split at hf <;> cases hf
  rename_i hposted
  have hc' := h.each n c hc
  refine h.put hup hc rfl Iff.rfl ⟨fun hfirst => ?_, fun hd => ?_⟩
    (fun hfind => (h.alive_of_find hfind hc).2.2)
    fun hfirst _ => ⟨hfirst, ne_nil_of_getElem? hposted⟩
  · rw [List.length_set]
    exact hc'.single hfirst
  · obtain ⟨hover, hrefs, hnone⟩ := hc'.alone hd
    exact ⟨hover, hrefs, fun hfirst => absurd (hnone hfirst) (ne_nil_of_getElem? hposted)⟩

/-- **One step.** -/
theorem Sound.step (h : Sound s) {a : Act} (hs : s.step a = some s') : Sound s' := by
  rw [State.step] at hs
  split at hs
  · cases hs
  rename_i hup
  rw [Bool.not_eq_true] at hup
  cases a with
  | construct id => exact h.construct hup hs
  | register n => exact h.register hup hs
  | acceptConnect n answer => exact h.acceptConnect hup hs
  | connectSlot n => exact h.connectSlot hup hs
  | handOver n => exact h.handOver hup hs
  | getClient id => exact h.getClient hup hs
  | copy n =>
      obtain ⟨c, c', hc, hf, rfl⟩ := change_eq_some hs
      split at hf <;> cases hf
      rename_i hhand
      exact h.put_alive hup hc rfl Iff.rfl ((h.each n c hc).alive_of_inHand hhand)
        fun hfirst => ⟨hfirst, Nat.le_refl _⟩
  | drop n => exact h.drop hup hs
  | connect n answer =>
      obtain ⟨c, c', hc, hf, rfl⟩ := change_eq_some hs
      split at hf <;> cases hf
      rename_i hhand
      exact h.put_alive hup hc (c.connect_id answer) (by rw [c.connect_accepting])
        ((c.connect_destroyed answer).trans ((h.each n c hc).alive_of_inHand hhand))
        (Client.connect_receives answer)
  | disconnect n =>
      obtain ⟨c, c', hc, hf, rfl⟩ := change_eq_some hs
      split at hf <;> cases hf
      rename_i hhand
      exact h.put_alive hup hc rfl Iff.rfl ((h.each n c hc).alive_of_inHand hhand)
        Client.disconnect_receives
  | disconnectClient id => exact h.disconnectClient hup hs
  | arrive n i error => exact h.arrive hup hs
  | handleReadData n i => exact h.handleReadData hup hs
  | fireDisconnected n i => exact h.fireDisconnected hup hs

/-! ## Whole runs -/

theorem sound_of_reachable (h : machine.Reachable s) : Sound s :=
  h.inv Sound.init fun _ _ _ hsound hs => Sound.step hsound hs

/-- **No completion of a first receive comes too late.** Whatever the peers,
the user and the server do, a client that `connect()` has posted no receive
for is not destroyed before its receive has had its last handler. So a
handler runs on a destroyed client only if that was connected again. -/
theorem completion_finds_client (h : machine.Reachable s) :
    (∀ (n : Nat) (c : Client), s.clients[n]? = some c → c.reconnected = false →
      c.receives ≠ [] → c.destroyed = false) ∧
    (s.crashed = true → ∃ (n : Nat) (c : Client), s.clients[n]? = some c ∧ c.destroyed = true ∧
      c.reconnected = true) := by
  have hsound := sound_of_reachable h
  refine ⟨fun n c hc hfirst hreceives => ?_, hsound.crash⟩
  by_contra hd
  exact hreceives (((hsound.each n c hc).alone (by simpa using hd)).2.2 hfirst)

/-- A client whose peer closes while the user still has a pointer to it; in
between `connect()` has found it connected. -/
def lastPointer : List Act :=
  [.construct 0, .register 0, .acceptConnect 0 .reached, .connectSlot 0, .copy 0, .handOver 0,
    .arrive 0 0 true, .handleReadData 0 0]

theorem completion_finds_client_lastPointer :
    ∃ s c, machine.Reachable s ∧ s.clients[0]? = some c ∧ c.receives = [.closing] ∧
      c.destroyed = false := by
  obtain ⟨s, c, hrun, hc, hfirst, hreceives⟩ : ∃ s c,
      machine.exec machine.init lastPointer = some s ∧ s.clients[0]? = some c ∧
        c.reconnected = false ∧ c.receives = [.closing] := ⟨_, _, rfl, rfl, rfl, rfl⟩
  refine ⟨s, c, ⟨lastPointer, hrun⟩, hc, hreceives, ?_⟩
  exact (completion_finds_client ⟨lastPointer, hrun⟩).1 0 c hc hfirst (by rw [hreceives]; decide)

/-- `disconnect_client` comes between the table and the `connect()` of
`handle_accept`, and that reaches the peer again. -/
def lateConnect : List Act :=
  [.construct 0, .register 0, .disconnectClient 0, .acceptConnect 0 .reached, .connectSlot 0,
    .handOver 0, .handleReadData 0 0, .fireDisconnected 0 0, .handleReadData 0 0]

/-- The first receive ends, and the second comes to a client that is gone. -/
example : (machine.exec machine.init lateConnect).map State.crashed = some true := rfl

end HpLib.Lifetime
