import HpLib.Lib.Machine
import HpLib.Peripheral.TcpServer

/-!
# The table of clients

A started server with its accepted clients: connections are accepted, peers
send data or close, completed receives are handled on the worker thread, and
the user calls `disconnect_client`. A client leaves the table when its
`disconnect_connections_` fires, which `handle_read_data` does only while
`is_connected_` is up; `disconnect_client` takes it down first.

A closed socket completes its outstanding receive with an error. Ids are
distinct: a new client gets an id no client has.
-/

namespace HpLib.ClientTable

open Lib

/-- The receive of a client: outstanding, or completed and queued for its
handler, or none any more. -/
inductive Receive where
  | posted
  | queued (error : Bool) (d : Received)
  | gone
  deriving DecidableEq

/-- A client made from an accepted socket. -/
structure Accepted where
  client : TCPClient
  socketOpen : Bool
  receive : Receive
  deriving DecidableEq

/-- Every client ever accepted, by its id. -/
structure State where
  server : TCPServer
  clients : Nat → Option Accepted

inductive Act where
  | accept (id : Nat)
  | remoteClose (id : Nat)
  | data (id : Nat) (d : Received)
  | complete (id : Nat)
  | disconnectClient (id : Nat)
  deriving DecidableEq

/-- No bytes, as when a receive fails. -/
def noBytes : Received :=
  ⟨[], Nat.zero_le _⟩

/-- A receive that is outstanding completes. -/
def Receive.finish (error : Bool) (d : Received) : Receive → Receive
  | .posted => .queued error d
  | r => r

/-- `TCPClient::disconnect`. -/
def Accepted.disconnect (x : Accepted) : Accepted :=
  { client := { x.client with isConnected := false }, socketOpen := false,
    receive := x.receive.finish true noBytes }

/-- The slots that `handle_accept` connected to a client's signals. -/
def serverSlot (s : TCPServer) : Signal → TCPServer
  | .disconnected id => s.disconnect id
  | .dataReceived _ => s

namespace State

/-- A connection comes in and `handle_accept` runs, with a callback that
returns. The client's constructor posts its first receive. -/
def accept (s : State) (id : Nat) : Option State :=
  match s.clients id with
  | some _ => none
  | none =>
      let client := TCPClient.initializeClient id true
      match { s.server with outstanding := s.server.outstanding - 1 }.handleAccept
          false (some client) true with
      | .error _ => none
      | .ok server =>
          some { server := server,
                 clients := Function.update s.clients id
                   (some { client := client, socketOpen := true, receive := .posted }) }

/-- What the peer does reaches the receive that is outstanding. -/
def finish (s : State) (id : Nat) (error : Bool) (d : Received) : Option State :=
  match s.clients id with
  | none => none
  | some x =>
      some { s with clients := Function.update s.clients id
                      (some { x with receive := x.receive.finish error d }) }

/-- The handler of a completed receive. -/
def complete (s : State) (id : Nat) : Option State :=
  match s.clients id with
  | none => none
  | some x =>
      match x.receive with
      | .posted | .gone => none
      | .queued error d =>
          match x.client.handleReadData error d with
          | .error _ => none
          | .ok h =>
              some { server := h.signals.foldl serverSlot s.server,
                     clients := Function.update s.clients id
                       (some { x with client := h.client,
                                      receive := if !h.rearmed then .gone
                                                 else if x.socketOpen then .posted
                                                 else .queued true noBytes }) }

/-- `disconnect_client` finds the client in the table, connected. -/
def finds (s : State) (id : Nat) : Bool :=
  decide (id ∈ s.server.allClientsMap) && (s.clients id).any fun x => x.client.isConnected

def disconnectClient (s : State) (id : Nat) : Option State :=
  if s.finds id then
    some { s with clients := Function.update s.clients id
                    ((s.clients id).map Accepted.disconnect) }
  else some s

def step (s : State) : Act → Option State
  | .accept id => s.accept id
  | .remoteClose id => s.finish id true noBytes
  | .data id d => s.finish id false d
  | .complete id => s.complete id
  | .disconnectClient id => s.disconnectClient id

/-- `disconnect_client` closes nobody. -/
def Spares (s : State) : Act → Prop
  | .disconnectClient id => s.finds id = false
  | _ => True

/-- The ids of the connected clients, and no others, are in the table. -/
def Exact (s : State) : Prop :=
  ∀ id, id ∈ s.server.allClientsMap ↔
    ∃ x, s.clients id = some x ∧ x.client.isConnected = true

/-- No completion waits for its handler. -/
def Quiet (s : State) : Prop :=
  ∀ id x, s.clients id = some x → x.receive = .posted ∨ x.receive = .gone

end State

def machine : Machine State Act where
  init := { server := .started, clients := fun _ => none }
  step := State.step

/-! ## What a step can do -/

/-- The flag of a client, if there is one. -/
def State.flag (s : State) (id : Nat) : Option Bool :=
  (s.clients id).map fun x => x.client.isConnected

/-- What no step disturbs. -/
structure Sound (s : State) : Prop where
  acceptConnection : s.server.acceptConnection = true
  hasAcceptor : s.server.hasAcceptor = true
  nodup : s.server.allClientsMap.Nodup
  client : ∀ id x, s.clients id = some x → x.client.id = id ∧ ∃ q, x.client.Buffers q

/-- What a step does to the table and the flags. -/
inductive Change (s s' : State) : Act → Prop
  | kept (a : Act) (hspare : s.Spares a) (htable : s'.server.allClientsMap = s.server.allClientsMap)
      (hflag : s'.flag = s.flag) : Change s s' a
  | accepted (id : Nat) (hnew : s.flag id = none)
      (htable : s'.server.allClientsMap = s.server.allClientsMap.insert id)
      (hflag : s'.flag = Function.update s.flag id (some true)) : Change s s' (.accept id)
  | left (id : Nat) (hup : s.flag id = some true)
      (htable : s'.server.allClientsMap = s.server.allClientsMap.erase id)
      (hflag : s'.flag = Function.update s.flag id (some false)) : Change s s' (.complete id)
  | dropped (id : Nat) (hmem : id ∈ s.server.allClientsMap) (hup : s.flag id = some true)
      (htable : s'.server.allClientsMap = s.server.allClientsMap)
      (hflag : s'.flag = Function.update s.flag id (some false)) :
      Change s s' (.disconnectClient id)

theorem State.finds_iff (s : State) (id : Nat) :
    s.finds id = true ↔ id ∈ s.server.allClientsMap ∧ s.flag id = some true := by
  rw [State.finds, Bool.and_eq_true, decide_eq_true_iff, State.flag]
  cases s.clients id <;> simp

/-- Flags after one client changed. -/
theorem flag_update (s : State) (server : TCPServer) (id : Nat) (x : Accepted) :
    State.flag ⟨server, Function.update s.clients id (some x)⟩
      = Function.update s.flag id (some x.client.isConnected) := by
  funext i
  by_cases hi : i = id
  · subst hi
    simp [State.flag]
  · simp [State.flag, Function.update_of_ne hi]

theorem flag_update_same {s : State} {id : Nat} {b : Bool} (h : s.flag id = some b) :
    Function.update s.flag id (some b) = s.flag := by
  rw [← h]
  exact Function.update_eq_self id s.flag

/-- One client changes, for the good. -/
theorem Sound.update {s : State} (h : Sound s) {server : TCPServer} {id : Nat} {x : Accepted}
    (hacc : server.acceptConnection = true) (hopen : server.hasAcceptor = true)
    (hnodup : server.allClientsMap.Nodup) (hid : x.client.id = id)
    (hbuf : ∃ q, x.client.Buffers q) :
    Sound ⟨server, Function.update s.clients id (some x)⟩ where
  acceptConnection := hacc
  hasAcceptor := hopen
  nodup := hnodup
  client := by
    intro i y hy
    by_cases hi : i = id
    · subst hi
      simp only [Function.update_self, Option.some.injEq] at hy
      subst hy
      exact ⟨hid, hbuf⟩
    · simp only [Function.update_of_ne hi] at hy
      exact h.client i y hy

/-- Taking the flag down leaves the buffer. -/
theorem buffers_down {c : TCPClient} {q : TCPClient.Queue} (h : c.Buffers q) :
    { c with isConnected := false }.Buffers q :=
  ⟨h.doBufferData, h.holds⟩

theorem Sound.accept {s s' : State} (h : Sound s) {id : Nat} (hs : s.accept id = some s') :
    Sound s' ∧ Change s s' (.accept id) := by
  rw [State.accept] at hs
  split at hs
  · cases hs
  · rename_i hnew
    simp only [TCPServer.handleAccept, Bool.not_false, Bool.true_and, h.acceptConnection, if_true,
      TCPServer.handleConnection, TCPServer.register, h.hasAcceptor, Option.some.injEq] at hs
    subst hs
    refine ⟨h.update rfl rfl (List.Nodup.insert h.nodup) rfl
      ⟨_, TCPClient.Buffers.new id true⟩, .accepted id ?_ rfl (flag_update s _ id _)⟩
    rw [State.flag, hnew]
    rfl

theorem Sound.finish {s s' : State} (h : Sound s) {id : Nat} {error : Bool} {d : Received}
    (hs : s.finish id error d = some s') {a : Act} (ha : s.Spares a) :
    Sound s' ∧ Change s s' a := by
  rw [State.finish] at hs
  split at hs <;> cases hs
  rename_i x hx
  obtain ⟨hid, hbuf⟩ := h.client id x hx
  refine ⟨h.update h.acceptConnection h.hasAcceptor h.nodup hid hbuf, .kept a ha rfl ?_⟩
  rw [flag_update]
  exact flag_update_same (by rw [State.flag, hx]; rfl)

theorem Sound.complete {s s' : State} (h : Sound s) {id : Nat} (hs : s.complete id = some s') :
    Sound s' ∧ Change s s' (.complete id) := by
  rw [State.complete] at hs
  split at hs
  · cases hs
  · rename_i x hx
    obtain ⟨hid, q, hq⟩ := h.client id x hx
    have hflag : s.flag id = some x.client.isConnected := by
      rw [State.flag, hx]
      rfl
    split at hs
    · cases hs
    · cases hs
    · rename_i error d hrec
      cases error with
      | false =>
          -- the bytes go to the buffer and the flag stays as it is
          obtain ⟨c, hrun, hbuf, hid', hcon, -⟩ := hq.receive d
          rw [hrun] at hs
          cases hs
          refine ⟨h.update h.acceptConnection h.hasAcceptor h.nodup (hid'.trans hid) ⟨_, hbuf⟩,
            .kept _ trivial rfl ?_⟩
          rw [flag_update, hcon]
          exact flag_update_same hflag
      | true =>
          rw [TCPClient.handleReadData_error] at hs
          cases hs
          cases hcon : x.client.isConnected with
          | false =>
              -- closed by `disconnect_client`: the signal is not fired
              refine ⟨h.update h.acceptConnection h.hasAcceptor h.nodup hid
                ⟨q, buffers_down hq⟩, .kept _ trivial rfl ?_⟩
              rw [flag_update]
              exact flag_update_same (hcon ▸ hflag)
          | true =>
              -- closed by the peer: the signal takes the client out of the table
              refine ⟨h.update h.acceptConnection h.hasAcceptor (h.nodup.erase _) hid
                ⟨q, buffers_down hq⟩, .left id (hcon ▸ hflag) ?_ (flag_update s _ id _)⟩
              show s.server.allClientsMap.erase x.client.id = _
              rw [hid]

theorem Sound.disconnectClient {s s' : State} (h : Sound s) {id : Nat}
    (hs : s.disconnectClient id = some s') : Sound s' ∧ Change s s' (.disconnectClient id) := by
  rw [State.disconnectClient] at hs
  split at hs
  · rename_i hfinds
    obtain ⟨hmem, hup⟩ := (s.finds_iff id).mp hfinds
    cases hx : s.clients id with
    | none =>
        rw [State.flag, hx] at hup
        cases hup
    | some x =>
        rw [hx] at hs
        cases hs
        obtain ⟨hid, q, hq⟩ := h.client id x hx
        exact ⟨h.update h.acceptConnection h.hasAcceptor h.nodup hid ⟨q, buffers_down hq⟩,
          .dropped id hmem hup rfl (flag_update s _ id _)⟩
  · rename_i hfinds
    cases hs
    exact ⟨h, .kept _ (Bool.eq_false_iff.mpr hfinds) rfl rfl⟩

theorem Sound.step {s s' : State} {a : Act} (h : Sound s) (hs : s.step a = some s') :
    Sound s' ∧ Change s s' a := by
  cases a with
  | accept id => exact h.accept hs
  | remoteClose id => exact h.finish hs trivial
  | data id d => exact h.finish hs trivial
  | complete id => exact h.complete hs
  | disconnectClient id => exact h.disconnectClient hs

/-- No completion is stuck: its handler goes through. -/
theorem Sound.complete_isSome {s : State} (h : Sound s) {id : Nat} {x : Accepted}
    (hx : s.clients id = some x) {error : Bool} {d : Received}
    (hrec : x.receive = .queued error d) : (s.complete id).isSome = true := by
  obtain ⟨-, q, hq⟩ := h.client id x hx
  rw [State.complete, hx]
  simp only [hrec]
  cases error with
  | false =>
      obtain ⟨c, hrun, -⟩ := hq.receive d
      rw [hrun]
      rfl
  | true =>
      rw [TCPClient.handleReadData_error]
      rfl

/-! ## Exact or stuck -/

theorem State.exact_iff (s : State) :
    s.Exact ↔ ∀ id, id ∈ s.server.allClientsMap ↔ s.flag id = some true := by
  simp only [State.Exact, State.flag, Option.map_eq_some_iff]

/-- A closed client that nothing will ever take out of the table. -/
def Stuck (s : State) : Prop :=
  ∃ id, id ∈ s.server.allClientsMap ∧ s.flag id = some false

theorem Stuck.not_exact {s : State} (h : Stuck s) : ¬ s.Exact := by
  obtain ⟨id, hmem, hdown⟩ := h
  intro hex
  rw [(s.exact_iff.mp hex id).mp hmem] at hdown
  cases hdown

theorem exact_step {s s' : State} {a : Act} (h : s.Exact) (hsound : Sound s)
    (hspare : s.Spares a) (hchange : Change s s' a) : s'.Exact := by
  rw [State.exact_iff] at h ⊢
  intro i
  cases hchange with
  | kept _ _ htable hflag =>
      rw [htable, hflag]
      exact h i
  | accepted id hnew htable hflag =>
      rw [htable, hflag, List.mem_insert_iff]
      by_cases hi : i = id
      · subst hi
        simp
      · rw [Function.update_of_ne hi, or_iff_right hi]
        exact h i
  | left id hup htable hflag =>
      rw [htable, hflag, hsound.nodup.mem_erase_iff]
      by_cases hi : i = id
      · subst hi
        simp
      · rw [Function.update_of_ne hi, and_iff_right hi]
        exact h i
  | dropped id hmem hup htable hflag =>
      have hfinds := (s.finds_iff id).mpr ⟨hmem, hup⟩
      rw [show s.finds id = false from hspare] at hfinds
      cases hfinds

/-- A client closed by `disconnect_client` is stuck at once. -/
theorem stuck_of_not_spares {s s' : State} {a : Act} (hdrop : ¬ s.Spares a)
    (hchange : Change s s' a) : Stuck s' := by
  cases hchange with
  | kept _ hspare _ _ => exact absurd hspare hdrop
  | accepted id _ _ _ => exact absurd trivial hdrop
  | left id _ _ _ => exact absurd trivial hdrop
  | dropped id hmem hup htable hflag =>
      refine ⟨id, by rw [htable]; exact hmem, ?_⟩
      rw [hflag, Function.update_self]

theorem Stuck.step {s s' : State} {a : Act} (h : Stuck s) (hsound : Sound s)
    (hchange : Change s s' a) : Stuck s' := by
  obtain ⟨i, hmem, hdown⟩ := h
  -- every change is of a client whose flag is not down already
  have hne : ∀ id, s.flag id ≠ some false → i ≠ id := by
    intro id hid heq
    rw [heq] at hdown
    exact hid hdown
  refine ⟨i, ?_⟩
  cases hchange with
  | kept _ _ htable hflag =>
      rw [htable, hflag]
      exact ⟨hmem, hdown⟩
  | accepted id hnew htable hflag =>
      have hi := hne id (by rw [hnew]; exact nofun)
      rw [htable, hflag, List.mem_insert_iff, Function.update_of_ne hi]
      exact ⟨.inr hmem, hdown⟩
  | left id hup htable hflag =>
      have hi := hne id (by rw [hup]; exact nofun)
      rw [htable, hflag, hsound.nodup.mem_erase_iff, Function.update_of_ne hi]
      exact ⟨⟨hi, hmem⟩, hdown⟩
  | dropped id hmem' hup htable hflag =>
      have hi := hne id (by rw [hup]; exact nofun)
      rw [htable, hflag, Function.update_of_ne hi]
      exact ⟨hmem, hdown⟩

/-! ## Whole runs -/

theorem Sound.init : Sound machine.init where
  acceptConnection := rfl
  hasAcceptor := rfl
  nodup := List.nodup_nil
  client := by
    intro id x hx
    cases hx

theorem exact_init : machine.init.Exact := by
  intro id
  constructor
  · intro hmem
    cases hmem
  · rintro ⟨x, hx, -⟩
    cases hx

/-- **The table is exact as long as `disconnect_client` closes nobody**, and
from the first client it closes on it is wrong for good: queued completions
or not, that client stays. -/
theorem exact_iff_spares (as : List Act) (s : State)
    (hrun : machine.exec machine.init as = some s) :
    s.Exact ↔ machine.Guarded State.Spares machine.init as := by
  rcases Machine.guarded_or_not (M := machine) (P := fun s => Sound s ∧ s.Exact)
      (Q := fun s => Sound s ∧ Stuck s) (G := State.Spares)
      (fun s a s' ⟨hsound, hex⟩ hg hs =>
        ⟨(hsound.step hs).1, exact_step hex hsound hg (hsound.step hs).2⟩)
      (fun s a s' ⟨hsound, _⟩ hg hs =>
        ⟨(hsound.step hs).1, stuck_of_not_spares hg (hsound.step hs).2⟩)
      (fun s a s' ⟨hsound, hstuck⟩ hs =>
        ⟨(hsound.step hs).1, hstuck.step hsound (hsound.step hs).2⟩)
      ⟨Sound.init, exact_init⟩ hrun with ⟨hg, -, hex⟩ | ⟨hg, -, hstuck⟩
  · exact ⟨fun _ => hg, fun _ => hex⟩
  · exact ⟨fun hc => absurd hc hstuck.not_exact, fun hc => absurd hc hg⟩

/-- A client connects and its peer closes. -/
def closeRun : List Act :=
  [.accept 0, .remoteClose 0, .complete 0]

theorem exact_iff_spares_close :
    ∃ s, machine.exec machine.init closeRun = some s ∧ s.server.allClientsMap = [] ∧
      (s.Exact ↔ machine.Guarded State.Spares machine.init closeRun) := by
  obtain ⟨s, hrun, htable⟩ : ∃ s, machine.exec machine.init closeRun = some s ∧
      s.server.allClientsMap = [] := ⟨_, rfl, rfl⟩
  exact ⟨s, hrun, htable, exact_iff_spares closeRun s hrun⟩

/-- A client connects, `disconnect_client` closes it, and its aborted receive
is handled. -/
def dropRun : List Act :=
  [.accept 0, .disconnectClient 0, .complete 0]

theorem dropped_client_stays :
    ¬ ∀ s, machine.Reachable s → s.Quiet → s.Exact := by
  intro hall
  obtain ⟨s, hrun, htable, ⟨x, hx, hgone, hdown⟩, hothers⟩ : ∃ s,
      machine.exec machine.init dropRun = some s ∧ s.server.allClientsMap = [0] ∧
        (∃ x, s.clients 0 = some x ∧ x.receive = .gone ∧ x.client.isConnected = false) ∧
        ∀ id, id ≠ 0 → s.clients id = none := by
    refine ⟨_, rfl, rfl, ⟨_, rfl, rfl, rfl⟩, fun id hid => ?_⟩
    simp [Function.update_of_ne hid, machine]
  have hquiet : s.Quiet := by
    intro id y hy
    by_cases hid : id = 0
    · subst hid
      rw [hx] at hy
      cases hy
      exact .inr hgone
    · rw [hothers id hid] at hy
      cases hy
  have hmem : 0 ∈ s.server.allClientsMap := by
    rw [htable]
    exact List.mem_cons_self
  obtain ⟨y, hy, hup⟩ := (hall s ⟨dropRun, hrun⟩ hquiet 0).mp hmem
  rw [hx] at hy
  cases hy
  rw [hdown] at hup
  cases hup

end HpLib.ClientTable
