import HpLib.Lib.Machine
import HpLib.Peripheral.TcpServer

/-!
# The server goes on accepting

`handle_accept` step by step on the worker thread, with `accept_connection`
calls of the user in between. The next `async_accept` is posted by the last
line of the branch that found everything in order. On every other way out,
the three `catch` blocks included, the server is left without one, and
nothing posts it later.
-/

namespace HpLib.Accepting

open Lib

/-- The step `handle_accept` is about to take. -/
inductive HandlerPc where
  | test (error : Bool)
  | construct
  | register (client : TCPClient)
  | callback
  | rearm
  deriving Repr, DecidableEq

structure State where
  server : TCPServer
  handler : Option HandlerPc
  deriving Repr, DecidableEq

/-- `construct none` and `callback false` throw. -/
inductive Act where
  | acceptConnection (state : Bool)
  | complete (error : Bool)
  | test
  | construct (client : Option TCPClient)
  | register
  | callback (returns : Bool)
  | rearm
  deriving Repr, DecidableEq

namespace State

/-- The user may call at any moment. -/
def acceptConnection (s : State) (state : Bool) : State :=
  { s with server := s.server.setAcceptConnection state }

/-- An accept completes and its handler begins. -/
def complete (s : State) (error : Bool) : Option State :=
  if s.handler = none ∧ 0 < s.server.outstanding then
    some { server := { s.server with outstanding := s.server.outstanding - 1 },
           handler := some (.test error) }
  else none

def test (s : State) : Option State :=
  match s.handler with
  | some (.test error) =>
      if !error && s.server.acceptConnection then some { s with handler := some .construct }
      else some { s with handler := none }
  | _ => none

def construct (s : State) (client : Option TCPClient) : Option State :=
  match s.handler with
  | some .construct => some { s with handler := client.map .register }
  | _ => none

def register (s : State) : Option State :=
  match s.handler with
  | some (.register c) =>
      some { server := s.server.register c.id, handler := some .callback }
  | _ => none

def callback (s : State) (returns : Bool) : Option State :=
  match s.handler with
  | some .callback =>
      if returns then
        some { server := { s.server with clientNumber := s.server.clientNumber + 1 },
               handler := some .rearm }
      else some { s with handler := none }
  | _ => none

def rearm (s : State) : Option State :=
  match s.handler with
  | some .rearm =>
      match s.server.handleConnection with
      | .ok server => some { server := server, handler := none }
      | .error _ => none
  | _ => none

def step (s : State) : Act → Option State
  | .acceptConnection state => some (s.acceptConnection state)
  | .complete error => s.complete error
  | .test => s.test
  | .construct client => s.construct client
  | .register => s.register
  | .callback returns => s.callback returns
  | .rearm => s.rearm

/-- The accept had no error and found `accept_connection_` up, and nothing
was thrown. -/
def Smooth (s : State) : Act → Prop
  | .test => ∀ error, s.handler = some (.test error) →
      error = false ∧ s.server.acceptConnection = true
  | .construct client => client.isSome = true
  | .callback returns => returns = true
  | _ => True

end State

/-- A server that has been started. -/
def machine : Machine State Act where
  init := { server := .started, handler := none }
  step := State.step

/-! ## The steps of a handler and `handle_accept` -/

/-- One run of the handler with nothing in between. -/
def handlerSteps (s : TCPServer) (error : Bool) (client : Option TCPClient)
    (callbackReturns : Bool) : List Act :=
  if !error && s.acceptConnection then
    match client with
    | none => [.test, .construct none]
    | some c =>
        if callbackReturns then
          [.test, .construct (some c), .register, .callback true, .rearm]
        else [.test, .construct (some c), .register, .callback false]
  else [.test]

/-- **The steps of a handler are `handle_accept`.** -/
theorem handlerSteps_agree {s s' : TCPServer} {error callbackReturns : Bool}
    {client : Option TCPClient} (hrun : s.handleAccept error client callbackReturns = .ok s') :
    machine.exec ⟨s, some (.test error)⟩ (handlerSteps s error client callbackReturns)
      = some ⟨s', none⟩ := by
  unfold TCPServer.handleAccept at hrun
  unfold handlerSteps
  by_cases hgo : (!error && s.acceptConnection) = true
  · rw [if_pos hgo] at hrun ⊢
    have htest : State.test ⟨s, some (.test error)⟩ = some ⟨s, some .construct⟩ := if_pos hgo
    cases client with
    | none =>
        cases hrun
        exact Machine.exec_cons_eq_some.mpr ⟨_, htest, rfl⟩
    | some c =>
        cases callbackReturns with
        | false =>
            cases hrun
            exact Machine.exec_cons_eq_some.mpr ⟨_, htest, rfl⟩
        | true =>
            simp only [if_true] at hrun ⊢
            refine Machine.exec_cons_eq_some.mpr ⟨_, htest, ?_⟩
            simp only [Machine.exec_cons, Machine.exec_nil, machine, State.step, State.construct,
              State.register, State.callback, State.rearm, Option.map_some, Option.bind_some,
              if_true, hrun]
  · rw [if_neg hgo] at hrun ⊢
    cases hrun
    have htest : State.test ⟨s, some (.test error)⟩ = some ⟨s, none⟩ := if_neg hgo
    exact Machine.exec_cons_eq_some.mpr ⟨_, htest, rfl⟩

/-! ## The steps by cases -/

/-- What a step leads to, and what was so before it. -/
inductive Taken (s : State) : Act → State → Prop
  | acceptConnection (state : Bool) :
      Taken s (.acceptConnection state) (s.acceptConnection state)
  | complete (error : Bool) (hpc : s.handler = none) (hout : 0 < s.server.outstanding) :
      Taken s (.complete error)
        { server := { s.server with outstanding := s.server.outstanding - 1 },
          handler := some (.test error) }
  | passed (hpc : s.handler = some (.test false)) (hacc : s.server.acceptConnection = true) :
      Taken s .test { s with handler := some .construct }
  | turnedAway (error : Bool) (hpc : s.handler = some (.test error))
      (hno : ¬ (error = false ∧ s.server.acceptConnection = true)) :
      Taken s .test { s with handler := none }
  | constructed (client : TCPClient) (hpc : s.handler = some .construct) :
      Taken s (.construct (some client)) { s with handler := some (.register client) }
  | constructThrew (hpc : s.handler = some .construct) :
      Taken s (.construct none) { s with handler := none }
  | registered (client : TCPClient) (hpc : s.handler = some (.register client)) :
      Taken s .register { server := s.server.register client.id, handler := some .callback }
  | called (hpc : s.handler = some .callback) :
      Taken s (.callback true)
        { server := { s.server with clientNumber := s.server.clientNumber + 1 },
          handler := some .rearm }
  | callbackThrew (hpc : s.handler = some .callback) :
      Taken s (.callback false) { s with handler := none }
  | rearmed (server : TCPServer) (hpc : s.handler = some .rearm)
      (hpost : s.server.handleConnection = .ok server) :
      Taken s .rearm { server := server, handler := none }

theorem State.taken {s s' : State} {a : Act} (hs : s.step a = some s') : Taken s a s' := by
  cases a with
  | acceptConnection state =>
      cases hs
      exact .acceptConnection state
  | complete error =>
      rw [State.step, State.complete] at hs
      split at hs <;> cases hs
      rename_i hfree
      exact .complete error hfree.1 hfree.2
  | test =>
      rw [State.step, State.test] at hs
      split at hs
      · rename_i error hpc
        by_cases hgo : error = false ∧ s.server.acceptConnection = true
        · obtain ⟨rfl, hacc⟩ := hgo
          rw [hacc] at hs
          cases hs
          exact .passed hpc hacc
        · rw [if_neg (by simpa using hgo)] at hs
          cases hs
          exact .turnedAway error hpc hgo
      · cases hs
  | construct client =>
      rw [State.step, State.construct] at hs
      split at hs <;> cases hs
      rename_i hpc
      cases client with
      | none => exact .constructThrew hpc
      | some c => exact .constructed c hpc
  | register =>
      rw [State.step, State.register] at hs
      split at hs <;> cases hs
      rename_i c hpc
      exact .registered c hpc
  | callback returns =>
      rw [State.step, State.callback] at hs
      split at hs
      · rename_i hpc
        cases returns <;> cases hs
        · exact .callbackThrew hpc
        · exact .called hpc
      · cases hs
  | rearm =>
      rw [State.step, State.rearm] at hs
      split at hs
      · rename_i hpc
        split at hs <;> cases hs
        rename_i server hpost
        exact .rearmed server hpc hpost
      · cases hs

/-! ## Armed or dead -/

/-- One accept outstanding, or one handler on its way to post the next. -/
structure Armed (s : State) : Prop where
  hasAcceptor : s.server.hasAcceptor = true
  one : s.handler = none → s.server.outstanding = 1
  busy : s.handler ≠ none → s.server.outstanding = 0

/-- No accept outstanding and no handler to post one. -/
structure Dead (s : State) : Prop where
  handler : s.handler = none
  outstanding : s.server.outstanding = 0

theorem Armed.init : Armed machine.init where
  hasAcceptor := rfl
  one := fun _ => rfl
  busy := fun h => absurd rfl h

theorem Armed.zero {s : State} (h : Armed s) {pc : HandlerPc} (hpc : s.handler = some pc) :
    s.server.outstanding = 0 := by
  apply h.busy
  rw [hpc]
  exact Option.some_ne_none pc

/-- Going on to the next step of the handler. -/
theorem Armed.next {s : State} (h : Armed s) {pc pc' : HandlerPc} (hpc : s.handler = some pc)
    {server : TCPServer} (hacc : server.hasAcceptor = s.server.hasAcceptor)
    (hout : server.outstanding = s.server.outstanding) :
    Armed { server := server, handler := some pc' } where
  hasAcceptor := hacc.trans h.hasAcceptor
  one := nofun
  busy := fun _ => hout.trans (h.zero hpc)

theorem Armed.step {s s' : State} {a : Act} (h : Armed s) (hsmooth : s.Smooth a)
    (hs : s.step a = some s') : Armed s' := by
  cases State.taken hs with
  | acceptConnection state => exact ⟨h.hasAcceptor, h.one, h.busy⟩
  | complete error hpc hout =>
      have hone := h.one hpc
      exact ⟨h.hasAcceptor, nofun, fun _ => by rw [hone]⟩
  | passed hpc | constructed client hpc | registered client hpc | called hpc =>
      exact h.next hpc rfl rfl
  | turnedAway error hpc hno => exact absurd (hsmooth error hpc) hno
  | constructThrew hpc | callbackThrew hpc => cases hsmooth
  | rearmed server hpc hpost =>
      rw [TCPServer.handleConnection, if_pos h.hasAcceptor] at hpost
      cases hpost
      have hzero := h.zero hpc
      exact ⟨h.hasAcceptor, fun _ => by rw [hzero], fun hc => absurd rfl hc⟩

/-- Any other way out of the handler posts nothing. -/
theorem Armed.die {s s' : State} {a : Act} (h : Armed s) (hrough : ¬ s.Smooth a)
    (hs : s.step a = some s') : Dead s' := by
  cases State.taken hs with
  | turnedAway error hpc | constructThrew hpc | callbackThrew hpc => exact ⟨rfl, h.zero hpc⟩
  | passed hpc hacc =>
      refine absurd (fun error herr => ?_) hrough
      rw [hpc] at herr
      cases herr
      exact ⟨rfl, hacc⟩
  | constructed client hpc | called hpc => exact absurd rfl hrough
  | acceptConnection | complete | registered | rearmed => exact absurd trivial hrough

/-- Only `accept_connection` is still possible, and it posts nothing. -/
theorem Dead.step {s s' : State} {a : Act} (h : Dead s) (hs : s.step a = some s') :
    Dead s' := by
  cases State.taken hs with
  | acceptConnection state => exact ⟨h.handler, h.outstanding⟩
  | complete error hpc hout =>
      rw [h.outstanding] at hout
      exact absurd hout (Nat.lt_irrefl 0)
  | passed hpc | turnedAway error hpc | constructed client hpc | constructThrew hpc
  | registered client hpc | called hpc | callbackThrew hpc | rearmed server hpc =>
      -- a dead server runs no handler
      rw [h.handler] at hpc
      cases hpc

/-! ## Whole runs -/

/-- **The server accepts exactly as long as everything goes well**: with no
handler running, one accept is outstanding if and only if every accept so far
had no error and found `accept_connection_` up, and nothing was thrown. -/
theorem accepting_iff_smooth (as : List Act) (s : State)
    (hrun : machine.exec machine.init as = some s) (hidle : s.handler = none) :
    s.server.outstanding = 1 ↔ machine.Guarded State.Smooth machine.init as := by
  rcases Machine.guarded_or_not (M := machine) (fun _ _ _ h hg hs => Armed.step h hg hs)
      (fun _ _ _ h hg hs => Armed.die h hg hs) (fun _ _ _ h hs => Dead.step h hs)
      Armed.init hrun with ⟨hg, harmed⟩ | ⟨hg, hdead⟩
  · exact ⟨fun _ => hg, fun _ => harmed.one hidle⟩
  · refine ⟨fun hone => ?_, fun hc => absurd hc hg⟩
    rw [hdead.outstanding] at hone
    cases hone

/-- A client that connects. -/
def smoothRun : List Act :=
  [.complete false, .test, .construct (some (.initializeClient 0 true)), .register,
   .callback true, .rearm]

theorem accepting_iff_smooth_one :
    ∃ s, machine.exec machine.init smoothRun = some s ∧ s.server.allClientsMap = [0] ∧
      (s.server.outstanding = 1 ↔ machine.Guarded State.Smooth machine.init smoothRun) := by
  obtain ⟨s, hrun, htable, hidle⟩ : ∃ s, machine.exec machine.init smoothRun = some s ∧
      s.server.allClientsMap = [0] ∧ s.handler = none := ⟨_, rfl, rfl, rfl⟩
  exact ⟨s, hrun, htable, accepting_iff_smooth smoothRun s hrun hidle⟩

/-- One accept that fails, as when the peer is gone before it was served. -/
theorem failed_accept_ends_service :
    ¬ ∀ s, machine.Reachable s → s.server.isRunning = true → s.server.acceptConnection = true →
        s.handler = none → s.server.outstanding = 1 := by
  intro hall
  obtain ⟨s, hrun, hrunning, hacc, hidle, hzero⟩ : ∃ s,
      machine.exec machine.init [.complete true, .test] = some s ∧ s.server.isRunning = true ∧
        s.server.acceptConnection = true ∧ s.handler = none ∧ s.server.outstanding = 0 :=
    ⟨_, rfl, rfl, rfl, rfl, rfl⟩
  have hone := hall s ⟨_, hrun⟩ hrunning hacc hidle
  rw [hzero] at hone
  cases hone

end HpLib.Accepting
