import HpLib.Lib.Pool
import HpLib.Peripheral.Accepting

/-!
# The life cycle of a TCPServer

`start` and `stop` of a user, the destructor at the end, and the accepts that
were completed before and whose handlers are queued or running. `stop` takes
the acceptor away from under them, and so does the destructor, which also
joins a thread that only a `start` that went well has made.

A null pointer that is followed sets `crashed`, and nothing happens after it.
`Ordered` says which orders of calls and steps keep clear of that, without
looking at the state.
-/

namespace HpLib.LifeCycle

open Lib
open Accepting (HandlerPc)

/-- An accept that has completed: its handler waits in the queue of the io
context, or is about to take a step. -/
inductive AcceptPc where
  | queued (error : Bool)
  | running (pc : HandlerPc)
  deriving Repr, DecidableEq

/-- How far the destructor is. -/
inductive Phase where
  | alive
  | ioStopped
  | acceptorReset
  | joining
  deriving Repr, DecidableEq

/-- `hasWorker` says that `worker_thread_` is not null. -/
structure State where
  server : TCPServer
  hasWorker : Bool
  accepts : List AcceptPc
  phase : Phase
  crashed : Bool
  deriving Repr, DecidableEq

/-- `start opens` says whether the acceptor could be opened. The destructor
is three steps: `io_context_->stop()`, the `if` on `is_running_`, the join. -/
inductive Act where
  | start (opens : Bool)
  | stop
  | acceptConnection (state : Bool)
  | destroyIo
  | destroyAcceptor
  | destroyJoin
  | complete (error : Bool)
  | begin (error : Bool)
  | test (error : Bool)
  | construct (client : Option TCPClient)
  | register (client : TCPClient)
  | callback (returns : Bool)
  | rearm
  deriving Repr, DecidableEq

namespace State

/-- The handler at `pc` goes on at `next`, or returns. -/
def move (s : State) (pc : HandlerPc) (next : Option HandlerPc) : State :=
  match next with
  | some pc' => { s with accepts := swap s.accepts (.running pc) (.running pc') }
  | none => { s with accepts := s.accepts.erase (.running pc) }

/-- `acceptor_.reset()`: the accepts that are outstanding complete with an
error. -/
def resetAcceptor (s : State) : State :=
  { s with
    server := { s.server with hasAcceptor := false, outstanding := 0 }
    accepts := List.replicate s.server.outstanding (.queued true) ++ s.accepts }

def start (s : State) (opens : Bool) : Option State :=
  if s.phase = .alive then
    match s.server.start opens with
    | .ok server =>
        some { s with server := server, hasWorker := s.hasWorker || (!s.server.isRunning && opens) }
    | .error _ => some { s with crashed := true }
  else none

def stop (s : State) : Option State :=
  if s.phase = .alive then
    some ({ s with server := { s.server with isRunning := false } }.resetAcceptor)
  else none

def acceptConnection (s : State) (state : Bool) : Option State :=
  if s.phase = .alive then some { s with server := s.server.setAcceptConnection state } else none

def destroyIo (s : State) : Option State :=
  if s.phase = .alive then some { s with phase := .ioStopped } else none

def destroyAcceptor (s : State) : Option State :=
  if s.phase = .ioStopped then
    if s.server.isRunning then
      if s.server.hasAcceptor then some { s.resetAcceptor with phase := .acceptorReset }
      else some { s with crashed := true }
    else some { s with phase := .acceptorReset }
  else none

def destroyJoin (s : State) : Option State :=
  if s.phase = .acceptorReset then
    if s.hasWorker then some { s with phase := .joining } else some { s with crashed := true }
  else none

def complete (s : State) (error : Bool) : Option State :=
  if 0 < s.server.outstanding then
    some { s with
      server := { s.server with outstanding := s.server.outstanding - 1 }
      accepts := .queued error :: s.accepts }
  else none

/-- A thread of the io context takes the handler out of the queue. -/
def begin (s : State) (error : Bool) : Option State :=
  if s.phase = .alive ∧ .queued error ∈ s.accepts then
    some { s with accepts := swap s.accepts (.queued error) (.running (.test error)) }
  else none

def test (s : State) (error : Bool) : Option State :=
  if .running (.test error) ∈ s.accepts then
    if !error && s.server.acceptConnection then some (s.move (.test error) (some .construct))
    else some (s.move (.test error) none)
  else none

def construct (s : State) (client : Option TCPClient) : Option State :=
  if .running .construct ∈ s.accepts then some (s.move .construct (client.map .register)) else none

def register (s : State) (client : TCPClient) : Option State :=
  if .running (.register client) ∈ s.accepts then
    some ({ s with server := s.server.register client.id }.move (.register client)
      (some .callback))
  else none

def callback (s : State) (returns : Bool) : Option State :=
  if .running .callback ∈ s.accepts then
    if returns then
      some ({ s with server := { s.server with clientNumber := s.server.clientNumber + 1 } }.move
        .callback (some .rearm))
    else some (s.move .callback none)
  else none

def rearm (s : State) : Option State :=
  if .running .rearm ∈ s.accepts then
    match s.server.handleConnection with
    | .ok server => some ({ s with server := server }.move .rearm none)
    | .error _ => some { s with crashed := true }
  else none

def act (s : State) : Act → Option State
  | .start opens => s.start opens
  | .stop => s.stop
  | .acceptConnection state => s.acceptConnection state
  | .destroyIo => s.destroyIo
  | .destroyAcceptor => s.destroyAcceptor
  | .destroyJoin => s.destroyJoin
  | .complete error => s.complete error
  | .begin error => s.begin error
  | .test error => s.test error
  | .construct client => s.construct client
  | .register client => s.register client
  | .callback returns => s.callback returns
  | .rearm => s.rearm

def step (s : State) (a : Act) : Option State :=
  if s.crashed then none else s.act a

end State

/-- A server that was just constructed. -/
def machine : Machine State Act where
  init := { server := .new, hasWorker := false, accepts := [], phase := .alive, crashed := false }
  step := State.step

/-! ## The order of calls and steps -/

/-- Whether an acceptor is there after the action. -/
def serves (serving : Bool) : Act → Bool
  | .start opens => serving || opens
  | .stop | .destroyAcceptor => false
  | _ => serving

/-- Whether some start went well, with the action. -/
def hires (hired : Bool) : Act → Bool
  | .start opens => hired || opens
  | _ => hired

/-- A handler posts the next accept only after a start that went well and
before the stop or the destructor that follows it, and the destructor joins
only if some start went well. -/
def Allowed (serving hired : Bool) : Act → Prop
  | .rearm => serving = true
  | .destroyJoin => hired = true
  | _ => True

/-- The same for all actions of a run. -/
def Ordered (serving hired : Bool) : List Act → Prop
  | [] => True
  | a :: as => Allowed serving hired a ∧ Ordered (serves serving a) (hires hired a) as

/-- What the calls so far say about the pointers. -/
structure Tracks (serving hired : Bool) (s : State) : Prop where
  crashed : s.crashed = false
  acceptor : s.server.hasAcceptor = serving
  worker : s.hasWorker = hired
  running : s.phase = .alive ∨ s.phase = .ioStopped → s.server.isRunning = s.server.hasAcceptor
  hired : s.server.isRunning = true → hired = true

variable {serving hired : Bool} {s s' : State}

theorem tracks_init : Tracks false false machine.init where
  crashed := rfl
  acceptor := rfl
  worker := rfl
  running _ := rfl
  hired := nofun

/-- Nothing that is tracked depends on how far the handlers are. -/
theorem Tracks.move (h : Tracks serving hired s) (pc : HandlerPc) (next : Option HandlerPc) :
    Tracks serving hired (s.move pc next) := by
  cases next <;> exact ⟨h.crashed, h.acceptor, h.worker, h.running, h.hired⟩

theorem Tracks.start (h : Tracks serving hired s) {opens : Bool}
    (hs : s.start opens = some s') : Tracks (serving || opens) (hired || opens) s' := by
  obtain ⟨hcrashed, rfl, rfl, hrunning, hhired⟩ := h
  rw [State.start, TCPServer.start_spec] at hs
  split at hs
  · rename_i halive
    have heq := hrunning (.inl halive)
    cases hr : s.server.isRunning with
    | true =>
        have hacc : s.server.hasAcceptor = true := heq ▸ hr
        have hw := hhired hr
        cases hs
        exact ⟨hcrashed, by simp [hr, hacc], by simp [hw], by simp [hr, hacc], by simp [hw]⟩
    | false =>
        have hacc : s.server.hasAcceptor = false := heq ▸ hr
        cases hs
        cases opens with
        | true => exact ⟨hcrashed, by simp [hr], by simp [hr], by simp [hr], by simp⟩
        | false => exact ⟨hcrashed, by simp [hacc], by simp, by simp [hr, hacc], by simp [hr]⟩
  · cases hs

theorem Tracks.stop (h : Tracks serving hired s) (hs : s.stop = some s') :
    Tracks false hired s' := by
  rw [State.stop] at hs
  split at hs <;> cases hs
  exact ⟨h.crashed, rfl, h.worker, fun _ => rfl, nofun⟩

theorem Tracks.destroyAcceptor (h : Tracks serving hired s) (hs : s.destroyAcceptor = some s') :
    Tracks false hired s' := by
  rw [State.destroyAcceptor] at hs
  split at hs
  · rename_i hphase
    have heq := h.running (.inr hphase)
    cases hr : s.server.isRunning with
    | true =>
        have hacc : s.server.hasAcceptor = true := heq ▸ hr
        rw [if_pos hr, if_pos hacc] at hs
        cases hs
        exact ⟨h.crashed, rfl, h.worker, by simp, h.hired⟩
    | false =>
        have hacc : s.server.hasAcceptor = false := heq ▸ hr
        rw [if_neg (by simp [hr])] at hs
        cases hs
        exact ⟨h.crashed, hacc, h.worker, by simp, h.hired⟩
  · cases hs

/-- The join is where a missing thread shows. -/
theorem Tracks.destroyJoin (h : Tracks serving hired s) (hs : s.destroyJoin = some s') :
    (hired = true → Tracks serving hired s') ∧ (hired = false → s'.crashed = true) := by
  rw [State.destroyJoin] at hs
  split at hs
  · cases hw : hired with
    | true =>
        rw [if_pos (h.worker.trans hw)] at hs
        cases hs
        refine ⟨fun _ => ?_, nofun⟩
        rw [← hw]
        exact ⟨h.crashed, h.acceptor, h.worker, by simp, h.hired⟩
    | false =>
        rw [if_neg (by simp [h.worker, hw])] at hs
        cases hs
        exact ⟨nofun, fun _ => rfl⟩
  · cases hs

/-- And posting the next accept, where a missing acceptor does. -/
theorem Tracks.rearm (h : Tracks serving hired s) (hs : s.rearm = some s') :
    (serving = true → Tracks serving hired s') ∧ (serving = false → s'.crashed = true) := by
  rw [State.rearm] at hs
  split at hs
  · cases hserving : serving with
    | true =>
        rw [TCPServer.handleConnection, if_pos (h.acceptor.trans hserving)] at hs
        cases hs
        refine ⟨fun _ => ?_, fun hf => absurd hf (by decide)⟩
        rw [← hserving]
        apply Tracks.move
        exact ⟨h.crashed, h.acceptor, h.worker, h.running, h.hired⟩
    | false =>
        rw [TCPServer.handleConnection, if_neg (by simp [h.acceptor, hserving])] at hs
        cases hs
        exact ⟨fun ht => absurd ht (by decide), fun _ => rfl⟩
  · cases hs

/-- **One step**: an allowed action is tracked, and one that is not crashes. -/
theorem Tracks.step (h : Tracks serving hired s) {a : Act} (hs : s.step a = some s') :
    (Allowed serving hired a → Tracks (serves serving a) (hires hired a) s') ∧
      (¬ Allowed serving hired a → s'.crashed = true) := by
  rw [State.step, if_neg (by simp [h.crashed])] at hs
  cases a with
  | start opens => exact ⟨fun _ => h.start hs, fun hno => absurd trivial hno⟩
  | stop => exact ⟨fun _ => h.stop hs, fun hno => absurd trivial hno⟩
  | acceptConnection state =>
      refine ⟨fun _ => ?_, fun hno => absurd trivial hno⟩
      rw [State.act, State.acceptConnection] at hs
      split at hs <;> cases hs
      exact ⟨h.crashed, h.acceptor, h.worker, h.running, h.hired⟩
  | destroyIo =>
      refine ⟨fun _ => ?_, fun hno => absurd trivial hno⟩
      rw [State.act, State.destroyIo] at hs
      split at hs <;> cases hs
      rename_i halive
      exact ⟨h.crashed, h.acceptor, h.worker, fun _ => h.running (.inl halive), h.hired⟩
  | destroyAcceptor => exact ⟨fun _ => h.destroyAcceptor hs, fun hno => absurd trivial hno⟩
  | destroyJoin =>
      obtain ⟨hok, hbad⟩ := h.destroyJoin hs
      exact ⟨hok, fun hno => hbad (Bool.eq_false_iff.mpr hno)⟩
  | complete error =>
      refine ⟨fun _ => ?_, fun hno => absurd trivial hno⟩
      rw [State.act, State.complete] at hs
      split at hs <;> cases hs
      exact ⟨h.crashed, h.acceptor, h.worker, h.running, h.hired⟩
  | begin error =>
      refine ⟨fun _ => ?_, fun hno => absurd trivial hno⟩
      rw [State.act, State.begin] at hs
      split at hs <;> cases hs
      exact ⟨h.crashed, h.acceptor, h.worker, h.running, h.hired⟩
  | test error =>
      refine ⟨fun _ => ?_, fun hno => absurd trivial hno⟩
      rw [State.act, State.test] at hs
      split at hs
      · split at hs <;> cases hs
        · exact h.move _ _
        · exact h.move _ _
      · cases hs
  | construct client =>
      refine ⟨fun _ => ?_, fun hno => absurd trivial hno⟩
      rw [State.act, State.construct] at hs
      split at hs <;> cases hs
      exact h.move _ _
  | register client =>
      refine ⟨fun _ => ?_, fun hno => absurd trivial hno⟩
      rw [State.act, State.register] at hs
      split at hs <;> cases hs
      apply Tracks.move
      exact ⟨h.crashed, h.acceptor, h.worker, h.running, h.hired⟩
  | callback returns =>
      refine ⟨fun _ => ?_, fun hno => absurd trivial hno⟩
      rw [State.act, State.callback] at hs
      split at hs
      · split at hs <;> cases hs
        · apply Tracks.move
          exact ⟨h.crashed, h.acceptor, h.worker, h.running, h.hired⟩
        · exact h.move _ _
      · cases hs
  | rearm =>
      obtain ⟨hok, hbad⟩ := h.rearm hs
      exact ⟨hok, fun hno => hbad (Bool.eq_false_iff.mpr hno)⟩

theorem crashed_of_exec {s t : State} (hs : s.crashed = true) {as : List Act}
    (hrun : machine.exec s as = some t) : t.crashed = true := by
  apply Machine.inv_of_exec (P := fun s => s.crashed = true) _ hs hrun
  intro s a s' hs hstep
  change s.step a = some s' at hstep
  rw [State.step, if_pos hs] at hstep
  cases hstep

/-- **The life cycle never uses a missing object exactly in the ordered
runs**: no handler posts the next accept after a stop, or after the
destructor took the acceptor away, without a start that went well in between,
and the destructor joins only after some start went well. -/
theorem not_crashed_iff_ordered {as : List Act} {t : State}
    (hrun : machine.exec machine.init as = some t) : t.crashed = false ↔ Ordered false false as := by
  suffices h : ∀ as s serving hired, Tracks serving hired s → machine.exec s as = some t →
      (t.crashed = false ↔ Ordered serving hired as) from
    h as machine.init false false tracks_init hrun
  intro as
  induction as with
  | nil =>
      intro s serving hired h hrun
      cases hrun
      exact ⟨fun _ => trivial, fun _ => h.crashed⟩
  | cons a as ih =>
      intro s serving hired h hrun
      obtain ⟨u, hu, hrest⟩ := Machine.exec_cons_eq_some.mp hrun
      obtain ⟨hok, hbad⟩ := h.step hu
      by_cases hallowed : Allowed serving hired a
      · rw [ih u _ _ (hok hallowed) hrest, Ordered, and_iff_right hallowed]
      · have hcrashed := crashed_of_exec (hbad hallowed) hrest
        constructor
        · intro ht
          rw [hcrashed] at ht
          cases ht
        · intro hordered
          exact absurd hordered.1 hallowed

-- a client is compared with its buffer of 1024 bytes
set_option maxRecDepth 8192

/-- The client of the first accept. -/
def client : TCPClient :=
  .initializeClient 0 true

/-- A server that accepts one client and is destroyed. -/
def oneClient : List Act :=
  [.start true, .complete false, .begin false, .test false, .construct (some client),
    .register client, .callback true, .rearm, .destroyIo, .destroyAcceptor, .destroyJoin]

theorem not_crashed_iff_ordered_oneClient :
    ∃ t, machine.exec machine.init oneClient = some t ∧ t.phase = .joining ∧ t.crashed = false := by
  obtain ⟨t, hrun, hphase⟩ : ∃ t, machine.exec machine.init oneClient = some t ∧
      t.phase = .joining := ⟨_, rfl, rfl⟩
  have hordered : Ordered false false oneClient := by
    simp [oneClient, Ordered, Allowed, serves, hires]
  exact ⟨t, hrun, hphase, (not_crashed_iff_ordered hrun).mpr hordered⟩

/-- A server that was never started is destroyed, and a server is stopped
while a client's callback runs. -/
theorem life_cycle_crashes :
    (∃ t, machine.exec machine.init [.destroyIo, .destroyAcceptor, .destroyJoin] = some t ∧
      t.crashed = true) ∧
    ∃ t, machine.exec machine.init
        [.start true, .complete false, .begin false, .test false, .construct (some client),
          .register client, .callback true, .stop, .rearm] = some t ∧ t.crashed = true :=
  ⟨⟨_, rfl, rfl⟩, _, rfl, rfl⟩

end HpLib.LifeCycle
