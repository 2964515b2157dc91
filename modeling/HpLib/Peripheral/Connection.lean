import HpLib.Lib.Machine
import HpLib.Lib.Pool
import HpLib.Peripheral.TcpClient

/-!
# One client, two kinds of threads

A client made by address, whose user calls `connect` and `disconnect` while
the io threads run `handle_read_data`. The steps are those of
`tcp_client.cc` in source order, with any interleaving between them: each
`connect` creates one more thread that runs the `io_context`, so handlers
may overlap too.

`generation` numbers the connections; a `Receive` remembers on which of them
it was posted, which the source does not. Of the sockets it is assumed that
`connect` opens a closed one and fails on one that has a peer already, and
that `close` completes the outstanding receive with an error unless it had
completed before. `effects` is history.
-/

namespace HpLib.Connection

open Lib

/-- Where the user thread stands. -/
inductive Pc where
  | idle
  | connectSocket
  | connectThread
  | connectPost
  | connectFlag
  | disconnectFlag
  deriving Repr, DecidableEq

/-- Inside `connect`, past its test of `is_connected_`. -/
def Pc.connecting : Pc → Bool
  | .connectSocket | .connectThread | .connectPost | .connectFlag => true
  | .idle | .disconnectFlag => false

/-- Inside `connect`, with the socket connected. -/
def Pc.established : Pc → Bool
  | .connectThread | .connectPost | .connectFlag => true
  | .idle | .connectSocket | .disconnectFlag => false

/-- A receive is outstanding, or completed and queued, or its handler runs:
about to post the next receive, to clear `is_connected_`, or to fire
`disconnect_connections_`. -/
inductive Phase where
  | posted
  | queued (error : Bool)
  | rearming
  | clearing
  | notifying
  deriving Repr, DecidableEq

def Phase.running : Phase → Bool
  | .rearming | .clearing | .notifying => true
  | .posted | .queued _ => false

structure Receive where
  conn : Nat
  phase : Phase
  deriving Repr, DecidableEq

/-- What a handler can do to the client. -/
inductive EffectKind where
  | wentDown
  | fired
  | posted
  deriving Repr, DecidableEq

/-- Whose completion did it, and which connection was the latest then. -/
structure Effect where
  kind : EffectKind
  conn : Nat
  latest : Nat
  deriving Repr, DecidableEq

structure State where
  pc : Pc
  isConnected : Bool
  socket : Option Nat
  generation : Nat
  threads : Nat
  receives : List Receive
  effects : List Effect
  deriving Repr, DecidableEq

inductive Act where
  | connect
  | socketConnect (ok : Bool)
  | createThread
  | postReceive
  | setConnected
  | disconnect
  | clearConnected
  | complete (r : Receive) (error : Bool)
  | handle (r : Receive)
  deriving Repr, DecidableEq

/-- `close` aborts a receive that is outstanding. -/
def Receive.abort (r : Receive) : Receive :=
  match r.phase with
  | .posted => { r with phase := .queued true }
  | _ => r

namespace State

/-- `async_receive`: outstanding on an open socket, an error on a closed one. -/
def asyncReceive (s : State) (conn : Nat) : Receive :=
  match s.socket with
  | some c => ⟨c, .posted⟩
  | none => ⟨conn, .queued true⟩

/-- How many handlers the io threads are running. -/
def running (s : State) : Nat :=
  s.receives.countP fun r => r.phase.running

def connect (s : State) : Option State :=
  if s.pc = .idle then
    if s.isConnected then some s else some { s with pc := .connectSocket }
  else none

def socketConnect (s : State) (ok : Bool) : Option State :=
  if s.pc = .connectSocket then
    if ok then
      match s.socket with
      | some _ => none
      | none => some { s with socket := some (s.generation + 1), generation := s.generation + 1,
                              pc := .connectThread }
    else some { s with isConnected := false, pc := .idle }
  else none

def createThread (s : State) : Option State :=
  if s.pc = .connectThread then some { s with threads := s.threads + 1, pc := .connectPost }
  else none

def postReceive (s : State) : Option State :=
  if s.pc = .connectPost then
    some { s with receives := s.asyncReceive s.generation :: s.receives, pc := .connectFlag }
  else none

def setConnected (s : State) : Option State :=
  if s.pc = .connectFlag then some { s with isConnected := true, pc := .idle } else none

def disconnect (s : State) : Option State :=
  if s.pc = .idle then
    some { s with socket := none, receives := s.receives.map Receive.abort,
                  pc := .disconnectFlag }
  else none

def clearConnected (s : State) : Option State :=
  if s.pc = .disconnectFlag then some { s with isConnected := false, pc := .idle } else none

/-- Data or a failure arrives, and the receive is queued for its handler. -/
def complete (s : State) (r : Receive) (error : Bool) : Option State :=
  if r ∈ s.receives ∧ r.phase = .posted then
    some { s with receives := swap s.receives r { r with phase := .queued error } }
  else none

/-- The next step of `handle_read_data`. -/
def handle (s : State) (r : Receive) : Option State :=
  if r ∈ s.receives then
    match r.phase with
    | .posted => none
    | .queued error =>
        if s.running < s.threads then
          if !error then
            some { s with receives := swap s.receives r { r with phase := .rearming } }
          else if s.isConnected then
            some { s with receives := swap s.receives r { r with phase := .clearing } }
          else some { s with receives := s.receives.erase r }
        else none
    | .rearming =>
        some { s with receives := swap s.receives r (s.asyncReceive r.conn),
                      effects := s.effects ++ s.socket.toList.map fun c => ⟨.posted, r.conn, c⟩ }
    | .clearing =>
        some { s with isConnected := false,
                      receives := swap s.receives r { r with phase := .notifying },
                      effects := if s.isConnected then s.effects ++ [⟨.wentDown, r.conn, s.generation⟩]
                                 else s.effects }
    | .notifying =>
        some { s with receives := s.receives.erase r,
                      effects := s.effects ++ [⟨.fired, r.conn, s.generation⟩] }
  else none

def step (s : State) : Act → Option State
  | .connect => s.connect
  | .socketConnect ok => s.socketConnect ok
  | .createThread => s.createThread
  | .postReceive => s.postReceive
  | .setConnected => s.setConnected
  | .disconnect => s.disconnect
  | .clearConnected => s.clearConnected
  | .complete r error => s.complete r error
  | .handle r => s.handle r

end State

/-- A client as its constructor leaves it. -/
def machine : Machine State Act where
  init :=
    { pc := .idle, isConnected := false, socket := none, generation := 0, threads := 0,
      receives := [], effects := [] }
  step := State.step

/-! ## What a step can do -/

/-- The steps one by one, each with what it finds and what it leaves. -/
inductive Taken (s : State) : Act → State → Prop
  | returned (hpc : s.pc = .idle) (hc : s.isConnected = true) : Taken s .connect s
  | connect (hpc : s.pc = .idle) (hc : s.isConnected = false) :
      Taken s .connect { s with pc := .connectSocket }
  | refused (hpc : s.pc = .connectSocket) :
      Taken s (.socketConnect false) { s with isConnected := false, pc := .idle }
  | opened (hpc : s.pc = .connectSocket) (hsock : s.socket = none) :
      Taken s (.socketConnect true)
        { s with socket := some (s.generation + 1), generation := s.generation + 1,
                 pc := .connectThread }
  | createThread (hpc : s.pc = .connectThread) :
      Taken s .createThread { s with threads := s.threads + 1, pc := .connectPost }
  | postReceive (hpc : s.pc = .connectPost) :
      Taken s .postReceive
        { s with receives := s.asyncReceive s.generation :: s.receives, pc := .connectFlag }
  | setConnected (hpc : s.pc = .connectFlag) :
      Taken s .setConnected { s with isConnected := true, pc := .idle }
  | disconnect (hpc : s.pc = .idle) :
      Taken s .disconnect
        { s with socket := none, receives := s.receives.map Receive.abort,
                 pc := .disconnectFlag }
  | clearConnected (hpc : s.pc = .disconnectFlag) :
      Taken s .clearConnected { s with isConnected := false, pc := .idle }
  | complete (r : Receive) (error : Bool) (hr : r ∈ s.receives) (hph : r.phase = .posted) :
      Taken s (.complete r error)
        { s with receives := swap s.receives r { r with phase := .queued error } }
  | succeeded (r : Receive) (hr : r ∈ s.receives) (hph : r.phase = .queued false) :
      Taken s (.handle r) { s with receives := swap s.receives r { r with phase := .rearming } }
  | failed (r : Receive) (hr : r ∈ s.receives) (hph : r.phase = .queued true)
      (hc : s.isConnected = true) :
      Taken s (.handle r) { s with receives := swap s.receives r { r with phase := .clearing } }
  | ignored (r : Receive) (hr : r ∈ s.receives) (hph : r.phase = .queued true)
      (hc : s.isConnected = false) :
      Taken s (.handle r) { s with receives := s.receives.erase r }
  | rearmed (r : Receive) (hr : r ∈ s.receives) (hph : r.phase = .rearming) :
      Taken s (.handle r)
        { s with receives := swap s.receives r (s.asyncReceive r.conn),
                 effects := s.effects ++ s.socket.toList.map fun c => ⟨.posted, r.conn, c⟩ }
  | cleared (r : Receive) (hr : r ∈ s.receives) (hph : r.phase = .clearing) :
      Taken s (.handle r)
        { s with isConnected := false,
                 receives := swap s.receives r { r with phase := .notifying },
                 effects := if s.isConnected then s.effects ++ [⟨.wentDown, r.conn, s.generation⟩]
                            else s.effects }
  | notified (r : Receive) (hr : r ∈ s.receives) (hph : r.phase = .notifying) :
      Taken s (.handle r)
        { s with receives := s.receives.erase r,
                 effects := s.effects ++ [⟨.fired, r.conn, s.generation⟩] }

theorem State.taken {s s' : State} {a : Act} (hs : s.step a = some s') : Taken s a s' := by
  cases a with
  | connect =>
      rw [State.step, State.connect] at hs
      split at hs
      · rename_i hpc
        split at hs <;> rename_i hc <;> cases hs
        · exact .returned hpc hc
        · exact .connect hpc (Bool.eq_false_iff.mpr hc)
      · cases hs
  | socketConnect ok =>
      rw [State.step, State.socketConnect] at hs
      split at hs
      · rename_i hpc
        cases ok with
        | false =>
            cases hs
            exact .refused hpc
        | true =>
            rw [if_pos rfl] at hs
            split at hs
            · cases hs
            · rename_i hsock
              cases hs
              exact .opened hpc hsock
      · cases hs
  | createThread =>
      rw [State.step, State.createThread] at hs
      split at hs <;> cases hs
      rename_i hpc
      exact .createThread hpc
  | postReceive =>
      rw [State.step, State.postReceive] at hs
      split at hs <;> cases hs
      rename_i hpc
      exact .postReceive hpc
  | setConnected =>
      rw [State.step, State.setConnected] at hs
      split at hs <;> cases hs
      rename_i hpc
      exact .setConnected hpc
  | disconnect =>
      rw [State.step, State.disconnect] at hs
      split at hs <;> cases hs
      rename_i hpc
      exact .disconnect hpc
  | clearConnected =>
      rw [State.step, State.clearConnected] at hs
      split at hs <;> cases hs
      rename_i hpc
      exact .clearConnected hpc
  | complete r error =>
      rw [State.step, State.complete] at hs
      split at hs <;> cases hs
      rename_i hr
      exact .complete r error hr.1 hr.2
  | handle r =>
      rw [State.step, State.handle] at hs
      split at hs
      · rename_i hr
        split at hs
        · cases hs
        · rename_i error hph
          split at hs
          · cases error with
            | false =>
                cases hs
                exact .succeeded r hr hph
            | true =>
                simp only [Bool.not_true, Bool.false_eq_true, if_false] at hs
                split at hs <;> rename_i hc <;> cases hs
                · exact .failed r hr hph hc
                · exact .ignored r hr hph (Bool.eq_false_iff.mpr hc)
          · cases hs
        · rename_i hph
          cases hs
          exact .rearmed r hr hph
        · rename_i hph
          cases hs
          exact .cleared r hr hph
        · rename_i hph
          cases hs
          exact .notified r hr hph
      · cases hs

/-! ## The steps of a handler and `handle_read_data` -/

/-- The steps of one handler with nothing in between. -/
def Receive.handlerSteps (r : Receive) (error isConnected : Bool) : List Act :=
  if !error then [.handle r, .handle { r with phase := .rearming }]
  else if isConnected then
    [.handle r, .handle { r with phase := .clearing }, .handle { r with phase := .notifying }]
  else [.handle r]

/-- How often `disconnect_connections_` has fired. -/
def State.fired (s : State) : Nat :=
  s.effects.countP fun e => decide (e.kind = .fired)

/-- **The steps of a handler are `handle_read_data`**: taken one after the
other they set the flag, fire the signal and post the next receive as the
function does. -/
theorem handlerSteps_agree {s : State} {c : TCPClient} {d : Received} {h : Handled}
    {r : Receive} {error : Bool} (hr : r ∈ s.receives) (hph : r.phase = .queued error)
    (hthread : s.running < s.threads) (hconn : c.isConnected = s.isConnected)
    (hrun : c.handleReadData error d = .ok h) :
    ∃ s', machine.exec s (r.handlerSteps error s.isConnected) = some s'
      ∧ s'.isConnected = h.client.isConnected
      ∧ s'.receives = (if h.rearmed then [s.asyncReceive r.conn] else []) ++ s.receives.erase r
      ∧ s'.fired = s.fired + h.signals.countP Signal.isDisconnected := by
  cases error with
  | false =>
      obtain ⟨buffer, -, rfl⟩ := TCPClient.handleReadData_success hrun
      let s₁ : State := { s with receives := swap s.receives r { r with phase := .rearming } }
      have h₁ : s.handle r = some s₁ := by
        rw [State.handle, if_pos hr, hph]
        exact if_pos hthread
      have h₂ : s₁.handle { r with phase := .rearming } = some
          { s₁ with receives := swap s₁.receives { r with phase := .rearming }
                      (s.asyncReceive r.conn),
                    effects := s.effects ++ s.socket.toList.map fun c => ⟨.posted, r.conn, c⟩ } :=
        if_pos mem_swap_self
      refine ⟨_, Machine.exec_cons_eq_some.mpr ⟨_, h₁, Machine.exec_cons_eq_some.mpr
        ⟨_, h₂, rfl⟩⟩, hconn.symm, swap_swap, ?_⟩
      show (s.effects ++ s.socket.toList.map fun c => (⟨.posted, r.conn, c⟩ : Effect)).countP _ = _
      rw [List.countP_append, List.countP_map]
      congr 1
      exact List.countP_eq_zero.mpr (by simp)
  | true =>
      rw [TCPClient.handleReadData_error] at hrun
      cases hrun
      cases hc : s.isConnected with
      | false =>
          rw [hconn, hc]
          have h₁ : s.handle r = some { s with receives := s.receives.erase r } := by
            rw [State.handle, if_pos hr, hph]
            simp only [if_pos hthread, Bool.not_true, Bool.false_eq_true, if_false, hc]
          exact ⟨_, Machine.exec_cons_eq_some.mpr ⟨_, h₁, rfl⟩, hc, rfl, rfl⟩
      | true =>
          rw [hconn, hc]
          let s₁ : State := { s with receives := swap s.receives r { r with phase := .clearing } }
          let s₂ : State :=
            { s₁ with isConnected := false,
                      receives := swap s₁.receives { r with phase := .clearing }
                        { r with phase := .notifying },
                      effects := s.effects ++ [⟨.wentDown, r.conn, s.generation⟩] }
          have h₁ : s.handle r = some s₁ := by
            rw [State.handle, if_pos hr, hph]
            simp only [if_pos hthread, Bool.not_true, Bool.false_eq_true, if_false, if_pos hc]
            rfl
          have h₂ : s₁.handle { r with phase := .clearing } = some s₂ := by
            rw [State.handle, if_pos mem_swap_self]
            simp only [s₁, s₂, hc, if_true]
          have h₃ : s₂.handle { r with phase := .notifying } = some
              { s₂ with receives := s₂.receives.erase { r with phase := .notifying },
                        effects := s₂.effects ++ [⟨.fired, r.conn, s.generation⟩] } :=
            if_pos mem_swap_self
          refine ⟨_, Machine.exec_cons_eq_some.mpr ⟨_, h₁, Machine.exec_cons_eq_some.mpr
            ⟨_, h₂, Machine.exec_cons_eq_some.mpr ⟨_, h₃, rfl⟩⟩⟩, rfl, ?_, ?_⟩
          · show (swap s₁.receives _ _).erase _ = s.receives.erase r
            rw [erase_swap]
            exact erase_swap
          · show (s.effects ++ [(⟨.wentDown, r.conn, s.generation⟩ : Effect)]
              ++ [(⟨.fired, r.conn, s.generation⟩ : Effect)]).countP _ = _
            rw [List.countP_append, List.countP_append]
            rfl

/-! ## What holds in every run -/

@[simp] theorem Receive.abort_conn (r : Receive) : r.abort.conn = r.conn := by
  unfold Receive.abort
  split <;> rfl

theorem Receive.abort_not_posted (r : Receive) : r.abort.phase ≠ .posted := by
  unfold Receive.abort
  split
  · exact nofun
  · rename_i hph
    exact hph

/-- How the flag, the socket and the receives go together, unguarded. -/
structure Coherent (s : State) : Prop where
  conn_le : ∀ r ∈ s.receives, r.conn ≤ s.generation
  socket_eq : ∀ c, s.socket = some c → c = s.generation
  down : s.pc.connecting = true → s.isConnected = false
  up : s.pc.established = true → s.socket = some s.generation
  posted : ∀ r ∈ s.receives, r.phase = .posted → s.socket = some r.conn

theorem Coherent.init : Coherent machine.init where
  conn_le := by
    intro r hr
    cases hr
  socket_eq := by
    intro c hc
    cases hc
  down := fun _ => rfl
  up := nofun
  posted := by
    intro r hr
    cases hr

theorem Coherent.asyncReceive_conn_le {s : State} (h : Coherent s) {conn : Nat}
    (hconn : conn ≤ s.generation) : (s.asyncReceive conn).conn ≤ s.generation := by
  unfold State.asyncReceive
  split
  · rename_i c hc
    exact Nat.le_of_eq (h.socket_eq c hc)
  · exact hconn

theorem State.asyncReceive_posted {s : State} {conn : Nat}
    (hph : (s.asyncReceive conn).phase = .posted) :
    s.socket = some (s.asyncReceive conn).conn := by
  unfold State.asyncReceive at hph ⊢
  split
  · rename_i c hc
    exact hc
  · rename_i hc
    rw [hc] at hph
    cases hph

/-- Replacing a receive keeps the two facts about receives, as long as the
new one has them. -/
theorem Coherent.swap {s : State} (h : Coherent s) (r r' : Receive)
    (hle : r'.conn ≤ s.generation) (hph : r'.phase = .posted → s.socket = some r'.conn) :
    (∀ x ∈ swap s.receives r r', x.conn ≤ s.generation)
      ∧ ∀ x ∈ Lib.swap s.receives r r', x.phase = .posted → s.socket = some x.conn := by
  constructor
  · intro x hx
    rcases mem_swap hx with rfl | hx
    · exact hle
    · exact h.conn_le x hx
  · intro x hx
    rcases mem_swap hx with rfl | hx
    · exact hph
    · exact h.posted x hx

theorem Coherent.step {s s' : State} {a : Act} (h : Coherent s) (hs : s.step a = some s') :
    Coherent s' := by
  cases State.taken hs with
  | returned hpc hc => exact h
  | connect hpc hc =>
      exact ⟨h.conn_le, h.socket_eq, fun _ => hc, nofun, h.posted⟩
  | refused hpc =>
      exact ⟨h.conn_le, h.socket_eq, fun _ => rfl, nofun, h.posted⟩
  | opened hpc hsock =>
      refine ⟨?_, ?_, fun _ => h.down (by rw [hpc]; rfl), fun _ => rfl, ?_⟩
      · intro r hr
        exact Nat.le_succ_of_le (h.conn_le r hr)
      · intro c hc
        cases hc
        rfl
      · intro r hr hph
        -- an outstanding receive would be on a socket that is open
        rw [h.posted r hr hph] at hsock
        cases hsock
  | createThread hpc =>
      exact ⟨h.conn_le, h.socket_eq, fun _ => h.down (by rw [hpc]; rfl),
        fun _ => h.up (by rw [hpc]; rfl), h.posted⟩
  | postReceive hpc =>
      refine ⟨?_, h.socket_eq, fun _ => h.down (by rw [hpc]; rfl),
        fun _ => h.up (by rw [hpc]; rfl), ?_⟩
      · intro r hr
        rcases List.mem_cons.mp hr with rfl | hr
        · exact h.asyncReceive_conn_le le_rfl
        · exact h.conn_le r hr
      · intro r hr hph
        rcases List.mem_cons.mp hr with rfl | hr
        · exact State.asyncReceive_posted hph
        · exact h.posted r hr hph
  | setConnected hpc =>
      exact ⟨h.conn_le, h.socket_eq, nofun, nofun, h.posted⟩
  | disconnect hpc =>
      refine ⟨?_, nofun, nofun, nofun, ?_⟩
      · intro r hr
        obtain ⟨x, hx, rfl⟩ := List.mem_map.mp hr
        rw [Receive.abort_conn]
        exact h.conn_le x hx
      · intro r hr hph
        obtain ⟨x, hx, rfl⟩ := List.mem_map.mp hr
        -- `close` leaves no receive outstanding
        exact absurd hph x.abort_not_posted
  | clearConnected hpc =>
      exact ⟨h.conn_le, h.socket_eq, fun _ => rfl, nofun, h.posted⟩
  | complete r error hr hph =>
      obtain ⟨hle, hpo⟩ := h.swap r { r with phase := .queued error }
        (h.conn_le r hr) nofun
      exact ⟨hle, h.socket_eq, h.down, h.up, hpo⟩
  | succeeded r hr hph =>
      obtain ⟨hle, hpo⟩ := h.swap r { r with phase := .rearming }
        (h.conn_le r hr) nofun
      exact ⟨hle, h.socket_eq, h.down, h.up, hpo⟩
  | failed r hr hph hc =>
      obtain ⟨hle, hpo⟩ := h.swap r { r with phase := .clearing }
        (h.conn_le r hr) nofun
      exact ⟨hle, h.socket_eq, h.down, h.up, hpo⟩
  | ignored r hr hph hc =>
      exact ⟨fun x hx => h.conn_le x (List.mem_of_mem_erase hx), h.socket_eq, h.down, h.up,
        fun x hx => h.posted x (List.mem_of_mem_erase hx)⟩
  | rearmed r hr hph =>
      obtain ⟨hle, hpo⟩ := h.swap r (s.asyncReceive r.conn)
        (h.asyncReceive_conn_le (h.conn_le r hr)) State.asyncReceive_posted
      exact ⟨hle, h.socket_eq, h.down, h.up, hpo⟩
  | cleared r hr hph =>
      obtain ⟨hle, hpo⟩ := h.swap r { r with phase := .notifying }
        (h.conn_le r hr) nofun
      exact ⟨hle, h.socket_eq, fun _ => rfl, h.up, hpo⟩
  | notified r hr hph =>
      exact ⟨fun x hx => h.conn_le x (List.mem_of_mem_erase hx), h.socket_eq, h.down, h.up,
        fun x hx => h.posted x (List.mem_of_mem_erase hx)⟩

/-! ## Counting the receives of a connection -/

/-- The receives of connection `c`, whatever has become of them. -/
def receivesOf (c : Nat) (rs : List Receive) : Nat :=
  rs.countP fun r => decide (r.conn = c)

variable {c : Nat} {rs : List Receive} {r r' : Receive}

theorem receivesOf_swap (hr : r ∈ rs) (hconn : r'.conn = r.conn) :
    receivesOf c (swap rs r r') = receivesOf c rs :=
  countP_swap _ hr (by rw [hconn])

theorem receivesOf_erase_of_ne (hconn : r.conn ≠ c) :
    receivesOf c (rs.erase r) = receivesOf c rs :=
  countP_erase_of_not _ (decide_eq_false hconn)

theorem receivesOf_erase_le : receivesOf c (rs.erase r) ≤ receivesOf c rs :=
  List.Sublist.countP_le List.erase_sublist

theorem receivesOf_abort : receivesOf c (rs.map Receive.abort) = receivesOf c rs := by
  rw [receivesOf, List.countP_map]
  exact List.countP_congr (fun r _ => by simp)

theorem receivesOf_cons (hconn : r.conn = c) : receivesOf c (r :: rs) = receivesOf c rs + 1 :=
  List.countP_cons_of_pos (decide_eq_true hconn)

/-- A connection that has just been opened has no receives yet. -/
theorem Coherent.receivesOf_next {s : State} (h : Coherent s) :
    receivesOf (s.generation + 1) s.receives = 0 := by
  refine List.countP_eq_zero.mpr (fun r hr hc => ?_)
  have hle := h.conn_le r hr
  have heq := of_decide_eq_true hc
  omega

/-- A handler that re-arms finds the socket closed, or still on its own
connection. -/
def State.OwnSocket (s : State) : Act → Prop
  | .handle r => r.phase = .rearming → ∀ c, s.socket = some c → c = r.conn
  | _ => True

theorem State.asyncReceive_conn {s : State} {conn : Nat}
    (h : ∀ c, s.socket = some c → c = conn) : (s.asyncReceive conn).conn = conn := by
  unfold State.asyncReceive
  split
  · rename_i c hc
    exact h c hc
  · rfl

theorem Coherent.receivesOf_post {s : State} (h : Coherent s) :
    receivesOf s.generation (s.asyncReceive s.generation :: s.receives)
      = receivesOf s.generation s.receives + 1 :=
  receivesOf_cons (State.asyncReceive_conn h.socket_eq)

/-- The latest connection has at most one receive, and none before `connect`
has posted it. -/
structure Counted (s : State) : Prop where
  le_one : receivesOf s.generation s.receives ≤ 1
  before : s.pc = .connectThread ∨ s.pc = .connectPost →
    receivesOf s.generation s.receives = 0

theorem Counted.init : Counted machine.init where
  le_one := Nat.zero_le _
  before := fun _ => rfl

theorem Counted.step {s s' : State} {a : Act} (h : Counted s) (hco : Coherent s)
    (hown : s.OwnSocket a) (hs : s.step a = some s') : Counted s' := by
  obtain ⟨hle, hbefore⟩ := h
  cases State.taken hs with
  | returned hpc hc => exact ⟨hle, hbefore⟩
  | connect hpc hc | refused hpc | setConnected hpc | clearConnected hpc =>
      exact ⟨hle, fun hc => by rcases hc with hc | hc <;> cases hc⟩
  | opened hpc hsock =>
      -- the connection is new, so nothing was posted on it
      have hnone := hco.receivesOf_next
      exact ⟨Nat.le_trans (Nat.le_of_eq hnone) (Nat.zero_le 1), fun _ => hnone⟩
  | createThread hpc => exact ⟨hle, fun _ => hbefore (.inl hpc)⟩
  | postReceive hpc =>
      have hpost := hco.receivesOf_post
      rw [hbefore (.inr hpc)] at hpost
      exact ⟨Nat.le_of_eq hpost, fun hc => by rcases hc with hc | hc <;> cases hc⟩
  | disconnect hpc =>
      exact ⟨receivesOf_abort.le.trans hle, fun hc => by rcases hc with hc | hc <;> cases hc⟩
  | complete r error hr hph | succeeded r hr hph | failed r hr hph hc | cleared r hr hph =>
      have hkeep : ∀ ph, receivesOf s.generation (Lib.swap s.receives r ⟨r.conn, ph⟩) =
          receivesOf s.generation s.receives := fun _ => receivesOf_swap hr rfl
      exact ⟨(hkeep _).le.trans hle, fun hc => (hkeep _).trans (hbefore hc)⟩
  | ignored r hr hph hc | notified r hr hph =>
      exact ⟨receivesOf_erase_le.trans hle,
        fun hc => Nat.le_zero.mp (receivesOf_erase_le.trans (hbefore hc).le)⟩
  | rearmed r hr hph =>
      have hkeep := receivesOf_swap (c := s.generation) hr (State.asyncReceive_conn (hown hph))
      exact ⟨hkeep.le.trans hle, fun hc => hkeep.trans (hbefore hc)⟩

end HpLib.Connection
