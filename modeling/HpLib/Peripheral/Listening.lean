import HpLib.Peripheral.Connection

/-!
# A connected client listens

`connect` posts the first receive and sets `is_connected_` afterwards. A
handler that runs with an error in between finds the flag still down, does
nothing, and `connect` then raises it over a connection nobody listens to.
That, and a handler of an earlier connection that re-arms on the new socket,
are the only ways to break the rule that an idle, connected client has
exactly one receive on its connection.
-/

namespace HpLib.Connection

open Lib

/-- The handler of a failed receive of the latest connection does not look
at `is_connected_` between `connect`'s post and its raising the flag. -/
def State.SettledError (s : State) : Act → Prop
  | .handle r => r.phase = .queued true → r.conn = s.generation → s.pc ≠ .connectFlag
  | _ => True

/-- No call in progress and the flag up: the socket is the latest connection
and one receive of it is outstanding, queued or being handled. -/
def State.Listens (s : State) : Prop :=
  s.pc = .idle → s.isConnected = true →
    s.socket = some s.generation ∧ receivesOf s.generation s.receives = 1

instance (s : State) (a : Act) : Decidable (s.SettledError a) := by
  cases a <;> unfold State.SettledError <;> infer_instance

instance (s : State) (a : Act) : Decidable (s.OwnSocket a) := by
  cases a with
  | handle r =>
      exact decidable_of_iff (r.phase = .rearming → ∀ c ∈ s.socket, c = r.conn) Iff.rfl
  | _ => exact .isTrue trivial

/-- No receive of connection `c` stands at `ph`. -/
def Spared (c : Nat) (ph : Phase) (rs : List Receive) : Prop :=
  ∀ r ∈ rs, r.conn = c → r.phase ≠ ph

variable {c : Nat} {ph : Phase} {rs : List Receive} {r r' : Receive}

theorem Spared.swap (h : Spared c ph rs) (hnew : r'.conn = c → r'.phase ≠ ph) :
    Spared c ph (swap rs r r') := by
  intro x hx hconn
  rcases mem_swap hx with rfl | hx
  · exact hnew hconn
  · exact h x hx hconn

theorem Spared.erase (h : Spared c ph rs) : Spared c ph (rs.erase r) :=
  fun x hx => h x (List.mem_of_mem_erase hx)

/-- `close` starts no handler. -/
theorem Spared.abort (h : Spared c ph rs) (hph : ph ≠ .queued true) :
    Spared c ph (rs.map Receive.abort) := by
  intro x hx hconn
  obtain ⟨y, hy, rfl⟩ := List.mem_map.mp hx
  rw [Receive.abort_conn] at hconn
  unfold Receive.abort
  split
  · exact fun hc => hph hc.symm
  · exact h y hy hconn

theorem spared_of_receivesOf_zero (h : receivesOf c rs = 0) : Spared c ph rs :=
  fun r hr hconn => absurd (decide_eq_true hconn) (List.countP_eq_zero.mp h r hr)

/-- What a re-armed receive is: outstanding or failed at once. -/
theorem State.asyncReceive_phase (s : State) (conn : Nat) (hpost : ph ≠ .posted)
    (hqueue : ph ≠ .queued true) : (s.asyncReceive conn).phase ≠ ph := by
  unfold State.asyncReceive
  split
  · exact hpost.symm
  · exact hqueue.symm

/-- The flag is up, or about to be raised, over one receive that no handler
has given up. -/
structure Attended (s : State) : Prop where
  waiting : s.pc = .connectFlag → receivesOf s.generation s.receives = 1
    ∧ Spared s.generation .clearing s.receives ∧ Spared s.generation .notifying s.receives
  listening : s.isConnected = true → receivesOf s.generation s.receives = 1
    ∧ Spared s.generation .notifying s.receives
  onSocket : s.pc = .idle → s.isConnected = true → s.socket = some s.generation

theorem Attended.init : Attended machine.init where
  waiting := nofun
  listening := nofun
  onSocket := nofun

/-- A step that moves a receive on inside its connection, short of giving it
up, keeps the rest. -/
theorem Attended.move {s : State} (h : Attended s) (hr : r ∈ s.receives)
    (hconn : r'.conn = r.conn) (hcl : r'.phase ≠ .clearing) (hno : r'.phase ≠ .notifying) :
    Attended { s with receives := Lib.swap s.receives r r' } where
  waiting := by
    intro hpc
    obtain ⟨hone, hclear, hnote⟩ := h.waiting hpc
    exact ⟨(receivesOf_swap hr hconn).trans hone, hclear.swap fun _ => hcl,
      hnote.swap fun _ => hno⟩
  listening := by
    intro hc
    obtain ⟨hone, hnote⟩ := h.listening hc
    exact ⟨(receivesOf_swap hr hconn).trans hone, hnote.swap fun _ => hno⟩
  onSocket := h.onSocket

theorem Attended.step {s s' : State} {a : Act} (h : Attended s) (hco : Coherent s)
    (hcount : Counted s) (hset : s.SettledError a) (hown : s.OwnSocket a)
    (hs : s.step a = some s') : Attended s' := by
  have hdown : s.pc.connecting = true → ¬ s.isConnected = true := by
    intro hpc hc
    rw [hco.down hpc] at hc
    cases hc
  cases State.taken hs with
  | returned hpc hc => exact h
  | connect hpc hc =>
      exact ⟨nofun, h.listening, nofun⟩
  | refused hpc | clearConnected hpc =>
      exact ⟨nofun, nofun, nofun⟩
  | opened hpc hsock | createThread hpc =>
      have hdown := hdown (by rw [hpc]; rfl)
      exact ⟨nofun, fun hc => absurd hc hdown, nofun⟩
  | postReceive hpc =>
      have hdown := hdown (by rw [hpc]; rfl)
      have hnone := hcount.before (.inr hpc)
      have hpost := hco.receivesOf_post
      rw [hnone] at hpost
      refine ⟨fun _ => ⟨hpost, ?_, ?_⟩, fun hc => absurd hc hdown, nofun⟩
      all_goals
        intro x hx
        rcases List.mem_cons.mp hx with rfl | hx
        -- the receive just posted, and none before it on this connection
        · exact fun _ => s.asyncReceive_phase _ (by decide) (by decide)
        · exact spared_of_receivesOf_zero hnone x hx
  | setConnected hpc =>
      obtain ⟨hone, -, hnote⟩ := h.waiting hpc
      exact ⟨nofun, fun _ => ⟨hone, hnote⟩,
        fun _ _ => hco.up (by rw [hpc]; rfl)⟩
  | disconnect hpc =>
      refine ⟨nofun, fun hc => ?_, nofun⟩
      obtain ⟨hone, hnote⟩ := h.listening hc
      exact ⟨receivesOf_abort.trans hone, hnote.abort nofun⟩
  | complete r error hr hph | succeeded r hr hph =>
      exact h.move hr rfl nofun nofun
  | failed r hr hph hc =>
      -- the flag is up, so `connect` is not about to raise it
      refine ⟨fun hpc => absurd hc (hdown (by rw [show s.pc = .connectFlag from hpc]; rfl)),
        fun hc => ?_, h.onSocket⟩
      obtain ⟨hone, hnote⟩ := h.listening hc
      exact ⟨(receivesOf_swap hr rfl).trans hone, hnote.swap nofun⟩
  | ignored r hr hph hc =>
      have hlow : ¬ s.isConnected = true := by
        rw [hc]
        exact nofun
      refine ⟨fun hpc => ?_, fun hc => absurd hc hlow, fun _ hc => absurd hc hlow⟩
      -- the guard: the handler that does nothing is not one of this connection
      have hne : r.conn ≠ s.generation := fun heq => hset hph heq hpc
      obtain ⟨hone, hclear, hnote⟩ := h.waiting hpc
      exact ⟨(receivesOf_erase_of_ne hne).trans hone, hclear.erase, hnote.erase⟩
  | rearmed r hr hph =>
      obtain ⟨hwait, hlisten, hsock⟩ := h.move hr (State.asyncReceive_conn (hown hph))
        (s.asyncReceive_phase _ (by decide) (by decide))
        (s.asyncReceive_phase _ (by decide) (by decide))
      exact ⟨hwait, hlisten, hsock⟩
  | cleared r hr hph =>
      refine ⟨fun hpc => ?_, nofun, nofun⟩
      obtain ⟨hone, hclear, hnote⟩ := h.waiting hpc
      -- `connect` waits, so the handler gives up an earlier connection
      have hne : r.conn ≠ s.generation := fun heq => hclear r hr heq hph
      exact ⟨(receivesOf_swap hr rfl).trans hone, hclear.swap fun hc => absurd hc hne,
        hnote.swap fun hc => absurd hc hne⟩
  | notified r hr hph =>
      refine ⟨fun hpc => ?_, fun hc => ?_, h.onSocket⟩
      · obtain ⟨hone, hclear, hnote⟩ := h.waiting hpc
        have hne : r.conn ≠ s.generation := fun heq => hnote r hr heq hph
        exact ⟨(receivesOf_erase_of_ne hne).trans hone, hclear.erase, hnote.erase⟩
      · obtain ⟨hone, hnote⟩ := h.listening hc
        have hne : r.conn ≠ s.generation := fun heq => hnote r hr heq hph
        exact ⟨(receivesOf_erase_of_ne hne).trans hone, hnote.erase⟩

/-! ## Whole runs -/

/-- Both guards on a step. -/
def State.Unraced (s : State) (a : Act) : Prop :=
  s.SettledError a ∧ s.OwnSocket a

instance (s : State) (a : Act) : Decidable (s.Unraced a) :=
  inferInstanceAs (Decidable (_ ∧ _))

theorem attended_of_unraced {s : State} (h : machine.Reaches State.Unraced s) :
    Coherent s ∧ Counted s ∧ Attended s := by
  refine h.inv (P := fun s => Coherent s ∧ Counted s ∧ Attended s)
    ⟨Coherent.init, Counted.init, Attended.init⟩ ?_
  rintro s a s' ⟨hco, hcount, hatt⟩ ⟨hset, hown⟩ hs
  exact ⟨hco.step hs, hcount.step hco hown hs, hatt.step hco hcount hset hown hs⟩

/-- **A connected client listens**: along every run in which no failed
receive of the connection being made is handled before `connect` raises the
flag, and no old handler re-arms on a newer socket. -/
theorem listens_of_unraced (s : State) (h : machine.Reaches State.Unraced s) : s.Listens := by
  obtain ⟨-, -, hatt⟩ := attended_of_unraced h
  intro hpc hc
  exact ⟨hatt.onSocket hpc hc, (hatt.listening hc).1⟩

/-- One `connect` with nothing in between. -/
def connectCall : List Act :=
  [.connect, .socketConnect true, .createThread, .postReceive, .setConnected]

theorem listens_of_unraced_connect :
    ∃ s, machine.Reaches State.Unraced s ∧ s.pc = .idle ∧ s.isConnected = true ∧ s.Listens := by
  obtain ⟨s, hrun, hpc, hc, hg⟩ : ∃ s, machine.exec machine.init connectCall = some s ∧
      s.pc = .idle ∧ s.isConnected = true ∧
      machine.Guarded State.Unraced machine.init connectCall := ⟨_, rfl, rfl, rfl, by decide⟩
  exact ⟨s, ⟨connectCall, hrun, hg⟩, hpc, hc, listens_of_unraced s ⟨connectCall, hrun, hg⟩⟩

/-- The peer closes, and the handler runs, before `connect` raises the flag. -/
def lostCloseRun : List Act :=
  [.connect, .socketConnect true, .createThread, .postReceive,
   .complete ⟨1, .posted⟩ true, .handle ⟨1, .queued true⟩, .setConnected]

theorem lost_close_leaves_deaf :
    ¬ ∀ s, machine.Reachable s → s.Listens := by
  intro hall
  obtain ⟨s, hrun, hpc, hc, hnone⟩ : ∃ s, machine.exec machine.init lostCloseRun = some s ∧
      s.pc = .idle ∧ s.isConnected = true ∧ s.receives = [] := ⟨_, rfl, rfl, rfl, rfl⟩
  obtain ⟨-, hone⟩ := hall s ⟨lostCloseRun, hrun⟩ hpc hc
  rw [hnone] at hone
  cases hone

end HpLib.Connection
