import HpLib.Peripheral.Listening

/-!
# Completions of an old connection

A handler does not know which connection its receive belonged to. After
`disconnect` and another `connect`, the aborted receive of the old connection
is still queued: it finds `is_connected_` up again, takes it down and fires
`disconnect_connections_`; one that had completed with data posts a second
receive into `data_`. The guards below name the orders in which this happens.
-/

namespace HpLib.Connection

open Lib

/-- A failed receive of an earlier connection is handled while the flag is
down, a successful one re-arms on no newer socket, and no connection is made
while a handler is giving one up. -/
def State.OldQuiet (s : State) : Act → Prop
  | .handle r =>
      (r.phase = .queued true → r.conn ≠ s.generation → s.isConnected = false)
        ∧ s.OwnSocket (.handle r)
  | .socketConnect ok =>
      ok = true → ∀ r ∈ s.receives, r.phase ≠ .clearing ∧ r.phase ≠ .notifying
  | _ => True

theorem State.OldQuiet.ownSocket {s : State} {a : Act} (h : s.OldQuiet a) : s.OwnSocket a := by
  cases a with
  | handle r => exact h.2
  | _ => trivial

instance (s : State) : (a : Act) → Decidable (s.OldQuiet a)
  | .handle r => inferInstanceAs (Decidable ((_ → _ → _ = false) ∧ s.OwnSocket (.handle r)))
  | .socketConnect _ => inferInstanceAs (Decidable (_ → ∀ r ∈ s.receives, _ ∧ _))
  | .connect | .createThread | .postReceive | .setConnected | .disconnect | .clearConnected
  | .complete _ _ => .isTrue trivial

/-- How many receives into `data_` are outstanding. -/
def State.outstanding (s : State) : Nat :=
  s.receives.countP fun r => decide (r.phase = .posted)

/-- Nothing a completion did hit a connection newer than its own, and at most
one receive is outstanding. -/
def State.Separate (s : State) : Prop :=
  (∀ e ∈ s.effects, e.conn = e.latest) ∧ s.outstanding ≤ 1

/-- Handlers that give a connection up give up the latest one. -/
structure Fresh (s : State) : Prop where
  finishing : ∀ r ∈ s.receives, r.phase = .clearing ∨ r.phase = .notifying →
    r.conn = s.generation
  effects : ∀ e ∈ s.effects, e.conn = e.latest

theorem Fresh.init : Fresh machine.init where
  finishing := by
    intro r hr
    cases hr
  effects := by
    intro e he
    cases he

variable {s s' : State} {r r' : Receive}

/-- A receive that gives nothing up may take the place of any. -/
theorem Fresh.swap (h : Fresh s)
    (hnew : r'.phase = .clearing ∨ r'.phase = .notifying → r'.conn = s.generation) :
    ∀ x ∈ Lib.swap s.receives r r', x.phase = .clearing ∨ x.phase = .notifying →
      x.conn = s.generation := by
  intro x hx
  rcases mem_swap hx with rfl | hx
  · exact hnew
  · exact h.finishing x hx

theorem Fresh.erase (h : Fresh s) :
    ∀ x ∈ s.receives.erase r, x.phase = .clearing ∨ x.phase = .notifying →
      x.conn = s.generation :=
  fun x hx => h.finishing x (List.mem_of_mem_erase hx)

theorem State.asyncReceive_not_finishing (s : State) (conn : Nat) :
    ¬ ((s.asyncReceive conn).phase = .clearing ∨ (s.asyncReceive conn).phase = .notifying) := by
  rintro (hc | hc)
  · exact s.asyncReceive_phase conn (by decide) (by decide) hc
  · exact s.asyncReceive_phase conn (by decide) (by decide) hc

/-- One more thing done to the connection it belonged to. -/
theorem Fresh.push (h : Fresh s) {e : Effect} (he : e.conn = e.latest) :
    ∀ x ∈ s.effects ++ [e], x.conn = x.latest := by
  intro x hx
  rcases List.mem_append.mp hx with hx | hx
  · exact h.effects x hx
  · cases List.mem_singleton.mp hx
    exact he

theorem Fresh.step {a : Act} (h : Fresh s) (hquiet : s.OldQuiet a)
    (hs : s.step a = some s') : Fresh s' := by
  cases State.taken hs with
  | returned hpc hc | connect hpc hc | refused hpc | createThread hpc | setConnected hpc
  | clearConnected hpc => exact ⟨h.finishing, h.effects⟩
  | opened hpc hsock =>
      refine ⟨fun x hx hph => ?_, h.effects⟩
      -- a handler on its way out would be late for the new connection
      obtain ⟨hclear, hnote⟩ := hquiet rfl x hx
      rcases hph with hph | hph
      · exact absurd hph hclear
      · exact absurd hph hnote
  | postReceive hpc =>
      refine ⟨fun x hx hph => ?_, h.effects⟩
      rcases List.mem_cons.mp hx with rfl | hx
      · exact absurd hph (s.asyncReceive_not_finishing _)
      · exact h.finishing x hx hph
  | disconnect hpc =>
      refine ⟨fun x hx hph => ?_, h.effects⟩
      obtain ⟨y, hy, rfl⟩ := List.mem_map.mp hx
      rw [Receive.abort_conn]
      refine h.finishing y hy ?_
      -- `close` queues an error, and starts no handler
      unfold Receive.abort at hph
      split at hph
      · rcases hph with hph | hph <;> cases hph
      · exact hph
  | complete r error hr hph =>
      exact ⟨h.swap (fun hc => by rcases hc with hc | hc <;> cases hc), h.effects⟩
  | succeeded r hr hph =>
      exact ⟨h.swap (fun hc => by rcases hc with hc | hc <;> cases hc), h.effects⟩
  | failed r hr hph hc =>
      -- an old completion would have found the flag down
      have hconn : r.conn = s.generation := by
        by_contra hne
        have hlow := hquiet.1 hph hne
        rw [hc] at hlow
        cases hlow
      exact ⟨h.swap fun _ => hconn, h.effects⟩
  | ignored r hr hph hc => exact ⟨h.erase, h.effects⟩
  | rearmed r hr hph =>
      refine ⟨h.swap fun hc => absurd hc (s.asyncReceive_not_finishing _), fun e he => ?_⟩
      rcases List.mem_append.mp he with he | he
      · exact h.effects e he
      · obtain ⟨c, hc, rfl⟩ := List.mem_map.mp he
        exact (hquiet.2 hph c (Option.mem_toList.mp hc)).symm
  | cleared r hr hph =>
      have hconn := h.finishing r hr (.inl hph)
      refine ⟨h.swap fun _ => hconn, ?_⟩
      show ∀ e ∈ (if s.isConnected then s.effects ++ [⟨.wentDown, r.conn, s.generation⟩]
        else s.effects), e.conn = e.latest
      split
      · exact h.push hconn
      · exact h.effects
  | notified r hr hph =>
      exact ⟨h.erase, h.push (h.finishing r hr (.inr hph))⟩

/-- An outstanding receive is one of the latest connection. -/
theorem Coherent.outstanding_le (h : Coherent s) :
    s.outstanding ≤ receivesOf s.generation s.receives := by
  refine List.countP_mono_left (fun r hr hph => ?_)
  exact decide_eq_true (h.socket_eq _ (h.posted r hr (of_decide_eq_true hph)))

/-! ## Whole runs -/

/-- **Old completions keep to themselves** along every run that meets the
guard. -/
theorem separate_of_oldQuiet (s : State) (h : machine.Reaches State.OldQuiet s) :
    s.Separate := by
  obtain ⟨hco, hcount, hfresh⟩ : Coherent s ∧ Counted s ∧ Fresh s := by
    refine h.inv (P := fun s => Coherent s ∧ Counted s ∧ Fresh s)
      ⟨Coherent.init, Counted.init, Fresh.init⟩ ?_
    rintro s a s' ⟨hco, hcount, hfresh⟩ hquiet hs
    exact ⟨hco.step hs, hcount.step hco hquiet.ownSocket hs, hfresh.step hquiet hs⟩
  exact ⟨hfresh.effects, Nat.le_trans hco.outstanding_le hcount.le_one⟩

/-- `connect`, `disconnect`, the aborted receive handled, `connect` again. -/
def reconnectRun : List Act :=
  connectCall ++ [.disconnect, .clearConnected, .handle ⟨1, .queued true⟩] ++ connectCall

theorem separate_of_oldQuiet_reconnect :
    ∃ s, machine.Reaches State.OldQuiet s ∧ s.receives = [⟨2, .posted⟩] ∧ s.Separate := by
  obtain ⟨s, hrun, hrs, hg⟩ : ∃ s, machine.exec machine.init reconnectRun = some s ∧
      s.receives = [⟨2, .posted⟩] ∧ machine.Guarded State.OldQuiet machine.init reconnectRun :=
    ⟨_, rfl, rfl, by decide⟩
  exact ⟨s, ⟨reconnectRun, hrun, hg⟩, hrs, separate_of_oldQuiet s ⟨reconnectRun, hrun, hg⟩⟩

/-- The same with the aborted receive still queued at the second `connect`,
as in the program of `test/ip/client.cc`: the first handler to run takes the
new connection's flag down. -/
def staleAbortRun : List Act :=
  connectCall ++ [.disconnect, .clearConnected] ++ connectCall
    ++ [.handle ⟨1, .queued true⟩, .handle ⟨1, .clearing⟩]

theorem stale_abort_hits_new_connection :
    ¬ ∀ s, machine.Reachable s → s.Separate := by
  intro hall
  obtain ⟨s, hrun, heff⟩ : ∃ s, machine.exec machine.init staleAbortRun = some s ∧
      s.effects = [⟨.wentDown, 1, 2⟩] := ⟨_, rfl, rfl⟩
  obtain ⟨hown, -⟩ := hall s ⟨staleAbortRun, hrun⟩
  rw [heff] at hown
  exact absurd (hown _ List.mem_cons_self) (by decide)

end HpLib.Connection
