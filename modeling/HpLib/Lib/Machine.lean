import Mathlib.Data.List.Basic
import Mathlib.Logic.Basic

/-!
# Machines and their runs

A machine is a start state and a partial step function: an action that is
not enabled gives `none`. Concurrent code is a machine whose actions are the
atomic steps of its threads, so a run is one interleaving.

`Guarded G` says that every step a run takes meets `G` in the state it is
taken from. The rules below turn one fact about a step into a fact about
every run: an invariant kept by guarded steps, a state predicate that holds
exactly along the guarded runs, and the split of all runs into those that
stayed guarded and those that did not.

The last section is for objects called one operation at a time: a concrete
operation may go wrong, an abstract one may not, and a step-by-step
simulation lifts to call sequences.
-/

namespace HpLib.Lib

/-- A start state and what each action does to a state. -/
structure Machine (σ α : Type*) where
  init : σ
  step : σ → α → Option σ

namespace Machine

variable {σ α : Type*} (M : Machine σ α)

/-- Take the actions in order. -/
def exec : σ → List α → Option σ
  | s, [] => some s
  | s, a :: as => (M.step s a).bind fun s' => exec s' as

/-- Every step the run takes meets `G` in the state it is taken from. -/
def Guarded (G : σ → α → Prop) : σ → List α → Prop
  | _, [] => True
  | s, a :: as => ∀ s', M.step s a = some s' → G s a ∧ Guarded G s' as

/-- `P` holds in every state of the run. -/
def Always (P : σ → Prop) : σ → List α → Prop
  | s, [] => P s
  | s, a :: as => P s ∧ ∀ s', M.step s a = some s' → Always P s' as

/-- Some run reaches `s`, and its steps all meet `G`. -/
def Reaches (G : σ → α → Prop) (s : σ) : Prop :=
  ∃ as, M.exec M.init as = some s ∧ M.Guarded G M.init as

/-- Some run reaches `s`. -/
def Reachable (s : σ) : Prop :=
  ∃ as, M.exec M.init as = some s

variable {M} {G : σ → α → Prop} {P Q : σ → Prop}

@[simp] theorem exec_nil (s : σ) : M.exec s [] = some s := rfl

theorem exec_cons (s : σ) (a : α) (as : List α) :
    M.exec s (a :: as) = (M.step s a).bind fun s' => M.exec s' as := rfl

theorem exec_cons_eq_some {s t : σ} {a : α} {as : List α} :
    M.exec s (a :: as) = some t ↔ ∃ u, M.step s a = some u ∧ M.exec u as = some t := by
  rw [exec_cons, Option.bind_eq_some_iff]

theorem exec_append (s : σ) (as bs : List α) :
    M.exec s (as ++ bs) = (M.exec s as).bind fun t => M.exec t bs := by
  induction as generalizing s with
  | nil => rfl
  | cons a as ih =>
      rw [List.cons_append, exec_cons, exec_cons, Option.bind_assoc]
      congr 1
      funext u
      exact ih u

theorem guarded_of_forall (h : ∀ s a, G s a) (s : σ) (as : List α) : M.Guarded G s as := by
  induction as generalizing s with
  | nil => trivial
  | cons a as ih => exact fun u _ => ⟨h s a, ih u⟩

instance decidableGuarded [∀ s a, Decidable (G s a)] (s : σ) (as : List α) :
    Decidable (M.Guarded G s as) :=
  match as with
  | [] => .isTrue trivial
  | a :: as =>
      match h : M.step s a with
      | none => .isTrue (fun u hu => by simp [h] at hu)
      | some u =>
          have := decidableGuarded u as
          decidable_of_iff (G s a ∧ M.Guarded G u as) (by simp [Guarded, h])

/-! ## Invariants -/

/-- An invariant that guarded steps keep holds at the end of a guarded run. -/
theorem inv_of_guarded (hstep : ∀ s a s', P s → G s a → M.step s a = some s' → P s')
    {s t : σ} {as : List α} (h : P s) (hrun : M.exec s as = some t)
    (hg : M.Guarded G s as) : P t := by
  induction as generalizing s with
  | nil =>
      cases hrun
      exact h
  | cons a as ih =>
      obtain ⟨u, hu, hrest⟩ := exec_cons_eq_some.mp hrun
      obtain ⟨hga, hgs⟩ := hg u hu
      exact ih (hstep s a u h hga hu) hrest hgs

theorem inv_of_exec (hstep : ∀ s a s', P s → M.step s a = some s' → P s')
    {s t : σ} {as : List α} (h : P s) (hrun : M.exec s as = some t) : P t := by
  induction as generalizing s with
  | nil =>
      cases hrun
      exact h
  | cons a as ih =>
      obtain ⟨u, hu, hrest⟩ := exec_cons_eq_some.mp hrun
      exact ih (hstep s a u h hu) hrest

/-- An invariant that some of the actions keep holds at the end of a run that
takes no others. -/
theorem inv_of_allowed {A : α → Prop} (hstep : ∀ s a s', P s → A a → M.step s a = some s' → P s')
    {s t : σ} {as : List α} (h : P s) (has : ∀ a ∈ as, A a) (hrun : M.exec s as = some t) :
    P t := by
  induction as generalizing s with
  | nil =>
      cases hrun
      exact h
  | cons a as ih =>
      obtain ⟨u, hu, hrest⟩ := exec_cons_eq_some.mp hrun
      exact ih (hstep s a u h (has a List.mem_cons_self) hu)
        (fun b hb => has b (List.mem_cons_of_mem a hb)) hrest

/-- Where every step from a `P` state is enabled, a guarded run goes through. -/
theorem exec_isSome_of_guarded
    (hstep : ∀ s a s', P s → G s a → M.step s a = some s' → P s')
    (hsome : ∀ s a, P s → (M.step s a).isSome) {s : σ} {as : List α} (h : P s)
    (hg : M.Guarded G s as) : (M.exec s as).isSome := by
  induction as generalizing s with
  | nil => rfl
  | cons a as ih =>
      obtain ⟨u, hu⟩ := Option.isSome_iff_exists.mp (hsome s a h)
      obtain ⟨hga, hgs⟩ := hg u hu
      rw [exec_cons, hu]
      exact ih (hstep s a u h hga hu) hgs

theorem Reaches.inv (hinit : P M.init)
    (hstep : ∀ s a s', P s → G s a → M.step s a = some s' → P s') {s : σ}
    (h : M.Reaches G s) : P s := by
  obtain ⟨as, hrun, hg⟩ := h
  exact inv_of_guarded hstep hinit hrun hg

theorem Reachable.inv (hinit : P M.init)
    (hstep : ∀ s a s', P s → M.step s a = some s' → P s') {s : σ}
    (h : M.Reachable s) : P s := by
  obtain ⟨as, hrun⟩ := h
  exact inv_of_exec hstep hinit hrun

theorem Reaches.reachable {s : σ} (h : M.Reaches G s) : M.Reachable s := by
  obtain ⟨as, hrun, -⟩ := h
  exact ⟨as, hrun⟩

/-- Where guarded steps keep the invariant `P`, `P` implies `Q`, and a step
that is not guarded loses `Q`, `Q` holds in every state of a run exactly when
the whole run is guarded. -/
theorem always_iff_guarded_of_inv (hP : ∀ s a s', P s → G s a → M.step s a = some s' → P s')
    (hPQ : ∀ s, P s → Q s)
    (hlost : ∀ s a s', P s → ¬ G s a → M.step s a = some s' → ¬ Q s')
    {s : σ} (h : P s) (as : List α) : M.Always Q s as ↔ M.Guarded G s as := by
  induction as generalizing s with
  | nil => exact ⟨fun _ => trivial, fun _ => hPQ s h⟩
  | cons a as ih =>
      constructor
      · rintro ⟨-, hall⟩ u hu
        have hQ : Q u := by
          have := hall u hu
          cases as with
          | nil => exact this
          | cons b bs => exact this.1
        have hga : G s a := by
          by_contra hga
          exact hlost s a u h hga hu hQ
        exact ⟨hga, (ih (hP s a u h hga hu)).mp (hall u hu)⟩
      · intro hg
        refine ⟨hPQ s h, fun u hu => ?_⟩
        obtain ⟨hga, hgs⟩ := hg u hu
        exact (ih (hP s a u h hga hu)).mpr hgs

/-- A predicate that one step keeps exactly when the step is guarded holds
in every state of a run exactly when the whole run is guarded. -/
theorem always_iff_guarded (hstep : ∀ s a s', P s → M.step s a = some s' → (P s' ↔ G s a))
    {s : σ} (h : P s) (as : List α) : M.Always P s as ↔ M.Guarded G s as :=
  always_iff_guarded_of_inv (fun s a u hs hg hu => (hstep s a u hs hu).mpr hg) (fun _ hs => hs)
    (fun s a u hs hg hu hP => hg ((hstep s a u hs hu).mp hP)) h as

/-- Where an unguarded step from a `P` state leads to `Q`, and nothing leads
out of `Q`, every run ends in `P` or in `Q` as it stayed guarded or not. -/
theorem guarded_or_not (hP : ∀ s a s', P s → G s a → M.step s a = some s' → P s')
    (hQ : ∀ s a s', P s → ¬ G s a → M.step s a = some s' → Q s')
    (hQQ : ∀ s a s', Q s → M.step s a = some s' → Q s')
    {s t : σ} {as : List α} (h : P s) (hrun : M.exec s as = some t) :
    (M.Guarded G s as ∧ P t) ∨ (¬ M.Guarded G s as ∧ Q t) := by
  induction as generalizing s with
  | nil =>
      cases hrun
      exact .inl ⟨trivial, h⟩
  | cons a as ih =>
      obtain ⟨u, hu, hrest⟩ := exec_cons_eq_some.mp hrun
      have hcons : M.Guarded G s (a :: as) ↔ G s a ∧ M.Guarded G u as := by
        simp [Guarded, hu]
      rw [hcons]
      by_cases hga : G s a
      · rcases ih (hP s a u h hga hu) hrest with ⟨hg, ht⟩ | ⟨hg, ht⟩
        · exact .inl ⟨⟨hga, hg⟩, ht⟩
        · exact .inr ⟨fun hc => hg hc.2, ht⟩
      · exact .inr ⟨fun hc => hga hc.1, inv_of_exec hQQ (hQ s a u h hga hu) hrest⟩

end Machine

/-! ## Call sequences -/

section Calls

variable {σ τ α ρ ε : Type*}

/-- Call the operations in order; the first that goes wrong ends the sequence. -/
def execCalls (f : σ → α → Except ε (ρ × σ)) : σ → List α → Except ε (List ρ × σ)
  | s, [] => .ok ([], s)
  | s, a :: as =>
      match f s a with
      | .error e => .error e
      | .ok (r, s') =>
          match execCalls f s' as with
          | .error e => .error e
          | .ok (rs, t) => .ok (r :: rs, t)

/-- The same for operations that cannot go wrong. -/
def runCalls (g : τ → α → ρ × τ) : τ → List α → List ρ × τ
  | t, [] => ([], t)
  | t, a :: as => ((g t a).1 :: (runCalls g (g t a).2 as).1, (runCalls g (g t a).2 as).2)

/-- **Refinement of call sequences**: where every call from related states
goes right, answers as the abstract call does and keeps the relation, so
does every call sequence. -/
theorem execCalls_refines {f : σ → α → Except ε (ρ × σ)} {g : τ → α → ρ × τ}
    {R : σ → τ → Prop}
    (hcall : ∀ s t a, R s t → ∃ s', f s a = .ok ((g t a).1, s') ∧ R s' (g t a).2)
    {s : σ} {t : τ} (h : R s t) (as : List α) :
    ∃ s', execCalls f s as = .ok ((runCalls g t as).1, s') ∧ R s' (runCalls g t as).2 := by
  induction as generalizing s t with
  | nil => exact ⟨s, rfl, h⟩
  | cons a as ih =>
      obtain ⟨u, hu, hR⟩ := hcall s t a h
      obtain ⟨s', hs', hR'⟩ := ih hR
      exact ⟨s', by simp [execCalls, hu, hs', runCalls], hR'⟩

end Calls

end HpLib.Lib
