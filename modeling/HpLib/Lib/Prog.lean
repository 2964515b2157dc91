import HpLib.Lib.Machine

/-!
# Programs that ask

A program that cannot go on by itself: it is done, has failed, or asks its
environment something and goes on with the answer. What an object answers,
and when, is not part of the program; `server` runs one against an object
that others may change in between.

`wp R p Q` says that whatever the answers are, everything `p` asks meets `R`
and every result meets `Q`; a failure meets anything. It follows the
structure of the program, so it is computed rather than guessed; `safe E Q p`
is the same for failures instead of requests. The section on runs relates
both to them: what they promise holds in every run, and where every answer can
come about, runs show no more than `wp` does. The last section is about an
object that nobody else touches: then a program has one run, which `run`
computes, and an object can be exchanged for one that it simulates.
-/

namespace HpLib.Lib

/-- `ρ` are the requests and `γ r` the answers to `r`. -/
inductive Prog (ρ : Type) (γ : ρ → Type) (ε α : Type) where
  | done (a : α)
  | fail (e : ε)
  | ask (r : ρ) (k : γ r → Prog ρ γ ε α)

namespace Prog

variable {ρ : Type} {γ : ρ → Type} {ε α β : Type}

protected def bind : Prog ρ γ ε α → (α → Prog ρ γ ε β) → Prog ρ γ ε β
  | .done a, f => f a
  | .fail e, _ => .fail e
  | .ask r k, f => .ask r fun x => (k x).bind f

instance : Monad (Prog ρ γ ε) where
  pure := .done
  bind := Prog.bind

protected theorem bind_assoc {δ : Type} (p : Prog ρ γ ε α) (f : α → Prog ρ γ ε β)
    (g : β → Prog ρ γ ε δ) : p >>= f >>= g = p >>= fun a => f a >>= g := by
  induction p with
  | done a => rfl
  | fail e => rfl
  | ask r k ih =>
      show Prog.ask r _ = Prog.ask r _
      congr 1
      funext x
      exact ih x

/-- Continuations that agree behind the same program. -/
theorem bind_bind_congr {β' δ : Type} {p : Prog ρ γ ε α} {f : α → Prog ρ γ ε β}
    {g : α → Prog ρ γ ε β'} {F : β → Prog ρ γ ε δ} {G : β' → Prog ρ γ ε δ}
    (h : ∀ a, f a >>= F = g a >>= G) : p >>= f >>= F = p >>= g >>= G := by
  rw [Prog.bind_assoc, Prog.bind_assoc]
  congr 1
  funext a
  exact h a

/-- Ask and return the answer. -/
def request (r : ρ) : Prog ρ γ ε (γ r) :=
  .ask r .done

/-- A computation that asks nothing. -/
def ofExcept : Except ε α → Prog ρ γ ε α
  | .ok a => .done a
  | .error e => .fail e

/-- Everything asked meets `R`, every result meets `Q`. -/
def wp (R : ρ → Prop) (Q : α → Prop) : Prog ρ γ ε α → Prop
  | .done a => Q a
  | .fail _ => True
  | .ask r k => R r ∧ ∀ x, wp R Q (k x)

variable {R : ρ → Prop} {Q Q' : α → Prop}

@[simp] theorem wp_pure (a : α) : (pure a : Prog ρ γ ε α).wp R Q ↔ Q a := Iff.rfl

@[simp] theorem wp_fail (e : ε) : (.fail e : Prog ρ γ ε α).wp R Q ↔ True := Iff.rfl

@[simp] theorem wp_ofExcept (e : Except ε α) :
    (ofExcept e : Prog ρ γ ε α).wp R Q ↔ ∀ a, e = .ok a → Q a := by
  cases e with
  | error e => simp [ofExcept]
  | ok a => simp [ofExcept, wp]

@[simp] theorem wp_bind (p : Prog ρ γ ε α) (f : α → Prog ρ γ ε β) {Q : β → Prop} :
    (p >>= f).wp R Q ↔ p.wp R fun a => (f a).wp R Q := by
  induction p with
  | done a => exact Iff.rfl
  | fail e => exact Iff.rfl
  | ask r k ih =>
      change (R r ∧ ∀ x, (k x >>= f).wp R Q) ↔ R r ∧ ∀ x, (k x).wp R _
      simp only [ih]

theorem wp_mono (h : ∀ a, Q a → Q' a) {p : Prog ρ γ ε α} (hp : p.wp R Q) : p.wp R Q' := by
  induction p with
  | done a => exact h a hp
  | fail e => trivial
  | ask r k ih => exact ⟨hp.1, fun x => ih x (hp.2 x)⟩

/-- Results are left alone by a postcondition that all of them meet. -/
theorem wp_of_forall (hQ : ∀ a, Q a) {p : Prog ρ γ ε α} (hp : p.wp R fun _ => True) :
    p.wp R Q :=
  wp_mono (fun a _ => hQ a) hp

theorem wp_true (hR : ∀ r, R r) (p : Prog ρ γ ε α) : p.wp R fun _ => True := by
  induction p with
  | done a => trivial
  | fail e => trivial
  | ask r k ih => exact ⟨hR r, ih⟩

/-! ## How a program may fail -/

/-- Every failure meets `E`, every result meets `Q`. -/
def safe (E : ε → Prop) (Q : α → Prop) : Prog ρ γ ε α → Prop
  | .done a => Q a
  | .fail e => E e
  | .ask _ k => ∀ x, safe E Q (k x)

variable {E : ε → Prop}

@[simp] theorem safe_pure (a : α) : (pure a : Prog ρ γ ε α).safe E Q ↔ Q a := Iff.rfl

@[simp] theorem safe_fail (e : ε) : (.fail e : Prog ρ γ ε α).safe E Q ↔ E e := Iff.rfl

@[simp] theorem safe_ofExcept (e : Except ε α) :
    (ofExcept e : Prog ρ γ ε α).safe E Q
      ↔ (∀ err, e = .error err → E err) ∧ ∀ a, e = .ok a → Q a := by
  cases e with
  | error e => simp [ofExcept]
  | ok a => simp [ofExcept, safe]

@[simp] theorem safe_bind (p : Prog ρ γ ε α) (f : α → Prog ρ γ ε β) {Q : β → Prop} :
    (p >>= f).safe E Q ↔ p.safe E fun a => (f a).safe E Q := by
  induction p with
  | done a => exact Iff.rfl
  | fail e => exact Iff.rfl
  | ask r k ih =>
      show (∀ x, (k x >>= f).safe E Q) ↔ ∀ x, (k x).safe E _
      simp only [ih]

theorem safe_mono {E' : ε → Prop} (hE : ∀ e, E e → E' e) (hQ : ∀ a, Q a → Q' a)
    {p : Prog ρ γ ε α} (hp : p.safe E Q) : p.safe E' Q' := by
  induction p with
  | done a => exact hQ a hp
  | fail e => exact hE e hp
  | ask r k ih => exact fun x => ih x (hp x)

/-- A program that never fails, whose requests have answers, has a result. -/
theorem exists_of_safe [∀ r, Nonempty (γ r)] {p : Prog ρ γ ε α}
    (hfail : p.safe (fun _ => False) Q) (hp : p.safe E Q') : ∃ a, Q a ∧ Q' a := by
  induction p with
  | done a => exact ⟨a, hfail, hp⟩
  | fail e => exact hfail.elim
  | ask r k ih =>
      have x := Classical.arbitrary (γ r)
      exact ih x (hfail x) (hp x)

/-! ## Running against an object -/

/-- Others change the object, or the request that is pending is answered. -/
inductive ServerAct (κ : Type) where
  | env (e : κ)
  | serve
  deriving Repr, DecidableEq

variable {σ κ : Type}

/-- `serve s r` is the answer to `r` in state `s` and the state after it,
none while the request has to wait. -/
def server (serve : σ → (r : ρ) → Option (γ r × σ)) (env : σ → κ → Option σ) (s : σ)
    (p : Prog ρ γ ε α) : Machine (σ × Prog ρ γ ε α) (ServerAct κ) where
  init := (s, p)
  step
    | (s, p), .env e => (env s e).map fun s' => (s', p)
    | (s, .ask r k), .serve => (serve s r).map fun (x, s') => (s', k x)
    | (_, .done _), .serve => none
    | (_, .fail _), .serve => none

variable {serve : σ → (r : ρ) → Option (γ r × σ)} {env : σ → κ → Option σ}

variable {s₀ s s' : σ} {p₀ p : Prog ρ γ ε α}

theorem reachable_env (h : (server serve env s₀ p₀).Reachable (s, p)) {e : κ}
    (he : env s e = some s') : (server serve env s₀ p₀).Reachable (s', p) := by
  obtain ⟨as, hrun⟩ := h
  refine ⟨as ++ [.env e], ?_⟩
  rw [Machine.exec_append, hrun]
  simp [Machine.exec_cons, server, he]

theorem reachable_serve {r : ρ} {k : γ r → Prog ρ γ ε α}
    (h : (server serve env s₀ p₀).Reachable (s, .ask r k)) {x : γ r}
    (hx : serve s r = some (x, s')) : (server serve env s₀ p₀).Reachable (s', k x) := by
  obtain ⟨as, hrun⟩ := h
  refine ⟨as ++ [.serve], ?_⟩
  rw [Machine.exec_append, hrun]
  simp [Machine.exec_cons, server, hx]

/-- What a step does: others change the object, or the pending request is
answered. -/
theorem server_step_cases {a : ServerAct κ} {t t' : σ × Prog ρ γ ε α}
    (h : (server serve env s₀ p₀).step t a = some t') :
    (∃ e, env t.1 e = some t'.1 ∧ t'.2 = t.2) ∨
      ∃ r k x, t.2 = .ask r k ∧ serve t.1 r = some (x, t'.1) ∧ t'.2 = k x := by
  obtain ⟨s, p⟩ := t
  cases a with
  | env e =>
      obtain ⟨s', hs', rfl⟩ := Option.map_eq_some_iff.mp h
      exact .inl ⟨e, hs', rfl⟩
  | serve =>
      cases p with
      | done a => cases h
      | fail e => cases h
      | ask r k =>
          obtain ⟨⟨x, s'⟩, hs', rfl⟩ := Option.map_eq_some_iff.mp h
          exact .inr ⟨r, k, x, rfl, hs', rfl⟩

/-- What `wp` promises is kept by every step, and so holds of what is left
of the program in every run. -/
theorem wp_of_reachable (h : p₀.wp R Q) {s : σ × Prog ρ γ ε α}
    (hs : (server serve env s₀ p₀).Reachable s) : s.2.wp R Q := by
  refine hs.inv (P := fun s => s.2.wp R Q) h ?_
  intro t a t' hp hstep
  rcases server_step_cases hstep with ⟨e, -, hkeep⟩ | ⟨r, k, x, hask, -, hnext⟩
  · rw [hkeep]
    exact hp
  · rw [hask] at hp
    rw [hnext]
    exact hp.2 x

/-- An invariant of the object holds in every run. -/
theorem inv_of_reachable {I : σ → Prop} (henv : ∀ s e s', I s → env s e = some s' → I s')
    (hserve : ∀ s r x s', I s → serve s r = some (x, s') → I s') (h : I s₀) {s : σ × Prog ρ γ ε α}
    (hs : (server serve env s₀ p₀).Reachable s) : I s.1 := by
  refine hs.inv (P := fun s => I s.1) h ?_
  intro t a t' hI hstep
  rcases server_step_cases hstep with ⟨e, he, -⟩ | ⟨r, k, x, -, hx, -⟩
  · exact henv t.1 e t'.1 hI he
  · exact hserve t.1 r x t'.1 hI hx

/-- Where the others can bring about every answer to a request that meets
`R`, a program whose runs ask nothing else meets `R` throughout. -/
theorem wp_of_runs {I : σ → Prop}
    (hsupply : ∀ s r x, I s → R r → ∃ e s' s'',
      env s e = some s' ∧ serve s' r = some (x, s'') ∧ I s'')
    (hI : I s₀)
    (h : ∀ s r k, (server serve env s₀ p₀).Reachable (s, .ask r k) → R r) :
    p₀.wp R fun _ => True := by
  suffices hsub : ∀ p s, I s → (server serve env s₀ p₀).Reachable (s, p) →
      p.wp R fun _ => True from hsub p₀ s₀ hI ⟨[], rfl⟩
  intro p
  induction p with
  | done a => exact fun _ _ _ => trivial
  | fail e => exact fun _ _ _ => trivial
  | ask r k ih =>
      intro s hs hreach
      have hR := h s r k hreach
      refine ⟨hR, fun x => ?_⟩
      obtain ⟨e, s', s'', he, hx, hs''⟩ := hsupply s r x hs hR
      exact ih x s'' hs'' (reachable_serve (reachable_env hreach he) hx)

/-! ## Running undisturbed -/

/-- The result of the program against an object nobody else touches, and the
object after it; none where a request waits for ever. -/
def run (serve : σ → (r : ρ) → Option (γ r × σ)) :
    Prog ρ γ ε α → σ → Option (Except ε α × σ)
  | .done a, s => some (.ok a, s)
  | .fail e, s => some (.error e, s)
  | .ask r k, s => (serve s r).bind fun (x, s') => run serve (k x) s'

@[simp] theorem run_pure (a : α) (s : σ) :
    run serve (pure a : Prog ρ γ ε α) s = some (.ok a, s) := rfl

theorem run_ask {r : ρ} {k : γ r → Prog ρ γ ε α} {s s' : σ} {x : γ r}
    (h : serve s r = some (x, s')) : run serve (.ask r k) s = run serve (k x) s' := by
  rw [run, h]
  rfl

theorem run_ask_none {r : ρ} {k : γ r → Prog ρ γ ε α} {s : σ} (h : serve s r = none) :
    run serve (.ask r k) s = none := by
  rw [run, h]
  rfl

/-- The second program runs where the first one ends. -/
theorem run_bind (p : Prog ρ γ ε α) (f : α → Prog ρ γ ε β) (s : σ) :
    run serve (p >>= f) s = (run serve p s).bind fun
      | (.ok a, s') => run serve (f a) s'
      | (.error e, s') => some (.error e, s') := by
  induction p generalizing s with
  | done a => rfl
  | fail e => rfl
  | ask r k ih =>
      show (serve s r).bind _ = ((serve s r).bind _).bind _
      rw [Option.bind_assoc]
      congr 1
      funext x
      exact ih x.1 x.2

theorem run_bind_ok {p : Prog ρ γ ε α} {f : α → Prog ρ γ ε β} {s s' : σ} {a : α}
    (h : run serve p s = some (.ok a, s')) : run serve (p >>= f) s = run serve (f a) s' := by
  rw [run_bind, h]
  rfl

theorem run_bind_none {p : Prog ρ γ ε α} {f : α → Prog ρ γ ε β} {s : σ}
    (h : run serve p s = none) : run serve (p >>= f) s = none := by
  rw [run_bind, h]
  rfl

/-- A result of two programs comes from a result of the first. -/
theorem exists_of_run_bind {p : Prog ρ γ ε α} {f : α → Prog ρ γ ε β} {s t : σ} {b : β}
    (h : run serve (p >>= f) s = some (.ok b, t)) :
    ∃ a s', run serve p s = some (.ok a, s') ∧ run serve (f a) s' = some (.ok b, t) := by
  rw [run_bind] at h
  obtain ⟨⟨a, s'⟩, hp, hf⟩ := Option.bind_eq_some_iff.mp h
  cases a with
  | error e => cases hf
  | ok a => exact ⟨a, s', hp, hf⟩

/-- Computing with the result does not change whether there is one. -/
theorem isSome_run_bind_pure (p : Prog ρ γ ε α) (f : α → β) (s : σ) :
    (run serve (p >>= fun a => pure (f a)) s).isSome = (run serve p s).isSome := by
  rw [run_bind]
  cases run serve p s with
  | none => rfl
  | some result =>
      obtain ⟨a, t⟩ := result
      cases a <;> rfl

/-- What is asked in that run, the request that waits for ever included. -/
def requests (serve : σ → (r : ρ) → Option (γ r × σ)) : Prog ρ γ ε α → σ → List ρ
  | .done _, _ => []
  | .fail _, _ => []
  | .ask r k, s =>
      r :: match serve s r with
        | some (x, s') => requests serve (k x) s'
        | none => []

theorem requests_bind_ok {p : Prog ρ γ ε α} {f : α → Prog ρ γ ε β} {s s' : σ} {a : α}
    (h : run serve p s = some (.ok a, s')) :
    requests serve (p >>= f) s = requests serve p s ++ requests serve (f a) s' := by
  induction p generalizing s with
  | done b =>
      cases h
      rfl
  | fail e => cases h
  | ask r k ih =>
      obtain ⟨⟨x, u⟩, hx, hrest⟩ := Option.bind_eq_some_iff.mp h
      show requests serve (.ask r fun x => k x >>= f) s = _
      rw [requests, requests, hx]
      exact congrArg (r :: ·) (ih x hrest)

/-- What `wp` promises of the result and of the requests. -/
theorem wp_of_run {s t : σ} {p : Prog ρ γ ε α} {a : α} (h : p.wp R Q)
    (hrun : run serve p s = some (.ok a, t)) : Q a := by
  induction p generalizing s with
  | done b =>
      cases hrun
      exact h
  | fail e => cases hrun
  | ask r k ih =>
      obtain ⟨⟨x, u⟩, -, hrest⟩ := Option.bind_eq_some_iff.mp hrun
      exact ih x (h.2 x) hrest

theorem wp_of_mem_requests {s : σ} {p : Prog ρ γ ε α} {r : ρ} (h : p.wp R Q)
    (hr : r ∈ requests serve p s) : R r := by
  induction p generalizing s with
  | done b => cases hr
  | fail e => cases hr
  | ask r' k ih =>
      rw [requests] at hr
      rcases List.mem_cons.mp hr with rfl | hr
      · exact h.1
      · cases hx : serve s r' with
        | none =>
            rw [hx] at hr
            cases hr
        | some answer =>
            rw [hx] at hr
            exact ih answer.1 (h.2 answer.1) hr

/-- What is run undisturbed is one of the runs of the server. -/
theorem reachable_of_run {s t : σ} {p : Prog ρ γ ε α} {a : α}
    (h : (server serve env s₀ p₀).Reachable (s, p))
    (hrun : run serve p s = some (.ok a, t)) :
    (server serve env s₀ p₀).Reachable (t, .done a) := by
  induction p generalizing s with
  | done b =>
      cases hrun
      exact h
  | fail e => cases hrun
  | ask r k ih =>
      obtain ⟨⟨x, s'⟩, hx, hrest⟩ := Option.bind_eq_some_iff.mp hrun
      exact ih x (reachable_serve h hx) hrest

/-- `s` answers requests as `t` does, and goes on doing so. -/
def Simulates {τ : Type} (serve : σ → (r : ρ) → Option (γ r × σ))
    (serve' : τ → (r : ρ) → Option (γ r × τ)) (R : σ → τ → Prop) : Prop :=
  ∀ s t r, R s t → match serve' t r with
    | some (x, t') => ∃ s', serve s r = some (x, s') ∧ R s' t'
    | none => serve s r = none

/-- Objects that answer alike give a program the same run. -/
theorem run_simulates {τ : Type} {serve' : τ → (r : ρ) → Option (γ r × τ)} {R : σ → τ → Prop}
    (hsim : Simulates serve serve' R) (p : Prog ρ γ ε α) {s : σ} {t : τ} (h : R s t) :
    match run serve' p t with
    | some (a, t') => ∃ s', run serve p s = some (a, s') ∧ R s' t'
    | none => run serve p s = none := by
  induction p generalizing s t with
  | done a => exact ⟨s, rfl, h⟩
  | fail e => exact ⟨s, rfl, h⟩
  | ask r k ih =>
      have hr := hsim s t r h
      cases hx : serve' t r with
      | none =>
          rw [hx] at hr
          rw [run_ask_none hx]
          exact run_ask_none hr
      | some answer =>
          obtain ⟨x, t'⟩ := answer
          rw [hx] at hr
          obtain ⟨s', hs', hR⟩ := hr
          rw [run_ask hx, run_ask hs']
          exact ih x hR

theorem requests_simulates {τ : Type} {serve' : τ → (r : ρ) → Option (γ r × τ)}
    {R : σ → τ → Prop} (hsim : Simulates serve serve' R) (p : Prog ρ γ ε α) {s : σ} {t : τ}
    (h : R s t) : requests serve p s = requests serve' p t := by
  induction p generalizing s t with
  | done a => rfl
  | fail e => rfl
  | ask r k ih =>
      have hr := hsim s t r h
      rw [requests, requests]
      cases hx : serve' t r with
      | none =>
          rw [hx] at hr
          rw [hr]
      | some answer =>
          obtain ⟨x, t'⟩ := answer
          rw [hx] at hr
          obtain ⟨s', hs', hR⟩ := hr
          rw [hs']
          exact congrArg (r :: ·) (ih x hR)

theorem run_of_simulates {τ : Type} {serve' : τ → (r : ρ) → Option (γ r × τ)}
    {R : σ → τ → Prop} (hsim : Simulates serve serve' R) {p : Prog ρ γ ε α} {s : σ} {t t' : τ}
    {a : Except ε α} (h : R s t) (hrun : run serve' p t = some (a, t')) :
    ∃ s', run serve p s = some (a, s') ∧ R s' t' := by
  have hall := run_simulates hsim p h
  rwa [hrun] at hall

end Prog

end HpLib.Lib
