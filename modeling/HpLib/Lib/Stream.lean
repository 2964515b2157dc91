import HpLib.Lib.Prog

/-!
# Programs on a stream

An object that others only add to: what it answers now it still answers when
more has come (`Lasting`). A program that runs against it gets the same
answers whenever the additions come and however they are cut up, namely those
that it would get if everything had been there from the start
(`answers_of_exec`). The last section carries this to an object that others
may spoil, for as long as they do not.
-/

namespace HpLib.Lib.Prog

variable {ρ : Type} {γ : ρ → Type} {ε α σ κ : Type}

/-- A request and the answer to it. -/
abbrev Answered (γ : ρ → Type) : Type :=
  (r : ρ) × γ r

/-- What the program gets from an object nobody else touches, as far as it
gets. -/
def answers (serve : σ → (r : ρ) → Option (γ r × σ)) : Prog ρ γ ε α → σ → List (Answered γ)
  | .done _, _ => []
  | .fail _, _ => []
  | .ask r k, s =>
      match serve s r with
      | some (x, s') => ⟨r, x⟩ :: answers serve (k x) s'
      | none => []

/-- The answer to what a program asks, if it asks and gets one. -/
def answer (serve : σ → (r : ρ) → Option (γ r × σ)) (s : σ) : Prog ρ γ ε α → List (Answered γ)
  | .ask r _ =>
      match serve s r with
      | some (x, _) => [⟨r, x⟩]
      | none => []
  | .done _ | .fail _ => []

/-- What it gets in one step of a run. -/
def answered (serve : σ → (r : ρ) → Option (γ r × σ)) (t : σ × Prog ρ γ ε α) :
    ServerAct κ → List (Answered γ)
  | .env _ => []
  | .serve => answer serve t.1 t.2

/-- What it gets in a run, as far as its steps are enabled. -/
def transcript (serve : σ → (r : ρ) → Option (γ r × σ)) (env : σ → κ → Option σ) :
    σ × Prog ρ γ ε α → List (ServerAct κ) → List (Answered γ)
  | _, [] => []
  | t, a :: as =>
      match (server serve env t.1 t.2).step t a with
      | some t' => answered serve t a ++ transcript serve env t' as
      | none => []

/-- What the others add. -/
def inputs : List (ServerAct κ) → List κ
  | [] => []
  | .env e :: as => e :: inputs as
  | .serve :: as => inputs as

/-- What is answered now is answered when more has come. -/
def Lasting (serve : σ → (r : ρ) → Option (γ r × σ)) (grow : σ → κ → σ) : Prop :=
  ∀ s e r x s', serve s r = some (x, s') → serve (grow s e) r = some (x, grow s' e)

variable {serve : σ → (r : ρ) → Option (γ r × σ)} {grow : σ → κ → σ}

theorem answers_ask {r : ρ} {k : γ r → Prog ρ γ ε α} {s s' : σ} {x : γ r}
    (h : serve s r = some (x, s')) :
    answers serve (.ask r k) s = ⟨r, x⟩ :: answers serve (k x) s' := by
  rw [answers, h]

theorem answered_serve {r : ρ} {k : γ r → Prog ρ γ ε α} {s s' : σ} {x : γ r}
    (h : serve s r = some (x, s')) :
    answered serve (s, .ask r k) (.serve : ServerAct κ) = [⟨r, x⟩] := by
  show answer serve s (.ask r k) = _
  rw [answer, h]

theorem transcript_cons {env : σ → κ → Option σ} {t t' : σ × Prog ρ γ ε α} {a : ServerAct κ}
    (h : (server serve env t.1 t.2).step t a = some t') (as : List (ServerAct κ)) :
    transcript serve env t (a :: as) = answered serve t a ++ transcript serve env t' as := by
  rw [transcript, h]

/-- An answer lasts, however much comes. -/
theorem Lasting.foldl (h : Lasting serve grow) {s s' : σ} {r : ρ} {x : γ r}
    (hx : serve s r = some (x, s')) (es : List κ) :
    serve (es.foldl grow s) r = some (x, es.foldl grow s') := by
  induction es generalizing s s' with
  | nil => exact hx
  | cons e es ih => exact ih (h s e r x s' hx)

/-- More input, more answers. -/
theorem Lasting.answers_prefix (h : Lasting serve grow) (p : Prog ρ γ ε α) (s : σ)
    (es : List κ) : answers serve p s <+: answers serve p (es.foldl grow s) := by
  induction p generalizing s with
  | done a => exact List.prefix_rfl
  | fail e => exact List.prefix_rfl
  | ask r k ih =>
      cases hx : serve s r with
      | none =>
          rw [answers, hx]
          exact List.nil_prefix
      | some found =>
          obtain ⟨x, s'⟩ := found
          rw [answers_ask hx, answers_ask (h.foldl hx es)]
          exact List.prefix_cons_inj _ |>.mpr (ih x s')

/-- **When the input comes does not matter**: the answers of a run, and those
that are still to come, are the ones that the program gets when all the input
of the run is there from the start; so are its result and what is left. -/
theorem answers_of_exec (h : Lasting serve grow) {s₀ : σ} {p₀ : Prog ρ γ ε α}
    {t t' : σ × Prog ρ γ ε α} {as : List (ServerAct κ)}
    (hrun : (server serve (fun s e => some (grow s e)) s₀ p₀).exec t as = some t') :
    answers serve t.2 ((inputs as).foldl grow t.1)
        = transcript serve (fun s e => some (grow s e)) t as ++ answers serve t'.2 t'.1 ∧
      run serve t.2 ((inputs as).foldl grow t.1) = run serve t'.2 t'.1 := by
  induction as generalizing t with
  | nil =>
      cases hrun
      exact ⟨rfl, rfl⟩
  | cons a as ih =>
      obtain ⟨u, hu, hrest⟩ := Machine.exec_cons_eq_some.mp hrun
      obtain ⟨hanswers, hresult⟩ := ih hrest
      rw [transcript_cons hu]
      obtain ⟨s, p⟩ := t
      cases a with
      | env e =>
          cases hu
          exact ⟨hanswers, hresult⟩
      | serve =>
          cases p with
          | done a => cases hu
          | fail e => cases hu
          | ask r k =>
              obtain ⟨⟨x, s'⟩, hx, rfl⟩ := Option.map_eq_some_iff.mp hu
              have hall := h.foldl hx (inputs as)
              constructor
              · rw [inputs, answers_ask hall, hanswers, answered_serve hx]
                rfl
              · rw [inputs, run_ask hall, hresult]

/-! ## As long as nothing is spoiled -/

/-- The others act within `G`. -/
def Within (G : σ → κ → Prop) : σ × Prog ρ γ ε α → ServerAct κ → Prop
  | t, .env e => G t.1 e
  | _, .serve => True

instance [∀ s e, Decidable (G s e)] (t : σ × Prog ρ γ ε α) (a : ServerAct κ) :
    Decidable (Within G t a) :=
  match a with
  | .env e => inferInstanceAs (Decidable (G t.1 e))
  | .serve => .isTrue trivial

/-- A run against one object is a run against another that it simulates, with
the same answers. -/
theorem exec_simulates {τ : Type} {serve' : τ → (r : ρ) → Option (γ r × τ)}
    {env : σ → κ → Option σ} {env' : τ → κ → Option τ} {R : σ → τ → Prop} {G : σ → κ → Prop}
    (hsim : Simulates serve serve' R)
    (henv : ∀ s t e s', R s t → G s e → env s e = some s' → ∃ t', env' t e = some t' ∧ R s' t')
    {s s' s₀ : σ} {t t₀ : τ} {p p' p₀ : Prog ρ γ ε α} (h : R s t) {as : List (ServerAct κ)}
    (hrun : (server serve env s₀ p₀).exec (s, p) as = some (s', p'))
    (hg : (server serve env s₀ p₀).Guarded (Within G) (s, p) as) :
    ∃ t', R s' t' ∧ (server serve' env' t₀ p₀).exec (t, p) as = some (t', p') ∧
      transcript serve env (s, p) as = transcript serve' env' (t, p) as := by
  induction as generalizing s t p with
  | nil =>
      cases hrun
      exact ⟨t, h, rfl, rfl⟩
  | cons a as ih =>
      obtain ⟨⟨u, pu⟩, hu, hrest⟩ := Machine.exec_cons_eq_some.mp hrun
      obtain ⟨hga, hgs⟩ := hg _ hu
      have hstep : ∃ v, R u v ∧ (server serve' env' t₀ p₀).step (t, p) a = some (v, pu) ∧
          answered serve (s, p) a = answered serve' (t, p) a := by
        cases a with
        | env e =>
            obtain ⟨w, hw, heq⟩ := Option.map_eq_some_iff.mp hu
            cases heq
            obtain ⟨v, hv, hR⟩ := henv s t e u h hga hw
            exact ⟨v, hR, Option.map_eq_some_iff.mpr ⟨v, hv, rfl⟩, rfl⟩
        | serve =>
            cases p with
            | done a => cases hu
            | fail e => cases hu
            | ask r k =>
                obtain ⟨⟨x, w⟩, hx, heq⟩ := Option.map_eq_some_iff.mp hu
                cases heq
                have hr := hsim s t r h
                cases hx' : serve' t r with
                | none =>
                    rw [hx'] at hr
                    cases hr.symm.trans hx
                | some found =>
                    obtain ⟨y, v⟩ := found
                    rw [hx'] at hr
                    obtain ⟨w, hw, hR⟩ := hr
                    cases hw.symm.trans hx
                    refine ⟨v, hR, Option.map_eq_some_iff.mpr ⟨_, hx', rfl⟩, ?_⟩
                    rw [answered_serve hx, answered_serve hx']
      obtain ⟨v, hR, hv, hanswered⟩ := hstep
      obtain ⟨t', hR', hexec, htranscript⟩ := ih hR hrest hgs
      refine ⟨t', hR', Machine.exec_cons_eq_some.mpr ⟨(v, pu), hv, hexec⟩, ?_⟩
      rw [transcript_cons hu, transcript_cons hv, hanswered, htranscript]

end HpLib.Lib.Prog
