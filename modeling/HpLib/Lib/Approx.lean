import HpLib.Lib.Stream

/-!
# Programs cut short

A loop that does not end is a program for every number of rounds, which fails
with one error where it would go on. `Approx e p q` says that `p` is `q` with
some of it cut off, and `e` in its place. Two ways to write a loop are the
same where each of them, with rounds enough, has all that the other has.

What `p` does in a run `q` does as well, whoever else acts on the object and
when (`Approx.exec`).
-/

namespace HpLib.Lib.Prog

variable {ρ : Type} {γ : ρ → Type} {ε α β σ κ : Type}

inductive Approx (e : ε) : Prog ρ γ ε α → Prog ρ γ ε α → Prop
  | cut (q : Prog ρ γ ε α) : Approx e (.fail e) q
  | done (a : α) : Approx e (.done a) (.done a)
  | fail (f : ε) : Approx e (.fail f) (.fail f)
  | ask (r : ρ) {k l : γ r → Prog ρ γ ε α} (h : ∀ x, Approx e (k x) (l x)) :
      Approx e (.ask r k) (.ask r l)

namespace Approx

variable {e : ε} {p q : Prog ρ γ ε α}

theorem refl (p : Prog ρ γ ε α) : Approx e p p := by
  induction p with
  | done a => exact .done a
  | fail f => exact .fail f
  | ask r k ih => exact .ask r ih

theorem trans {p q t : Prog ρ γ ε α} (hpq : Approx e p q) (hqt : Approx e q t) :
    Approx e p t := by
  induction hpq generalizing t with
  | cut q => exact .cut t
  | done a => exact hqt
  | fail f => exact hqt
  | ask r h ih =>
      cases hqt with
      | ask r h' => exact .ask r fun x => ih x (h' x)

/-- What follows a program may be cut short too. -/
theorem bind {f g : α → Prog ρ γ ε β} (h : Approx e p q) (hfg : ∀ a, Approx e (f a) (g a)) :
    Approx e (p >>= f) (q >>= g) := by
  induction h with
  | cut q => exact .cut (q >>= g)
  | done a => exact hfg a
  | fail f => exact .fail f
  | ask r h ih => exact .ask r ih

variable {serve : σ → (r : ρ) → Option (γ r × σ)} {env : σ → κ → Option σ}

/-- **A run of the shorter program** is one of the longer, with the same
answers. -/
theorem exec (h : Approx e p q) {s₀ : σ} {p₀ q₀ : Prog ρ γ ε α} {s : σ}
    {t : σ × Prog ρ γ ε α} {as : List (ServerAct κ)}
    (hrun : (server serve env s₀ p₀).exec (s, p) as = some t) :
    ∃ q', (server serve env s₀ q₀).exec (s, q) as = some (t.1, q') ∧ Approx e t.2 q' ∧
      transcript serve env (s, q) as = transcript serve env (s, p) as := by
  induction as generalizing s p q with
  | nil =>
      cases hrun
      exact ⟨q, rfl, h, rfl⟩
  | cons a as ih =>
      obtain ⟨⟨u, pu⟩, hu, hrest⟩ := Machine.exec_cons_eq_some.mp hrun
      have hstep : ∃ qu, (server serve env s₀ q₀).step (s, q) a = some (u, qu) ∧
          Approx e pu qu ∧ answered serve (s, q) a = answered serve (s, p) a := by
        cases a with
        | env c =>
            obtain ⟨w, hw, heq⟩ := Option.map_eq_some_iff.mp hu
            cases heq
            exact ⟨q, Option.map_eq_some_iff.mpr ⟨u, hw, rfl⟩, h, rfl⟩
        | serve =>
            cases h with
            | cut q => cases hu
            | done b => cases hu
            | fail f => cases hu
            | ask r h =>
                obtain ⟨⟨x, w⟩, hx, heq⟩ := Option.map_eq_some_iff.mp hu
                cases heq
                refine ⟨_, Option.map_eq_some_iff.mpr ⟨_, hx, rfl⟩, h x, ?_⟩
                rw [answered_serve hx, answered_serve hx]
      obtain ⟨qu, hqu, happrox, hanswered⟩ := hstep
      obtain ⟨q', hexec, hleft, htranscript⟩ := ih happrox hrest
      refine ⟨q', Machine.exec_cons_eq_some.mpr ⟨(u, qu), hqu, hexec⟩, hleft, ?_⟩
      rw [transcript_cons hqu, transcript_cons hu, hanswered, htranscript]

end Approx

end HpLib.Lib.Prog
