import HpLib.Lib.Table

/-!
# Dispatchers

An object that keeps function objects under keys and passes what is sent to
a key on to the function there. `Lawful` is the law such an object is meant
to keep over a sequence of calls: a send follows the latest registration of
its key, a send nobody is registered for comes back as a failure, and sends
register nothing.

The last section is about dispatchers that look the function up with
`Table.subscript`, which can put an empty function into the table. They keep
the law exactly on the sequences whose sends are all `Served`.
-/

namespace HpLib.Lib

/-- Call a function object; `none` is the empty one, which throws. -/
def callFunction {γ μ ω ε : Type*} (badCall : ε) (body : γ → μ → ω → Except ε Unit × ω) :
    Option γ → μ → ω → Except ε Unit × ω
  | none, _, w => (.error badCall, w)
  | some g, x, w => body g x w

/-- Note that a function was invoked, and with what. -/
def record {γ μ ε : Type*} (g : γ) (x : μ) (w : List (γ × μ)) : Except ε Unit × List (γ × μ) :=
  (.ok (), w ++ [(g, x)])

namespace Dispatch

/-- What a call on a dispatcher asks for. The functions are `γ`, and `μ` is
what they are invoked with. -/
inductive Call (κ γ μ : Type*) where
  | add (k : κ) (f : Option γ)
  | remove (k : κ)
  | send (k : κ) (x : μ)

/-- What a call invoked, and what it returned or threw. -/
structure Outcome (γ μ ρ ε : Type*) where
  invoked : List (γ × μ)
  returned : Except ε ρ

/-- `χ` are the calls, `meaning` what they ask for; `failure r` says that
the returned `r` reports a failure. -/
structure Dispatcher (σ χ κ γ μ ρ ε : Type*) where
  meaning : χ → Call κ γ μ
  call : σ → χ → Outcome γ μ ρ ε × σ
  present : σ → κ → Prop
  failure : ρ → Prop

variable {σ χ κ γ μ ρ ε : Type*} [DecidableEq κ]

/-- The latest registrations after a call, from those before it. -/
def Call.register (reg : Table κ (Option γ)) : Call κ γ μ → Table κ (Option γ)
  | .add k f => reg.assign k f
  | .remove k => reg.erase k
  | .send _ _ => reg

/-- What the outcome of a call has to be when `reg` are the latest
registrations before it. -/
def Call.Answered (failure : ρ → Prop) (reg : Table κ (Option γ)) (o : Outcome γ μ ρ ε) :
    Call κ γ μ → Prop
  | .add _ _ => True
  | .remove _ => True
  | .send k x =>
      match reg.find k with
      | some f => ∃ g, f = some g ∧ o.invoked = [(g, x)]
      | none => o.invoked = [] ∧ ∃ r, o.returned = .ok r ∧ failure r

def Call.IsSend : Call κ γ μ → Prop
  | .send _ _ => True
  | .add _ _ | .remove _ => False

/-- Every call of the sequence is answered, and no send changes which keys
are present. -/
def Dispatcher.Lawful (D : Dispatcher σ χ κ γ μ ρ ε) : σ → Table κ (Option γ) → List χ → Prop
  | _, _, [] => True
  | s, reg, c :: cs =>
      (D.meaning c).Answered D.failure reg (D.call s c).1 ∧
      ((D.meaning c).IsSend → ∀ k, D.present (D.call s c).2 k ↔ D.present s k) ∧
      D.Lawful (D.call s c).2 ((D.meaning c).register reg) cs

/-- The latest registration of the key of a send is one of a function that
is not empty. -/
def Call.Served (reg : Table κ (Option γ)) : Call κ γ μ → Prop
  | .send k _ => ∃ g, reg.find k = some (some g)
  | .add _ _ | .remove _ => True

/-- All sends of the sequence are. -/
def AllServed : Table κ (Option γ) → List (Call κ γ μ) → Prop
  | _, [] => True
  | reg, c :: cs => c.Served reg ∧ AllServed (c.register reg) cs

/-! ## Dispatchers that look up by subscript -/

/-- What a call does to the table of such a dispatcher. -/
def Call.effect (t : Table κ (Option γ)) : Call κ γ μ → Table κ (Option γ)
  | .add k f => t.assign k f
  | .remove k => t.erase k
  | .send k _ => (t.subscript k none).2

/-- `D` keeps its functions in `table` and looks them up by subscript. -/
structure Subscripts (D : Dispatcher σ χ κ γ μ ρ ε) (table : σ → Table κ (Option γ)) :
    Prop where
  present : ∀ s k, D.present s k ↔ (table s).Present k
  after : ∀ s c, table (D.call s c).2 = (D.meaning c).effect (table s)
  invokes : ∀ s c k x g, D.meaning c = .send k x → ((table s).subscript k none).1 = some g →
    (D.call s c).1.invoked = [(g, x)]
  throws : ∀ s c k x, D.meaning c = .send k x → ((table s).subscript k none).1 = none →
    (D.call s c).1.invoked = [] ∧ ∃ e, (D.call s c).1.returned = .error e

variable {D : Dispatcher σ χ κ γ μ ρ ε} {table : σ → Table κ (Option γ)}

/-- A served call leaves the latest registrations in the table. -/
theorem Call.Served.effect {c : Call κ γ μ} {t : Table κ (Option γ)} (h : c.Served t) :
    c.effect t = c.register t := by
  cases c with
  | add k f => rfl
  | remove k => rfl
  | send k x =>
      obtain ⟨g, hg⟩ := h
      show (t.subscript k none).2 = t
      rw [Table.subscript_of_some hg]

theorem Subscripts.answered_of_served (h : Subscripts D table) {s : σ} {c : χ}
    (hc : (D.meaning c).Served (table s)) :
    (D.meaning c).Answered D.failure (table s) (D.call s c).1 := by
  cases hm : D.meaning c with
  | add k f => trivial
  | remove k => trivial
  | send k x =>
      rw [hm] at hc
      obtain ⟨g, hg⟩ := hc
      have hinv := h.invokes s c k x g hm (by rw [Table.subscript_of_some hg])
      simp only [Call.Answered, hg]
      exact ⟨g, rfl, hinv⟩

/-- A send that is not served throws, or has no function to invoke. -/
theorem Subscripts.served_of_answered (h : Subscripts D table) {s : σ} {c : χ}
    (hc : (D.meaning c).Answered D.failure (table s) (D.call s c).1) :
    (D.meaning c).Served (table s) := by
  cases hm : D.meaning c with
  | add k f => trivial
  | remove k => trivial
  | send k x =>
      rw [hm] at hc
      cases hfind : (table s).find k with
      | some f =>
          simp only [Call.Answered, hfind] at hc
          obtain ⟨g, rfl, -⟩ := hc
          exact ⟨g, hfind⟩
      | none =>
          simp only [Call.Answered, hfind] at hc
          obtain ⟨-, r, hr, -⟩ := hc
          obtain ⟨-, e, he⟩ := h.throws s c k x hm (by rw [Table.subscript_of_none hfind])
          rw [he] at hr
          cases hr

theorem Subscripts.present_of_served (h : Subscripts D table) {s : σ} {c : χ}
    (hc : (D.meaning c).Served (table s)) (hsend : (D.meaning c).IsSend) (k : κ) :
    D.present (D.call s c).2 k ↔ D.present s k := by
  rw [h.present, h.present, h.after, hc.effect]
  cases hm : D.meaning c with
  | send l x => exact Iff.rfl
  | add l f =>
      rw [hm] at hsend
      exact hsend.elim
  | remove l =>
      rw [hm] at hsend
      exact hsend.elim

/-- **The law holds exactly on the served sequences.** -/
theorem Subscripts.lawful_iff (h : Subscripts D table) {s : σ} {reg : Table κ (Option γ)}
    (hs : table s = reg) (cs : List χ) :
    D.Lawful s reg cs ↔ AllServed reg (cs.map D.meaning) := by
  induction cs generalizing s reg with
  | nil => exact Iff.rfl
  | cons c cs ih =>
      subst hs
      have hnext : (D.meaning c).Served (table s) →
          table (D.call s c).2 = (D.meaning c).register (table s) := by
        intro hc
        rw [h.after, hc.effect]
      constructor
      · intro hlaw
        obtain ⟨hans, -, hrest⟩ := hlaw
        have hc := h.served_of_answered hans
        exact ⟨hc, (ih (hnext hc)).mp hrest⟩
      · intro hserved
        obtain ⟨hc, hrest⟩ := hserved
        exact ⟨h.answered_of_served hc, h.present_of_served hc, (ih (hnext hc)).mpr hrest⟩

end Dispatch

end HpLib.Lib
