import HpLib.Lib.Monitor

/-!
# Monitors: calls in the order in which they take effect

A call of a monitor spreads over many steps, but it changes the object in
one of them. `effects` lists these steps of a run, each with the object that
it found. The list is a sequential history: the calls could have been made
one after the other, each on what the one before it left, and each request
was ready when it was served (`sequential_of_run`); and the calls of a thread
stand in it once each, in the order in which the thread made them
(`program_order`). So what threads get out of the object is what one thread
would get that makes the calls in this order.
-/

namespace HpLib.Lib.Monitor

/-- A call as the object sees it. -/
inductive Op (ρ ω κ : Type*) where
  | serve (r : ρ)
  | update (w : ω)
  | quiet (k : κ)
  deriving DecidableEq

/-- A call that took effect, its thread, and the object it found. -/
structure Effect (ι σ ρ ω κ : Type*) where
  thread : ι
  op : Op ρ ω κ
  before : σ

variable {ι σ ρ ω κ : Type*}

/-- The call that a thread is in, as long as it has had no effect. -/
def Pc.pending : Pc ρ ω κ → List (Op ρ ω κ)
  | .testing r | .serving r | .asleep r | .woken r => [.serve r]
  | .updating w => [.update w]
  | .quieting k => [.quiet k]
  | .outside | .notifying | .leaving => []

@[simp] theorem Pc.pending_wake (p : Pc ρ ω κ) : p.wake.pending = p.pending := by
  cases p <;> rfl

/-- A thread is in one call at a time. -/
theorem Pc.pending_eq_of_mem {p : Pc ρ ω κ} {op : Op ρ ω κ} (h : op ∈ p.pending) :
    p.pending = [op] := by
  cases p <;> simp only [pending, List.mem_singleton, List.not_mem_nil] at h <;> rw [h, pending]

/-- What a call does on its own; a request is served when it is ready. -/
def applyOp (M : Monitor σ ρ ω κ) (o : σ) : Op ρ ω κ → Option σ
  | .serve r => if M.ready o r then M.serve o r else none
  | .update w => M.update o w
  | .quiet k => M.quiet o k

/-- The calls one after the other, from `o` to `o'`. -/
def Sequential (M : Monitor σ ρ ω κ) : σ → List (Effect ι σ ρ ω κ) → σ → Prop
  | o, [], o' => o' = o
  | o, e :: es, o' => e.before = o ∧ ∃ o₁, M.applyOp o e.op = some o₁ ∧ Sequential M o₁ es o'

variable [DecidableEq ι]

/-- The call of thread `t` that an action begins. -/
def Act.begins (t : ι) : Act ι ρ ω κ → List (Op ρ ω κ)
  | .wait u r => if u = t then [.serve r] else []
  | .update u w => if u = t then [.update w] else []
  | .quiet u k => if u = t then [.quiet k] else []
  | .go _ | .spurious _ => []

/-- The calls that `t` begins, in its order. -/
def begun (t : ι) (as : List (Act ι ρ ω κ)) : List (Op ρ ω κ) :=
  as.flatMap (Act.begins t)

/-- The calls of `t` among those that took effect. -/
def opsOf (t : ι) (es : List (Effect ι σ ρ ω κ)) : List (Op ρ ω κ) :=
  (es.filter fun e => e.thread = t).map Effect.op

theorem opsOf_append (t : ι) (es fs : List (Effect ι σ ρ ω κ)) :
    opsOf t (es ++ fs) = opsOf t es ++ opsOf t fs := by
  rw [opsOf, List.filter_append, List.map_append]
  rfl

/-- The effect of an action, if it has one. -/
def State.effect (s : State ι σ ρ ω κ) : Act ι ρ ω κ → List (Effect ι σ ρ ω κ)
  | .go t =>
      match s.pc t with
      | .serving r => [⟨t, .serve r, s.obj⟩]
      | .updating w => [⟨t, .update w, s.obj⟩]
      | .quieting k => [⟨t, .quiet k, s.obj⟩]
      | _ => []
  | .wait _ _ | .update _ _ | .quiet _ _ | .spurious _ => []

/-- The effects of a run, as far as its actions are enabled. -/
def effects (M : Monitor σ ρ ω κ) :
    State ι σ ρ ω κ → List (Act ι ρ ω κ) → List (Effect ι σ ρ ω κ)
  | _, [] => []
  | s, a :: as =>
      match s.step M a with
      | some s' => s.effect a ++ effects M s' as
      | none => []

theorem effects_cons {M : Monitor σ ρ ω κ} {s s' : State ι σ ρ ω κ} {a : Act ι ρ ω κ}
    (hs : s.step M a = some s') (as : List (Act ι ρ ω κ)) :
    effects M s (a :: as) = s.effect a ++ effects M s' as := by
  rw [effects, hs]

/-! ## One thread at a time -/

/-- The thread inside is the one that holds the mutex, and a request that is
being served is ready. -/
structure Exclusive (M : Monitor σ ρ ω κ) (s : State ι σ ρ ω κ) : Prop where
  inside_iff : ∀ t, (s.pc t).inside = true ↔ s.holder = some t
  ready : ∀ t r, s.pc t = .serving r → M.ready s.obj r = true

variable {M : Monitor σ ρ ω κ} {s s' : State ι σ ρ ω κ} {a : Act ι ρ ω κ} {t : ι}
  {p : Pc ρ ω κ} {o : σ}

theorem Exclusive.init : Exclusive M (M.machine ι).init where
  inside_iff := by
    intro t
    constructor <;> intro h <;> cases h
  ready := nofun

omit [DecidableEq ι] in
/-- Who does not hold the mutex is not being served. -/
theorem Exclusive.not_serving (h : Exclusive M s) {u : ι} (hu : s.holder ≠ some u) (r : ρ) :
    s.pc u ≠ .serving r := by
  intro hpc
  exact hu ((h.inside_iff u).mp (by rw [hpc]; rfl))

/-- The thread that holds the mutex, or takes it while it is free, moves on
and is inside. -/
theorem Exclusive.hold (h : Exclusive M s) (hown : ∀ u, u ≠ t → s.holder ≠ some u)
    (hp : p.inside = true) (hready : ∀ r, p = .serving r → M.ready o r = true) :
    Exclusive M { s with obj := o, holder := some t, pc := Function.update s.pc t p } where
  inside_iff := by
    intro u
    by_cases hut : u = t
    · subst hut
      simp [hp]
    · simp only [Function.update_of_ne hut, h.inside_iff, Option.some.injEq]
      exact ⟨fun hu => absurd hu (hown u hut), fun hu => absurd hu.symm hut⟩
  ready := by
    intro u r hu
    by_cases hut : u = t
    · subst hut
      exact hready r (by simpa using hu)
    · exact absurd (by simpa [hut] using hu) (h.not_serving (hown u hut) r)

/-- It gives the mutex back. -/
theorem Exclusive.release (h : Exclusive M s) (ht : (s.pc t).inside = true)
    (hp : p.inside = false) :
    Exclusive M { s with holder := none, pc := Function.update s.pc t p } where
  inside_iff := by
    intro u
    by_cases hut : u = t
    · subst hut
      simp [hp]
    · simp only [Function.update_of_ne hut, h.inside_iff, (h.inside_iff t).mp ht,
        Option.some.injEq, reduceCtorEq, iff_false]
      exact fun hu => hut hu.symm
  ready := by
    intro u r hu
    by_cases hut : u = t
    · subst hut
      simp only [Function.update_self] at hu
      rw [hu] at hp
      cases hp
    · exact h.ready u r (by simpa [hut] using hu)

omit [DecidableEq ι] in
/-- Threads outside move about there. -/
theorem Exclusive.wander (h : Exclusive M s) {pc : ι → Pc ρ ω κ}
    (hpc : ∀ u, pc u = s.pc u ∨ (pc u).inside = false ∧ (s.pc u).inside = false) :
    Exclusive M { s with pc := pc } where
  inside_iff := by
    intro u
    show (pc u).inside = true ↔ s.holder = some u
    rw [← h.inside_iff]
    rcases hpc u with heq | ⟨hout, hout'⟩
    · rw [heq]
    · rw [hout, hout']
  ready := by
    intro u r hu
    rcases hpc u with heq | ⟨hout, -⟩
    · exact h.ready u r (heq.symm.trans hu)
    · rw [show pc u = .serving r from hu] at hout
      cases hout

theorem Exclusive.lock (h : Exclusive M s) (hs : s.lock t p = some s')
    (hp : p.inside = true) (hready : ∀ r, p ≠ .serving r) : Exclusive M s' := by
  rw [State.lock] at hs
  split at hs <;> cases hs
  rename_i hfree
  exact h.hold (o := s.obj) (fun u _ hu => by rw [hfree] at hu; cases hu) hp
    (fun r hr => absurd hr (hready r))

theorem Exclusive.enter (h : Exclusive M s) (hs : s.enter t p = some s')
    (hp : p.inside = true) (hready : ∀ r, p ≠ .serving r) : Exclusive M s' := by
  rw [State.enter] at hs
  split at hs
  · exact h.lock hs hp hready
  · cases hs

/-- The thread that is inside moves on and stays there. -/
theorem Exclusive.stay (h : Exclusive M s) (ht : (s.pc t).inside = true)
    (hp : p.inside = true) (hready : ∀ r, p = .serving r → M.ready o r = true) :
    Exclusive M { s with obj := o, pc := Function.update s.pc t p } := by
  have hown := (h.inside_iff t).mp ht
  have hheld := h.hold (t := t) (p := p) (o := o) (fun u hut hu => by
    rw [hown] at hu
    exact hut (Option.some.inj hu).symm) hp hready
  rw [← hown] at hheld
  exact hheld

theorem Exclusive.go (h : Exclusive M s) (hs : s.go M t = some s') : Exclusive M s' := by
  rw [State.go] at hs
  split at hs
  · rename_i r hpc
    split at hs <;> rename_i hready <;> cases hs
    · exact h.stay (o := s.obj) (by rw [hpc]; rfl) rfl fun r' hr => by cases hr; exact hready
    · exact h.release (by rw [hpc]; rfl) rfl
  · rename_i r hpc
    obtain ⟨o, -, rfl⟩ := Option.map_eq_some_iff.mp hs
    exact h.stay (by rw [hpc]; rfl) rfl fun _ hr => by cases hr
  · exact h.lock hs rfl fun _ hr => by cases hr
  · rename_i w hpc
    obtain ⟨o, -, rfl⟩ := Option.map_eq_some_iff.mp hs
    exact h.stay (by rw [hpc]; rfl) rfl fun _ hr => by cases hr
  · rename_i hpc
    cases hs
    have hwoken : Exclusive M { s with pc := fun u => (s.pc u).wake } := by
      apply h.wander
      intro u
      cases hu : s.pc u with
      | asleep r => exact .inr ⟨rfl, rfl⟩
      | _ => exact .inl rfl
    exact hwoken.stay (o := s.obj) (t := t) (p := .leaving)
      (by show (s.pc t).wake.inside = true; rw [hpc]; rfl) rfl fun _ hr => by cases hr
  · rename_i k hpc
    obtain ⟨o, -, rfl⟩ := Option.map_eq_some_iff.mp hs
    exact h.stay (by rw [hpc]; rfl) rfl fun _ hr => by cases hr
  · rename_i hpc
    cases hs
    exact h.release (by rw [hpc]; rfl) rfl
  · cases hs
  · cases hs

/-- **One step** keeps the threads apart. -/
theorem Exclusive.step (h : Exclusive M s) (hs : s.step M a = some s') : Exclusive M s' := by
  cases a with
  | wait t r => exact h.enter hs rfl nofun
  | update t w => exact h.enter hs rfl nofun
  | quiet t k => exact h.enter hs rfl nofun
  | go t => exact h.go hs
  | spurious t =>
      rw [State.step, State.spurious] at hs
      split at hs <;> cases hs
      rename_i r hpc
      apply h.wander
      intro u
      by_cases hut : u = t
      · subst hut
        exact .inr ⟨by rw [Function.update_self]; rfl, by rw [hpc]; rfl⟩
      · exact .inl (Function.update_of_ne hut ..)

omit [DecidableEq ι] in
theorem Sequential.append {o o₁ o' : σ} {es fs : List (Effect ι σ ρ ω κ)}
    (h : Sequential M o es o₁) (h' : Sequential M o₁ fs o') : Sequential M o (es ++ fs) o' := by
  induction es generalizing o with
  | nil =>
      rw [show o₁ = o from h] at h'
      exact h'
  | cons e es ih =>
      obtain ⟨hbefore, o₂, ho₂, hrest⟩ := h
      exact ⟨hbefore, o₂, ho₂, ih hrest⟩

omit [DecidableEq ι] in
theorem sequential_one {e : Effect ι σ ρ ω κ} {o' : σ} (h : M.applyOp e.before e.op = some o') :
    Sequential M e.before [e] o' :=
  ⟨rfl, o', h, rfl⟩

theorem State.lock_obj (hs : s.lock t p = some s') : s'.obj = s.obj := by
  rw [State.lock] at hs
  split at hs <;> cases hs
  rfl

theorem State.enter_obj (hs : s.enter t p = some s') : s'.obj = s.obj := by
  rw [State.enter] at hs
  split at hs
  · exact State.lock_obj hs
  · cases hs

/-- Only an effect changes the object, and as the call does on its own. -/
theorem Exclusive.sequential_step (h : Exclusive M s) (hs : s.step M a = some s') :
    Sequential M s.obj (s.effect a) s'.obj := by
  cases a with
  | wait t r => exact State.enter_obj hs
  | update t w => exact State.enter_obj hs
  | quiet t k => exact State.enter_obj hs
  | spurious t =>
      rw [State.step, State.spurious] at hs
      split at hs <;> cases hs
      rfl
  | go t =>
      rw [State.step, State.go] at hs
      rw [State.effect]
      split at hs <;> rename_i hpc <;> simp only [hpc]
      · split at hs <;> cases hs <;> rfl
      · obtain ⟨o, ho, rfl⟩ := Option.map_eq_some_iff.mp hs
        apply sequential_one
        rw [applyOp, if_pos (h.ready t _ hpc)]
        exact ho
      · exact State.lock_obj hs
      · obtain ⟨o, ho, rfl⟩ := Option.map_eq_some_iff.mp hs
        exact sequential_one ho
      · cases hs
        rfl
      · obtain ⟨o, ho, rfl⟩ := Option.map_eq_some_iff.mp hs
        exact sequential_one ho
      · cases hs
        rfl
      · cases hs
      · cases hs

/-- **The effects of a run are a sequential history** of the object. -/
theorem sequential_of_run {as : List (Act ι ρ ω κ)} (h : Exclusive M s)
    (hrun : (M.machine ι).exec s as = some s') : Sequential M s.obj (effects M s as) s'.obj := by
  induction as generalizing s with
  | nil =>
      cases hrun
      rfl
  | cons a as ih =>
      obtain ⟨u, hu, hrest⟩ := Machine.exec_cons_eq_some.mp hrun
      have hstep : s.step M a = some u := hu
      rw [effects_cons hstep]
      exact (h.sequential_step hstep).append (ih (h.step hstep) hrest)

/-! ## Every call once, in the order of its thread -/

theorem pending_update {pc : ι → Pc ρ ω κ} (hpc : ∀ u, (pc u).pending = (s.pc u).pending) (u : ι) :
    (Function.update pc t p u).pending = if t = u then p.pending else (s.pc u).pending := by
  by_cases hut : t = u
  · subst hut
    rw [Function.update_self, if_pos rfl]
  · rw [Function.update_of_ne (Ne.symm hut), if_neg hut]
    exact hpc u

theorem opsOf_one (u : ι) (op : Op ρ ω κ) :
    opsOf u [(⟨t, op, o⟩ : Effect ι σ ρ ω κ)] = if t = u then [op] else [] := by
  by_cases hut : t = u <;> simp [opsOf, hut]

theorem State.lock_pending (hs : s.lock t p = some s') (u : ι) :
    (s'.pc u).pending = if t = u then p.pending else (s.pc u).pending := by
  rw [State.lock] at hs
  split at hs <;> cases hs
  exact pending_update (fun _ => rfl) u

theorem State.enter_pending (hs : s.enter t p = some s') (u : ι) :
    (s'.pc u).pending = if t = u then p.pending else (s.pc u).pending := by
  rw [State.enter] at hs
  split at hs
  · exact State.lock_pending hs u
  · cases hs

theorem State.enter_outside (hs : s.enter t p = some s') : s.pc t = .outside := by
  rw [State.enter] at hs
  split at hs
  · assumption
  · cases hs

/-- A call begins with nothing pending. -/
theorem State.enter_begins (hs : s.enter t p = some s') (u : ι) :
    (s.pc u).pending ++ (if t = u then p.pending else []) = (s'.pc u).pending := by
  rw [State.enter_pending hs]
  by_cases hut : t = u
  · subst hut
    rw [if_pos rfl, if_pos rfl, State.enter_outside hs]
    rfl
  · rw [if_neg hut, if_neg hut, List.append_nil]

/-- What is pending or begins takes effect or is pending afterwards. -/
theorem State.pending_step (hs : s.step M a = some s') (u : ι) :
    (s.pc u).pending ++ a.begins u = opsOf u (s.effect a) ++ (s'.pc u).pending := by
  cases a with
  | wait t r => exact State.enter_begins hs u
  | update t w => exact State.enter_begins hs u
  | quiet t k => exact State.enter_begins hs u
  | spurious t =>
      rw [State.step, State.spurious] at hs
      split at hs <;> cases hs
      rename_i r hpc
      simp only [Act.begins, List.append_nil, State.effect, opsOf, List.filter_nil, List.map_nil,
        List.nil_append, pending_update (fun _ => rfl)]
      by_cases hut : t = u
      · subst hut
        rw [if_pos rfl, hpc]
        rfl
      · rw [if_neg hut]
  | go t =>
      rw [State.step, State.go] at hs
      rw [State.effect, Act.begins, List.append_nil]
      have hkeep : ∀ {q : Pc ρ ω κ} {pc : ι → Pc ρ ω κ},
          (∀ v, (pc v).pending = (s.pc v).pending) → q.pending = (s.pc t).pending →
          (s.pc u).pending = (Function.update pc t q u).pending := by
        intro q pc hpc hq
        rw [pending_update hpc]
        by_cases hut : t = u
        · subst hut
          rw [if_pos rfl, hq]
        · rw [if_neg hut]
      have htake : ∀ {op : Op ρ ω κ} {q : Pc ρ ω κ}, (s.pc t).pending = [op] → q.pending = [] →
          (s.pc u).pending = opsOf u [(⟨t, op, s.obj⟩ : Effect ι σ ρ ω κ)]
            ++ (Function.update s.pc t q u).pending := by
        intro op q hop hq
        rw [opsOf_one, pending_update (fun _ => rfl)]
        by_cases hut : t = u
        · subst hut
          rw [if_pos rfl, if_pos rfl, hop, hq]
          rfl
        · rw [if_neg hut, if_neg hut]
          rfl
      split at hs <;> rename_i hpc <;> simp only [hpc]
      · split at hs <;> cases hs
        · exact hkeep (fun _ => rfl) (by rw [hpc]; rfl)
        · exact hkeep (fun _ => rfl) (by rw [hpc]; rfl)
      · obtain ⟨o, -, rfl⟩ := Option.map_eq_some_iff.mp hs
        exact htake (by rw [hpc]; rfl) rfl
      · rw [State.lock] at hs
        split at hs <;> cases hs
        exact hkeep (fun _ => rfl) (by rw [hpc]; rfl)
      · obtain ⟨o, -, rfl⟩ := Option.map_eq_some_iff.mp hs
        exact htake (by rw [hpc]; rfl) rfl
      · cases hs
        exact hkeep (fun v => (s.pc v).pending_wake) (by rw [hpc]; rfl)
      · obtain ⟨o, -, rfl⟩ := Option.map_eq_some_iff.mp hs
        exact htake (by rw [hpc]; rfl) rfl
      · cases hs
        exact hkeep (fun _ => rfl) (by rw [hpc]; rfl)
      · cases hs
      · cases hs

/-- **Program order**: the calls of a thread take effect once each and in the
order in which it makes them, the one it is in last. -/
theorem program_order {as : List (Act ι ρ ω κ)} (hrun : (M.machine ι).exec s as = some s')
    (u : ι) :
    (s.pc u).pending ++ begun u as = opsOf u (effects M s as) ++ (s'.pc u).pending := by
  induction as generalizing s with
  | nil =>
      cases hrun
      exact List.append_nil _
  | cons a as ih =>
      obtain ⟨v, hv, hrest⟩ := Machine.exec_cons_eq_some.mp hrun
      have hstep : s.step M a = some v := hv
      rw [effects_cons hstep, opsOf_append, List.append_assoc, ← ih hrest, ← List.append_assoc,
        ← State.pending_step hstep u, List.append_assoc]
      rfl

end HpLib.Lib.Monitor
