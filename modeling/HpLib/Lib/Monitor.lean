import HpLib.Lib.Machine
import Mathlib.Logic.Function.Basic

/-!
# Monitors

An object behind a mutex, with one condition variable. A waiter takes the
mutex, and as long as its request is not ready it gives the mutex back and
sleeps, in one step; an updater changes the object and then wakes everybody,
all under the mutex; a quiet call changes the object under the mutex and
wakes nobody. A sleeper may also wake up for no reason. Any number of threads
do any of this in any order.

A wake-up is lost when a thread sleeps on, with nobody about to wake it, on a
request that has become ready. `Sound` is the invariant that excludes it, and
all it asks of the object is that serving a waiter and a quiet call never
make a request ready.
-/

namespace HpLib.Lib

/-- What the threads do to the object. `none` is a call that goes wrong. -/
structure Monitor (σ ρ ω κ : Type*) where
  init : σ
  ready : σ → ρ → Bool
  serve : σ → ρ → Option σ
  update : σ → ω → Option σ
  quiet : σ → κ → Option σ

namespace Monitor

/-- Where a thread stands. -/
inductive Pc (ρ ω κ : Type*) where
  | outside
  | testing (r : ρ)
  | serving (r : ρ)
  | asleep (r : ρ)
  | woken (r : ρ)
  | updating (w : ω)
  | notifying
  | quieting (k : κ)
  | leaving

variable {ι σ ρ ω κ : Type*}

/-- The thread is in a critical section. -/
def Pc.inside : Pc ρ ω κ → Bool
  | .outside | .asleep _ | .woken _ => false
  | .testing _ | .serving _ | .updating _ | .notifying | .quieting _ | .leaving => true

/-- `notify_all`, as one sleeper sees it. -/
def Pc.wake : Pc ρ ω κ → Pc ρ ω κ
  | .asleep r => .woken r
  | p => p

@[simp] theorem Pc.inside_wake (p : Pc ρ ω κ) : p.wake.inside = p.inside := by
  cases p <;> rfl

/-- Nobody sleeps through it. -/
theorem Pc.wake_ne_asleep (p : Pc ρ ω κ) (r : ρ) : p.wake ≠ .asleep r := by
  cases p <;> nofun

structure State (ι σ ρ ω κ : Type*) where
  obj : σ
  holder : Option ι
  pc : ι → Pc ρ ω κ

inductive Act (ι ρ ω κ : Type*) where
  | wait (t : ι) (r : ρ)
  | update (t : ι) (w : ω)
  | quiet (t : ι) (k : κ)
  | go (t : ι)
  | spurious (t : ι)

variable [DecidableEq ι] (M : Monitor σ ρ ω κ)

namespace State

/-- A thread takes the free mutex and goes on at `p`. -/
def lock (s : State ι σ ρ ω κ) (t : ι) (p : Pc ρ ω κ) : Option (State ι σ ρ ω κ) :=
  match s.holder with
  | none => some { s with holder := some t, pc := Function.update s.pc t p }
  | some _ => none

/-- A thread begins a call. -/
def enter (s : State ι σ ρ ω κ) (t : ι) (p : Pc ρ ω κ) : Option (State ι σ ρ ω κ) :=
  match s.pc t with
  | .outside => s.lock t p
  | _ => none

/-- A thread that is in a call takes its next step. -/
def go (s : State ι σ ρ ω κ) (t : ι) : Option (State ι σ ρ ω κ) :=
  match s.pc t with
  | .testing r =>
      if M.ready s.obj r then some { s with pc := Function.update s.pc t (.serving r) }
      else some { s with holder := none, pc := Function.update s.pc t (.asleep r) }
  | .serving r =>
      (M.serve s.obj r).map fun o => { s with obj := o, pc := Function.update s.pc t .leaving }
  | .woken r => s.lock t (.testing r)
  | .updating w =>
      (M.update s.obj w).map fun o => { s with obj := o, pc := Function.update s.pc t .notifying }
  | .notifying => some { s with pc := Function.update (fun u => (s.pc u).wake) t .leaving }
  | .quieting k =>
      (M.quiet s.obj k).map fun o => { s with obj := o, pc := Function.update s.pc t .leaving }
  | .leaving => some { s with holder := none, pc := Function.update s.pc t .outside }
  | .outside | .asleep _ => none

/-- A sleeper wakes up for no reason. -/
def spurious (s : State ι σ ρ ω κ) (t : ι) : Option (State ι σ ρ ω κ) :=
  match s.pc t with
  | .asleep r => some { s with pc := Function.update s.pc t (.woken r) }
  | _ => none

def step (s : State ι σ ρ ω κ) : Act ι ρ ω κ → Option (State ι σ ρ ω κ)
  | .wait t r => s.enter t (.testing r)
  | .update t w => s.enter t (.updating w)
  | .quiet t k => s.enter t (.quieting k)
  | .go t => s.go M t
  | .spurious t => s.spurious t

end State

/-- The threads `ι`, all outside at first. -/
def machine (ι : Type*) [DecidableEq ι] : Machine (State ι σ ρ ω κ) (Act ι ρ ω κ) where
  init := { obj := M.init, holder := none, pc := fun _ => .outside }
  step := State.step M

/-! ## The steps by cases -/

/-- What a step leads to, and what was so before it. -/
inductive Taken (s : State ι σ ρ ω κ) : State ι σ ρ ω κ → Prop
  | locked (t : ι) (p : Pc ρ ω κ) (hfree : s.holder = none) (hout : (s.pc t).inside = false)
      (hp : ∀ r, p ≠ .asleep r) :
      Taken s { s with holder := some t, pc := Function.update s.pc t p }
  | ready (t : ι) (r : ρ) (hpc : s.pc t = .testing r) :
      Taken s { s with pc := Function.update s.pc t (.serving r) }
  | slept (t : ι) (r : ρ) (hpc : s.pc t = .testing r) (hwait : M.ready s.obj r = false) :
      Taken s { s with holder := none, pc := Function.update s.pc t (.asleep r) }
  | served (t : ι) (r : ρ) (o : σ) (hpc : s.pc t = .serving r) (ho : M.serve s.obj r = some o) :
      Taken s { s with obj := o, pc := Function.update s.pc t .leaving }
  | updated (t : ι) (w : ω) (o : σ) (hpc : s.pc t = .updating w)
      (ho : M.update s.obj w = some o) :
      Taken s { s with obj := o, pc := Function.update s.pc t .notifying }
  | notified (t : ι) (hpc : s.pc t = .notifying) :
      Taken s { s with pc := Function.update (fun u => (s.pc u).wake) t .leaving }
  | quieted (t : ι) (k : κ) (o : σ) (hpc : s.pc t = .quieting k) (ho : M.quiet s.obj k = some o) :
      Taken s { s with obj := o, pc := Function.update s.pc t .leaving }
  | left (t : ι) (hpc : s.pc t = .leaving) :
      Taken s { s with holder := none, pc := Function.update s.pc t .outside }
  | woke (t : ι) (r : ρ) (hpc : s.pc t = .asleep r) :
      Taken s { s with pc := Function.update s.pc t (.woken r) }

variable {M}

theorem State.lock_taken {s s' : State ι σ ρ ω κ} {t : ι} {p : Pc ρ ω κ}
    (hs : s.lock t p = some s') (hout : (s.pc t).inside = false) (hp : ∀ r, p ≠ .asleep r) :
    Taken M s s' := by
  rw [State.lock] at hs
  split at hs <;> cases hs
  rename_i hfree
  exact .locked t p hfree hout hp

theorem State.enter_taken {s s' : State ι σ ρ ω κ} {t : ι} {p : Pc ρ ω κ}
    (hs : s.enter t p = some s') (hp : ∀ r, p ≠ .asleep r) : Taken M s s' := by
  rw [State.enter] at hs
  split at hs
  · rename_i hpc
    exact State.lock_taken hs (by rw [hpc]; rfl) hp
  · cases hs

theorem State.taken {s s' : State ι σ ρ ω κ} {a : Act ι ρ ω κ} (hs : s.step M a = some s') :
    Taken M s s' := by
  cases a with
  | wait t r => exact State.enter_taken hs nofun
  | update t w => exact State.enter_taken hs nofun
  | quiet t k => exact State.enter_taken hs nofun
  | go t =>
      rw [State.step, State.go] at hs
      split at hs
      · rename_i r hpc
        split at hs <;> rename_i hready <;> cases hs
        · exact .ready t r hpc
        · exact .slept t r hpc (Bool.eq_false_iff.mpr hready)
      · rename_i r hpc
        obtain ⟨o, ho, rfl⟩ := Option.map_eq_some_iff.mp hs
        exact .served t r o hpc ho
      · rename_i r hpc
        exact State.lock_taken hs (by rw [hpc]; rfl) nofun
      · rename_i w hpc
        obtain ⟨o, ho, rfl⟩ := Option.map_eq_some_iff.mp hs
        exact .updated t w o hpc ho
      · rename_i hpc
        cases hs
        exact .notified t hpc
      · rename_i k hpc
        obtain ⟨o, ho, rfl⟩ := Option.map_eq_some_iff.mp hs
        exact .quieted t k o hpc ho
      · rename_i hpc
        cases hs
        exact .left t hpc
      · cases hs
      · cases hs
  | spurious t =>
      rw [State.step, State.spurious] at hs
      split at hs <;> cases hs
      rename_i r hpc
      exact .woke t r hpc

/-! ## No wake-up is lost -/

/-- Who is inside holds the mutex, and who sleeps on a request that is ready
will be woken by an updater that is still inside. -/
structure Sound (M : Monitor σ ρ ω κ) (I : σ → Prop) (s : State ι σ ρ ω κ) : Prop where
  inv : I s.obj
  owns : ∀ t, (s.pc t).inside = true → s.holder = some t
  asleep : ∀ t r, s.pc t = .asleep r → M.ready s.obj r = false ∨ ∃ u, s.pc u = .notifying

variable {I : σ → Prop} {s s' : State ι σ ρ ω κ} {t : ι} {p : Pc ρ ω κ} {o : σ}

theorem Sound.init (hI : I M.init) : Sound M I (M.machine ι).init where
  inv := hI
  owns := nofun
  asleep := nofun

omit [DecidableEq ι] in
/-- While one thread is inside, no other is. -/
theorem Sound.alone (h : Sound M I s) (ht : (s.pc t).inside = true) {u : ι} (hu : u ≠ t) :
    (s.pc u).inside = false := by
  by_contra hin
  have hboth := (h.owns u (by simpa using hin)).symm.trans (h.owns t ht)
  exact hu (Option.some.inj hboth)

/-- Only `t` moved, and it holds the mutex now if it is inside. -/
theorem owns_update {pc : ι → Pc ρ ω κ} {holder : Option ι}
    (hself : p.inside = true → holder = some t)
    (hrest : ∀ u, u ≠ t → (pc u).inside = true → holder = some u) (u : ι)
    (hu : (Function.update pc t p u).inside = true) : holder = some u := by
  by_cases hut : u = t
  · subst hut
    rw [Function.update_self] at hu
    exact hself hu
  · rw [Function.update_of_ne hut] at hu
    exact hrest u hut hu

/-- A thread that is inside, not to notify, moves on and readies no request. -/
theorem asleep_update (h : Sound M I s) (hnot : s.pc t ≠ .notifying)
    (hself : ∀ r, p = .asleep r → M.ready o r = false)
    (hmono : ∀ r, M.ready s.obj r = false → M.ready o r = false) (u : ι) (r : ρ)
    (hu : Function.update s.pc t p u = .asleep r) :
    M.ready o r = false ∨ ∃ v, Function.update s.pc t p v = .notifying := by
  by_cases hut : u = t
  · subst hut
    rw [Function.update_self] at hu
    exact .inl (hself r hu)
  · rw [Function.update_of_ne hut] at hu
    rcases h.asleep u r hu with hready | ⟨v, hv⟩
    · exact .inl (hmono r hready)
    · refine .inr ⟨v, ?_⟩
      have hvt : v ≠ t := by
        intro heq
        rw [heq] at hv
        exact hnot hv
      rw [Function.update_of_ne hvt]
      exact hv

/-- Who holds the mutex gives it back. -/
theorem Sound.owns_release (h : Sound M I s) (ht : (s.pc t).inside = true)
    (hp : p.inside = false) (u : ι) (hu : (Function.update s.pc t p u).inside = true) :
    (none : Option ι) = some u := by
  apply owns_update (t := t) (p := p) _ _ u hu
  · intro hin
    rw [hp] at hin
    cases hin
  · intro v hvt hv
    rw [h.alone ht hvt] at hv
    cases hv

/-- **One step** keeps the invariant, on an object whose updates keep `I`
and whose other calls also ready no request. -/
theorem Sound.step (hserve : ∀ o r o', I o → M.serve o r = some o' →
      I o' ∧ ∀ r', M.ready o r' = false → M.ready o' r' = false)
    (hupdate : ∀ o w o', I o → M.update o w = some o' → I o')
    (hquiet : ∀ o k o', I o → M.quiet o k = some o' →
      I o' ∧ ∀ r, M.ready o r = false → M.ready o' r = false)
    (h : Sound M I s) {a : Act ι ρ ω κ} (hs : s.step M a = some s') : Sound M I s' := by
  have hstay : ∀ {t p}, (s.pc t).inside = true → ∀ u,
      (Function.update s.pc t p u).inside = true → s.holder = some u := by
    intro t p hin u hu
    exact owns_update (fun _ => h.owns t hin) (fun u _ hu => h.owns u hu) u hu
  cases State.taken hs with
  | locked t p hfree hout hp =>
      have hnone : ∀ u, (s.pc u).inside ≠ true := by
        intro u hu
        rw [h.owns u hu] at hfree
        cases hfree
      constructor
      · exact h.inv
      · exact owns_update (fun _ => rfl) fun u _ hu => absurd hu (hnone u)
      · refine asleep_update h ?_ (fun r hr => absurd hr (hp r)) fun r hr => hr
        intro hnot
        rw [hnot] at hout
        cases hout
  | ready t r hpc =>
      constructor
      · exact h.inv
      · exact hstay (by rw [hpc]; rfl)
      · exact asleep_update h (by rw [hpc]; nofun) nofun fun r hr => hr
  | slept t r hpc hwait =>
      constructor
      · exact h.inv
      · exact h.owns_release (by rw [hpc]; rfl) rfl
      · apply asleep_update h (by rw [hpc]; nofun) _ fun r hr => hr
        intro r' hr
        cases hr
        exact hwait
  | served t r o hpc ho =>
      obtain ⟨hI, hmono⟩ := hserve s.obj r o h.inv ho
      constructor
      · exact hI
      · exact hstay (by rw [hpc]; rfl)
      · exact asleep_update h (by rw [hpc]; nofun) nofun hmono
  | updated t w o hpc ho =>
      constructor
      · exact hupdate s.obj w o h.inv ho
      · exact hstay (by rw [hpc]; rfl)
      · intro u r _
        exact .inr ⟨t, Function.update_self ..⟩
  | notified t hpc =>
      constructor
      · exact h.inv
      · apply owns_update fun _ => h.owns t (by rw [hpc]; rfl)
        intro u _ hu
        exact h.owns u (by rwa [Pc.inside_wake] at hu)
      · intro u r hu
        change Function.update (fun u => (s.pc u).wake) t .leaving u = .asleep r at hu
        by_cases hut : u = t
        · subst hut
          rw [Function.update_self] at hu
          cases hu
        · rw [Function.update_of_ne hut] at hu
          exact absurd hu (Pc.wake_ne_asleep _ r)
  | quieted t k o hpc ho =>
      obtain ⟨hI, hmono⟩ := hquiet s.obj k o h.inv ho
      constructor
      · exact hI
      · exact hstay (by rw [hpc]; rfl)
      · exact asleep_update h (by rw [hpc]; nofun) nofun hmono
  | left t hpc =>
      constructor
      · exact h.inv
      · exact h.owns_release (by rw [hpc]; rfl) rfl
      · exact asleep_update h (by rw [hpc]; nofun) nofun fun r hr => hr
  | woke t r hpc =>
      constructor
      · exact h.inv
      · exact owns_update nofun fun u _ hu => h.owns u hu
      · exact asleep_update h (by rw [hpc]; nofun) nofun fun r hr => hr

/-- **No run loses a wake-up**: with the mutex free, nobody sleeps on a
request that is ready. -/
theorem not_ready_of_asleep (hI : I M.init)
    (hserve : ∀ o r o', I o → M.serve o r = some o' →
      I o' ∧ ∀ r', M.ready o r' = false → M.ready o' r' = false)
    (hupdate : ∀ o w o', I o → M.update o w = some o' → I o')
    (hquiet : ∀ o k o', I o → M.quiet o k = some o' →
      I o' ∧ ∀ r, M.ready o r = false → M.ready o' r = false)
    (hs : (M.machine ι).Reachable s) (hfree : s.holder = none) {r : ρ}
    (hpc : s.pc t = .asleep r) : I s.obj ∧ M.ready s.obj r = false := by
  have h : Sound M I s := hs.inv (.init hI) fun _ _ _ h hstep =>
    h.step hserve hupdate hquiet hstep
  refine ⟨h.inv, ?_⟩
  rcases h.asleep t r hpc with hready | ⟨u, hu⟩
  · exact hready
  · have howns := h.owns u (by rw [hu]; rfl)
    rw [hfree] at howns
    cases howns

end Monitor

end HpLib.Lib
