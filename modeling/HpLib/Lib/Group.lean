import HpLib.Lib.Machine
import Mathlib.Data.List.Perm.Basic

/-!
# Thread groups

An object without a lock is called directly, and jobs are given to threads
of their own: each makes one call on the object and then acts on the answer.
A group keeps the threads it has started; who destroys it stops giving out
jobs and waits for all of them. An answer that is not `ok` is an exception
once it is acted on, and one that leaves a thread ends the program.

A call takes time. It sees the object as it is when the call goes in, and
leaves its changes there when it comes out. Two calls that are inside
together do not mix if one of them changes the object: the behaviour of the
program is undefined from then on. It is also if the object is destroyed
while a direct call still needs it.

`sound_of_run` says what a run does up to such a moment: the calls could
have been made one after the other, those of the threads are the jobs, each
of them once, and each answer is acted on once. Nothing more can be said
about the orders (`any_order`).
-/

namespace HpLib.Lib

/-- Calls `χ` with answers `ρ` on an object `σ`, some of which change it; a
thread is given a job `τ`. -/
structure Group (σ χ ρ τ : Type*) where
  call : σ → χ → ρ × σ
  changes : σ → χ → Bool
  job : τ → χ
  ok : ρ → Bool
  keeps : ∀ s c, changes s c = false → (call s c).2 = s

namespace Group

variable {σ χ ρ τ : Type*}

/-- What a call is made for. -/
inductive Origin (χ τ : Type*) where
  | direct (c : χ)
  | job (x : τ)

/-- A call that was made. -/
structure Entry (χ ρ τ : Type*) where
  origin : Origin χ τ
  answer : ρ

/-- Where a caller is: before its call, inside with what it `saw` of the
object, past it, acting on the answer, at its end. -/
inductive Stage (σ χ ρ τ : Type*) where
  | starting (t : Origin χ τ)
  | inside (t : Origin χ τ) (saw : σ)
  | answered (e : Entry χ ρ τ)
  | busy
  | finished

/-- The group is in use, joins its threads, is gone; an exception has left a
thread; or calls have mixed. -/
inductive Phase where
  | up
  | joining
  | destroyed
  | terminated
  | undefined
  deriving DecidableEq

/-- `threads` are the callers, those of the group and the direct ones, `sent`
the jobs given out, `log` the calls made and `acted` those whose answer was
acted on, all in order. -/
structure State (σ χ ρ τ : Type*) where
  obj : σ
  threads : List (Stage σ χ ρ τ)
  phase : Phase
  sent : List τ
  log : List (Entry χ ρ τ)
  acted : List (Entry χ ρ τ)

/-- From `enter` to `throw`: moves of the caller at a position. -/
inductive Act (χ τ : Type*) where
  | direct (c : χ)
  | spawn (x : τ)
  | enter (i : Nat)
  | leave (i : Nat)
  | act (i : Nat)
  | finish (i : Nat)
  | throw (i : Nat)
  | destroy
  | joined

def Act.IsDirect : Act χ τ → Prop
  | .direct _ => True
  | _ => False

def Origin.isJob : Origin χ τ → Bool
  | .job _ => true
  | .direct _ => false

def Origin.job? : Origin χ τ → Option τ
  | .job x => some x
  | .direct _ => none

def Entry.job? (e : Entry χ ρ τ) : Option τ :=
  e.origin.job?

/-- The jobs among calls. -/
def jobs (log : List (Entry χ ρ τ)) : List τ :=
  log.filterMap Entry.job?

def Stage.waiting : Stage σ χ ρ τ → Option τ
  | .starting t | .inside t _ => t.job?
  | .answered _ | .busy | .finished => none

/-- The jobs whose call is still to come back. -/
def waiting (threads : List (Stage σ χ ρ τ)) : List τ :=
  threads.filterMap Stage.waiting

def Stage.pending : Stage σ χ ρ τ → Option (Entry χ ρ τ)
  | .answered e => some e
  | .starting _ | .inside _ _ | .busy | .finished => none

/-- The calls whose answer is still to be acted on. -/
def pending (threads : List (Stage σ χ ρ τ)) : List (Entry χ ρ τ) :=
  threads.filterMap Stage.pending

/-- A thread of the group that has not returned. -/
def Stage.isOpen : Stage σ χ ρ τ → Bool
  | .starting t | .inside t _ => t.isJob
  | .answered e => e.origin.isJob
  | .busy => true
  | .finished => false

/-- The object is still needed. -/
def Stage.needs : Stage σ χ ρ τ → Bool
  | .starting _ | .inside _ _ => true
  | .answered _ | .busy | .finished => false

def spawn (threads : List (Stage σ χ ρ τ)) (x : τ) : List (Stage σ χ ρ τ) :=
  threads ++ [.starting (.job x)]

def State.fresh (o : σ) : State σ χ ρ τ :=
  ⟨o, [], .up, [], [], []⟩

/-- The object can be called. -/
def State.alive (s : State σ χ ρ τ) : Bool :=
  s.phase = .up ∨ s.phase = .joining

/-- The program runs. -/
def State.running (s : State σ χ ρ τ) : Bool :=
  s.phase ≠ .terminated ∧ s.phase ≠ .undefined

variable (G : Group σ χ ρ τ)

def callOf : Origin χ τ → χ
  | .direct c => c
  | .job x => G.job x

/-- A caller that is inside, and changes the object or would see it changed. -/
def Stage.conflicts (changing : Bool) : Stage σ χ ρ τ → Bool
  | .inside t saw => changing || G.changes saw (G.callOf t)
  | .starting _ | .answered _ | .busy | .finished => false

/-- The call `t` cannot go in beside those that are inside. -/
def State.mixes (s : State σ χ ρ τ) (t : Origin χ τ) : Bool :=
  s.threads.any (Stage.conflicts G (G.changes s.obj (G.callOf t)))

/-- The caller at `i` goes in. -/
def State.enter (s : State σ χ ρ τ) (i : Nat) (t : Origin χ τ) : State σ χ ρ τ :=
  { s with threads := s.threads.set i (.inside t s.obj) }

/-- The caller at `i` comes out with its answer. A call that changes nothing
writes nothing. -/
def State.leave (s : State σ χ ρ τ) (i : Nat) (t : Origin χ τ) (saw : σ) : State σ χ ρ τ :=
  let e : Entry χ ρ τ := ⟨t, (G.call saw (G.callOf t)).1⟩
  { s with
    obj := if G.changes saw (G.callOf t) then (G.call saw (G.callOf t)).2 else s.obj
    threads := s.threads.set i (.answered e)
    log := s.log ++ [e] }

/-- The caller at `i` acts on its answer. A direct call is then over. -/
def State.act (s : State σ χ ρ τ) (i : Nat) (e : Entry χ ρ τ) : State σ χ ρ τ :=
  { s with
    threads := s.threads.set i (if e.origin.isJob then .busy else .finished)
    acted := s.acted ++ [e] }

def step (s : State σ χ ρ τ) : Act χ τ → Option (State σ χ ρ τ)
  | .direct c =>
      if s.alive then some { s with threads := s.threads ++ [.starting (.direct c)] } else none
  | .spawn x =>
      if s.phase = .up then
        some { s with threads := spawn s.threads x, sent := s.sent ++ [x] }
      else none
  | .enter i =>
      match s.threads[i]? with
      | some (.starting t) =>
          if s.alive then
            if s.mixes G t then some { s with phase := .undefined } else some (s.enter i t)
          else none
      | _ => none
  | .leave i =>
      match s.threads[i]? with
      | some (.inside t saw) => if s.alive then some (s.leave G i t saw) else none
      | _ => none
  | .act i =>
      match s.threads[i]? with
      | some (.answered e) =>
          if s.running then
            if e.origin.isJob && !G.ok e.answer then some { s.act i e with phase := .terminated }
            else some (s.act i e)
          else none
      | _ => none
  | .finish i =>
      match s.threads[i]? with
      | some .busy =>
          if s.running then some { s with threads := s.threads.set i .finished } else none
      | _ => none
  | .throw i =>
      match s.threads[i]? with
      | some .busy => if s.running then some { s with phase := .terminated } else none
      | _ => none
  | .destroy => if s.phase = .up then some { s with phase := .joining } else none
  | .joined =>
      if s.phase = .joining ∧ ¬ s.threads.any Stage.isOpen then
        if s.threads.any Stage.needs then some { s with phase := .undefined }
        else some { s with phase := .destroyed }
      else none

/-- The group over an object. -/
def machine (o : σ) : Machine (State σ χ ρ τ) (Act χ τ) :=
  ⟨.fresh o, G.step⟩

@[simp] theorem machine_step (o : σ) (s : State σ χ ρ τ) (a : Act χ τ) :
    (G.machine o).step s a = G.step s a := rfl

/-! ## The callers -/

section Callers

variable {threads : List (Stage σ χ ρ τ)} {i : Nat} {a b : Stage σ χ ρ τ} {t : Origin χ τ}
  {e : Entry χ ρ τ} {saw : σ}

/-- The list around a position, before and after the caller there moves. -/
theorem exists_split (h : threads[i]? = some a) (b : Stage σ χ ρ τ) :
    ∃ l r, threads = l ++ a :: r ∧ threads.set i b = l ++ b :: r := by
  obtain ⟨hi, rfl⟩ := List.getElem?_eq_some_iff.mp h
  refine ⟨threads.take i, threads.drop (i + 1), ?_, ?_⟩
  · rw [List.getElem_cons_drop, List.take_append_drop]
  · rw [List.set_eq_take_append_cons_drop, if_pos hi]

/-- What a list picks out of callers, when one of them moves. -/
theorem filterMap_set {β : Type*} {f : Stage σ χ ρ τ → Option β} (h : threads[i]? = some a)
    (hf : f b = f a) : (threads.set i b).filterMap f = threads.filterMap f := by
  obtain ⟨l, r, hl, hr⟩ := exists_split h b
  rw [hr, hl, List.filterMap_append, List.filterMap_append, List.filterMap_cons,
    List.filterMap_cons, hf]

theorem filterMap_set_none {β : Type*} {f : Stage σ χ ρ τ → Option β} {x : β}
    (h : threads[i]? = some a) (ha : f a = some x) (hb : f b = none) :
    (x :: (threads.set i b).filterMap f).Perm (threads.filterMap f) := by
  obtain ⟨l, r, hl, hr⟩ := exists_split h b
  rw [hr, hl, List.filterMap_append, List.filterMap_append, List.filterMap_cons_none hb,
    List.filterMap_cons_some ha]
  exact List.perm_middle.symm

theorem filterMap_set_some {β : Type*} {f : Stage σ χ ρ τ → Option β} {x : β}
    (h : threads[i]? = some a) (ha : f a = none) (hb : f b = some x) :
    ((threads.set i b).filterMap f).Perm (threads.filterMap f ++ [x]) := by
  obtain ⟨l, r, hl, hr⟩ := exists_split h b
  rw [hr, hl, List.filterMap_append, List.filterMap_append, List.filterMap_cons_none ha,
    List.filterMap_cons_some hb, List.append_assoc]
  exact (List.perm_append_singleton x _).symm.append_left _

theorem waiting_set (h : threads[i]? = some a) (hb : b.waiting = a.waiting) :
    waiting (threads.set i b) = waiting threads :=
  filterMap_set h hb

theorem pending_set (h : threads[i]? = some a) (hb : b.pending = a.pending) :
    pending (threads.set i b) = pending threads :=
  filterMap_set h hb

theorem waiting_spawn {x : τ} : waiting (spawn threads x) = waiting threads ++ [x] := by
  rw [spawn, waiting, List.filterMap_append]
  rfl

theorem waiting_append_direct {c : χ} :
    waiting (threads ++ [.starting (.direct c)]) = waiting threads := by
  rw [waiting, List.filterMap_append]
  exact List.append_nil _

theorem pending_append_starting :
    pending (threads ++ [.starting t]) = pending threads := by
  rw [pending, List.filterMap_append]
  exact List.append_nil _

/-- A caller that comes out has its job, if it has one, no longer before it. -/
theorem waiting_leave (h : threads[i]? = some (.inside t saw)) (he : e.origin = t) :
    (jobs [e] ++ waiting (threads.set i (.answered e))).Perm (waiting threads) := by
  subst he
  cases ht : e.origin.job? with
  | none =>
      have hjobs : jobs [e] = [] := List.filterMap_cons_none ht
      rw [hjobs, List.nil_append, waiting_set (b := .answered e) h ht.symm]
  | some x =>
      have hjobs : jobs [e] = [x] := List.filterMap_cons_some ht
      rw [hjobs]
      exact filterMap_set_none h ht rfl

/-- It is in turn the last that has an answer to act on. -/
theorem pending_leave (h : threads[i]? = some (.inside t saw)) :
    (pending (threads.set i (.answered e))).Perm (pending threads ++ [e]) :=
  filterMap_set_some (f := Stage.pending) h rfl rfl

theorem pending_act (h : threads[i]? = some (.answered e)) (hb : b.pending = none) :
    (e :: pending (threads.set i b)).Perm (pending threads) :=
  filterMap_set_none (f := Stage.pending) h rfl hb

theorem exists_of_mem_waiting {x : τ} (h : x ∈ waiting threads)
    (hstart : ∀ b ∈ threads, ∀ t o, b ≠ .inside t o) :
    ∃ i : Nat, threads[i]? = some (.starting (.job x)) := by
  obtain ⟨b, hb, hx⟩ := List.mem_filterMap.mp h
  cases b with
  | starting t =>
      cases t with
      | direct c => cases hx
      | job y =>
          cases hx
          exact List.mem_iff_getElem?.mp hb
  | inside t o => exact absurd rfl (hstart _ hb t o)
  | answered e => cases hx
  | busy => cases hx
  | finished => cases hx

/-- When no thread of the group is left, no job is. -/
theorem waiting_of_closed (h : ¬ threads.any Stage.isOpen) : waiting threads = [] := by
  rw [waiting, List.filterMap_eq_nil_iff]
  intro b hb
  have hopen : b.isOpen ≠ true := fun hopen => h (List.any_eq_true.mpr ⟨b, hb, hopen⟩)
  cases b with
  | starting t =>
      cases t with
      | direct c => rfl
      | job x => exact absurd rfl hopen
  | inside t o =>
      cases t with
      | direct c => rfl
      | job x => exact absurd rfl hopen
  | answered e => rfl
  | busy => rfl
  | finished => rfl

theorem jobs_pending_of_closed (h : ¬ threads.any Stage.isOpen) : jobs (pending threads) = [] := by
  rw [jobs, List.filterMap_eq_nil_iff]
  intro e he
  obtain ⟨b, hb, hpending⟩ := List.mem_filterMap.mp he
  have hopen : b.isOpen ≠ true := fun hopen => h (List.any_eq_true.mpr ⟨b, hb, hopen⟩)
  cases b with
  | answered d =>
      cases hpending
      obtain ⟨t, r⟩ := e
      cases t with
      | direct c => rfl
      | job x => exact absurd rfl hopen
  | starting t => cases hpending
  | inside t o => cases hpending
  | busy => cases hpending
  | finished => cases hpending

end Callers

/-- Who is inside has seen the object as it is, and is there alone if it
changes the object. -/
structure Quiet (G : Group σ χ ρ τ) (o : σ) (threads : List (Stage σ χ ρ τ)) : Prop where
  saw : ∀ (i : Nat) t p, threads[i]? = some (.inside t p) → p = o
  alone : ∀ (i j : Nat) t u p q, i ≠ j → threads[i]? = some (.inside t p) →
    threads[j]? = some (.inside u q) → G.changes o (G.callOf t) = false

namespace Quiet

variable {G} {o : σ} {threads : List (Stage σ χ ρ τ)} {i : Nat} {a b : Stage σ χ ρ τ}
  {t : Origin χ τ} {p : σ}

/-- Callers that are inside were so before. -/
theorem of_forall {new : List (Stage σ χ ρ τ)} (h : Quiet G o threads)
    (hnew : ∀ (j : Nat) u q, new[j]? = some (.inside u q) → threads[j]? = some (.inside u q)) :
    Quiet G o new where
  saw j u q hj := h.saw j u q (hnew j u q hj)
  alone j k u v q r hjk hj hk := h.alone j k u v q r hjk (hnew j u q hj) (hnew k v r hk)

theorem append (h : Quiet G o threads) (t : Origin χ τ) :
    Quiet G o (threads ++ [.starting t]) := by
  refine h.of_forall fun j u q hj => ?_
  rw [List.getElem?_append] at hj
  split at hj
  · exact hj
  · cases List.mem_singleton.mp (List.mem_of_getElem? hj)

/-- One that moves elsewhere is not inside. -/
theorem getElem?_set (hb : ∀ u q, b ≠ .inside u q) {j : Nat} {u : Origin χ τ} {q : σ}
    (hj : (threads.set i b)[j]? = some (.inside u q)) :
    j ≠ i ∧ threads[j]? = some (.inside u q) := by
  rw [List.getElem?_set] at hj
  split at hj
  · split at hj
    · exact absurd (Option.some.inj hj) (hb u q)
    · cases hj
  · rename_i hij
    exact ⟨fun h => hij h.symm, hj⟩

theorem set (h : Quiet G o threads) (hb : ∀ u q, b ≠ .inside u q) :
    Quiet G o (threads.set i b) :=
  h.of_forall fun _ _ _ hj => (getElem?_set hb hj).2

/-- One goes in where it conflicts with nobody. -/
theorem enter (h : Quiet G o threads)
    (hmixes : ¬ threads.any (Stage.conflicts G (G.changes o (G.callOf t)))) :
    Quiet G o (threads.set i (.inside t o)) := by
  have hother : ∀ (j : Nat) u q, threads[j]? = some (.inside u q) →
      G.changes o (G.callOf t) = false ∧ G.changes o (G.callOf u) = false := by
    intro j u q hj
    have hnot : ¬ Stage.conflicts G (G.changes o (G.callOf t)) (.inside u q) := fun hc =>
      hmixes (List.any_eq_true.mpr ⟨_, List.mem_of_getElem? hj, hc⟩)
    rw [Stage.conflicts, h.saw j u q hj, Bool.or_eq_true, not_or, Bool.not_eq_true,
      Bool.not_eq_true] at hnot
    exact hnot
  have hset : ∀ (j : Nat) u q, (threads.set i (.inside t o))[j]? = some (.inside u q) →
      j = i ∧ u = t ∧ q = o ∨ threads[j]? = some (.inside u q) := by
    intro j u q hj
    rw [List.getElem?_set] at hj
    split at hj
    · rename_i hij
      split at hj
      · cases hj
        exact .inl ⟨hij.symm, rfl, rfl⟩
      · cases hj
    · exact .inr hj
  constructor
  · intro j u q hj
    rcases hset j u q hj with ⟨-, -, hq⟩ | hj
    · exact hq
    · exact h.saw j u q hj
  · intro j k u v q r hjk hj hk
    rcases hset j u q hj with ⟨rfl, rfl, -⟩ | hj
    · rcases hset k v r hk with ⟨rfl, -, -⟩ | hk
      · exact absurd rfl hjk
      · exact (hother k v r hk).1
    · exact (hother j u q hj).2

/-- What a call that comes out leaves is what the call does to the object,
and nobody else has seen anything that it changed. -/
theorem leave (h : Quiet G o threads) (hi : threads[i]? = some (.inside t p))
    (hb : ∀ u q, b ≠ .inside u q) :
    p = o ∧
      (if G.changes p (G.callOf t) then (G.call p (G.callOf t)).2 else o)
        = (G.call o (G.callOf t)).2 ∧
      Quiet G (G.call o (G.callOf t)).2 (threads.set i b) := by
  obtain rfl := h.saw i t p hi
  refine ⟨rfl, ?_, ?_⟩
  · split
    · rfl
    · rename_i hc
      exact (G.keeps _ _ (Bool.not_eq_true _ ▸ hc)).symm
  · cases hc : G.changes p (G.callOf t) with
    | false =>
        rw [G.keeps _ _ hc]
        exact h.set hb
    | true =>
        have hnobody : ∀ (j : Nat) u q, (threads.set i b)[j]? ≠ some (.inside u q) := by
          intro j u q hj
          obtain ⟨hji, hj⟩ := getElem?_set hb hj
          rw [h.alone i j t u p q hji.symm hi hj] at hc
          cases hc
        exact ⟨fun j u q hj => absurd hj (hnobody j u q),
          fun j _ u _ q _ _ hj => absurd hj (hnobody j u q)⟩

end Quiet

/-! ## What a run does -/

variable {G} {o : σ} {s s' : State σ χ ρ τ} {a : Act χ τ}

/-- The steps that can be taken. -/
inductive Taken (G : Group σ χ ρ τ) (s : State σ χ ρ τ) : Act χ τ → State σ χ ρ τ → Prop where
  | direct {c} (h : s.alive) :
      Taken G s (.direct c) { s with threads := s.threads ++ [.starting (.direct c)] }
  | spawn {x} (h : s.phase = .up) :
      Taken G s (.spawn x) { s with threads := spawn s.threads x, sent := s.sent ++ [x] }
  | enter {i t} (h : s.alive) (hi : s.threads[i]? = some (.starting t)) (hmixes : ¬ s.mixes G t) :
      Taken G s (.enter i) (s.enter i t)
  | mix {i t} (h : s.alive) (hi : s.threads[i]? = some (.starting t)) (hmixes : s.mixes G t) :
      Taken G s (.enter i) { s with phase := .undefined }
  | leave {i t saw} (h : s.alive) (hi : s.threads[i]? = some (.inside t saw)) :
      Taken G s (.leave i) (s.leave G i t saw)
  | act {i e} (h : s.running) (hi : s.threads[i]? = some (.answered e))
      (hok : e.origin.isJob → G.ok e.answer) : Taken G s (.act i) (s.act i e)
  | escape {i e} (h : s.running) (hi : s.threads[i]? = some (.answered e)) :
      Taken G s (.act i) { s.act i e with phase := .terminated }
  | finish {i} (h : s.running) (hi : s.threads[i]? = some .busy) :
      Taken G s (.finish i) { s with threads := s.threads.set i .finished }
  | throw {i} (h : s.running) : Taken G s (.throw i) { s with phase := .terminated }
  | destroy (h : s.phase = .up) : Taken G s .destroy { s with phase := .joining }
  | joined (h : s.phase = .joining) (hclosed : ¬ s.threads.any Stage.isOpen) :
      Taken G s .joined { s with phase := .destroyed }
  | dangle (h : s.phase = .joining) (hclosed : ¬ s.threads.any Stage.isOpen)
      (hneeds : s.threads.any Stage.needs) :
      Taken G s .joined { s with phase := .undefined }

theorem taken (hs : G.step s a = some s') : Taken G s a s' := by
  cases a with
  | direct c =>
      rw [step] at hs
      split at hs <;> cases hs
      rename_i h
      exact .direct h
  | spawn x =>
      rw [step] at hs
      split at hs <;> cases hs
      rename_i h
      exact .spawn h
  | enter i =>
      rw [step] at hs
      split at hs
      · rename_i t hi
        split at hs
        · rename_i h
          split at hs <;> rename_i hmixes <;> cases hs
          · exact .mix h hi hmixes
          · exact .enter h hi hmixes
        · cases hs
      · cases hs
  | leave i =>
      rw [step] at hs
      split at hs
      · rename_i hi
        split at hs <;> cases hs
        rename_i h
        exact .leave h hi
      · cases hs
  | act i =>
      rw [step] at hs
      split at hs
      · rename_i e hi
        split at hs
        · rename_i h
          split at hs <;> rename_i hok <;> cases hs
          · exact .escape h hi
          · exact .act h hi fun hjob => by simpa [hjob] using hok
        · cases hs
      · cases hs
  | finish i =>
      rw [step] at hs
      split at hs
      · rename_i hi
        split at hs <;> cases hs
        rename_i h
        exact .finish h hi
      · cases hs
  | throw i =>
      rw [step] at hs
      split at hs
      · split at hs <;> cases hs
        rename_i h
        exact .throw h
      · cases hs
  | destroy =>
      rw [step] at hs
      split at hs <;> cases hs
      rename_i h
      exact .destroy h
  | joined =>
      rw [step] at hs
      split at hs
      · rename_i h
        split at hs <;> rename_i hneeds <;> cases hs
        · exact .dangle h.1 h.2 hneeds
        · exact .joined h.1 h.2
      · cases hs

theorem runCalls_append {g : σ → χ → ρ × σ} (t : σ) (as bs : List χ) :
    runCalls g t (as ++ bs) = ((runCalls g t as).1 ++ (runCalls g (runCalls g t as).2 bs).1,
      (runCalls g (runCalls g t as).2 bs).2) := by
  induction as generalizing t with
  | nil => rfl
  | cons a as ih =>
      simp only [List.cons_append, runCalls]
      rw [ih]

theorem runCalls_length {g : σ → χ → ρ × σ} (t : σ) (as : List χ) :
    (runCalls g t as).1.length = as.length := by
  induction as generalizing t with
  | nil => rfl
  | cons a as ih => rw [runCalls, List.length_cons, List.length_cons, ih]

/-- The calls of a log. -/
def calls (G : Group σ χ ρ τ) (log : List (Entry χ ρ τ)) : List χ :=
  log.map fun e => G.callOf e.origin

/-- The calls were made one after the other; those of threads and the jobs
before threads are the jobs given out; every answer is acted on or still to
be; and threads went on only with answers that are `ok`, unless the program
has ended. -/
structure Sound (G : Group σ χ ρ τ) (o : σ) (s : State σ χ ρ τ) : Prop where
  quiet : Quiet G s.obj s.threads
  answers : runCalls G.call o (G.calls s.log) = (s.log.map Entry.answer, s.obj)
  sent : (jobs s.log ++ waiting s.threads).Perm s.sent
  acted : (s.acted ++ pending s.threads).Perm s.log
  ok : s.phase ≠ .terminated → ∀ e ∈ s.acted, e.origin.isJob → G.ok e.answer
  joined : s.phase = .destroyed → ¬ s.threads.any Stage.isOpen

theorem Sound.fresh : Sound G o (.fresh o) where
  quiet := ⟨by simp [State.fresh], by simp [State.fresh]⟩
  answers := rfl
  sent := .nil
  acted := .nil
  ok _ e he := by cases he
  joined h := by cases h

theorem State.alive_iff : s.alive ↔ s.phase = .up ∨ s.phase = .joining :=
  decide_eq_true_iff

theorem State.not_destroyed_of_alive (h : s.alive) : s.phase ≠ .destroyed := by
  rcases State.alive_iff.mp h with h | h <;> rw [h] <;> decide

theorem State.not_terminated_of_alive (h : s.alive) : s.phase ≠ .terminated := by
  rcases State.alive_iff.mp h with h | h <;> rw [h] <;> decide

theorem State.not_terminated_of_running (h : s.running) : s.phase ≠ .terminated :=
  (of_decide_eq_true h).1

/-- A caller that is not inside, nor a thread of the group, comes or moves
there: a group that was joined stays so. -/
theorem closed_set {threads : List (Stage σ χ ρ τ)} {i : Nat} {b : Stage σ χ ρ τ}
    (h : ¬ threads.any Stage.isOpen) (hb : b.isOpen = false) :
    ¬ (threads.set i b).any Stage.isOpen := by
  rw [List.any_eq_true] at h ⊢
  rintro ⟨c, hc, hopen⟩
  rcases List.mem_or_eq_of_mem_set hc with hc | rfl
  · exact h ⟨c, hc, hopen⟩
  · rw [hb] at hopen
    cases hopen

/-- A call comes out. -/
theorem Sound.leave (h : Sound G o s) {i : Nat} {t : Origin χ τ} {saw : σ} (halive : s.alive)
    (hi : s.threads[i]? = some (.inside t saw)) : Sound G o (s.leave G i t saw) := by
  obtain ⟨rfl, hobj, hquiet⟩ := h.quiet.leave
    (b := .answered ⟨t, (G.call saw (G.callOf t)).1⟩) hi nofun
  refine ⟨?_, ?_, ?_, ?_, h.ok, fun hd => absurd hd (State.not_destroyed_of_alive halive)⟩
  · rw [State.leave]
    simp only [hobj]
    exact hquiet
  · rw [State.leave]
    simp only [hobj]
    rw [calls, List.map_append, runCalls_append, ← calls, h.answers, List.map_append]
    rfl
  · rw [State.leave, jobs, List.filterMap_append, List.append_assoc]
    exact ((waiting_leave hi rfl).append_left _).trans h.sent
  · refine ((pending_leave hi).append_left _).trans ?_
    rw [← List.append_assoc]
    exact h.acted.append_right _

/-- An answer is acted on. -/
theorem Sound.act (h : Sound G o s) {i : Nat} {e : Entry χ ρ τ} (hrunning : s.running)
    (hi : s.threads[i]? = some (.answered e)) {p : Phase} (hp : p = s.phase ∨ p = .terminated)
    (hok : p ≠ .terminated → e.origin.isJob → G.ok e.answer) :
    Sound G o { s.act i e with phase := p } := by
  have hstage : ∀ b : Stage σ χ ρ τ, b = (if e.origin.isJob then .busy else .finished) →
      (∀ u q, b ≠ .inside u q) ∧ b.waiting = none ∧ b.pending = none := by
    rintro b rfl
    split <;> exact ⟨nofun, rfl, rfl⟩
  obtain ⟨hinside, hwaiting, hpending⟩ := hstage _ rfl
  refine ⟨h.quiet.set hinside, h.answers, ?_, ?_, ?_, ?_⟩
  · rw [State.act, waiting_set hi hwaiting]
    exact h.sent
  · rw [State.act, List.append_assoc]
    exact ((pending_act hi hpending).append_left _).trans h.acted
  · intro hne d hd hjob
    rcases List.mem_append.mp hd with hd | hd
    · exact h.ok (State.not_terminated_of_running hrunning) d hd hjob
    · cases List.mem_singleton.mp hd
      exact hok hne hjob
  · intro hd
    rcases hp with rfl | rfl
    · have hclosed := h.joined hd
      refine closed_set hclosed ?_
      have hopen : e.origin.isJob ≠ true := fun hjob =>
        hclosed (List.any_eq_true.mpr ⟨_, List.mem_of_getElem? hi, hjob⟩)
      rw [if_neg hopen]
      rfl
    · cases hd

/-- **One step.** -/
theorem Sound.step (h : Sound G o s) (hs : G.step s a = some s') : Sound G o s' := by
  cases taken hs with
  | @direct c halive =>
      refine ⟨h.quiet.append _, h.answers, ?_, ?_, h.ok,
        fun hd => absurd hd (State.not_destroyed_of_alive halive)⟩
      · rw [waiting_append_direct]
        exact h.sent
      · rw [pending_append_starting]
        exact h.acted
  | @spawn x hup =>
      refine ⟨h.quiet.append _, h.answers, ?_, ?_, h.ok, fun hd => ?_⟩
      · rw [waiting_spawn, ← List.append_assoc]
        exact h.sent.append_right [x]
      · rw [spawn, pending_append_starting]
        exact h.acted
      · rw [hup] at hd
        cases hd
  | @enter i t halive hi hmixes =>
      refine ⟨h.quiet.enter hmixes, h.answers, ?_, ?_, h.ok,
        fun hd => absurd hd (State.not_destroyed_of_alive halive)⟩
      · rw [State.enter, waiting_set (b := .inside t s.obj) hi rfl]
        exact h.sent
      · rw [State.enter, pending_set (b := .inside t s.obj) hi rfl]
        exact h.acted
  | leave halive hi => exact h.leave halive hi
  | act hrunning hi hok => exact h.act hrunning hi (.inl rfl) fun _ => hok
  | escape hrunning hi => exact h.act hrunning hi (.inr rfl) fun hne => absurd rfl hne
  | finish hrunning hi =>
      refine ⟨h.quiet.set nofun, h.answers, ?_, ?_, h.ok, fun hd => closed_set (h.joined hd) rfl⟩
      · rw [waiting_set (b := .finished) hi rfl]
        exact h.sent
      · rw [pending_set (b := .finished) hi rfl]
        exact h.acted
  | mix halive =>
      exact ⟨h.quiet, h.answers, h.sent, h.acted,
        fun _ => h.ok (State.not_terminated_of_alive halive), nofun⟩
  | throw => exact ⟨h.quiet, h.answers, h.sent, h.acted, fun hp => absurd rfl hp, nofun⟩
  | destroy hup =>
      exact ⟨h.quiet, h.answers, h.sent, h.acted, fun _ => h.ok (by rw [hup]; decide), nofun⟩
  | joined hjoining hclosed =>
      exact ⟨h.quiet, h.answers, h.sent, h.acted, fun _ => h.ok (by rw [hjoining]; decide),
        fun _ => hclosed⟩
  | dangle hjoining =>
      exact ⟨h.quiet, h.answers, h.sent, h.acted, fun _ => h.ok (by rw [hjoining]; decide), nofun⟩

/-- **A run**: its calls are sequential, those of the threads are the jobs
given out, each of them once, and each answer is acted on once. -/
theorem sound_of_run {as : List (Act χ τ)} (h : (G.machine o).exec (G.machine o).init as = some s) :
    Sound G o s :=
  Machine.inv_of_exec (fun _ _ _ hP hs => hP.step hs) Sound.fresh h

/-- What the object is when a call of the log is made. -/
theorem Sound.answer_eq (h : Sound G o s) {before after : List (Entry χ ρ τ)} {e : Entry χ ρ τ}
    (hlog : s.log = before ++ e :: after) :
    e.answer = (G.call (runCalls G.call o (G.calls before)).2 (G.callOf e.origin)).1 := by
  have hanswers := congrArg Prod.fst h.answers
  rw [hlog, calls, List.map_append, List.map_cons, runCalls_append, List.map_append,
    List.map_cons, ← calls] at hanswers
  have hlength : (runCalls G.call o (G.calls before)).1.length
      = (before.map Entry.answer).length := by
    rw [runCalls_length, calls, List.length_map, List.length_map]
  exact (List.cons.inj (List.append_inj hanswers hlength).2).1.symm

/-- Once the group is joined, all jobs have been acted on. -/
theorem Sound.acted_of_destroyed (h : Sound G o s) (hd : s.phase = .destroyed) :
    (jobs s.acted).Perm s.sent := by
  have hclosed := h.joined hd
  have hsent := h.sent
  rw [waiting_of_closed hclosed, List.append_nil] at hsent
  have hacted := h.acted.filterMap Entry.job?
  rw [List.filterMap_append, ← jobs, ← jobs, ← jobs, jobs_pending_of_closed hclosed,
    List.append_nil] at hacted
  exact hacted.trans hsent

/-! ## Without direct calls -/

variable {xs ys : List τ}

def Stage.origin? : Stage σ χ ρ τ → Option (Origin χ τ)
  | .starting t | .inside t _ => some t
  | .answered e => some e.origin
  | .busy | .finished => none

/-- Everything was done by threads of the group. If the jobs only read, the
object is what it was and nothing has mixed. -/
structure Indirect (G : Group σ χ ρ τ) (o : σ) (s : State σ χ ρ τ) : Prop where
  sound : Sound G o s
  threads : ∀ b ∈ s.threads, ∀ t, b.origin? = some t → t.isJob
  log : ∀ e ∈ s.log, e.origin.isJob
  still : (∀ x ∈ s.sent, G.changes o (G.job x) = false) → s.obj = o ∧ s.phase ≠ .undefined

/-- A job that waits was given out. -/
theorem Sound.mem_sent (h : Sound G o s) {b : Stage σ χ ρ τ} (hb : b ∈ s.threads) {x : τ}
    (hx : b.waiting = some x) : x ∈ s.sent :=
  h.sent.subset (List.mem_append_right _ (List.mem_filterMap.mpr ⟨b, hb, hx⟩))

/-- A caller that is on its way in or inside only reads, if all jobs do. -/
theorem Indirect.reads (h : Indirect G o s) (hsent : ∀ x ∈ s.sent, G.changes o (G.job x) = false)
    {i : Nat} {b : Stage σ χ ρ τ} {t : Origin χ τ} (hi : s.threads[i]? = some b)
    (hb : b.waiting = t.job?) (ht : b.origin? = some t) : G.changes o (G.callOf t) = false := by
  have hmem := List.mem_of_getElem? hi
  cases t with
  | direct c => exact absurd (h.threads b hmem _ ht) nofun
  | job x => exact hsent x (h.sound.mem_sent hmem hb)

theorem Indirect.not_mixes (h : Indirect G o s)
    (hsent : ∀ x ∈ s.sent, G.changes o (G.job x) = false) {i : Nat} {t : Origin χ τ}
    (hi : s.threads[i]? = some (.starting t)) : ¬ s.mixes G t := by
  have hobj := (h.still hsent).1
  rw [State.mixes, List.any_eq_true]
  rintro ⟨b, hb, hc⟩
  cases b with
  | inside u q =>
      obtain ⟨j, hj⟩ := List.mem_iff_getElem?.mp hb
      obtain rfl := h.sound.quiet.saw j u q hj
      rw [Stage.conflicts, hobj, h.reads hsent hi rfl rfl, h.reads hsent hj rfl rfl] at hc
      cases hc
  | starting u => cases hc
  | answered e => cases hc
  | busy => cases hc
  | finished => cases hc

theorem Indirect.fresh : Indirect G o (.fresh o) where
  sound := .fresh
  threads b hb := by cases hb
  log e he := by cases he
  still _ := ⟨rfl, nofun⟩

/-- A thread of the group moves. -/
theorem Indirect.threads_set (h : Indirect G o s) {i : Nat} {b : Stage σ χ ρ τ}
    (hb : ∀ t, b.origin? = some t → t.isJob) :
    ∀ c ∈ s.threads.set i b, ∀ t, c.origin? = some t → t.isJob := by
  intro c hc
  rcases List.mem_or_eq_of_mem_set hc with hc | rfl
  · exact h.threads c hc
  · exact hb

theorem Indirect.threads_act (h : Indirect G o s) {i : Nat} (e : Entry χ ρ τ) :
    ∀ c ∈ (s.act i e).threads, ∀ t, c.origin? = some t → t.isJob := by
  refine h.threads_set fun t ht => ?_
  split at ht <;> cases ht

theorem Indirect.step (h : Indirect G o s) (ha : ¬ a.IsDirect) (hs : G.step s a = some s') :
    Indirect G o s' := by
  have hsound := h.sound.step hs
  cases taken hs with
  | direct => exact absurd trivial ha
  | @spawn x hup =>
      refine ⟨hsound, fun b hb => ?_, h.log, fun hsent =>
        h.still fun y hy => hsent y (List.mem_append_left _ hy)⟩
      rcases List.mem_append.mp hb with hb | hb
      · exact h.threads b hb
      · cases List.mem_singleton.mp hb
        rintro t ⟨⟩
        rfl
  | enter halive hi =>
      exact ⟨hsound, h.threads_set fun u hu => h.threads _ (List.mem_of_getElem? hi) u hu, h.log,
        h.still⟩
  | mix halive hi hmixes =>
      exact ⟨hsound, h.threads, h.log, fun hsent => absurd hmixes (h.not_mixes hsent hi)⟩
  | @leave i t saw halive hi =>
      have hjob := h.threads _ (List.mem_of_getElem? hi) t rfl
      refine ⟨hsound, h.threads_set fun u hu => ?_, fun e he => ?_, fun hsent => ?_⟩
      · cases hu
        exact hjob
      · rcases List.mem_append.mp he with he | he
        · exact h.log e he
        · cases List.mem_singleton.mp he
          exact hjob
      · obtain ⟨hobj, hphase⟩ := h.still hsent
        have hsaw := (h.sound.quiet.saw i t saw hi).trans hobj
        refine ⟨?_, hphase⟩
        rw [State.leave]
        simp only [hsaw, h.reads hsent hi rfl rfl, hobj]
        rfl
  | act => exact ⟨hsound, h.threads_act _, h.log, h.still⟩
  | escape => exact ⟨hsound, h.threads_act _, h.log, fun hsent => ⟨(h.still hsent).1, nofun⟩⟩
  | finish => exact ⟨hsound, h.threads_set nofun, h.log, h.still⟩
  | throw => exact ⟨hsound, h.threads, h.log, fun hsent => ⟨(h.still hsent).1, nofun⟩⟩
  | destroy => exact ⟨hsound, h.threads, h.log, fun hsent => ⟨(h.still hsent).1, nofun⟩⟩
  | joined => exact ⟨hsound, h.threads, h.log, fun hsent => ⟨(h.still hsent).1, nofun⟩⟩
  | dangle hjoining hclosed hneeds =>
      -- who still needs the object is then a thread that was not waited for
      obtain ⟨b, hb, hneed⟩ := List.any_eq_true.mp hneeds
      refine absurd (List.any_eq_true.mpr ⟨b, hb, ?_⟩) hclosed
      cases b with
      | starting t => exact h.threads _ hb t rfl
      | inside t q => exact h.threads _ hb t rfl
      | answered e => cases hneed
      | busy => cases hneed
      | finished => cases hneed

theorem indirect_of_run {as : List (Act χ τ)}
    (hrun : (G.machine o).exec (G.machine o).init as = some s) (has : ∀ a ∈ as, ¬ a.IsDirect) :
    Indirect G o s :=
  Machine.inv_of_allowed (fun _ _ _ hP ha hs => hP.step ha hs) Indirect.fresh has hrun

/-- Once the group is joined, every call has been acted on. -/
theorem Indirect.log_perm_acted (h : Indirect G o s) (hd : s.phase = .destroyed) :
    s.log.Perm s.acted := by
  have hpending : pending s.threads = [] := by
    rw [pending, List.filterMap_eq_nil_iff]
    intro b hb
    cases b with
    | answered e =>
        exact absurd (List.any_eq_true.mpr ⟨_, hb, h.threads _ hb e.origin rfl⟩)
          (h.sound.joined hd)
    | starting t => rfl
    | inside t q => rfl
    | busy => rfl
    | finished => rfl
  have hacted := h.sound.acted
  rw [hpending, List.append_nil] at hacted
  exact hacted.symm

theorem exec_spawn (hs : s.phase = .up) :
    (G.machine o).exec s (xs.map .spawn)
      = some { s with threads := s.threads ++ xs.map fun x => .starting (.job x),
                      sent := s.sent ++ xs } := by
  induction xs generalizing s with
  | nil => simp
  | cons x xs ih =>
      rw [List.map_cons, Machine.exec_cons, machine_step, step, if_pos hs, Option.bind_some]
      have hspawn := ih (s := { s with threads := spawn s.threads x, sent := s.sent ++ [x] }) hs
      refine hspawn.trans ?_
      simp [spawn]

/-- A job done from its call to its return, with nothing in between. -/
def State.done (G : Group σ χ ρ τ) (s : State σ χ ρ τ) (i : Nat) (x : τ) : State σ χ ρ τ :=
  let e : Entry χ ρ τ := ⟨.job x, (G.call s.obj (G.job x)).1⟩
  { s with
    obj := (G.call s.obj (G.job x)).2
    threads := s.threads.set i .finished
    log := s.log ++ [e]
    acted := s.acted ++ [e] }

theorem exec_done {i : Nat} {x : τ} (hs : s.alive) (hi : s.threads[i]? = some (.starting (.job x)))
    (hnobody : ∀ b ∈ s.threads, ∀ u q, b ≠ .inside u q)
    (hok : G.ok (G.call s.obj (G.job x)).1) :
    (G.machine o).exec s [.enter i, .leave i, .act i, .finish i] = some (s.done G i x) := by
  have hlt := (List.getElem?_eq_some_iff.mp hi).1
  have hrunning : s.running := by
    rcases State.alive_iff.mp hs with h | h <;> rw [State.running, h] <;> rfl
  have hmixes : ¬ s.mixes G (.job x) := by
    rw [State.mixes, List.any_eq_true]
    rintro ⟨b, hb, hc⟩
    cases b with
    | inside u q => exact hnobody _ hb u q rfl
    | starting u => cases hc
    | answered e => cases hc
    | busy => cases hc
    | finished => cases hc
  have hobj : (if G.changes s.obj (G.job x) then (G.call s.obj (G.job x)).2 else s.obj)
      = (G.call s.obj (G.job x)).2 := by
    split
    · rfl
    · rename_i hc
      exact (G.keeps _ _ (Bool.not_eq_true _ ▸ hc)).symm
  have henter : G.step s (.enter i) = some (s.enter i (.job x)) := by
    rw [step, hi]
    simp only [if_pos hs, if_neg hmixes]
  have hleave : G.step (s.enter i (.job x)) (.leave i)
      = some ((s.enter i (.job x)).leave G i (.job x) s.obj) := by
    rw [step, State.enter, List.getElem?_set_self hlt]
    exact if_pos hs
  have hact : G.step ((s.enter i (.job x)).leave G i (.job x) s.obj) (.act i)
      = some (((s.enter i (.job x)).leave G i (.job x) s.obj).act i
          ⟨.job x, (G.call s.obj (G.job x)).1⟩) := by
    rw [step, State.leave, State.enter, List.set_set, List.getElem?_set_self hlt]
    simp only [callOf, Origin.isJob, hok]
    exact if_pos hrunning
  have hfinish : G.step (((s.enter i (.job x)).leave G i (.job x) s.obj).act i
      ⟨.job x, (G.call s.obj (G.job x)).1⟩) (.finish i) = some (s.done G i x) := by
    rw [step, State.act, State.leave, State.enter, List.set_set, List.set_set,
      List.getElem?_set_self hlt]
    simp only [Origin.isJob, if_true, List.set_set, callOf]
    refine (if_pos hrunning).trans ?_
    exact congrArg (fun p => some { s.done G i x with obj := p }) hobj
  rw [Machine.exec_cons, machine_step, henter, Option.bind_some, Machine.exec_cons, machine_step,
    hleave, Option.bind_some, Machine.exec_cons, machine_step, hact, Option.bind_some,
    Machine.exec_cons, machine_step, hfinish]
  rfl

/-- The jobs that wait can be done in the order `ys`. -/
theorem exec_jobs (hs : s.alive)
    (hidle : ∀ b ∈ s.threads, b = .finished ∨ ∃ x, b = .starting (.job x))
    (hys : ys.Perm (waiting s.threads))
    (hok : ∀ r ∈ (runCalls G.call s.obj (ys.map G.job)).1, G.ok r) :
    ∃ as s', (G.machine o).exec s as = some s' ∧ (∀ a ∈ as, ¬ a.IsDirect) ∧
      s'.phase = s.phase ∧ s'.sent = s.sent ∧ (∀ b ∈ s'.threads, b = .finished) ∧
      jobs s'.acted = jobs s.acted ++ ys := by
  have hnobody : ∀ b ∈ s.threads, ∀ u q, b ≠ .inside u q := by
    intro b hb u q
    rcases hidle b hb with rfl | ⟨x, rfl⟩ <;> nofun
  induction ys generalizing s with
  | nil =>
      refine ⟨[], s, rfl, nofun, rfl, rfl, fun b hb => ?_, by simp⟩
      rcases hidle b hb with hb' | ⟨x, rfl⟩
      · exact hb'
      · have hx : x ∈ waiting s.threads := List.mem_filterMap.mpr ⟨_, hb, rfl⟩
        rw [hys.nil_eq.symm] at hx
        cases hx
  | cons y ys ih =>
      obtain ⟨i, hi⟩ := exists_of_mem_waiting (hys.subset List.mem_cons_self) hnobody
      have hrest : ys.Perm (waiting (s.threads.set i .finished)) :=
        (hys.trans (filterMap_set_none (f := Stage.waiting) hi rfl rfl).symm).cons_inv
      have hone := exec_done (o := o) hs hi hnobody (hok _ List.mem_cons_self)
      have hidle' : ∀ b ∈ (s.done G i y).threads, b = .finished ∨ ∃ x, b = .starting (.job x) := by
        intro b hb
        rcases List.mem_or_eq_of_mem_set hb with hb | rfl
        · exact hidle b hb
        · exact .inl rfl
      obtain ⟨as, s', hrun, has, hphase, hsent, hall, hjobs⟩ :=
        ih (s := s.done G i y) hs hidle' hrest
          (fun r hr => hok r (List.mem_cons_of_mem _ hr))
          (fun b hb u q => by rcases hidle' b hb with rfl | ⟨x, rfl⟩ <;> nofun)
      refine ⟨[.enter i, .leave i, .act i, .finish i] ++ as, s', ?_, ?_, hphase, hsent, hall, ?_⟩
      · rw [Machine.exec_append, hone]
        exact hrun
      · intro a ha
        rcases List.mem_append.mp ha with ha | ha
        · simp only [List.mem_cons, List.not_mem_nil, or_false] at ha
          rcases ha with rfl | rfl | rfl | rfl <;> exact id
        · exact has a ha
      · rw [hjobs, State.done, jobs, jobs, List.filterMap_append, List.append_assoc]
        rfl

/-- **Every order**: jobs whose calls go well in some order are done in that
order by some run that gives them out in another, up to its end. -/
theorem any_order (hys : ys.Perm xs) (hok : ∀ r ∈ (runCalls G.call o (ys.map G.job)).1, G.ok r) :
    ∃ as s, (G.machine o).exec (G.machine o).init as = some s ∧ (∀ a ∈ as, ¬ a.IsDirect) ∧
      s.phase = .destroyed ∧ s.sent = xs ∧ jobs s.acted = ys := by
  have hsent : (G.machine o).exec (G.machine o).init (xs.map .spawn ++ [.destroy])
      = some ⟨o, xs.map fun x => .starting (.job x), .joining, xs, [], []⟩ := by
    rw [Machine.exec_append, exec_spawn rfl]
    rfl
  have hwaiting : waiting (xs.map fun x => (.starting (.job x) : Stage σ χ ρ τ)) = xs := by
    rw [waiting, List.filterMap_map]
    exact List.filterMap_some
  obtain ⟨as, s, hrun, has, hphase, hxs, hall, hjobs⟩ :=
    exec_jobs (G := G) (o := o)
      (s := ⟨o, xs.map fun x => .starting (.job x), .joining, xs, [], []⟩) rfl
      (fun b hb => by
        obtain ⟨x, -, rfl⟩ := List.mem_map.mp hb
        exact .inr ⟨x, rfl⟩)
      (by rw [hwaiting]; exact hys) hok
  have hnone : ∀ f : Stage σ χ ρ τ → Bool, f .finished = false → ¬ s.threads.any f := by
    intro f hf hany
    obtain ⟨b, hb, hfb⟩ := List.any_eq_true.mp hany
    rw [hall b hb, hf] at hfb
    cases hfb
  have hjoined : (G.machine o).exec s [.joined] = some { s with phase := .destroyed } := by
    rw [Machine.exec_cons, machine_step, step, if_pos ⟨hphase, hnone _ rfl⟩,
      if_neg (hnone _ rfl)]
    rfl
  refine ⟨xs.map .spawn ++ [.destroy] ++ (as ++ [.joined]), { s with phase := .destroyed },
    ?_, ?_, rfl, hxs, hjobs⟩
  · rw [Machine.exec_append, hsent, Option.bind_some, Machine.exec_append, hrun, Option.bind_some,
      hjoined]
  · intro a ha
    simp only [List.mem_append, List.mem_map, List.mem_singleton] at ha
    rcases ha with (⟨x, -, rfl⟩ | rfl) | ha | rfl
    · exact id
    · exact id
    · exact has a ha
    · exact id

end Group

end HpLib.Lib
