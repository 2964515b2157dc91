import HpLib.Lib.Machine

/-!
# The io threads of a SerialPort

`start` creates a thread that calls `io_service_.run()` and posts the first
read after it, and no `work` object keeps the service going. A thread that
finds no work stops the service and ends, and only `stop` resets it. So a
thread that is quicker than `start`, or one of an earlier start that comes to
its end, leaves a port that is open, says so and hears nothing
(`hears_iff_inTime`).

The destructor joins the threads before it calls `stop`. It comes to its end
for the ports that do not listen, and for no other. Where `port_` is not null
then, as after a start that has failed, what `stop` throws ends the program
(`destructor_ends_iff`).

Of Asio it is assumed that `run` returns when the service is stopped, and when
no operation and no handler is left, which stops it; that `close` completes
the outstanding operations; and that a thread may miss a `stop` that is
followed by `reset`. The options, `open` and what `stop` does to the port may
fail. A handler runs in one step, for which `mutex_` must be free. `sends`
counts the operations of `async_send`.
-/

namespace HpLib.SerialThreads

open Lib

/-- How far the user is in `start`, in `stop` or in the destructor. -/
inductive Pc where
  | idle
  | published
  | opened
  | created
  | closed
  | halted
  | joining
  | joined
  | gone
  | terminated
  deriving Repr, DecidableEq

/-- `port_`. -/
inductive Port where
  | null
  | closed
  | isOpen
  deriving Repr, DecidableEq

/-- What `cancel` and `close` do in `stop`. -/
inductive Closing where
  | closes
  | cancelThrows
  | closeThrows
  deriving Repr, DecidableEq

/-- `queued` are the reads that have completed and wait for their handler,
`threads` the threads that are in `run` or about to call it. -/
structure State where
  pc : Pc
  port : Port
  stopped : Bool
  reads : Nat
  queued : Nat
  sends : Nat
  threads : Nat
  deriving Repr, DecidableEq

/-- `leave` is a thread that finds the service stopped, `starve` one that
finds no work. -/
inductive Act where
  | start
  | openPort (ok : Bool)
  | createThread
  | asyncReadSome
  | close (how : Closing)
  | halt
  | reset
  | destroy
  | join
  | finish (how : Closing)
  | asyncSend
  | complete
  | handle
  | sent
  | leave
  | starve
  deriving Repr, DecidableEq

namespace State

/-- What keeps `run` from returning. -/
def work (s : State) : Nat :=
  s.reads + s.queued + s.sends

/-- The reads after a call of `async_read_some`. -/
def readsPosted (s : State) : Nat :=
  if s.port = .isOpen then s.reads + 1 else s.reads

/-- `stop` holds the mutex. -/
def locked (s : State) : Bool :=
  s.pc = .closed || s.pc = .halted

/-- A thread in `run` can take a handler. -/
def serving (s : State) : Bool :=
  0 < s.threads && !s.stopped

def start (s : State) : Option State :=
  if s.pc = .idle then
    if s.port = .null then some { s with pc := .published, port := .closed } else some s
  else none

/-- The options and `open`; `port_` stays what it is where they fail. -/
def openPort (s : State) (ok : Bool) : Option State :=
  if s.pc = .published then
    if ok then some { s with pc := .opened, port := .isOpen } else some { s with pc := .idle }
  else none

def createThread (s : State) : Option State :=
  if s.pc = .opened then some { s with pc := .created, threads := s.threads + 1 } else none

def asyncReadSome (s : State) : Option State :=
  if s.pc = .created then some { s with pc := .idle, reads := s.readsPosted } else none

/-- What the port throws goes through `stop` to the user. A port whose `close`
throws is closed. -/
def close (s : State) (how : Closing) : Option State :=
  if s.pc = .idle then
    if s.port = .null ∨ how = .closes then
      some { s with pc := .closed, port := .null, reads := 0, queued := s.queued + s.reads }
    else if how = .cancelThrows then some s
    else some { s with port := .closed, reads := 0, queued := s.queued + s.reads }
  else none

def halt (s : State) : Option State :=
  if s.pc = .closed then some { s with pc := .halted, stopped := true } else none

def reset (s : State) : Option State :=
  if s.pc = .halted then some { s with pc := .idle, stopped := false } else none

def destroy (s : State) : Option State :=
  if s.pc = .idle then some { s with pc := .joining } else none

def join (s : State) : Option State :=
  if s.pc = .joining ∧ s.threads = 0 then some { s with pc := .joined } else none

/-- The call of `stop` in the destructor, from which nothing can be thrown. -/
def finish (s : State) (how : Closing) : Option State :=
  if s.pc = .joined then
    if s.port = .null ∨ how = .closes then some { s with pc := .gone }
    else some { s with pc := .terminated }
  else none

def asyncSend (s : State) : Option State :=
  if s.pc = .idle ∧ s.port ≠ .null then some { s with sends := s.sends + 1 } else none

def complete (s : State) : Option State :=
  if 0 < s.reads then some { s with reads := s.reads - 1, queued := s.queued + 1 } else none

def handle (s : State) : Option State :=
  if s.serving ∧ ¬ s.locked ∧ 0 < s.queued then
    some { s with queued := s.queued - 1, reads := s.readsPosted }
  else none

def sent (s : State) : Option State :=
  if s.serving ∧ 0 < s.sends then some { s with sends := s.sends - 1 } else none

def leave (s : State) : Option State :=
  if 0 < s.threads ∧ s.stopped then some { s with threads := s.threads - 1 } else none

def starve (s : State) : Option State :=
  if s.serving ∧ s.work = 0 then some { s with stopped := true, threads := s.threads - 1 }
  else none

def step (s : State) : Act → Option State
  | .start => s.start
  | .openPort ok => s.openPort ok
  | .createThread => s.createThread
  | .asyncReadSome => s.asyncReadSome
  | .close how => s.close how
  | .halt => s.halt
  | .reset => s.reset
  | .destroy => s.destroy
  | .join => s.join
  | .finish how => s.finish how
  | .asyncSend => s.asyncSend
  | .complete => s.complete
  | .handle => s.handle
  | .sent => s.sent
  | .leave => s.leave
  | .starve => s.starve

end State

def machine : Machine State Act where
  init :=
    { pc := .idle, port := .null, stopped := false, reads := 0, queued := 0, sends := 0,
      threads := 0 }
  step := State.step

/-! ## What a step can do -/

/-- The steps one by one, each with what it finds and what it leaves. -/
inductive Taken (s : State) : Act → State → Prop
  | refused (hpc : s.pc = .idle) (hport : s.port ≠ .null) : Taken s .start s
  | start (hpc : s.pc = .idle) (hport : s.port = .null) :
      Taken s .start { s with pc := .published, port := .closed }
  | openPort (hpc : s.pc = .published) :
      Taken s (.openPort true) { s with pc := .opened, port := .isOpen }
  | failed (hpc : s.pc = .published) : Taken s (.openPort false) { s with pc := .idle }
  | createThread (hpc : s.pc = .opened) :
      Taken s .createThread { s with pc := .created, threads := s.threads + 1 }
  | asyncReadSome (hpc : s.pc = .created) :
      Taken s .asyncReadSome { s with pc := .idle, reads := s.readsPosted }
  | close (how : Closing) (hpc : s.pc = .idle) :
      Taken s (.close how)
        { s with pc := .closed, port := .null, reads := 0, queued := s.queued + s.reads }
  | threw (how : Closing) (hpc : s.pc = .idle) : Taken s (.close how) s
  | threwClosed (how : Closing) (hpc : s.pc = .idle) :
      Taken s (.close how)
        { s with port := .closed, reads := 0, queued := s.queued + s.reads }
  | halt (hpc : s.pc = .closed) : Taken s .halt { s with pc := .halted, stopped := true }
  | reset (hpc : s.pc = .halted) : Taken s .reset { s with pc := .idle, stopped := false }
  | destroy (hpc : s.pc = .idle) : Taken s .destroy { s with pc := .joining }
  | join (hpc : s.pc = .joining) (hnone : s.threads = 0) : Taken s .join { s with pc := .joined }
  | finish (how : Closing) (hpc : s.pc = .joined) (hok : s.port = .null ∨ how = .closes) :
      Taken s (.finish how) { s with pc := .gone }
  | terminated (how : Closing) (hpc : s.pc = .joined)
      (hthrows : ¬ (s.port = .null ∨ how = .closes)) :
      Taken s (.finish how) { s with pc := .terminated }
  | asyncSend (hpc : s.pc = .idle) : Taken s .asyncSend { s with sends := s.sends + 1 }
  | complete (hreads : 0 < s.reads) :
      Taken s .complete { s with reads := s.reads - 1, queued := s.queued + 1 }
  | handle (hthreads : 0 < s.threads) (hrun : s.stopped = false) (hqueued : 0 < s.queued) :
      Taken s .handle { s with queued := s.queued - 1, reads := s.readsPosted }
  | sent (hrun : s.stopped = false) (hsends : 0 < s.sends) :
      Taken s .sent { s with sends := s.sends - 1 }
  | leave (hthreads : 0 < s.threads) (hstopped : s.stopped = true) :
      Taken s .leave { s with threads := s.threads - 1 }
  | starve (hthreads : 0 < s.threads) (hrun : s.stopped = false) (hwork : s.work = 0) :
      Taken s .starve { s with stopped := true, threads := s.threads - 1 }

theorem State.serving_iff {s : State} : s.serving = true ↔ 0 < s.threads ∧ s.stopped = false := by
  simp [State.serving]

theorem State.taken {s s' : State} {a : Act} (hs : s.step a = some s') : Taken s a s' := by
  cases a with
  | start =>
      rw [State.step, State.start] at hs
      split at hs
      · rename_i hpc
        split at hs <;> rename_i hport <;> cases hs
        · exact .start hpc hport
        · exact .refused hpc hport
      · cases hs
  | openPort ok =>
      rw [State.step, State.openPort] at hs
      split at hs
      · rename_i hpc
        cases ok <;> cases hs
        · exact .failed hpc
        · exact .openPort hpc
      · cases hs
  | createThread =>
      rw [State.step, State.createThread] at hs
      split at hs <;> cases hs
      exact .createThread ‹_›
  | asyncReadSome =>
      rw [State.step, State.asyncReadSome] at hs
      split at hs <;> cases hs
      exact .asyncReadSome ‹_›
  | close how =>
      rw [State.step, State.close] at hs
      split at hs
      · rename_i hpc
        split at hs
        · cases hs
          exact .close how hpc
        · split at hs <;> cases hs
          · exact .threw how hpc
          · exact .threwClosed how hpc
      · cases hs
  | halt =>
      rw [State.step, State.halt] at hs
      split at hs <;> cases hs
      exact .halt ‹_›
  | reset =>
      rw [State.step, State.reset] at hs
      split at hs <;> cases hs
      exact .reset ‹_›
  | destroy =>
      rw [State.step, State.destroy] at hs
      split at hs <;> cases hs
      exact .destroy ‹_›
  | join =>
      rw [State.step, State.join] at hs
      split at hs <;> cases hs
      rename_i h
      exact .join h.1 h.2
  | finish how =>
      rw [State.step, State.finish] at hs
      split at hs
      · rename_i hpc
        split at hs <;> rename_i hok <;> cases hs
        · exact .finish how hpc hok
        · exact .terminated how hpc hok
      · cases hs
  | asyncSend =>
      rw [State.step, State.asyncSend] at hs
      split at hs <;> cases hs
      rename_i h
      exact .asyncSend h.1
  | complete =>
      rw [State.step, State.complete] at hs
      split at hs <;> cases hs
      exact .complete ‹_›
  | handle =>
      rw [State.step, State.handle] at hs
      split at hs <;> cases hs
      rename_i h
      obtain ⟨hthreads, hrun⟩ := State.serving_iff.mp h.1
      exact .handle hthreads hrun h.2.2
  | sent =>
      rw [State.step, State.sent] at hs
      split at hs <;> cases hs
      rename_i h
      exact .sent (State.serving_iff.mp h.1).2 h.2
  | leave =>
      rw [State.step, State.leave] at hs
      split at hs <;> cases hs
      rename_i h
      exact .leave h.1 h.2
  | starve =>
      rw [State.step, State.starve] at hs
      split at hs <;> cases hs
      rename_i h
      obtain ⟨hthreads, hrun⟩ := State.serving_iff.mp h.1
      exact .starve hthreads hrun h.2

/-! ## Who listens -/

/-- The port is open, a read of it is outstanding or has its handler to come,
and there is a thread to run it. -/
structure State.Listens (s : State) : Prop where
  port : s.port = .isOpen
  running : s.stopped = false
  threads : 0 < s.threads
  reads : 0 < s.reads + s.queued

/-- What is always so. -/
structure Sound (s : State) : Prop where
  quiet : s.port ≠ .isOpen → s.reads = 0
  published : s.pc = .published → s.port = .closed
  opened : s.pc = .opened ∨ s.pc = .created → s.port = .isOpen
  closed : s.pc = .closed ∨ s.pc = .halted → s.port = .null
  created : s.pc = .created → s.stopped = false → 0 < s.threads
  up : s.pc = .idle ∨ s.pc = .joining → s.port = .isOpen → s.stopped = false → s.Listens

variable {s s' : State} {a : Act}

theorem Sound.init : Sound machine.init where
  quiet _ := rfl
  published := nofun
  opened := nofun
  closed := nofun
  created := nofun
  up _ := nofun

theorem State.readsPosted_of_open (h : s.port = .isOpen) : s.readsPosted = s.reads + 1 :=
  if_pos h

theorem State.readsPosted_of_ne (h : s.port ≠ .isOpen) : s.readsPosted = s.reads :=
  if_neg h

theorem Sound.step (h : Sound s) (hs : s.step a = some s') : Sound s' := by
  cases State.taken hs with
  | refused | threw => exact h
  | start hpc hport =>
      refine ⟨fun _ => h.quiet ?_, fun _ => rfl, nofun, nofun, nofun, nofun⟩
      rw [hport]
      exact nofun
  | openPort hpc => exact ⟨fun hne => absurd rfl hne, nofun, fun _ => rfl, nofun, nofun, nofun⟩
  | failed hpc =>
      have hport := h.published hpc
      refine ⟨h.quiet, nofun, nofun, nofun, nofun, fun _ hopen => ?_⟩
      cases hport.symm.trans hopen
  | createThread hpc =>
      exact ⟨h.quiet, nofun, fun _ => h.opened (.inl hpc), nofun, fun _ _ => Nat.succ_pos _, nofun⟩
  | asyncReadSome hpc =>
      have hport := h.opened (.inr hpc)
      have hreads := State.readsPosted_of_open hport
      refine ⟨fun hne => absurd hport hne, nofun, nofun, nofun, nofun, fun _ _ hrun => ?_⟩
      refine ⟨hport, hrun, h.created hpc hrun, ?_⟩
      show 0 < s.readsPosted + s.queued
      omega
  | close how hpc => exact ⟨fun _ => rfl, nofun, nofun, fun _ => rfl, nofun, nofun⟩
  | threwClosed how hpc =>
      refine ⟨fun _ => rfl, fun hat => ?_, fun hat => ?_, fun hat => ?_, fun hat => ?_, nofun⟩
      all_goals simp [hpc] at hat
  | halt hpc => exact ⟨h.quiet, nofun, nofun, fun _ => h.closed (.inl hpc), nofun, nofun⟩
  | reset hpc =>
      have hport := h.closed (.inr hpc)
      refine ⟨h.quiet, nofun, nofun, nofun, nofun, fun _ hopen => ?_⟩
      cases hport.symm.trans hopen
  | destroy hpc =>
      refine ⟨h.quiet, nofun, nofun, nofun, nofun, fun _ hopen hrun => ?_⟩
      exact ⟨hopen, hrun, (h.up (.inl hpc) hopen hrun).threads,
        (h.up (.inl hpc) hopen hrun).reads⟩
  | join | finish | terminated => exact ⟨h.quiet, nofun, nofun, nofun, nofun, nofun⟩
  | asyncSend | sent =>
      refine ⟨h.quiet, h.published, h.opened, h.closed, h.created, fun hpc hopen hrun => ?_⟩
      exact ⟨hopen, hrun, (h.up hpc hopen hrun).threads, (h.up hpc hopen hrun).reads⟩
  | complete hreads =>
      refine ⟨fun hne => ?_, h.published, h.opened, h.closed, h.created,
        fun hpc hopen hrun => ?_⟩
      · show s.reads - 1 = 0
        rw [h.quiet hne]
      · exact ⟨hopen, hrun, (h.up hpc hopen hrun).threads, Nat.succ_pos _⟩
  | handle hthreads hrun hqueued =>
      refine ⟨fun hne => ?_, h.published, h.opened, h.closed, h.created, fun hpc hopen _ => ?_⟩
      · show s.readsPosted = 0
        rw [State.readsPosted_of_ne (s := s) hne]
        exact h.quiet hne
      · refine ⟨hopen, hrun, hthreads, ?_⟩
        show 0 < s.readsPosted + (s.queued - 1)
        rw [State.readsPosted_of_open (s := s) hopen]
        omega
  | leave hthreads hstopped =>
      refine ⟨h.quiet, h.published, h.opened, h.closed, fun _ hrun => ?_, fun _ _ hrun => ?_⟩
      all_goals cases hstopped.symm.trans hrun
  | starve hthreads hrun hwork =>
      exact ⟨h.quiet, h.published, h.opened, h.closed, nofun, nofun⟩

theorem sound_of_reachable (h : machine.Reachable s) : Sound s :=
  h.inv Sound.init fun _ _ _ h hs => h.step hs

/-! ## Before the thread looks -/

/-- The first read of a start is posted while the service is not stopped. -/
def State.InTime (s : State) (a : Act) : Prop :=
  a = .asyncReadSome → s.stopped = false

/-- A port that a start has opened listens. -/
def State.Hears (s : State) : Prop :=
  s.pc = .idle → s.port = .isOpen → s.Listens

instance (s : State) (a : Act) : Decidable (s.InTime a) :=
  inferInstanceAs (Decidable (_ → _))

theorem hears_step (h : Sound s) (hears : s.Hears) (htime : s.InTime a)
    (hs : s.step a = some s') : s'.Hears := by
  intro hpc' hopen'
  have hup := (h.step hs).up (.inl hpc') hopen'
  cases State.taken hs with
  | refused | threw => exact hears hpc' hopen'
  | start | openPort | createThread | close | halt | destroy | join | finish | terminated =>
      cases hpc'
  | threwClosed => cases hopen'
  | failed hpc => cases (h.published hpc).symm.trans hopen'
  | reset hpc => cases (h.closed (.inr hpc)).symm.trans hopen'
  | asyncReadSome hpc => exact hup (htime rfl)
  | asyncSend | complete | handle | sent => exact hup (hears hpc' hopen').running
  | leave hthreads hstopped => cases hstopped.symm.trans (hears hpc' hopen').running
  | starve hthreads hrun hwork =>
      have hreads := (hears hpc' hopen').reads
      rw [State.work] at hwork
      omega

/-- A read posted too late has nobody to run its handler. -/
theorem not_hears_step (h : Sound s) (hlate : ¬ s.InTime a) (hs : s.step a = some s') :
    ¬ s'.Hears := by
  rw [State.InTime, Classical.not_imp] at hlate
  obtain ⟨rfl, hstopped⟩ := hlate
  cases State.taken hs with
  | asyncReadSome hpc =>
      intro hears
      exact hstopped (hears rfl (h.opened (.inr hpc))).running

/-- **A started port hears exactly if its first read was in time**: in a run
of starts and stops, completions and threads, every port that is open with no
call in progress has a read and a thread to handle it, if and only if in each
start the read is posted before a thread, the new one or one left over, has
run out of work and stopped the service. -/
theorem hears_iff_inTime (as : List Act) :
    machine.Always State.Hears machine.init as ↔ machine.Guarded State.InTime machine.init as := by
  refine Machine.always_iff_guarded_of_inv (P := fun s => Sound s ∧ s.Hears) ?_ (fun _ h => h.2)
    ?_ ⟨Sound.init, nofun⟩ as
  · rintro s a s' ⟨h, hears⟩ htime hs
    exact ⟨h.step hs, hears_step h hears htime hs⟩
  · exact fun s a s' h hlate hs => not_hears_step h.1 hlate hs

/-- A port whose service has stopped under it. -/
structure Deaf (s : State) : Prop where
  port : s.port = .isOpen
  stopped : s.stopped = true
  pc : s.pc ≠ .published ∧ s.pc ≠ .opened ∧ s.pc ≠ .created ∧ s.pc ≠ .closed ∧ s.pc ≠ .halted

theorem Deaf.step (h : Deaf s) (ha : ∀ how, a ≠ .close how) (hs : s.step a = some s') :
    Deaf s' ∧ a ≠ .handle := by
  obtain ⟨hpublished, hopened, hcreated, hclosed, hhalted⟩ := h.pc
  cases State.taken hs with
  | refused => exact ⟨h, nofun⟩
  | start _ hport => cases hport.symm.trans h.port
  | openPort hat | failed hat => exact absurd hat hpublished
  | createThread hat => exact absurd hat hopened
  | asyncReadSome hat => exact absurd hat hcreated
  | halt hat => exact absurd hat hclosed
  | reset hat => exact absurd hat hhalted
  | close how | threw how | threwClosed how => exact absurd rfl (ha how)
  | destroy | join | finish | terminated =>
      exact ⟨⟨h.port, h.stopped, nofun, nofun, nofun, nofun, nofun⟩, nofun⟩
  | asyncSend | complete | sent | leave => exact ⟨⟨h.port, h.stopped, h.pc⟩, nofun⟩
  | handle _ hrun => cases h.stopped.symm.trans hrun
  | starve => exact ⟨⟨h.port, rfl, h.pc⟩, nofun⟩

/-- A port that does not hear is deaf until it is stopped. -/
theorem deaf_until_stop (h : machine.Reachable s) (hpc : s.pc = .idle) (hopen : s.port = .isOpen)
    (hnot : ¬ s.Listens) {as : List Act} {t : State} (hrun : machine.exec s as = some t)
    (hstop : ∀ how, .close how ∉ as) : .handle ∉ as := by
  have hdeaf : Deaf s := by
    refine ⟨hopen, ?_, by rw [hpc]; exact ⟨nofun, nofun, nofun, nofun, nofun⟩⟩
    by_contra hgo
    exact hnot ((sound_of_reachable h).up (.inl hpc) hopen (by simpa using hgo))
  clear h hpc hopen hnot
  induction as generalizing s with
  | nil => exact List.not_mem_nil
  | cons a as ih =>
      obtain ⟨u, hu, hrest⟩ := Machine.exec_cons_eq_some.mp hrun
      obtain ⟨hdeaf', hne⟩ := hdeaf.step (fun how heq => hstop how (heq ▸ List.mem_cons_self)) hu
      rw [List.mem_cons, not_or]
      exact ⟨hne.symm, ih hrest (fun how hmem => hstop how (List.mem_cons_of_mem a hmem)) hdeaf'⟩

/-- The thread is quicker than `start`. -/
example : ¬ machine.Guarded State.InTime machine.init
    [.start, .openPort true, .createThread, .starve, .asyncReadSome] := by
  decide

/-- The thread of the first start misses the `stop`, and takes it out on the
second. -/
example : ¬ machine.Guarded State.InTime machine.init
    [.start, .openPort true, .createThread, .asyncReadSome, .close .closes, .halt, .reset, .handle,
     .starve, .start, .openPort true, .createThread, .asyncReadSome] := by
  decide

/-! ## The destructor -/

/-- It has returned, or the program has ended in it. -/
def State.Over (s : State) : Prop :=
  s.pc = .gone ∨ s.pc = .terminated

/-- How many steps are left to the destructor itself. -/
def Pc.left : Pc → Nat
  | .gone | .terminated => 0
  | .joined => 1
  | .idle | .published | .opened | .created | .closed | .halted | .joining => 2

/-- With those of the threads and the operations. -/
def State.left (s : State) : Nat :=
  2 * s.reads + s.queued + s.sends + s.threads + s.pc.left

/-- The destructor has been entered. -/
def State.Entered (s : State) : Prop :=
  s.pc = .joining ∨ s.pc = .joined ∨ s.Over

/-- It waits for threads that will end, or has done so. -/
structure Ending (s : State) : Prop where
  sound : Sound s
  pc : s.Entered
  idle : s.port = .isOpen → s.stopped = true

/-- No call of the user is under way then. -/
theorem State.Entered.not_in_call (h : s.Entered) {pc : Pc} (hpc : s.pc = pc) (hleft : pc.left = 2)
    (hne : pc ≠ .joining) : False := by
  subst hpc
  rcases h with hpc | hpc | hpc | hpc
  · exact hne hpc
  all_goals
    rw [hpc] at hleft
    cases hleft

/-- The destructor joins, or stops the port, or others move. -/
theorem State.Entered.step (h : s.Entered) (hs : s.step a = some s') :
    (s.pc = .joining ∧ s'.pc = .joined ∧ s'.port = s.port ∧ a = .join) ∨
      (s.pc = .joined ∧ s'.Over ∧
        ∃ how, a = .finish how ∧ (s'.pc = .gone ↔ s.port = .null ∨ how = .closes)) ∨
      (s'.pc = s.pc ∧ s'.port = s.port ∧ ∀ how, a ≠ .finish how) := by
  cases State.taken hs with
  | refused hpc | start hpc | openPort hpc | failed hpc | createThread hpc | asyncReadSome hpc
  | close _ hpc | threw _ hpc | threwClosed _ hpc | halt hpc | reset hpc | destroy hpc
  | asyncSend hpc =>
      exact (h.not_in_call hpc rfl nofun).elim
  | join hpc => exact .inl ⟨hpc, rfl, rfl, rfl⟩
  | finish how hpc hok => exact .inr (.inl ⟨hpc, .inl rfl, how, rfl, iff_of_true rfl hok⟩)
  | terminated how hpc hthrows =>
      exact .inr (.inl ⟨hpc, .inr rfl, how, rfl, iff_of_false nofun hthrows⟩)
  | complete | handle | sent | leave | starve => exact .inr (.inr ⟨rfl, rfl, nofun⟩)

/-- While the destructor waits, a port that listens goes on listening. -/
theorem State.Listens.step (h : s.Listens) (hpc : s.pc = .joining) (hs : s.step a = some s') :
    s'.Listens ∧ s'.pc = .joining := by
  obtain ⟨hport, hrun, hthreads, hreads⟩ := h
  cases State.taken hs with
  | refused hpc' | start hpc' | openPort hpc' | failed hpc' | createThread hpc'
  | asyncReadSome hpc' | close _ hpc' | threw _ hpc' | threwClosed _ hpc' | halt hpc'
  | reset hpc' | destroy hpc' | finish _ hpc' | terminated _ hpc' | asyncSend hpc' =>
      cases hpc.symm.trans hpc'
  | join _ hnone => exact absurd hnone (Nat.ne_of_gt hthreads)
  | complete => exact ⟨⟨hport, hrun, hthreads, Nat.succ_pos _⟩, hpc⟩
  | handle _ _ hqueued =>
      refine ⟨⟨hport, hrun, hthreads, ?_⟩, hpc⟩
      show 0 < s.readsPosted + (s.queued - 1)
      rw [State.readsPosted_of_open hport]
      omega
  | sent => exact ⟨⟨hport, hrun, hthreads, hreads⟩, hpc⟩
  | leave _ hstopped => cases hstopped.symm.trans hrun
  | starve _ _ hwork =>
      rw [State.work] at hwork
      omega

/-- Otherwise every step brings the end nearer. -/
theorem Ending.step (h : Ending s) (hs : s.step a = some s') : Ending s' ∧ s'.left < s.left := by
  have hsound := h.sound.step hs
  cases State.taken hs with
  | refused hpc | start hpc | openPort hpc | failed hpc | createThread hpc | asyncReadSome hpc
  | close _ hpc | threw _ hpc | threwClosed _ hpc | halt hpc | reset hpc | destroy hpc
  | asyncSend hpc =>
      exact (h.pc.not_in_call hpc rfl nofun).elim
  | join hpc hnone =>
      refine ⟨⟨hsound, .inr (.inl rfl), h.idle⟩, ?_⟩
      simp [State.left, Pc.left, hpc]
  | finish how hpc =>
      refine ⟨⟨hsound, .inr (.inr (.inl rfl)), h.idle⟩, ?_⟩
      simp [State.left, Pc.left, hpc]
  | terminated how hpc =>
      refine ⟨⟨hsound, .inr (.inr (.inr rfl)), h.idle⟩, ?_⟩
      simp [State.left, Pc.left, hpc]
  | complete hreads =>
      refine ⟨⟨hsound, h.pc, h.idle⟩, ?_⟩
      simp only [State.left]
      omega
  | handle hthreads hrun hqueued =>
      refine ⟨⟨hsound, h.pc, h.idle⟩, ?_⟩
      have hclosed : s.port ≠ .isOpen := fun hopen => by cases (h.idle hopen).symm.trans hrun
      simp only [State.left, State.readsPosted_of_ne hclosed]
      omega
  | sent hrun hsends =>
      refine ⟨⟨hsound, h.pc, h.idle⟩, ?_⟩
      simp only [State.left]
      omega
  | leave hthreads hstopped =>
      refine ⟨⟨hsound, h.pc, h.idle⟩, ?_⟩
      simp only [State.left]
      omega
  | starve hthreads hrun hwork =>
      refine ⟨⟨hsound, h.pc, fun _ => rfl⟩, ?_⟩
      simp only [State.left]
      omega

theorem Sound.ending (h : Sound s) (hpc : s.pc = .joining) (hdeaf : ¬ s.Listens) : Ending s := by
  refine ⟨h, .inl hpc, fun hopen => ?_⟩
  by_contra hrun
  exact hdeaf (h.up (.inr hpc) hopen (by simpa using hrun))

/-! ## How it ends -/

/-- The destructor has yet to end. -/
def State.Waits (s : State) : Prop :=
  s.pc = .joining ∨ s.pc = .joined

theorem State.Waits.not_over (h : s.Waits) : ¬ s.Over := by
  rintro (hpc | hpc)
  all_goals
    rw [State.Waits, hpc] at h
    rcases h with h | h <;> cases h

theorem State.Waits.entered (h : s.Waits) : s.Entered :=
  h.imp_right .inl

/-- Until the destructor ends nobody touches the port. -/
theorem State.Waits.step (h : s.Waits) (hs : s.step a = some s') :
    (s'.Waits ∧ s'.port = s.port ∧ a ≠ .finish .closes) ∨
      ∃ how, a = .finish how ∧ s'.Over ∧ (s'.pc = .gone ↔ s.port = .null ∨ how = .closes) := by
  rcases h.entered.step hs with ⟨-, hpc, hport, rfl⟩ | ⟨-, hover, how, rfl, hgone⟩ |
    ⟨hpc, hport, hne⟩
  · exact .inl ⟨.inr hpc, hport, nofun⟩
  · exact .inr ⟨how, rfl, hover, hgone⟩
  · refine .inl ⟨?_, hport, hne .closes⟩
    rw [State.Waits, hpc]
    exact h

/-- Nothing changes how it has ended. -/
theorem State.Over.step (h : s.Over) (hs : s.step a = some s') :
    s'.pc = s.pc ∧ a ≠ .finish .closes := by
  rcases State.Entered.step (.inr (.inr h)) hs with ⟨hpc, -⟩ | ⟨hpc, -⟩ | ⟨hpc, -, hne⟩
  · exact absurd h (State.Waits.not_over (.inl hpc))
  · exact absurd h (State.Waits.not_over (.inr hpc))
  · exact ⟨hpc, hne .closes⟩

theorem State.Over.exec (h : s.Over) {as : List Act} {t : State}
    (hrun : machine.exec s as = some t) : t.pc = s.pc ∧ .finish .closes ∉ as := by
  induction as generalizing s with
  | nil =>
      cases hrun
      exact ⟨rfl, List.not_mem_nil⟩
  | cons a as ih =>
      obtain ⟨u, hu, hrest⟩ := Machine.exec_cons_eq_some.mp hrun
      obtain ⟨hpc, hne⟩ := h.step hu
      obtain ⟨hpc', hnot⟩ := ih (by rw [State.Over, hpc]; exact h) hrest
      rw [List.mem_cons, not_or]
      exact ⟨hpc'.trans hpc, hne.symm, hnot⟩

/-- It returns where there is no port or nothing is thrown, and else ends the
program. -/
theorem State.Waits.exec (h : s.Waits) {as : List Act} {t : State}
    (hrun : machine.exec s as = some t) (hover : t.Over) :
    t.pc = .gone ↔ s.port = .null ∨ .finish .closes ∈ as := by
  induction as generalizing s with
  | nil =>
      cases hrun
      exact absurd hover h.not_over
  | cons a as ih =>
      obtain ⟨u, hu, hrest⟩ := Machine.exec_cons_eq_some.mp hrun
      rw [List.mem_cons]
      rcases h.step hu with ⟨hwaits, hport, hne⟩ | ⟨how, rfl, hended, hgone⟩
      · rw [ih hwaits hrest, hport]
        simp [hne.symm]
      · obtain ⟨hpc, hnot⟩ := hended.exec hrest
        rw [hpc, hgone]
        simp [hnot, eq_comm]

end HpLib.SerialThreads
