import HpLib.Lib.Machine
import HpLib.Lib.Pool
import HpLib.Peripheral.SerialPort

/-!
# The reads of a SerialPort

A user who calls `start` and `stop`, and the io threads that run
`handle_read_data`. `stop` and the handler hold `mutex_`; `start` does not,
so its three steps interleave with a handler. The options and `open` go well
here.

The ports are numbered. A `Read` remembers the port it was posted on, which
the source does not: its handler posts the next read on whatever `port_` is
when it runs. Of Asio it is assumed that `cancel` and `close` complete the
outstanding read with an error, whose handler may run much later. `posts` is
history.
-/

namespace HpLib.SerialReads

open Lib

/-- How far the user is in `start`. -/
inductive Pc where
  | idle
  | published
  | opened
  deriving Repr, DecidableEq

/-- A read is outstanding, or completed and queued for its handler. -/
inductive Phase where
  | posted
  | queued (error : Bool)
  deriving Repr, DecidableEq

structure Read where
  port : Nat
  phase : Phase
  deriving Repr, DecidableEq

/-- A read that a completion of `source` posted on `target`. -/
structure Post where
  source : Nat
  target : Nat
  deriving Repr, DecidableEq

/-- `handler` is the completion whose handler holds `mutex_`. -/
structure State where
  pc : Pc
  port : Option Nat
  isOpen : Bool
  ports : Nat
  reads : List Read
  handler : Option Read
  posts : List Post
  deriving Repr, DecidableEq

/-- `handle` takes the handler up to its test of `port_`, `rearm` through its
`async_read_some`. -/
inductive Act where
  | start
  | openPort
  | postRead
  | stop
  | complete (r : Read) (error : Bool)
  | handle (r : Read)
  | rearm
  deriving Repr, DecidableEq

/-- `cancel` and `close` abort a read that is outstanding. -/
def Read.abort (r : Read) : Read :=
  match r.phase with
  | .posted => { r with phase := .queued true }
  | .queued _ => r

namespace State

/-- The port that `async_read_some` would post on. -/
def target (s : State) : Option Nat :=
  if s.isOpen then s.port else none

def asyncReadSome (s : State) : List Read :=
  match s.target with
  | some q => ⟨q, .posted⟩ :: s.reads
  | none => s.reads

def start (s : State) : Option State :=
  if s.pc = .idle then
    if s.port.isSome then some s
    else some { s with pc := .published, port := some s.ports, isOpen := false,
                       ports := s.ports + 1 }
  else none

def openPort (s : State) : Option State :=
  if s.pc = .published then some { s with pc := .opened, isOpen := true } else none

def postRead (s : State) : Option State :=
  if s.pc = .opened then some { s with pc := .idle, reads := s.asyncReadSome } else none

def stop (s : State) : Option State :=
  if s.pc = .idle ∧ s.handler = none then
    if s.port.isSome then
      some { s with port := none, isOpen := false, reads := s.reads.map Read.abort }
    else some s
  else none

def complete (s : State) (r : Read) (error : Bool) : Option State :=
  if r ∈ s.reads ∧ r.phase = .posted then
    some { s with reads := swap s.reads r { r with phase := .queued error } }
  else none

def handle (s : State) (r : Read) : Option State :=
  if s.handler = none ∧ r ∈ s.reads ∧ r.phase ≠ .posted then
    if s.target.isSome then some { s with reads := s.reads.erase r, handler := some r }
    else some { s with reads := s.reads.erase r }
  else none

def rearm (s : State) : Option State :=
  match s.handler with
  | some r =>
      some { s with
        handler := none
        reads := s.asyncReadSome
        posts := s.posts ++ s.target.toList.map fun q => ⟨r.port, q⟩ }
  | none => none

def step (s : State) : Act → Option State
  | .start => s.start
  | .openPort => s.openPort
  | .postRead => s.postRead
  | .stop => s.stop
  | .complete r error => s.complete r error
  | .handle r => s.handle r
  | .rearm => s.rearm

end State

def machine : Machine State Act where
  init :=
    { pc := .idle, port := none, isOpen := false, ports := 0, reads := [], handler := none,
      posts := [] }
  step := State.step

/-! ## What a step can do -/

/-- The steps one by one, each with what it finds and what it leaves. -/
inductive Taken (s : State) : Act → State → Prop
  | refused (hpc : s.pc = .idle) (hport : s.port.isSome = true) : Taken s .start s
  | start (hpc : s.pc = .idle) (hport : s.port = none) :
      Taken s .start
        { s with pc := .published, port := some s.ports, isOpen := false, ports := s.ports + 1 }
  | openPort (hpc : s.pc = .published) :
      Taken s .openPort { s with pc := .opened, isOpen := true }
  | postRead (hpc : s.pc = .opened) :
      Taken s .postRead { s with pc := .idle, reads := s.asyncReadSome }
  | stop (hpc : s.pc = .idle) (hhandler : s.handler = none) (hport : s.port.isSome = true) :
      Taken s .stop { s with port := none, isOpen := false, reads := s.reads.map Read.abort }
  | stopped (hpc : s.pc = .idle) (hhandler : s.handler = none) (hport : s.port = none) :
      Taken s .stop s
  | complete (r : Read) (error : Bool) (hr : r ∈ s.reads) (hph : r.phase = .posted) :
      Taken s (.complete r error)
        { s with reads := swap s.reads r { r with phase := .queued error } }
  | handle (r : Read) (q : Nat) (hhandler : s.handler = none) (hr : r ∈ s.reads)
      (htarget : s.target = some q) :
      Taken s (.handle r) { s with reads := s.reads.erase r, handler := some r }
  | dropped (r : Read) (hhandler : s.handler = none) (hr : r ∈ s.reads)
      (htarget : s.target = none) :
      Taken s (.handle r) { s with reads := s.reads.erase r }
  | rearm (r : Read) (hhandler : s.handler = some r) :
      Taken s .rearm
        { s with
          handler := none
          reads := s.asyncReadSome
          posts := s.posts ++ s.target.toList.map fun q => ⟨r.port, q⟩ }

theorem State.taken {s s' : State} {a : Act} (hs : s.step a = some s') : Taken s a s' := by
  cases a with
  | start =>
      rw [State.step, State.start] at hs
      split at hs
      · rename_i hpc
        split at hs <;> rename_i hport <;> cases hs
        · exact .refused hpc hport
        · exact .start hpc (Option.not_isSome_iff_eq_none.mp hport)
      · cases hs
  | openPort =>
      rw [State.step, State.openPort] at hs
      split at hs <;> cases hs
      rename_i hpc
      exact .openPort hpc
  | postRead =>
      rw [State.step, State.postRead] at hs
      split at hs <;> cases hs
      rename_i hpc
      exact .postRead hpc
  | stop =>
      rw [State.step, State.stop] at hs
      split at hs
      · rename_i hfree
        split at hs <;> rename_i hport <;> cases hs
        · exact .stop hfree.1 hfree.2 hport
        · exact .stopped hfree.1 hfree.2 (Option.not_isSome_iff_eq_none.mp hport)
      · cases hs
  | complete r error =>
      rw [State.step, State.complete] at hs
      split at hs <;> cases hs
      rename_i hr
      exact .complete r error hr.1 hr.2
  | handle r =>
      rw [State.step, State.handle] at hs
      split at hs
      · rename_i hr
        split at hs <;> rename_i htarget <;> cases hs
        · obtain ⟨q, hq⟩ := Option.isSome_iff_exists.mp htarget
          exact .handle r q hr.1 hr.2.1 hq
        · exact .dropped r hr.1 hr.2.1 (Option.not_isSome_iff_eq_none.mp htarget)
      · cases hs
  | rearm =>
      rw [State.step, State.rearm] at hs
      split at hs <;> cases hs
      rename_i r hhandler
      exact .rearm r hhandler

/-! ## One read at a time -/

/-- How many reads into `data_` are outstanding on an open port. -/
def State.outstanding (s : State) : Nat :=
  s.reads.countP fun r => decide (r.phase = .posted ∧ s.target = some r.port)

/-- At most one read is outstanding, and no completion has posted one on
another port than its own. -/
def State.Exclusive (s : State) : Prop :=
  s.outstanding ≤ 1 ∧ ∀ e ∈ s.posts, e.source = e.target

/-- A handler gets `mutex_` while the port of its read is the open one, or
none is. -/
def State.OwnPort (s : State) : Act → Prop
  | .handle r => ∀ q ∈ s.target, q = r.port
  | _ => True

instance (s : State) : (a : Act) → Decidable (s.OwnPort a)
  | .handle r => inferInstanceAs (Decidable (∀ q ∈ s.target, q = r.port))
  | .start | .openPort | .postRead | .stop | .complete _ _ | .rearm => .isTrue trivial

/-- The reads of port `q`, outstanding or queued. -/
def readsOf (q : Nat) (rs : List Read) : Nat :=
  rs.countP fun r => decide (r.port = q)

/-- The read whose handler holds the mutex. -/
def State.held (s : State) : Nat :=
  match s.handler with
  | some _ => 1
  | none => 0

theorem State.held_of_free {s : State} (h : s.handler = none) : s.held = 0 := by
  rw [State.held, h]

/-- How many reads the port may have: none before `start` posts the first. -/
def Pc.room : Pc → Nat
  | .idle => 1
  | .published | .opened => 0

variable {s s' : State} {r : Read} {q : Nat}

@[simp] theorem Read.abort_port (r : Read) : r.abort.port = r.port := by
  unfold Read.abort
  split <;> rfl

theorem State.port_of_target (h : s.target = some q) : s.port = some q := by
  unfold State.target at h
  split at h
  · exact h
  · cases h

theorem State.mem_asyncReadSome (h : r ∈ s.asyncReadSome) :
    s.target = some r.port ∨ r ∈ s.reads := by
  unfold State.asyncReadSome at h
  split at h
  · rename_i q htarget
    rcases List.mem_cons.mp h with rfl | h
    · exact .inl htarget
    · exact .inr h
  · exact .inr h

theorem readsOf_asyncReadSome_le : readsOf q s.asyncReadSome ≤ readsOf q s.reads + 1 := by
  unfold State.asyncReadSome
  split
  · rw [readsOf, List.countP_cons]
    split
    · exact Nat.le_refl _
    · exact Nat.le_succ _
  · exact Nat.le_succ _

theorem readsOf_erase_add (hr : r ∈ s.reads) (hport : r.port = q) :
    readsOf q (s.reads.erase r) + 1 = readsOf q s.reads := by
  have h := countP_erase_of_mem (fun r => decide (r.port = q)) hr
  rw [if_pos (decide_eq_true hport)] at h
  exact h

/-- Each port has at most one read, be it outstanding, queued or handled. -/
structure Own (s : State) : Prop where
  numbered : ∀ q, s.port = some q → q < s.ports
  known : ∀ r ∈ s.reads, r.port < s.ports
  count : ∀ q, s.port = some q → readsOf q s.reads + s.held ≤ s.pc.room
  holder : ∀ r, s.handler = some r → s.target = some r.port
  posts : ∀ e ∈ s.posts, e.source = e.target

theorem Own.init : Own machine.init where
  numbered := nofun
  known := nofun
  count := nofun
  holder := nofun
  posts := nofun

/-- A read that has not been posted yet is on a port that is open. -/
theorem Own.known_asyncReadSome (h : Own s) : ∀ r ∈ s.asyncReadSome, r.port < s.ports := by
  intro r hr
  rcases State.mem_asyncReadSome hr with htarget | hr
  · exact h.numbered _ (State.port_of_target htarget)
  · exact h.known r hr

/-- No read of a port that does not exist yet. -/
theorem Own.readsOf_ports (h : Own s) : readsOf s.ports s.reads = 0 := by
  refine List.countP_eq_zero.mpr fun r hr hport => ?_
  exact Nat.lt_irrefl _ (of_decide_eq_true hport ▸ h.known r hr)

/-- While there is no port no handler is past its test. -/
theorem Own.handler_of_port (h : Own s) (hport : s.port = none) : s.handler = none := by
  cases hhandler : s.handler with
  | none => rfl
  | some r =>
      have := State.port_of_target (h.holder r hhandler)
      rw [hport] at this
      cases this

/-- A new port has no read, and no handler is past its test to give it one. -/
theorem Own.publish (h : Own s) (hport : s.port = none) :
    Own { s with pc := .published, port := some s.ports, isOpen := false,
                 ports := s.ports + 1 } := by
  have hfree := h.handler_of_port hport
  refine ⟨?_, fun r hr => Nat.lt_succ_of_lt (h.known r hr), ?_, ?_, h.posts⟩
  · intro q hq
    cases hq
    exact Nat.lt_succ_self _
  · intro q hq
    cases hq
    show readsOf s.ports s.reads + s.held ≤ 0
    rw [h.readsOf_ports, State.held_of_free hfree]
  · intro r hr
    exact absurd (hr.symm.trans hfree) nofun

theorem Own.openPort (h : Own s) (hpc : s.pc = .published) :
    Own { s with pc := .opened, isOpen := true } := by
  refine ⟨h.numbered, h.known, fun q hq => ?_, fun r hr => ?_, h.posts⟩
  · have hcount := h.count q hq
    rw [hpc] at hcount
    exact hcount
  · have hport := State.port_of_target (h.holder r hr)
    exact hport

/-- The port had no read, and has room for this one. -/
theorem Own.postRead (h : Own s) (hpc : s.pc = .opened) :
    Own { s with pc := .idle, reads := s.asyncReadSome } := by
  refine ⟨h.numbered, h.known_asyncReadSome, fun q hq => ?_, h.holder, h.posts⟩
  have hnone := h.count q hq
  rw [hpc] at hnone
  calc
    readsOf q s.asyncReadSome + s.held ≤ readsOf q s.reads + 1 + s.held :=
      Nat.add_le_add_right readsOf_asyncReadSome_le _
    _ = readsOf q s.reads + s.held + 1 := by omega
    _ ≤ 1 := Nat.succ_le_succ hnone

theorem Own.stop (h : Own s) (hfree : s.handler = none) :
    Own { s with port := none, isOpen := false, reads := s.reads.map Read.abort } := by
  refine ⟨nofun, fun r hr => ?_, nofun, fun r hr => ?_, h.posts⟩
  · obtain ⟨r', hr', rfl⟩ := List.mem_map.mp hr
    rw [Read.abort_port]
    exact h.known r' hr'
  · exact absurd (hr.symm.trans hfree) nofun

theorem Own.complete (h : Own s) (hr : r ∈ s.reads) (phase : Phase) :
    Own { s with reads := swap s.reads r { r with phase := phase } } := by
  refine ⟨h.numbered, fun x hx => ?_, fun q hq => ?_, h.holder, h.posts⟩
  · rcases mem_swap hx with rfl | hx
    · exact h.known r hr
    · exact h.known x hx
  · have hcount : readsOf q (swap s.reads r { r with phase := phase }) = readsOf q s.reads :=
      countP_swap _ hr rfl
    show readsOf q (swap s.reads r _) + s.held ≤ s.pc.room
    rw [hcount]
    exact h.count q hq

/-- The read leaves the pool for the mutex. -/
theorem Own.handle (h : Own s) (hr : r ∈ s.reads) (hfree : s.handler = none)
    (htarget : s.target = some r.port) :
    Own { s with reads := s.reads.erase r, handler := some r } := by
  have hport := State.port_of_target htarget
  refine ⟨h.numbered, fun x hx => h.known x (List.mem_of_mem_erase hx), fun q hq => ?_,
    fun r' hr' => ?_, h.posts⟩
  · have hqr : r.port = q := Option.some.inj (hport.symm.trans hq)
    have hcount := h.count q hq
    rw [State.held_of_free hfree] at hcount
    show readsOf q (s.reads.erase r) + 1 ≤ s.pc.room
    rw [readsOf_erase_add hr hqr]
    exact hcount
  · cases hr'
    exact htarget

theorem Own.drop (h : Own s) (r : Read) : Own { s with reads := s.reads.erase r } := by
  refine ⟨h.numbered, fun x hx => h.known x (List.mem_of_mem_erase hx), fun q hq => ?_,
    h.holder, h.posts⟩
  have hle : readsOf q (s.reads.erase r) ≤ readsOf q s.reads :=
    List.erase_sublist.countP_le
  exact Nat.le_trans (Nat.add_le_add_right hle _) (h.count q hq)

/-- The handler gives the mutex up for the next read of its port. -/
theorem Own.rearm (h : Own s) (hhandler : s.handler = some r) :
    Own { s with
      handler := none
      reads := s.asyncReadSome
      posts := s.posts ++ s.target.toList.map fun q => ⟨r.port, q⟩ } := by
  have htarget := h.holder r hhandler
  refine ⟨h.numbered, h.known_asyncReadSome, fun q hq => ?_, nofun, fun e he => ?_⟩
  · have hcount := h.count q hq
    rw [State.held, hhandler] at hcount
    exact Nat.le_trans readsOf_asyncReadSome_le hcount
  · rcases List.mem_append.mp he with he | he
    · exact h.posts e he
    · rw [htarget] at he
      cases List.mem_singleton.mp he
      rfl

theorem Own.step {a : Act} (h : Own s) (hown : s.OwnPort a) (hs : s.step a = some s') :
    Own s' := by
  cases State.taken hs with
  | refused hpc hport | stopped hpc hfree hport => exact h
  | start hpc hport => exact h.publish hport
  | openPort hpc => exact h.openPort hpc
  | postRead hpc => exact h.postRead hpc
  | stop hpc hfree hport => exact h.stop hfree
  | complete r error hr hph => exact h.complete hr _
  | handle r q hfree hr htarget =>
      -- the only step that the guard is about
      have hq : q = r.port := hown q htarget
      exact h.handle hr hfree (hq ▸ htarget)
  | dropped r hfree hr htarget => exact h.drop r
  | rearm r hhandler => exact h.rearm hhandler

/-- An outstanding read is one of the open port. -/
theorem Own.exclusive (h : Own s) : s.Exclusive := by
  refine ⟨?_, h.posts⟩
  cases htarget : s.target with
  | none =>
      have : s.outstanding = 0 := by
        refine List.countP_eq_zero.mpr fun r _ hr => ?_
        have := (of_decide_eq_true hr).2
        rw [htarget] at this
        cases this
      rw [this]
      exact Nat.zero_le 1
  | some q =>
      have hle : s.outstanding ≤ readsOf q s.reads := by
        refine List.countP_mono_left fun r _ hr => ?_
        have := (of_decide_eq_true hr).2
        rw [htarget] at this
        exact decide_eq_true (Option.some.inj this).symm
      have hcount := h.count q (State.port_of_target htarget)
      have hroom : s.pc.room ≤ 1 := by
        cases s.pc <;> decide
      omega

/-- A handler is about to post on a port that is not its own, or one has. -/
def Strayed (s : State) : Prop :=
  (∃ e ∈ s.posts, e.source ≠ e.target) ∨
    ∃ r q, s.handler = some r ∧ s.target = some q ∧ q ≠ r.port

/-- A handler past its test cannot be stopped: `stop` waits for the mutex. -/
theorem Strayed.step {a : Act} (h : Strayed s) (hs : s.step a = some s') : Strayed s' := by
  rcases h with ⟨e, he, hne⟩ | ⟨r, q, hhandler, htarget, hne⟩
  · refine .inl ⟨e, ?_, hne⟩
    cases State.taken hs with
    | rearm r hhandler => exact List.mem_append_left _ he
    | _ => exact he
  · have hport := State.port_of_target htarget
    cases State.taken hs with
    | refused hpc hport' | stopped hpc hfree hport' => exact .inr ⟨r, q, hhandler, htarget, hne⟩
    | start hpc hnone =>
        rw [hnone] at hport
        cases hport
    | openPort hpc => exact .inr ⟨r, q, hhandler, hport, hne⟩
    | postRead hpc | complete r' error hr hph => exact .inr ⟨r, q, hhandler, htarget, hne⟩
    | stop hpc hfree hport' | handle r' q' hfree hr htarget' | dropped r' hfree hr htarget' =>
        rw [hhandler] at hfree
        cases hfree
    | rearm r' hhandler' =>
        cases hhandler.symm.trans hhandler'
        refine .inl ⟨⟨r.port, q⟩, List.mem_append_right _ ?_, hne.symm⟩
        rw [htarget]
        exact List.mem_singleton_self _

theorem strayed_of_not_ownPort {a : Act} (hown : ¬ s.OwnPort a) (hs : s.step a = some s') :
    Strayed s' := by
  cases State.taken hs with
  | handle r q hhandler hr htarget =>
      refine .inr ⟨r, q, rfl, htarget, fun hq => hown fun q' hq' => ?_⟩
      cases htarget.symm.trans hq'
      exact hq
  | dropped r hhandler hr htarget =>
      refine absurd (fun q hq => ?_) hown
      rw [htarget] at hq
      cases hq
  | _ => exact absurd trivial hown

/-! ## The calls of `SerialPort` -/

/-- The user's `start`, from the call to its return. -/
def startCall : List Act :=
  [.start, .openPort, .postRead]

/-- `port_` as `SerialPort` has it. -/
def State.asioPort (s : State) : Option AsioPort :=
  s.port.map fun _ => { isOpen := s.isOpen, reads := s.outstanding }

/-- The three steps of `start`, with nothing in between, are the method. -/
theorem start_refines (h : Own s) (hpc : s.pc = .idle) (hport : s.port = none) {o : SerialPort}
    (ho : o.port = s.asioPort) {steps : StartSteps} (hall : steps.AllSucceed) :
    ∃ t, machine.exec s startCall = some t ∧
      (SerialPort.call (SerialPort.start steps) o).2.port = t.asioPort := by
  let t : State :=
    { s with port := some s.ports, isOpen := true, ports := s.ports + 1,
             reads := ⟨s.ports, .posted⟩ :: s.reads, pc := .idle }
  have hrun : machine.exec s startCall = some t := by
    simp [startCall, Machine.exec, machine, State.step, State.start, State.openPort,
      State.postRead, State.asyncReadSome, State.target, hpc, hport, t]
  have hone : t.outstanding = 1 := by
    have hold : s.reads.countP (fun r => decide (r.phase = .posted ∧ t.target = some r.port)) = 0 := by
      refine List.countP_eq_zero.mpr fun r hr hc => ?_
      have hnew : r.port = s.ports := (Option.some.inj (of_decide_eq_true hc).2).symm
      exact Nat.lt_irrefl _ (hnew ▸ h.known r hr)
    rw [State.outstanding, List.countP_cons, hold, if_pos (decide_eq_true ⟨rfl, rfl⟩)]
  have hnone : o.port = none := by
    rw [ho, State.asioPort, hport]
    rfl
  refine ⟨t, hrun, ?_⟩
  rw [SerialPort.call_start_of_succeed hnone hall, State.asioPort, hone]
  rfl

theorem stop_refines (hs : s.step .stop = some s') {o : SerialPort} (ho : o.port = s.asioPort) :
    (SerialPort.call (SerialPort.stop ⟨.succeeds, .succeeds⟩) o).2.port = s'.asioPort := by
  cases State.taken hs with
  | stop hpc hhandler hport =>
      obtain ⟨q, hq⟩ := Option.isSome_iff_exists.mp hport
      have hsome : o.port.isSome = true := by
        rw [ho, State.asioPort, hq]
        rfl
      exact SerialPort.call_stop_port hsome
  | stopped hpc hhandler hport =>
      have hnone : o.port = none := by
        rw [ho, State.asioPort, hport]
        rfl
      rw [SerialPort.call_stop_of_none hnone]
      exact ho

/-! ## Whole runs -/

/-- **At most one read is in flight** in every state of a run in which no
handler of a stopped port gets the mutex while a later port is open. Once
such a handler has left the mutex again, this has failed. -/
theorem exclusive_iff_ownPort {as : List Act} {t : State}
    (hrun : machine.exec machine.init as = some t) :
    (machine.Guarded State.OwnPort machine.init as → t.Exclusive) ∧
      (t.handler = none → t.Exclusive → machine.Guarded State.OwnPort machine.init as) := by
  rcases Machine.guarded_or_not (M := machine) (P := Own) (Q := Strayed) (G := State.OwnPort)
    (fun s a s' h hown hs => h.step hown hs) (fun s a s' _ hown hs => strayed_of_not_ownPort hown hs)
    (fun s a s' h hs => h.step hs) Own.init hrun with ⟨hg, ht⟩ | ⟨hg, ht⟩
  · exact ⟨fun _ => ht.exclusive, fun _ _ => hg⟩
  · refine ⟨fun hc => absurd hc hg, fun hfree hex => ?_⟩
    rcases ht with ⟨e, he, hne⟩ | ⟨r, q, hhandler, -, -⟩
    · exact absurd (hex.2 e he) hne
    · rw [hfree] at hhandler
      cases hhandler

/-- A read completes and its handler posts the next, which `stop` aborts and
whose handler finds no port. Then the port is opened again. -/
def readRun : List Act :=
  startCall ++ [.complete ⟨0, .posted⟩ false, .handle ⟨0, .queued false⟩, .rearm, .stop,
    .handle ⟨0, .queued true⟩] ++ startCall

theorem exclusive_iff_ownPort_readRun :
    ∃ t, machine.exec machine.init readRun = some t ∧
      machine.Guarded State.OwnPort machine.init readRun ∧ t.handler = none ∧ t.Exclusive := by
  obtain ⟨t, hrun, hfree, hg⟩ : ∃ t, machine.exec machine.init readRun = some t ∧
      t.handler = none ∧ machine.Guarded State.OwnPort machine.init readRun :=
    ⟨_, rfl, rfl, by decide⟩
  exact ⟨t, hrun, hg, hfree, (exclusive_iff_ownPort hrun).1 hg⟩

/-- The aborted read is handled when the next `start` is over: it posts a
second read beside that of `start`. -/
def restartRun : List Act :=
  startCall ++ [.stop] ++ startCall ++ [.handle ⟨0, .queued true⟩, .rearm]

theorem two_reads_in_flight :
    ¬ ∀ s, machine.Reachable s → s.Exclusive := by
  intro hall
  obtain ⟨s, hrun, htwo⟩ : ∃ s, machine.exec machine.init restartRun = some s ∧
      s.outstanding = 2 := ⟨_, rfl, rfl⟩
  have hone := (hall s ⟨restartRun, hrun⟩).1
  rw [htwo] at hone
  exact absurd hone (by decide)

end HpLib.SerialReads
