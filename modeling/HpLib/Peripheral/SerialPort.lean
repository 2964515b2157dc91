import HpLib.Common.CircularBuffer

/-!
# SerialPort: start and stop

`start` publishes `port_` before it sets five options on it and opens it, and
each of these may fail. A method is code that may throw; what it assigned
before it threw stays assigned. `Atomic` says of a sequence of calls that
every one of them ends fully stopped or fully running, and `Smooth` reads off
the calls and the outcomes of their steps when that is so.
-/

namespace HpLib

/-- What a call into Boost.Asio comes to. -/
inductive StepOutcome where
  | succeeds
  | reports
  | throws
  deriving Repr, DecidableEq

/-- `boost::asio::serial_port`: whether it is open, and the reads posted on it. -/
structure AsioPort where
  isOpen : Bool
  reads : Nat
  deriving Repr, DecidableEq

/-- `threads` counts what `thread_group_` has created. -/
structure SerialPort where
  isRunning : Bool
  port : Option AsioPort
  bufferSize : UInt32
  isSetBuffer : Bool
  isSetExtractor : Bool
  threads : Nat
  buffer : Option CircularBuffer
  deriving Repr, DecidableEq

/-- The steps inside `start` that may go wrong, in the source's order. -/
structure StartSteps where
  baudRate : StepOutcome
  characterSize : StepOutcome
  stopBits : StepOutcome
  parity : StepOutcome
  flowControl : StepOutcome
  openPort : StepOutcome
  deriving Repr, DecidableEq

/-- Every step goes well. -/
structure StartSteps.AllSucceed (steps : StartSteps) : Prop where
  baudRate : steps.baudRate = .succeeds
  characterSize : steps.characterSize = .succeeds
  stopBits : steps.stopBits = .succeeds
  parity : steps.parity = .succeeds
  flowControl : steps.flowControl = .succeeds
  openPort : steps.openPort = .succeeds

instance : DecidablePred StartSteps.AllSucceed := fun steps =>
  decidable_of_iff
    (steps = ⟨.succeeds, .succeeds, .succeeds, .succeeds, .succeeds, .succeeds⟩) <| by
    obtain ⟨baudRate, characterSize, stopBits, parity, flowControl, openPort⟩ := steps
    constructor
    · rintro ⟨⟩
      exact ⟨rfl, rfl, rfl, rfl, rfl, rfl⟩
    · rintro ⟨rfl, rfl, rfl, rfl, rfl, rfl⟩
      rfl

structure StopSteps where
  cancel : StepOutcome
  close : StepOutcome
  deriving Repr, DecidableEq

namespace SerialPort

/-- The constructor. -/
def new : SerialPort :=
  { isRunning := false, port := none, bufferSize := 2 * 1024 * 1024, isSetBuffer := false,
    isSetExtractor := false, threads := 0, buffer := none }

/-- `set_buffer`, `set_buffer_size` and `extract_messages`. -/
inductive Setting where
  | setBuffer (buffer : Option CircularBuffer)
  | setBufferSize (size : UInt32)
  | extractMessages
  deriving Repr, DecidableEq

def set (s : SerialPort) : Setting → SerialPort
  | .setBuffer buffer => { s with isSetBuffer := true, buffer := buffer }
  | .setBufferSize size => { s with bufferSize := size }
  | .extractMessages => { s with isSetExtractor := true }

/-- The object a user has set up before the first call. -/
def configured (settings : List Setting) : SerialPort :=
  settings.foldl set new

/-- A method of the class: an exception keeps the state it was thrown in. -/
abbrev Method := ExceptT Unit (StateM SerialPort)

/-- How a call ends, and the object after it. -/
def call {α : Type} (m : Method α) (s : SerialPort) : Except Unit α × SerialPort :=
  m.run s

/-- A call of Asio without an `error_code`: an error it would report is thrown. -/
def throwing : StepOutcome → Method Unit
  | .succeeds => pure ()
  | .reports | .throws => throw ()

/-- `port_->open(port, ec)`: whether `ec` stayed empty. -/
def openPort : StepOutcome → Method Bool
  | .succeeds => do
      modify fun s => { s with port := s.port.map fun p => { p with isOpen := true } }
      return true
  | .reports => return false
  | .throws => throw ()

def asyncReadSome : Method Unit :=
  modify fun s =>
    match s.port with
    | some p => if p.isOpen then { s with port := some { p with reads := p.reads + 1 } } else s
    | none => s

def start (steps : StartSteps) : Method Bool := do
  if (← get).port.isSome then
    return false
  else
    modify fun s => { s with port := some { isOpen := false, reads := 0 } }
    throwing steps.baudRate
    throwing steps.characterSize
    throwing steps.stopBits
    throwing steps.parity
    throwing steps.flowControl
    if ← openPort steps.openPort then
      modify fun s => { s with isRunning := true }
      modify fun s =>
        if s.isSetBuffer then s else { s with buffer := some (CircularBuffer.new s.bufferSize) }
      modify fun s => if s.isSetExtractor then { s with threads := s.threads + 1 } else s
      modify fun s => { s with threads := s.threads + 1 }
      asyncReadSome
      return true
    else
      return false

/-- `cancel` and `close` throw what goes wrong; a port whose `close` failed is
closed all the same. -/
def stop (steps : StopSteps) : Method Unit := do
  if (← get).port.isSome then
    throwing steps.cancel
    modify fun s => { s with port := s.port.map fun _ => { isOpen := false, reads := 0 } }
    throwing steps.close
    modify fun s => { s with port := none }

/-! ## What a call does -/

section Methods

variable {α β : Type} {s : SerialPort}

@[simp] theorem call_pure (a : α) : call (pure a) s = (.ok a, s) := rfl

@[simp] theorem call_throwing_succeeds : call (throwing .succeeds) s = (.ok (), s) := rfl

@[simp] theorem call_get : call get s = (.ok s, s) := rfl

@[simp] theorem call_modify (f : SerialPort → SerialPort) : call (modify f) s = (.ok (), f s) := rfl

theorem call_bind (m : Method α) (f : α → Method β) :
    call (m >>= f) s =
      match call m s with
      | (.ok a, s') => call (f a) s'
      | (.error e, s') => (.error e, s') := by
  cases h : call m s with
  | mk r s' =>
      show (m.run >>= ExceptT.bindCont f) s = _
      have hm : (m.run >>= ExceptT.bindCont f) s = ExceptT.bindCont f r s' :=
        congrArg (fun x : Except Unit α × SerialPort => ExceptT.bindCont f x.1 x.2) h
      rw [hm]
      cases r with
      | ok a => rfl
      | error e => rfl

/-- A step that may throw goes on only where it succeeds. -/
theorem call_throwing_bind (o : StepOutcome) (f : Unit → Method β) :
    call (throwing o >>= f) s = if o = .succeeds then call (f ()) s else (.error (), s) := by
  rw [call_bind]
  cases o with
  | succeeds => rfl
  | reports => rfl
  | throws => rfl

end Methods

variable {s : SerialPort} {steps : StartSteps}

/-- `port_` is assigned before anything that can fail. -/
def published (s : SerialPort) : SerialPort :=
  { s with port := some { isOpen := false, reads := 0 } }

/-- The object after a `start` that went well. -/
def started (s : SerialPort) : SerialPort :=
  { s with
    isRunning := true
    port := some { isOpen := true, reads := 1 }
    buffer := if s.isSetBuffer then s.buffer else some (CircularBuffer.new s.bufferSize)
    threads := if s.isSetExtractor then s.threads + 2 else s.threads + 1 }

theorem call_start_of_isSome (h : s.port.isSome = true) :
    call (start steps) s = (.ok false, s) := by
  simp [start, call_bind, h]

theorem call_start_of_succeed (h : s.port = none) (hall : steps.AllSucceed) :
    call (start steps) s = (.ok true, s.started) := by
  cases hb : s.isSetBuffer <;> cases he : s.isSetExtractor <;>
    simp [start, started, openPort, asyncReadSome, call_bind, h, hb, he,
      hall.baudRate, hall.characterSize, hall.stopBits, hall.parity, hall.flowControl,
      hall.openPort, -bind_pure_comp]

/-- A start that got as far as publishing the port, and no further. -/
def Stuck (s : SerialPort) (r : Except Unit Bool × SerialPort) : Prop :=
  r.1 ≠ .ok true ∧ r.2 = s.published

theorem Stuck.throwing {o : StepOutcome} {f : Unit → Method Bool}
    (h : o = .succeeds → Stuck s (call (f ()) s.published)) :
    Stuck s (call (throwing o >>= f) s.published) := by
  rw [call_throwing_bind]
  split
  · exact h ‹_›
  · exact ⟨nofun, rfl⟩

theorem call_start_of_fail (h : s.port = none) (hall : ¬ steps.AllSucceed) :
    Stuck s (call (start steps) s) := by
  rw [start, call_bind, call_get]
  simp only [h, Option.isSome_none, Bool.false_eq_true, if_false]
  rw [call_bind, call_modify]
  apply Stuck.throwing
  intro hbaud
  apply Stuck.throwing
  intro hsize
  apply Stuck.throwing
  intro hstop
  apply Stuck.throwing
  intro hparity
  apply Stuck.throwing
  intro hflow
  rw [call_bind]
  cases hopen : steps.openPort with
  | succeeds => exact absurd ⟨hbaud, hsize, hstop, hparity, hflow, hopen⟩ hall
  | reports =>
      show Stuck s (.ok false, s.published)
      exact ⟨nofun, rfl⟩
  | throws =>
      show Stuck s (.error (), s.published)
      exact ⟨nofun, rfl⟩

theorem call_stop_of_none {steps : StopSteps} (h : s.port = none) :
    call (stop steps) s = (.ok (), s) := by
  simp [stop, call_bind, h]

/-- `stop` has no line for `is_running_`. -/
theorem call_stop_isRunning (steps : StopSteps) :
    (call (stop steps) s).2.isRunning = s.isRunning := by
  cases hport : s.port with
  | none => rw [call_stop_of_none hport]
  | some p =>
      rw [stop, call_bind, call_get]
      simp only [hport, Option.isSome_some, if_true]
      rw [call_throwing_bind]
      split
      · rw [call_bind, call_modify]
        simp only [call_throwing_bind]
        split
        · rfl
        · rfl
      · rfl

/-- Where nothing throws, `stop` takes the port away. -/
theorem call_stop_port (h : s.port.isSome = true) :
    (call (stop ⟨.succeeds, .succeeds⟩) s).2.port = none := by
  simp [stop, call_bind, h]

/-! ## Sequences of calls -/

inductive Call where
  | start (steps : StartSteps)
  | stop (steps : StopSteps)
  deriving Repr, DecidableEq

def FullyStopped (s : SerialPort) : Prop :=
  s.port = none ∧ s.isRunning = false

def FullyRunning (s : SerialPort) : Prop :=
  s.port = some { isOpen := true, reads := 1 } ∧ s.isRunning = true

namespace Call

def run (s : SerialPort) : Call → SerialPort
  | .start steps => (call (SerialPort.start steps) s).2
  | .stop steps => (call (SerialPort.stop steps) s).2

/-- Whether `start` returned true. -/
def returnsTrue (s : SerialPort) (steps : StartSteps) : Prop :=
  (call (SerialPort.start steps) s).1 = .ok true

/-- What a call has to leave behind, and a `start` that does not return true
in particular. -/
structure Atomic (s : SerialPort) (c : Call) : Prop where
  settled : (c.run s).FullyStopped ∨ (c.run s).FullyRunning
  unchanged : ∀ steps, c = .start steps → ¬ returnsTrue s steps → c.run s = s
  retried : ∀ steps, c = .start steps → s.FullyStopped → ¬ returnsTrue s steps →
    ∀ steps', steps'.AllSucceed → returnsTrue (c.run s) steps'
  stopped : ∀ steps, c = .stop steps → (c.run s).FullyStopped

end Call

/-- Every call of the sequence is atomic in the state it is made in. -/
def Atomic : SerialPort → List Call → Prop
  | _, [] => True
  | s, c :: cs => c.Atomic s ∧ Atomic (c.run s) cs

/-- The first `start` goes well and nothing is stopped after it. -/
def Smooth : List Call → Prop
  | [] => True
  | .stop _ :: cs => Smooth cs
  | .start steps :: cs => steps.AllSucceed ∧ ∀ c ∈ cs, ∃ steps', c = .start steps'

theorem fullyStopped_configured (settings : List Setting) :
    (configured settings).FullyStopped := by
  suffices h : ∀ s : SerialPort, s.FullyStopped → (settings.foldl set s).FullyStopped from
    h new ⟨rfl, rfl⟩
  induction settings with
  | nil => exact fun s h => h
  | cons x xs ih =>
      intro s h
      refine ih (s.set x) ?_
      cases x with
      | setBuffer buffer => exact h
      | setBufferSize size => exact h
      | extractMessages => exact h

theorem FullyRunning.isSome (h : s.FullyRunning) : s.port.isSome = true := by
  rw [h.1]
  rfl

/-- A running port turns a second `start` away and stays as it was. -/
theorem FullyRunning.start_atomic (h : s.FullyRunning) (steps : StartSteps) :
    (Call.start steps).Atomic s ∧ (Call.start steps).run s = s := by
  have hrun : (Call.start steps).run s = s := by
    rw [Call.run, call_start_of_isSome h.isSome]
  refine ⟨⟨.inr ?_, fun _ _ _ => hrun, fun _ _ hs => ?_, nofun⟩, hrun⟩
  · rw [hrun]
    exact h
  · exact absurd (hs.1 ▸ h.isSome) (by decide)

/-- The flag outlives every `stop`. -/
theorem FullyRunning.stop_not_atomic (h : s.FullyRunning) (steps : StopSteps) :
    ¬ (Call.stop steps).Atomic s := by
  intro hat
  have hflag := (hat.stopped steps rfl).2
  rw [Call.run, call_stop_isRunning, h.2] at hflag
  cases hflag

theorem FullyRunning.atomic_iff (h : s.FullyRunning) (cs : List Call) :
    Atomic s cs ↔ ∀ c ∈ cs, ∃ steps, c = .start steps := by
  induction cs with
  | nil => simp [Atomic]
  | cons c cs ih =>
      rw [Atomic, List.forall_mem_cons]
      cases c with
      | start steps =>
          obtain ⟨hat, hrun⟩ := h.start_atomic steps
          rw [hrun, ih]
          simp [hat]
      | stop steps => simp [h.stop_not_atomic steps]

theorem FullyStopped.stop_atomic (h : s.FullyStopped) (steps : StopSteps) :
    (Call.stop steps).Atomic s ∧ (Call.stop steps).run s = s := by
  have hrun : (Call.stop steps).run s = s := by
    rw [Call.run, call_stop_of_none h.1]
  have hstopped : ((Call.stop steps).run s).FullyStopped := by
    rw [hrun]
    exact h
  refine ⟨⟨.inl hstopped, ?_, ?_, fun _ _ => hstopped⟩, hrun⟩
  · intro _ heq
    cases heq
  · intro _ heq
    cases heq

theorem fullyRunning_started (s : SerialPort) : s.started.FullyRunning :=
  ⟨rfl, rfl⟩

theorem FullyStopped.start_atomic (h : s.FullyStopped) (hall : steps.AllSucceed) :
    (Call.start steps).Atomic s ∧ (Call.start steps).run s = s.started := by
  have hcall := call_start_of_succeed h.1 hall
  have hrun : (Call.start steps).run s = s.started := by
    rw [Call.run, hcall]
  have htrue : Call.returnsTrue s steps := by
    rw [Call.returnsTrue, hcall]
  refine ⟨⟨.inr ?_, fun _ heq hne => ?_, fun _ heq _ hne => ?_, nofun⟩, hrun⟩
  · rw [hrun]
    exact fullyRunning_started s
  · cases heq
    exact absurd htrue hne
  · cases heq
    exact absurd htrue hne

/-- A published port that is not open is neither of the two. -/
theorem FullyStopped.start_not_atomic (h : s.FullyStopped) (hall : ¬ steps.AllSucceed) :
    ¬ (Call.start steps).Atomic s := by
  intro hat
  have hsettled := hat.settled
  rw [Call.run, (call_start_of_fail h.1 hall).2] at hsettled
  rcases hsettled with hs | hs
  · cases hs.1
  · cases hs.1

/-- **`start` and `stop` are atomic** along exactly the smooth sequences of
calls, however the steps inside them end and whatever was set up before. -/
theorem atomic_iff_smooth (settings : List Setting) (cs : List Call) :
    Atomic (configured settings) cs ↔ Smooth cs := by
  suffices h : ∀ s : SerialPort, s.FullyStopped → (Atomic s cs ↔ Smooth cs) from
    h _ (fullyStopped_configured settings)
  induction cs with
  | nil => exact fun _ _ => Iff.rfl
  | cons c cs ih =>
      intro s h
      rw [Atomic]
      cases c with
      | stop steps =>
          obtain ⟨hat, hrun⟩ := h.stop_atomic steps
          rw [hrun, ih s h, Smooth]
          exact and_iff_right hat
      | start steps =>
          rw [Smooth]
          by_cases hall : steps.AllSucceed
          · obtain ⟨hat, hrun⟩ := h.start_atomic hall
            rw [hrun, (fullyRunning_started s).atomic_iff]
            exact and_congr_left fun _ => iff_of_true hat hall
          · exact iff_of_false (fun hc => h.start_not_atomic hall hc.1) fun hc => hall hc.1

/-- The port the first option is set on has not been opened. -/
def failingStart : StartSteps :=
  ⟨.reports, .succeeds, .succeeds, .succeeds, .succeeds, .succeeds⟩

def smoothStart : StartSteps :=
  ⟨.succeeds, .succeeds, .succeeds, .succeeds, .succeeds, .succeeds⟩

/-- A `start` that failed, and a `stop` after one that did not. -/
theorem start_stop_not_atomic :
    ¬ Atomic new [.start failingStart] ∧
      ¬ Atomic new [.start smoothStart, .stop ⟨.succeeds, .succeeds⟩] := by
  constructor
  · rintro ⟨hat, -⟩
    rcases hat.settled with hs | hs
    · cases hs.1
    · cases hs.1
  · rintro ⟨-, hat, -⟩
    cases (hat.stopped _ rfl).2

end SerialPort

end HpLib
