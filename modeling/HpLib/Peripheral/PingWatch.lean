import HpLib.Peripheral.Ping
import Mathlib.Data.List.Chain

/-!
# Ping watches a host

What `ping_until_disconnect` is for, said of the log alone: a request,
packets, a verdict, a rest, and so on, until enough verdicts in a row were
unanswered. `Watch` generates the logs of that, `Watched` is what they
promise, and the last section shows that the handlers, in any order that the
timer and the network bring about, follow a watch.
-/

namespace HpLib

open Lib

/-- `start_send` is true, `handle_timeout` false. -/
def PingEvent.timerHandler : PingEvent → Option Bool
  | .sent _ _ _ => some true
  | .verdict _ => some false
  | .handled _ | .stop => none

/-- How many verdicts in a row, up to the latest, were unanswered. -/
def streak : List PingEvent → Nat
  | [] => 0
  | .verdict false :: log => streak log + 1
  | .verdict true :: _ => 0
  | .sent _ _ _ :: log | .handled _ :: log | .stop :: log => streak log

/-- Since the request `q` was sent, these packets were handled and no more. -/
def SinceRequest (log : List PingEvent) (q : UInt16) (packets : List Bytes) : Prop :=
  ∃ request time older, log = packets.map .handled ++ .sent q request time :: older

/-- A handler that has run: of the timer, or of a receive with a packet. -/
inductive HandlerRun where
  | timer (handler : PingHandler)
  | receive (packet : Bytes)
  deriving Repr, DecidableEq

/-- The handler that an action runs. -/
def PingAct.handlerRun : PingAct → Option HandlerRun
  | .advance _ => none
  | .fire w => some (.timer w.handler)
  | .receive packet => some (.receive packet)

/-- The handler that an entry of the log comes from. -/
def PingEvent.handlerRun : PingEvent → Option HandlerRun
  | .sent _ _ _ => some (.timer .startSend)
  | .verdict _ => some (.timer .handleTimeout)
  | .handled packet => some (.receive packet)
  | .stop => none

inductive Watching where
  | awaiting (sequenceNumber : UInt16) (answered : Bool)
  | resting
  | gone
  deriving Repr, DecidableEq

def Watching.see (identifier : UInt16) (packet : Bytes) : Watching → Watching
  | .awaiting q a => .awaiting q (a || isEchoReply identifier q packet)
  | w => w

/-- The logs of a watch that may go on from `w`. -/
inductive Watch (identifier : UInt16) (counter : Int) : Watching → List PingEvent → Prop
  | first (q : UInt16) (request : Bytes) (time : Nat) :
      Watch identifier counter (.awaiting q false) [.sent q request time]
  | sent (q : UInt16) (request : Bytes) (time : Nat) {log : List PingEvent}
      (h : Watch identifier counter .resting log) :
      Watch identifier counter (.awaiting q false) (.sent q request time :: log)
  | handled (packet : Bytes) {w : Watching} {log : List PingEvent}
      (h : Watch identifier counter w log) (hw : w ≠ .gone) :
      Watch identifier counter (w.see identifier packet) (.handled packet :: log)
  | answered {q : UInt16} {log : List PingEvent}
      (h : Watch identifier counter (.awaiting q true) log) :
      Watch identifier counter .resting (.verdict true :: log)
  | unanswered {q : UInt16} {log : List PingEvent}
      (h : Watch identifier counter (.awaiting q false) log)
      (hcount : (streak log : Int) + 1 ≠ counter) :
      Watch identifier counter .resting (.verdict false :: log)
  | lost {q : UInt16} {log : List PingEvent}
      (h : Watch identifier counter (.awaiting q false) log)
      (hcount : (streak log : Int) + 1 = counter) :
      Watch identifier counter .gone (.stop :: .verdict false :: log)

/-- What a watch promises about its log. -/
structure Watched (identifier : UInt16) (counter : Int) (log : List PingEvent) : Prop where
  alternate : (log.filterMap PingEvent.timerHandler).IsChain (· ≠ ·) ∧
    (log.filterMap PingEvent.timerHandler).getLast? = some true
  verdict : ∀ a older, .verdict a :: older <:+ log → ∃ q packets, SinceRequest older q packets ∧
    (a = true ↔ ∃ packet ∈ packets, isEchoReply identifier q packet = true)
  stop : ∀ older, .stop :: older <:+ log →
    ∃ a rest, older = .verdict a :: rest ∧ (streak older : Int) = counter
  stopped : ∀ a older, .verdict a :: older <:+ log →
    (streak (.verdict a :: older) : Int) = counter → log = .stop :: .verdict a :: older

variable {identifier : UInt16} {counter : Int} {w : Watching} {log : List PingEvent}

/-- What the state of a watch says about its log. -/
theorem Watch.state (h : Watch identifier counter w log) :
    match w with
    | .awaiting q a => (log.filterMap PingEvent.timerHandler).head? = some true ∧
        ∃ packets, SinceRequest log q packets ∧
          (a = true ↔ ∃ packet ∈ packets, isEchoReply identifier q packet = true)
    | .resting | .gone => (log.filterMap PingEvent.timerHandler).head? = some false := by
  induction h with
  | first q request time => exact ⟨rfl, [], ⟨request, time, [], rfl⟩, by simp⟩
  | sent q request time h ih => exact ⟨rfl, [], ⟨request, time, _, rfl⟩, by simp⟩
  | @handled packet w log h hw ih =>
      cases w with
      | awaiting q a =>
          obtain ⟨hhead, packets, ⟨request, time, older, rfl⟩, ha⟩ := ih
          refine ⟨hhead, packet :: packets, ⟨request, time, older, rfl⟩, ?_⟩
          rw [Bool.or_eq_true, ha]
          simp [or_comm]
      | resting => exact ih
      | gone => exact absurd rfl hw
  | answered h ih => rfl
  | unanswered h hcount ih => rfl
  | lost h hcount ih => rfl

theorem alternate_cons {l : List Bool} {b : Bool} (hhead : l.head? = some !b)
    (h : l.IsChain (· ≠ ·) ∧ l.getLast? = some true) :
    (b :: l).IsChain (· ≠ ·) ∧ (b :: l).getLast? = some true := by
  cases l with
  | nil => cases hhead
  | cons c l =>
      cases hhead
      constructor
      · rw [List.isChain_cons_cons]
        exact ⟨by cases b <;> decide, h.1⟩
      · rw [List.getLast?_cons_cons]
        exact h.2

theorem Watch.alternate (h : Watch identifier counter w log) :
    (log.filterMap PingEvent.timerHandler).IsChain (· ≠ ·) ∧
      (log.filterMap PingEvent.timerHandler).getLast? = some true := by
  induction h with
  | first q request time => exact ⟨.singleton _, rfl⟩
  | sent q request time h ih => exact alternate_cons (b := true) h.state ih
  | handled packet h hw ih => exact ih
  | answered h ih => exact alternate_cons (b := false) h.state.1 ih
  | unanswered h hcount ih => exact alternate_cons (b := false) h.state.1 ih
  | lost h hcount ih => exact alternate_cons (b := false) h.state.1 ih

theorem suffix_of_head_ne {α : Type} {e e' : α} {l l' : List α} (h : e :: l <:+ e' :: l')
    (hne : e ≠ e') : e :: l <:+ l' := by
  rcases List.suffix_cons_iff.mp h with heq | h
  · exact absurd (List.cons.inj heq).1 hne
  · exact h

/-- Every verdict is the right one. -/
theorem Watch.verdict (h : Watch identifier counter w log) {a : Bool} {older : List PingEvent}
    (hsuf : .verdict a :: older <:+ log) : ∃ q packets, SinceRequest older q packets ∧
      (a = true ↔ ∃ packet ∈ packets, isEchoReply identifier q packet = true) := by
  induction h with
  | first q request time => cases List.eq_nil_of_suffix_nil (suffix_of_head_ne hsuf nofun)
  | sent q request time h ih => exact ih (suffix_of_head_ne hsuf nofun)
  | handled packet h hw ih => exact ih (suffix_of_head_ne hsuf nofun)
  | answered h ih =>
      rcases List.suffix_cons_iff.mp hsuf with heq | hsuf
      · cases heq
        exact ⟨_, h.state.2⟩
      · exact ih hsuf
  | unanswered h hcount ih =>
      rcases List.suffix_cons_iff.mp hsuf with heq | hsuf
      · cases heq
        exact ⟨_, h.state.2⟩
      · exact ih hsuf
  | lost h hcount ih =>
      rcases List.suffix_cons_iff.mp (suffix_of_head_ne hsuf nofun) with heq | hsuf
      · cases heq
        exact ⟨_, h.state.2⟩
      · exact ih hsuf

/-- While the watch goes on, it has not been stopped. -/
theorem Watch.not_stop (h : Watch identifier counter w log) (hw : w ≠ .gone) : .stop ∉ log := by
  induction h with
  | first q request time => simp
  | sent q request time h ih => simpa using ih nofun
  | handled packet h hw' ih => simpa using ih hw'
  | answered h ih => simpa using ih nofun
  | unanswered h hcount ih => simpa using ih nofun
  | lost h hcount ih => exact absurd rfl hw

/-- And no streak has been long enough. -/
theorem Watch.streak_ne (hcounter : 1 ≤ counter) (h : Watch identifier counter w log)
    (hw : w ≠ .gone) {a : Bool} {older : List PingEvent} (hsuf : .verdict a :: older <:+ log) :
    (streak (.verdict a :: older) : Int) ≠ counter := by
  induction h with
  | first q request time => cases List.eq_nil_of_suffix_nil (suffix_of_head_ne hsuf nofun)
  | sent q request time h ih => exact ih nofun (suffix_of_head_ne hsuf nofun)
  | handled packet h hw' ih => exact ih hw' (suffix_of_head_ne hsuf nofun)
  | answered h ih =>
      rcases List.suffix_cons_iff.mp hsuf with heq | hsuf
      · cases heq
        rw [streak]
        omega
      · exact ih nofun hsuf
  | unanswered h hcount ih =>
      rcases List.suffix_cons_iff.mp hsuf with heq | hsuf
      · cases heq
        rw [streak]
        exact hcount
      · exact ih nofun hsuf
  | lost h hcount ih => exact absurd rfl hw

theorem Watch.streak_lt (hcounter : 1 ≤ counter) (h : Watch identifier counter w log)
    (hw : w ≠ .gone) : (streak log : Int) < counter := by
  induction h with
  | first q request time => exact hcounter
  | sent q request time h ih => exact ih nofun
  | handled packet h hw' ih => exact ih hw'
  | answered h ih => exact hcounter
  | unanswered h hcount ih =>
      have hlt := ih nofun
      rw [streak]
      omega
  | lost h hcount ih => exact absurd rfl hw

/-- A watch is over after the verdict that made the streak long enough. -/
theorem Watch.of_gone (h : Watch identifier counter .gone log) :
    ∃ q older, log = .stop :: .verdict false :: older ∧
      Watch identifier counter (.awaiting q false) older ∧ (streak older : Int) + 1 = counter := by
  generalize hw : Watching.gone = w at h
  cases h with
  | @handled packet w log h hne =>
      cases w with
      | gone => exact absurd rfl hne
      | awaiting q a => cases hw
      | resting => cases hw
  | lost h hcount => exact ⟨_, _, rfl, h, hcount⟩
  | _ => cases hw

/-- **What a watch promises.** -/
theorem Watch.watched (hcounter : 1 ≤ counter) (h : Watch identifier counter w log) :
    Watched identifier counter log where
  alternate := h.alternate
  verdict a older hsuf := h.verdict hsuf
  stop older hsuf := by
    by_cases hw : w = .gone
    · subst hw
      obtain ⟨q, rest, rfl, h, hcount⟩ := h.of_gone
      rcases List.suffix_cons_iff.mp hsuf with heq | hsuf
      · cases heq
        exact ⟨false, rest, rfl, hcount⟩
      · have hmem := (suffix_of_head_ne hsuf nofun).mem List.mem_cons_self
        exact absurd hmem (h.not_stop nofun)
    · exact absurd (hsuf.mem List.mem_cons_self) (h.not_stop hw)
  stopped a older hsuf hcount := by
    by_cases hw : w = .gone
    · subst hw
      obtain ⟨q, rest, rfl, h, -⟩ := h.of_gone
      rcases List.suffix_cons_iff.mp (suffix_of_head_ne hsuf nofun) with heq | hsuf
      · rw [heq]
      · exact absurd hcount (h.streak_ne hcounter nofun hsuf)
    · exact absurd hcount (h.streak_ne hcounter hw hsuf)

/-! ## The handlers follow a watch -/

/-- Who waits for the timer. -/
def Watching.pending : Watching → List PingHandler
  | .awaiting _ _ => [.handleTimeout]
  | .resting => [.startSend]
  | .gone => []

@[simp] theorem see_pending {packet : Bytes} :
    (w.see identifier packet).pending = w.pending := by
  cases w <;> rfl

theorem see_eq_gone {packet : Bytes} : w.see identifier packet = .gone ↔ w = .gone := by
  cases w <;> simp [Watching.see]

namespace Ping

/-- The object is where the watch is. -/
structure Follows (identifier : UInt16) (counter : Int) (w : Watching) (p : Ping) : Prop where
  watch : Watch identifier counter w p.log
  timeOut : p.timeOut = streak p.log
  timeOutCounter : p.timeOutCounter = counter
  pending : p.timer.waits.map Wait.handler = w.pending
  stopped : p.stopped = true ↔ w = .gone
  request : ∀ q a, w = .awaiting q a → p.sequenceNumber = q ∧ (a = true ↔ p.numReplies ≠ 0)

variable {p p' : Ping} {now : Nat}

theorem follows_pingUntilDisconnect (identifier : UInt16) (counter : Int) (now : Nat) :
    Follows identifier counter (.awaiting 1 false)
      (({} : Ping).pingUntilDisconnect identifier counter now) where
  watch := .first ..
  timeOut := rfl
  timeOutCounter := rfl
  pending := rfl
  stopped := by simp [pingUntilDisconnect, startReceive, startSend]
  request := by
    rintro q a heq
    cases heq
    exact ⟨rfl, by simp [pingUntilDisconnect, startReceive, startSend]⟩

/-- After a rest, with nobody waiting any more, a request goes out. -/
theorem Follows.startSend (h : Follows identifier counter .resting p) {t : Timer PingHandler}
    (ht : t.waits = []) : Follows identifier counter (.awaiting (p.sequenceNumber + 1) false)
      ({ p with timer := t }.startSend identifier now) where
  watch := .sent _ _ _ h.watch
  timeOut := h.timeOut
  timeOutCounter := h.timeOutCounter
  pending := by simp [Ping.startSend, ht, Watching.pending]
  stopped := by simpa [Ping.startSend] using h.stopped
  request := by
    rintro q a heq
    cases heq
    exact ⟨rfl, by simp [Ping.startSend]⟩

/-- After a request comes a verdict. -/
theorem Follows.handleTimeout {q : UInt16} {a : Bool}
    (h : Follows identifier counter (.awaiting q a) p) {t : Timer PingHandler}
    (ht : t.waits = []) : ∃ w, Follows identifier counter w { p with timer := t }.handleTimeout := by
  obtain ⟨-, ha⟩ := h.request q a rfl
  have hstopped := h.stopped
  by_cases hnone : p.numReplies = 0
  · have haf : a = false := by
      rw [Bool.eq_false_iff, ne_eq, ha]
      exact not_not_intro hnone
    subst haf
    by_cases hcount : p.timeOut + 1 = p.timeOutCounter
    · refine ⟨.gone, ?_, ?_, ?_, ?_, ?_, nofun⟩
      all_goals simp only [Ping.handleTimeout, if_pos hnone, if_pos hcount]
      · exact .lost h.watch (by rw [← h.timeOut, hcount, h.timeOutCounter])
      · simp [streak, h.timeOut]
      · exact h.timeOutCounter
      · simp [ht, Watching.pending]
    · refine ⟨.resting, ?_, ?_, ?_, ?_, ?_, nofun⟩
      all_goals simp only [Ping.handleTimeout, if_pos hnone, if_neg hcount]
      · exact .unanswered h.watch (by rw [← h.timeOut, ← h.timeOutCounter]; exact hcount)
      · simp [streak, h.timeOut]
      · exact h.timeOutCounter
      · simp [ht, Watching.pending]
      · simpa using hstopped
  · have hat : a = true := ha.mpr hnone
    subst hat
    refine ⟨.resting, ?_, ?_, ?_, ?_, ?_, nofun⟩
    all_goals simp only [Ping.handleTimeout, if_neg hnone]
    · exact .answered h.watch
    · rfl
    · exact h.timeOutCounter
    · simp [ht, Watching.pending]
    · simpa using hstopped

theorem Follows.fire (h : Follows identifier counter w p) {wait : Wait PingHandler}
    (hrun : p.fire identifier now wait = some p') : ∃ w', Follows identifier counter w' p' := by
  rw [Ping.fire] at hrun
  split at hrun <;> cases hrun
  rename_i henabled
  obtain ⟨-, hmem, -⟩ := henabled
  have htake : ∀ {handler}, w.pending = [handler] →
      (p.timer.take wait).waits = [] ∧ wait.handler = handler := by
    intro handler hw
    obtain ⟨hone, hhandler⟩ := Timer.eq_of_mem_of_handlers (h.pending.trans hw) hmem
    exact ⟨by rw [Timer.take_waits, hone, List.erase_cons_head], hhandler⟩
  cases w with
  | awaiting q a =>
      obtain ⟨ht, hhandler⟩ := htake rfl
      rw [hhandler]
      exact h.handleTimeout ht
  | resting =>
      obtain ⟨ht, hhandler⟩ := htake rfl
      rw [hhandler]
      exact ⟨_, h.startSend ht⟩
  | gone =>
      have hnil : p.timer.waits = [] := List.map_eq_nil_iff.mp h.pending
      rw [hnil] at hmem
      cases hmem

/-- A packet that passes the filter counts as an answer, whoever waits. -/
theorem Follows.receive (h : Follows identifier counter w p) {packet : Bytes}
    (hrun : p.receive identifier packet = some p') :
    Follows identifier counter (w.see identifier packet) p' := by
  rw [Ping.receive] at hrun
  split at hrun <;> cases hrun
  rename_i henabled
  have hw : w ≠ .gone := by
    intro heq
    rw [h.stopped.mpr heq] at henabled
    cases henabled.1
  have hwatch := h.watch.handled packet hw
  have hstopped : p.stopped = true ↔ w.see identifier packet = .gone := by
    rw [see_eq_gone, h.stopped]
  by_cases hreply : isEchoReply identifier p.sequenceNumber packet = true
  · simp only [Ping.handleReceive, hreply, if_true, Ping.startReceive]
    refine ⟨hwatch, h.timeOut, h.timeOutCounter, ?_, hstopped, ?_⟩
    · rw [see_pending, ← h.pending]
      exact p.timer.handlers_abort
    · intro q a heq
      cases w with
      | awaiting q' a' =>
          cases heq
          obtain ⟨hq, -⟩ := h.request q a' rfl
          rw [hq] at hreply
          exact ⟨hq, by simp [hreply]⟩
      | resting => cases heq
      | gone => cases heq
  · simp only [Ping.handleReceive, if_neg hreply, Ping.startReceive]
    refine ⟨hwatch, h.timeOut, h.timeOutCounter, ?_, hstopped, ?_⟩
    · rw [see_pending]
      exact h.pending
    · intro q a heq
      cases w with
      | awaiting q' a' =>
          cases heq
          obtain ⟨hq, ha⟩ := h.request q a' rfl
          rw [hq] at hreply
          exact ⟨hq, by rw [Bool.eq_false_iff.mpr hreply, Bool.or_false]; exact ha⟩
      | resting => cases heq
      | gone => cases heq

/-- What a `Ping` is to do, in any state. -/
structure Declares (identifier : UInt16) (counter : Int) (p : Ping) : Prop where
  onePending : p.timer.waits.length ≤ 1
  watched : Watched identifier counter p.log
  timeOut : p.timeOut = streak p.log
  stopped : p.stopped = true ↔ .stop ∈ p.log

/-- `time_out_` is an `int` as `time_out_counter_` is, and never larger. -/
theorem Follows.timeOut_le (hcounter : 1 ≤ counter) (h : Follows identifier counter w p) :
    p.timeOut ≤ p.timeOutCounter := by
  rw [h.timeOut, h.timeOutCounter]
  by_cases hw : w = .gone
  · subst hw
    obtain ⟨q, older, hlog, -, hcount⟩ := h.watch.of_gone
    rw [hlog]
    exact Int.le_of_eq hcount
  · exact Int.le_of_lt (h.watch.streak_lt hcounter hw)

theorem Follows.declares (hcounter : 1 ≤ counter) (h : Follows identifier counter w p) :
    Declares identifier counter p where
  onePending := by
    rw [← List.length_map Wait.handler, h.pending]
    cases w <;> simp [Watching.pending]
  watched := h.watch.watched hcounter
  timeOut := h.timeOut
  stopped := by
    rw [h.stopped]
    constructor
    · rintro rfl
      obtain ⟨q, older, hlog, -, -⟩ := h.watch.of_gone
      rw [hlog]
      exact List.mem_cons_self
    · intro hstop
      by_contra hw
      exact h.watch.not_stop hw hstop

/-- In every run the object follows a watch. -/
theorem exists_follows {start : Nat} {s : PingState}
    (hs : (pingMachine identifier counter start).Reachable s) :
    ∃ w, Follows identifier counter w s.ping := by
  apply hs.inv (P := fun s => ∃ w, Follows identifier counter w s.ping)
  · exact ⟨_, follows_pingUntilDisconnect identifier counter start⟩
  · rintro s a s' ⟨w, h⟩ hstep
    cases a with
    | advance d =>
        cases hstep
        exact ⟨w, h⟩
    | fire wait =>
        obtain ⟨p, hp, rfl⟩ := Option.map_eq_some_iff.mp hstep
        exact h.fire hp
    | receive packet =>
        obtain ⟨p, hp, rfl⟩ := Option.map_eq_some_iff.mp hstep
        exact ⟨_, h.receive hp⟩

/-- One step writes down the handler it runs. -/
theorem handlerRuns_step {start : Nat} {a : PingAct} {s s' : PingState}
    (hs : (pingMachine identifier counter start).step s a = some s') :
    s'.ping.log.filterMap PingEvent.handlerRun
      = a.handlerRun.toList ++ s.ping.log.filterMap PingEvent.handlerRun := by
  cases a with
  | advance d =>
      cases hs
      rfl
  | fire wait =>
      obtain ⟨p, hp, rfl⟩ := Option.map_eq_some_iff.mp hs
      rw [Ping.fire] at hp
      split at hp <;> cases hp
      obtain ⟨handler, due, aborted⟩ := wait
      cases handler with
      | startSend => rfl
      | handleTimeout =>
          show List.filterMap _ (Ping.handleTimeout _).log = _
          rw [Ping.handleTimeout]
          split
          · simp only
            split <;> rfl
          · rfl
  | receive packet =>
      obtain ⟨p, hp, rfl⟩ := Option.map_eq_some_iff.mp hs
      rw [Ping.receive] at hp
      split at hp <;> cases hp
      simp only [Ping.handleReceive]
      split <;> rfl

/-- **The log is the run**: the handlers and packets in it are those of the
run, in their order, after the `start_send` of the call. -/
theorem handlerRuns_of_exec {start : Nat} {as : List PingAct} {s : PingState}
    (hrun : (pingMachine identifier counter start).exec
      (pingMachine identifier counter start).init as = some s) :
    s.ping.log.filterMap PingEvent.handlerRun
      = (as.filterMap PingAct.handlerRun).reverse ++ [.timer .startSend] := by
  have hfrom : ∀ {u : PingState}, (pingMachine identifier counter start).exec u as = some s →
      s.ping.log.filterMap PingEvent.handlerRun = (as.filterMap PingAct.handlerRun).reverse
        ++ u.ping.log.filterMap PingEvent.handlerRun := by
    clear hrun
    induction as with
    | nil =>
        intro u hu
        cases hu
        rfl
    | cons a as ih =>
        intro u hu
        obtain ⟨v, hv, hrest⟩ := Machine.exec_cons_eq_some.mp hu
        rw [ih hrest, handlerRuns_step hv, List.filterMap_cons]
        cases a.handlerRun with
        | none => rfl
        | some run =>
            rw [List.reverse_cons, List.append_assoc]
            rfl
  exact hfrom hrun

/-- **A host is declared gone exactly after the asked number of consecutive
unanswered requests**, in every run of the handlers. -/
theorem declares_of_reachable (identifier : UInt16) (counter : Int) (hcounter : 1 ≤ counter)
    (start : Nat) {s : PingState} (hs : (pingMachine identifier counter start).Reachable s) :
    Declares identifier counter s.ping := by
  obtain ⟨w, h⟩ := exists_follows hs
  exact h.declares hcounter

/-- A request that is answered at once, and two that are not. -/
def answeredThenGone : List PingAct :=
  [.receive (echoReplyPacket (0x45 :: List.replicate 19 0) 7 1),
   .fire ⟨.handleTimeout, seconds 2, true⟩, .advance (seconds 1),
   .fire ⟨.startSend, seconds 1, false⟩, .advance (seconds 2),
   .fire ⟨.handleTimeout, seconds 3, false⟩, .fire ⟨.startSend, seconds 2, false⟩,
   .advance (seconds 2), .fire ⟨.handleTimeout, seconds 5, false⟩]

theorem declares_of_reachable_answeredThenGone :
    ∃ s, (pingMachine 7 2 0).exec (pingMachine 7 2 0).init answeredThenGone = some s ∧
      s.ping.log.filterMap PingEvent.timerHandler = [false, true, false, true, false, true] ∧
      streak s.ping.log = 2 ∧ s.ping.stopped = true ∧ Declares 7 2 s.ping :=
  ⟨_, rfl, rfl, rfl, rfl, declares_of_reachable 7 2 (by decide) 0 ⟨answeredThenGone, rfl⟩⟩

end Ping

end HpLib
