import HpLib.Peripheral.PingSpacing

/-!
# How long it takes a Ping to give a host up

As long as no handler is kept waiting once it is due, an unanswered request
is given up after two seconds and the next one follows at once, since its
second is over by then. So the requests of a streak without an answer are two
seconds apart, and the host is declared gone two seconds after the last of
them (`detects_in_time`).

It is declared gone once. The io service is never reset, so a later
`ping_until_disconnect` on the same object sends one request and returns,
whatever the host does (`stopped_for_good`).
-/

namespace HpLib

open Lib

namespace Ping

/-- The clock does not go past a wait whose handler is due. -/
def Prompt (s : PingState) : PingAct → Prop
  | .advance d => d = 0 ∨ ∀ wait ∈ s.ping.timer.waits, wait.aborted = false ∧ s.now + d ≤ wait.expiry
  | .fire _ | .receive _ => True

instance (s : PingState) (a : PingAct) : Decidable (Prompt s a) :=
  match a with
  | .advance d => inferInstanceAs (Decidable (d = 0 ∨ ∀ wait ∈ s.ping.timer.waits,
      wait.aborted = false ∧ s.now + d ≤ wait.expiry))
  | .fire _ | .receive _ => .isTrue trivial

/-- The first `k` requests in the log were sent two seconds apart. -/
def TwoSecondsApart (k : Nat) (log : List PingEvent) : Prop :=
  ((sendTimes log).take k).IsChain fun time before => before + seconds 2 = time

/-- Where the clock stands in each phase of a watch. -/
structure OnTime (w : Watching) (now : Nat) (p : Ping) : Prop where
  last : (sendTimes p.log).head? = some p.timeSent
  sent : p.timeSent ≤ now
  awaiting : ∀ q a, w = .awaiting q a → now ≤ p.timeSent + seconds 2 ∧
    TwoSecondsApart (streak p.log + 1) p.log ∧
    p.timer.waits = [⟨.handleTimeout, p.timeSent + seconds 2, a⟩]
  resting : w = .resting → now ≤ p.timeSent + seconds 2 ∧
    (streak p.log ≠ 0 → now = p.timeSent + seconds 2) ∧
    TwoSecondsApart (streak p.log) p.log ∧
    ∃ aborted, p.timer.waits = [⟨.startSend, p.timeSent + seconds 1, aborted⟩]
  gone : w = .gone → p.timeSent + seconds 2 ≤ now ∧ TwoSecondsApart (streak p.log) p.log

variable {identifier : UInt16} {counter : Int} {w : Watching} {p p' : Ping} {now : Nat}

theorem TwoSecondsApart.one {log : List PingEvent} : TwoSecondsApart 1 log := by
  rw [TwoSecondsApart]
  cases sendTimes log with
  | nil => exact .nil
  | cons time times => exact .singleton _

/-- A request two seconds after the last one. -/
theorem TwoSecondsApart.sent {k time : Nat} {log : List PingEvent} (h : TwoSecondsApart k log)
    (hlast : ∀ before, k ≠ 0 → (sendTimes log).head? = some before → before + seconds 2 = time)
    (q : UInt16) (request : Bytes) : TwoSecondsApart (k + 1) (.sent q request time :: log) := by
  show (time :: (sendTimes log).take k).IsChain _
  rw [List.isChain_cons]
  refine ⟨?_, h⟩
  intro before hbefore
  rw [List.head?_take] at hbefore
  split at hbefore
  · cases hbefore
  · rename_i hk
    exact hlast before hk hbefore

/-! ## What the steps do to it -/

theorem onTime_pingUntilDisconnect (identifier : UInt16) (counter : Int) (start : Nat) :
    OnTime (.awaiting 1 false) start (({} : Ping).pingUntilDisconnect identifier counter start) where
  last := rfl
  sent := Nat.le_refl start
  awaiting := by
    rintro q a heq
    cases heq
    exact ⟨Nat.le_add_right _ _, .one, rfl⟩
  resting := nofun
  gone := nofun

/-- The clock goes no further than the wait. -/
theorem OnTime.advance (h : OnTime w now p) {d : Nat}
    (hd : d = 0 ∨ ∀ wait ∈ p.timer.waits, wait.aborted = false ∧ now + d ≤ wait.expiry) :
    OnTime w (now + d) p := by
  rcases hd with rfl | hd
  · exact h
  · refine ⟨h.last, Nat.le_add_right_of_le h.sent, ?_, ?_, ?_⟩
    · intro q a hw
      obtain ⟨-, hapart, hwaits⟩ := h.awaiting q a hw
      rw [hwaits] at hd
      exact ⟨(hd _ (.head _)).2, hapart, hwaits⟩
    · intro hw
      obtain ⟨-, hnow, hapart, aborted, hwaits⟩ := h.resting hw
      rw [hwaits] at hd
      have hle : now + d ≤ p.timeSent + seconds 1 := (hd _ (.head _)).2
      have hseconds : seconds 1 < seconds 2 := by decide
      refine ⟨by omega, ?_, hapart, aborted, hwaits⟩
      -- after an unanswered request the second is over
      intro hstreak
      have := hnow hstreak
      omega
    · intro hw
      obtain ⟨hnow, hapart⟩ := h.gone hw
      exact ⟨by omega, hapart⟩

theorem OnTime.startSend (h : OnTime .resting now p) {t : Timer PingHandler} (ht : t.waits = []) :
    OnTime (.awaiting (p.sequenceNumber + 1) false) now
      ({ p with timer := t }.startSend identifier now) where
  last := rfl
  sent := Nat.le_refl now
  awaiting := by
    rintro q a heq
    cases heq
    obtain ⟨-, hnow, hapart, -⟩ := h.resting rfl
    refine ⟨Nat.le_add_right _ _, ?_, ?_⟩
    · apply hapart.sent
      intro before hstreak hbefore
      rw [h.last] at hbefore
      cases hbefore
      exact (hnow hstreak).symm
    · simp [Ping.startSend, ht]
  resting := nofun
  gone := nofun

/-- Where the watch goes on from `awaiting`, and that it is on time there. -/
theorem OnTime.handleTimeout {q : UInt16} {a : Bool} (h : OnTime (.awaiting q a) now p)
    (ha : a = true ↔ p.numReplies ≠ 0) (hdue : a = false → now = p.timeSent + seconds 2)
    {t : Timer PingHandler} (ht : t.waits = []) (hfollows :
      Follows identifier counter w ({ p with timer := t } : Ping).handleTimeout) :
    OnTime w now { p with timer := t }.handleTimeout := by
  obtain ⟨hnow, hapart, -⟩ := h.awaiting q a rfl
  have hpending := hfollows.pending
  have hlast := h.last
  by_cases hnone : p.numReplies = 0
  · have hnow' : now = p.timeSent + seconds 2 := by
      apply hdue
      rw [Bool.eq_false_iff, ne_eq, ha]
      exact not_not_intro hnone
    by_cases hcount : p.timeOut + 1 = p.timeOutCounter
    · simp only [Ping.handleTimeout, if_pos hnone, if_pos hcount, Timer.cancel_waits, ht,
        List.map_nil] at hpending ⊢
      cases w with
      | gone =>
          exact ⟨hlast, h.sent, by simp, by simp,
            fun _ => ⟨Nat.le_of_eq hnow'.symm, hapart⟩⟩
      | _ => cases hpending
    · simp only [Ping.handleTimeout, if_pos hnone, if_neg hcount, Timer.asyncWait_waits,
        Timer.expiresAt_waits, ht, List.map_nil, List.map_cons] at hpending ⊢
      cases w with
      | resting =>
          exact ⟨hlast, h.sent, by simp,
            fun _ => ⟨hnow, fun _ => hnow', hapart, false, by simp [ht]⟩,
            by simp⟩
      | _ => cases hpending
  · simp only [Ping.handleTimeout, if_neg hnone, Timer.asyncWait_waits, Timer.expiresAt_waits, ht,
      List.map_nil, List.map_cons] at hpending ⊢
    cases w with
    | resting =>
        refine ⟨hlast, h.sent, by simp,
          fun _ => ⟨hnow, fun hstreak => absurd rfl hstreak, .nil, false, ?_⟩,
          by simp⟩
        simp [ht]
    | _ => cases hpending

theorem OnTime.fire (h : OnTime w now p) (hfollows : Follows identifier counter w p)
    {wait : Wait PingHandler} (hrun : p.fire identifier now wait = some p') :
    ∃ w', Follows identifier counter w' p' ∧ OnTime w' now p' := by
  rw [Ping.fire] at hrun
  split at hrun <;> cases hrun
  rename_i henabled
  obtain ⟨-, hmem, hdue⟩ := henabled
  cases w with
  | awaiting q a =>
      obtain ⟨hnow, -, hwaits⟩ := h.awaiting q a rfl
      rw [hwaits, List.mem_singleton] at hmem
      subst hmem
      have ht : (p.timer.take ⟨.handleTimeout, p.timeSent + seconds 2, a⟩).waits = [] := by
        rw [Timer.take_waits, hwaits, List.erase_cons_head]
      obtain ⟨w', hw'⟩ := hfollows.handleTimeout ht
      refine ⟨w', hw', h.handleTimeout (hfollows.request q a rfl).2 ?_ ht hw'⟩
      rintro rfl
      rw [Wait.due, Bool.false_or, decide_eq_true_iff] at hdue
      exact Nat.le_antisymm hnow hdue
  | resting =>
      obtain ⟨-, -, -, aborted, hwaits⟩ := h.resting rfl
      rw [hwaits, List.mem_singleton] at hmem
      subst hmem
      have ht : (p.timer.take ⟨.startSend, p.timeSent + seconds 1, aborted⟩).waits = [] := by
        rw [Timer.take_waits, hwaits, List.erase_cons_head]
      exact ⟨_, hfollows.startSend ht, h.startSend ht⟩
  | gone =>
      rw [List.map_eq_nil_iff.mp hfollows.pending] at hmem
      cases hmem

/-- A packet leaves the clock alone; one that counts ends the wait. -/
theorem OnTime.receive (h : OnTime w now p) (hfollows : Follows identifier counter w p)
    {packet : Bytes} (hrun : p.receive identifier packet = some p') :
    OnTime (w.see identifier packet) now p' := by
  rw [Ping.receive] at hrun
  split at hrun <;> cases hrun
  by_cases hreply : isEchoReply identifier p.sequenceNumber packet = true
  · simp only [Ping.handleReceive, hreply, if_true, Ping.startReceive]
    refine ⟨h.last, h.sent, ?_, ?_, ?_⟩
    · intro q a hw
      cases w with
      | awaiting q' a' =>
          cases hw
          obtain ⟨hnow, hapart, hwaits⟩ := h.awaiting q a' rfl
          obtain ⟨hq, -⟩ := hfollows.request q a' rfl
          refine ⟨hnow, hapart, ?_⟩
          rw [← hq, hreply, Bool.or_true, Timer.cancel_waits, hwaits]
          rfl
      | _ => cases hw
    · intro hw
      cases w with
      | resting =>
          obtain ⟨hnow, hstreak, hapart, aborted, hwaits⟩ := h.resting rfl
          refine ⟨hnow, hstreak, hapart, true, ?_⟩
          rw [Timer.cancel_waits, hwaits]
          rfl
      | _ => cases hw
    · intro hw
      exact h.gone (see_eq_gone.mp hw)
  · simp only [Ping.handleReceive, if_neg hreply, Ping.startReceive]
    refine ⟨h.last, h.sent, ?_, ?_, ?_⟩
    · intro q a hw
      cases w with
      | awaiting q' a' =>
          cases hw
          obtain ⟨hnow, hapart, hwaits⟩ := h.awaiting q a' rfl
          obtain ⟨hq, -⟩ := hfollows.request q a' rfl
          refine ⟨hnow, hapart, ?_⟩
          rw [← hq, Bool.eq_false_iff.mpr hreply, Bool.or_false]
          exact hwaits
      | _ => cases hw
    · intro hw
      cases w with
      | resting => exact h.resting rfl
      | _ => cases hw
    · intro hw
      exact h.gone (see_eq_gone.mp hw)

/-- Prompt runs are on time throughout. -/
theorem exists_onTime {start : Nat} {s : PingState}
    (hs : (pingMachine identifier counter start).Reaches Prompt s) :
    ∃ w, Follows identifier counter w s.ping ∧ OnTime w s.now s.ping := by
  apply hs.inv (P := fun s => ∃ w, Follows identifier counter w s.ping ∧ OnTime w s.now s.ping)
  · exact ⟨_, follows_pingUntilDisconnect identifier counter start,
      onTime_pingUntilDisconnect identifier counter start⟩
  · rintro s a s' ⟨w, hfollows, h⟩ hprompt hstep
    cases a with
    | advance d =>
        cases hstep
        exact ⟨w, hfollows, h.advance hprompt⟩
    | fire wait =>
        obtain ⟨p, hp, rfl⟩ := Option.map_eq_some_iff.mp hstep
        exact h.fire hfollows hp
    | receive packet =>
        obtain ⟨p, hp, rfl⟩ := Option.map_eq_some_iff.mp hstep
        exact ⟨_, hfollows.receive hp, h.receive hfollows hp⟩

/-- What a user of `ping_until_disconnect(counter)` can expect of the time. -/
structure Punctual (counter : Int) (now : Nat) (p : Ping) : Prop where
  apart : TwoSecondsApart (streak p.log) p.log
  last : (sendTimes p.log).head? = some p.timeSent
  waiting : p.stopped = false → now ≤ p.timeSent + seconds 2 ∧
    ∃ wait ∈ p.timer.waits, ∃ d, Prompt ⟨now, p⟩ (.advance d) ∧ d ≤ seconds 2 ∧
      wait.due (now + d) = true
  stopped : p.stopped = true → (streak p.log : Int) = counter ∧ p.timeSent + seconds 2 ≤ now

/-- A single wait is due already, or when the clock comes to its expiry. -/
theorem exists_due {wait : Wait PingHandler} (hwaits : p.timer.waits = [wait])
    (hexpiry : wait.expiry ≤ now + seconds 2) :
    ∃ wait ∈ p.timer.waits, ∃ d, Prompt ⟨now, p⟩ (.advance d) ∧ d ≤ seconds 2 ∧
      wait.due (now + d) = true := by
  refine ⟨wait, by rw [hwaits]; exact .head _, ?_⟩
  by_cases hdue : wait.due now = true
  · exact ⟨0, .inl rfl, Nat.zero_le _, hdue⟩
  · rw [Wait.due, Bool.or_eq_true, decide_eq_true_iff, not_or, Bool.not_eq_true] at hdue
    obtain ⟨haborted, hlt⟩ := hdue
    refine ⟨wait.expiry - now, .inr ?_, by omega, ?_⟩
    · intro wait' hmem
      rw [hwaits, List.mem_singleton] at hmem
      subst hmem
      exact ⟨haborted, by show now + (wait'.expiry - now) ≤ wait'.expiry; omega⟩
    · rw [Wait.due, Bool.or_eq_true, decide_eq_true_iff]
      exact .inr (by omega)

theorem OnTime.punctual (hfollows : Follows identifier counter w p) (h : OnTime w now p) :
    Punctual counter now p where
  apart := by
    cases w with
    | awaiting q a =>
        obtain ⟨-, hapart, -⟩ := h.awaiting q a rfl
        have htake := hapart.take (streak p.log)
        rwa [List.take_take, Nat.min_eq_left (Nat.le_succ _)] at htake
    | resting => exact (h.resting rfl).2.2.1
    | gone => exact (h.gone rfl).2
  last := h.last
  waiting := by
    intro hrunning
    have hsent := h.sent
    cases w with
    | awaiting q a =>
        obtain ⟨hnow, -, hwaits⟩ := h.awaiting q a rfl
        exact ⟨hnow, exists_due hwaits (by show p.timeSent + seconds 2 ≤ _; omega)⟩
    | resting =>
        obtain ⟨hnow, -, -, aborted, hwaits⟩ := h.resting rfl
        have hseconds : seconds 1 < seconds 2 := by decide
        exact ⟨hnow, exists_due hwaits (by show p.timeSent + seconds 1 ≤ _; omega)⟩
    | gone =>
        rw [hfollows.stopped.mpr rfl] at hrunning
        cases hrunning
  stopped := by
    intro hstopped
    obtain rfl := hfollows.stopped.mp hstopped
    obtain ⟨q, older, hlog, -, hcount⟩ := hfollows.watch.of_gone
    refine ⟨?_, (h.gone rfl).1⟩
    rw [hlog]
    exact hcount

/-- **A silent host is found out in time.** In every run in which no handler
is kept waiting, the unanswered requests since the last answer are two
seconds apart; until the service stops the clock is at most two seconds past
the last request, and the next handler is due within two more; and when it
stops, `counter` requests went unanswered and two seconds have passed since
the last. -/
theorem detects_in_time (identifier : UInt16) (counter : Int) (start : Nat) {s : PingState}
    (hs : (pingMachine identifier counter start).Reaches Prompt s) :
    Punctual counter s.now s.ping := by
  obtain ⟨w, hfollows, h⟩ := exists_onTime hs
  exact h.punctual hfollows

/-- Two requests without an answer, given up after four seconds. -/
def twoUnanswered : List PingAct :=
  [.advance (seconds 2), .fire ⟨.handleTimeout, seconds 2, false⟩,
    .fire ⟨.startSend, seconds 1, false⟩, .advance (seconds 2),
    .fire ⟨.handleTimeout, seconds 4, false⟩]

theorem detects_in_time_twoUnanswered :
    ∃ s, (pingMachine 7 2 0).exec (pingMachine 7 2 0).init twoUnanswered = some s ∧
      s.ping.stopped = true ∧ s.now = seconds 4 ∧ Punctual 2 s.now s.ping :=
  ⟨_, rfl, rfl, rfl, detects_in_time 7 2 0 ⟨twoUnanswered, rfl, by decide⟩⟩

/-! ## Pinging again -/

/-- What happens to an object that its user pings with more than once. -/
inductive UserAct where
  | act (a : PingAct)
  | again (counter : Int)
  deriving Repr, DecidableEq

/-- The first call and the later ones. A call returns when the service has
stopped, and `run` on a service that has stopped returns at once. -/
def userMachine (identifier : UInt16) (counter : Int) (start : Nat) :
    Machine PingState UserAct where
  init := (pingMachine identifier counter start).init
  step s
    | .act a => (pingMachine identifier counter start).step s a
    | .again counter =>
        if s.ping.stopped then
          some { s with ping := s.ping.pingUntilDisconnect identifier counter s.now }
        else none

/-- How often the user calls again. -/
def calls : List UserAct → Nat
  | [] => 0
  | .again _ :: as => calls as + 1
  | .act _ :: as => calls as

theorem calls_cons (a : UserAct) (as : List UserAct) : calls (a :: as) = calls as + calls [a] := by
  cases a <;> rfl

/-- On a stopped service a step is a call that sends one request, or time
passes. -/
theorem step_of_stopped {start : Nat} {s s' : PingState} {a : UserAct}
    (hstopped : s.ping.stopped = true)
    (hs : (userMachine identifier counter start).step s a = some s') :
    s'.ping.stopped = true ∧ ∃ requests, s'.ping.log = requests ++ s.ping.log ∧
      requests.length = calls [a] ∧
      ∀ e ∈ requests, ∃ q request time, e = PingEvent.sent q request time := by
  cases a with
  | again counter =>
      obtain ⟨-, hs⟩ := Option.ite_none_right_eq_some.mp hs
      cases hs
      refine ⟨hstopped, [.sent _ _ _], rfl, rfl, ?_⟩
      intro e he
      exact ⟨_, _, _, List.mem_singleton.mp he⟩
  | act a =>
      cases a with
      | advance d =>
          cases hs
          exact ⟨hstopped, [], rfl, rfl, nofun⟩
      | fire wait =>
          obtain ⟨p, hp, rfl⟩ := Option.map_eq_some_iff.mp hs
          rw [Ping.fire, hstopped] at hp
          cases hp
      | receive packet =>
          obtain ⟨p, hp, rfl⟩ := Option.map_eq_some_iff.mp hs
          rw [Ping.receive, hstopped] at hp
          cases hp

/-- The user is still in the first call, or the service has stopped. -/
theorem reachable_or_stopped {start : Nat} {s : PingState}
    (hs : (userMachine identifier counter start).Reachable s) :
    (pingMachine identifier counter start).Reachable s ∨ s.ping.stopped = true := by
  apply hs.inv (P := fun s =>
    (pingMachine identifier counter start).Reachable s ∨ s.ping.stopped = true)
  · exact .inl ⟨[], rfl⟩
  · rintro s a s' (⟨as, hrun⟩ | hstopped) hstep
    · cases a with
      | act a =>
          refine .inl ⟨as ++ [a], ?_⟩
          rw [Machine.exec_append, hrun]
          exact Machine.exec_cons_eq_some.mpr ⟨s', hstep, rfl⟩
      | again counter =>
          obtain ⟨hstopped, -⟩ := Option.ite_none_right_eq_some.mp hstep
          exact .inr (step_of_stopped hstopped hstep).1
    · exact .inr (step_of_stopped hstopped hstep).1

/-- Where the log says that the host is gone, the service has stopped. -/
theorem stopped_of_stop {start : Nat} {s : PingState}
    (hs : (userMachine identifier counter start).Reachable s) (hstop : .stop ∈ s.ping.log) :
    s.ping.stopped = true := by
  rcases reachable_or_stopped hs with hs | hstopped
  · obtain ⟨w, hfollows⟩ := exists_follows hs
    rw [hfollows.stopped]
    by_contra hw
    exact hfollows.watch.not_stop hw hstop
  · exact hstopped

/-- **A Ping watches once**: after a host was declared gone, each later call
sends one request and no more comes of it. No answer is handled and no
verdict given, however long the user goes on. -/
theorem stopped_for_good (identifier : UInt16) (counter : Int) (start : Nat) {s s' : PingState}
    (hs : (userMachine identifier counter start).Reachable s) (hstop : .stop ∈ s.ping.log)
    {as : List UserAct} (hrun : (userMachine identifier counter start).exec s as = some s') :
    s'.ping.stopped = true ∧ ∃ requests, s'.ping.log = requests ++ s.ping.log ∧
      requests.length = calls as ∧
      ∀ e ∈ requests, ∃ q request time, e = PingEvent.sent q request time := by
  have hstopped := stopped_of_stop hs hstop
  clear hs hstop
  induction as generalizing s with
  | nil =>
      cases hrun
      exact ⟨hstopped, [], rfl, rfl, nofun⟩
  | cons a as ih =>
      obtain ⟨u, hu, hrest⟩ := Machine.exec_cons_eq_some.mp hrun
      obtain ⟨hstopped', first, hlog, hlen, hfirst⟩ := step_of_stopped hstopped hu
      obtain ⟨hend, requests, hlog', hlen', hrequests⟩ := ih hrest hstopped'
      refine ⟨hend, requests ++ first, ?_, ?_, ?_⟩
      · rw [hlog', hlog, List.append_assoc]
      · rw [List.length_append, hlen, hlen', ← calls_cons]
      · intro e he
        rcases List.mem_append.mp he with he | he
        · exact hrequests e he
        · exact hfirst e he

/-- Two more calls after `twoUnanswered`, a second apart. -/
def calledAgain : List UserAct :=
  [.again 5, .act (.advance (seconds 1)), .again 5]

theorem stopped_for_good_calledAgain :
    ∃ s s', (userMachine 7 2 0).exec (userMachine 7 2 0).init (twoUnanswered.map .act) = some s ∧
      (userMachine 7 2 0).exec s calledAgain = some s' ∧
      s'.ping.stopped = true ∧ ∃ requests, s'.ping.log = requests ++ s.ping.log ∧
        requests.length = 2 ∧ ∀ e ∈ requests, ∃ q request time, e = PingEvent.sent q request time :=
  ⟨_, _, rfl, rfl, stopped_for_good 7 2 0 ⟨twoUnanswered.map .act, rfl⟩ (.head _)
    (show (userMachine 7 2 0).exec _ calledAgain = _ from rfl)⟩

end Ping

end HpLib
