import HpLib.Peripheral.PingWatch

/-!
# How far apart a Ping sends

`handle_timeout` keeps requests a second apart: it sets the timer to a second
after the last one before it waits with `start_send`. But `handle_receive`
cancels the timer for every reply that passes the filter, where the source
once asked for the first one only, and a cancelled `start_send` runs at once.
So requests keep their distance in the runs in which no such reply is handled
during that wait.
-/

namespace HpLib

open Lib

/-- When the requests were sent, the latest first. -/
def sendTimes (log : List PingEvent) : List Nat :=
  log.filterMap fun
    | .sent _ _ time => some time
    | .handled _ | .verdict _ | .stop => none

/-- Each request was sent at least a second after the one before it. -/
def Spaced (log : List PingEvent) : Prop :=
  (sendTimes log).IsChain fun time before => before + seconds 1 ≤ time

namespace Ping

/-- No reply that passes the filter is handled while `start_send` waits and
its second is not over. -/
def Unhurried (identifier : UInt16) (s : PingState) : PingAct → Prop
  | .receive packet => isEchoReply identifier s.ping.sequenceNumber packet = true →
      ∀ wait ∈ s.ping.timer.waits, wait.handler = .startSend → wait.due s.now = true
  | .advance _ | .fire _ => True

instance (identifier : UInt16) (s : PingState) (a : PingAct) : Decidable (Unhurried identifier s a) :=
  match a with
  | .receive packet => inferInstanceAs (Decidable (isEchoReply identifier s.ping.sequenceNumber
      packet = true → ∀ wait ∈ s.ping.timer.waits, wait.handler = .startSend →
        wait.due s.now = true))
  | .advance _ | .fire _ => .isTrue trivial

/-- The last request was sent at `time_sent_`, and `start_send` is not due
before a second after it. -/
structure Paced (now : Nat) (p : Ping) : Prop where
  spaced : Spaced p.log
  last : (sendTimes p.log).head? = some p.timeSent
  rest : ∀ wait ∈ p.timer.waits, wait.handler = .startSend →
    wait.expiry = p.timeSent + seconds 1 ∧ (wait.aborted = true → p.timeSent + seconds 1 ≤ now)

variable {identifier : UInt16} {counter : Int} {w : Watching} {p p' : Ping} {now : Nat}

/-- When `start_send` is due, the second is over. -/
theorem Paced.due (h : Paced now p) {wait : Wait PingHandler} (hmem : wait ∈ p.timer.waits)
    (hhandler : wait.handler = .startSend) (hdue : wait.due now = true) :
    p.timeSent + seconds 1 ≤ now := by
  obtain ⟨hexpiry, haborted⟩ := h.rest wait hmem hhandler
  rw [Wait.due, Bool.or_eq_true, decide_eq_true_iff, hexpiry] at hdue
  rcases hdue with hdue | hdue
  · exact haborted hdue
  · exact hdue

theorem Paced.advance (h : Paced now p) (d : Nat) : Paced (now + d) p where
  spaced := h.spaced
  last := h.last
  rest := by
    intro wait hmem hhandler
    obtain ⟨hexpiry, haborted⟩ := h.rest wait hmem hhandler
    refine ⟨hexpiry, fun ha => ?_⟩
    have := haborted ha
    omega

theorem Paced.startSend (h : Paced now p) (hsecond : p.timeSent + seconds 1 ≤ now)
    {t : Timer PingHandler} (ht : t.waits = []) :
    Paced now ({ p with timer := t }.startSend identifier now) where
  spaced := by
    show (now :: sendTimes p.log).IsChain _
    rw [List.isChain_cons, h.last]
    refine ⟨fun before hbefore => ?_, h.spaced⟩
    cases hbefore
    exact hsecond
  last := rfl
  rest := by
    intro wait hmem hhandler
    simp only [Ping.startSend, Timer.asyncWait_waits, Timer.expiresAt_waits, ht, List.map_nil,
      List.mem_singleton] at hmem
    rw [hmem] at hhandler
    cases hhandler

theorem Paced.handleTimeout (h : Paced now p) {t : Timer PingHandler} (ht : t.waits = []) :
    Paced now { p with timer := t }.handleTimeout := by
  have hrest : ∀ wait ∈ ((t.expiresAt (p.timeSent + seconds 1)).asyncWait .startSend).waits,
      wait.handler = .startSend → wait.expiry = p.timeSent + seconds 1 ∧
        (wait.aborted = true → p.timeSent + seconds 1 ≤ now) := by
    intro wait hmem _
    simp only [Timer.asyncWait_waits, Timer.expiresAt_waits, ht, List.map_nil, List.mem_singleton,
      Timer.expiresAt_expiry] at hmem
    rw [hmem]
    exact ⟨rfl, nofun⟩
  dsimp only [Ping.handleTimeout]
  split
  · split
    · refine ⟨h.spaced, h.last, fun wait hmem => ?_⟩
      simp [ht] at hmem
    · exact ⟨h.spaced, h.last, hrest⟩
  · exact ⟨h.spaced, h.last, hrest⟩

theorem Paced.fire (h : Paced now p) (hfollows : Follows identifier counter w p)
    {wait : Wait PingHandler} (hrun : p.fire identifier now wait = some p') : Paced now p' := by
  rw [Ping.fire] at hrun
  split at hrun <;> cases hrun
  rename_i henabled
  obtain ⟨-, hmem, hdue⟩ := henabled
  -- nobody else waits for the timer
  have hidle : (p.timer.take wait).waits = [] := by
    have hone := hfollows.pending
    cases w with
    | gone =>
        rw [List.map_eq_nil_iff.mp hone] at hmem
        cases hmem
    | awaiting q a =>
        rw [Timer.take_waits, (Timer.eq_of_mem_of_handlers hone hmem).1, List.erase_cons_head]
    | resting =>
        rw [Timer.take_waits, (Timer.eq_of_mem_of_handlers hone hmem).1, List.erase_cons_head]
  cases hhandler : wait.handler with
  | handleTimeout => exact h.handleTimeout hidle
  | startSend => exact h.startSend (h.due hmem hhandler hdue) hidle

theorem Paced.receive (h : Paced now p) {packet : Bytes}
    (hguard : isEchoReply identifier p.sequenceNumber packet = true →
      ∀ wait ∈ p.timer.waits, wait.handler = .startSend → wait.due now = true)
    (hrun : p.receive identifier packet = some p') : Paced now p' := by
  rw [Ping.receive] at hrun
  split at hrun <;> cases hrun
  rw [Ping.handleReceive]
  split
  · rename_i hreply
    refine ⟨h.spaced, h.last, fun wait hmem hhandler => ?_⟩
    obtain ⟨before, hbefore, rfl⟩ := List.mem_map.mp hmem
    refine ⟨(h.rest before hbefore hhandler).1, fun _ => ?_⟩
    exact h.due hbefore hhandler (hguard hreply before hbefore hhandler)
  · exact ⟨h.spaced, h.last, h.rest⟩

theorem paced_pingUntilDisconnect (identifier : UInt16) (counter : Int) (now : Nat) :
    Paced now (({} : Ping).pingUntilDisconnect identifier counter now) where
  spaced := .singleton _
  last := rfl
  rest := by
    intro wait hmem hhandler
    rw [List.mem_singleton.mp hmem] at hhandler
    cases hhandler

/-- **Requests are a second apart** in every run in which no reply that
passes the filter is handled before the second of a waiting `start_send` is
over. -/
theorem spaced_of_unhurried (identifier : UInt16) (counter : Int) (start : Nat) {s : PingState}
    (hs : (pingMachine identifier counter start).Reaches (Unhurried identifier) s) :
    Spaced s.ping.log := by
  suffices h : Paced s.now s.ping ∧ ∃ w, Follows identifier counter w s.ping from h.1.spaced
  apply hs.inv (P := fun s => Paced s.now s.ping ∧ ∃ w, Follows identifier counter w s.ping)
  · exact ⟨paced_pingUntilDisconnect identifier counter start,
      _, follows_pingUntilDisconnect identifier counter start⟩
  · rintro s a s' ⟨h, w, hfollows⟩ hguard hstep
    cases a with
    | advance d =>
        cases hstep
        exact ⟨h.advance d, w, hfollows⟩
    | fire wait =>
        obtain ⟨p, hp, rfl⟩ := Option.map_eq_some_iff.mp hstep
        exact ⟨h.fire hfollows hp, hfollows.fire hp⟩
    | receive packet =>
        obtain ⟨p, hp, rfl⟩ := Option.map_eq_some_iff.mp hstep
        exact ⟨h.receive hguard hp, _, hfollows.receive hp⟩

/-- The answer to request `n` of a process whose identifier is 7. -/
def answer (n : UInt16) : Bytes :=
  echoReplyPacket (0x45 :: List.replicate 19 0) 7 n

/-- One answer to the first request, half a second later; the second request
goes out when the second is over. -/
def onTime : List PingAct :=
  [.advance 500000, .receive (answer 1), .fire ⟨.handleTimeout, seconds 2, true⟩, .advance 500000,
    .fire ⟨.startSend, seconds 1, false⟩]

theorem spaced_of_unhurried_onTime :
    ∃ s, (pingMachine 7 3 0).exec (pingMachine 7 3 0).init onTime = some s ∧
      sendTimes s.ping.log = [seconds 1, 0] ∧ Spaced s.ping.log :=
  ⟨_, rfl, rfl, spaced_of_unhurried 7 3 0 ⟨onTime, rfl, by decide⟩⟩

/-- Two answers to the first request and two to the second, all at once. -/
def hurried : List PingAct :=
  [.receive (answer 1), .fire ⟨.handleTimeout, seconds 2, true⟩, .receive (answer 1),
    .fire ⟨.startSend, seconds 1, true⟩, .receive (answer 2),
    .fire ⟨.handleTimeout, seconds 2, true⟩, .receive (answer 2),
    .fire ⟨.startSend, seconds 1, true⟩]

/-- Three requests at the same time, so that the third comes too soon after
the second as well. -/
theorem hurried_not_spaced :
    ∃ s, (pingMachine 7 3 0).Reachable s ∧ sendTimes s.ping.log = [0, 0, 0] ∧
      ¬ Spaced s.ping.log ∧
      ¬ (sendTimes s.ping.log).dropLast.IsChain fun time before => before + seconds 1 ≤ time :=
  ⟨_, ⟨hurried, rfl⟩, rfl, by unfold Spaced; decide, by decide⟩

end Ping

end HpLib
