import HpLib.Communication.ModulesCommunicationManager
import HpLib.Lib.Group

/-!
# ModulesCommunicationManager: messages on threads of their own

`send_message_async` gives every message a new thread that runs
`send_message`, and the destructor joins them all. Each message is then
handed over once, to the function that its look-up found (`async_once`), and
the messages of a manager nobody else touches arrive in any order whatever
(`async_any_order`). `send_message_async` has long returned `Ok` by then: a
message without a receiver throws on its thread, where nothing catches, and
the program ends.

The code takes no lock around the look-up and only a shared one around
registrations, which keeps nobody out. So an access to `module_maps_` is a
stretch of time here, and when one that writes meets another the behaviour is
undefined: what is said about a run is said up to that moment. The function
found is called after the access, on a copy. Nobody calls
`send_message_async` once the destructor runs.
-/

namespace HpLib

open Lib

/-- What is bound to a thread. -/
structure Sending (μ : Type) where
  msg : μ
  src : ModuleName
  dst : ModuleName

namespace ModulesCommunicationManager

variable {γ μ : Type}

/-- `send_message` on the thread. -/
def sendThread (γ : Type) (x : Sending μ) : Dispatch.Call ModuleName γ (μ × ModuleName) :=
  .send x.dst (x.msg, x.src)

/-- The calls that write to `module_maps_`: a registration, the removal of
one, and a look-up that finds nothing and puts an empty function there. -/
def changes (m : ModulesCommunicationManager γ) :
    Dispatch.Call ModuleName γ (μ × ModuleName) → Bool
  | .add _ _ => true
  | .remove dst => (m.moduleMaps.find dst).isSome
  | .send dst _ => (m.moduleMaps.find dst).isNone

theorem call_of_not_changes (m : ModulesCommunicationManager γ)
    (c : Dispatch.Call ModuleName γ (μ × ModuleName)) (h : m.changes c = false) :
    (m.call c).2 = m := by
  cases c with
  | add k f => cases h
  | remove dst =>
      rw [changes, Option.isSome_eq_false_iff, Option.isNone_iff_eq_none] at h
      exact congrArg mk (Table.erase_of_none h)
  | send dst x =>
      rw [changes, Option.isNone_eq_false_iff] at h
      obtain ⟨f, hf⟩ := Option.isSome_iff_exists.mp h
      rw [call, sendMessage, Table.subscript_of_some hf]

/-- `add_connection`, `remove_connection` and `send_message` are direct calls,
`send_message_async` starts a thread, and the destructor joins. A call is one
access to `module_maps_`; to act on its answer is to call the function. -/
def messagesThread (γ μ : Type) :
    Group (ModulesCommunicationManager γ) (Dispatch.Call ModuleName γ (μ × ModuleName))
      (Dispatch.Outcome γ (μ × ModuleName) CommunicationError CallError) (Sending μ) where
  call := call
  changes := changes
  job := sendThread γ
  ok o := o.returned.isOk
  keeps := call_of_not_changes

abbrev AsyncState (γ μ : Type) :=
  Group.State (ModulesCommunicationManager γ) (Dispatch.Call ModuleName γ (μ × ModuleName))
    (Dispatch.Outcome γ (μ × ModuleName) CommunicationError CallError) (Sending μ)

abbrev AsyncAct (γ μ : Type) :=
  Group.Act (Dispatch.Call ModuleName γ (μ × ModuleName)) (Sending μ)

/-- `send_message_async` gives `messages_thread_` a new thread, and returns
`Ok` whatever comes of it. -/
def sendMessageAsync (γ : Type) (msg : μ) (src dst : ModuleName) : AsyncAct γ μ :=
  .spawn ⟨msg, src, dst⟩

/-- A call that was made, with what it returned or threw. -/
abbrev AsyncEntry (γ μ : Type) :=
  Group.Entry (Dispatch.Call ModuleName γ (μ × ModuleName))
    (Dispatch.Outcome γ (μ × ModuleName) CommunicationError CallError) (Sending μ)

/-- A manager with the threads that it starts. -/
abbrev asyncMachine (m : ModulesCommunicationManager γ) :
    Machine (AsyncState γ μ) (AsyncAct γ μ) :=
  (messagesThread γ μ).machine m

/-- What was invoked, in order. -/
def invoked (s : AsyncState γ μ) : List (γ × μ × ModuleName) :=
  s.acted.flatMap fun e => e.answer.invoked

variable {m : ModulesCommunicationManager γ} {x : Sending μ} {g : γ}

/-- `g` receives what `d` says, as `x` asks. -/
def Receives (m : ModulesCommunicationManager γ) (x : Sending μ) (d : γ × μ × ModuleName) : Prop :=
  m.moduleMaps.find x.dst = some (some d.1) ∧ d.2 = (x.msg, x.src)

theorem call_sendThread_of_find (h : m.moduleMaps.find x.dst = some (some g)) :
    m.call (sendThread γ x) = (⟨[(g, (x.msg, x.src))], .ok .ok⟩, m) := by
  rw [sendThread, call, sendMessage, Table.subscript_of_some h]
  rfl

/-- A send that returns found a function. -/
theorem find_of_isOk (h : (m.call (sendThread γ x)).1.returned.isOk) :
    ∃ g, m.moduleMaps.find x.dst = some (some g) := by
  cases hfind : m.moduleMaps.find x.dst with
  | none =>
      rw [sendThread, call, sendMessage, Table.subscript_of_none hfind] at h
      cases h
  | some f =>
      cases f with
      | some g => exact ⟨g, rfl⟩
      | none =>
          rw [sendThread, call, sendMessage, Table.subscript_of_some hfind] at h
          cases h

/-- A send that returned found a function, and handed the message over. -/
theorem receives_of_isOk {o : Dispatch.Outcome γ (μ × ModuleName) CommunicationError CallError}
    (ho : o = (m.call (sendThread γ x)).1) (h : o.returned.isOk) :
    ∃ g, m.moduleMaps.find x.dst = some (some g) ∧ o.invoked = [(g, (x.msg, x.src))] := by
  subst ho
  obtain ⟨g, hg⟩ := find_of_isOk h
  exact ⟨g, hg, by rw [call_sendThread_of_find hg]⟩

theorem isOk_of_receives {xs : List (Sending μ)} {ds : List (γ × μ × ModuleName)}
    (h : List.Forall₂ (Receives m) xs ds) :
    ∀ o ∈ (runCalls call m (xs.map (sendThread γ))).1, o.returned.isOk := by
  induction h with
  | nil => nofun
  | @cons x d xs ds hd _ ih =>
      rw [List.map_cons, runCalls, call_sendThread_of_find hd.1]
      intro o ho
      rcases List.mem_cons.mp ho with rfl | ho
      · rfl
      · exact ih o ho

/-- There is one thing to receive for a message. -/
theorem Receives.unique {d d' : γ × μ × ModuleName} (h : Receives m x d) (h' : Receives m x d') :
    d = d' := by
  have hg := h.1.symm.trans h'.1
  exact Prod.ext (Option.some.inj (Option.some.inj hg)) (h.2.trans h'.2.symm)

theorem Receives.rightUnique : Relator.RightUnique (Receives (μ := μ) m) :=
  fun _ _ _ => Receives.unique

/-- **Every message is handed over once.** Whatever the callers and the
threads do, up to the moment when an access to `module_maps_` that writes
meets another, the calls on the manager could have been made one after the
other. Those of threads, with the messages whose look-up has not come so
far, are the messages given to `send_message_async`, and every call that has
found its function calls it once. Unless the program has ended, the function
of a message was the one registered for its destination at the time of the
look-up; and when the destructor is through, every message has been handed
over. Nothing meets if all calls are those of threads and every destination
is registered. -/
theorem async_once (m : ModulesCommunicationManager γ) {as : List (AsyncAct γ μ)}
    {s : AsyncState γ μ}
    (hrun : (asyncMachine m).exec (asyncMachine m).init as = some s) :
    runCalls call m ((messagesThread γ μ).calls s.log) = (s.log.map Group.Entry.answer, s.obj) ∧
      (Group.jobs s.log ++ Group.waiting s.threads).Perm s.sent ∧
      (s.acted ++ Group.pending s.threads).Perm s.log ∧
      (s.phase ≠ .terminated → ∀ before e after x, s.log = before ++ e :: after → e ∈ s.acted →
        e.origin = .job x →
        ∃ g, (runCalls call m ((messagesThread γ μ).calls before)).2.moduleMaps.find x.dst
            = some (some g) ∧
          e.answer.invoked = [(g, (x.msg, x.src))]) ∧
      (s.phase = .destroyed → (Group.jobs s.acted).Perm s.sent) ∧
      ((∀ a ∈ as, ¬ a.IsDirect) → (∀ x ∈ s.sent, m.moduleMaps.Present x.dst) →
        s.phase ≠ .undefined) := by
  have hsound := Group.sound_of_run hrun
  refine ⟨hsound.answers, hsound.sent, hsound.acted, fun hp before e after x hlog he hx => ?_,
    hsound.acted_of_destroyed, fun has hpresent => ?_⟩
  · have hok : e.answer.returned.isOk := hsound.ok hp e he (by rw [hx]; rfl)
    have hanswer := hsound.answer_eq hlog
    rw [hx] at hanswer
    exact receives_of_isOk hanswer hok
  · refine ((Group.indirect_of_run hrun has).still fun x hx => ?_).2
    show (m.moduleMaps.find x.dst).isNone = false
    rw [Option.isNone_eq_false_iff]
    exact hpresent x hx

/-- Two messages for one module, looked up side by side; the function gets
the second first. -/
def overtaken : List (AsyncAct String Nat) :=
  [.direct (.add .dataAccess (some "store")), .enter 0, .leave 0, .act 0,
    sendMessageAsync _ 1 .controller .dataAccess, sendMessageAsync _ 2 .gui .dataAccess, .enter 1,
    .enter 2, .leave 1, .leave 2, .act 2, .destroy, .act 1, .finish 1, .finish 2, .joined]

theorem async_once_overtaken :
    ∃ s, (asyncMachine new).exec (asyncMachine new).init overtaken = some s ∧
      s.phase = .destroyed ∧
      invoked s = [("store", 2, .gui), ("store", 1, .controller)] ∧
      (Group.jobs s.acted).Perm s.sent :=
  ⟨_, rfl, rfl, rfl, (@async_once String Nat new overtaken _ rfl).2.2.2.2.1 rfl⟩

/-- A registration that meets a look-up. -/
example :
    ((asyncMachine new).exec (asyncMachine new).init
      [sendMessageAsync _ 1 .controller .dataAccess, .direct (.add .dataAccess (some "store")),
        .enter 1, .enter 0] : Option (AsyncState String Nat)).map Group.State.phase
      = some .undefined := rfl

/-- The thread of a message handed it over. -/
def Handed (m : ModulesCommunicationManager γ) (e : AsyncEntry γ μ) : Prop :=
  ∃ x g, e.origin = .job x ∧ m.moduleMaps.find x.dst = some (some g) ∧
    e.answer.invoked = [(g, (x.msg, x.src))]

/-- Sends that all return hand every message over, and change nothing. -/
theorem handed_of_isOk {log : List (AsyncEntry γ μ)} (hjob : ∀ e ∈ log, e.origin.isJob)
    (hok : ∀ e ∈ log, e.answer.returned.isOk)
    (h : (runCalls call m ((messagesThread γ μ).calls log)).1 = log.map Group.Entry.answer) :
    ∀ e ∈ log, Handed m e := by
  induction log with
  | nil => nofun
  | cons e es ih =>
      obtain ⟨t, r⟩ := e
      cases t with
      | direct c => exact absurd (hjob _ List.mem_cons_self) nofun
      | job x =>
          rw [Group.calls, List.map_cons, runCalls, List.map_cons] at h
          obtain ⟨hr, hrest⟩ := List.cons.inj h
          obtain ⟨g, hg, hinvoked⟩ := receives_of_isOk hr.symm (hok _ List.mem_cons_self)
          rw [show (m.call ((messagesThread γ μ).callOf (.job x))).2 = m from
            congrArg Prod.snd (call_sendThread_of_find hg)] at hrest
          intro d hd
          rcases List.mem_cons.mp hd with rfl | hd
          · exact ⟨x, g, rfl, hg, hinvoked⟩
          · exact ih (fun d hd => hjob d (List.mem_cons_of_mem _ hd))
              (fun d hd => hok d (List.mem_cons_of_mem _ hd)) hrest d hd

theorem receives_of_handed {es : List (AsyncEntry γ μ)} (h : ∀ e ∈ es, Handed m e) :
    List.Forall₂ (Receives m) (Group.jobs es) (es.flatMap fun e => e.answer.invoked) := by
  induction es with
  | nil => exact .nil
  | cons e es ih =>
      obtain ⟨x, g, hx, hg, hinvoked⟩ := h e List.mem_cons_self
      have hjob : e.job? = some x := by rw [Group.Entry.job?, hx]; rfl
      rw [Group.jobs, List.filterMap_cons_some hjob, List.flatMap_cons, hinvoked]
      exact .cons ⟨hg, rfl⟩ (ih fun d hd => h d (List.mem_cons_of_mem _ hd))

/-- What threads have handed over, in the order of their messages, when the
destructor of a manager that nobody else used is through. -/
theorem received_of_run {as : List (AsyncAct γ μ)} {s : AsyncState γ μ}
    (hrun : (asyncMachine m).exec (asyncMachine m).init as = some s)
    (has : ∀ a ∈ as, ¬ a.IsDirect) (hphase : s.phase = .destroyed) :
    List.Forall₂ (Receives m) (Group.jobs s.acted) (invoked s) := by
  have hindirect := Group.indirect_of_run hrun has
  have hsound := hindirect.sound
  have hlog := hindirect.log_perm_acted hphase
  refine receives_of_handed fun e he => ?_
  refine handed_of_isOk hindirect.log (fun d hd => ?_) (congrArg Prod.fst hsound.answers) e
    (hlog.symm.subset he)
  exact hsound.ok (by rw [hphase]; nofun) d (hlog.subset hd) (hindirect.log d hd)

/-- **Any order.** Messages sent asynchronously through a manager that nobody
else uses arrive, when the destructor is through, in one of the orders in
which they can be put at all, and each of these orders is one in which they
can arrive. -/
theorem async_any_order (m : ModulesCommunicationManager γ) (sent : List (Sending μ))
    (received : List (γ × μ × ModuleName)) :
    (∃ as s, (asyncMachine m).exec (asyncMachine m).init as = some s ∧
        (∀ a ∈ as, ¬ a.IsDirect) ∧ s.phase = .destroyed ∧ s.sent = sent ∧
        invoked s = received)
      ↔ ∃ xs : List (Sending μ), xs.Perm sent ∧ List.Forall₂ (Receives m) xs received := by
  constructor
  · rintro ⟨as, s, hrun, has, hphase, rfl, rfl⟩
    exact ⟨_, (Group.sound_of_run hrun).acted_of_destroyed hphase,
      received_of_run hrun has hphase⟩
  · rintro ⟨xs, hperm, hreceives⟩
    obtain ⟨as, s, hrun, has, hphase, hsent, hjobs⟩ :=
      Group.any_order (G := messagesThread γ μ) hperm (isOk_of_receives hreceives)
    refine ⟨as, s, hrun, has, hphase, hsent, ?_⟩
    have hreceived := received_of_run hrun has hphase
    rw [hjobs] at hreceived
    exact List.right_unique_forall₂' Receives.rightUnique hreceived hreceives

end ModulesCommunicationManager

end HpLib
