import HpLib.DataAccess.DataAccessModule
import HpLib.Lib.Machine
import Mathlib.Data.Fintype.Basic

/-!
# DataAccessModule: messages handled at the same time

A message sent by `send_message_async` is handled on a thread of its own, and
nothing in the module keeps two of them apart. The calls on `ofstream` and
`ifstream` are steps here: opening a file to write empties it, what is
streamed in reaches it piece by piece, each at the place where the one before
ended, and a reader takes what is there piece by piece to the end. Setting
the content of the message that asked is a step of its own, after the file is
closed or could not be opened.

As long as no file is written by one thread while another has it open, and no
message is handled by two threads at once, the threads could have handled
their messages one after the other, in the order of their last access to a
file (`concurrent_store`). Where two write the same file, it can end with
pieces of both; where two handle the same `ReadFileMessage`, they assign to
one string without a lock.
-/

namespace HpLib

open Lib

/-- `get_file_address` of either message. -/
def Message.getFileAddress : Message → FileAddress
  | .readFile m => m.fileAddress
  | .writeFile m => m.fileAddress

def Message.writes : Message → Bool
  | .readFile _ => false
  | .writeFile _ => true

namespace DataAccess

/-- How far a thread has come with the message it was given: the bytes that
are in the file and those still to come, those read so far, or what `read`
returned, on its way to `set_content`. -/
inductive Handling (P : Type) where
  | idle
  | writing (send : P × ModuleName) (fileAddress : FileAddress) (flushed rest : Bytes)
  | reading (send : P × ModuleName) (fileAddress : FileAddress) (got : Bytes)
  | returning (send : P × ModuleName) (content : Bytes)

/-- The file that a thread has open. -/
def Handling.address {P : Type} : Handling P → Option FileAddress
  | .idle | .returning .. => none
  | .writing _ a _ _ => some a
  | .reading _ a _ => some a

def Handling.writes {P : Type} : Handling P → Bool
  | .writing .. => true
  | .idle | .reading .. | .returning .. => false

/-- The message that a thread handles. -/
def Handling.message {P : Type} : Handling P → Option P
  | .idle => none
  | .writing send .. | .reading send .. | .returning send _ => some send.1

/-- The message whose content a thread is about to set. -/
def Handling.returns {P : Type} : Handling P → Option P
  | .returning send _ => some send.1
  | .idle | .writing .. | .reading .. => none

/-- `log` are the messages whose files are done with, in the order in which
that came about. -/
structure Handlers (ι P : Type) where
  world : World P
  threads : ι → Handling P
  log : List (P × ModuleName)

/-- `transfer` moves up to so many bytes between a file and its stream. -/
inductive HandlerAct (ι P : Type) where
  | start (t : ι) (send : P × ModuleName)
  | transfer (t : ι) (size : Nat)
  | close (t : ι)
  | store (t : ι)

/-- Bytes written at a position of a file, with zeros in between where it is
shorter. -/
def overwrite (file : Bytes) (position : Nat) (piece : Bytes) : Bytes :=
  (file ++ List.replicate (position - file.length) 0).take position ++ piece
    ++ file.drop (position + piece.length)

namespace Handlers

variable {ι P : Type} [DecidableEq ι] [DecidableEq P]

/-- `read_msg->set_content(content)`. -/
def setContent (s : Handlers ι P) (msg : P) (content : Bytes) : Handlers ι P :=
  match s.world.messages msg with
  | .readFile m =>
      let messages :=
        Function.update s.world.messages msg (.readFile { m with contentFile := content })
      { s with world := { s.world with messages := messages } }
  | .writeFile _ => s

def setFile (s : Handlers ι P) (a : FileAddress) (bytes : Bytes) : Handlers ι P :=
  { s with world := { s.world with files := s.world.files.assign a bytes } }

/-- What the file at an address holds. -/
def file (s : Handlers ι P) (a : FileAddress) : Bytes :=
  (s.world.files.find a).getD []

def setThread (s : Handlers ι P) (t : ι) (h : Handling P) : Handlers ι P :=
  { s with threads := Function.update s.threads t h }

/-- A thread is done with the file of its message, and goes on to `h`. -/
def logged (s : Handlers ι P) (t : ι) (send : P × ModuleName) (h : Handling P) : Handlers ι P :=
  { s with threads := Function.update s.threads t h, log := s.log ++ [send] }

/-- `myfile.open(file_address)`, or the constructor of the `ifstream`; where
that cannot open the file, `read` returns nothing. -/
def start (s : Handlers ι P) (t : ι) (send : P × ModuleName) : Option (Handlers ι P) :=
  match s.threads t with
  | .idle =>
      match s.world.messages send.1 with
      | .writeFile m =>
          some ((s.setFile m.fileAddress []).setThread t
            (.writing send m.fileAddress [] m.contentFile))
      | .readFile m =>
          match s.world.files.find m.fileAddress with
          | some _ => some (s.setThread t (.reading send m.fileAddress []))
          | none => some (s.logged t send (.returning send []))
  | .writing .. | .reading .. | .returning .. => none

/-- `myfile << content` on its way to the file, or the file on its way to
`getline`. -/
def transfer (s : Handlers ι P) (t : ι) (size : Nat) : Option (Handlers ι P) :=
  match s.threads t with
  | .idle | .returning .. => none
  | .writing send a flushed rest =>
      some ((s.setFile a (overwrite (s.file a) flushed.length (rest.take size))).setThread t
        (.writing send a (flushed ++ rest.take size) (rest.drop size)))
  | .reading send a got =>
      some (s.setThread t (.reading send a (got ++ ((s.file a).drop got.length).take size)))

/-- `myfile.close()` of a writer that has nothing left, and of a reader at
the end of the file. -/
def close (s : Handlers ι P) (t : ι) : Option (Handlers ι P) :=
  match s.threads t with
  | .idle | .returning .. => none
  | .writing send _ _ rest => if rest = [] then some (s.logged t send .idle) else none
  | .reading send a got =>
      if (s.file a).drop got.length = [] then
        some (s.logged t send (.returning send (FileManager.readLoop [] got)))
      else none

/-- `read_msg->set_content(content)`, and the message has been handled. -/
def store (s : Handlers ι P) (t : ι) : Option (Handlers ι P) :=
  match s.threads t with
  | .idle | .writing .. | .reading .. => none
  | .returning send content => some ((s.setContent send.1 content).setThread t .idle)

def step (s : Handlers ι P) : HandlerAct ι P → Option (Handlers ι P)
  | .start t send => s.start t send
  | .transfer t size => s.transfer t size
  | .close t => s.close t
  | .store t => s.store t

def machine (ι : Type) [DecidableEq ι] (world : World P) :
    Machine (Handlers ι P) (HandlerAct ι P) where
  init := ⟨world, fun _ => .idle, []⟩
  step := step

/-- A thread and a message that use one file only read it. -/
def ApartFrom (x : Handling P) (m : Message) : Prop :=
  x.address = some m.getFileAddress → x.writes = false ∧ m.writes = false

instance (x : Handling P) (m : Message) : Decidable (ApartFrom x m) :=
  inferInstanceAs (Decidable (_ → _))

/-- A file that is being written is open nowhere else, and a message that is
being handled is handled once. -/
def Apart (s : Handlers ι P) : HandlerAct ι P → Prop
  | .start _ send =>
      ∀ u, ApartFrom (s.threads u) (s.world.messages send.1) ∧
        (s.threads u).message ≠ some send.1
  | .transfer .. | .close _ | .store _ => True

instance [Fintype ι] (s : Handlers ι P) (act : HandlerAct ι P) : Decidable (Apart s act) :=
  match act with
  | .start _ send =>
      inferInstanceAs (Decidable (∀ u, ApartFrom (s.threads u) (s.world.messages send.1) ∧
        (s.threads u).message ≠ some send.1))
  | .transfer .. | .close _ | .store _ => .isTrue trivial

/-- The messages sent one after the other to a module of its own. -/
def oneByOne (world : World P) (sends : List (P × ModuleName)) : DataAccess P :=
  sends.foldl (fun d send => (d.sendMessage send.1 send.2).2) (initialised world)

/-! ## One message after the other -/

theorem ready_oneByOne (world : World P) (sends : List (P × ModuleName)) :
    (oneByOne world sends).Ready := by
  rw [oneByOne]
  generalize hd : initialised world = d
  have h : d.Ready := hd ▸ ready_initialised world
  clear hd
  induction sends generalizing d with
  | nil => exact h
  | cons send sends ih =>
      refine ih _ ?_
      show (d.sendMessage send.1 send.2).2.Ready
      rw [h.sendMessage]
      exact ⟨h.manager, rfl⟩

theorem oneByOne_append (world : World P) (sends : List (P × ModuleName)) (send : P × ModuleName) :
    (oneByOne world (sends ++ [send])).module.world
      = handled (oneByOne world sends).module.world send.1 := by
  rw [oneByOne, List.foldl_append]
  show ((oneByOne world sends).sendMessage send.1 send.2).2.module.world = _
  rw [(ready_oneByOne world sends).sendMessage]
  rfl

/-! ## What a thread holds on to -/

variable {s s' : Handlers ι P} {w w' : World P} {x : Handling P}

/-- What is true of the file and of the message of a thread. -/
def Held (w : World P) : Handling P → Prop
  | .idle => True
  | .writing send a flushed rest =>
      w.files.find a = some flushed ∧
        ∃ m, w.messages send.1 = .writeFile m ∧ m.fileAddress = a ∧ m.contentFile = flushed ++ rest
  | .reading send a got =>
      (∃ bytes, w.files.find a = some bytes ∧ got <+: bytes) ∧
        ∃ m, w.messages send.1 = .readFile m ∧ m.fileAddress = a
  | .returning send _ => ∃ m, w.messages send.1 = .readFile m

omit [DecidableEq P] in
/-- Who asks for a read goes on to do so. -/
theorem exists_readFile {p : P} {m : ReadFileMessage} (hm : w.messages p = .readFile m)
    (hasks : asks (w'.messages p) = asks (w.messages p)) :
    ∃ m', w'.messages p = .readFile m' ∧ m'.fileAddress = m.fileAddress := by
  rw [hm] at hasks
  cases hm' : w'.messages p with
  | writeFile m' =>
      rw [hm'] at hasks
      cases hasks
  | readFile m' =>
      rw [hm'] at hasks
      exact ⟨m', rfl, congrArg Message.getFileAddress hasks⟩

omit [DecidableEq P] in
/-- It stays true while nobody touches the file and messages only get their
contents set. -/
theorem Held.keep (h : Held w x)
    (hfile : ∀ a, x.address = some a → w'.files.find a = w.files.find a)
    (hasks : ∀ p, asks (w'.messages p) = asks (w.messages p)) : Held w' x := by
  cases x with
  | idle => trivial
  | writing send a flushed rest =>
      obtain ⟨hfind, m, hm, haddr, hcontent⟩ := h
      refine ⟨(hfile a rfl).trans hfind, m, ?_, haddr, hcontent⟩
      have hsame := hasks send.1
      rw [hm] at hsame
      cases hm' : w'.messages send.1 with
      | writeFile m' =>
          rw [hm'] at hsame
          exact hsame
      | readFile m' =>
          rw [hm'] at hsame
          cases hsame
  | reading send a got =>
      obtain ⟨⟨bytes, hfind, hgot⟩, m, hm, haddr⟩ := h
      obtain ⟨m', hm', haddr'⟩ := exists_readFile hm (hasks send.1)
      exact ⟨⟨bytes, (hfile a rfl).trans hfind, hgot⟩, m', hm', haddr'.trans haddr⟩
  | returning send content =>
      obtain ⟨m, hm⟩ := h
      obtain ⟨m', hm', -⟩ := exists_readFile hm (hasks send.1)
      exact ⟨m', hm'⟩

/-- A world after the content of a message was set. -/
def withContent (w : World P) (msg : P) (m : ReadFileMessage) (content : Bytes) : World P :=
  let messages := Function.update w.messages msg (.readFile { m with contentFile := content })
  { w with messages := messages }

omit [DecidableEq ι] in
theorem setContent_of_read {msg : P} {m : ReadFileMessage}
    (h : s.world.messages msg = .readFile m) (content : Bytes) :
    s.setContent msg content = { s with world := withContent s.world msg m content } := by
  rw [setContent, h]
  rfl

theorem handled_of_read {msg : P} {m : ReadFileMessage} (h : w.messages msg = .readFile m) :
    handled w msg = withContent w msg m (FileManager.read w.files m.fileAddress) := by
  rw [handled, h]
  rfl

theorem handled_of_write {msg : P} {m : WriteFileMessage} (h : w.messages msg = .writeFile m) :
    handled w msg = { w with files := FileManager.write w.files m.fileAddress m.contentFile } := by
  rw [handled, h]

/-! ## Steps -/

/-- The steps that can be taken. -/
inductive Taken (s : Handlers ι P) : HandlerAct ι P → Handlers ι P → Prop where
  | truncate {t send m} (ht : s.threads t = .idle) (hm : s.world.messages send.1 = .writeFile m) :
      Taken s (.start t send) ((s.setFile m.fileAddress []).setThread t
        (.writing send m.fileAddress [] m.contentFile))
  | openRead {t send m bytes} (ht : s.threads t = .idle)
      (hm : s.world.messages send.1 = .readFile m)
      (hfile : s.world.files.find m.fileAddress = some bytes) :
      Taken s (.start t send) (s.setThread t (.reading send m.fileAddress []))
  | absent {t send m} (ht : s.threads t = .idle) (hm : s.world.messages send.1 = .readFile m)
      (hfile : s.world.files.find m.fileAddress = none) :
      Taken s (.start t send) (s.logged t send (.returning send []))
  | put {t send a flushed rest size} (ht : s.threads t = .writing send a flushed rest) :
      Taken s (.transfer t size)
        ((s.setFile a (overwrite (s.file a) flushed.length (rest.take size))).setThread t
          (.writing send a (flushed ++ rest.take size) (rest.drop size)))
  | get {t send a got size} (ht : s.threads t = .reading send a got) :
      Taken s (.transfer t size)
        (s.setThread t (.reading send a (got ++ ((s.file a).drop got.length).take size)))
  | close {t send a flushed} (ht : s.threads t = .writing send a flushed []) :
      Taken s (.close t) (s.logged t send .idle)
  | eof {t send a got} (ht : s.threads t = .reading send a got)
      (hend : (s.file a).drop got.length = []) :
      Taken s (.close t) (s.logged t send (.returning send (FileManager.readLoop [] got)))
  | store {t send content} (ht : s.threads t = .returning send content) :
      Taken s (.store t) ((s.setContent send.1 content).setThread t .idle)

theorem taken {act : HandlerAct ι P} (hs : s.step act = some s') : Taken s act s' := by
  cases act with
  | start t send =>
      rw [step, start] at hs
      split at hs
      · rename_i ht
        split at hs
        · rename_i m hm
          cases hs
          exact .truncate ht hm
        · rename_i m hm
          split at hs <;> rename_i hfile <;> cases hs
          · exact .openRead ht hm hfile
          · exact .absent ht hm hfile
      · cases hs
      · cases hs
      · cases hs
  | transfer t size =>
      rw [step, transfer] at hs
      split at hs <;> rename_i ht <;> cases hs
      · exact .put ht
      · exact .get ht
  | close t =>
      rw [step, close] at hs
      split at hs <;> rename_i ht
      · cases hs
      · cases hs
      · split at hs <;> rename_i hrest <;> cases hs
        subst hrest
        exact .close ht
      · split at hs <;> rename_i hend <;> cases hs
        exact .eof ht hend
  | store t =>
      rw [step, store] at hs
      split at hs <;> rename_i ht <;> cases hs
      exact .store ht

/-- Nobody writes the file. -/
def Unwritten (threads : ι → Handling P) (a : FileAddress) : Prop :=
  ∀ t, (threads t).address = some a → (threads t).writes = false

/-- No content is on its way to the message. -/
def Settled (threads : ι → Handling P) (p : P) : Prop :=
  ∀ t, (threads t).returns ≠ some p

/-- Where the run stands: a message is as if those in the log had been sent
one by one, or it will be once its content is set, and so is every file that
nobody writes. -/
structure Serial (world : World P) (s : Handlers ι P) : Prop where
  messages : ∀ p, Settled s.threads p → s.world.messages p = (oneByOne world s.log).messages p
  returns : ∀ t send content, s.threads t = .returning send content →
    ∃ m, s.world.messages send.1 = .readFile m ∧
      (oneByOne world s.log).messages send.1 = .readFile { m with contentFile := content }
  files : ∀ a, Unwritten s.threads a →
    s.world.files.find a = (oneByOne world s.log).files.find a
  held : ∀ t, Held s.world (s.threads t)
  apart : ∀ t u a, t ≠ u → (s.threads t).address = some a → (s.threads u).address = some a →
    (s.threads t).writes = false
  once : ∀ t u p, t ≠ u → (s.threads t).message = some p → (s.threads u).message ≠ some p

theorem asks_withContent {msg : P} {m : ReadFileMessage} (h : w.messages msg = .readFile m)
    (content : Bytes) (p : P) :
    asks ((withContent w msg m content).messages p) = asks (w.messages p) := by
  by_cases hp : p = msg
  · subst hp
    simp only [withContent, Function.update_self, h, asks]
  · simp only [withContent, Function.update_of_ne hp]

theorem Serial.init (world : World P) : Serial world (machine ι world).init :=
  ⟨fun _ _ => rfl, nofun, fun _ _ => rfl, fun _ => trivial, nofun, nofun⟩

variable {world : World P} {threads : ι → Handling P} {t : ι} {y : Handling P} {a : FileAddress}

omit [DecidableEq P] in
/-- The other threads hold on to what they held. -/
theorem held_update (h : ∀ u, Held w (threads u)) (hy : Held w' y)
    (hfile : ∀ u, u ≠ t → ∀ a, (threads u).address = some a →
      w'.files.find a = w.files.find a)
    (hasks : ∀ p, asks (w'.messages p) = asks (w.messages p)) :
    ∀ u, Held w' (Function.update threads t y u) := by
  intro u
  by_cases hu : u = t
  · subst hu
    rw [Function.update_self]
    exact hy
  · rw [Function.update_of_ne hu]
    exact (h u).keep (hfile u hu) hasks

omit [DecidableEq P] in
theorem apart_update
    (h : ∀ t u a, t ≠ u → (threads t).address = some a → (threads u).address = some a →
      (threads t).writes = false)
    (hy : ∀ u a, u ≠ t → y.address = some a → (threads u).address = some a →
      y.writes = false ∧ (threads u).writes = false) :
    ∀ v u a, v ≠ u → (Function.update threads t y v).address = some a →
      (Function.update threads t y u).address = some a →
      (Function.update threads t y v).writes = false := by
  intro v u a hvu hv hu
  by_cases hvt : v = t
  · subst hvt
    rw [Function.update_self] at hv ⊢
    rw [Function.update_of_ne hvu.symm] at hu
    exact (hy u a hvu.symm hv hu).1
  · rw [Function.update_of_ne hvt] at hv ⊢
    by_cases hut : u = t
    · subst hut
      rw [Function.update_self] at hu
      exact (hy v a hvt hu hv).2
    · rw [Function.update_of_ne hut] at hu
      exact h v u a hvu hv hu

omit [DecidableEq P] in
theorem Unwritten.of_update (h : Unwritten (Function.update threads t y) a)
    (ht : (threads t).address = some a → (threads t).writes = false) : Unwritten threads a := by
  intro u hu
  by_cases hut : u = t
  · subst hut
    exact ht hu
  · have := h u
    rw [Function.update_of_ne hut] at this
    exact this hu

omit [DecidableEq P] in
theorem Unwritten.ne (h : Unwritten (Function.update threads t y) a) {b : FileAddress}
    (hy : y.address = some b) (hwrites : y.writes = true) : a ≠ b := by
  rintro rfl
  have := h t
  rw [Function.update_self, hwrites] at this
  cases this hy

omit [DecidableEq P] in
theorem once_update
    (h : ∀ t u p, t ≠ u → (threads t).message = some p → (threads u).message ≠ some p)
    (hy : ∀ u p, u ≠ t → y.message = some p → (threads u).message ≠ some p) :
    ∀ v u p, v ≠ u → (Function.update threads t y v).message = some p →
      (Function.update threads t y u).message ≠ some p := by
  intro v u p hvu hv
  by_cases hvt : v = t
  · subst hvt
    rw [Function.update_self] at hv
    rw [Function.update_of_ne hvu.symm]
    exact hy u p hvu.symm hv
  · rw [Function.update_of_ne hvt] at hv
    by_cases hut : u = t
    · subst hut
      rw [Function.update_self]
      exact fun hu => hy v p hvt hu hv
    · rw [Function.update_of_ne hut]
      exact h v u p hvu hv

/-- A thread that goes on with its message still has it to itself. -/
theorem Serial.once_next (h : Serial world s)
    (hy : ∀ p, y.message = some p → (s.threads t).message = some p) :
    ∀ v u p, v ≠ u → (Function.update s.threads t y v).message = some p →
      (Function.update s.threads t y u).message ≠ some p :=
  once_update h.once fun u p hu hp => h.once t u p hu.symm (hy p hp)

omit [DecidableEq P] in
theorem Settled.of_update {p : P} (h : Settled (Function.update threads t y) p)
    (ht : (threads t).returns = none) : Settled threads p := by
  intro u hu
  by_cases hut : u = t
  · subst hut
    rw [ht] at hu
    cases hu
  · have := h u
    rw [Function.update_of_ne hut] at this
    exact this hu

omit [DecidableEq P] in
theorem message_of_returns {p : P} (h : x.returns = some p) : x.message = some p := by
  cases x with
  | returning send content => exact h
  | idle => cases h
  | writing send a flushed rest => cases h
  | reading send a got => cases h

/-- Nothing is on its way to a message that a thread has just begun to
handle. -/
theorem Serial.settled (h : Serial world s) {p : P} (ht : (s.threads t).message = some p)
    (hreturns : (s.threads t).returns = none) : Settled s.threads p := by
  intro u hu
  by_cases hut : u = t
  · rw [hut, hreturns] at hu
    cases hu
  · exact h.once t u p (Ne.symm hut) ht (message_of_returns hu)

/-- What is on its way is not affected by a thread that returns nothing
before or after its step. -/
theorem returns_update {log : List (P × ModuleName)} {w' : World P}
    (h : ∀ u send content, s.threads u = .returning send content →
      ∃ m, s.world.messages send.1 = .readFile m ∧
        (oneByOne world s.log).messages send.1 = .readFile { m with contentFile := content })
    (hother : ∀ u send content, u ≠ t → s.threads u = .returning send content →
      w'.messages send.1 = s.world.messages send.1 ∧
        (oneByOne world log).messages send.1 = (oneByOne world s.log).messages send.1)
    (hy : ∀ send content, y = .returning send content →
      ∃ m, w'.messages send.1 = .readFile m ∧
        (oneByOne world log).messages send.1 = .readFile { m with contentFile := content }) :
    ∀ u send content, Function.update s.threads t y u = .returning send content →
      ∃ m, w'.messages send.1 = .readFile m ∧
        (oneByOne world log).messages send.1 = .readFile { m with contentFile := content } := by
  intro u send content hu
  by_cases hut : u = t
  · subst hut
    rw [Function.update_self] at hu
    exact hy send content hu
  · rw [Function.update_of_ne hut] at hu
    obtain ⟨hw, hlog⟩ := hother u send content hut hu
    rw [hw, hlog]
    exact h u send content hu

/-- A thread that begins to write has the file to itself. -/
theorem Serial.truncate (h : Serial world s) {send : P × ModuleName} {m : WriteFileMessage}
    (ht : s.threads t = .idle) (hm : s.world.messages send.1 = .writeFile m)
    (hg : Apart s (.start t send)) :
    Serial world ((s.setFile m.fileAddress []).setThread t
      (.writing send m.fileAddress [] m.contentFile)) := by
  have hfree : ∀ u, (s.threads u).address ≠ some m.fileAddress := by
    intro u hu
    have := ((hg u).1 (by rw [hm]; exact hu)).2
    rw [hm] at this
    cases this
  refine ⟨fun p hp => h.messages p (Settled.of_update hp (by rw [ht]; rfl)),
    returns_update h.returns (fun _ _ _ _ _ => ⟨rfl, rfl⟩) nofun, fun a ha => ?_, ?_, ?_, ?_⟩
  · have hne : a ≠ m.fileAddress := Unwritten.ne ha rfl rfl
    refine (Table.find_assign_of_ne _ _ hne).trans (h.files a (Unwritten.of_update ha ?_))
    rw [ht]
    exact fun _ => rfl
  · refine held_update h.held ⟨Table.find_assign_self .., m, hm, rfl, rfl⟩ ?_ fun _ => rfl
    intro u _ a ha
    refine Table.find_assign_of_ne _ _ ?_
    rintro rfl
    exact hfree u ha
  · refine apart_update h.apart fun u a _ hy hu => ?_
    cases hy
    exact absurd hu (hfree u)
  · refine once_update h.once fun u p _ hy => ?_
    cases hy
    exact (hg u).2

theorem Serial.openRead (h : Serial world s) {send : P × ModuleName} {m : ReadFileMessage}
    {bytes : Bytes} (ht : s.threads t = .idle) (hm : s.world.messages send.1 = .readFile m)
    (hfile : s.world.files.find m.fileAddress = some bytes) (hg : Apart s (.start t send)) :
    Serial world (s.setThread t (.reading send m.fileAddress [])) := by
  refine ⟨fun p hp => h.messages p (Settled.of_update hp (by rw [ht]; rfl)),
    returns_update h.returns (fun _ _ _ _ _ => ⟨rfl, rfl⟩) nofun,
    fun a ha => h.files a (Unwritten.of_update ha ?_), ?_, ?_, ?_⟩
  · rw [ht]
    exact fun _ => rfl
  · exact held_update h.held ⟨⟨bytes, hfile, List.nil_prefix⟩, m, hm, rfl⟩ (fun _ _ _ _ => rfl)
      fun _ => rfl
  · refine apart_update h.apart fun u a _ hy hu => ⟨rfl, ?_⟩
    cases hy
    exact ((hg u).1 (by rw [hm]; exact hu)).1
  · refine once_update h.once fun u p _ hy => ?_
    cases hy
    exact (hg u).2

/-- A piece reaches the file. -/
theorem Serial.put (h : Serial world s) {send : P × ModuleName} {flushed rest : Bytes} {size : Nat}
    (ht : s.threads t = .writing send a flushed rest) :
    Serial world ((s.setFile a (overwrite (s.file a) flushed.length (rest.take size))).setThread t
      (.writing send a (flushed ++ rest.take size) (rest.drop size))) := by
  have hheld := h.held t
  rw [ht] at hheld
  obtain ⟨hfind, m, hm, haddr, hcontent⟩ := hheld
  have hfile : overwrite (s.file a) flushed.length (rest.take size)
      = flushed ++ rest.take size := by
    simp [overwrite, file, hfind]
  have hother : ∀ u, u ≠ t → (s.threads u).address ≠ some a := by
    intro u hu hua
    have := h.apart t u a hu.symm (by rw [ht]; rfl) hua
    rw [ht] at this
    cases this
  rw [hfile]
  refine ⟨fun p hp => h.messages p (Settled.of_update hp (by rw [ht]; rfl)),
    returns_update h.returns (fun _ _ _ _ _ => ⟨rfl, rfl⟩) nofun, fun b hb => ?_, ?_, ?_,
    h.once_next fun p hp => by rw [ht]; exact hp⟩
  · have hne : b ≠ a := Unwritten.ne hb rfl rfl
    refine (Table.find_assign_of_ne _ _ hne).trans (h.files b (Unwritten.of_update hb ?_))
    rw [ht]
    exact fun haddr => absurd (Option.some.inj haddr).symm hne
  · refine held_update h.held ⟨Table.find_assign_self .., m, hm, haddr, ?_⟩ ?_ fun _ => rfl
    · rw [hcontent, List.append_assoc, List.take_append_drop]
    · intro u hu b hb
      refine Table.find_assign_of_ne _ _ ?_
      rintro rfl
      exact hother u hu hb
  · refine apart_update h.apart fun u b hu hy hub => ?_
    cases hy
    exact absurd hub (hother u hu)

/-- A piece is read. -/
theorem Serial.get (h : Serial world s) {send : P × ModuleName} {got : Bytes} {size : Nat}
    (ht : s.threads t = .reading send a got) :
    Serial world
      (s.setThread t (.reading send a (got ++ ((s.file a).drop got.length).take size))) := by
  have hheld := h.held t
  rw [ht] at hheld
  obtain ⟨⟨bytes, hfind, rest, rfl⟩, m, hm, haddr⟩ := hheld
  refine ⟨fun p hp => h.messages p (Settled.of_update hp (by rw [ht]; rfl)),
    returns_update h.returns (fun _ _ _ _ _ => ⟨rfl, rfl⟩) nofun,
    fun b hb => h.files b (Unwritten.of_update hb ?_), ?_, ?_,
    h.once_next fun p hp => by rw [ht]; exact hp⟩
  · rw [ht]
    exact fun _ => rfl
  · refine held_update h.held ⟨⟨_, hfind, ?_⟩, m, hm, haddr⟩ (fun _ _ _ _ => rfl) fun _ => rfl
    rw [file, hfind, Option.getD_some, List.drop_left, List.prefix_append_right_inj]
    exact List.take_prefix ..
  · refine apart_update h.apart fun u b hu hy hub => ⟨rfl, ?_⟩
    cases hy
    exact h.apart u t a hu hub (by rw [ht]; rfl)

/-- A file is written, and nobody else has it open. -/
theorem Serial.close (h : Serial world s) {send : P × ModuleName} {flushed : Bytes}
    (ht : s.threads t = .writing send a flushed []) : Serial world (s.logged t send .idle) := by
  have hheld := h.held t
  rw [ht] at hheld
  obtain ⟨hfind, m, hm, haddr, hcontent⟩ := hheld
  have hm' : (oneByOne world s.log).module.world.messages send.1 = .writeFile m := by
    rw [← hm]
    exact (h.messages send.1 (h.settled (t := t) (by rw [ht]; rfl) (by rw [ht]; rfl))).symm
  have hworld : (oneByOne world (s.log ++ [send])).module.world
      = ⟨FileManager.write (oneByOne world s.log).files a flushed,
        (oneByOne world s.log).messages⟩ := by
    rw [oneByOne_append, handled_of_write hm', haddr, hcontent, List.append_nil]
  have hmessages : (oneByOne world (s.log ++ [send])).messages
      = (oneByOne world s.log).messages := by
    show (oneByOne world (s.log ++ [send])).module.world.messages = _
    rw [hworld]
  refine ⟨fun p hp => ?_, returns_update h.returns (fun _ _ _ _ _ => ⟨rfl, ?_⟩) nofun,
    fun b hb => ?_, ?_, ?_, h.once_next nofun⟩
  · exact (h.messages p (Settled.of_update hp (by rw [ht]; rfl))).trans
      (congrFun hmessages p).symm
  · exact congrFun hmessages _
  · show _ = (oneByOne world (s.log ++ [send])).module.world.files.find b
    rw [hworld]
    by_cases hne : b = a
    · subst hne
      exact hfind.trans (FileManager.find_write_self ..).symm
    · refine (h.files b (Unwritten.of_update hb ?_)).trans
        (FileManager.find_write_of_ne _ _ hne).symm
      rw [ht]
      exact fun haddr => absurd (Option.some.inj haddr).symm hne
  · exact held_update h.held trivial (fun _ _ _ _ => rfl) fun _ => rfl
  · exact apart_update h.apart fun u b hu hy => by cases hy

/-- A thread comes back with what a read of the file gives. -/
theorem Serial.read (h : Serial world s) {send : P × ModuleName} {m : ReadFileMessage}
    (hm : s.world.messages send.1 = .readFile m) {content : Bytes}
    (hunwritten : Unwritten s.threads m.fileAddress)
    (hcontent : content = FileManager.read s.world.files m.fileAddress)
    (hreads : (s.threads t).writes = false) (hreturns : (s.threads t).returns = none)
    (honce : ∀ u, u ≠ t → (s.threads u).message ≠ some send.1) :
    Serial world (s.logged t send (.returning send content)) := by
  have hsettled : Settled s.threads send.1 := by
    intro u hu
    by_cases hut : u = t
    · rw [hut, hreturns] at hu
      cases hu
    · exact honce u hut (message_of_returns hu)
  have hm' : (oneByOne world s.log).module.world.messages send.1 = .readFile m := by
    rw [← hm]
    exact (h.messages send.1 hsettled).symm
  have hread : content
      = FileManager.read (oneByOne world s.log).module.world.files m.fileAddress := by
    rw [hcontent, FileManager.read, FileManager.read, h.files _ hunwritten]
  have hworld : (oneByOne world (s.log ++ [send])).module.world
      = withContent (oneByOne world s.log).module.world send.1 m content := by
    rw [oneByOne_append, handled_of_read hm', ← hread]
  have hmessages : ∀ p, p ≠ send.1 → (oneByOne world (s.log ++ [send])).messages p
      = (oneByOne world s.log).messages p := by
    intro p hp
    show (oneByOne world (s.log ++ [send])).module.world.messages p = _
    rw [hworld]
    exact Function.update_of_ne hp ..
  refine ⟨fun p hp => ?_, returns_update h.returns (fun u other _ hu hother => ⟨rfl, ?_⟩) ?_,
    fun b hb => ?_, ?_, ?_, once_update h.once fun u p hu hy => ?_⟩
  · have hne : p ≠ send.1 := by
      rintro rfl
      refine hp t ?_
      show (Function.update s.threads t (.returning send content) t).returns = _
      rw [Function.update_self]
      rfl
    exact (h.messages p (Settled.of_update hp hreturns)).trans (hmessages p hne).symm
  · refine hmessages _ fun heq => honce u hu ?_
    rw [hother, ← heq]
    rfl
  · rintro _ _ ⟨⟩
    refine ⟨m, hm, ?_⟩
    show (oneByOne world (s.log ++ [send])).module.world.messages send.1 = _
    rw [hworld]
    exact Function.update_self ..
  · show _ = (oneByOne world (s.log ++ [send])).module.world.files.find b
    rw [hworld]
    exact h.files b (Unwritten.of_update hb fun _ => hreads)
  · exact held_update h.held ⟨m, hm⟩ (fun _ _ _ _ => rfl) fun _ => rfl
  · exact apart_update h.apart fun u b hu hy => by cases hy
  · cases hy
    exact honce u hu

/-- The content reaches the message. -/
theorem Serial.store (h : Serial world s) {send : P × ModuleName} {content : Bytes}
    (ht : s.threads t = .returning send content) :
    Serial world ((s.setContent send.1 content).setThread t .idle) := by
  obtain ⟨m, hm, hlog⟩ := h.returns t send content ht
  have honce : ∀ u, u ≠ t → (s.threads u).message ≠ some send.1 := fun u hu =>
    h.once t u send.1 hu.symm (by rw [ht]; rfl)
  rw [setContent_of_read hm]
  refine ⟨fun p hp => ?_, returns_update (s := s) h.returns
      (fun u other _ hu hother => ⟨?_, rfl⟩) nofun,
    fun b hb => h.files b (Unwritten.of_update hb fun _ => by rw [ht]; rfl), ?_, ?_,
    h.once_next nofun⟩
  · by_cases hps : p = send.1
    · subst hps
      exact (Function.update_self ..).trans hlog.symm
    · refine (Function.update_of_ne hps ..).trans (h.messages p fun u hu => ?_)
      by_cases hut : u = t
      · rw [hut, ht] at hu
        exact hps (Option.some.inj hu).symm
      · have hpu : (Function.update s.threads t .idle u).returns ≠ some p := hp u
        rw [Function.update_of_ne hut] at hpu
        exact hpu hu
  · refine Function.update_of_ne (fun heq => honce u hu ?_) ..
    rw [hother, ← heq]
    rfl
  · exact held_update h.held trivial (fun _ _ _ _ => rfl) (asks_withContent hm content)
  · exact apart_update h.apart fun u b hu hy => by cases hy

/-- **One step.** -/
theorem Serial.step (h : Serial world s) {act : HandlerAct ι P} (hg : Apart s act)
    (hs : s.step act = some s') : Serial world s' := by
  cases taken hs with
  | truncate ht hm => exact h.truncate ht hm hg
  | openRead ht hm hfile => exact h.openRead ht hm hfile hg
  | @absent t send m ht hm hfile =>
      refine h.read hm (fun u hu => ?_) ?_ (by rw [ht]; rfl) (by rw [ht]; rfl) fun u _ => (hg u).2
      · exact ((hg u).1 (by rw [hm]; exact hu)).1
      · rw [FileManager.read, hfile]
  | put ht => exact h.put ht
  | get ht => exact h.get ht
  | close ht => exact h.close ht
  | @eof t send a got ht hend =>
      have hheld := h.held t
      rw [ht] at hheld
      obtain ⟨⟨bytes, hfind, rest, rfl⟩, m, hm, rfl⟩ := hheld
      have hrest : rest = [] := by
        rw [file, hfind, Option.getD_some, List.drop_left] at hend
        exact hend
      subst hrest
      refine h.read hm (fun u hu => ?_) ?_ (by rw [ht]; rfl) (by rw [ht]; rfl) fun u hu => ?_
      · by_cases hut : u = t
        · rw [hut, ht]
          rfl
        · exact h.apart u t _ hut hu (by rw [ht]; rfl)
      · rw [FileManager.read, hfind, List.append_nil]
      · exact h.once t u send.1 hu.symm (by rw [ht]; rfl)
  | store ht => exact h.store ht

/-- **The threads could have taken turns.** As long as a thread only opens a
file to write it while no other has it open, and to read it while none writes
it, and no two handle one message at the same time, every message to which no
content is on its way reads as if the messages whose files are done with had
been sent one after the other, in the order in which that came about, and so
does every file that nobody is writing. When all threads are done the store
is the one that this sequence of calls leaves. -/
theorem concurrent_store (ι : Type) [DecidableEq ι] (world : World P) {as : List (HandlerAct ι P)}
    {s : Handlers ι P} (hrun : (machine ι world).exec (machine ι world).init as = some s)
    (hapart : (machine ι world).Guarded Apart (machine ι world).init as) :
    (∀ p, Settled s.threads p → s.world.messages p = (oneByOne world s.log).messages p) ∧
      (∀ a, Unwritten s.threads a →
        s.world.files.find a = (oneByOne world s.log).files.find a) ∧
      ((∀ t, s.threads t = .idle) → s.world = (oneByOne world s.log).module.world) := by
  have hstep : ∀ t act t', Serial world t → Apart t act → (machine ι world).step t act = some t' →
      Serial world t' := fun _ _ _ h hg hs => h.step hg hs
  have hserial := Machine.inv_of_guarded hstep (Serial.init world) hrun hapart
  refine ⟨hserial.messages, hserial.files, fun hidle => ?_⟩
  have hfiles : s.world.files = (oneByOne world s.log).module.world.files := by
    ext1
    funext a
    exact hserial.files a fun t _ => by rw [hidle t]; rfl
  have hmessages : s.world.messages = (oneByOne world s.log).module.world.messages := by
    funext p
    exact hserial.messages p fun t => by rw [hidle t]; nofun
  calc s.world = ⟨s.world.files, s.world.messages⟩ := rfl
    _ = (oneByOne world s.log).module.world := by rw [hfiles, hmessages]

/-- Letters for two files, and a read of the second. -/
def letters : Fin 3 → Message
  | 0 => .writeFile { fileAddress := [47, 97], contentFile := [120, 121], id := 1 }
  | 1 => .writeFile { fileAddress := [47, 98], contentFile := [122], id := 2 }
  | 2 => .readFile { fileAddress := [47, 98], contentFile := [119], id := 3 }

/-- One thread finds no file to read and comes to an end last; the other
writes that file, and the second, in the meantime. -/
def side : List (HandlerAct Bool (Fin 3)) :=
  [.start true (2, .controller), .start false (1, .gui), .transfer false 8, .close false,
    .start false (0, .gui), .transfer false 1, .store true, .transfer false 8, .close false]

theorem concurrent_store_side :
    ∃ s, (machine Bool ⟨.empty, letters⟩).exec (machine Bool ⟨.empty, letters⟩).init side = some s ∧
      (machine Bool ⟨.empty, letters⟩).Guarded Apart (machine Bool ⟨.empty, letters⟩).init side ∧
      s.log = [(2, .controller), (1, .gui), (0, .gui)] ∧
      s.world = (oneByOne ⟨.empty, letters⟩ s.log).module.world := by
  have hapart : (machine Bool ⟨.empty, letters⟩).Guarded Apart
      (machine Bool ⟨.empty, letters⟩).init side := by decide
  refine ⟨_, rfl, hapart, rfl, (concurrent_store Bool ⟨.empty, letters⟩ rfl hapart).2.2 ?_⟩
  intro t
  cases t <;> rfl

/-- Two messages that write one file. -/
def sameFile : Bool → Message
  | true => .writeFile { fileAddress := [47, 97], contentFile := [97, 97, 97, 97], id := 1 }
  | false => .writeFile { fileAddress := [47, 97], contentFile := [98, 98], id := 2 }

/-- Neither content is in the file when both are through. -/
example : ∃ s, (machine Bool ⟨.empty, sameFile⟩).exec (machine Bool ⟨.empty, sameFile⟩).init
      [.start true (true, .gui), .start false (false, .gui), .transfer true 4, .transfer false 2,
        .close true, .close false] = some s ∧
    s.world.files.find [47, 97] = some [98, 98, 97, 97] :=
  ⟨_, rfl, rfl⟩

end Handlers

end DataAccess

end HpLib
