import HpLib.DataAccess.FileManager
import HpLib.DataAccess.FSManager

/-!
# DataAccessModule

A message that is sent to the module passes three dispatches by key: the
communication manager finds `message_received` under the module's name, that
passes the types below `DataBase` on to the `FSManager`, and there the type
of the message finds a function of the file manager.

Messages are objects behind shared pointers `P`; reading a file sets the
content of the message that asked.
-/

namespace HpLib

open Lib

/-- `messages/read_file.h`. -/
structure ReadFileMessage where
  fileAddress : FileAddress
  contentFile : Bytes
  id : Int32
  deriving Repr, DecidableEq

/-- `messages/write_file.h`. -/
structure WriteFileMessage where
  fileAddress : FileAddress
  contentFile : Bytes
  id : Int32
  deriving Repr, DecidableEq

/-- The messages that this module is sent. -/
inductive Message where
  | readFile (m : ReadFileMessage)
  | writeFile (m : WriteFileMessage)
  deriving Repr, DecidableEq

def Message.getType : Message → MessageType
  | .readFile _ => .readFile
  | .writeFile _ => .writeFile

def Message.getContent : Message → Bytes
  | .readFile m => m.contentFile
  | .writeFile m => m.contentFile

/-- The file system and what the message pointers point to. -/
structure World (P : Type) where
  files : Files
  messages : P → Message

variable {P : Type} [DecidableEq P]

namespace FileManager

/-- A message that is no `WriteFileMessage` is cast to a null pointer. -/
def writeFile (msg : P) (w : World P) : Except CallError Unit × World P :=
  match w.messages msg with
  | .writeFile m => (.ok (), { w with files := write w.files m.fileAddress m.contentFile })
  | .readFile _ => (.error .nullDeref, w)

def readFile (msg : P) (w : World P) : Except CallError Unit × World P :=
  match w.messages msg with
  | .readFile m =>
      let content := read w.files m.fileAddress
      let messages := Function.update w.messages msg (.readFile { m with contentFile := content })
      (.ok (), { w with messages := messages })
  | .writeFile _ => (.error .nullDeref, w)

end FileManager

/-- What the functions in the map of this module's `FSManager` do. -/
def FSCallback.body : FSCallback Empty → P → World P → Except CallError Unit × World P
  | .readFile => FileManager.readFile
  | .writeFile => FileManager.writeFile

/-- The module and the world that its functions act on. -/
structure DataAccessModule (P : Type) where
  fsManager : FSManager Empty
  world : World P

/-- `std::bind` of a member function of the module. -/
inductive ModuleCallback where
  | messageReceived
  deriving Repr, DecidableEq

namespace DataAccessModule

def new (world : World P) : DataAccessModule P :=
  { fsManager := .new, world := world }

/-- `message_received`; the messages for a database and for logging are only
printed. -/
def messageReceived (m : DataAccessModule P) (message : P) :
    Except CallError Unit × DataAccessModule P :=
  if (m.world.messages message).getType < .dataBase then
    let ((r, world), fsManager) := m.fsManager.messageHandler
      (fun msg => (m.world.messages msg).getType) FSCallback.body message m.world
    (r, { fsManager := fsManager, world := world })
  else (.ok (), m)

end DataAccessModule

def ModuleCallback.body : ModuleCallback → P × ModuleName → DataAccessModule P →
    Except CallError Unit × DataAccessModule P
  | .messageReceived, (message, _), m => m.messageReceived message

/-- A communication manager and a module that shares it. -/
structure DataAccess (P : Type) where
  manager : ModulesCommunicationManager ModuleCallback
  module : DataAccessModule P

namespace DataAccess

/-- A manager of its own, and the module after its `initialize`. -/
def initialised (world : World P) : DataAccess P :=
  { manager := (ModulesCommunicationManager.new.addConnection (some .messageReceived)
      .dataAccess).2,
    module := .new world }

/-- `send_message(msg, src, ModuleName::DataAccess)`. -/
def sendMessage (s : DataAccess P) (msg : P) (src : ModuleName) :
    Except CallError CommunicationError × DataAccess P :=
  let ((r, m), manager) :=
    s.manager.sendMessage ModuleCallback.body msg src .dataAccess s.module
  (r, { manager := manager, module := m })

/-- What the messages in the pointers say, and what the files hold. -/
abbrev messages (s : DataAccess P) : P → Message := s.module.world.messages
abbrev files (s : DataAccess P) : Files := s.module.world.files

/-- The content of the latest write to every address, after a message. -/
def latest (written : Files) : Message → Files
  | .writeFile m => written.assign m.fileAddress m.contentFile
  | .readFile _ => written

/-- What sending `msg` has to do when `written` are the latest writes. -/
def Stored (written : Files) (s s' : DataAccess P) (msg : P) : Prop :=
  match s.messages msg with
  | .readFile m =>
      (∀ content, written.find m.fileAddress = some content →
        (s'.messages msg).getContent = content) ∧ s'.files = s.files
  | .writeFile m =>
      ∀ a, a ≠ m.fileAddress → FileManager.read s'.files a = FileManager.read s.files a

/-- Every message is handled, reads see the latest write, writes disturb no
other address and reads change no file. -/
def Faithful : DataAccess P → Files → List (P × ModuleName) → Prop
  | _, _, [] => True
  | s, written, (msg, src) :: sends =>
      (s.sendMessage msg src).1 = .ok .ok ∧
      Stored written s (s.sendMessage msg src).2 msg ∧
      Faithful (s.sendMessage msg src).2 (latest written (s.messages msg)) sends

/-- Whenever an address that was written is read, the latest content written
there is empty or ends in a newline. `messages` is what the pointers point
to at first. -/
def LinesEnd (messages : P → Message) : Files → List (P × ModuleName) → Prop
  | _, [] => True
  | written, (msg, _) :: sends =>
      (match messages msg with
        | .readFile m =>
            ∀ content, written.find m.fileAddress = some content → FileManager.EndsLine content
        | .writeFile _ => True) ∧
      LinesEnd messages (latest written (messages msg)) sends

/-! ## One message -/

/-- The world after a message: the file is written, or the message has got
what was read. -/
def handled (w : World P) (msg : P) : World P :=
  match w.messages msg with
  | .readFile m =>
      let content := FileManager.read w.files m.fileAddress
      let messages := Function.update w.messages msg (.readFile { m with contentFile := content })
      { w with messages := messages }
  | .writeFile m => { w with files := FileManager.write w.files m.fileAddress m.contentFile }

/-- All three maps hold what was registered at the start. -/
structure Ready (s : DataAccess P) : Prop where
  manager : s.manager.moduleMaps.find .dataAccess = some (some .messageReceived)
  fsManager : s.module.fsManager = .new

omit [DecidableEq P] in
theorem ready_initialised (world : World P) : (initialised world).Ready where
  manager := Table.find_assign_self ..
  fsManager := rfl

theorem find_readFile :
    (FSManager.new : FSManager Empty).messagesFuncMap.find .readFile = some (some .readFile) :=
  rfl

theorem find_writeFile :
    (FSManager.new : FSManager Empty).messagesFuncMap.find .writeFile = some (some .writeFile) :=
  rfl

theorem getType_lt_dataBase (m : Message) : m.getType < .dataBase := by
  cases m with
  | readFile m =>
      show MessageType.readFile < MessageType.dataBase
      decide
  | writeFile m =>
      show MessageType.writeFile < MessageType.dataBase
      decide

/-- The module passes both kinds of messages to the function they are for. -/
theorem messageReceived_new (w : World P) (msg : P) :
    (DataAccessModule.new w).messageReceived msg = (.ok (), .new (handled w msg)) := by
  rw [DataAccessModule.messageReceived, if_pos (getType_lt_dataBase _)]
  simp only [DataAccessModule.new, FSManager.messageHandler]
  cases hmsg : w.messages msg with
  | readFile m =>
      simp only [Message.getType, Table.subscript_of_some find_readFile, callFunction,
        FSCallback.body, FileManager.readFile, handled, hmsg]
  | writeFile m =>
      simp only [Message.getType, Table.subscript_of_some find_writeFile, callFunction,
        FSCallback.body, FileManager.writeFile, handled, hmsg]

theorem Ready.sendMessage {s : DataAccess P} (h : s.Ready) (msg : P) (src : ModuleName) :
    s.sendMessage msg src = (.ok .ok, { s with module := .new (handled s.module.world msg) }) := by
  obtain ⟨manager, fsManager, w⟩ := s
  obtain ⟨hmanager, rfl⟩ := h
  have hcall : callFunction CallError.badFunctionCall ModuleCallback.body
      (some .messageReceived) (msg, src) ⟨.new, w⟩ = (.ok (), .new (handled w msg)) :=
    messageReceived_new w msg
  simp only [DataAccess.sendMessage, ModulesCommunicationManager.sendMessage,
    Table.subscript_of_some hmanager, hcall]
  rfl

/-! ## Sequences of messages -/

/-- What a message asks for; reading changes nothing of it. -/
def asks : Message → Message
  | .readFile m => .readFile { m with contentFile := [] }
  | .writeFile m => .writeFile m

theorem asks_handled (w : World P) (msg p : P) :
    asks ((handled w msg).messages p) = asks (w.messages p) := by
  rw [handled]
  cases hmsg : w.messages msg with
  | writeFile m => rfl
  | readFile m =>
      by_cases hp : p = msg
      · subst hp
        simp only [Function.update_self, hmsg, asks]
      · simp only [Function.update_of_ne hp]

/-- Where the run stands: the maps are as they were, the messages ask what
they asked at first, and the files hold the latest writes. -/
structure Tracks (messages : P → Message) (written : Files) (s : DataAccess P) : Prop where
  ready : s.Ready
  asks : ∀ p, DataAccess.asks (s.messages p) = DataAccess.asks (messages p)
  holds : ∀ a content, written.find a = some content → s.files.find a = some content

theorem latest_of_asks {written : Files} {m m' : Message}
    (h : DataAccess.asks m = DataAccess.asks m') : latest written m = latest written m' := by
  cases m <;> cases m' <;> simp only [DataAccess.asks, Message.readFile.injEq,
    Message.writeFile.injEq, reduceCtorEq] at h
  · rfl
  · rw [h]

variable {messages : P → Message} {written : Files} {s : DataAccess P}

theorem Tracks.step (h : Tracks messages written s) (msg : P) (src : ModuleName) :
    Tracks messages (latest written (messages msg)) (s.sendMessage msg src).2 := by
  rw [h.ready.sendMessage]
  constructor
  · exact ⟨h.ready.manager, rfl⟩
  · intro p
    exact (asks_handled s.module.world msg p).trans (h.asks p)
  · rw [← latest_of_asks (h.asks msg)]
    intro a content ha
    show (handled s.module.world msg).files.find a = some content
    rw [handled]
    cases hmsg : s.module.world.messages msg with
    | readFile m =>
        rw [show s.messages msg = .readFile m from hmsg] at ha
        exact h.holds a content ha
    | writeFile m =>
        rw [show s.messages msg = .writeFile m from hmsg] at ha
        by_cases haddr : a = m.fileAddress
        · subst haddr
          rw [latest, Table.find_assign_self] at ha
          cases ha
          exact FileManager.find_write_self ..
        · rw [latest, Table.find_assign_of_ne _ _ haddr] at ha
          rw [FileManager.find_write_of_ne _ _ haddr]
          exact h.holds a content ha

/-- A message is stored faithfully exactly when it does not read an address
whose latest content lacks its last newline. -/
theorem Tracks.stored_iff (h : Tracks messages written s) (msg : P) (src : ModuleName) :
    Stored written s (s.sendMessage msg src).2 msg ↔
      match messages msg with
      | .readFile m =>
          ∀ content, written.find m.fileAddress = some content → FileManager.EndsLine content
      | .writeFile _ => True := by
  have hasks := h.asks msg
  rw [h.ready.sendMessage, Stored]
  cases hs : s.messages msg with
  | readFile m =>
      cases hm : messages msg with
      | writeFile m' => simp [hs, hm, DataAccess.asks] at hasks
      | readFile m' =>
          have haddr : m.fileAddress = m'.fileAddress := by
            rw [hs, hm] at hasks
            have hsame := congrArg ReadFileMessage.fileAddress (Message.readFile.inj
              (show Message.readFile { m with contentFile := [] } = _ from hasks))
            exact hsame
          have hworld : handled s.module.world msg = { s.module.world with
              messages := Function.update s.module.world.messages msg
                (.readFile { m with contentFile := FileManager.read s.files m.fileAddress }) } := by
            rw [handled, show s.module.world.messages msg = .readFile m from hs]
          have hcontent : ((handled s.module.world msg).messages msg).getContent
              = FileManager.read s.files m.fileAddress := by
            rw [hworld]
            simp only [Function.update_self, Message.getContent]
          have hfiles : (handled s.module.world msg).files = s.files := by rw [hworld]
          simp only [DataAccess.messages, DataAccess.files, DataAccessModule.new, hcontent]
          rw [haddr]
          constructor
          · rintro ⟨hread, -⟩ content hc
            exact (FileManager.read_eq_iff (h.holds _ _ hc)).mp (hread content hc)
          · intro hends
            exact ⟨fun content hc => (FileManager.read_eq_iff (h.holds _ _ hc)).mpr
              (hends content hc), hfiles⟩
  | writeFile m =>
      cases hm : messages msg with
      | readFile m' => simp [hs, hm, DataAccess.asks] at hasks
      | writeFile m' =>
          simp only [iff_true]
          intro a ha
          show FileManager.read (handled s.module.world msg).files a = _
          rw [handled, show s.module.world.messages msg = .writeFile m from hs]
          exact FileManager.read_write_of_ne _ _ ha

theorem Tracks.faithful_iff (h : Tracks messages written s) (sends : List (P × ModuleName)) :
    s.Faithful written sends ↔ LinesEnd messages written sends := by
  induction sends generalizing written s with
  | nil => exact Iff.rfl
  | cons send sends ih =>
      obtain ⟨msg, src⟩ := send
      have hok : (s.sendMessage msg src).1 = .ok .ok := by rw [h.ready.sendMessage]
      rw [Faithful, LinesEnd, h.stored_iff, latest_of_asks (h.asks msg), ih (h.step msg src)]
      exact and_iff_right hok

/-- **The module is a faithful store exactly of contents that end their last
line.** In every sequence of messages to an initialised module, every read
of an address that was written gets the latest content written there, writes
disturb no other address and reads change no file, if and only if whenever
such an address is read its latest content is empty or ends in a newline. -/
theorem faithful_iff_linesEnd (world : World P) (sends : List (P × ModuleName)) :
    (initialised world).Faithful .empty sends ↔ LinesEnd world.messages .empty sends := by
  have h : Tracks world.messages .empty (initialised world) :=
    ⟨ready_initialised world, fun _ => rfl, fun _ _ ha => by cases ha⟩
  exact h.faithful_iff sends

/-- The address `a.txt`. -/
def aTxt : FileAddress :=
  [97, 46, 116, 120, 116]

/-- One message to write the letter `a` into a file, one to read the file. -/
def letter : Bool → Message
  | true => .writeFile { fileAddress := aTxt, contentFile := [97], id := 1 }
  | false => .readFile { fileAddress := aTxt, contentFile := [], id := 2 }

/-- The letter comes back with a newline. -/
theorem letter_gains_newline : ¬ ∀ sends : List (Bool × ModuleName),
    (initialised ⟨.empty, letter⟩).Faithful .empty sends := by
  intro h
  obtain ⟨-, -, -, ⟨hread, -⟩, -⟩ := h [(true, .gui), (false, .gui)]
  have hcontent := hread [97] (Table.find_assign_self ..)
  have hnot : ¬ FileManager.EndsLine [97] := by decide
  have hfind : (FileManager.write .empty aTxt [97]).find aTxt = some [97] :=
    FileManager.find_write_self ..
  exact hnot ((FileManager.read_eq_iff hfind).mp hcontent)

end DataAccess

end HpLib
