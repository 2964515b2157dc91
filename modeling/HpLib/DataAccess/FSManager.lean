import HpLib.Communication.ModulesCommunicationManager

/-!
# FSManager

The dispatcher on message types of `dataaccess/src/fs_manager.cc`. Its
constructor registers the two functions of its file manager; more callbacks
`γ` may be added, none can be removed. `message_handler` returns nothing.
-/

namespace HpLib

open Lib

/-- `messages/config.h`, `enum class MessageType`, and every other `int`. -/
abbrev MessageType : Type := Int32

namespace MessageType

def fileManager : MessageType := 0
def readFile : MessageType := 0x8585
def writeFile : MessageType := 0x9595
def dataBase : MessageType := 0xffff
def logManagment : MessageType := 0xfffffff

end MessageType

/-- A function of the file manager, or one added later. -/
inductive FSCallback (γ : Type) where
  | readFile
  | writeFile
  | added (func : γ)
  deriving Repr, DecidableEq

structure FSManager (γ : Type) where
  messagesFuncMap : Table MessageType (Option (FSCallback γ))

/-- A call on an `FSManager` that stands. -/
inductive FSCall (γ μ : Type) where
  | addConnection (msgType : MessageType) (callback : Option γ)
  | messageHandler (msg : μ)

namespace FSManager

variable {γ μ ω : Type}

def addConnection (m : FSManager γ) (msgType : MessageType)
    (callback : Option (FSCallback γ)) : FSManager γ :=
  { m with messagesFuncMap := m.messagesFuncMap.assign msgType callback }

def new : FSManager γ :=
  let m : FSManager γ := ⟨.empty⟩
  let m := m.addConnection .readFile (some .readFile)
  m.addConnection .writeFile (some .writeFile)

/-- `func` is a copy of what `messages_func_map_[msg_type]` returns, an
empty function under a new key. -/
def messageHandler (m : FSManager γ) (getType : μ → MessageType)
    (body : FSCallback γ → μ → ω → Except CallError Unit × ω) (msg : μ) (w : ω) :
    (Except CallError Unit × ω) × FSManager γ :=
  let (func, messagesFuncMap) := m.messagesFuncMap.subscript (getType msg) none
  (callFunction .badFunctionCall body func msg w, { m with messagesFuncMap := messagesFuncMap })

/-- One call, with a note of what it invoked. -/
def call (getType : μ → MessageType) (m : FSManager γ) :
    FSCall γ μ → Dispatch.Outcome (FSCallback γ) μ Unit CallError × FSManager γ
  | .addConnection msgType callback =>
      (⟨[], .ok ()⟩, m.addConnection msgType (callback.map .added))
  | .messageHandler msg =>
      let ((r, invoked), m) := m.messageHandler getType record msg []
      (⟨invoked, r⟩, m)

/-- A function without a result has no value that reports a failure. -/
def dispatcher (γ : Type) (getType : μ → MessageType) :
    Dispatch.Dispatcher (FSManager γ) (FSCall γ μ) MessageType (FSCallback γ) μ Unit
      CallError where
  meaning
    | .addConnection msgType callback => .add msgType (callback.map .added)
    | .messageHandler msg => .send (getType msg) msg
  call := call getType
  present m k := m.messagesFuncMap.Present k
  failure _ := False

theorem subscripts (γ : Type) (getType : μ → MessageType) :
    Dispatch.Subscripts (dispatcher γ getType) FSManager.messagesFuncMap where
  present _ _ := Iff.rfl
  after m c := by
    cases c with
    | addConnection msgType callback => rfl
    | messageHandler msg => rfl
  invokes m c k x g hm hg := by
    cases c with
    | addConnection msgType callback => cases hm
    | messageHandler msg =>
        cases hm
        show (callFunction CallError.badFunctionCall record
          (m.messagesFuncMap.subscript (getType x) none).1 x []).2 = _
        rw [hg]
        rfl
  throws m c k x hm hg := by
    cases c with
    | addConnection msgType callback => cases hm
    | messageHandler msg =>
        cases hm
        constructor
        · show (callFunction CallError.badFunctionCall record
            (m.messagesFuncMap.subscript (getType x) none).1 x []).2 = _
          rw [hg]
          rfl
        · refine ⟨.badFunctionCall, ?_⟩
          show (callFunction CallError.badFunctionCall record
            (m.messagesFuncMap.subscript (getType x) none).1 x []).1 = _
          rw [hg]
          rfl

/-- What the constructor has registered. -/
def registered : Table MessageType (Option (FSCallback γ)) :=
  (Table.empty.assign .readFile (some .readFile)).assign .writeFile (some .writeFile)

end FSManager

open Dispatch in
/-- **Dispatch follows the registrations exactly while every send is served.**
For both dispatchers and every sequence of calls: each send invoked the
callback registered last for its destination, or came back as a failure
where none is, and changed no destination's presence, if and only if every
send went to a destination whose latest registration is of a callback that
is not empty. -/
theorem dispatch_lawful_iff {γ μ : Type} (getType : μ → MessageType) :
    (∀ calls : List (Dispatch.Call ModuleName γ (μ × ModuleName)),
      (ModulesCommunicationManager.dispatcher γ μ).Lawful .new .empty calls
        ↔ AllServed .empty calls) ∧
    (∀ calls : List (FSCall γ μ),
      (FSManager.dispatcher γ getType).Lawful .new FSManager.registered calls
        ↔ AllServed FSManager.registered
            (calls.map (FSManager.dispatcher γ getType).meaning)) := by
  constructor
  · intro calls
    have h := (ModulesCommunicationManager.subscripts γ μ).lawful_iff
      (s := ModulesCommunicationManager.new) rfl calls
    rwa [show calls.map (ModulesCommunicationManager.dispatcher γ μ).meaning = calls from
      List.map_id calls] at h
  · intro calls
    exact (FSManager.subscripts γ getType).lawful_iff (s := FSManager.new) rfl calls

open Dispatch in
/-- A module sends to `DataAccess` before anybody was added. -/
theorem unregistered_send_throws :
    ¬ ∀ calls : List (Dispatch.Call ModuleName Unit (Unit × ModuleName)),
      (ModulesCommunicationManager.dispatcher Unit Unit).Lawful .new .empty calls := by
  intro h
  obtain ⟨⟨-, r, hr, -⟩, -⟩ := h [.send .dataAccess ((), .dataProcess)]
  cases hr

end HpLib
