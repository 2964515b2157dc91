import HpLib.Lib.Dispatch

/-!
# ModulesCommunicationManager

The dispatcher between modules of `communication/src/modules_communication_manager.cc`.
A callback is a function object, which may be empty; what calling it does to
the world is a parameter, so that a module can be plugged in.
-/

namespace HpLib

open Lib

/-- `common/config.h`, `enum class ModuleName`. -/
inductive ModuleName where
  | dataAccess
  | signalProcess
  | dataProcess
  | gui
  | communication
  | controller
  deriving Repr, DecidableEq

/-- `interface_module_communication.h`, `enum class CommunicationError`. -/
inductive CommunicationError where
  | ok
  deriving Repr, DecidableEq

/-- What a call can end with instead of returning: an empty function was
called, or a null pointer was dereferenced. -/
inductive CallError where
  | badFunctionCall
  | nullDeref
  deriving Repr, DecidableEq

/-- The callbacks `γ` are invoked with a message `μ` and its source. -/
structure ModulesCommunicationManager (γ : Type) where
  moduleMaps : Table ModuleName (Option γ)

namespace ModulesCommunicationManager

variable {γ μ ω : Type}

def new : ModulesCommunicationManager γ :=
  ⟨.empty⟩

def addConnection (m : ModulesCommunicationManager γ) (func : Option γ)
    (moduleName : ModuleName) : CommunicationError × ModulesCommunicationManager γ :=
  (.ok, { m with moduleMaps := m.moduleMaps.assign moduleName func })

/-- `func` is a copy of what `module_maps_[dst]` returns, an empty function
under a new key. -/
def sendMessage (m : ModulesCommunicationManager γ)
    (body : γ → μ × ModuleName → ω → Except CallError Unit × ω) (msg : μ)
    (src dst : ModuleName) (w : ω) :
    (Except CallError CommunicationError × ω) × ModulesCommunicationManager γ :=
  let (func, moduleMaps) := m.moduleMaps.subscript dst none
  let (r, w) := callFunction .badFunctionCall body func (msg, src) w
  ((r.map fun _ => .ok, w), { m with moduleMaps := moduleMaps })

def removeConnection (m : ModulesCommunicationManager γ) (dst : ModuleName) :
    CommunicationError × ModulesCommunicationManager γ :=
  (.ok, { m with moduleMaps := m.moduleMaps.erase dst })

/-- One call, with a note of what it invoked. -/
def call (m : ModulesCommunicationManager γ) :
    Dispatch.Call ModuleName γ (μ × ModuleName) →
      Dispatch.Outcome γ (μ × ModuleName) CommunicationError CallError
        × ModulesCommunicationManager γ
  | .add moduleName func =>
      let (r, m) := m.addConnection func moduleName
      (⟨[], .ok r⟩, m)
  | .remove dst =>
      let (r, m) := m.removeConnection dst
      (⟨[], .ok r⟩, m)
  | .send dst (msg, src) =>
      let ((r, invoked), m) := m.sendMessage record msg src dst []
      (⟨invoked, r⟩, m)

/-- Anything but `Ok` would report a failure. -/
def dispatcher (γ μ : Type) :
    Dispatch.Dispatcher (ModulesCommunicationManager γ)
      (Dispatch.Call ModuleName γ (μ × ModuleName)) ModuleName γ (μ × ModuleName)
      CommunicationError CallError where
  meaning := id
  call := call
  present m k := m.moduleMaps.Present k
  failure r := r ≠ .ok

theorem subscripts (γ μ : Type) :
    Dispatch.Subscripts (dispatcher γ μ) ModulesCommunicationManager.moduleMaps where
  present _ _ := Iff.rfl
  after m c := by
    cases c with
    | add k f => rfl
    | remove k => rfl
    | send k x => rfl
  invokes m c k x g hm hg := by
    subst hm
    show (callFunction CallError.badFunctionCall record (m.moduleMaps.subscript k none).1 x []).2 = _
    rw [hg]
    rfl
  throws m c k x hm hg := by
    subst hm
    constructor
    · show (callFunction CallError.badFunctionCall record (m.moduleMaps.subscript k none).1 x []).2 = _
      rw [hg]
      rfl
    · refine ⟨.badFunctionCall, ?_⟩
      show (callFunction CallError.badFunctionCall record (m.moduleMaps.subscript k none).1 x []).1.map _
        = _
      rw [hg]
      rfl

end ModulesCommunicationManager

end HpLib
