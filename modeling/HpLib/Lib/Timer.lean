import Mathlib.Data.List.Basic

/-!
# Timers with asynchronous waits

A timer has one expiry and any number of waits for it. A wait ends when its
expiry has come or when it is aborted, and then its handler is due: it runs
some time later, whatever has been done to the timer meanwhile. Setting a
new expiry aborts the waits that there are, and so does cancelling.
-/

namespace HpLib.Lib

/-- A wait for the handler `handler`. -/
structure Wait (η : Type*) where
  handler : η
  expiry : Nat
  aborted : Bool
  deriving Repr, DecidableEq

/-- The wait is over at time `now`. -/
def Wait.due {η : Type*} (now : Nat) (w : Wait η) : Bool :=
  w.aborted || decide (w.expiry ≤ now)

def Wait.abort {η : Type*} (w : Wait η) : Wait η :=
  { w with aborted := true }

structure Timer (η : Type*) where
  expiry : Nat
  waits : List (Wait η)
  deriving Repr, DecidableEq

namespace Timer

variable {η : Type*}

def idle : Timer η :=
  { expiry := 0, waits := [] }

def cancel (t : Timer η) : Timer η :=
  { t with waits := t.waits.map Wait.abort }

def expiresAt (t : Timer η) (expiry : Nat) : Timer η :=
  { t.cancel with expiry := expiry }

def asyncWait (t : Timer η) (handler : η) : Timer η :=
  { t with waits := ⟨handler, t.expiry, false⟩ :: t.waits }

/-- The handler of `w` is about to run. -/
def take [DecidableEq η] (t : Timer η) (w : Wait η) : Timer η :=
  { t with waits := t.waits.erase w }

variable (t : Timer η)

@[simp] theorem cancel_waits : t.cancel.waits = t.waits.map Wait.abort := rfl

@[simp] theorem expiresAt_waits (expiry : Nat) :
    (t.expiresAt expiry).waits = t.waits.map Wait.abort := rfl

@[simp] theorem expiresAt_expiry (expiry : Nat) : (t.expiresAt expiry).expiry = expiry := rfl

@[simp] theorem asyncWait_waits (handler : η) :
    (t.asyncWait handler).waits = ⟨handler, t.expiry, false⟩ :: t.waits := rfl

@[simp] theorem take_waits [DecidableEq η] (w : Wait η) : (t.take w).waits = t.waits.erase w := rfl

/-- With one wait pending, that is the one that ends. -/
theorem eq_of_mem_of_handlers {t : Timer η} {w : Wait η} {h : η}
    (hone : t.waits.map Wait.handler = [h]) (hw : w ∈ t.waits) : t.waits = [w] ∧ w.handler = h := by
  obtain ⟨v, hv, hh⟩ := List.map_eq_singleton_iff.mp hone
  rw [hv, List.mem_singleton] at hw
  exact ⟨by rw [hv, hw], by rw [hw, hh]⟩

theorem handlers_abort : (t.waits.map Wait.abort).map Wait.handler = t.waits.map Wait.handler := by
  rw [List.map_map]
  rfl

end Timer

end HpLib.Lib
