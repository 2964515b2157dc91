import Mathlib.Logic.Function.Basic

/-!
# Tables

What a map from keys to values holds: a value or nothing under every key.
The operations are those of a library's ordered or hashed map. `subscript`
is the access that returns what is under a key and, where nothing is, puts a
default there first.
-/

namespace HpLib.Lib

/-- `find k` is what the map holds under `k`. -/
@[ext] structure Table (κ υ : Type*) where
  find : κ → Option υ

namespace Table

variable {κ υ : Type*} [DecidableEq κ]

/-- A map that holds nothing. -/
def empty : Table κ υ :=
  ⟨fun _ => none⟩

def assign (t : Table κ υ) (k : κ) (v : υ) : Table κ υ :=
  ⟨Function.update t.find k (some v)⟩

def erase (t : Table κ υ) (k : κ) : Table κ υ :=
  ⟨Function.update t.find k none⟩

def subscript (t : Table κ υ) (k : κ) (default : υ) : υ × Table κ υ :=
  match t.find k with
  | some v => (v, t)
  | none => (default, t.assign k default)

/-- Something is under `k`. -/
def Present (t : Table κ υ) (k : κ) : Prop :=
  (t.find k).isSome

@[simp] theorem find_assign_self (t : Table κ υ) (k : κ) (v : υ) :
    (t.assign k v).find k = some v :=
  Function.update_self ..

theorem find_assign_of_ne (t : Table κ υ) {k l : κ} (v : υ) (h : l ≠ k) :
    (t.assign k v).find l = t.find l :=
  Function.update_of_ne h ..

@[simp] theorem find_erase_self (t : Table κ υ) (k : κ) : (t.erase k).find k = none :=
  Function.update_self ..

theorem find_erase_of_ne (t : Table κ υ) {k l : κ} (h : l ≠ k) :
    (t.erase k).find l = t.find l :=
  Function.update_of_ne h ..

theorem erase_of_none {t : Table κ υ} {k : κ} (h : t.find k = none) : t.erase k = t :=
  congrArg Table.mk (Function.update_eq_self_iff.mpr h.symm)

theorem subscript_of_some {t : Table κ υ} {k : κ} {v : υ} (h : t.find k = some v) (default : υ) :
    t.subscript k default = (v, t) := by
  simp only [subscript, h]

theorem subscript_of_none {t : Table κ υ} {k : κ} (h : t.find k = none) (default : υ) :
    t.subscript k default = (default, t.assign k default) := by
  simp only [subscript, h]

end Table

end HpLib.Lib
