import HpLib.Lib.Ring

/-!
# Bounded queues that overwrite

A queue of at most `cap` items. Appending to a full queue never fails: it
keeps the last `cap` items, so what is lost is the oldest. Nothing here
mentions bytes, rings or a program.
-/

namespace HpLib.Lib

/-- A queue whose contents fit its capacity. -/
@[ext] structure BoundedQueue (α : Type*) (cap : Nat) where
  items : List α
  bound : items.length ≤ cap

namespace BoundedQueue

variable {α : Type*} {cap : Nat}

def empty : BoundedQueue α cap :=
  ⟨[], Nat.zero_le _⟩

/-- Append `xs`, dropping from the front what does not fit. -/
def push (q : BoundedQueue α cap) (xs : List α) : BoundedQueue α cap :=
  ⟨(q.items ++ xs).rtake cap, by rw [rtake_length]; exact Nat.min_le_left _ _⟩

/-- Take `k` items off the front. -/
def pop (q : BoundedQueue α cap) (k : Nat) : BoundedQueue α cap :=
  ⟨q.items.drop k, by rw [List.length_drop]; exact Nat.le_trans (Nat.sub_le _ _) q.bound⟩

@[simp] theorem empty_items : (empty : BoundedQueue α cap).items = [] := rfl

@[simp] theorem push_items (q : BoundedQueue α cap) (xs : List α) :
    (q.push xs).items = (q.items ++ xs).rtake cap := rfl

@[simp] theorem pop_items (q : BoundedQueue α cap) (k : Nat) :
    (q.pop k).items = q.items.drop k := rfl

/-- Nothing is lost when everything fits. -/
theorem push_items_of_fits {q : BoundedQueue α cap} {xs : List α}
    (h : q.items.length + xs.length ≤ cap) : (q.push xs).items = q.items ++ xs := by
  rw [push_items, rtake_of_length_le]
  rw [List.length_append]
  exact h

/-- Every queue is what an empty one becomes. -/
theorem empty_push (q : BoundedQueue α cap) : (empty : BoundedQueue α cap).push q.items = q := by
  ext1
  exact push_items_of_fits (by simpa using q.bound)

end BoundedQueue

end HpLib.Lib
