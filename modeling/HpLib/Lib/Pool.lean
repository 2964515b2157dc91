import Mathlib.Data.List.Basic
import Mathlib.Data.List.Count

/-!
# Pools of operations in flight

A pool is a list whose order means nothing: operations that wait or run, one
of which moves on at a time. `swap` takes one out and puts what became of it
back. What is needed of it is who is in the pool afterwards and how many of
a kind there are.
-/

namespace HpLib.Lib

variable {α : Type*} [DecidableEq α] {pool : List α} {x y z : α}

/-- `y` takes the place of `x`. -/
def swap (pool : List α) (x y : α) : List α :=
  y :: pool.erase x

theorem mem_swap (h : z ∈ swap pool x y) : z = y ∨ z ∈ pool := by
  rcases List.mem_cons.mp h with h | h
  · exact .inl h
  · exact .inr (List.mem_of_mem_erase h)

@[simp] theorem mem_swap_self : y ∈ swap pool x y :=
  List.mem_cons_self

/-- Swapping twice in the same place is swapping once. -/
@[simp] theorem swap_swap : swap (swap pool x y) y z = swap pool x z := by
  rw [swap, swap, List.erase_cons_head, swap]

@[simp] theorem erase_swap : (swap pool x y).erase y = pool.erase x :=
  List.erase_cons_head _ _

variable (p : α → Bool)

theorem countP_erase_of_mem (h : x ∈ pool) :
    (pool.erase x).countP p + (if p x then 1 else 0) = pool.countP p := by
  rw [(List.perm_cons_erase h).countP_eq, List.countP_cons]

/-- A swap inside or outside the counted kind leaves the count alone. -/
theorem countP_swap (h : x ∈ pool) (hxy : p y = p x) : (swap pool x y).countP p = pool.countP p := by
  rw [swap, List.countP_cons, hxy, countP_erase_of_mem p h]

theorem countP_erase_of_not (h : p x = false) : (pool.erase x).countP p = pool.countP p := by
  by_cases hx : x ∈ pool
  · have := countP_erase_of_mem p hx
    rw [h, if_neg (by decide), Nat.add_zero] at this
    exact this
  · rw [List.erase_of_not_mem hx]

end HpLib.Lib
