import Mathlib.Algebra.BigOperators.Group.List.Basic
import Mathlib.Algebra.Group.Action.Defs
import Mathlib.Algebra.Order.BigOperators.Group.List
import Mathlib.Algebra.Order.Group.Nat
import Mathlib.Data.Nat.ModEq

/-!
# Ones' complement sums

Words are the numbers up to `m`. Their sum has an end-around carry: what runs
over `m` comes back in at the bottom, so it counts modulo `m` and has two
zeros, `0` and `m`. A message is valid when the sum of its words, one of them
the checksum, is `m`.
-/

namespace HpLib.Lib.OnesComplement

/-- The carry comes back in at the bottom. -/
def carry (m n : Nat) : Nat :=
  n / (m + 1) + n % (m + 1)

/-- The sum of two words. -/
def add (m a b : Nat) : Nat :=
  carry m (a + b)

/-- The sum of many. -/
def sum (m : Nat) (ws : List Nat) : Nat :=
  ws.foldl (add m) 0

/-- The sum is all ones. -/
def Valid (m : Nat) (ws : List Nat) : Prop :=
  sum m ws = m

/-- The bytes of a message by twos, the first one high; a zero fills the last
word up. -/
def words : List UInt8 → List Nat
  | [] => []
  | [b] => [b.toNat * 256]
  | b₀ :: b₁ :: bs => (b₀.toNat * 256 + b₁.toNat) :: words bs

variable {m n a b : Nat} {ws : List Nat}

/-! ## Modulo `m`, with two zeros -/

theorem carry_mod (m n : Nat) : carry m n % m = n % m := by
  have hn : m * (n / (m + 1)) + carry m n = n := by
    calc m * (n / (m + 1)) + carry m n
        = (m + 1) * (n / (m + 1)) + n % (m + 1) := by
          rw [carry, Nat.add_mul, Nat.one_mul]
          omega
      _ = n := Nat.div_add_mod n (m + 1)
  calc carry m n % m = (m * (n / (m + 1)) + carry m n) % m := (Nat.mul_add_mod ..).symm
    _ = n % m := by rw [hn]

theorem carry_of_le (h : n ≤ m) : carry m n = n := by
  rw [carry, Nat.div_eq_of_lt (by omega), Nat.mod_eq_of_lt (by omega), Nat.zero_add]

theorem carry_of_lt (h : m < n) (h' : n ≤ 2 * m) : carry m n = n - m := by
  have hn : n = n - (m + 1) + (m + 1) := by omega
  rw [carry, hn, Nat.add_div_right _ (by omega), Nat.add_mod_right,
    Nat.div_eq_of_lt (by omega), Nat.mod_eq_of_lt (by omega)]
  omega

theorem carry_le (h : n ≤ 2 * m) : carry m n ≤ m := by
  rcases Nat.lt_or_ge m n with hlt | hle
  · rw [carry_of_lt hlt h]
    omega
  · rwa [carry_of_le hle]

theorem carry_eq_zero : carry m n = 0 ↔ n = 0 := by
  constructor
  · intro h
    rw [carry, Nat.add_eq_zero_iff] at h
    rw [← Nat.div_add_mod n (m + 1), h.1, h.2]
    rfl
  · rintro rfl
    rw [carry, Nat.zero_div, Nat.zero_mod]

/-- `a` is the word that counts for `n`. -/
structure Counts (m a n : Nat) : Prop where
  le : a ≤ m
  mod : a % m = n % m
  zero : a = 0 ↔ n = 0

/-- There is only one. -/
theorem Counts.unique (ha : Counts m a n) (hb : Counts m b n) : a = b := by
  have hmod := ha.mod.trans hb.mod.symm
  have hzero := ha.zero.trans hb.zero.symm
  have hale := ha.le
  have hble := hb.le
  rcases Nat.lt_or_ge a m with halt | hage
  · rcases Nat.lt_or_ge b m with hblt | hbge
    · rwa [Nat.mod_eq_of_lt halt, Nat.mod_eq_of_lt hblt] at hmod
    · obtain rfl : b = m := by omega
      rw [Nat.mod_eq_of_lt halt, Nat.mod_self] at hmod
      omega
  · obtain rfl : a = m := by omega
    rcases Nat.lt_or_ge b a with hblt | hbge
    · rw [Nat.mod_eq_of_lt hblt, Nat.mod_self] at hmod
      omega
    · omega

/-- A sum of many words takes two folds. -/
theorem Counts.carry_carry (h : carry m n ≤ 2 * m) : Counts m (carry m (carry m n)) n where
  le := carry_le h
  mod := (carry_mod m _).trans (carry_mod m n)
  zero := carry_eq_zero.trans carry_eq_zero

theorem Counts.add (ha : Counts m a n) (hb : b ≤ m) : Counts m (add m a b) (n + b) where
  le := carry_le (by have := ha.le; omega)
  mod := by
    rw [OnesComplement.add, carry_mod, Nat.add_mod, ha.mod, ← Nat.add_mod]
  zero := by
    rw [OnesComplement.add, carry_eq_zero, Nat.add_eq_zero_iff, Nat.add_eq_zero_iff, ha.zero]

theorem Counts.foldl (h : Counts m a n) (hws : ∀ w ∈ ws, w ≤ m) :
    Counts m (ws.foldl (OnesComplement.add m) a) (n + ws.sum) := by
  induction ws generalizing a n with
  | nil => exact h
  | cons w ws ih =>
      rw [List.foldl_cons, List.sum_cons, ← Nat.add_assoc]
      exact ih (h.add (hws w (.head _))) fun v hv => hws v (.tail w hv)

/-- **The sum of words** counts for their sum. -/
theorem counts_sum (hws : ∀ w ∈ ws, w ≤ m) : Counts m (sum m ws) ws.sum := by
  have h : Counts m 0 0 := ⟨Nat.zero_le m, rfl, Iff.rfl⟩
  have hfold := h.foldl hws
  rwa [Nat.zero_add] at hfold

/-- A message is valid when its sum is a multiple of `m`, but not zero. -/
theorem valid_iff (hm : 0 < m) (hws : ∀ w ∈ ws, w ≤ m) :
    Valid m ws ↔ ws.sum % m = 0 ∧ ws.sum ≠ 0 := by
  have h := counts_sum hws
  constructor
  · intro hvalid
    rw [Valid] at hvalid
    rw [hvalid] at h
    refine ⟨by rw [← h.mod, Nat.mod_self], ?_⟩
    intro hzero
    have := h.zero.mpr hzero
    omega
  · rintro ⟨hmod, hne⟩
    have hm' : Counts m m ws.sum := by
      refine ⟨Nat.le_refl m, by rw [hmod, Nat.mod_self], ?_⟩
      exact ⟨fun hzero => absurd hzero (by omega), fun hzero => absurd hzero hne⟩
    exact h.unique hm'

/-- Two words count the same when they are the two zeros, or one word. -/
theorem mod_eq_mod (ha : a ≤ m) (hb : b ≤ m) (h : a % m = b % m) :
    a = b ∨ (a = 0 ∧ b = m) ∨ (a = m ∧ b = 0) := by
  rcases Nat.lt_or_ge a m with halt | hage
  · rcases Nat.lt_or_ge b m with hblt | hbge
    · rw [Nat.mod_eq_of_lt halt, Nat.mod_eq_of_lt hblt] at h
      exact .inl h
    · obtain rfl : b = m := by omega
      rw [Nat.mod_eq_of_lt halt, Nat.mod_self] at h
      exact .inr (.inl ⟨h, rfl⟩)
  · obtain rfl : a = m := by omega
    rcases Nat.lt_or_ge b a with hblt | hbge
    · rw [Nat.mod_eq_of_lt hblt, Nat.mod_self] at h
      exact .inr (.inr ⟨rfl, h.symm⟩)
    · exact .inl (by omega)

theorem le_of_changed {us vs : List Nat} (hws : ∀ w ∈ us ++ a :: vs, w ≤ m) (hb : b ≤ m) :
    ∀ w ∈ us ++ b :: vs, w ≤ m := by
  intro w hw
  rw [List.mem_append, List.mem_cons] at hw
  rcases hw with hw | rfl | hw
  · exact hws w (List.mem_append_left _ hw)
  · exact hb
  · exact hws w (List.mem_append_right us (.tail a hw))

/-- **One word changed** leaves no valid message valid, except where one zero
stands for the other. -/
theorem not_valid_of_changed {us vs : List Nat} (hm : 0 < m)
    (hws : ∀ w ∈ us ++ a :: vs, w ≤ m) (hb : b ≤ m) (hvalid : Valid m (us ++ a :: vs))
    (hne : a ≠ b) (hzero : ¬ (a = 0 ∧ b = m)) (hzero' : ¬ (a = m ∧ b = 0)) :
    ¬ Valid m (us ++ b :: vs) := by
  intro hvalid'
  have ha : a ≤ m := hws a (by simp)
  have h := ((valid_iff hm hws).mp hvalid).1
  have h' := ((valid_iff hm (le_of_changed hws hb)).mp hvalid').1
  rw [List.sum_append, List.sum_cons] at h h'
  have hmod : a + (us.sum + vs.sum) ≡ b + (us.sum + vs.sum) [MOD m] := by
    rw [Nat.ModEq, show a + (us.sum + vs.sum) = us.sum + (a + vs.sum) by omega,
      show b + (us.sum + vs.sum) = us.sum + (b + vs.sum) by omega, h, h']
  rcases mod_eq_mod ha hb (Nat.ModEq.add_right_cancel' _ hmod) with heq | hcase | hcase
  · exact hne heq
  · exact hzero hcase
  · exact hzero' hcase

/-- **One zero for the other** leaves a message valid, as long as a word
before it is none of them. -/
theorem valid_of_exchanged {us vs : List Nat} (hm : 0 < m) (hws : ∀ w ∈ us ++ a :: vs, w ≤ m)
    (hb : b ≤ m) (hvalid : Valid m (us ++ a :: vs)) (hus : us.sum ≠ 0) (hmod : a % m = b % m) :
    Valid m (us ++ b :: vs) := by
  have h := ((valid_iff hm hws).mp hvalid).1
  rw [List.sum_append, List.sum_cons] at h
  have hsum : a + (us.sum + vs.sum) ≡ b + (us.sum + vs.sum) [MOD m] := Nat.ModEq.add_right _ hmod
  rw [Nat.ModEq, show a + (us.sum + vs.sum) = us.sum + (a + vs.sum) by omega,
    show b + (us.sum + vs.sum) = us.sum + (b + vs.sum) by omega, h] at hsum
  refine (valid_iff hm (le_of_changed hws hb)).mpr ?_
  rw [List.sum_append, List.sum_cons]
  exact ⟨hsum.symm, by omega⟩

/-! ## The words of a message -/

theorem words_le (bs : List UInt8) : ∀ w ∈ words bs, w ≤ 65535 := by
  fun_induction words bs with
  | case1 => nofun
  | case2 b =>
      intro w hw
      have hb := b.toNat_lt
      rw [List.mem_singleton] at hw
      omega
  | case3 b₀ b₁ bs ih =>
      intro w hw
      have h₀ := b₀.toNat_lt
      have h₁ := b₁.toNat_lt
      rcases List.mem_cons.mp hw with rfl | hw
      · omega
      · exact ih w hw

theorem words_append {bs : List UInt8} (heven : bs.length % 2 = 0) (cs : List UInt8) :
    words (bs ++ cs) = words bs ++ words cs := by
  fun_induction words bs with
  | case1 => rfl
  | case2 b => cases heven
  | case3 b₀ b₁ bs ih =>
      rw [List.cons_append, List.cons_append, words, ih ?_]
      · rfl
      · rw [List.length_cons, List.length_cons] at heven
        omega

theorem words_length (bs : List UInt8) : (words bs).length = (bs.length + 1) / 2 := by
  fun_induction words bs with
  | case1 => rfl
  | case2 b => simp
  | case3 b₀ b₁ bs ih =>
      rw [List.length_cons, List.length_cons, List.length_cons, ih]
      omega

theorem sum_words_le (bs : List UInt8) : (words bs).sum ≤ (bs.length + 1) / 2 * 65535 := by
  have h := List.sum_le_card_nsmul (words bs) 65535 (words_le bs)
  rwa [smul_eq_mul, words_length] at h

end HpLib.Lib.OnesComplement
