import Mathlib.Data.List.Rotate
import Mathlib.Data.List.DropRight

/-!
# Ring arrays

A ring array of `n` cells is the first `n` cells of a list together with a
position. `cells buf n h` lists all `n` of them from position `h` on, so for
a writer standing at `h` it is the array oldest cell first: writing `xs` at
`h` drops `xs.length` cells from its front and appends `xs`
(`cells_overlay`). `window buf n t k` is the `k` cells from position `t` on.

Range copies between lists (`blit`) are partial: they are defined where both
ranges exist. Nothing here mentions bytes or a program.
-/

namespace HpLib.Lib

variable {α : Type*}

/-! ## Range copies -/

/-- `dst` with its cells from `i` on replaced by `xs`. -/
def overlay (dst : List α) (i : Nat) (xs : List α) : List α :=
  dst.take i ++ xs ++ dst.drop (i + xs.length)

/-- Copy the `c` cells of `src` from `j` on over the cells of `dst` from `i`
on, where both ranges exist. -/
def blit (dst : List α) (i : Nat) (src : List α) (j c : Nat) : Option (List α) :=
  if i + c ≤ dst.length ∧ j + c ≤ src.length then
    some (overlay dst i ((src.drop j).take c))
  else none

theorem blit_eq_some {dst src : List α} {i j c : Nat} (hd : i + c ≤ dst.length)
    (hs : j + c ≤ src.length) :
    blit dst i src j c = some (overlay dst i ((src.drop j).take c)) :=
  if_pos ⟨hd, hs⟩

theorem overlay_length {dst xs : List α} {i : Nat} (h : i + xs.length ≤ dst.length) :
    (overlay dst i xs).length = dst.length := by
  simp only [overlay, List.length_append, List.length_take, List.length_drop]
  omega

@[simp] theorem overlay_nil (dst : List α) (i : Nat) : overlay dst i [] = dst := by
  simp [overlay]

/-- Two adjacent overlays are one. -/
theorem overlay_overlay (dst : List α) (i : Nat) (xs ys : List α)
    (h : i + xs.length ≤ dst.length) :
    overlay (overlay dst i xs) (i + xs.length) ys = overlay dst i (xs ++ ys) := by
  have hi : (dst.take i).length = i := by rw [List.length_take]; omega
  have hpre : (dst.take i ++ xs).length = i + xs.length := by rw [List.length_append, hi]
  have htake : (overlay dst i xs).take (i + xs.length) = dst.take i ++ xs := by
    rw [overlay, ← hpre, List.take_left]
  have hdrop : (overlay dst i xs).drop (i + xs.length + ys.length)
      = dst.drop (i + (xs ++ ys).length) := by
    rw [← List.drop_drop, overlay, ← hpre, List.drop_left, List.drop_drop, hpre,
      List.length_append, Nat.add_assoc]
  rw [overlay, htake, hdrop, overlay, List.append_assoc (dst.take i)]

/-- Cells past the overlay are untouched. -/
theorem overlay_drop {dst xs : List α} {i n : Nat} (h : i + xs.length ≤ n)
    (hn : n ≤ dst.length) : (overlay dst i xs).drop n = dst.drop n := by
  have hpre : (dst.take i ++ xs).length = i + xs.length := by
    rw [List.length_append, List.length_take, Nat.min_eq_left (by omega)]
  rw [overlay, List.drop_append, List.drop_eq_nil_of_le (by omega), hpre, List.nil_append,
    List.drop_drop]
  congr 1
  omega

theorem overlay_take {dst xs : List α} {i n : Nat} (h : i + xs.length ≤ n)
    (hn : n ≤ dst.length) : (overlay dst i xs).take n = overlay (dst.take n) i xs := by
  have hpre : (dst.take i ++ xs).length = i + xs.length := by
    rw [List.length_append, List.length_take, Nat.min_eq_left (by omega)]
  rw [overlay, overlay, List.take_append, List.take_of_length_le (by omega), hpre,
    List.take_take, Nat.min_eq_left (by omega), List.drop_take]

theorem overlay_whole {dst xs : List α} (h : dst.length = xs.length) :
    overlay dst 0 xs = xs := by
  simp [overlay, ← h]

/-! ## The cells of a ring -/

/-- The `n` ring cells from position `h` on. -/
def cells (buf : List α) (n h : Nat) : List α :=
  (buf.take n).rotate h

/-- The `k` ring cells from position `t` on. -/
def window (buf : List α) (n t k : Nat) : List α :=
  (cells buf n t).take k

@[simp] theorem cells_length {buf : List α} {n h : Nat} (hn : n ≤ buf.length) :
    (cells buf n h).length = n := by
  simp [cells, hn]

theorem cells_mod {buf : List α} {n h : Nat} (hn : n ≤ buf.length) :
    cells buf n (h % n) = cells buf n h := by
  have hrot := List.rotate_mod (buf.take n) h
  rwa [show (buf.take n).length = n by simp [hn]] at hrot

theorem window_length {buf : List α} {n t k : Nat} (hn : n ≤ buf.length) (hk : k ≤ n) :
    (window buf n t k).length = k := by
  rw [window, List.length_take, cells_length hn, Nat.min_eq_left hk]

/-- The cells from `h` on, cut at the end of the array. -/
theorem cells_eq_append {buf : List α} {n h : Nat} (hn : n ≤ buf.length) (hh : h ≤ n) :
    cells buf n h = (buf.take n).drop h ++ buf.take h := by
  rw [cells, List.rotate_eq_drop_append_take (by simp [hn, hh]), List.take_take,
    Nat.min_eq_left hh]

/-- A range that does not reach the end of the array is not wrapped. -/
theorem cells_take {buf : List α} {n t c : Nat} (hn : n ≤ buf.length) (hc : t + c ≤ n) :
    (cells buf n t).take c = (buf.drop t).take c := by
  rw [cells_eq_append hn (by omega), List.take_append_of_le_length, List.drop_take,
    List.take_take, Nat.min_eq_left (by omega)]
  rw [List.length_drop, List.length_take]
  omega

/-- Moving on by `c` cells brings the first `c` to the back. -/
theorem cells_advance {buf : List α} {n t c : Nat} (hn : n ≤ buf.length) (hc : c ≤ n) :
    cells buf n ((t + c) % n) = (cells buf n t).drop c ++ (cells buf n t).take c := by
  rw [cells_mod hn, cells, ← List.rotate_rotate,
    List.rotate_eq_drop_append_take (by simp [hn, hc])]
  rfl

/-- **Writing at the position**: the oldest cells go, the new ones come last. -/
theorem cells_overlay {buf xs : List α} {n h : Nat} (hn : n ≤ buf.length)
    (hx : h + xs.length ≤ n) :
    cells (overlay buf h xs) n ((h + xs.length) % n) = (cells buf n h).drop xs.length ++ xs := by
  have hover : (overlay buf h xs).length = buf.length := overlay_length (by omega)
  have hpre : (buf.take h ++ xs).length = h + xs.length := by
    rw [List.length_append, List.length_take, Nat.min_eq_left (by omega)]
  have hdrop : ((overlay buf h xs).take n).drop (h + xs.length)
      = (buf.take n).drop (h + xs.length) := by
    rw [overlay_take hx hn, overlay, ← hpre, List.take_take, Nat.min_eq_left (by omega),
      List.drop_left, hpre]
  have htake : (overlay buf h xs).take (h + xs.length) = buf.take h ++ xs := by
    rw [overlay, ← hpre, List.take_left]
  rw [cells_mod (by omega), cells_eq_append (by omega) hx, hdrop, htake,
    cells_eq_append hn (by omega), List.drop_append_of_le_length, List.drop_drop,
    List.append_assoc]
  rw [List.length_drop, List.length_take]
  omega

/-- Writes one after the other are one write of everything. -/
theorem drop_append_drop (l xs ys : List α) :
    ((l ++ xs).drop xs.length ++ ys).drop ys.length
      = (l ++ (xs ++ ys)).drop (xs ++ ys).length := by
  have hle : xs.length ≤ (l ++ xs).length := by simp
  rw [List.length_append, ← List.drop_drop, ← List.append_assoc l,
    List.drop_append_of_le_length hle]

/-- The `k` cells just before position `h` are the last `k` of the cells from
`h` on. -/
theorem window_eq_drop {buf : List α} {n t k : Nat} (hn : n ≤ buf.length) (hk : k ≤ n) :
    window buf n t k = (cells buf n ((t + k) % n)).drop (n - k) := by
  have hlen : ((cells buf n t).drop k).length = n - k := by
    rw [List.length_drop, cells_length hn]
  rw [cells_advance hn hk, ← hlen, List.drop_left, window]

/-- A window read in two parts. -/
theorem window_append {buf : List α} {n t c k : Nat} (hn : n ≤ buf.length) (hck : c ≤ k)
    (hk : k ≤ n) :
    window buf n t c ++ window buf n ((t + c) % n) (k - c) = window buf n t k := by
  have hlen : k - c ≤ ((cells buf n t).drop c).length := by
    rw [List.length_drop, cells_length hn]
    omega
  rw [window, window, window, cells_advance hn (by omega), List.take_append_of_le_length hlen,
    ← List.take_add, Nat.add_sub_cancel' hck]

/-- A window read cell by cell. -/
theorem window_eq_map (d : α) {buf : List α} {n t k : Nat} (hn : n ≤ buf.length)
    (hk : k ≤ n) :
    (List.range k).map (fun i => buf.getD ((t + i) % n) d) = window buf n t k := by
  apply List.ext_getElem
  · rw [window_length hn hk, List.length_map, List.length_range]
  · intro i h1 h2
    have hi : i < k := by simpa using h1
    have hlen : (buf.take n).length = n := by simp [hn]
    have hlt : (t + i) % n < n := Nat.mod_lt _ (by omega)
    simp only [List.getElem_map, List.getElem_range, window, cells, List.getElem_take,
      List.getElem_rotate, hlen]
    rw [← List.getElem_eq_getD d (h := by omega)]
    simp only [Nat.add_comm]

/-! ## The last cells -/

theorem rtake_append {l xs : List α} {k : Nat} (hk : k ≤ l.length) :
    l.rtake k ++ xs = (l ++ xs).rtake (k + xs.length) := by
  rw [List.rtake, List.rtake, List.length_append,
    show l.length + xs.length - (k + xs.length) = l.length - k by omega,
    List.drop_append_of_le_length (by omega)]

theorem rtake_rtake {l : List α} {m k : Nat} (hmk : m ≤ k) (hk : k ≤ l.length) :
    (l.rtake k).rtake m = l.rtake m := by
  rw [List.rtake, List.rtake, List.rtake, List.drop_drop, List.length_drop]
  congr 1
  omega

theorem rtake_of_length_le {l : List α} {m : Nat} (h : l.length ≤ m) : l.rtake m = l := by
  rw [List.rtake, Nat.sub_eq_zero_of_le h, List.drop_zero]

theorem rtake_length (l : List α) (m : Nat) : (l.rtake m).length = min m l.length := by
  rw [List.rtake, List.length_drop]
  omega

theorem window_eq_rtake {buf : List α} {n t k : Nat} (hn : n ≤ buf.length) (hk : k ≤ n) :
    window buf n t k = (cells buf n ((t + k) % n)).rtake k := by
  rw [window_eq_drop hn hk, List.rtake, cells_length hn]

/-! ## Writing a range -/

/-- `buf'` is the ring array `buf` after `xs` was written from position `h`
on, wrapping at the end as often as needed. -/
structure Wrote (buf : List α) (n h : Nat) (xs buf' : List α) : Prop where
  length : buf'.length = buf.length
  rest : buf'.drop n = buf.drop n
  ring : cells buf' n ((h + xs.length) % n) = (cells buf n h ++ xs).drop xs.length

theorem Wrote.nil {buf : List α} {n h : Nat} (hn : n ≤ buf.length) : Wrote buf n h [] buf where
  length := rfl
  rest := rfl
  ring := by simp [cells_mod hn]

theorem Wrote.overlay {buf xs : List α} {n h : Nat} (hn : n ≤ buf.length)
    (hx : h + xs.length ≤ n) : Wrote buf n h xs (overlay buf h xs) where
  length := overlay_length (by omega)
  rest := overlay_drop hx hn
  ring := by
    rw [cells_overlay hn hx, List.drop_append_of_le_length]
    rw [cells_length hn]
    omega

/-- What was written, and where, determines the array. -/
theorem Wrote.unique {buf buf₁ buf₂ xs : List α} {n h : Nat} (h₁ : Wrote buf n h xs buf₁)
    (h₂ : Wrote buf n h xs buf₂) : buf₁ = buf₂ := by
  have hring : buf₁.take n = buf₂.take n := by
    apply List.rotate_injective ((h + xs.length) % n)
    exact h₁.ring.trans h₂.ring.symm
  rw [← List.take_append_drop n buf₁, ← List.take_append_drop n buf₂, hring, h₁.rest, h₂.rest]

/-- Two writes one after the other are one. -/
theorem Wrote.append {buf buf' buf'' xs ys : List α} {n h : Nat}
    (h1 : Wrote buf n h xs buf') (h2 : Wrote buf' n ((h + xs.length) % n) ys buf'') :
    Wrote buf n h (xs ++ ys) buf'' where
  length := h2.length.trans h1.length
  rest := h2.rest.trans h1.rest
  ring := by
    have hpos : (h + (xs ++ ys).length) % n = ((h + xs.length) % n + ys.length) % n := by
      rw [Nat.mod_add_mod, List.length_append, Nat.add_assoc]
    rw [hpos, h2.ring, h1.ring, drop_append_drop]

/-- **What a write leaves to read**: the last cells of what was there and
what came. -/
theorem Wrote.window_eq {buf buf' xs : List α} {n h t t' k m : Nat} (hw : Wrote buf n h xs buf')
    (hn : n ≤ buf.length) (hk : k ≤ n) (ht : (t + k) % n = h) (hm : m ≤ n)
    (hmk : m ≤ k + xs.length) (ht' : (t' + m) % n = (h + xs.length) % n) :
    window buf' n t' m = (window buf n t k ++ xs).rtake m := by
  have hlen : (cells buf n h ++ xs).length = n + xs.length := by
    rw [List.length_append, cells_length hn]
  have hnew : window buf' n t' m = (cells buf n h ++ xs).rtake m := by
    rw [window_eq_drop (by rw [hw.length]; exact hn) hm, ht', hw.ring, List.drop_drop,
      List.rtake, hlen]
    congr 1
    omega
  have hold : window buf n t k ++ xs = (cells buf n h ++ xs).rtake (k + xs.length) := by
    rw [window_eq_rtake hn hk, ht, rtake_append (by rw [cells_length hn]; exact hk)]
  rw [hnew, hold, rtake_rtake hmk (by omega)]

/-! ## Distances -/

/-- How many cells lie from `t` up to but excluding `h`. -/
def gap (n t h : Nat) : Nat :=
  (h + n - t) % n

theorem gap_lt {n t h : Nat} (hn : 0 < n) : gap n t h < n :=
  Nat.mod_lt _ hn

theorem gap_of_le {n t h : Nat} (hth : t ≤ h) (hh : h < n) : gap n t h = h - t := by
  rw [gap, show h + n - t = (h - t) + n by omega, Nat.add_mod_right,
    Nat.mod_eq_of_lt (by omega)]

theorem gap_of_lt {n t h : Nat} (hht : h < t) (ht : t < n) : gap n t h = n - (t - h) := by
  rw [gap, Nat.mod_eq_of_lt (by omega)]
  omega

/-- Going the distance arrives. -/
theorem add_gap_mod {n t h : Nat} (ht : t < n) (hh : h < n) : (t + gap n t h) % n = h := by
  rcases Nat.lt_or_ge h t with hlt | hge
  · rw [gap_of_lt hlt ht, show t + (n - (t - h)) = h + n by omega, Nat.add_mod_right,
      Nat.mod_eq_of_lt hh]
  · rw [gap_of_le hge hh, show t + (h - t) = h by omega, Nat.mod_eq_of_lt hh]

/-- A distance below `n` is recovered from where it leads. -/
theorem gap_eq_of_mod {n t k : Nat} (hk : k < n) (ht : t < n) :
    gap n t ((t + k) % n) = k := by
  rcases Nat.lt_or_ge (t + k) n with hlt | hge
  · rw [Nat.mod_eq_of_lt hlt, gap_of_le (by omega) hlt]
    omega
  · rw [Nat.mod_eq_sub_mod hge, Nat.mod_eq_of_lt (by omega), gap_of_lt (by omega) ht]
    omega

/-- A prefix goes on with the item that comes next. -/
theorem concat_prefix {α : Type*} {xs ys : List α} {y : α} (h : xs <+: ys)
    (hy : ys[xs.length]? = some y) : xs ++ [y] <+: ys := by
  obtain ⟨rest, rfl⟩ := h
  rw [List.getElem?_append_right le_rfl, Nat.sub_self] at hy
  cases rest with
  | nil => cases hy
  | cons z rest =>
      cases hy
      exact ⟨rest, by rw [List.append_assoc]; rfl⟩

/-- Indices fewer than `n` apart are told apart modulo `n`. -/
theorem eq_of_mod_eq {n i j : Nat} (h : i % n = j % n) (hij : i ≤ j) (hlt : j < i + n) :
    i = j := by
  have hdvd : n ∣ j - i := Nat.dvd_of_mod_eq_zero (Nat.sub_mod_eq_zero_of_mod_eq h.symm)
  rcases Nat.eq_zero_or_pos (j - i) with h0 | hpos
  · omega
  · have := Nat.le_of_dvd hpos hdvd
    omega

/-- The next position: one more, or back to zero at the end. -/
theorem succ_mod_eq {n i : Nat} (hn : 0 < n) :
    (i + 1) % n = if i % n + 1 = n then 0 else i % n + 1 := by
  have hlt : i % n < n := Nat.mod_lt _ hn
  rw [Nat.add_mod]
  split
  · rename_i h
    rcases Nat.lt_or_ge 1 n with h1 | h1
    · rw [Nat.mod_eq_of_lt h1, h, Nat.mod_self]
    · rw [show n = 1 by omega, Nat.mod_one]
  · rename_i h
    rw [Nat.mod_eq_of_lt (show 1 < n by omega), Nat.mod_eq_of_lt (by omega)]

end HpLib.Lib
