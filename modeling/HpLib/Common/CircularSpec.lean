import HpLib.Common.CircularBuffer

/-!
# CircularBuffer: what each function does

The representation invariant `Inv`, the unread bytes of a buffer, and one
specification lemma for each function of the model. Later modules use these
and unfold none of the functions.

Index arithmetic is done on natural numbers: each `UInt32` expression of the
source gets one `toNat` lemma, under `Inv`, that says it does not wrap.
-/

namespace HpLib

open Lib

theorem memcpy_eq_ok {dst src : Bytes} {i j c : Nat} (hd : i + c ≤ dst.length)
    (hs : j + c ≤ src.length) :
    memcpy dst i src j c = .ok (overlay dst i ((src.drop j).take c)) := by
  rw [memcpy, blit_eq_some hd hs]

theorem rem32_eq_ok {x size : UInt32} (h : 0 < size.toNat) :
    rem32 x size = .ok (x % size) := by
  rw [rem32, if_neg]
  intro h0
  rw [h0] at h
  exact absurd h (by decide)

@[simp] theorem resize_length (buf : Bytes) (size : Nat) : (resize buf size).length = size := by
  simp only [resize, List.length_append, List.length_take, List.length_replicate]
  omega

namespace CircularBuffer

/-- The representation invariant: both indices stand inside the ring, and
the ring inside the vector. -/
structure Inv (b : CircularBuffer) : Prop where
  head_lt : b.head.toNat < b.size.toNat
  tail_lt : b.tail.toNat < b.size.toNat
  size_le : b.size.toNat ≤ b.buf.length

/-- How many bytes lie from `tail_` up to but excluding `head_`. -/
def used (b : CircularBuffer) : Nat :=
  gap b.size.toNat b.tail.toNat b.head.toNat

/-- The unread bytes: those at positions `tail_`, `tail_ + 1`, ... up to but
excluding `head_`, modulo `size_`. -/
def unread (b : CircularBuffer) : Bytes :=
  (List.range b.used).map fun i => b.buf.getD ((b.tail.toNat + i) % b.size.toNat) 0

instance (b : CircularBuffer) : Decidable b.Inv :=
  decidable_of_iff
    (b.head.toNat < b.size.toNat ∧ b.tail.toNat < b.size.toNat ∧ b.size.toNat ≤ b.buf.length)
    ⟨fun ⟨h1, h2, h3⟩ => ⟨h1, h2, h3⟩, fun h => ⟨h.head_lt, h.tail_lt, h.size_le⟩⟩

/-! ## The constructor and the counters -/

theorem new_inv {n : UInt32} (h : 0 < n.toNat) : (new n).Inv where
  head_lt := h
  tail_lt := h
  size_le := by simp [new]

@[simp] theorem new_unread (n : UInt32) : (new n).unread = [] := by
  have : (new n).used = 0 := by simp [used, new, gap]
  simp [unread, this]

variable {b : CircularBuffer}

theorem Inv.size_pos (h : b.Inv) : 0 < b.size.toNat :=
  Nat.lt_of_le_of_lt (Nat.zero_le _) h.head_lt

theorem Inv.used_lt (h : b.Inv) : b.used < b.size.toNat :=
  gap_lt h.size_pos

theorem Inv.unread_eq (h : b.Inv) :
    b.unread = window b.buf b.size.toNat b.tail.toNat b.used :=
  window_eq_map 0 h.size_le (Nat.le_of_lt h.used_lt)

@[simp] theorem unread_length (b : CircularBuffer) : b.unread.length = b.used := by
  simp [unread]

/-- A subtraction that does not wrap around. -/
theorem sub32_toNat {x y : UInt32} (h : y.toNat ≤ x.toNat) : (x - y).toNat = x.toNat - y.toNat :=
  UInt32.toNat_sub_of_le _ _ (UInt32.le_iff_toNat_le.mpr h)

theorem Inv.capacity_toNat (h : b.Inv) : (b.size - 1).toNat = b.size.toNat - 1 :=
  sub32_toNat h.size_pos

theorem Inv.remainBytes_toNat (h : b.Inv) :
    b.remainBytes.toNat = b.size.toNat - 1 - b.used := by
  have h1 : (1 : UInt32).toNat = 1 := rfl
  have hh := h.head_lt
  have ht := h.tail_lt
  have hcap := h.capacity_toNat
  rw [remainBytes]
  split
  · rename_i hge
    have hle : b.tail.toNat ≤ b.head.toNat := UInt32.le_iff_toNat_le.mp hge
    have hdist := sub32_toNat hle
    rw [sub32_toNat (by omega), hcap, hdist, used, gap_of_le hle hh]
  · rename_i hlt
    have hlt' : b.head.toNat < b.tail.toNat := by
      rw [ge_iff_le, UInt32.le_iff_toNat_le] at hlt
      omega
    -- the unread bytes go round the end, so what is free lies between the indices
    have hdist := sub32_toNat (Nat.le_of_lt hlt')
    rw [sub32_toNat (by omega), hdist, h1, used, gap_of_lt hlt' ht]
    omega

theorem Inv.count_toNat (h : b.Inv) : b.count.toNat = b.used := by
  have hused := h.used_lt
  have hcap := h.capacity_toNat
  have hrem := h.remainBytes_toNat
  rw [count, sub32_toNat (by omega), hcap, hrem]
  omega

/-- The wake-up predicate of `read`, while no destructor runs. -/
theorem Inv.checkFreeSpace_iff (h : b.Inv) (hd : b.destructorCall = false) (len : UInt32) :
    b.checkFreeSpace len = true ↔ len.toNat ≤ b.used := by
  rw [checkFreeSpace, hd]
  simp [UInt32.le_iff_toNat_le, h.count_toNat]

/-! ## The copy loops -/

/-- One chunk of a copy: as much as is left, but not beyond the end. -/
theorem chunk_toNat (lenData : UInt32) {size pos : UInt32} (h : pos.toNat ≤ size.toNat) :
    (min32 lenData (size - pos)).toNat = min lenData.toNat (size.toNat - pos.toNat) := by
  have hsub := sub32_toNat h
  rw [min32, ← hsub]
  split
  · rename_i hlt
    rw [Nat.min_eq_right (Nat.le_of_lt (UInt32.lt_iff_toNat_lt.mp hlt))]
  · rename_i hge
    rw [UInt32.lt_iff_toNat_lt] at hge
    rw [Nat.min_eq_left (by omega)]

/-- Moving an index on by a chunk does not overflow before the remainder. -/
theorem advance_toNat {pos c size : UInt32} (h : pos.toNat + c.toNat ≤ size.toNat) :
    ((pos + c) % size).toNat = (pos.toNat + c.toNat) % size.toNat := by
  have hlt : size.toNat < 2 ^ 32 := size.toNat_lt
  rw [UInt32.toNat_mod, UInt32.toNat_add, Nat.mod_eq_of_lt (show _ < 2 ^ 32 by omega)]

/-- What both copy loops know of the chunk `c` they take: it is not empty,
not more than is left, and ends at the end of the array at the latest. -/
structure CopyStep (pos size lenData c : UInt32) : Prop where
  nonempty : 0 < c.toNat
  le : c.toNat ≤ lenData.toNat
  fits : pos.toNat + c.toNat ≤ size.toNat
  rest : (lenData - c).toNat = lenData.toNat - c.toNat
  next : ((pos + c) % size).toNat = (pos.toNat + c.toNat) % size.toNat

theorem copyStep_of_pos {pos size lenData : UInt32} (hlt : pos.toNat < size.toNat)
    (hlen : lenData > 0) : CopyStep pos size lenData (min32 lenData (size - pos)) := by
  have hlen' : 0 < lenData.toNat := UInt32.lt_iff_toNat_lt.mp hlen
  have hc := chunk_toNat lenData (Nat.le_of_lt hlt)
  exact ⟨by omega, by omega, by omega, sub32_toNat (by omega), advance_toNat (by omega)⟩

/-- Both loops stop when nothing is left. -/
theorem toNat_eq_zero_of_not_pos {lenData : UInt32} (h : ¬ lenData > 0) : lenData.toNat = 0 := by
  rw [gt_iff_lt, UInt32.lt_iff_toNat_lt] at h
  exact Nat.eq_zero_of_not_pos h

/-- Where an index stands after a chunk and the rest of the copy. -/
theorem CopyStep.index_eq {pos size lenData c : UInt32} (h : CopyStep pos size lenData c) :
    (((pos + c) % size).toNat + (lenData - c).toNat) % size.toNat
      = (pos.toNat + lenData.toNat) % size.toNat := by
  rw [h.next, h.rest, Nat.mod_add_mod, Nat.add_assoc, Nat.add_sub_cancel' h.le]

/-- The copy loop of `write` ends, stays inside both arrays and writes the
caller's bytes into the ring, however often it has to go round. -/
theorem writeLoop_spec {b : CircularBuffer} (hhead : b.head.toNat < b.size.toNat)
    (hsize : b.size.toNat ≤ b.buf.length) (data : Bytes) (off fuel : Nat) (lenData : UInt32)
    (hfuel : lenData.toNat < fuel) (hdata : off + lenData.toNat ≤ data.length) :
    ∃ buf' head', writeLoop fuel b data off lenData = .ok { b with buf := buf', head := head' }
      ∧ head'.toNat = (b.head.toNat + lenData.toNat) % b.size.toNat
      ∧ Wrote b.buf b.size.toNat b.head.toNat ((data.drop off).take lenData.toNat) buf' := by
  induction fuel generalizing b off lenData with
  | zero => omega
  | succ fuel ih =>
      rw [writeLoop]
      by_cases hpos : lenData > 0
      · have hstep := copyStep_of_pos hhead hpos
        generalize min32 lenData (b.size - b.head) = c at hstep ⊢
        have hc := hstep.nonempty
        have hle := hstep.le
        have hfits := hstep.fits
        have hrest := hstep.rest
        have hxs : ((data.drop off).take c.toNat).length = c.toNat := by
          rw [List.length_take, List.length_drop]
          omega
        have hlen : (overlay b.buf b.head.toNat ((data.drop off).take c.toNat)).length
            = b.buf.length := overlay_length (by omega)
        -- the chunk is not empty, so the fuel is enough for what is left
        obtain ⟨buf', head', hrun, hhead', hwrote⟩ :=
          ih (b := { b with buf := overlay b.buf b.head.toNat ((data.drop off).take c.toNat),
                            head := (b.head + c) % b.size })
            (by rw [hstep.next]; exact Nat.mod_lt _ (by omega)) (by rw [hlen]; exact hsize)
            (off + c.toNat) (lenData - c) (by omega) (by omega)
        refine ⟨buf', head', ?_, ?_, ?_⟩
        · simp only [if_pos hpos]
          rw [memcpy_eq_ok (by omega) (by omega), rem32_eq_ok (by omega)]
          exact hrun
        · rw [hhead']
          exact hstep.index_eq
        · have hfirst : Wrote b.buf b.size.toNat b.head.toNat ((data.drop off).take c.toNat)
              (overlay b.buf b.head.toNat ((data.drop off).take c.toNat)) :=
            Wrote.overlay hsize (by omega)
          rw [hstep.next, hrest] at hwrote
          have hall := hfirst.append (by rw [hxs]; exact hwrote)
          rwa [← List.drop_drop, ← List.take_add, Nat.add_sub_cancel' hle] at hall
      · have hzero := toNat_eq_zero_of_not_pos hpos
        refine ⟨b.buf, b.head, by rw [if_neg hpos], ?_, ?_⟩
        · rw [hzero, Nat.add_zero, Nat.mod_eq_of_lt hhead]
        · rw [hzero, List.take_zero]
          exact Wrote.nil hsize

/-- The copy loop of `read` ends, stays inside both arrays and hands over the
bytes from `tail_` on. -/
theorem readLoop_spec {b : CircularBuffer} (htail : b.tail.toNat < b.size.toNat)
    (hsize : b.size.toNat ≤ b.buf.length) (data : Bytes) (off fuel : Nat) (lenData : UInt32)
    (hfuel : lenData.toNat < fuel) (hdata : off + lenData.toNat ≤ data.length)
    (hlen : lenData.toNat ≤ b.size.toNat) :
    ∃ tail', readLoop fuel b data off lenData
        = .ok ({ b with tail := tail' },
            overlay data off (window b.buf b.size.toNat b.tail.toNat lenData.toNat))
      ∧ tail'.toNat = (b.tail.toNat + lenData.toNat) % b.size.toNat := by
  induction fuel generalizing b data off lenData with
  | zero => omega
  | succ fuel ih =>
      rw [readLoop]
      by_cases hpos : lenData > 0
      · have hstep := copyStep_of_pos htail hpos
        generalize min32 lenData (b.size - b.tail) = c at hstep ⊢
        have hc := hstep.nonempty
        have hle := hstep.le
        have hfits := hstep.fits
        have hrest := hstep.rest
        have hxs : (window b.buf b.size.toNat b.tail.toNat c.toNat).length = c.toNat :=
          window_length hsize (by omega)
        have hover : (overlay data off
            (window b.buf b.size.toNat b.tail.toNat c.toNat)).length = data.length :=
          overlay_length (by omega)
        obtain ⟨tail', hrun, htail'⟩ :=
          ih (b := { b with tail := (b.tail + c) % b.size })
            (by rw [hstep.next]; exact Nat.mod_lt _ (by omega)) hsize
            (overlay data off (window b.buf b.size.toNat b.tail.toNat c.toNat))
            (off + c.toNat) (lenData - c) (by omega) (by omega)
            (by show (lenData - c).toNat ≤ b.size.toNat; omega)
        refine ⟨tail', ?_, ?_⟩
        · simp only [if_pos hpos]
          rw [memcpy_eq_ok (by omega) (by omega), rem32_eq_ok (by omega)]
          have hsrc : (b.buf.drop b.tail.toNat).take c.toNat
              = window b.buf b.size.toNat b.tail.toNat c.toNat := (cells_take hsize hfits).symm
          -- the two copies lie next to each other in the caller's array and in the ring
          have hjoin := overlay_overlay data off
            (window b.buf b.size.toNat b.tail.toNat c.toNat)
            (window b.buf b.size.toNat ((b.tail.toNat + c.toNat) % b.size.toNat)
              (lenData.toNat - c.toNat)) (by omega)
          rw [hxs, window_append hsize hle hlen] at hjoin
          rw [hstep.next, hrest, hjoin] at hrun
          rw [hsrc]
          exact hrun
        · rw [htail']
          exact hstep.index_eq
      · have hzero := toNat_eq_zero_of_not_pos hpos
        refine ⟨b.tail, ?_, ?_⟩
        · rw [if_neg hpos, hzero, window, List.take_zero, overlay_nil]
        · rw [hzero, Nat.add_zero, Nat.mod_eq_of_lt htail]

/-! ## The operations -/

/-- What reads and writes leave alone: the size, the extent of the vector and
the destructor flag. -/
structure Same (b b' : CircularBuffer) : Prop where
  size : b'.size = b.size
  extent : b'.buf.length = b.buf.length
  destructorCall : b'.destructorCall = b.destructorCall

theorem Same.refl (b : CircularBuffer) : Same b b := ⟨rfl, rfl, rfl⟩

/-- The unread bytes of a buffer whose indices lie `k` apart. -/
theorem unread_of_gap {b : CircularBuffer} {k : Nat} (htail : b.tail.toNat < b.size.toNat)
    (hsize : b.size.toNat ≤ b.buf.length) (hk : k < b.size.toNat)
    (hhead : b.head.toNat = (b.tail.toNat + k) % b.size.toNat) :
    b.used = k ∧ b.unread = window b.buf b.size.toNat b.tail.toNat k := by
  have hused : b.used = k := by
    rw [used, hhead]
    exact gap_eq_of_mod hk htail
  have hinv : b.Inv := ⟨by rw [hhead]; exact Nat.mod_lt _ (by omega), htail, hsize⟩
  exact ⟨hused, by rw [hinv.unread_eq, hused]⟩

theorem Inv.head_eq (h : b.Inv) : b.head.toNat = (b.tail.toNat + b.used) % b.size.toNat :=
  (add_gap_mod h.tail_lt h.head_lt).symm

/-- The buffer after `write` of `xs`: the bytes are in the ring, `head_` is
past them, and `tail_` has moved to one past `head_` if they did not fit. -/
structure WriteTo (b b' : CircularBuffer) (xs : Bytes) : Prop where
  buf : Wrote b.buf b.size.toNat b.head.toNat xs b'.buf
  head : b'.head.toNat = (b.head.toNat + xs.length) % b.size.toNat
  tail : b'.tail.toNat = if b.used + xs.length ≤ b.size.toNat - 1 then b.tail.toNat
    else (b'.head.toNat + 1) % b.size.toNat
  size : b'.size = b.size
  destructorCall : b'.destructorCall = b.destructorCall

/-- **`write`** goes right, and says whether the bytes fitted. -/
theorem Inv.write_exact (h : b.Inv) (d : Chunk) :
    ∃ b', b.write d.bytes d.len
        = .ok (if b.used + d.bytes.length ≤ b.size.toNat - 1 then .bufNoError
               else .bufOverflow, b')
      ∧ WriteTo b b' d.bytes := by
  have hlen := d.len_toNat
  have hused := h.used_lt
  obtain ⟨buf', head', hrun, hhead', hwrote⟩ :=
    writeLoop_spec h.head_lt h.size_le d.bytes 0 (d.len.toNat + 2) d.len (by omega) (by omega)
  rw [List.drop_zero, hlen, List.take_length] at hwrote
  rw [hlen] at hhead'
  have hlt' : head'.toNat < b.size.toNat := by rw [hhead']; exact Nat.mod_lt _ h.size_pos
  have hover : (d.len > b.remainBytes) ↔ ¬ b.used + d.bytes.length ≤ b.size.toNat - 1 := by
    rw [gt_iff_lt, UInt32.lt_iff_toNat_lt, h.remainBytes_toNat, hlen]
    omega
  rw [write, hrun]
  by_cases hfits : b.used + d.bytes.length ≤ b.size.toNat - 1
  · have hno : ¬ d.len > b.remainBytes := fun hc => hover.mp hc hfits
    refine ⟨{ b with buf := buf', head := head' }, ?_,
      ⟨hwrote, hhead', (if_pos hfits).symm, rfl, rfl⟩⟩
    rw [if_pos hfits]
    simp only [Bind.bind, Except.bind, if_neg hno]
    rfl
  · have hyes : d.len > b.remainBytes := hover.mpr hfits
    have htail' : ((head' + 1) % b.size).toNat = (head'.toNat + 1) % b.size.toNat :=
      advance_toNat (Nat.succ_le_of_lt hlt')
    refine ⟨{ b with buf := buf', head := head', tail := (head' + 1) % b.size }, ?_,
      ⟨hwrote, hhead', by rw [if_neg hfits]; exact htail', rfl, rfl⟩⟩
    rw [if_neg hfits]
    simp only [Bind.bind, Except.bind, if_pos hyes]
    rw [rem32_eq_ok h.size_pos]
    rfl

theorem WriteTo.same {b' : CircularBuffer} {xs : Bytes} (hw : WriteTo b b' xs) : Same b b' :=
  ⟨hw.size, hw.buf.length, hw.destructorCall⟩

/-- `m` bytes are left between `tail_` and `head_`, by `Wrote.window_eq`. -/
theorem WriteTo.unread_of_distance {b' : CircularBuffer} {xs : Bytes} (hw : WriteTo b b' xs)
    (h : b.Inv) {m : Nat} (htail : b'.tail.toNat < b.size.toNat) (hm : m < b.size.toNat)
    (hmk : m ≤ b.used + xs.length)
    (hmod : (b'.tail.toNat + m) % b.size.toNat = b'.head.toNat) :
    b'.Inv ∧ b'.unread = (b.unread ++ xs).rtake m := by
  have hsize' : b'.size.toNat ≤ b'.buf.length := by
    rw [hw.size, hw.buf.length]
    exact h.size_le
  have htail' : b'.tail.toNat < b'.size.toNat := by rw [hw.size]; exact htail
  have hhead' : b'.head.toNat < b'.size.toNat := by
    rw [hw.size, hw.head]
    exact Nat.mod_lt _ h.size_pos
  have hun := (unread_of_gap htail' hsize' (by rw [hw.size]; exact hm)
    (by rw [hw.size]; exact hmod.symm)).2
  refine ⟨⟨hhead', htail', hsize'⟩, ?_⟩
  rw [hun, hw.size, h.unread_eq]
  exact hw.buf.window_eq h.size_le (Nat.le_of_lt h.used_lt) h.head_eq.symm (Nat.le_of_lt hm) hmk
    (hmod.trans hw.head)

/-- What a write leaves unread: the last `size_ - 1` bytes. -/
theorem WriteTo.unread {b' : CircularBuffer} {xs : Bytes} (hw : WriteTo b b' xs) (h : b.Inv) :
    b'.Inv ∧ b'.unread = (b.unread ++ xs).rtake (b.size.toNat - 1) := by
  have hused := h.used_lt
  have hhead := hw.head
  have htail := hw.tail
  by_cases hfits : b.used + xs.length ≤ b.size.toNat - 1
  -- `tail_` stays, and everything unread is still there
  · rw [if_pos hfits] at htail
    obtain ⟨hinv', hun⟩ := hw.unread_of_distance h (m := b.used + xs.length)
      (by rw [htail]; exact h.tail_lt) (by omega) le_rfl
      (by rw [htail, hhead, h.head_eq, Nat.mod_add_mod, Nat.add_assoc])
    have hl : (b.unread ++ xs).length = b.used + xs.length := by simp
    exact ⟨hinv', by rw [hun, rtake_of_length_le (by omega), rtake_of_length_le (by omega)]⟩
  -- `tail_` moves to one past `head_`: all cells but one are unread
  · rw [if_neg hfits] at htail
    have hlt : b'.head.toNat < b.size.toNat := by
      rw [hhead]
      exact Nat.mod_lt _ h.size_pos
    refine hw.unread_of_distance h (by rw [htail]; exact Nat.mod_lt _ h.size_pos) (by omega)
      (by omega) ?_
    rw [htail, Nat.mod_add_mod, show b'.head.toNat + 1 + (b.size.toNat - 1)
      = b'.head.toNat + b.size.toNat by omega, Nat.add_mod_right, Nat.mod_eq_of_lt hlt]

/-- **`write`** keeps the last `size_ - 1` bytes and says whether it had to
drop any. -/
theorem Inv.write_spec (h : b.Inv) (d : Chunk) :
    ∃ b', b.write d.bytes d.len
        = .ok (if b.used + d.bytes.length ≤ b.size.toNat - 1 then .bufNoError
               else .bufOverflow, b')
      ∧ b'.Inv ∧ Same b b'
      ∧ b'.unread = (b.unread ++ d.bytes).rtake (b.size.toNat - 1) := by
  obtain ⟨b', hrun, hw⟩ := h.write_exact d
  obtain ⟨hinv', hun⟩ := hw.unread h
  exact ⟨b', hrun, hinv', hw.same, hun⟩

/-- **`read`** of no more than is there hands over the first bytes and leaves
the rest. -/
theorem Inv.read_spec (h : b.Inv) (hd : b.destructorCall = false) (data : Bytes)
    (len timeout : UInt32) (hdata : data.length = len.toNat)
    (hlen : len.toNat ≤ b.used) :
    ∃ b', b.read data len timeout
        = .ok (.returns (.bufNoError, b.unread.take len.toNat) b')
      ∧ b'.Inv ∧ Same b b' ∧ b'.unread = b.unread.drop len.toNat := by
  have hused := h.used_lt
  obtain ⟨tail', hrun, htail'⟩ :=
    readLoop_spec h.tail_lt h.size_le data 0 (len.toNat + 2) len (by omega) (by omega)
      (by omega)
  have hsplit := window_append (t := b.tail.toNat) h.size_le hlen (Nat.le_of_lt hused)
  have hfirst : (window b.buf b.size.toNat b.tail.toNat len.toNat).length = len.toNat :=
    window_length h.size_le (by omega)
  rw [← h.unread_eq] at hsplit
  have htake : b.unread.take len.toNat
      = window b.buf b.size.toNat b.tail.toNat len.toNat := by
    rw [← hsplit]
    exact List.take_left' hfirst
  have hdrop : b.unread.drop len.toNat = window b.buf b.size.toNat
      ((b.tail.toNat + len.toNat) % b.size.toNat) (b.used - len.toNat) := by
    rw [← hsplit]
    exact List.drop_left' hfirst
  have hlt' : tail'.toNat < b.size.toNat := by rw [htail']; exact Nat.mod_lt _ h.size_pos
  have hhead : b.head.toNat = (tail'.toNat + (b.used - len.toNat)) % b.size.toNat := by
    rw [htail', Nat.mod_add_mod, h.head_eq]
    congr 1
    omega
  refine ⟨{ b with tail := tail' }, ?_, ⟨h.head_lt, hlt', h.size_le⟩, ⟨rfl, rfl, rfl⟩, ?_⟩
  · have hfree : b.checkFreeSpace len = true := (h.checkFreeSpace_iff hd len).mpr hlen
    have hcount : ¬ (b.count < len) := by
      rw [UInt32.lt_iff_toNat_lt, h.count_toNat]
      omega
    -- neither the wait nor the check after it holds it up
    rw [read, if_neg (by simp [hfree]), if_neg (by simp [hcount, hd]), hrun,
      overlay_whole (by rw [hfirst, hdata]), htake]
    rfl
  · have hk := (unread_of_gap (b := { b with tail := tail' }) hlt' h.size_le
      (show b.used - len.toNat < b.size.toNat by omega) hhead).2
    rw [hk, hdrop, ← htail']

/-- While there is too little, a read sleeps on, or times out with the whole
state as it was. -/
theorem read_of_not_free {len : UInt32} (hfree : b.checkFreeSpace len = false) (data : Bytes)
    (timeout : UInt32) :
    b.read data len timeout
      = .ok (if timeout = 0 then .waits else .returns (.bufTimeout, data) b) := by
  have hcount : b.count < len := by
    cases hd : b.destructorCall with
    | true => simp [checkFreeSpace, hd] at hfree
    | false => simpa [checkFreeSpace, hd] using hfree
  rw [read]
  by_cases ht : timeout = 0
  · rw [if_pos (by simp [hfree, ht]), if_pos ht]
  · rw [if_neg (by simp [ht]), if_pos (by simp [hcount]), if_neg ht]

theorem Inv.read_short (h : b.Inv) (hd : b.destructorCall = false) (data : Bytes)
    (len timeout : UInt32) (hlen : b.used < len.toNat) :
    b.read data len timeout
      = .ok (if timeout = 0 then .waits else .returns (.bufTimeout, data) b) := by
  apply read_of_not_free
  rw [Bool.eq_false_iff, ne_eq, h.checkFreeSpace_iff hd len]
  omega

theorem Inv.clearBuffer_spec (h : b.Inv) :
    b.clearBuffer.Inv ∧ Same b b.clearBuffer ∧ b.clearBuffer.unread = [] := by
  refine ⟨⟨h.size_pos, h.size_pos, h.size_le⟩, ⟨rfl, rfl, rfl⟩, ?_⟩
  have hzero : b.clearBuffer.used = 0 := by simp [used, clearBuffer, gap]
  rw [unread, hzero]
  rfl

/-- `read_next_byte` sleeps on an empty buffer and takes one byte otherwise. -/
theorem Inv.readNextByte_spec (h : b.Inv) (hd : b.destructorCall = false) :
    match b.unread with
    | [] => b.readNextByte = .ok .waits
    | c :: rest => ∃ b', b.readNextByte = .ok (.returns c b') ∧ b'.Inv ∧ Same b b'
        ∧ b'.unread = rest := by
  have h1 : (1 : UInt32).toNat = 1 := rfl
  have hlen := b.unread_length
  cases hq : b.unread with
  | nil =>
      rw [hq] at hlen
      have hshort := h.read_short hd [0] 1 0
        (by rw [h1, ← hlen]; exact Nat.zero_lt_one)
      rw [readNextByte, hshort]
      rfl
  | cons c rest =>
      rw [hq, List.length_cons] at hlen
      obtain ⟨b', hrun, hinv', hsame, hun⟩ :=
        h.read_spec hd [0] 1 0 rfl (by rw [h1]; omega)
      rw [h1, hq] at hrun hun
      refine ⟨b', ?_, hinv', hsame, hun⟩
      rw [readNextByte, hrun]
      rfl

/-- `get_all_bytes` drains the buffer, or throws when there is too much of it
for an `int`. -/
theorem Inv.getAllBytes_spec (h : b.Inv) (hd : b.destructorCall = false) :
    if 2 ^ 31 ≤ b.used then b.getAllBytes = .ok .throws
    else ∃ b', b.getAllBytes = .ok (.returns b.unread b') ∧ b'.Inv ∧ Same b b'
      ∧ b'.unread = [] := by
  have hcount := h.count_toNat
  have hbig : b.count ≥ 0x80000000 ↔ 2 ^ 31 ≤ b.used := by
    rw [ge_iff_le, UInt32.le_iff_toNat_le, hcount]
    rfl
  rw [getAllBytes]
  split
  · rename_i hge
    rw [if_pos (hbig.mpr hge)]
    rfl
  · rename_i hlt
    obtain ⟨b', hrun, hinv', hsame, hun⟩ :=
      h.read_spec hd (List.replicate b.count.toNat 0) b.count 0 (by simp) (by omega)
    have hall : b.count.toNat = b.unread.length := by rw [hcount, unread_length]
    rw [hall, List.take_length] at hrun
    rw [hall, List.drop_length] at hun
    refine ⟨b', ?_, hinv', hsame, hun⟩
    rw [if_neg (fun hc => hlt (hbig.mp hc)), hall, hrun]
    rfl

end CircularBuffer

end HpLib
