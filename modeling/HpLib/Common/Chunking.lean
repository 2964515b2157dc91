import HpLib.Common.ByteQueue

/-!
# Write chunking does not matter

A byte string may reach the buffer in one `write` or cut into several, as
TCP delivers a stream. `WriteTo` determines the buffer after a write and
composes, so every cut leaves the same object, also when the bytes lap the
array or push out older ones half way.
-/

namespace HpLib.CircularBuffer

open Lib

variable {b b' b'' : CircularBuffer} {xs ys : Bytes}

/-- What was written determines the whole object. -/
theorem WriteTo.unique (h₁ : WriteTo b b' xs) (h₂ : WriteTo b b'' xs) : b' = b'' := by
  have hbuf := h₁.buf.unique h₂.buf
  have hhead : b'.head = b''.head := by
    apply UInt32.toNat_inj.mp
    rw [h₁.head, h₂.head]
  have htail : b'.tail = b''.tail := by
    apply UInt32.toNat_inj.mp
    rw [h₁.tail, h₂.tail, hhead]
  have hsize := h₁.size.trans h₂.size.symm
  have hcall := h₁.destructorCall.trans h₂.destructorCall.symm
  cases b'
  cases b''
  simp only at hbuf hhead htail hsize hcall
  subst hbuf hhead htail hsize hcall
  rfl

/-- Writing nothing. -/
theorem WriteTo.nil (h : b.Inv) : WriteTo b b [] where
  buf := Wrote.nil h.size_le
  head := (Nat.mod_eq_of_lt h.head_lt).symm
  tail := by
    have hused := h.used_lt
    rw [if_pos]
    simp only [List.length_nil]
    omega
  size := rfl
  destructorCall := rfl

/-- How much is unread after a write. -/
theorem WriteTo.used (hw : WriteTo b b' xs) (h : b.Inv) :
    b'.used = min (b.size.toNat - 1) (b.used + xs.length) := by
  rw [← unread_length, (hw.unread h).2, rtake_length, List.length_append, unread_length]

/-- **Two writes are one.** If the first one overflows, so does the whole,
and `tail_` ends one past `head_` either way. -/
theorem WriteTo.append (h : b.Inv) (h₁ : WriteTo b b' xs) (h₂ : WriteTo b' b'' ys) :
    WriteTo b b'' (xs ++ ys) := by
  have hused := h₁.used h
  have hlt := h.used_lt
  have hlen : (xs ++ ys).length = xs.length + ys.length := List.length_append
  have hhead : b''.head.toNat = (b.head.toNat + (xs ++ ys).length) % b.size.toNat := by
    rw [h₂.head, h₁.head, h₁.size, Nat.mod_add_mod, hlen, Nat.add_assoc]
  refine ⟨?_, hhead, ?_, h₂.size.trans h₁.size, h₂.destructorCall.trans h₁.destructorCall⟩
  · have hbuf := h₂.buf
    rw [h₁.size, h₁.head] at hbuf
    exact h₁.buf.append hbuf
  · have htail := h₂.tail
    rw [h₁.size, h₁.tail, hused] at htail
    rw [htail, hlen]
    by_cases hfits : b.used + xs.length ≤ b.size.toNat - 1
    · rw [if_pos hfits, Nat.min_eq_right hfits, Nat.add_assoc]
    · rw [if_neg hfits, if_neg (show ¬ b.used + (xs.length + ys.length) ≤ b.size.toNat - 1 by omega),
        Nat.min_eq_left (by omega)]
      by_cases hys : ys.length = 0
      -- nothing more comes, and `head_` stays where the first write left it
      · have hsame : b''.head.toNat = b'.head.toNat := by
          rw [hhead, h₁.head, hlen, hys, Nat.add_zero]
        rw [if_pos (by omega), hsame]
      · rw [if_neg (by omega)]

/-- `write` of one chunk. -/
def writeChunk (b : CircularBuffer) (c : Chunk) : Except Fault (BufferError × CircularBuffer) :=
  b.write c.bytes c.len

/-- The chunks one after the other: they are written as one string, and one
of them overflows if and only if all of them together do not fit. -/
theorem Inv.writeChunks (h : b.Inv) (cs : List Chunk) :
    ∃ rets b', execCalls writeChunk b cs = .ok (rets, b')
      ∧ WriteTo b b' (cs.map Chunk.bytes).flatten
      ∧ (.bufOverflow ∈ rets
          ↔ ¬ b.used + (cs.map Chunk.bytes).flatten.length ≤ b.size.toNat - 1) := by
  induction cs generalizing b with
  | nil =>
      have hlt := h.used_lt
      refine ⟨[], b, rfl, WriteTo.nil h, ?_⟩
      simp only [List.not_mem_nil, List.map_nil, List.flatten_nil, List.length_nil, false_iff,
        not_not]
      omega
  | cons c cs ih =>
      obtain ⟨b₁, hrun, hw⟩ := h.write_exact c
      obtain ⟨rets, b', hrest, hw', hover⟩ := ih (hw.unread h).1
      refine ⟨(if b.used + c.bytes.length ≤ b.size.toNat - 1 then .bufNoError
        else .bufOverflow) :: rets, b', ?_, hw.append h hw', ?_⟩
      · rw [execCalls, writeChunk, hrun]
        simp only [hrest]
      · rw [List.map_cons, List.flatten_cons, List.length_append, List.mem_cons, hover, hw.used h,
          hw.size]
        by_cases hfits : b.used + c.bytes.length ≤ b.size.toNat - 1
        · rw [if_pos hfits, Nat.min_eq_right hfits]
          simp only [reduceCtorEq, false_or]
          omega
        · rw [if_neg hfits]
          simp only [true_or, true_iff]
          omega

/-- **However a string is cut, the buffer ends up the same.** In every state
that calls on a buffer of size `n` lead to, the chunks of `d` written one
after the other leave the object that one write of `d` leaves, and one of
them reports an overflow if and only if that write does. -/
theorem writeChunks_eq_write (n : UInt32) (hn : 1 ≤ n.toNat) (calls : List QueueCall)
    {replies : List Reply} {b : CircularBuffer}
    (hreach : execCalls queueCall (new n) calls = .ok (replies, b)) (d : Chunk)
    (cs : List Chunk) (hcut : (cs.map Chunk.bytes).flatten = d.bytes) :
    ∃ ret rets b', b.write d.bytes d.len = .ok (ret, b')
      ∧ execCalls writeChunk b cs = .ok (rets, b')
      ∧ (.bufOverflow ∈ rets ↔ ret = .bufOverflow) := by
  obtain ⟨b₀, hrun, hholds⟩ := calls_refine hn calls
  rw [hreach] at hrun
  cases hrun
  obtain ⟨b₁, hwrite, hw₁⟩ := hholds.inv.write_exact d
  obtain ⟨rets, b₂, hchunks, hw₂, hover⟩ := hholds.inv.writeChunks cs
  rw [hcut] at hw₂ hover
  rw [← hw₁.unique hw₂] at hchunks
  refine ⟨_, rets, b₁, hwrite, hchunks, hover.trans ?_⟩
  by_cases hfits : b.used + d.bytes.length ≤ b.size.toNat - 1
  · simp [hfits]
  · simp [hfits]

/-- Six bytes into a ring of four cells that holds one, as two, none and four. -/
theorem writeChunks_eq_write_four : ∃ b, execCalls queueCall (new 4)
      [.write ⟨[9], by decide⟩] = .ok ([.wrote .bufNoError], b) ∧
    ∃ ret rets b', b.write [1, 2, 3, 4, 5, 6] 6 = .ok (ret, b')
      ∧ execCalls writeChunk b [⟨[1, 2], by decide⟩, ⟨[], by decide⟩, ⟨[3, 4, 5, 6], by decide⟩]
        = .ok (rets, b')
      ∧ (.bufOverflow ∈ rets ↔ ret = .bufOverflow) := by
  obtain ⟨b, hreach⟩ : ∃ b, execCalls queueCall (new 4) [.write ⟨[9], by decide⟩]
      = .ok ([.wrote .bufNoError], b) := ⟨_, rfl⟩
  exact ⟨b, hreach, writeChunks_eq_write 4 (by decide) _ hreach
    ⟨[1, 2, 3, 4, 5, 6], by decide⟩ _ rfl⟩

end HpLib.CircularBuffer
