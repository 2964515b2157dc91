import HpLib.Lib.OnesComplement
import HpLib.Peripheral.Icmp

/-!
# What ping sends, and what it takes for an answer

A host answers an echo request when the ones' complement sum of its words is
all ones. `compute_checksum` makes it so, as long as its 32 bits do not run
over. The filter of `handle_receive` in turn checks no sum at all: what it
takes for an answer is said in `isEchoReply_iff`, byte by byte.
-/

namespace HpLib

open Lib OnesComplement

/-- The sum over the whole ICMP message is all ones. -/
def ChecksumOk (message : Bytes) : Prop :=
  Valid 65535 (words message)

theorem checksumOk_iff (message : Bytes) :
    ChecksumOk message ↔ (words message).sum % 65535 = 0 ∧ (words message).sum ≠ 0 :=
  valid_iff (by decide) (words_le message)

namespace IcmpHeader

/-! ## The loop over the body -/

theorem toNat_shiftLeft_eight (b : UInt8) : (b.toUInt32 <<< 8).toNat = b.toNat * 256 := by
  have hb := b.toNat_lt
  simp only [UInt32.toNat_shiftLeft, UInt8.toNat_toUInt32, UInt32.reduceToNat, Nat.reduceMod,
    Nat.shiftLeft_eq, Nat.reducePow]
  omega

/-- The loop adds the words up, in 32 bits. -/
theorem sumBody_toNat (sum : UInt32) (body : Bytes) :
    (sumBody sum body).toNat = (sum.toNat + (words body).sum) % 2 ^ 32 := by
  fun_induction sumBody sum body with
  | case1 sum =>
      have h := sum.toNat_lt
      rw [words, List.sum_nil, Nat.add_zero, Nat.mod_eq_of_lt h]
  | case2 sum b =>
      rw [UInt32.toNat_add, toNat_shiftLeft_eight, words, List.sum_cons, List.sum_nil,
        Nat.add_zero]
  | case3 sum b₀ b₁ body ih =>
      rw [ih, UInt32.toNat_add, UInt32.toNat_add, toNat_shiftLeft_eight, UInt8.toNat_toUInt32,
        words, List.sum_cons]
      omega

/-- The words that the header puts in beside the checksum. -/
def headerSum (h : IcmpHeader) : Nat :=
  h.type.toNat * 256 + h.code.toNat + h.identifier.toNat + h.sequenceNumber.toNat

theorem headerSum_le (h : IcmpHeader) : h.headerSum ≤ 3 * 65535 := by
  have ht := h.type.toNat_lt
  have hc := h.code.toNat_lt
  have hi := h.identifier.toNat_lt
  have hs := h.sequenceNumber.toNat_lt
  rw [headerSum]
  omega

/-- One fold is an end-around carry. -/
theorem toNat_fold (sum : UInt32) :
    ((sum >>> 16) + (sum &&& 0xFFFF)).toNat = carry 65535 sum.toNat := by
  have hlt := sum.toNat_lt
  have hand : (sum &&& 0xFFFF).toNat = sum.toNat % 65536 := by
    rw [UInt32.toNat_and]
    exact Nat.and_two_pow_sub_one_eq_mod sum.toNat 16
  rw [UInt32.toNat_add, UInt32.toNat_shiftRight, hand, carry]
  simp only [UInt32.reduceToNat, Nat.reduceMod, Nat.shiftRight_eq_div_pow, Nat.reducePow,
    Nat.reduceAdd]
  omega

/-- So is the second, once the result is cut to 16 bits and complemented. -/
theorem toNat_complement {sum : UInt32} (h : sum.toNat ≤ 2 * 65535) :
    (~~~(sum + (sum >>> 16))).toUInt16.toNat = 65535 - carry 65535 sum.toNat := by
  rw [UInt32.toNat_toUInt16, UInt32.toNat_not, UInt32.toNat_add, UInt32.toNat_shiftRight, carry]
  simp only [UInt32.reduceToNat, Nat.reduceMod, Nat.shiftRight_eq_div_pow, Nat.reducePow,
    Nat.reduceAdd, UInt32.size] at h ⊢
  omega

/-- The checksum is the complement of the word that counts for the sum, as
far as 32 bits hold it. -/
theorem computeChecksum_checksum (h : IcmpHeader) (body : Bytes) :
    ∃ r, (h.computeChecksum body).checksum.toNat = 65535 - r ∧
      Counts 65535 r ((h.headerSum + (words body).sum) % 2 ^ 32) := by
  have hstart : ((h.type.toUInt32 <<< 8) + h.code.toUInt32 + h.identifier.toUInt32
      + h.sequenceNumber.toUInt32).toNat = h.headerSum := by
    have hle := h.headerSum_le
    rw [headerSum] at hle ⊢
    rw [UInt32.toNat_add, UInt32.toNat_add, UInt32.toNat_add, toNat_shiftLeft_eight,
      UInt8.toNat_toUInt32, UInt16.toNat_toUInt32, UInt16.toNat_toUInt32]
    omega
  have hsum := sumBody_toNat ((h.type.toUInt32 <<< 8) + h.code.toUInt32 + h.identifier.toUInt32
    + h.sequenceNumber.toUInt32) body
  rw [hstart] at hsum
  rw [computeChecksum, ← hsum]
  generalize sumBody _ body = sum
  have hlt := sum.toNat_lt
  have hfold := toNat_fold sum
  have hle : carry 65535 sum.toNat ≤ 2 * 65535 := by
    rw [carry]
    omega
  refine ⟨carry 65535 (carry 65535 sum.toNat), ?_, Counts.carry_carry hle⟩
  rw [← hfold]
  exact toNat_complement (by rw [hfold]; exact hle)

/-! ## The whole message -/

theorem toNat_encode16 (n : UInt16) :
    (n >>> 8).toUInt8.toNat * 256 + n.toUInt8.toNat = n.toNat := by
  have hlt := n.toNat_lt
  simp only [UInt16.toNat_toUInt8, UInt16.toNat_shiftRight, UInt16.reduceToNat, Nat.reduceMod,
    Nat.shiftRight_eq_div_pow, Nat.reducePow] at hlt ⊢
  omega

theorem words_encode (h : IcmpHeader) (body : Bytes) :
    words (h.encode ++ body) = [h.type.toNat * 256 + h.code.toNat, h.checksum.toNat,
      h.identifier.toNat, h.sequenceNumber.toNat] ++ words body := by
  simp only [encode, encode16, List.cons_append, List.nil_append, words, toNat_encode16]

/-- The words of the message, with the checksum among them. -/
theorem sum_words_encode (h : IcmpHeader) (body : Bytes) :
    (words (h.encode ++ body)).sum = h.headerSum + (words body).sum + h.checksum.toNat := by
  rw [words_encode, headerSum]
  simp only [List.cons_append, List.nil_append, List.sum_cons]
  omega

@[simp] theorem headerSum_computeChecksum (h : IcmpHeader) (body : Bytes) :
    (h.computeChecksum body).headerSum = h.headerSum := rfl

/-- **`compute_checksum`** makes a valid message of every header and body,
except that each time its 32 bits run over it is one off. They do not for a
body that fits an IP packet, or one twice as long. -/
theorem computeChecksum_ok (h : IcmpHeader) (body : Bytes) :
    (ChecksumOk ((h.computeChecksum body).encode ++ body) ↔
        (h.headerSum + (words body).sum) / 2 ^ 32 % 65535 = 0) ∧
      (body.length ≤ 131068 → ChecksumOk ((h.computeChecksum body).encode ++ body)) := by
  obtain ⟨r, hsum, hr⟩ := h.computeChecksum_checksum body
  have hle := hr.le
  have hmod := hr.mod
  have hzero := hr.zero
  have hiff : ChecksumOk ((h.computeChecksum body).encode ++ body) ↔
      (h.headerSum + (words body).sum) / 2 ^ 32 % 65535 = 0 := by
    rw [checksumOk_iff, sum_words_encode, hsum, headerSum_computeChecksum]
    omega
  refine ⟨hiff, ?_⟩
  intro hlen
  rw [hiff]
  have hbody := sum_words_le body
  have hheader := h.headerSum_le
  rw [Nat.div_eq_of_lt (by omega)]

end IcmpHeader

/-- A word of a valid message that another one stands for. -/
theorem ChecksumOk.of_changed {before after : Bytes} {a₀ a₁ b₀ b₁ : UInt8}
    (hok : ChecksumOk (before ++ a₀ :: a₁ :: after)) (heven : before.length % 2 = 0)
    (hok' : ChecksumOk (before ++ b₀ :: b₁ :: after)) :
    (a₀ = b₀ ∧ a₁ = b₁) ∨ (a₀ = 0 ∧ a₁ = 0 ∧ b₀ = 0xFF ∧ b₁ = 0xFF) ∨
      (a₀ = 0xFF ∧ a₁ = 0xFF ∧ b₀ = 0 ∧ b₁ = 0) := by
  have hle := words_le (before ++ a₀ :: a₁ :: after)
  have ha₀ := a₀.toNat_lt
  have ha₁ := a₁.toNat_lt
  have hb₀ := b₀.toNat_lt
  have hb₁ := b₁.toNat_lt
  rw [ChecksumOk, words_append heven, words] at hok hok'
  rw [words_append heven, words] at hle
  by_contra hnot
  refine not_valid_of_changed (by decide) hle (by omega) hok ?_ ?_ ?_ hok'
  · intro heq
    exact hnot (.inl ⟨UInt8.toNat_inj.mp (by omega), UInt8.toNat_inj.mp (by omega)⟩)
  · rintro ⟨ha, hb⟩
    refine hnot (.inr (.inl ⟨?_, ?_, ?_, ?_⟩)) <;> apply UInt8.toNat_inj.mp <;>
      simp only [UInt8.reduceToNat] <;> omega
  · rintro ⟨ha, hb⟩
    refine hnot (.inr (.inr ⟨?_, ?_, ?_, ?_⟩)) <;> apply UInt8.toNat_inj.mp <;>
      simp only [UInt8.reduceToNat] <;> omega

/-- And one that stands for it. -/
theorem ChecksumOk.exchange {before after : Bytes} {a₀ a₁ b₀ b₁ : UInt8}
    (hok : ChecksumOk (before ++ a₀ :: a₁ :: after)) (heven : before.length % 2 = 0)
    (hbefore : (words before).sum ≠ 0)
    (hzeros : (a₀ = 0 ∧ a₁ = 0 ∧ b₀ = 0xFF ∧ b₁ = 0xFF) ∨
      (a₀ = 0xFF ∧ a₁ = 0xFF ∧ b₀ = 0 ∧ b₁ = 0)) :
    ChecksumOk (before ++ b₀ :: b₁ :: after) := by
  have hle := words_le (before ++ a₀ :: a₁ :: after)
  have hb₀ := b₀.toNat_lt
  have hb₁ := b₁.toNat_lt
  rw [ChecksumOk, words_append heven, words] at hok ⊢
  rw [words_append heven, words] at hle
  refine valid_of_exchanged (by decide) hle (by omega) hok hbefore ?_
  rcases hzeros with ⟨rfl, rfl, rfl, rfl⟩ | ⟨rfl, rfl, rfl, rfl⟩ <;> rfl

/-- The first word of a request is neither zero. -/
theorem words_before_ne_zero {identifier sequenceNumber : UInt16} {before after : Bytes}
    {a₀ a₁ : UInt8} (heven : before.length % 2 = 0) (hne : a₀ ≠ 8)
    (hpacket : echoRequestPacket identifier sequenceNumber = before ++ a₀ :: a₁ :: after) :
    (words before).sum ≠ 0 := by
  obtain ⟨rest, hrest⟩ : ∃ rest, echoRequestPacket identifier sequenceNumber = 8 :: rest := ⟨_, rfl⟩
  rw [hrest] at hpacket
  cases before with
  | nil => exact absurd (List.cons.inj hpacket).1.symm hne
  | cons b₀ before =>
      cases before with
      | nil => cases heven
      | cons b₁ before =>
          obtain rfl : 8 = b₀ := (List.cons.inj hpacket).1
          rw [words, List.sum_cons]
          simp only [UInt8.reduceToNat]
          omega

/-- **What ping sends** is valid for every identifier and sequence number,
and one word of it changed on the way makes it invalid, except that `0x0000`
and `0xFFFF` stand for each other. -/
theorem echoRequestPacket_guarded (identifier sequenceNumber : UInt16) :
    ChecksumOk (echoRequestPacket identifier sequenceNumber) ∧
      ∀ (before after : Bytes) (a₀ a₁ b₀ b₁ : UInt8), before.length % 2 = 0 →
        echoRequestPacket identifier sequenceNumber = before ++ a₀ :: a₁ :: after →
        (ChecksumOk (before ++ b₀ :: b₁ :: after) ↔
          (a₀ = b₀ ∧ a₁ = b₁) ∨ (a₀ = 0 ∧ a₁ = 0 ∧ b₀ = 0xFF ∧ b₁ = 0xFF) ∨
            (a₀ = 0xFF ∧ a₁ = 0xFF ∧ b₀ = 0 ∧ b₁ = 0)) := by
  have hok : ChecksumOk (echoRequestPacket identifier sequenceNumber) :=
    (IcmpHeader.computeChecksum_ok _ pingBody).2 (by decide)
  refine ⟨hok, ?_⟩
  intro before after a₀ a₁ b₀ b₁ heven hpacket
  rw [hpacket] at hok
  refine ⟨hok.of_changed heven, ?_⟩
  rintro (⟨rfl, rfl⟩ | hzeros)
  · exact hok
  · refine hok.exchange heven (words_before_ne_zero heven ?_ hpacket) hzeros
    rcases hzeros with ⟨rfl, -⟩ | ⟨rfl, -⟩ <;> decide

/-! ## What passes for an answer -/

theorem encode16_decode16 (a b : UInt8) : encode16 (decode16 a b) = [a, b] := by
  have ha := a.toNat_lt
  have hb := b.toNat_lt
  have hn : (decode16 a b).toNat = a.toNat * 256 + b.toNat := by
    simp only [decode16, UInt16.toNat_add, UInt16.toNat_shiftLeft, UInt8.toNat_toUInt16,
      UInt16.reduceToNat, Nat.shiftLeft_eq, Nat.reduceMod, Nat.reducePow]
    omega
  rw [encode16, List.cons.injEq, List.cons.injEq]
  refine ⟨?_, ?_, rfl⟩ <;> apply UInt8.toNat_inj.mp <;>
    simp only [UInt16.toNat_toUInt8, UInt16.toNat_shiftRight, UInt16.reduceToNat,
      Nat.shiftRight_eq_div_pow, Nat.reduceMod, Nat.reducePow, hn] <;> omega

theorem IcmpHeader.decode_eq_some {bytes : Bytes} {h : IcmpHeader} :
    decode bytes = some h ↔ ∃ body, bytes = h.encode ++ body := by
  constructor
  · intro hdec
    rw [decode.eq_def] at hdec
    split at hdec <;> cases hdec
    rename_i body
    refine ⟨body, ?_⟩
    simp only [encode, encode16_decode16, List.cons_append, List.nil_append]
  · rintro ⟨body, rfl⟩
    exact decode_encode h body

/-- The first byte of an IPv4 header of `ihl` words. -/
theorem first_byte_iff (first : UInt8) :
    ((first >>> 4) &&& 0xF = 4 ↔ first.toNat / 16 = 4) ∧
      (first &&& 0xF).toNat = first.toNat % 16 := by
  have hlt := first.toNat_lt
  have hand : ∀ b : UInt8, (b &&& 0xF).toNat = b.toNat % 16 := by
    intro b
    rw [UInt8.toNat_and]
    exact Nat.and_two_pow_sub_one_eq_mod b.toNat 4
  refine ⟨?_, hand first⟩
  rw [← UInt8.toNat_inj, hand, UInt8.toNat_shiftRight]
  simp only [UInt8.reduceToNat, Nat.shiftRight_eq_div_pow, Nat.reduceMod, Nat.reducePow]
  omega

/-- The header that `operator>>` takes off a packet. -/
structure IsIpv4Header (header : Bytes) : Prop where
  ihl : ∃ ihl, 5 ≤ ihl ∧ ihl ≤ 15 ∧ header.length = 4 * ihl ∧
    header.head? = some (UInt8.ofNat (0x40 + ihl))

theorem skipIpv4Header_eq_some {packet rest : Bytes} :
    skipIpv4Header packet = some rest ↔ ∃ header, IsIpv4Header header ∧ packet = header ++ rest := by
  constructor
  · intro hskip
    rw [skipIpv4Header.eq_def] at hskip
    split at hskip
    · cases hskip
    · rename_i first tail
      obtain ⟨hversion, hlow⟩ := first_byte_iff first
      have hlt := first.toNat_lt
      simp only [hlow, ne_eq, hversion] at hskip
      split at hskip
      · cases hskip
      split at hskip
      · cases hskip
      split at hskip
      · cases hskip
      split at hskip <;> cases hskip
      rename_i hfour hoptions hlength
      refine ⟨(first :: tail).take (first.toNat % 16 * 4),
        ⟨first.toNat % 16, by omega, by omega, ?_, ?_⟩, (List.take_append_drop ..).symm⟩
      · rw [List.length_take_of_le (by omega)]
        omega
      · rw [List.head?_take, if_neg (by omega), List.head?_cons]
        congr 1
        apply UInt8.toNat_inj.mp
        rw [UInt8.toNat_ofNat']
        omega
  · rintro ⟨header, ⟨ihl, hlo, hhi, hlen, hhead⟩, rfl⟩
    cases header with
    | nil => cases hhead
    | cons first tail =>
        rw [List.head?_cons, Option.some.injEq] at hhead
        obtain ⟨hversion, hlow⟩ := first_byte_iff first
        have hfirst : first.toNat = 64 + ihl := by
          rw [hhead, UInt8.toNat_ofNat']
          omega
        have hall : (first :: tail ++ rest).length = 4 * ihl + rest.length := by
          rw [List.length_append, hlen]
        have hihl : first.toNat % 16 * 4 = 4 * ihl := by omega
        show (if (first :: tail ++ rest).length < 20 then none
          else if (first >>> 4) &&& 0xF ≠ 4 then none
          else if (first &&& 0xF).toNat * 4 < 20 ∨ (first &&& 0xF).toNat * 4 - 20 > 40 then none
          else if (first :: tail ++ rest).length < (first &&& 0xF).toNat * 4 then none
          else some ((first :: tail ++ rest).drop ((first &&& 0xF).toNat * 4))) = some rest
        rw [hlow, hihl, if_neg (by omega), if_neg (by rw [ne_eq, hversion]; omega),
          if_neg (by omega), if_neg (by omega), ← hlen, List.drop_left]

/-- **What passes for an answer**: an IPv4 header with or without options and
behind it an echo reply with our identifier and the expected number. Its code,
its checksum, its body and the rest of the IPv4 header are never looked at. -/
theorem isEchoReply_iff (identifier sequenceNumber : UInt16) (packet : Bytes) :
    isEchoReply identifier sequenceNumber packet = true ↔
      ∃ (header : Bytes) (code : UInt8) (checksum : UInt16) (body : Bytes),
        IsIpv4Header header ∧
        packet = header ++ ((⟨IcmpHeader.echoReply, code, checksum, identifier,
          sequenceNumber⟩ : IcmpHeader).encode ++ body) := by
  constructor
  · intro hreply
    rw [isEchoReply] at hreply
    split at hreply
    · rename_i h hread
      obtain ⟨rest, hskip, hdec⟩ := Option.bind_eq_some_iff.mp hread
      obtain ⟨header, hheader, rfl⟩ := skipIpv4Header_eq_some.mp hskip
      obtain ⟨body, rfl⟩ := IcmpHeader.decode_eq_some.mp hdec
      simp only [Bool.and_eq_true, beq_iff_eq] at hreply
      obtain ⟨⟨htype, rfl⟩, rfl⟩ := hreply
      refine ⟨header, h.code, h.checksum, body, hheader, ?_⟩
      rw [← htype]
    · cases hreply
  · rintro ⟨header, code, checksum, body, hheader, rfl⟩
    rw [isEchoReply, readHeaders, skipIpv4Header_eq_some.mpr ⟨header, hheader, rfl⟩,
      Option.bind_some, IcmpHeader.decode_encode]
    simp

end HpLib
