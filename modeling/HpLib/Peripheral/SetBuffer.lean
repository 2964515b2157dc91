import HpLib.Peripheral.TcpClient

/-!
# Does a client keep its unread bytes?

`set_buffer` of `peripheral/src/tcp_client.cc`. The parameter is called
`buffer` and the member `buffer_`; the bytes that are carried over are those
of the parameter, so the new buffer gets its own bytes back and the unread
ones of the old buffer are gone.
-/

namespace HpLib

open Lib CircularBuffer

namespace TCPClient

/-- `set_buffer`. `none` says that `get_all_bytes` threw. Nothing reads the
`buffer_is_mine_` that is set where there was no buffer. -/
def setBuffer (c : TCPClient) (buffer : CircularBuffer) : Except Fault (Option TCPClient) :=
  match c.buffer with
  | none => return some { c with buffer := some buffer }
  | some _ => do
      match ← buffer.getAllBytes with
      | .returns allData buffer =>
          let (_, buffer) ← buffer.write allData (UInt32.ofNat allData.length)
          return some { c with buffer := some buffer }
      | .waits | .throws => return none

/-- Receives that complete one after the other. -/
def receiveAll (c : TCPClient) : List Received → Except Fault TCPClient
  | [] => return c
  | d :: ds => do
      let h ← c.handleReadData false d
      h.client.receiveAll ds

/-- `c` reads from what has become of `b`, its own buffer of size `n`. There
`q` stands in one piece among the bytes `p`, and what is received later, as
long as it fits, stands behind. -/
structure TakesOver (c : TCPClient) (b : CircularBuffer) (n : UInt32) (q p : Bytes)
    (b' : CircularBuffer) : Prop where
  buffer : c.buffer = some b'
  same : Same b b'
  unread : ∃ p₁ p₂, p = p₁ ++ p₂ ∧ b'.unread = p₁ ++ q ++ p₂
  later : c.doBufferData = true → ∀ ds : List Received,
    b'.unread.length + (ds.flatMap (·.bytes)).length ≤ n.toNat - 1 →
      ∃ c' b'', c.receiveAll ds = .ok c' ∧ c'.buffer = some b'' ∧
        b''.unread = b'.unread ++ ds.flatMap (·.bytes)

/-- `set_buffer(b)` keeps the unread bytes `q` of the old buffer and `p` of
the new one. -/
def KeepsUnread (c : TCPClient) (b : CircularBuffer) (n : UInt32) (q p : Bytes) : Prop :=
  ∃ c' b', c.setBuffer b = .ok (some c') ∧ c'.TakesOver b n q p b'

variable {c : TCPClient} {n : UInt32} {b b₀ : CircularBuffer} {p : BoundedQueue UInt8 (n.toNat - 1)}

/-- Where there was a buffer, the new one gets its own bytes back. -/
theorem setBuffer_spec (hc : c.buffer = some b₀) (h : Holds n b p) :
    if 2 ^ 31 ≤ p.items.length then c.setBuffer b = .ok none
    else ∃ b', c.setBuffer b = .ok (some { c with buffer := some b' }) ∧ Holds n b' p := by
  have hall := h.inv.getAllBytes_spec h.alive
  rw [h.used, h.unread] at hall
  rw [setBuffer, hc]
  split
  · rename_i hbig
    rw [if_pos hbig] at hall
    simp only [hall]
    rfl
  · rename_i hsmall
    rw [if_neg hsmall] at hall
    obtain ⟨b₁, hrun, hinv, hsame, hempty⟩ := hall
    have hdrained : Holds n b₁ .empty := h.next hinv hsame hempty
    have hbound := p.bound
    have hn := n.toNat_lt
    obtain ⟨b₂, hwrite, hheld⟩ := hdrained.write ⟨p.items, by omega⟩
    rw [p.empty_push] at hheld
    refine ⟨b₂, ?_, hheld⟩
    have hwrite' : b₁.write p.items (UInt32.ofNat p.items.length) = _ := hwrite
    simp only [hrun]
    show (b₁.write p.items (UInt32.ofNat p.items.length) >>= _) = _
    rw [hwrite']
    rfl

/-- Receives that fit are appended. -/
theorem receiveAll_spec (hdo : c.doBufferData = true) (hc : c.buffer = some b) (h : Holds n b p)
    (ds : List Received)
    (hfits : p.items.length + (ds.flatMap (·.bytes)).length ≤ n.toNat - 1) :
    ∃ c' b', c.receiveAll ds = .ok c' ∧ c'.buffer = some b' ∧
      b'.unread = p.items ++ ds.flatMap (·.bytes) := by
  induction ds generalizing c b p with
  | nil => exact ⟨c, b, rfl, hc, by rw [h.unread, List.flatMap_nil, List.append_nil]⟩
  | cons d ds ih =>
      rw [List.flatMap_cons, List.length_append] at hfits
      obtain ⟨b₁, hwrite, hheld⟩ := h.write d.chunk
      have hpush : (p.push d.bytes).items = p.items ++ d.bytes :=
        BoundedQueue.push_items_of_fits (by omega)
      have hrun : c.handleReadData false d = .ok
          { client := { c with buffer := some b₁,
                               receiveSize := c.receiveSize + UInt64.ofNat d.bytes.length },
            signals := [.dataReceived d.bytes], rearmed := true } := by
        rw [handleReadData, bufferData, if_pos hdo, hc]
        simp only [← Received.chunk_bytes, hwrite]
        rfl
      obtain ⟨c', b', hrest, hc', hun⟩ := ih (p := p.push d.bytes)
        (c := { c with buffer := some b₁,
                       receiveSize := c.receiveSize + UInt64.ofNat d.bytes.length })
        hdo rfl hheld (by rw [hpush, List.length_append]; omega)
      refine ⟨c', b', ?_, hc', ?_⟩
      · rw [receiveAll, hrun]
        exact hrest
      · rw [hun, hpush, List.flatMap_cons, List.append_assoc]

/-- **Are the unread bytes kept?** For every client with a buffer and every
new buffer, whether there is room for both or not. -/
theorem keepsUnread_iff (hc : c.buffer = some b₀) (h : Holds n b p) :
    c.KeepsUnread b n b₀.unread b.unread ↔ b₀.unread = [] ∧ b.unread.length < 2 ^ 31 := by
  have hspec := setBuffer_spec hc h
  rw [h.unread]
  constructor
  · rintro ⟨c', b', hrun, htakes⟩
    split at hspec
    · rw [hspec] at hrun
      cases hrun
    · rename_i hsmall
      obtain ⟨b₁, hset, hheld⟩ := hspec
      rw [hset] at hrun
      cases hrun
      cases htakes.buffer
      obtain ⟨p₁, p₂, hp, hun⟩ := htakes.unread
      -- what has come back are the bytes of the new buffer alone
      have hlen := congrArg List.length hun
      rw [hheld.unread, hp] at hlen
      simp only [List.length_append] at hlen
      exact ⟨List.eq_nil_of_length_eq_zero (by omega), by omega⟩
  · rintro ⟨hq, hsmall⟩
    rw [if_neg (Nat.not_le_of_lt hsmall)] at hspec
    obtain ⟨b₁, hset, hheld⟩ := hspec
    refine ⟨_, b₁, hset, rfl, ?_, ?_, ?_⟩
    · exact ⟨hheld.size.trans h.size.symm, hheld.extent.trans h.extent.symm,
        hheld.alive.trans h.alive.symm⟩
    · exact ⟨p.items, [], (List.append_nil _).symm,
        by rw [hheld.unread, hq, List.append_nil, List.append_nil]⟩
    · intro hdo ds hfits
      rw [hheld.unread] at hfits ⊢
      exact receiveAll_spec hdo rfl hheld ds hfits

/-- A client that has received nothing. -/
theorem keepsUnread_nothing : ∃ b : CircularBuffer, b.unread = [1, 2] ∧
    (initializeClient 0 true).KeepsUnread b 8 (CircularBuffer.new bufferSize).unread b.unread := by
  obtain ⟨b, hb⟩ := exists_holds (n := 8) (by decide) ⟨[1, 2], by decide⟩
  have hun : b.unread = [1, 2] := hb.unread
  refine ⟨b, hun, (keepsUnread_iff rfl hb).mpr ⟨rfl, ?_⟩⟩
  rw [hun]
  decide

/-- One byte unread, and an empty new buffer of eight. -/
theorem unread_byte_lost :
    ¬ ∀ (c : TCPClient) (b₀ b : CircularBuffer) (n₀ n : UInt32)
        (q : BoundedQueue UInt8 (n₀.toNat - 1)) (p : BoundedQueue UInt8 (n.toNat - 1)),
      c.buffer = some b₀ → Holds n₀ b₀ q → Holds n b p →
      q.items.length + p.items.length ≤ n.toNat - 1 →
        c.KeepsUnread b n b₀.unread b.unread := by
  intro hall
  have hnew : Holds 8 (CircularBuffer.new 8) .empty := Holds.new (by decide)
  obtain ⟨b₀, h₀⟩ := exists_holds (n := 8) (by decide) ⟨[1], by decide⟩
  let c : TCPClient := { initializeClient 0 true with buffer := some b₀ }
  obtain ⟨c', b', hrun, htakes⟩ := hall c b₀ _ 8 8 _ _ rfl h₀ hnew (by decide)
  have hspec := setBuffer_spec (c := c) rfl hnew
  rw [if_neg (by decide)] at hspec
  obtain ⟨b₁, hset, hheld⟩ := hspec
  rw [hset] at hrun
  cases hrun
  cases htakes.buffer
  obtain ⟨p₁, p₂, -, hun⟩ := htakes.unread
  have hold : b₀.unread = [1] := h₀.unread
  have hlen := congrArg List.length hun
  rw [hheld.unread, hold, List.length_append, List.length_append, BoundedQueue.empty_items,
    List.length_nil, List.length_singleton] at hlen
  omega

end TCPClient

end HpLib
