import HpLib.Peripheral.TcpClient

/-!
# Does a client's buffer change its size?

`set_buffer_size` of `peripheral/src/tcp_client.cc`. Its test for null is the
wrong way round: with a buffer it stores the number in `buffer_size_`, which
nothing reads after `initialize`, and without one it follows the null pointer.
So the buffer goes on as `initialize` made it, whatever size is asked for.

The client is called from outside: a receive completes, one of the three reads
is called, or `do_buffer_data`. What such calls should see is `clientSpec`, a
bounded byte queue that is filled only while the client buffers.
-/

namespace HpLib

open Lib CircularBuffer

/-- What goes on at a client, one call after the other. -/
inductive ClientCall where
  | receive (d : Received)
  | readNextBytes (data : Chunk) (timeout : UInt32)
  | readNextByte
  | readAllBytes
  | doBufferData (state : Bool)
  deriving DecidableEq

namespace TCPClient

/-- `read_next_byte`, a read of one byte into an uninitialised local. With a
packet structure it sleeps until there is none. -/
def readNextByte (c : TCPClient) : Except Fault (Reply × TCPClient) :=
  match c.buffer with
  | none => return (.waits, c)
  | some b =>
      if c.hasPacketStructure then
        return (.waits, c)
      else do
        match ← b.read [0] 1 0 with
        | .returns (.bufNoError, [data]) b' => return (.byte data, { c with buffer := some b' })
        | .returns _ _ => .error .uninitialised
        | .waits => return (.waits, c)
        | .throws => return (.throws, c)

def readAllBytes (c : TCPClient) : Except Fault (Reply × TCPClient) :=
  match c.buffer with
  | none => return (.bytes [], c)
  | some b =>
      if c.hasPacketStructure then
        return (.bytes [], c)
      else do
        match ← b.getAllBytes with
        | .returns data b' => return (.bytes data, { c with buffer := some b' })
        | .waits => return (.waits, c)
        | .throws => return (.throws, c)

/-- `do_buffer_data`. -/
def setDoBufferData (c : TCPClient) (state : Bool) : TCPClient :=
  { c with doBufferData := state }

def call (c : TCPClient) : ClientCall → Except Fault (Reply × TCPClient)
  | .receive d => do
      let h ← c.handleReadData false d
      return (.done, h.client)
  | .readNextBytes data timeout => do
      match ← c.readNextBytes data.bytes data.len timeout with
      | some ((ret, bytes), c') => return (.read ret bytes, c')
      | none => return (.waits, c)
  | .readNextByte => c.readNextByte
  | .readAllBytes => c.readAllBytes
  | .doBufferData state => return (.done, c.setDoBufferData state)

/-- The write that a receive of `d` would make overflows. -/
def Overflows (c : TCPClient) (d : Received) : Prop :=
  c.doBufferData = true ∧
    ∃ b b', c.buffer = some b ∧ b.write d.bytes d.chunk.len = .ok (.bufOverflow, b')

end TCPClient

/-- A client with its `buffer_size_`. -/
structure SizedClient extends TCPClient where
  bufferSize : UInt64

/-- `set_buffer_size`. -/
def SizedClient.setBufferSize (c : SizedClient) (sizeBytes : UInt64) : Except Fault SizedClient :=
  if c.buffer.isSome then
    return { c with bufferSize := sizeBytes }
  else
    match c.buffer with
    | none => .error .nullDeref
    | some b => return { c with buffer := some (b.setNewBufferSize sizeBytes.toNat) }

/-! ## What a resized client should do -/

/-- The calls on a bounded byte queue. The flag is `do_buffer_data_`. -/
def clientSpec (cap : Nat) (t : Bool × BoundedQueue UInt8 cap) :
    ClientCall → Reply × (Bool × BoundedQueue UInt8 cap)
  | .receive d => (.done, t.1, if t.1 then t.2.push d.bytes else t.2)
  | .readNextBytes data timeout =>
      ((queueSpec cap t.2 (.read data timeout)).1, t.1, (queueSpec cap t.2 (.read data timeout)).2)
  | .readNextByte =>
      ((queueSpec cap t.2 .readNextByte).1, t.1, (queueSpec cap t.2 .readNextByte).2)
  | .readAllBytes =>
      ((queueSpec cap t.2 .getAllBytes).1, t.1, (queueSpec cap t.2 .getAllBytes).2)
  | .doBufferData state => (.done, state, t.2)

/-- Whatever is called on `c`, its buffer behaves as the queue `q`, and what
overflows is what leaves more than `cap` bytes unread. -/
def TCPClient.BehavesAs (c : TCPClient) {cap : Nat} (q : BoundedQueue UInt8 cap) : Prop :=
  ∀ calls, ∃ c' b',
    execCalls TCPClient.call c calls
        = .ok ((runCalls (clientSpec cap) (c.doBufferData, q) calls).1, c') ∧
      c'.buffer = some b' ∧
      b'.unread = (runCalls (clientSpec cap) (c.doBufferData, q) calls).2.2.items ∧
      ∀ d, c'.Overflows d ↔
        c'.doBufferData = true ∧ cap < b'.unread.length + d.bytes.length

/-- `set_buffer_size(s)` goes right, keeps the last `s - 1` unread bytes, and
makes the buffer one of that capacity. -/
def SizedClient.ResizeWorks (c : SizedClient) (s : UInt64) : Prop :=
  ∃ c' b b', c.setBufferSize s = .ok c' ∧ c.buffer = some b ∧ c'.buffer = some b' ∧
    b'.unread = b.unread.rtake (s.toNat - 1) ∧
    c'.BehavesAs ((BoundedQueue.empty : BoundedQueue UInt8 (s.toNat - 1)).push b.unread)

namespace TCPClient

/-! ## What it does -/

/-- The client reads for itself, and its buffer holds the queue. -/
structure Holding (c : TCPClient) (t : Bool × Queue) : Prop where
  doBufferData : c.doBufferData = t.1
  noStructure : c.hasPacketStructure = false
  holds : ∃ b, c.buffer = some b ∧ Holds bufferSize b t.2

variable {c : TCPClient} {t : Bool × Queue}

theorem Holding.initial (idCounter : Nat) (isConnected : Bool) :
    (initializeClient idCounter isConnected).Holding (true, .empty) where
  doBufferData := rfl
  noStructure := rfl
  holds := ⟨_, rfl, Holds.new (by decide)⟩

/-- A call on the buffer changes nothing else. -/
theorem Holding.next (h : c.Holding t) {b : CircularBuffer} {q : Queue}
    (hb : Holds bufferSize b q) : { c with buffer := some b }.Holding (t.1, q) :=
  ⟨h.doBufferData, h.noStructure, b, rfl, hb⟩

theorem Holding.receive (h : c.Holding t) (d : Received) :
    ∃ c', c.call (.receive d) = .ok (.done, c') ∧
      c'.Holding (t.1, if t.1 then t.2.push d.bytes else t.2) := by
  obtain ⟨b, hb, hholds⟩ := h.holds
  cases ht : t.1 with
  | true =>
      have hdo : c.doBufferData = true := h.doBufferData.trans ht
      obtain ⟨c', hrun, hbuf, -, -, hno⟩ := Buffers.receive ⟨hdo, b, hb, hholds⟩ d
      refine ⟨c', ?_, hbuf.doBufferData, hno.trans h.noStructure, hbuf.holds⟩
      rw [call, hrun]
      rfl
  | false =>
      have hdo : c.doBufferData = false := h.doBufferData.trans ht
      refine ⟨{ c with receiveSize := c.receiveSize + UInt64.ofNat d.bytes.length }, ?_, hdo,
        h.noStructure, b, hb, hholds⟩
      rw [call, handleReadData, bufferData, hdo]
      rfl

/-- The client gets as far as its buffer. -/
theorem Holding.reads (h : c.Holding t) : ¬ c.hasPacketStructure = true := by
  rw [h.noStructure]
  nofun

theorem Holding.readNextBytes (h : c.Holding t) (data : Chunk) (timeout : UInt32) :
    ∃ c', c.call (.readNextBytes data timeout)
        = .ok ((queueSpec _ t.2 (.read data timeout)).1, c') ∧
      c'.Holding (t.1, (queueSpec _ t.2 (.read data timeout)).2) := by
  obtain ⟨b, hb, hholds⟩ := h.holds
  rw [call, TCPClient.readNextBytes, hb, queueSpec]
  simp only
  rw [if_neg h.reads]
  split
  · rename_i hle
    obtain ⟨b', hrun, hheld⟩ := hholds.read data timeout hle
    rw [hrun]
    exact ⟨_, rfl, h.next hheld⟩
  · rename_i hgt
    rw [hholds.read_short data timeout (Nat.lt_of_not_le hgt)]
    split
    · exact ⟨c, rfl, h.doBufferData, h.noStructure, b, hb, hholds⟩
    · exact ⟨_, rfl, h.next hholds⟩

theorem Holding.readNextByte (h : c.Holding t) :
    ∃ c', c.call .readNextByte = .ok ((queueSpec _ t.2 .readNextByte).1, c') ∧
      c'.Holding (t.1, (queueSpec _ t.2 .readNextByte).2) := by
  obtain ⟨b, hb, hholds⟩ := h.holds
  rw [call, TCPClient.readNextByte, hb, queueSpec]
  simp only
  rw [if_neg h.reads]
  split
  · rename_i hnone
    have hshort := hholds.read_short ⟨[0], by decide⟩ 0 (by rw [hnone]; exact Nat.zero_lt_one)
    refine ⟨c, ?_, h.doBufferData, h.noStructure, b, hb, hholds⟩
    show (b.read [0] 1 0 >>= _) = _
    rw [show b.read [0] 1 0 = _ from hshort]
    rfl
  · rename_i byte rest hsome
    obtain ⟨b', hrun, hheld⟩ := hholds.read ⟨[0], by decide⟩ 0
      (by rw [hsome]; exact Nat.succ_le_succ (Nat.zero_le _))
    rw [hsome] at hrun
    refine ⟨{ c with buffer := some b' }, ?_, h.next hheld⟩
    show (b.read [0] 1 0 >>= _) = _
    rw [show b.read [0] 1 0 = _ from hrun]
    rfl

theorem Holding.readAllBytes (h : c.Holding t) :
    ∃ c', c.call .readAllBytes = .ok ((queueSpec _ t.2 .getAllBytes).1, c') ∧
      c'.Holding (t.1, (queueSpec _ t.2 .getAllBytes).2) := by
  obtain ⟨b, hb, hholds⟩ := h.holds
  have hspec := hholds.inv.getAllBytes_spec hholds.alive
  rw [hholds.used, hholds.unread] at hspec
  rw [call, TCPClient.readAllBytes, hb, queueSpec]
  simp only
  rw [if_neg h.reads]
  split
  · rename_i hbig
    rw [if_pos hbig] at hspec
    rw [hspec]
    exact ⟨c, rfl, h.doBufferData, h.noStructure, b, hb, hholds⟩
  · rename_i hsmall
    rw [if_neg hsmall] at hspec
    obtain ⟨b', hrun, hinv, hsame, hempty⟩ := hspec
    rw [hrun]
    refine ⟨_, rfl, h.next (hholds.next hinv hsame ?_)⟩
    rw [hempty, BoundedQueue.pop_items, List.drop_length]

/-- **One call** does on the client what it does on the queue. -/
theorem Holding.call (h : c.Holding t) (a : ClientCall) :
    ∃ c', c.call a = .ok ((clientSpec _ t a).1, c') ∧ c'.Holding (clientSpec _ t a).2 := by
  cases a with
  | receive d => exact h.receive d
  | readNextBytes data timeout => exact h.readNextBytes data timeout
  | readNextByte => exact h.readNextByte
  | readAllBytes => exact h.readAllBytes
  | doBufferData state => exact ⟨_, rfl, rfl, h.noStructure, h.holds⟩

/-- So does every sequence of calls. -/
theorem Holding.calls (h : c.Holding t) (calls : List ClientCall) :
    ∃ c', execCalls TCPClient.call c calls = .ok ((runCalls (clientSpec _) t calls).1, c') ∧
      c'.Holding (runCalls (clientSpec _) t calls).2 :=
  execCalls_refines (R := Holding) (fun _ _ a h => h.call a) h calls

theorem holding_of_calls {idCounter : Nat} {isConnected : Bool} {calls : List ClientCall}
    {replies : List Reply}
    (hrun : execCalls TCPClient.call (initializeClient idCounter isConnected) calls
      = .ok (replies, c)) : ∃ t, c.Holding t := by
  obtain ⟨c', hrun', h⟩ := (Holding.initial idCounter isConnected).calls calls
  rw [hrun] at hrun'
  cases hrun'
  exact ⟨_, h⟩

/-- What overflows is what `initialize` made no room for. -/
theorem Holding.overflows_iff (h : c.Holding t) (d : Received) :
    c.Overflows d ↔ c.doBufferData = true ∧
      bufferSize.toNat - 1 < t.2.items.length + d.bytes.length := by
  obtain ⟨b, hb, hholds⟩ := h.holds
  obtain ⟨b', hwrite, -⟩ := hholds.write d.chunk
  rw [Received.chunk_bytes] at hwrite
  rw [Overflows]
  refine and_congr_right fun _ => ?_
  constructor
  · rintro ⟨b₁, b₂, hb₁, hover⟩
    rw [hb] at hb₁
    cases hb₁
    rw [hwrite] at hover
    split at hover
    · cases hover
    · rename_i hgt
      exact Nat.lt_of_not_le hgt
  · intro hlt
    rw [if_neg (Nat.not_le_of_lt hlt)] at hwrite
    exact ⟨b, b', hb, hwrite⟩

/-- A client behaves as a queue of the capacity it was made with. -/
theorem Holding.behavesAs (h : c.Holding t) {cap : Nat} (hcap : cap = bufferSize.toNat - 1)
    {q : BoundedQueue UInt8 cap} (hq : q.items = t.2.items) : c.BehavesAs q := by
  subst hcap
  have ht : t = (c.doBufferData, q) := by
    ext1
    · exact h.doBufferData.symm
    · exact BoundedQueue.ext hq.symm
  intro calls
  obtain ⟨c', hrun, h'⟩ := h.calls calls
  obtain ⟨b', hb', hholds⟩ := h'.holds
  rw [← ht]
  refine ⟨c', b', hrun, hb', hholds.unread, fun d => ?_⟩
  rw [hholds.unread]
  exact h'.overflows_iff d

/-- It behaves as no queue of another capacity: as long as nothing is lost,
what is received next fills the smaller of the two and one byte more. -/
theorem Holding.capacity_eq (h : c.Holding t) {cap : Nat} {q : BoundedQueue UInt8 cap}
    (hq : q.items.length = t.2.items.length) (hbehaves : c.BehavesAs q) :
    cap = bufferSize.toNat - 1 := by
  have hle := q.bound
  have hle' := t.2.bound
  obtain ⟨c', b', hrun, hb', hun, hover⟩ := hbehaves [.doBufferData true]
  cases hrun
  have hup : (c.setDoBufferData true).Holding (true, t.2) := ⟨rfl, h.noStructure, h.holds⟩
  have hlen : b'.unread.length = t.2.items.length := by
    rw [hun]
    exact hq
  have hsize : bufferSize.toNat - 1 = 1023 := rfl
  have hmax : maxLength = 1024 * 1024 := rfl
  let d : Received := ⟨List.replicate (min cap 1023 + 1 - t.2.items.length) 0, by
    rw [List.length_replicate]
    omega⟩
  have hd : t.2.items.length + d.bytes.length = min cap 1023 + 1 := by
    rw [List.length_replicate]
    omega
  have hiff := (hover d).symm.trans (hup.overflows_iff d)
  simp only [setDoBufferData, true_and, hlen, hd, hsize] at hiff
  omega

end TCPClient

namespace SizedClient

open TCPClient

/-- With a buffer the number is stored, and that is all. -/
theorem setBufferSize_of_some {c : SizedClient} {b : CircularBuffer} (hb : c.buffer = some b)
    (s : UInt64) : c.setBufferSize s = .ok { c with bufferSize := s } := by
  rw [setBufferSize, hb]
  rfl

/-- **Which sizes work**: the one the buffer has. -/
theorem resizeWorks_iff (idCounter : Nat) (isConnected : Bool) (history : List ClientCall)
    {replies : List Reply} {c : SizedClient}
    (hrun : execCalls TCPClient.call (initializeClient idCounter isConnected) history
      = .ok (replies, c.toTCPClient)) (s : UInt64) (hs : 2 ≤ s.toNat) :
    c.ResizeWorks s ↔ s = 1024 := by
  obtain ⟨t, hheld⟩ := holding_of_calls hrun
  obtain ⟨b, hb, hholds⟩ := hheld.holds
  have hset := setBufferSize_of_some hb s
  have hbound := t.2.bound
  rw [← UInt64.toNat_inj]
  have hkilo : (1024 : UInt64).toNat = 1024 := rfl
  have hsize : TCPClient.bufferSize.toNat - 1 = 1023 := rfl
  rw [hkilo]
  constructor
  · rintro ⟨c', b₀, b', hset', hb₀, hb', hkept, hbehaves⟩
    rw [hset] at hset'
    cases hset'
    rw [hb] at hb₀ hb'
    cases hb₀
    cases hb'
    have hcap := hheld.capacity_eq (q := BoundedQueue.empty.push b.unread)
      (by
        rw [BoundedQueue.push_items, BoundedQueue.empty_items, List.nil_append, ← hkept,
          hholds.unread]) hbehaves
    omega
  · intro hs'
    have hall : b.unread.rtake (s.toNat - 1) = b.unread := by
      apply rtake_of_length_le
      rw [hholds.unread]
      omega
    refine ⟨_, b, b, hset, hb, hb, hall.symm, ?_⟩
    apply Holding.behavesAs (c := c.toTCPClient) hheld (by omega)
    rw [BoundedQueue.push_items, BoundedQueue.empty_items, List.nil_append, hall, hholds.unread]

/-- Two bytes come in, one is read, and 1024 is asked for. -/
theorem resizeWorks_same : ∃ replies, ∃ c : SizedClient,
    execCalls TCPClient.call (initializeClient 0 true) [.receive ⟨[1, 2], by decide⟩, .readNextByte]
        = .ok (replies, c.toTCPClient) ∧ c.ResizeWorks 1024 := by
  obtain ⟨c, hrun, -⟩ := (Holding.initial 0 true).calls
    [.receive ⟨[1, 2], by decide⟩, .readNextByte]
  have hiff := resizeWorks_iff 0 true _ (c := ⟨c, 1024⟩) hrun 1024 (by decide)
  exact ⟨_, ⟨c, 1024⟩, hrun, hiff.mpr rfl⟩

/-- Two bytes come in and a size of two is asked for, room for one byte: both
stay unread. -/
theorem shrink_keeps_both :
    ¬ ∀ (idCounter : Nat) (isConnected : Bool) (history : List ClientCall)
        (replies : List Reply) (c : SizedClient),
      execCalls TCPClient.call (initializeClient idCounter isConnected) history
          = .ok (replies, c.toTCPClient) →
      ∀ s : UInt64, 2 ≤ s.toNat → c.ResizeWorks s := by
  intro hall
  obtain ⟨c, hrun, hheld⟩ := (Holding.initial 0 true).calls [.receive ⟨[1, 2], by decide⟩]
  obtain ⟨b, hb, hholds⟩ := hheld.holds
  obtain ⟨c', b₀, b', hset, hb₀, hb', hkept, -⟩ := hall 0 true _ _ ⟨c, 1024⟩ hrun 2 (by decide)
  rw [setBufferSize_of_some hb] at hset
  cases hset
  cases hb.symm.trans hb₀
  cases hb.symm.trans hb'
  have hun : b.unread = [1, 2] := hholds.unread
  rw [hun] at hkept
  exact absurd hkept (by decide)

end SizedClient

end HpLib
