import HpLib.Common.BufferTemplate
import HpLib.Common.CircularBuffer

/-!
# Buffer<Type>, called one call at a time

`write` and `get_next_packet` of `common/include/hp/common/buffer/buffer_template.h`
as whole calls, any number of writes without a read between them. A call of
`get_next_packet` that finds the indices equal goes on waiting, so it is no
completed call.
-/

namespace HpLib

open Lib

/-- The ring of `Buffer<Type>`. -/
structure MessageQueue (α : Type) where
  size : Nat
  writeIndex : Nat
  readIndex : Nat
  buffer : List α
  deriving Repr, DecidableEq

namespace MessageQueue

variable {α : Type}

/-- The constructor. -/
def new (size : Nat) [Inhabited α] : MessageQueue α :=
  { size := size, writeIndex := 0, readIndex := 0, buffer := List.replicate size default }

/-- An index after its increment and the test against `size_`. -/
def advance (size index : Nat) : Nat :=
  if index + 1 = size then 0 else index + 1

def write (b : MessageQueue α) (data : α) : Except Fault (MessageQueue α) :=
  if b.writeIndex < b.buffer.length then
    .ok { b with buffer := b.buffer.set b.writeIndex data,
                 writeIndex := advance b.size b.writeIndex }
  else .error .outOfBounds

/-- `none` while the call is in its loop. -/
def getNextPacket (b : MessageQueue α) : Except Fault (Option (α × MessageQueue α)) :=
  if b.readIndex = b.writeIndex then .ok none
  else
    match b.buffer[b.readIndex]? with
    | some msg => .ok (some (msg, { b with readIndex := advance b.size b.readIndex }))
    | none => .error .outOfBounds

/-- A call of `write`, or of `get_next_packet` that completes. -/
inductive Call (α : Type) where
  | write (data : α)
  | getNextPacket
  deriving Repr, DecidableEq

/-- `written` and `returned` record the messages of the calls so far. -/
structure State (α : Type) where
  queue : MessageQueue α
  written : List α
  returned : List α
  deriving Repr, DecidableEq

def State.step (s : State α) : Call α → Option (State α)
  | .write data =>
      match s.queue.write data with
      | .ok queue => some { s with queue := queue, written := s.written ++ [data] }
      | .error _ => none
  | .getNextPacket =>
      match s.queue.getNextPacket with
      | .ok (some (msg, queue)) =>
          some { s with queue := queue, returned := s.returned ++ [msg] }
      | .ok none => none
      | .error _ => none

/-- Sequences of calls on a new buffer. -/
def calls (size : Nat) [Inhabited α] : Machine (State α) (Call α) where
  init := { queue := new size, written := [], returned := [] }
  step := State.step

namespace State

/-- The `k`-th message returned is the `k`-th written, and a call waits only
when every message written has been returned. -/
def NothingDropped (s : State α) : Prop :=
  s.returned <+: s.written ∧
    (s.queue.getNextPacket = .ok none → s.returned.length = s.written.length)

/-- A write starts while fewer than `size_ - 1` messages are unread. -/
def Room (s : State α) : Call α → Prop
  | .write _ => s.written.length - s.returned.length < s.queue.size - 1
  | .getNextPacket => True

/-! ## The steps by cases -/

theorem step_write {s s' : State α} {data : α} (h : s.step (.write data) = some s') :
    s.queue.writeIndex < s.queue.buffer.length ∧
      s' = { s with
        queue := { s.queue with buffer := s.queue.buffer.set s.queue.writeIndex data,
                                writeIndex := advance s.queue.size s.queue.writeIndex }
        written := s.written ++ [data] } := by
  rw [step, MessageQueue.write] at h
  by_cases hidx : s.queue.writeIndex < s.queue.buffer.length
  · rw [if_pos hidx] at h
    cases h
    exact ⟨hidx, rfl⟩
  · rw [if_neg hidx] at h
    cases h

theorem step_getNextPacket {s s' : State α} (h : s.step .getNextPacket = some s') :
    ∃ msg, s.queue.readIndex ≠ s.queue.writeIndex ∧
      s.queue.buffer[s.queue.readIndex]? = some msg ∧
      s' = { s with
        queue := { s.queue with readIndex := advance s.queue.size s.queue.readIndex }
        returned := s.returned ++ [msg] } := by
  rw [step, MessageQueue.getNextPacket] at h
  by_cases heq : s.queue.readIndex = s.queue.writeIndex
  · rw [if_pos heq] at h
    cases h
  · rw [if_neg heq] at h
    cases hmsg : s.queue.buffer[s.queue.readIndex]? with
    | none =>
        rw [hmsg] at h
        cases h
    | some msg =>
        rw [hmsg] at h
        cases h
        exact ⟨msg, heq, rfl, rfl⟩

theorem waits_iff (b : MessageQueue α) :
    b.getNextPacket = .ok none ↔ b.readIndex = b.writeIndex := by
  rw [MessageQueue.getNextPacket]
  by_cases heq : b.readIndex = b.writeIndex
  · rw [if_pos heq]
    exact iff_of_true rfl heq
  · rw [if_neg heq]
    cases b.buffer[b.readIndex]? with
    | none => exact iff_of_false (fun h => by cases h) heq
    | some msg => exact iff_of_false (fun h => by cases h) heq

/-! ## The ring while there is room -/

theorem advance_mod {n i : Nat} (hn : 0 < n) : advance n (i % n) = (i + 1) % n := by
  rw [advance, succ_mod_eq hn]

/-- The ring holds the unread messages, in order, at their places modulo
`size_`, and one cell is free. -/
structure InOrder (s : State α) : Prop where
  size_ge : 2 ≤ s.queue.size
  extent : s.queue.buffer.length = s.queue.size
  writeIndex : s.queue.writeIndex = s.written.length % s.queue.size
  readIndex : s.queue.readIndex = s.returned.length % s.queue.size
  returned : s.returned <+: s.written
  room : s.written.length < s.returned.length + s.queue.size
  content : ∀ i, s.returned.length ≤ i → i < s.written.length →
    s.queue.buffer[i % s.queue.size]? = s.written[i]?

theorem InOrder.init {size : Nat} [Inhabited α] (h : 2 ≤ size) :
    InOrder (calls (α := α) size).init where
  size_ge := h
  extent := List.length_replicate
  writeIndex := (Nat.zero_mod _).symm
  readIndex := (Nat.zero_mod _).symm
  returned := List.prefix_rfl
  room := by
    show 0 < 0 + size
    omega
  content i _ hi := absurd hi (Nat.not_lt_zero i)

variable {s s' : State α}

/-- Within one lap, equal indices mean that nothing is unread. -/
theorem InOrder.nothingDropped (h : s.InOrder) : s.NothingDropped := by
  constructor
  · exact h.returned
  · intro hwait
    rw [waits_iff, h.readIndex, h.writeIndex] at hwait
    exact eq_of_mod_eq hwait h.returned.length_le h.room

theorem InOrder.write (h : s.InOrder) {data : α} (hroom : s.Room (.write data))
    (hs : s.step (.write data) = some s') : s'.InOrder := by
  obtain ⟨hidx, rfl⟩ := step_write hs
  have hge := h.size_ge
  have hle := h.returned.length_le
  have hlen : (s.written ++ [data]).length = s.written.length + 1 := by simp
  rw [Room] at hroom
  constructor
  · exact h.size_ge
  · show (s.queue.buffer.set s.queue.writeIndex data).length = s.queue.size
    rw [List.length_set]
    exact h.extent
  · show advance s.queue.size s.queue.writeIndex = (s.written ++ [data]).length % s.queue.size
    rw [h.writeIndex, advance_mod (by omega), hlen]
  · exact h.readIndex
  · exact h.returned.trans (List.prefix_append _ _)
  · show (s.written ++ [data]).length < s.returned.length + s.queue.size
    omega
  · intro i hr hi
    change s.returned.length ≤ i at hr
    change i < (s.written ++ [data]).length at hi
    show (s.queue.buffer.set s.queue.writeIndex data)[i % s.queue.size]? = (s.written ++ [data])[i]?
    by_cases heq : i = s.written.length
    · subst heq
      rw [h.writeIndex, List.getElem?_set_self (by rw [← h.writeIndex]; exact hidx),
        List.getElem?_concat_length]
    · have hlt : i < s.written.length := by omega
      -- with room left, the new cell is not that of an unread message
      have hne : s.queue.writeIndex ≠ i % s.queue.size := by
        intro hc
        rw [h.writeIndex] at hc
        exact heq (eq_of_mod_eq hc.symm (by omega) (by omega))
      rw [List.getElem?_set_ne hne, List.getElem?_append_left hlt]
      exact h.content i hr hlt

theorem InOrder.getNextPacket (h : s.InOrder) (hs : s.step .getNextPacket = some s') :
    s'.InOrder := by
  obtain ⟨msg, hne, hmsg, rfl⟩ := step_getNextPacket hs
  have hge := h.size_ge
  have hle := h.returned.length_le
  have hlen : (s.returned ++ [msg]).length = s.returned.length + 1 := by simp
  have hlt : s.returned.length < s.written.length := by
    rcases Nat.lt_or_ge s.returned.length s.written.length with hlt | hge
    · exact hlt
    · have heq : s.returned.length = s.written.length := by omega
      rw [h.readIndex, h.writeIndex, heq] at hne
      exact absurd rfl hne
  have hnext : s.written[s.returned.length]? = some msg := by
    rw [← h.content _ le_rfl hlt, ← h.readIndex]
    exact hmsg
  constructor
  · exact h.size_ge
  · exact h.extent
  · exact h.writeIndex
  · show advance s.queue.size s.queue.readIndex = (s.returned ++ [msg]).length % s.queue.size
    rw [h.readIndex, advance_mod (by omega), hlen]
  · exact concat_prefix h.returned hnext
  · show s.written.length < (s.returned ++ [msg]).length + s.queue.size
    have := h.room
    omega
  · intro i hr hi
    change (s.returned ++ [msg]).length ≤ i at hr
    exact h.content i (by omega) hi

theorem InOrder.step (h : s.InOrder) {c : Call α} (hroom : s.Room c)
    (hs : s.step c = some s') : s'.InOrder := by
  cases c with
  | write data => exact h.write hroom hs
  | getNextPacket => exact h.getNextPacket hs

/-- A write without room closes the ring: the indices meet, and a reader
waits while `size_` messages are unread. -/
theorem InOrder.dropped (h : s.InOrder) {c : Call α} (hroom : ¬ s.Room c)
    (hs : s.step c = some s') : ¬ s'.NothingDropped := by
  cases c with
  | getNextPacket => exact absurd trivial hroom
  | write data =>
      obtain ⟨-, rfl⟩ := step_write hs
      have hge := h.size_ge
      have hlt := h.room
      have hle := h.returned.length_le
      have hfull : s.written.length + 1 = s.returned.length + s.queue.size := by
        rw [Room] at hroom
        omega
      intro hgood
      have hwait := hgood.2
      rw [waits_iff] at hwait
      have hlen := hwait (by
        show s.queue.readIndex = advance s.queue.size s.queue.writeIndex
        rw [h.writeIndex, advance_mod (by omega), hfull, h.readIndex, Nat.add_mod_right])
      change s.returned.length = (s.written ++ [data]).length at hlen
      rw [List.length_append] at hlen
      simp only [List.length_cons, List.length_nil] at hlen
      omega

/-! ## The calls as steps -/

/-- Both threads between two calls. -/
def betweenCalls (s : State α) : MessageBuffer.State α :=
  { size := s.queue.size, writeIndex := s.queue.writeIndex, readIndex := s.queue.readIndex,
    buffer := s.queue.buffer, producer := .store, consumer := .compare, written := s.written,
    loaded := s.returned, returned := s.returned }

/-- A call is a run of the atomic steps of `MessageBuffer.machine` that no
step of the other thread interrupts. -/
theorem exec_steps [Inhabited α] (size : Nat) {c : Call α} (hs : s.step c = some s') :
    ∃ as, (MessageBuffer.machine size).exec s.betweenCalls as = some s'.betweenCalls := by
  cases c with
  | write data =>
      obtain ⟨hidx, rfl⟩ := step_write hs
      by_cases hend : s.queue.writeIndex + 1 = s.queue.size
      · refine ⟨[.write data, .produce, .produce, .produce], ?_⟩
        simp [Machine.exec_cons, MessageBuffer.machine, MessageBuffer.State.step,
          MessageBuffer.State.write, MessageBuffer.State.produce, betweenCalls, advance, hidx,
          hend]
      · refine ⟨[.write data, .produce, .produce], ?_⟩
        simp [Machine.exec_cons, MessageBuffer.machine, MessageBuffer.State.step,
          MessageBuffer.State.write, MessageBuffer.State.produce, betweenCalls, advance, hidx,
          hend]
  | getNextPacket =>
      obtain ⟨msg, hne, hmsg, rfl⟩ := step_getNextPacket hs
      by_cases hend : s.queue.readIndex + 1 = s.queue.size
      · refine ⟨[.consume, .consume, .consume, .consume, .consume], ?_⟩
        simp [Machine.exec_cons, MessageBuffer.machine, MessageBuffer.State.step,
          MessageBuffer.State.consume, betweenCalls, advance, hne, hmsg, hend]
      · refine ⟨[.consume, .consume, .consume, .consume], ?_⟩
        simp [Machine.exec_cons, MessageBuffer.machine, MessageBuffer.State.step,
          MessageBuffer.State.consume, betweenCalls, advance, hne, hmsg, hend]

end State

open State in
/-- Every sequence of calls is one of the runs of the two threads. -/
theorem reachable_of_calls [Inhabited α] {size : Nat} {s : State α}
    (h : (calls size).Reachable s) : (MessageBuffer.machine size).Reachable s.betweenCalls := by
  apply h.inv (P := fun s => (MessageBuffer.machine size).Reachable s.betweenCalls)
  · exact ⟨[], rfl⟩
  · rintro s c s' ⟨as, hrun⟩ hs
    obtain ⟨bs, hbs⟩ := exec_steps size hs
    exact ⟨as ++ bs, by rw [Machine.exec_append, hrun]; exact hbs⟩

/-- **Nothing is dropped exactly while there is room.** In every state of a
sequence of calls the `k`-th message returned is the `k`-th written and a
reader waits only when all are returned, if and only if every write of the
sequence started while fewer than `size_ - 1` messages were unread. -/
theorem nothingDropped_iff_room [Inhabited α] {size : Nat} (hsize : 2 ≤ size)
    (cs : List (Call α)) :
    (calls size).Always State.NothingDropped (calls size).init cs
      ↔ (calls size).Guarded State.Room (calls size).init cs :=
  Machine.always_iff_guarded_of_inv (fun _ _ _ h hroom hs => h.step hroom hs)
    (fun _ h => h.nothingDropped) (fun _ _ _ h hroom hs => h.dropped hroom hs)
    (State.InOrder.init hsize) cs

/-- Three messages through two cells, one at a time. -/
theorem nothingDropped_two : 2 ≤ 2 ∧
    ((calls 2).Always State.NothingDropped (calls 2).init
        [.write 1, .getNextPacket, .write 2, .getNextPacket, .write (3 : Nat)]
      ↔ (calls 2).Guarded State.Room (calls 2).init
        [.write 1, .getNextPacket, .write 2, .getNextPacket, .write (3 : Nat)]) :=
  ⟨le_rfl, nothingDropped_iff_room le_rfl _⟩

/-- Two messages into two cells: the indices meet, and a reader waits while
both are unread. -/
theorem full_looks_empty : ¬ ∀ (size : Nat) (_ : 2 ≤ size) (cs : List (Call Nat)),
    (calls size).Always State.NothingDropped (calls size).init cs := by
  intro h
  obtain ⟨-, h₁⟩ := h 2 le_rfl [.write 1, .write 2]
  obtain ⟨-, h₂⟩ := h₁ _ rfl
  have hlen := (h₂ _ rfl).2 rfl
  cases hlen

end MessageQueue

end HpLib
