import HpLib.Lib.Machine
import HpLib.Lib.Ring

/-!
# Buffer<Type>, one producer and one consumer

The message queue of `common/include/hp/common/buffer/buffer_template.h`
under one thread calling `write` and one calling `get_next_packet`. The two
indices are atomic, so each access to one is a step, and between two steps
of one thread any number of the other's may come. `write` is store,
increment, test, reset; `get_next_packet` is compare, load, increment, test,
reset. After an increment and before the reset an index stands at `size_`,
where the other thread can see it.

`written`, `loaded` and `returned` record the history and steer nothing.
-/

namespace HpLib.MessageBuffer

open Lib

/-- Where the producer stands in `write`: about to store, or at the step named. -/
inductive WritePc where
  | store
  | increment
  | test
  | reset
  deriving Repr, DecidableEq

/-- Where the consumer stands in `get_next_packet`, with the `msg` it loaded. -/
inductive ReadPc (α : Type) where
  | compare
  | load
  | increment (msg : α)
  | test (msg : α)
  | reset (msg : α)
  deriving Repr, DecidableEq

structure State (α : Type) where
  size : Nat
  writeIndex : Nat
  readIndex : Nat
  buffer : List α
  producer : WritePc
  consumer : ReadPc α
  written : List α
  loaded : List α
  returned : List α
  deriving Repr, DecidableEq

/-- `write` begins with the store of its message; the other steps carry nothing. -/
inductive Act (α : Type) where
  | write (data : α)
  | produce
  | consume
  deriving Repr, DecidableEq

variable {α : Type}

namespace State

/-- `buffer_[write_index_] = data`. -/
def write (s : State α) (data : α) : Option (State α) :=
  if s.producer = .store ∧ s.writeIndex < s.buffer.length then
    some { s with buffer := s.buffer.set s.writeIndex data, producer := .increment,
                  written := s.written ++ [data] }
  else none

/-- The rest of `write`. -/
def produce (s : State α) : Option (State α) :=
  match s.producer with
  | .store => none
  | .increment => some { s with writeIndex := s.writeIndex + 1, producer := .test }
  | .test =>
      if s.writeIndex = s.size then some { s with producer := .reset }
      else some { s with producer := .store }
  | .reset => some { s with writeIndex := 0, producer := .store }

/-- `get_next_packet`. The loop goes on comparing while the indices agree. -/
def consume (s : State α) : Option (State α) :=
  match s.consumer with
  | .compare =>
      if s.readIndex = s.writeIndex then some s else some { s with consumer := .load }
  | .load =>
      match s.buffer[s.readIndex]? with
      | some msg => some { s with consumer := .increment msg, loaded := s.loaded ++ [msg] }
      | none => none
  | .increment msg => some { s with readIndex := s.readIndex + 1, consumer := .test msg }
  | .test msg =>
      if s.readIndex = s.size then some { s with consumer := .reset msg }
      else some { s with consumer := .compare, returned := s.returned ++ [msg] }
  | .reset msg =>
      some { s with readIndex := 0, consumer := .compare, returned := s.returned ++ [msg] }

def step (s : State α) : Act α → Option (State α)
  | .write data => s.write data
  | .produce => s.produce
  | .consume => s.consume

/-- Messages written and not yet loaded. -/
def unread (s : State α) : Nat :=
  s.written.length - s.loaded.length

/-- The producer starts no write while `size_ - 1` messages are unread. -/
def Paced (s : State α) : Act α → Prop
  | .write _ => s.unread < s.size - 1
  | _ => True

/-- The consumer does not compare while `write_index_` stands at `size_`,
on its way back to zero, and `read_index_` is back already. -/
def Unhurried (s : State α) : Act α → Prop
  | .consume => s.consumer = .compare → ¬ (s.writeIndex = s.size ∧ s.readIndex = 0)
  | _ => True

instance [DecidableEq α] (s : State α) (a : Act α) : Decidable (s.Paced a) := by
  cases a <;> unfold Paced <;> infer_instance

instance [DecidableEq α] (s : State α) (a : Act α) : Decidable (s.Unhurried a) := by
  cases a <;> unfold Unhurried <;> infer_instance

end State

/-- The constructor, with both threads before their first call. -/
def machine (size : Nat) [Inhabited α] : Machine (State α) (Act α) where
  init :=
    { size := size, writeIndex := 0, readIndex := 0, buffer := List.replicate size default,
      producer := .store, consumer := .compare, written := [], loaded := [], returned := [] }
  step := State.step

namespace State

/-! ## The steps by cases -/

/-- What a step leads to, and what was so before it. -/
inductive Taken (s : State α) : Act α → State α → Prop
  | stored (data : α) (hpc : s.producer = .store) (hidx : s.writeIndex < s.buffer.length) :
      Taken s (.write data)
        { s with buffer := s.buffer.set s.writeIndex data, producer := .increment,
                 written := s.written ++ [data] }
  | writeMoved (hpc : s.producer = .increment) :
      Taken s .produce { s with writeIndex := s.writeIndex + 1, producer := .test }
  | writeAtEnd (hpc : s.producer = .test) (hend : s.writeIndex = s.size) :
      Taken s .produce { s with producer := .reset }
  | writeInside (hpc : s.producer = .test) (hin : s.writeIndex ≠ s.size) :
      Taken s .produce { s with producer := .store }
  | writeReset (hpc : s.producer = .reset) :
      Taken s .produce { s with writeIndex := 0, producer := .store }
  | waited (hpc : s.consumer = .compare) (heq : s.readIndex = s.writeIndex) :
      Taken s .consume s
  | found (hpc : s.consumer = .compare) (hne : s.readIndex ≠ s.writeIndex) :
      Taken s .consume { s with consumer := .load }
  | loaded (msg : α) (hpc : s.consumer = .load) (hmsg : s.buffer[s.readIndex]? = some msg) :
      Taken s .consume { s with consumer := .increment msg, loaded := s.loaded ++ [msg] }
  | readMoved (msg : α) (hpc : s.consumer = .increment msg) :
      Taken s .consume { s with readIndex := s.readIndex + 1, consumer := .test msg }
  | readAtEnd (msg : α) (hpc : s.consumer = .test msg) (hend : s.readIndex = s.size) :
      Taken s .consume { s with consumer := .reset msg }
  | readInside (msg : α) (hpc : s.consumer = .test msg) (hin : s.readIndex ≠ s.size) :
      Taken s .consume { s with consumer := .compare, returned := s.returned ++ [msg] }
  | readReset (msg : α) (hpc : s.consumer = .reset msg) :
      Taken s .consume
        { s with readIndex := 0, consumer := .compare, returned := s.returned ++ [msg] }

theorem taken {s s' : State α} {a : Act α} (hs : s.step a = some s') : Taken s a s' := by
  cases a with
  | write data =>
      simp only [step, write] at hs
      split at hs <;> cases hs
      rename_i hst
      exact .stored data hst.1 hst.2
  | produce =>
      simp only [step, produce] at hs
      split at hs <;> rename_i hpc
      · cases hs
      · cases hs
        exact .writeMoved hpc
      · split at hs <;> rename_i hidx <;> cases hs
        · exact .writeAtEnd hpc hidx
        · exact .writeInside hpc hidx
      · cases hs
        exact .writeReset hpc
  | consume =>
      simp only [step, consume] at hs
      split at hs <;> rename_i hpc
      · split at hs <;> rename_i hcmp <;> cases hs
        · exact .waited hpc hcmp
        · exact .found hpc hcmp
      · split at hs <;> cases hs
        rename_i msg hmsg
        exact .loaded msg hpc hmsg
      · cases hs
        exact .readMoved _ hpc
      · split at hs <;> rename_i hidx <;> cases hs
        · exact .readAtEnd _ hpc hidx
        · exact .readInside _ hpc hidx
      · cases hs
        exact .readReset _ hpc

/-! ## Indices -/

/-- Each index stays inside the array wherever it is used, and passes the
end only between its increment and its reset. -/
structure Inside (s : State α) : Prop where
  size_pos : 0 < s.size
  extent : s.buffer.length = s.size
  write : match s.producer with
    | .store | .increment => s.writeIndex < s.size
    | .test => s.writeIndex ≤ s.size
    | .reset => True
  read : match s.consumer with
    | .compare | .load | .increment _ => s.readIndex < s.size
    | .test _ => s.readIndex ≤ s.size
    | .reset _ => True

theorem Inside.step {s s' : State α} {a : Act α} (h : s.Inside) (hs : s.step a = some s') :
    s'.Inside := by
  obtain ⟨hpos, hext, hw, hr⟩ := h
  cases taken hs with
  | stored data hpc hidx =>
      rw [hpc] at hw
      exact ⟨hpos, by rw [List.length_set]; exact hext, hw, hr⟩
  | writeMoved hpc =>
      rw [hpc] at hw
      exact ⟨hpos, hext, hw, hr⟩
  | writeAtEnd hpc hend => exact ⟨hpos, hext, trivial, hr⟩
  | writeInside hpc hin =>
      rw [hpc] at hw
      exact ⟨hpos, hext, Nat.lt_of_le_of_ne hw hin, hr⟩
  | writeReset hpc => exact ⟨hpos, hext, hpos, hr⟩
  | waited hpc heq => exact ⟨hpos, hext, hw, hr⟩
  | found hpc | loaded msg hpc | readMoved msg hpc =>
      rw [hpc] at hr
      exact ⟨hpos, hext, hw, hr⟩
  | readAtEnd msg hpc hend => exact ⟨hpos, hext, hw, trivial⟩
  | readInside msg hpc hin =>
      rw [hpc] at hr
      exact ⟨hpos, hext, hw, Nat.lt_of_le_of_ne hr hin⟩
  | readReset msg hpc => exact ⟨hpos, hext, hw, hpos⟩

/-! ## The history -/

/-- How many messages the producer has made visible. -/
def published (s : State α) : Nat :=
  match s.producer with
  | .increment => s.written.length - 1
  | _ => s.written.length

/-- Where `write_index_` stands after `w` stores. -/
def WriteAt (n w idx : Nat) : WritePc → Prop
  | .store => idx = w % n
  | .increment => 0 < w ∧ idx = (w - 1) % n
  | .test => 0 < w ∧ idx = (w - 1) % n + 1
  | .reset => 0 < w ∧ idx = n ∧ (w - 1) % n + 1 = n

/-- Where `read_index_` stands after `l` loads, and what is returned of them. -/
def ReadAt (n l idx : Nat) (loaded returned : List α) : ReadPc α → Prop
  | .compare | .load => idx = l % n ∧ returned = loaded
  | .increment msg => 0 < l ∧ idx = (l - 1) % n ∧ loaded = returned ++ [msg]
  | .test msg => 0 < l ∧ idx = (l - 1) % n + 1 ∧ loaded = returned ++ [msg]
  | .reset msg => 0 < l ∧ (l - 1) % n + 1 = n ∧ loaded = returned ++ [msg]

/-- The ring holds the messages written and not yet loaded, in order, at
their places modulo `size_`. -/
structure InOrder (s : State α) : Prop where
  size_pos : 0 < s.size
  extent : s.buffer.length = s.size
  writeAt : WriteAt s.size s.written.length s.writeIndex s.producer
  readAt : ReadAt s.size s.loaded.length s.readIndex s.loaded s.returned s.consumer
  loaded : s.loaded <+: s.written
  loaded_le : s.loaded.length ≤ s.published
  load_lt : s.consumer = .load → s.loaded.length < s.published
  room : s.written.length < s.loaded.length + s.size
  content : ∀ i, s.loaded.length ≤ i → i < s.written.length →
    s.buffer[i % s.size]? = s.written[i]?

theorem published_le (s : State α) : s.published ≤ s.written.length := by
  rw [published]
  split <;> omega

/-- The place after `w - 1` is the place of `w`, or the end of the array. -/
theorem pred_mod_succ {n w : Nat} (hn : 0 < n) (hw : 0 < w) :
    w % n = if (w - 1) % n + 1 = n then 0 else (w - 1) % n + 1 := by
  have hsucc := succ_mod_eq (i := w - 1) hn
  rwa [Nat.sub_add_cancel hw] at hsucc

/-- A store puts its message next to the unread ones, over a loaded one. -/
theorem InOrder.stored {s : State α} (h : s.InOrder) (data : α) (hpaced : s.unread < s.size - 1)
    (hpc : s.producer = .store) (hidx : s.writeIndex < s.buffer.length) :
    InOrder { s with buffer := s.buffer.set s.writeIndex data, producer := .increment,
                     written := s.written ++ [data] } := by
  have hw := h.writeAt
  rw [hpc] at hw
  have hw' : s.writeIndex = s.written.length % s.size := hw
  have hpub : s.published = s.written.length := by rw [published, hpc]
  have hle := h.loaded_le
  rw [hpub] at hle
  rw [unread] at hpaced
  have hlen : (s.written ++ [data]).length = s.written.length + 1 := by simp
  have hnow : (s.written ++ [data]).length - 1 = s.written.length := by omega
  refine ⟨h.size_pos, by rw [List.length_set]; exact h.extent, ?_, h.readAt,
    h.loaded.trans (List.prefix_append _ _), hle.trans hnow.ge, ?_, ?_, ?_⟩
  · exact ⟨(Nat.succ_pos _).trans_eq hlen.symm, hw'.trans (by rw [hnow])⟩
  · intro hload
    have hlt := h.load_lt hload
    rw [hpub] at hlt
    exact hlt.trans_le hnow.ge
  · show (s.written ++ [data]).length < s.loaded.length + s.size
    omega
  · intro i hl hi
    change i < (s.written ++ [data]).length at hi
    show (s.buffer.set s.writeIndex data)[i % s.size]? = (s.written ++ [data])[i]?
    by_cases heq : i = s.written.length
    · subst i
      rw [hw', List.getElem?_set_self (by rw [← hw']; exact hidx), List.getElem?_concat_length]
    · have hlt : i < s.written.length := by omega
      -- the pacing keeps the new place apart from every unread one
      have hne : s.writeIndex ≠ i % s.size := by
        intro hc
        rw [hw'] at hc
        change s.loaded.length ≤ i at hl
        exact heq (eq_of_mod_eq hc.symm (by omega) (by omega))
      rw [List.getElem?_set_ne hne, List.getElem?_append_left hlt]
      exact h.content i hl hlt

/-- A comparison that fails finds a published message, unless it caught
`write_index_` past the end with everything read. -/
theorem InOrder.compare {s : State α} (h : s.InOrder) (hpc : s.consumer = .compare)
    (hne : s.readIndex ≠ s.writeIndex) (hun : ¬ (s.writeIndex = s.size ∧ s.readIndex = 0)) :
    s.loaded.length < s.published := by
  have hw := h.writeAt
  have hr := h.readAt
  rw [hpc] at hr
  have hr' : s.readIndex = s.loaded.length % s.size := hr.1
  refine Nat.lt_of_le_of_ne h.loaded_le (fun heq => ?_)
  rw [published] at heq
  cases hprod : s.producer with
  | store =>
      rw [hprod] at hw heq
      exact hne (by rw [hr', heq]; exact hw.symm)
  | increment =>
      rw [hprod] at hw heq
      exact hne (by rw [hr', heq]; exact hw.2.symm)
  | test =>
      rw [hprod] at hw heq
      have hmod := pred_mod_succ h.size_pos hw.1
      -- at the end of the array the indices differ though nothing is unread
      by_cases hend : (s.written.length - 1) % s.size + 1 = s.size
      · rw [if_pos hend] at hmod
        exact hun ⟨by rw [hw.2, hend], by rw [hr', heq, hmod]⟩
      · rw [if_neg hend] at hmod
        exact hne (by rw [hr', heq, hmod, hw.2])
  | reset =>
      rw [hprod] at hw heq
      have hmod := pred_mod_succ h.size_pos hw.1
      rw [if_pos hw.2.2] at hmod
      exact hun ⟨hw.2.1, by rw [hr', heq, hmod]⟩

/-- What is loaded is the next message written. -/
theorem InOrder.load {s : State α} (h : s.InOrder) (hpc : s.consumer = .load) {msg : α}
    (hmsg : s.buffer[s.readIndex]? = some msg) : s.loaded ++ [msg] <+: s.written := by
  have hr := h.readAt
  rw [hpc] at hr
  have hlt : s.loaded.length < s.written.length :=
    Nat.lt_of_lt_of_le (h.load_lt hpc) s.published_le
  -- the cell read holds the message next in line, `content` says
  have hnext : s.written[s.loaded.length]? = some msg := by
    rw [← h.content _ le_rfl hlt, ← hr.1]
    exact hmsg
  exact concat_prefix h.loaded hnext

/-- A load takes the next message written. -/
theorem InOrder.loadStep {s : State α} (h : s.InOrder) (hpc : s.consumer = .load) {msg : α}
    (hmsg : s.buffer[s.readIndex]? = some msg) :
    InOrder { s with consumer := .increment msg, loaded := s.loaded ++ [msg] } := by
  have hr := h.readAt
  rw [hpc] at hr
  have hlen : (s.loaded ++ [msg]).length = s.loaded.length + 1 := by simp
  refine ⟨h.size_pos, h.extent, h.writeAt,
    ⟨(Nat.succ_pos _).trans_eq hlen.symm, ?_, by rw [hr.2]⟩, h.load hpc hmsg, ?_,
    nofun, ?_, ?_⟩
  · rw [hlen, Nat.add_sub_cancel]
    exact hr.1
  · rw [hlen]
    exact h.load_lt hpc
  · have hroom := h.room
    show s.written.length < (s.loaded ++ [msg]).length + s.size
    omega
  · intro i hl hi
    rw [hlen] at hl
    exact h.content i (by omega) hi

theorem InOrder.step {s s' : State α} {a : Act α} (h : s.InOrder) (hpaced : s.Paced a)
    (hun : s.Unhurried a) (hs : s.step a = some s') : s'.InOrder := by
  have hw := h.writeAt
  have hr := h.readAt
  have hle := h.loaded_le
  have hlt := h.load_lt
  have hpub := s.published_le
  cases taken hs with
  | stored data hpc hidx => exact h.stored data hpaced hpc hidx
  | writeMoved hpc =>
      -- from here on the consumer can see the message
      rw [hpc] at hw
      exact ⟨h.size_pos, h.extent, ⟨hw.1, by rw [hw.2]⟩, h.readAt, h.loaded,
        Nat.le_trans hle hpub, fun hc => Nat.lt_of_lt_of_le (hlt hc) hpub, h.room, h.content⟩
  | writeAtEnd hpc hend =>
      have hall : s.published = s.written.length := by rw [published, hpc]
      rw [hall] at hle hlt
      rw [hpc] at hw
      exact ⟨h.size_pos, h.extent, ⟨hw.1, hend, by rw [← hw.2, hend]⟩, h.readAt, h.loaded,
        hle, hlt, h.room, h.content⟩
  | writeInside hpc hin =>
      have hall : s.published = s.written.length := by rw [published, hpc]
      rw [hall] at hle hlt
      rw [hpc] at hw
      refine ⟨h.size_pos, h.extent, ?_, h.readAt, h.loaded, hle, hlt, h.room, h.content⟩
      show s.writeIndex = s.written.length % s.size
      rw [pred_mod_succ h.size_pos hw.1, if_neg (by rw [← hw.2]; exact hin), hw.2]
  | writeReset hpc =>
      have hall : s.published = s.written.length := by rw [published, hpc]
      rw [hall] at hle hlt
      rw [hpc] at hw
      refine ⟨h.size_pos, h.extent, ?_, h.readAt, h.loaded, hle, hlt, h.room, h.content⟩
      show 0 = s.written.length % s.size
      rw [pred_mod_succ h.size_pos hw.1, if_pos hw.2.2]
  | waited hpc heq => exact h
  | found hpc hne =>
      rw [hpc] at hr
      exact ⟨h.size_pos, h.extent, h.writeAt, hr, h.loaded, h.loaded_le,
        fun _ => h.compare hpc hne (hun hpc), h.room, h.content⟩
  | loaded msg hpc hmsg => exact h.loadStep hpc hmsg
  | readMoved msg hpc =>
      rw [hpc] at hr
      exact ⟨h.size_pos, h.extent, h.writeAt, ⟨hr.1, by rw [hr.2.1], hr.2.2⟩, h.loaded,
        h.loaded_le, nofun, h.room, h.content⟩
  | readAtEnd msg hpc hend =>
      rw [hpc] at hr
      obtain ⟨hpos, hidx, hret⟩ := hr
      exact ⟨h.size_pos, h.extent, h.writeAt, ⟨hpos, by rw [← hidx, hend], hret⟩, h.loaded,
        h.loaded_le, nofun, h.room, h.content⟩
  | readInside msg hpc hin =>
      rw [hpc] at hr
      obtain ⟨hpos, hidx, hret⟩ := hr
      refine ⟨h.size_pos, h.extent, h.writeAt, ⟨?_, hret.symm⟩, h.loaded,
        h.loaded_le, nofun, h.room, h.content⟩
      rw [pred_mod_succ h.size_pos hpos, if_neg (by rw [← hidx]; exact hin), hidx]
  | readReset msg hpc =>
      rw [hpc] at hr
      obtain ⟨hpos, hend, hret⟩ := hr
      refine ⟨h.size_pos, h.extent, h.writeAt, ⟨?_, hret.symm⟩, h.loaded,
        h.loaded_le, nofun, h.room, h.content⟩
      rw [pred_mod_succ h.size_pos hpos, if_pos hend]

/-- What has been returned is, in order, the beginning of what was loaded. -/
theorem InOrder.returned {s : State α} (h : s.InOrder) : s.returned <+: s.written := by
  have hr := h.readAt
  refine List.IsPrefix.trans ?_ h.loaded
  cases hpc : s.consumer <;> rw [hpc] at hr
  · rw [hr.2]
  · rw [hr.2]
  · rw [hr.2.2]
    exact List.prefix_append _ _
  · rw [hr.2.2]
    exact List.prefix_append _ _
  · rw [hr.2.2]
    exact List.prefix_append _ _

end State

/-! ## Whole runs -/

/-- A run in which the producer keeps its distance. -/
def PacedRun (size : Nat) [Inhabited α] (s : State α) : Prop :=
  (machine size).Reaches State.Paced s

/-- One that also never compares in the wrap-around window. -/
def UnhurriedRun (size : Nat) [Inhabited α] (s : State α) : Prop :=
  (machine size).Reaches (fun s a => s.Paced a ∧ s.Unhurried a) s

/-- The index each thread is about to use lies inside `buffer_`. -/
def IndicesInside (s : State α) : Prop :=
  (s.producer = .store → s.writeIndex < s.size ∧ s.writeIndex < s.buffer.length) ∧
    (s.consumer = .load → s.readIndex < s.size ∧ s.readIndex < s.buffer.length)

theorem inside_of_reachable {size : Nat} [Inhabited α] (hsize : 0 < size) {s : State α}
    (h : (machine size).Reachable s) : s.Inside := by
  refine h.inv (P := State.Inside) ?_ (fun s a s' hs hstep => hs.step hstep)
  exact ⟨hsize, by simp [machine], hsize, hsize⟩

theorem State.Inside.indices {s : State α} (h : s.Inside) : IndicesInside s := by
  have hw := h.write
  have hr := h.read
  rw [IndicesInside, h.extent]
  constructor
  · intro hpc
    rw [hpc] at hw
    exact ⟨hw, hw⟩
  · intro hpc
    rw [hpc] at hr
    exact ⟨hr, hr⟩

theorem inOrder_of_unhurried {size : Nat} [Inhabited α] (hsize : 0 < size) {s : State α}
    (h : UnhurriedRun size s) : s.InOrder := by
  refine h.inv (P := State.InOrder) ?_ ?_
  · exact ⟨hsize, by simp [machine], by simp [machine, State.WriteAt],
      ⟨by simp [machine], rfl⟩, List.prefix_rfl, le_rfl, nofun,
      by simpa [machine] using hsize, fun i _ hi => by simp [machine] at hi⟩
  · intro s a s' hs hg hstep
    exact hs.step hg.1 hg.2 hstep

/-- **Indices and order**: whatever the interleaving, no index leaves the
array; and as long as the consumer never compares while `write_index_` is on
its way from `size_` back to zero with everything read, what is returned is
a prefix of what was written. -/
theorem returned_prefix_of_unhurried (size : Nat) (hsize : 2 ≤ size) [Inhabited α]
    (s : State α) :
    (PacedRun size s → IndicesInside s) ∧
      (UnhurriedRun size s → IndicesInside s ∧ s.returned <+: s.written) := by
  have hpos : 0 < size := by omega
  constructor
  · intro h
    exact (inside_of_reachable hpos h.reachable).indices
  · intro h
    exact ⟨(inside_of_reachable hpos h.reachable).indices,
      (inOrder_of_unhurried hpos h).returned⟩

/-- One message through a queue of two cells. -/
theorem returned_prefix_of_unhurried_two :
    2 ≤ 2 ∧ ∃ s : State Nat, UnhurriedRun 2 s ∧ s.returned = [10] ∧
      (IndicesInside s ∧ s.returned <+: s.written) := by
  obtain ⟨s, hrun, hret, hg⟩ : ∃ s : State Nat,
      (machine 2).exec (machine 2).init
          [.write 10, .produce, .produce, .consume, .consume, .consume, .consume] = some s ∧
        s.returned = [10] ∧
        (machine 2).Guarded (fun s a => s.Paced a ∧ s.Unhurried a) (machine 2).init
          [.write (10 : Nat), .produce, .produce, .consume, .consume, .consume, .consume] :=
    ⟨_, rfl, rfl, by decide⟩
  have hreach : UnhurriedRun 2 s := ⟨_, hrun, hg⟩
  exact ⟨le_rfl, s, hreach, hret, (returned_prefix_of_unhurried 2 le_rfl s).2 hreach⟩

/-- Two cells, two messages, both read. The consumer resets `read_index_` and
compares while the producer stands between its increment and its reset: `2`
against `0` looks like a message, and the first one comes a second time. -/
def rereadRun : List (Act Nat) :=
  [.write 10, .produce, .produce, .consume, .consume, .consume, .consume,
   .write 20, .produce, .consume, .consume, .consume, .consume, .consume,
   .consume, .consume, .consume, .consume]

theorem paced_run_rereads :
    ¬ ∀ size : Nat, 2 ≤ size → ∀ s : State Nat, PacedRun size s →
        IndicesInside s ∧ s.returned <+: s.written := by
  intro hall
  obtain ⟨s, hrun, hret, hwr⟩ : ∃ s : State Nat,
      (machine 2).exec (machine 2).init rereadRun = some s ∧
        s.returned = [10, 20, 10] ∧ s.written = [10, 20] := ⟨_, rfl, rfl, rfl⟩
  have hpre := (hall 2 le_rfl s ⟨rereadRun, hrun, by decide⟩).2
  rw [hret, hwr] at hpre
  exact absurd hpre.length_le (by decide)

end HpLib.MessageBuffer
