import HpLib.Lib.Machine
import HpLib.Peripheral.TcpServer

/-!
# send_to_all_clients and its mutex

The functions of `peripheral/src/tcp_server.cc` that take `clients_mutex_`, on
the table of clients itself. They lock and unlock by hand. When `socket_->send`
of a client throws in `send_to_all_clients`, whoever comes after it in the map
gets nothing, and the mutex stays locked for good: every later lock waits.

What the socket of a client answers to a send is given by `answers`: how many
bytes it took, or none when it throws a `system_error`. Closing a socket is
taken to succeed.

The server of `TcpServer.lean` is this one without the clients behind the
keys: while the mutex is free the two accept alike (`handleAccept_agrees`).
-/

namespace HpLib.Broadcast

open Lib

/-- What the server sees of a `TCPClient`. `handed` records what its socket
was handed, send by send. -/
structure Client where
  id : Int32
  isConnected : Bool
  sendSize : UInt64
  handed : List Bytes
  deriving Repr, DecidableEq

/-- `TCPClient::send`, of the first `size` bytes; nothing when the socket
throws. -/
def Client.send (c : Client) (answer : Option UInt64) (data : Bytes) (size : UInt32) :
    Option UInt64 × Client :=
  if c.isConnected then
    let c := { c with sendSize := c.sendSize + size.toUInt64 }
    match answer with
    | some n => (some n, { c with handed := c.handed ++ [data.take size.toNat] })
    | none => (none, c)
  else (some (-1), c)

/-- `TCPClient::disconnect`. -/
def Client.disconnect (c : Client) : Client :=
  { c with isConnected := false }

/-- `clientsMutex` says that somebody holds `clients_mutex_`. -/
structure Server where
  allClientsMap : Std.TreeMap Int32 Client
  clientsMutex : Bool
  acceptConnection : Bool
  clientNumber : UInt32
  hasAcceptor : Bool
  outstanding : Nat

/-- Why a call does not come back. -/
inductive Stop where
  | blocked
  | fault (f : Fault)
  deriving Repr, DecidableEq

/-- How `send_to_all_clients` ends. -/
inductive Ending where
  | returned
  | threw
  deriving Repr, DecidableEq

namespace Server

def lock (s : Server) : Except Stop Server :=
  if s.clientsMutex then .error .blocked else .ok { s with clientsMutex := true }

def unlock (s : Server) : Server :=
  { s with clientsMutex := false }

/-- `client` is what the map has under `id` now. -/
def put (s : Server) (id : Int32) (client : Client) : Server :=
  { s with allClientsMap := s.allClientsMap.insert id client }

/-- The loop of `send_to_all_clients` over the map; false when an exception
leaves it. -/
def sendLoop (answers : Int32 → Option UInt64) (data : Bytes) (size : UInt64) :
    List (Int32 × Client) → Server → Bool × Server
  | [], s => (true, s)
  | (id, client) :: rest, s =>
      if client.isConnected then
        -- `send` takes its size as a `uint32_t`
        match client.send (answers id) data size.toUInt32 with
        | (some _, client) => sendLoop answers data size rest (s.put id client)
        | (none, client) => (false, s.put id client)
      else sendLoop answers data size rest s

def sendToAllClients (s : Server) (answers : Int32 → Option UInt64) (data : Bytes) :
    Except Stop (Ending × Server) := do
  let s ← s.lock
  let (through, s) := sendLoop answers data (UInt64.ofNat data.length) s.allClientsMap.toList s
  if through then return (.returned, s.unlock) else return (.threw, s)

/-! ## The other calls -/

def disconnect (s : Server) (id : Int32) : Except Stop Server := do
  let s ← s.lock
  return { s with allClientsMap := s.allClientsMap.erase id }.unlock

def getClient (s : Server) (id : UInt32) : Except Stop (Option Client × Server) := do
  let s ← s.lock
  return (s.allClientsMap[id.toInt32]?, s.unlock)

def disconnectClient (s : Server) (id : UInt32) : Except Stop Server := do
  let s ← s.lock
  match s.allClientsMap[id.toInt32]? with
  | some client =>
      if client.isConnected then return (s.put id.toInt32 client.disconnect).unlock
      else return s.unlock
  | none => return s.unlock

def handleConnection (s : Server) : Except Stop Server :=
  if s.hasAcceptor then .ok { s with outstanding := s.outstanding + 1 }
  else .error (.fault .nullDeref)

/-- `handle_accept`; no client when its constructor threw. -/
def handleAccept (s : Server) (error : Bool) (client : Option Client) (callbackReturns : Bool) :
    Except Stop Server :=
  if !error && s.acceptConnection then
    match client with
    | none => return s
    | some c => do
        let s ← s.lock
        let s := (s.put c.id c).unlock
        if callbackReturns then
          handleConnection { s with clientNumber := s.clientNumber + 1 }
        else return s
  else return s

end Server

/-- The calls of other threads. -/
inductive Act where
  | disconnect (id : Int32)
  | getClient (id : UInt32)
  | disconnectClient (id : UInt32)
  | handleAccept (error : Bool) (client : Option Client) (callbackReturns : Bool)
  deriving DecidableEq

namespace Server

def call (s : Server) : Act → Except Stop Server
  | .disconnect id => s.disconnect id
  | .getClient id => do
      let (_, s) ← s.getClient id
      return s
  | .disconnectClient id => s.disconnectClient id
  | .handleAccept error client callbackReturns => s.handleAccept error client callbackReturns

/-- What goes on after `s`, call by call. -/
def later (s : Server) : Machine Server Act where
  init := s
  step s a :=
    match s.call a with
    | .ok s' => some s'
    | .error _ => none

/-- Whatever comes after `s`, no call waits for the mutex for ever. -/
def NeverBlocks (s : Server) : Prop :=
  ∀ s', s.later.Reachable s' → ∀ a, s'.call a ≠ .error .blocked

/-- The data reaches every connected client whose socket does not throw, once
and as it is, and the mutex is free again. -/
def Survives (s : Server) (answers : Int32 → Option UInt64) (data : Bytes) : Prop :=
  ∃ ending s', s.sendToAllClients answers data = .ok (ending, s') ∧
    (∀ (id : Int32) (c : Client), s.allClientsMap[id]? = some c → c.isConnected = true →
      (answers id).isSome → ∃ c', s'.allClientsMap[id]? = some c' ∧
        c'.handed = c.handed ++ [data]) ∧
    s'.clientsMutex = false ∧ s'.NeverBlocks

end Server

/-! ## The loop -/

/-- A client whose socket took the first `size` bytes. -/
def Client.sent (c : Client) (data : Bytes) (size : UInt32) : Client :=
  { c with sendSize := c.sendSize + size.toUInt64, handed := c.handed ++ [data.take size.toNat] }

theorem Client.send_of_some {c : Client} (hup : c.isConnected = true) {answer : Option UInt64}
    {n : UInt64} (ha : answer = some n) (data : Bytes) (size : UInt32) :
    c.send answer data size = (some n, c.sent data size) := by
  rw [Client.send, if_pos hup, ha]
  rfl

theorem Client.send_of_none {c : Client} (hup : c.isConnected = true) {answer : Option UInt64}
    (ha : answer = none) (data : Bytes) (size : UInt32) :
    c.send answer data size = (none, { c with sendSize := c.sendSize + size.toUInt64 }) := by
  rw [Client.send, if_pos hup, ha]

namespace Server

variable {answers : Int32 → Option UInt64} {data : Bytes} {size : UInt64}

theorem put_find (s : Server) (id : Int32) (client : Client) (k : Int32) :
    (s.put id client).allClientsMap[k]?
      = if id = k then some client else s.allClientsMap[k]? := by
  rw [put, Std.TreeMap.getElem?_insert]
  simp

/-- The loop by cases on its first client: closed, taken, or thrown. -/
theorem sendLoop_cons (s : Server) (id : Int32) (client : Client) (rest : List (Int32 × Client)) :
    sendLoop answers data size ((id, client) :: rest) s =
      if client.isConnected then
        if (answers id).isSome then
          sendLoop answers data size rest (s.put id (client.sent data size.toUInt32))
        else (false, s.put id { client with
          sendSize := client.sendSize + size.toUInt32.toUInt64 })
      else sendLoop answers data size rest s := by
  rw [sendLoop]
  by_cases hup : client.isConnected = true
  · rw [if_pos hup, if_pos hup]
    cases ha : answers id with
    | none =>
        rw [Client.send_of_none hup rfl]
        rfl
    | some n =>
        rw [Client.send_of_some hup rfl]
        rfl
  · rw [if_neg hup, if_neg hup]

/-- The loop gets through when no connected client throws. -/
theorem sendLoop_through (l : List (Int32 × Client)) (s : Server) :
    (sendLoop answers data size l s).1 = true ↔
      ∀ p ∈ l, p.2.isConnected = true → (answers p.1).isSome := by
  induction l generalizing s with
  | nil => simp [sendLoop]
  | cons p rest ih =>
      rw [sendLoop_cons, List.forall_mem_cons]
      by_cases hup : p.2.isConnected = true
      · rw [if_pos hup]
        by_cases ha : (answers p.1).isSome
        · rw [if_pos ha, ih]
          exact ⟨fun h => ⟨fun _ => ha, h⟩, fun h => h.2⟩
        · rw [if_neg ha]
          exact ⟨fun h => (by cases h), fun h => absurd (h.1 hup) ha⟩
      · rw [if_neg hup, ih]
        exact ⟨fun h => ⟨fun hc => absurd hc hup, h⟩, fun h => h.2⟩

/-- The mutex is as it was, whether the loop gets through or not. -/
theorem sendLoop_mutex (l : List (Int32 × Client)) (s : Server) :
    (sendLoop answers data size l s).2.clientsMutex = s.clientsMutex := by
  induction l generalizing s with
  | nil => rfl
  | cons p rest ih =>
      rw [sendLoop_cons]
      split
      · split
        · exact ih _
        · rfl
      · exact ih s

/-- It changes no client that it has not come to. -/
theorem sendLoop_keeps {l : List (Int32 × Client)} {id : Int32} (hid : id ∉ l.map Prod.fst)
    (s : Server) :
    (sendLoop answers data size l s).2.allClientsMap[id]? = s.allClientsMap[id]? := by
  induction l generalizing s with
  | nil => rfl
  | cons p rest ih =>
      rw [List.map_cons, List.mem_cons, not_or] at hid
      have hput : ∀ client, (s.put p.1 client).allClientsMap[id]? = s.allClientsMap[id]? := by
        intro client
        rw [put_find, if_neg (Ne.symm hid.1)]
      rw [sendLoop_cons]
      split
      · split
        · rw [ih hid.2, hput]
        · exact hput _
      · exact ih hid.2 s

/-- Where no socket throws, every connected client is handed the data. -/
theorem sendLoop_hands {l : List (Int32 × Client)} (hdistinct : (l.map Prod.fst).Nodup)
    (hall : ∀ p ∈ l, p.2.isConnected = true → (answers p.1).isSome) {id : Int32} {c : Client}
    (hc : (id, c) ∈ l) (hup : c.isConnected = true) (s : Server) :
    (sendLoop answers data size l s).2.allClientsMap[id]?
      = some (c.sent data size.toUInt32) := by
  induction l generalizing s with
  | nil => cases hc
  | cons p rest ih =>
      rw [List.map_cons, List.nodup_cons] at hdistinct
      obtain ⟨hfirst, hrest⟩ := List.forall_mem_cons.mp hall
      rw [sendLoop_cons]
      rcases List.mem_cons.mp hc with heq | hmem
      · -- nothing later in the map has the same key
        subst heq
        rw [if_pos hup, if_pos (hfirst hup), sendLoop_keeps hdistinct.1, put_find, if_pos rfl]
      · split
        · rename_i hconnected
          rw [if_pos (hfirst hconnected)]
          exact ih hdistinct.2 hrest hmem _
        · exact ih hdistinct.2 hrest hmem s

/-! ## The mutex -/

variable {s : Server}

theorem lock_of_free (hfree : s.clientsMutex = false) :
    s.lock = .ok { s with clientsMutex := true } := by
  rw [lock, hfree]
  rfl

theorem lock_of_held (hheld : s.clientsMutex = true) : s.lock = .error .blocked := by
  rw [lock, hheld]
  rfl

/-- `handle_accept` with the mutex free. -/
theorem handleAccept_free (hfree : s.clientsMutex = false) (error : Bool)
    (client : Option Client) (callbackReturns : Bool) :
    s.handleAccept error client callbackReturns ≠ .error .blocked ∧
      ∀ s', s.handleAccept error client callbackReturns = .ok s' → s'.clientsMutex = false := by
  unfold handleAccept
  split
  · split
    · exact ⟨nofun, fun s' h => by cases h; exact hfree⟩
    · rw [lock_of_free hfree]
      cases callbackReturns with
      | false => exact ⟨nofun, fun s' h => by cases h; rfl⟩
      | true =>
          change handleConnection _ ≠ _ ∧ ∀ s', handleConnection _ = _ → _
          rw [handleConnection]
          split
          · exact ⟨nofun, fun s' h => by cases h; rfl⟩
          · exact ⟨nofun, nofun⟩
  · exact ⟨nofun, fun s' h => by cases h; exact hfree⟩

/-- What `TcpServer.lean` shows of the server, whose ids count from zero. -/
structure Shows (s : Server) (t : TCPServer) : Prop where
  keys : ∀ id : Int32, id ∈ s.allClientsMap ↔ ∃ n ∈ t.allClientsMap, Int32.ofNat n = id
  acceptConnection : s.acceptConnection = t.acceptConnection
  clientNumber : s.clientNumber = t.clientNumber
  hasAcceptor : s.hasAcceptor = t.hasAcceptor
  outstanding : s.outstanding = t.outstanding

/-- Two calls come to the same. -/
def Agrees : Except Stop Server → Except Fault TCPServer → Prop
  | .ok s, .ok t => s.Shows t
  | .error e, .error f => e = .fault f
  | .ok _, .error _ | .error _, .ok _ => False

theorem handleConnection_agrees {t : TCPServer} (h : s.Shows t) :
    Agrees s.handleConnection t.handleConnection := by
  rw [handleConnection, TCPServer.handleConnection]
  simp only [h.hasAcceptor]
  split
  · exact ⟨h.keys, h.acceptConnection, h.clientNumber, rfl, congrArg (· + 1) h.outstanding⟩
  · rfl

/-- The new client is put under its id in both. -/
theorem Shows.register {t : TCPServer} (h : s.Shows t) {client : Client} {c : TCPClient}
    (hid : client.id = Int32.ofNat c.id) : (s.put client.id client).Shows (t.register c.id) where
  keys id := by
    rw [put, Std.TreeMap.mem_insert, h.keys id, TCPServer.register, hid]
    simp
  acceptConnection := h.acceptConnection
  clientNumber := h.clientNumber
  hasAcceptor := h.hasAcceptor
  outstanding := h.outstanding

/-- **One `handle_accept`**: the model with the clients and the mutex, while
that is free, and the one with the keys alone agree. -/
theorem handleAccept_agrees {t : TCPServer} (h : s.Shows t) (hfree : s.clientsMutex = false)
    (error : Bool) (made : Option (Client × TCPClient))
    (hid : ∀ p ∈ made, p.1.id = Int32.ofNat p.2.id) (callbackReturns : Bool) :
    Agrees (s.handleAccept error (made.map Prod.fst) callbackReturns)
      (t.handleAccept error (made.map Prod.snd) callbackReturns) := by
  unfold handleAccept TCPServer.handleAccept
  rw [h.acceptConnection]
  split
  · cases made with
    | none => exact h
    | some p =>
        have hregister := h.register (hid p rfl)
        simp only [Option.map_some, lock_of_free hfree, Bind.bind, Except.bind]
        split
        · refine handleConnection_agrees ?_
          exact ⟨hregister.keys, h.acceptConnection, congrArg (· + 1) h.clientNumber,
            h.hasAcceptor, h.outstanding⟩
        · exact ⟨hregister.keys, h.acceptConnection, h.clientNumber, h.hasAcceptor,
            h.outstanding⟩
  · exact h

/-- A call that finds the mutex free takes it and gives it back. -/
theorem call_free (hfree : s.clientsMutex = false) (a : Act) :
    s.call a ≠ .error .blocked ∧ ∀ s', s.call a = .ok s' → s'.clientsMutex = false := by
  cases a with
  | disconnect id =>
      rw [call, disconnect, lock_of_free hfree]
      exact ⟨nofun, fun s' h => by cases h; rfl⟩
  | getClient id =>
      rw [call, getClient, lock_of_free hfree]
      exact ⟨nofun, fun s' h => by cases h; rfl⟩
  | disconnectClient id =>
      rw [call, disconnectClient, lock_of_free hfree]
      simp only [Bind.bind, Except.bind]
      split
      · split
        · exact ⟨nofun, fun s' h => by cases h; rfl⟩
        · exact ⟨nofun, fun s' h => by cases h; rfl⟩
      · exact ⟨nofun, fun s' h => by cases h; rfl⟩
  | handleAccept error client callbackReturns =>
      exact handleAccept_free hfree error client callbackReturns

/-- **The mutex decides**: nobody ever waits for one that is free, and
everybody for one that is not. -/
theorem neverBlocks_iff : s.NeverBlocks ↔ s.clientsMutex = false := by
  constructor
  · intro h
    by_contra hheld
    rw [Bool.not_eq_false] at hheld
    have hfirst := h s ⟨[], rfl⟩ (.getClient 0)
    rw [call, getClient, lock_of_held hheld] at hfirst
    exact hfirst rfl
  · intro hfree s' hreach a
    have hfree' : s'.clientsMutex = false := by
      refine hreach.inv (P := fun t => t.clientsMutex = false) hfree ?_
      intro t b t' ht hstep
      simp only [later] at hstep
      split at hstep <;> cases hstep
      rename_i hcall
      exact (call_free ht b).2 _ hcall
    exact (call_free hfree' a).1

/-! ## The whole call -/

theorem nodup_toList (m : Std.TreeMap Int32 Client) : (m.toList.map Prod.fst).Nodup := by
  rw [Std.TreeMap.map_fst_toList_eq_keys]
  exact Std.TreeMap.nodup_keys

/-- What `send_to_all_clients` comes to once it has the mutex. -/
theorem sendToAllClients_of_free (hfree : s.clientsMutex = false)
    (answers : Int32 → Option UInt64) (data : Bytes) :
    ∃ t : Server, t.clientsMutex = true ∧
      t = (sendLoop answers data (UInt64.ofNat data.length) s.allClientsMap.toList
        { s with clientsMutex := true }).2 ∧
      s.sendToAllClients answers data = .ok
        (if ∀ p ∈ s.allClientsMap.toList, p.2.isConnected = true → (answers p.1).isSome then
          (.returned, t.unlock)
        else (.threw, t)) := by
  refine ⟨_, sendLoop_mutex _ _, rfl, ?_⟩
  rw [sendToAllClients, lock_of_free hfree]
  simp only [Bind.bind, Except.bind, sendLoop_through]
  split <;> rfl

/-- The size that arrives at `send` is short of `2^32`. -/
theorem sentSize_toNat (data : Bytes) :
    (UInt64.ofNat data.length).toUInt32.toNat = data.length % 2 ^ 32 := by
  rw [UInt64.toNat_toUInt32, UInt64.toNat_ofNat']
  omega

/-- **When a broadcast survives**: no connected client's socket throws, and
the data is short enough for the size of `send` if there is one to send to. -/
theorem survives_iff (s : Server) (hfree : s.clientsMutex = false)
    (answers : Int32 → Option UInt64) (data : Bytes) :
    s.Survives answers data ↔
      ∀ (id : Int32) (c : Client), s.allClientsMap[id]? = some c → c.isConnected = true →
        (answers id).isSome ∧ data.length < 2 ^ 32 := by
  obtain ⟨t, hheld, ht, hrun⟩ := sendToAllClients_of_free hfree answers data
  have hhands : (∀ p ∈ s.allClientsMap.toList, p.2.isConnected = true → (answers p.1).isSome) →
      ∀ (id : Int32) (c : Client), s.allClientsMap[id]? = some c → c.isConnected = true →
        t.allClientsMap[id]? = some (c.sent data (UInt64.ofNat data.length).toUInt32) := by
    intro hall id c hc hup
    rw [ht]
    exact sendLoop_hands (nodup_toList _) hall
      (Std.TreeMap.mem_toList_iff_getElem?_eq_some.mpr hc) hup _
  constructor
  · rintro ⟨ending, s', hends, hhanded, hfree', -⟩ id c hc hup
    rw [hrun] at hends
    split at hends <;> rename_i hall <;> cases hends
    · have hanswer := hall (id, c) (Std.TreeMap.mem_toList_iff_getElem?_eq_some.mpr hc) hup
      refine ⟨hanswer, ?_⟩
      obtain ⟨c', hc', heq⟩ := hhanded id c hc hup hanswer
      have hsent := hhands hall id c hc hup
      rw [show t.unlock.allClientsMap = t.allClientsMap from rfl, hsent] at hc'
      cases hc'
      -- what was handed over is as long as the size that arrived
      have hlast := List.append_cancel_left heq
      have hlen := congrArg List.length (List.singleton_inj.mp hlast)
      rw [List.length_take, sentSize_toNat] at hlen
      omega
    · rw [hheld] at hfree'
      cases hfree'
  · intro h
    have hall : ∀ p ∈ s.allClientsMap.toList, p.2.isConnected = true → (answers p.1).isSome := by
      intro p hp hup
      exact (h p.1 p.2 (Std.TreeMap.mem_toList_iff_getElem?_eq_some.mp hp) hup).1
    rw [if_pos hall] at hrun
    refine ⟨_, _, hrun, ?_, rfl, neverBlocks_iff.mpr rfl⟩
    intro id c hc hup _
    refine ⟨_, hhands hall id c hc hup, ?_⟩
    have hshort := (h id c hc hup).2
    rw [Client.sent, sentSize_toNat, Nat.mod_eq_of_lt hshort, List.take_length]

/-- A server with two connected clients. -/
def twoClients : Server :=
  { allClientsMap := ((∅ : Std.TreeMap Int32 Client).insert 0 ⟨0, true, 0, []⟩).insert 1
      ⟨1, true, 0, []⟩
    clientsMutex := false, acceptConnection := true, clientNumber := 2, hasAcceptor := true,
    outstanding := 1 }

theorem survives_twoClients : twoClients.clientsMutex = false ∧
    twoClients.Survives (fun _ => some 3) [1, 2, 3] :=
  ⟨rfl, (survives_iff twoClients rfl _ _).mpr fun _ _ _ _ => ⟨rfl, by decide⟩⟩

/-- The first of them throws. -/
theorem throw_keeps_mutex :
    ¬ ∀ (s : Server) (answers : Int32 → Option UInt64) (data : Bytes),
      s.clientsMutex = false → s.Survives answers data := by
  intro hall
  obtain ⟨ending, s', hends, -, hfree, -⟩ :=
    hall twoClients (fun id => if id = 0 then none else some 3) [1, 2, 3] rfl
  obtain ⟨t, hheld, -, hrun⟩ := sendToAllClients_of_free (s := twoClients) rfl
    (fun id => if id = 0 then none else some 3) [1, 2, 3]
  have hmem : ((0 : Int32), (⟨0, true, 0, []⟩ : Client)) ∈ twoClients.allClientsMap.toList := by
    rw [Std.TreeMap.mem_toList_iff_getElem?_eq_some]
    rfl
  rw [if_neg fun hc => by simpa using hc _ hmem rfl, hends] at hrun
  cases hrun
  rw [hheld] at hfree
  cases hfree

end Server

end HpLib.Broadcast
