import HpLib.Peripheral.TcpClient

/-!
# TCPServer

The functions of `peripheral/src/tcp_server.cc` that accept clients and keep
the table of them. What the operating system and the user decide comes in as
arguments: whether the acceptor could be opened, the client made from an
accepted socket (none when the constructor threw, `remote_endpoint()` of a
peer that is gone), and whether the user's callback returned.
-/

namespace HpLib

/-- `allClientsMap` is the keys of `all_clients_map_`, `outstanding` the
`async_accept`s posted and not yet handed to `handle_accept`. -/
structure TCPServer where
  isRunning : Bool
  acceptConnection : Bool
  clientNumber : UInt32
  allClientsMap : List Nat
  hasAcceptor : Bool
  outstanding : Nat
  deriving Repr, DecidableEq

namespace TCPServer

/-- The constructor. -/
def new : TCPServer :=
  { isRunning := false, acceptConnection := true, clientNumber := 0, allClientsMap := [],
    hasAcceptor := false, outstanding := 0 }

def handleConnection (s : TCPServer) : Except Fault TCPServer :=
  if s.hasAcceptor then .ok { s with outstanding := s.outstanding + 1 } else .error .nullDeref

def start (s : TCPServer) (opens : Bool) : Except Fault TCPServer :=
  if !s.isRunning then
    if opens then do
      let s ← { s with hasAcceptor := true }.handleConnection
      return { s with isRunning := true }
    else return s
  else return s

/-- `start` never goes wrong, and does something only on a stopped server
whose acceptor could be opened. -/
theorem start_spec (s : TCPServer) (opens : Bool) :
    s.start opens = .ok (if !s.isRunning && opens then
      { s with hasAcceptor := true, outstanding := s.outstanding + 1, isRunning := true }
      else s) := by
  rw [start]
  cases s.isRunning <;> cases opens <;> rfl

/-- The server after a `start()` that went well. -/
def started : TCPServer :=
  { new with isRunning := true, hasAcceptor := true, outstanding := 1 }

example : new.start true = .ok started := rfl

def setAcceptConnection (s : TCPServer) (state : Bool) : TCPServer :=
  { s with acceptConnection := state }

/-- `all_clients_map_[id] = tcp_client`. -/
def register (s : TCPServer) (id : Nat) : TCPServer :=
  { s with allClientsMap := s.allClientsMap.insert id }

def disconnect (s : TCPServer) (id : Nat) : TCPServer :=
  { s with allClientsMap := s.allClientsMap.erase id }

/-- `handle_accept`. The `connect()` it calls on the new client finds
`is_connected_` up and returns, unless another thread has disconnected the
client since; if it throws then, that is as if a callback did. Whatever is
thrown is caught and printed. -/
def handleAccept (s : TCPServer) (error : Bool) (client : Option TCPClient)
    (callbackReturns : Bool) : Except Fault TCPServer :=
  if !error && s.acceptConnection then
    match client with
    | none => return s
    | some c =>
        let s := s.register c.id
        if callbackReturns then
          { s with clientNumber := s.clientNumber + 1 }.handleConnection
        else return s
  else return s

end TCPServer

end HpLib
