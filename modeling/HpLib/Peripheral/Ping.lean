import HpLib.Lib.Machine
import HpLib.Lib.Timer
import HpLib.Peripheral.Icmp

/-!
# Ping

`ping.cc`: one timer that alternates between two handlers, and a receive that
is always pending. Every packet that comes in and passes the filter cancels
the timer, whichever handler is waiting for it, and neither handler looks at
the error code it is called with.

The io service has one thread, so handlers run one at a time. Time is in
microseconds. `log` is what the object has done, the latest first; the code
does not read it.
-/

namespace HpLib

open Lib

/-- `posix_time::seconds`. -/
def seconds (n : Nat) : Nat :=
  n * 1000000

/-- What the timer is waited for with. -/
inductive PingHandler where
  | handleTimeout
  | startSend
  deriving Repr, DecidableEq

inductive PingEvent where
  | sent (sequenceNumber : UInt16) (request : Bytes) (time : Nat)
  | handled (packet : Bytes)
  | verdict (answered : Bool)
  | stop
  deriving Repr, DecidableEq

/-- `num_replies_` counts the packets handled between two timer handlers and
`time_out_` stays below `time_out_counter_`, so neither overflows.
`stopped` is the state of the io service, `receiving` says that an
`async_receive` is pending. -/
structure Ping where
  timeOutCounter : Int := 0
  timeOut : Int := 0
  sequenceNumber : UInt16 := 0
  numReplies : Nat := 0
  timeSent : Nat := 0
  timer : Timer PingHandler := .idle
  receiving : Bool := false
  stopped : Bool := false
  log : List PingEvent := []
  deriving Repr, DecidableEq

namespace Ping

def startSend (identifier : UInt16) (now : Nat) (p : Ping) : Ping :=
  let sequenceNumber := p.sequenceNumber + 1
  { p with
    sequenceNumber := sequenceNumber
    timeSent := now
    numReplies := 0
    timer := (p.timer.expiresAt (now + seconds 2)).asyncWait .handleTimeout
    log := .sent sequenceNumber (echoRequestPacket identifier sequenceNumber) now :: p.log }

def handleTimeout (p : Ping) : Ping :=
  let next (p : Ping) : Ping :=
    { p with timer := (p.timer.expiresAt (p.timeSent + seconds 1)).asyncWait .startSend }
  if p.numReplies = 0 then
    let p := { p with timeOut := p.timeOut + 1, log := .verdict false :: p.log }
    if p.timeOut = p.timeOutCounter then
      { p with timer := p.timer.cancel, stopped := true, log := .stop :: p.log }
    else next p
  else next { p with timeOut := 0, log := .verdict true :: p.log }

def startReceive (p : Ping) : Ping :=
  { p with receiving := true }

/-- A receive that failed has handed over no bytes. -/
def handleReceive (identifier : UInt16) (packet : Bytes) (p : Ping) : Ping :=
  let p := { p with log := .handled packet :: p.log }
  if isEchoReply identifier p.sequenceNumber packet then
    { p with numReplies := p.numReplies + 1, timer := p.timer.cancel }.startReceive
  else p.startReceive

/-- `ping_until_disconnect` up to `io_service_.run()`. -/
def pingUntilDisconnect (identifier : UInt16) (counter : Int) (now : Nat) (p : Ping) : Ping :=
  ({ p with timeOutCounter := counter, timeOut := 0 }.startSend identifier now).startReceive

def handle (identifier : UInt16) (now : Nat) : PingHandler → Ping → Ping
  | .handleTimeout => handleTimeout
  | .startSend => startSend identifier now

/-- The io service runs the handler of a wait that is over. -/
def fire (identifier : UInt16) (now : Nat) (w : Wait PingHandler) (p : Ping) : Option Ping :=
  if p.stopped = false ∧ w ∈ p.timer.waits ∧ w.due now = true then
    some ({ p with timer := p.timer.take w }.handle identifier now w.handler)
  else none

/-- It runs the handler of the receive. -/
def receive (identifier : UInt16) (packet : Bytes) (p : Ping) : Option Ping :=
  if p.stopped = false ∧ p.receiving = true then
    some ({ p with receiving := false }.handleReceive identifier packet)
  else none

end Ping

/-! ## Runs -/

/-- A `Ping` and the clock. -/
structure PingState where
  now : Nat
  ping : Ping
  deriving Repr, DecidableEq

inductive PingAct where
  | advance (d : Nat)
  | fire (w : Wait PingHandler)
  | receive (packet : Bytes)
  deriving Repr, DecidableEq

/-- A fresh `Ping` on which `ping_until_disconnect(counter)` has been called
at time `start`. -/
def pingMachine (identifier : UInt16) (counter : Int) (start : Nat) : Machine PingState PingAct where
  init := { now := start, ping := ({} : Ping).pingUntilDisconnect identifier counter start }
  step s
    | .advance d => some { s with now := s.now + d }
    | .fire w => (s.ping.fire identifier s.now w).map fun p => { s with ping := p }
    | .receive packet => (s.ping.receive identifier packet).map fun p => { s with ping := p }

end HpLib
