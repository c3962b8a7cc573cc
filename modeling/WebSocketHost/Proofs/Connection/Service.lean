import WebSocketHost.Proofs.Connection.Transition
import WebSocketHost.Proofs.Session.Next
import WebSocketHost.Switchboard

/-! A connection that nobody closes from this side, in whatever order its peer's bytes,
messages to send and its own steps come; and what it may be expected to tell and write,
going by its session. -/
namespace WebSocketHost

namespace Action

def event? (id : SessionId) : Action → Option Event
  | deliver m => some (m.event id)
  | _ => none

/-- What an action has its owner write. -/
def bytes? : Action → Option Octets
  | reply b => some b
  | close b _ => b
  | deliver _ => none

end Action

/-- How a connection ends whose session has done all this. -/
def Ending.ofActions (actions : List Action) : Ending :=
  match actions.getLast? with
  | some (.close _ reason) => reason.ending
  | _ => .disconnected

/-- What is told of a connection while it is open. -/
def tale (id : SessionId) (actions : List Action) : List Event :=
  .connected id :: actions.filterMap (Action.event? id)

def story (id : SessionId) (actions : List Action) : List Event :=
  tale id actions ++ [(Ending.ofActions actions).event id]

/-- A frame that a connection writes, by where it comes from. -/
inductive Outgoing
  | message (m : Message)
  | answer (f : Frame)

namespace Outgoing

def frame : Outgoing → Frame
  | message m => m.frame
  | answer f => f

def message? : Outgoing → Option Message
  | message m => some m
  | answer _ => none

def answer? : Outgoing → Option Frame
  | message _ => none
  | answer f => some f

end Outgoing

/-- A connection to which there is always a handle and which is never cancelled, with what
came to it and what was told of it. -/
structure Service where
  connection : Connection
  now : Nat := 0
  /-- The peer's stream up to here, its end apart. -/
  heard : Octets
  accepted : List Message := []
  told : List Event := []

def Effect.event? : Effect → Option Event
  | emit e => some e
  | _ => none

namespace Service

def opened (id : SessionId) (maxFrame : Nat) (closeTimeout : Duration) (leftover : Octets) :
    Service where
  connection := .opened id maxFrame closeTimeout leftover false
  heard := leftover

inductive Move
  | step
  | arrive (chunk : Octets)
  | horizon (h : Horizon)
  | outlet (o : Outlet)
  | send (m : Message)
  | wait (nanos : Nat)

def onTransport (v : Service) (f : Transport → Transport) : Service :=
  { v with connection := Switchboard.onTransport f v.connection }

/-- The service after a step of its connection. -/
def after (v : Service) (effect : Option Effect) (c : Connection) : Service :=
  { v with connection := c, told := v.told ++ (effect.bind Effect.event?).toList }

/-- Once its end has come, nothing can come of a stream any more. -/
def move (v : Service) : Move → Service
  | .step =>
    match v.connection.step v.now true with
    | some (effect, c) => v.after effect c
    | none => v
  | .arrive chunk =>
    if v.connection.transport.horizon = .more then
      { v.onTransport (·.arrive chunk) with heard := v.heard ++ chunk }
    else v
  | .horizon h =>
    if v.connection.transport.horizon = .more then v.onTransport (·.withHorizon h) else v
  | .outlet o => v.onTransport (·.withOutlet o)
  | .send m =>
    match v.connection.enqueue? m with
    | some connection => { v with connection, accepted := v.accepted ++ [m] }
    | none => v
  | .wait nanos => { v with now := v.now + nanos }

def run (v : Service) (moves : List Move) : Service := moves.foldl move v

/-- The peer's bytes, up to the end of its stream. -/
def arrivals : List Move → Octets
  | [] => []
  | .arrive chunk :: moves => chunk ++ arrivals moves
  | .horizon h :: moves => if h = .more then arrivals moves else []
  | _ :: moves => arrivals moves

/-- The task's step is to give up what it has to write. -/
def failsWrite (v : Service) : Bool :=
  match v.connection.phase with
  | .writing bytes _ =>
    match v.connection.transport.write bytes with
    | .failed => true
    | _ => false
  | .farewell bytes deadline _ =>
    match v.connection.transport.write bytes with
    | .failed => true
    | .pending => deadline ≤ v.now
    | .done _ => false
  | _ => false

/-- No write fails, be it refused or not taken in time. -/
def writesAll (v : Service) : List Move → Bool
  | [] => true
  | .step :: moves => !v.failsWrite && (v.move .step).writesAll moves
  | m :: moves => (v.move m).writesAll moves

/-- Bytes that have come and are not read. -/
def unread (v : Service) : Octets := v.connection.transport.incoming.flatten

/-- What the session still makes of the bytes that have come. -/
def ahead (v : Service) : List Action × Session := (v.connection.session.receive v.unread).drain

def written (v : Service) : List Octets := v.connection.transport.written.reverse

end Service

end WebSocketHost
