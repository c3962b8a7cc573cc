import WebSocketHost.Engine.Endpoint
import WebSocketHost.Engine.State
import WebSocketHost.Switchboard

/-!
A server with its life cycle. A start opens an instance that accepts visitors;
each negotiates an upgrade and may become a connection. A stop cancels the
instance and waits, first for the accepting to end, then for the visitors, but
for them only so long.

Starts and stops are calls, and one call at a time has control. A call that
waits may be abandoned; what it has done by then remains done. `step?` gives
each thing that can happen next, in whatever order things do.
-/
namespace WebSocketHost

/-- Someone who was accepted. -/
inductive Visitor
  | negotiating (id : SessionId)
  | serving (connection : Nat)
  | gone
deriving DecidableEq

/-- One run of a server, from a start to its stop. -/
structure Instance where
  address : SocketAddress
  maxFrame : Nat
  closeTimeout : Duration
  isCancelled : Bool := false
  /-- Until the accepting ends, the port is held. -/
  isAccepting : Bool := true
  visitors : List Visitor := []

/-- The instance to stop, by its place, and how long its stop will wait. -/
structure Running where
  place : Nat
  drainTimeout : Duration
deriving DecidableEq

/-- Why a stop was not clean. -/
structure StopError where
  /-- Visitors that were still there when the time was up. -/
  left : Nat
  waited : Duration
deriving DecidableEq

def StopError.message (e : StopError) : String :=
  s!"server did not stop cleanly: {e.left} connection task(s) still running after {e.waited.toText}"

/-- What a stop waits for. -/
inductive StopWait
  | accepting
  | visitors (deadline : Nat)
deriving DecidableEq

/-- A call that waits. -/
structure Call where
  running : Running
  wait : StopWait
  /-- With what to start again once the stop is done. -/
  restart : Option Config

/-- What a call came to. -/
inductive Answer
  | started (result : Except StartError SocketAddress)
  | stopped (result : Except StopError Unit)

/-- What a start finds around it. -/
structure Surroundings where
  /-- The machine's own address in its local network. -/
  lan : IpAddress
  isUsable : CertificateSource → Bool
  bind : SocketAddress → BindOutcome

structure Engine where
  state : EngineState := .idle
  /-- The states before, the latest first. -/
  history : List EngineState := []
  endpoint : Option Endpoint := none
  /-- All instances there ever were, in order. -/
  instances : List Instance := []
  running : Option Running := none
  /-- The call that has control and waits. -/
  call : Option Call := none
  /-- What calls came to, the latest first. -/
  answers : List Answer := []
  board : Switchboard

namespace Engine

/-- Events that a subscriber may leave unread before it misses some. -/
def eventCapacity : Nat := Bus.defaultCapacity

def initial : Engine where
  board := .ofCapacity eventCapacity (by decide)

def publish (e : Engine) (s : EngineState) : Engine :=
  { e with state := s, history := e.state :: e.history }

def answer (e : Engine) (a : Answer) : Engine := { e with call := none, answers := a :: e.answers }

/-! ### Questions -/

def url (e : Engine) : Option String := e.endpoint.map Endpoint.url

def baseUrl (e : Engine) : Option String := e.endpoint.map Endpoint.baseUrl

def address (e : Engine) : Option SocketAddress := e.endpoint.map Endpoint.address

def isSecure (e : Engine) : Bool := e.endpoint.any Endpoint.isSecure

def sessions (e : Engine) : List SessionId := e.board.hub.registry.ids

def isActive (e : Engine) (id : SessionId) : Bool := e.board.isActive id

/-- The engine in logs. -/
def toLog (e : Engine) : String :=
  s!"ServerEngine \x7b state: {e.state.toLog}, sessions: {e.sessions.length}, .. \x7d"

/-- Sends a message to a session; one that is not there misses it. -/
def send (e : Engine) (o : Outbound) : Engine :=
  let m := match o with
    | .text _ content => Message.text content
    | .binary _ data => .binary data
  { e with board := e.board.sendTo o.sessionId m }

/-! ### Starting -/

/-- Opens an instance on a bound address, or fails as the binding did. -/
def launch (config : Config) (lan : IpAddress) (isSecure : Bool)
    (bound : Except StartError SocketAddress) (e : Engine) : Engine :=
  let e := e.publish .starting
  match bound with
  | .error err => (e.publish .failed).answer (.started (.error err))
  | .ok address =>
    let opened : Instance :=
      { address, maxFrame := config.maxFrameSize, closeTimeout := config.closeTimeout }
    let place := e.instances.length
    let e := { e with instances := e.instances ++ [opened] }
    match config.drainTimeout? with
    | none => e.answer (.started (.error .timeoutOverflow))
    | some drainTimeout =>
      let endpoint := Endpoint.ofAddress address lan isSecure config.path
      let e := { e with running := some ⟨place, drainTimeout⟩, endpoint := some endpoint }
      (e.publish .listening).answer (.started (.ok address))

/-- Whether an instance of this server holds a port. -/
def holds (e : Engine) (port : UInt16) : Bool :=
  e.instances.any fun i => i.isAccepting && i.address.port = port

/-- Binds as the surroundings do, except for ports that this server holds. -/
def bind (e : Engine) (s : Surroundings) (a : SocketAddress) : BindOutcome :=
  if e.holds a.port then .inUse else s.bind a

def openOn (s : Surroundings) (config : Config) (e : Engine) : Engine :=
  let bound := Id.run (bindFirst (fun a => pure (e.bind s a)) (config.host.getD s.lan) config.ports)
  e.launch config s.lan (config.certificate.any s.isUsable) bound

/-! ### Stopping -/

def onInstance (e : Engine) (place : Nat) (f : Instance → Instance) : Engine :=
  { e with instances := e.instances.modify place f }

def connectionsOf (i : Instance) : List Nat :=
  i.visitors.filterMap fun
    | .serving n => some n
    | _ => none

/-- Cancels an instance and all its connections. -/
def cancelInstance (e : Engine) (place : Nat) : Engine :=
  let numbers := match e.instances[place]? with
    | some i => connectionsOf i
    | none => []
  let e := e.onInstance place ({ · with isCancelled := true })
  { e with board := numbers.foldl Switchboard.cancel e.board }

/-- Goes on after a stop. -/
def afterStop (s : Surroundings) (restart : Option Config) (result : Except StopError Unit)
    (e : Engine) : Engine :=
  match restart with
  | none => e.answer (.stopped result)
  | some config => e.openOn s config

/-- The first part of a stop, up to where it has to wait. -/
def beginStop (s : Surroundings) (restart : Option Config) (e : Engine) : Engine :=
  match e.running with
  | none =>
    let e := { e with board := e.board.evict.2 }
    (e.publish .idle).afterStop s restart (.ok ())
  | some running =>
    let e := { e with running := none }.publish .stopping
    let e := { e with board := e.board.evict.2 }.cancelInstance running.place
    { e with call := some ⟨running, .accepting, restart⟩ }

/-- The last part of a stop. -/
def endStop (s : Surroundings) (restart : Option Config) (result : Except StopError Unit)
    (e : Engine) : Engine :=
  ({ e with endpoint := none }.publish .idle).afterStop s restart result

/-- Whether a visitor's task has come to its end. -/
def hasLeft (e : Engine) : Visitor → Bool
  | .negotiating _ => false
  | .serving n => (e.board.connection? n).any Connection.isFinished
  | .gone => true

/-- Visitors of an instance that are still there. -/
def present (e : Engine) (place : Nat) : List Visitor :=
  match e.instances[place]? with
  | some i => i.visitors.filter fun v => !e.hasLeft v
  | none => []

/-- The call in progress goes on, if what it waits for has come. -/
def proceed? (s : Surroundings) (e : Engine) : Option Engine :=
  match e.call with
  | none => none
  | some call =>
    match call.wait with
    | .accepting =>
      if (e.instances[call.running.place]?).any Instance.isAccepting then none
      else
        let deadline := e.board.now + call.running.drainTimeout.nanos
        some { e with call := some { call with wait := .visitors deadline } }
    | .visitors deadline =>
      let left := (e.present call.running.place).length
      if left = 0 then some (e.endStop s call.restart (.ok ()))
      else if deadline ≤ e.board.now then
        some (e.endStop s call.restart (.error ⟨left, call.running.drainTimeout⟩))
      else none

/-! ### Calls -/

/-- A start takes control. A server that runs is stopped first. -/
def requestStart (s : Surroundings) (config : Config) (e : Engine) : Engine :=
  if e.running.isSome then e.beginStop s (some config) else e.openOn s config

def requestStop (s : Surroundings) (e : Engine) : Engine := e.beginStop s none

/-- Nobody waits for the call any more; it goes no further. -/
def abandon (e : Engine) : Engine := { e with call := none }

/-! ### Visitors -/

/-- What can happen next. -/
inductive Move
  | start (config : Config)
  | stop
  | proceed
  | abandon
  /-- Accepting may win over a cancellation that has come already. -/
  | accept (place : Nat) (id : SessionId)
  | endAccepting (place : Nat)
  | upgrade (place visitor : Nat) (leftover : Octets)
  /-- Without an upgrade a visitor goes: it was answered, it failed, it took too
  long, or its instance was cancelled. -/
  | dismiss (place visitor : Nat)
  | step (connection : Nat)
  | arrive (connection : Nat) (chunk : Octets)
  | horizon (connection : Nat) (h : Horizon)
  | outlet (connection : Nat) (o : Outlet)
  | send (o : Outbound)
  | wait (nanos : Nat)

def setVisitor (e : Engine) (place visitor : Nat) (v : Visitor) : Engine :=
  e.onInstance place fun i => { i with visitors := i.visitors.set visitor v }

def visitor? (e : Engine) (place visitor : Nat) : Option (Instance × Visitor) := do
  let i ← e.instances[place]?
  return (i, ← i.visitors[visitor]?)

/-- A negotiation becomes a connection. -/
def upgrade? (e : Engine) (place visitor : Nat) (leftover : Octets) : Option Engine :=
  match e.visitor? place visitor with
  | some (i, .negotiating id) =>
    let n := e.board.connections.length
    let board := e.board.openConnection id i.maxFrame i.closeTimeout leftover i.isCancelled
    some ({ e with board }.setVisitor place visitor (.serving n))
  | _ => none

/-- Something happens, if it can. -/
def step? (s : Surroundings) (e : Engine) : Move → Option Engine
  | .start config => if e.call.isNone then some (e.requestStart s config) else none
  | .stop => if e.call.isNone then some (e.requestStop s) else none
  | .proceed => e.proceed? s
  | .abandon => if e.call.isSome then some e.abandon else none
  | .accept place id =>
    if (e.instances[place]?).any Instance.isAccepting then
      some (e.onInstance place fun i => { i with visitors := i.visitors ++ [.negotiating id] })
    else none
  | .endAccepting place =>
    if (e.instances[place]?).any fun i => i.isAccepting && i.isCancelled then
      some (e.onInstance place ({ · with isAccepting := false }))
    else none
  | .upgrade place visitor leftover => e.upgrade? place visitor leftover
  | .dismiss place visitor =>
    match e.visitor? place visitor with
    | some (_, .negotiating _) => some (e.setVisitor place visitor .gone)
    | _ => none
  | .step connection => do return { e with board := ← e.board.stepAt connection }
  | .arrive connection chunk => some { e with board := e.board.arrive connection chunk }
  | .horizon connection h => some { e with board := e.board.setHorizon connection h }
  | .outlet connection o => some { e with board := e.board.setOutlet connection o }
  | .send o => some (e.send o)
  | .wait nanos => some { e with board := e.board.advance nanos }

/-! ### Calls from beginning to end -/

/-- All that a cancellation brings about by itself. -/
def quiesce (e : Engine) : Engine :=
  let close (i : Instance) : Instance :=
    if i.isCancelled then
      { i with
        isAccepting := false
        visitors := i.visitors.map fun
          | .negotiating _ => .gone
          | v => v }
    else i
  { e with instances := e.instances.map close, board := e.board.settle }

/-- Lets time pass until the call in progress can go on, if there is one. -/
def attend (s : Surroundings) (e : Engine) (nanos : Nat) : Engine :=
  match e.call with
  | none => e
  | some _ =>
    let e := { e with board := e.board.advance nanos }.quiesce
    (e.proceed? s).getD e

/-- Waits for the call in progress. A connection takes its close timeout twice at
most, unless it is stuck in a write that has no limit; then the stop gives up. -/
def complete (s : Surroundings) (e : Engine) : Engine :=
  match e.call with
  | none => e
  | some call =>
    let close := match e.instances[call.running.place]? with
      | some i => i.closeTimeout.nanos
      | none => 0
    [0, 0, close, close, call.running.drainTimeout.nanos].foldl (attend s) e

def start (s : Surroundings) (config : Config) (e : Engine) : Engine :=
  (e.requestStart s config).complete s

def stop (s : Surroundings) (e : Engine) : Engine := (e.requestStop s).complete s

end Engine

end WebSocketHost
