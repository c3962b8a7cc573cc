import Std.Async
import WebSocketHost.Address.Choice
import WebSocketHost.CommandLine
import WebSocketHost.Engine
import WebSocketHost.Negotiation
import WebSocketHost.Notification

/-!
The program: a server on real sockets that prints a line for each notification.
Everything it knows is one engine; what happens on a socket is told to the
engine, and what the engine has written is sent.
-/
namespace WebSocketHost.Main

open Std.Async (Async)
open Std.Async.TCP.Socket (Client Server)

/-! ### Addresses -/

def ofNetIp : Std.Net.IPAddr → IpAddress
  | .v4 a => .v4 ⟨a.octets[0], a.octets[1], a.octets[2], a.octets[3]⟩
  | .v6 a => .v6 ⟨a.segments.toList, by simp⟩

def toNetIp : IpAddress → Std.Net.IPAddr
  | .v4 a => .v4 (.ofParts a.first a.second a.third a.fourth)
  | .v6 a => .v6 ⟨⟨a.groups.toArray, by simp [a.length_groups]⟩⟩

def ofNet (a : Std.Net.SocketAddress) : SocketAddress := .ofIp (ofNetIp a.ipAddr) a.port

def toNet (a : SocketAddress) : Std.Net.SocketAddress :=
  match toNetIp a.ip with
  | .v4 ip => .v4 ⟨ip, a.port⟩
  | .v6 ip => .v6 ⟨ip, a.port⟩

/-- The machine's address in its local network. -/
def lanAddress : IO IpAddress := do
  let interfaces ← Std.Net.interfaceAddresses
  return Address.choose (interfaces.toList.map fun i => (i.name, ofNetIp i.address))

/-- An address in use is told from other failures by the word of the system. -/
def bind (listener : IO.Ref (Option Server)) (backlog : UInt32) (a : SocketAddress) :
    IO BindOutcome := do
  try
    let server ← Server.mk
    server.bind (toNet a)
    server.listen backlog
    listener.set (some server)
    return .bound (ofNet (← server.getSockName))
  catch
    | .resourceBusy _ _ => return .inUse
    | e =>
      let text := toString e
      return if (text.splitOn "in use").length > 1 then .inUse else .failed text

/-! ### The engine and its sockets -/

/-- All that the tasks of the program share. -/
structure Shared where
  engine : Engine
  /-- Sockets of connections that are not shut down yet. -/
  sockets : List (Nat × Client) := []
  statuses : Broadcast.Cursor
  messages : Broadcast.Cursor
  /-- When the engine was last told the time. -/
  clock : Nat

structure Program where
  shared : IO.Ref Shared
  config : Config
  surroundings : Surroundings
  echo : Bool

/-- Notifications since the last look, as lines, and the messages among them. -/
def Shared.news (s : Shared) : List String × List Received × Shared :=
  let (ds, statuses) := s.engine.board.hub.bus.statuses.drain s.statuses
  let (dm, messages) := s.engine.board.hub.bus.messages.drain s.messages
  let lines := ds.filterMap fun
    | .item a => some a.toJson
    | _ => none
  let received := dm.filterMap fun
    | .item m => some m
    | _ => none
  (lines ++ received.map Received.toJson, received, { s with statuses, messages })

/-- Bytes to send, or a socket to shut down. -/
inductive Errand
  | send (connection : Nat) (socket : Client) (bytes : Octets)
  | shut (socket : Client)

/-- What the engine's connections want of their sockets. -/
def Shared.errands (s : Shared) : List Errand × Shared :=
  s.sockets.foldl (fun (errands, s) (n, socket) =>
    let (bytes, board) := s.engine.board.takeWritten n
    if bytes ≠ [] then
      (.send n socket bytes :: errands, { s with engine := { s.engine with board } })
    else if (s.engine.board.connection? n).any Connection.isFinished then
      (.shut socket :: errands, { s with sockets := s.sockets.filter (·.1 ≠ n) })
    else (errands, s)) ([], s)

def printLine (line : String) : IO Unit := do
  let out ← IO.getStdout
  out.putStrLn line
  out.flush

/-- Tells the engine what happened, and does what follows from it. -/
partial def Program.change (p : Program) (f : Engine → Engine) : Async Unit := do
  let now ← IO.monoNanosNow
  let (lines, echoes, errands) ← p.shared.modifyGet fun s =>
    let e := { s.engine with board := s.engine.board.advance (now - s.clock) }
    let e := f e
    let s := { s with engine := { e with board := e.board.settle }, clock := now }
    let (lines, received, s) := s.news
    let (errands, s) := s.errands
    ((lines, if p.echo then received else [], errands), s)
  for line in lines do
    printLine line
  for m in echoes do
    p.change (·.send (.text m.sessionId m.content))
  for errand in errands do
    Std.Async.background (perform errand)
where
  perform : Errand → Async Unit
    | .shut socket => try socket.shutdown catch _ => return ()
    | .send n socket bytes => do
      let outlet ← try
          socket.send ⟨bytes.toArray⟩
          pure Outlet.taking
        catch _ => pure Outlet.failing
      p.change fun e => { e with board := e.board.setOutlet n outlet }

/-! ### Visitors -/

/-- Reads a request until its bytes decide, and answers it. -/
partial def negotiate (path : String) (socket : Client) (buffer : Octets) :
    Async (Option Octets) := do
  match Negotiation.verdict? buffer with
  | some result =>
    let (response, outcome) := Negotiation.answer path result
    socket.send response.toText.toUTF8
    match outcome with
    | .upgraded leftover => return some leftover
    | _ =>
      socket.shutdown
      return none
  | none =>
    match ← socket.recv? (UInt64.ofNat Peer.readSize) with
    | some bytes => negotiate path socket (buffer ++ bytes.toList)
    | none => return none

/-- Passes on what a peer sends until it has no more to say. -/
partial def Program.listen (p : Program) (n : Nat) (socket : Client) : Async Unit := do
  let (goesOn, f) ← try
      match ← socket.recv? (UInt64.ofNat Transport.maxRead) with
      | some bytes => pure (true, fun (b : Switchboard) => b.arrive n bytes.toList)
      | none => pure (false, fun b => b.setHorizon n .ended)
    catch _ => pure (false, fun b => b.setHorizon n .failed)
  p.change fun e => { e with board := f e.board }
  if goesOn then p.listen n socket

def Program.receive (p : Program) (place visitor : Nat) (socket : Client) : Async Unit := do
  let late : Async (Option Octets) := do
    Std.Async.sleep (.ofNat p.config.handshakeTimeout.millis)
    return none
  let leftover ← try Async.race (negotiate p.config.path socket []) late catch _ => pure none
  match leftover with
  | none => p.change fun e => (e.step? p.surroundings (.dismiss place visitor)).getD e
  | some leftover =>
    let n ← p.shared.modifyGet fun s =>
      let n := s.engine.board.connections.length
      match s.engine.upgrade? place visitor leftover with
      | some engine => (some n, { s with engine, sockets := (n, socket) :: s.sockets })
      | none => (none, s)
    match n with
    | some n =>
      p.change id
      p.listen n socket
    | none => return ()

partial def Program.accept (p : Program) (place : Nat) (server : Server) : Async Unit := do
  let socket ← server.accept
  socket.noDelay
  let id := SessionId.ofAddress (ofNet (← socket.getPeerName))
  let visitor ← p.shared.modifyGet fun s =>
    match s.engine.instances[place]?, s.engine.step? p.surroundings (.accept place id) with
    | some i, some engine => (some i.visitors.length, { s with engine })
    | _, _ => (none, s)
  match visitor with
  | some visitor => Std.Async.background (p.receive place visitor socket)
  | none => return ()
  p.accept place server

/-! ### From start to stop -/

/-- Tells the engine the time, again and again. -/
partial def Program.tick (p : Program) (goesOn : IO Bool) : Async Unit := do
  Std.Async.sleep 20
  p.change fun e => (e.quiesce.proceed? p.surroundings).getD e.quiesce
  if ← goesOn then p.tick goesOn

def Program.run (p : Program) (server : Server) : Async (Except StopError Unit) := do
  Std.Async.background (p.accept 0 server)
  Std.Async.background (p.tick (return true))
  let interrupt ← Std.Async.Signal.Waiter.mk .sigint false
  discard <| Std.Async.await (← interrupt.wait)
  p.change (·.requestStop p.surroundings)
  p.tick do return (← p.shared.get).engine.call.isSome
  match (← p.shared.get).engine.answers.head? with
  | some (.stopped result) => return result
  | _ => return .ok ()

/-- Starts a server and runs it until it is interrupted. -/
def serve (config : Config) (echo : Bool) : IO UInt32 := do
  let lan ← lanAddress
  let listener ← IO.mkRef none
  let bound ← bindFirst (bind listener config.backlog) (config.host.getD lan) config.ports
  if config.wantsEncryption then
    IO.eprintln "TLS was requested but could not be enabled; serving plaintext"
  let engine := Engine.initial.launch config lan false bound
  match engine.answers.head?, ← listener.get with
  | some (.started (.ok _)), some server =>
    printLine (engine.url.getD "")
    let bus := engine.board.hub.bus
    let shared ← IO.mkRef
      { engine, statuses := bus.statuses.subscribe, messages := bus.messages.subscribe
        clock := ← IO.monoNanosNow }
    let surroundings : Surroundings :=
      { lan, isUsable := fun _ => false, bind := fun a => .failed (a.toText ++ " is not bound again") }
    match ← ({ shared, config, surroundings, echo : Program }.run server).block with
    | .ok () => return 0
    | .error e =>
      IO.eprintln s!"Error: {e.message}"
      return 1
  | some (.started (.error e)), _ =>
    IO.eprintln s!"Error: failed to start the WebSocket server: {e.message}"
    return 1
  | _, _ => return 1

/-- The values of the environment that stand in for flags. -/
def readEnvironment : IO (List (String × String)) := do
  let values ← CommandLine.Flag.all.mapM fun f => do
    return (← IO.getEnv f.environmentName).map (f.environmentName, ·)
  return values.filterMap id

def readFile (path : String) : IO (Option Octets) := do
  try
    return some (← IO.FS.readBinFile path).toList
  catch _ => return none

def launch (line : CommandLine) : IO UInt32 := do
  let file ← match line.settings with
    | some path => readFile path
    | none => pure none
  match line.loadSettings fun _ => file with
  | .error e =>
    let what := CommandLine.loadFailure (line.settings.getD "")
    IO.eprintln s!"Error: {what}: {e.message}"
    return 1
  | .ok settings => serve (line.toConfig settings) line.echo

end WebSocketHost.Main

open WebSocketHost in
def main (args : List String) : IO UInt32 := do
  let environment ← Main.readEnvironment
  match CommandLine.read (List.lookup · environment) args with
  | .ok line => Main.launch line
  | .error .help =>
    IO.println CommandLine.usage
    return 0
  | .error .version =>
    IO.println CommandLine.versionText
    return 0
  | .error refusal =>
    IO.eprintln s!"error: {refusal.message}"
    return 2
