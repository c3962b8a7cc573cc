import Mathlib.Data.List.Destutter
import WebSocketHost.Proofs.Connection.Deadline

/-! Runs of connections that share a hub, as they look from one id: what is given to the
connection of that id, and what there is to see of it. -/
namespace WebSocketHost

namespace Switchboard

/-- What is done to one connection by its peer, or through a handle to it. -/
inductive Touch
  | arrive (chunk : Octets)
  | horizon (h : Horizon)
  | outlet (o : Outlet)
  | collect
  | send (m : Message)
  | cancel
  /-- A handle that was kept is given up. -/
  | release
deriving DecidableEq

def Touch.move (n : Nat) : Touch → Move
  | arrive chunk => .arrive n chunk
  | horizon h => .horizon n h
  | outlet o => .outlet n o
  | collect => .collect n
  | send m => .send n m
  | cancel => .cancel n
  | release => .release n

structure Opening where
  maxFrame : Nat
  closeTimeout : Duration
  /-- What the peer sent behind its request. -/
  leftover : Octets
  isCancelled : Bool
deriving DecidableEq

/-- All that can happen to connections that share a hub. Who sends to an id, or takes a handle
for it, goes by the registry. -/
inductive Act
  /-- One step of one connection. -/
  | step (n : Nat)
  | touch (n : Nat) (t : Touch)
  | openConnection (id : SessionId) (o : Opening)
  | sendTo (id : SessionId) (m : Message)
  | keep (id : SessionId)
  | evict
  | shutdown
  | advance (nanos : Nat)

/-- The move that an act comes to, if there is one. -/
def Act.move? (b : Switchboard) : Act → Option Move
  | step n => some (.step n)
  | touch n t => some (t.move n)
  | openConnection id o =>
    some (.openConnection id o.maxFrame o.closeTimeout o.leftover o.isCancelled)
  | sendTo id m => (b.lookup id).map (.send · m)
  | keep id => (b.lookup id).map .hold
  | evict => some .evict
  | shutdown => some .shutdown
  | advance nanos => some (.advance nanos)

/-- A connection of that id is opened. -/
def Act.isOpeningOf (id : SessionId) : Act → Bool
  | openConnection i _ => i = id
  | _ => false

/-! ### What is given to one connection -/

/-- What is given to a connection once it is open. Time counts from then on. -/
inductive Given
  /-- It takes its next step, and reads the time. -/
  | step (elapsed : Nat)
  | touch (t : Touch)
  | sendTo (m : Message)
  | keep
  | evict
deriving DecidableEq

/-- What an act gives to the connection of a number and an id. -/
def Act.given? (id : SessionId) (n elapsed : Nat) : Act → Option Given
  | step k => if k = n then some (.step elapsed) else none
  | touch k t => if k = n then some (.touch t) else none
  | sendTo i m => if i = id then some (.sendTo m) else none
  | keep i => if i = id then some .keep else none
  | evict => some .evict
  | shutdown => some (.touch .cancel)
  | openConnection _ _ | advance _ => none

def Act.elapsed (t : Nat) : Act → Nat
  | advance nanos => t + nanos
  | _ => t

/-- What is given to the connection of a number and an id from some time after its opening. -/
def givenSince (id : SessionId) (n : Nat) : (elapsed : Nat) → List Act → List Given
  | _, [] => []
  | t, a :: acts => (a.given? id n t).toList ++ givenSince id n (a.elapsed t) acts

/-- What is given to the connection of an id, to be opened behind so many others. -/
def givenBehind (id : SessionId) : (openings : Nat) → (isStopping : Bool) → List Act →
    Option (Opening × List Given)
  | _, _, [] => none
  | k, isStopping, .openConnection i o :: acts =>
    if i = id then
      some ({ o with isCancelled := o.isCancelled || isStopping }, givenSince id k 0 acts)
    else givenBehind id (k + 1) isStopping acts
  | k, _, .shutdown :: acts => givenBehind id k true acts
  | k, isStopping, _ :: acts => givenBehind id k isStopping acts

/-- Everything that is given to the connection of an id, if there is one. -/
def given (id : SessionId) (acts : List Act) : Option (Opening × List Given) :=
  givenBehind id 0 false acts

/-- What is given behind so many steps, at these times in the one run and in the other, is
alike: the same in the same order, and from one step to another the timeout runs out in both
or in neither. -/
def alike (timeout : Nat) : (past : List (Nat × Nat)) → List Given → List Given → Bool
  | _, [], [] => true
  | past, .step t :: gs, .step t' :: gs' =>
    past.all (fun p => p.1 + timeout ≤ t ↔ p.2 + timeout ≤ t') &&
      alike timeout ((t, t') :: past) gs gs'
  | past, g :: gs, g' :: gs' => g = g' && alike timeout past gs gs'
  | _, _, _ => false

/-- Two runs give the connection of an id the same. -/
def givesAlike (id : SessionId) (acts acts' : List Act) : Bool :=
  match given id acts, given id acts' with
  | none, none => true
  | some (o, gs), some (o', gs') => o = o' && alike o.closeTimeout.nanos [] gs gs'
  | _, _ => false

/-! ### What there is to see -/

def ids (b : Switchboard) : List SessionId := b.connections.map (·.id)

end Switchboard

/-- What there is to see of the connection of an id. -/
structure Sight where
  /-- Events emitted with the id. -/
  told : List Event := []
  /-- What went through to the transport. -/
  written : List Octets := []
  isRegistered : Bool := false
  isActive : Bool := false
deriving DecidableEq

/-- The events with an id among some entries. -/
def toldAs (id : SessionId) (entries : List (Nat × Entry)) : List Event :=
  (entries.filterMap fun e => e.2.effect?.bind Effect.event?).filter (·.sessionId = id)

namespace Journal

open Switchboard (Act)

def act (j : Journal) (a : Act) : Journal :=
  match a.move? j.board with
  | some m => j.move m
  | none => j

/-- What is written of the connections of an id. -/
def ofId (j : Journal) (id : SessionId) : Log :=
  j.entries.filterMap fun e => if j.board.ids[e.1]? = some id then some e.2 else none

def sight (j : Journal) (id : SessionId) : Sight where
  told := toldAs id j.entries
  written := (j.ofId id).written
  isRegistered := j.board.hub.registry.contains id
  isActive := j.board.isActive id

/-- What there is to see before each act, and in the end. -/
def sights (id : SessionId) : Journal → List Act → List Sight
  | j, [] => [j.sight id]
  | j, a :: acts => j.sight id :: sights id (j.act a) acts

end Journal

end WebSocketHost
