import WebSocketHost.Broadcast
import WebSocketHost.Event

/-!
Notifications for the program that hosts the server: a stream and the latest
value of each kind. An event is projected to one kind or to none.
-/
namespace WebSocketHost

structure Bus where
  statuses : Broadcast Status
  messages : Broadcast Received
  latestStatus : Watch (Option Status) := { value := none }
  latestMessage : Watch (Option Received) := { value := none }

namespace Bus

/-- Unread notifications that a receiver may have before it lags. -/
def defaultCapacity : Nat := 1024

def ofCapacity (capacity : Nat) (h : 0 < capacity) : Bus where
  statuses := .ofCapacity capacity h
  messages := .ofCapacity capacity h

def publish (b : Bus) (e : Event) : Bus :=
  match e.status? with
  | some s =>
    { b with latestStatus := b.latestStatus.replace (some s), statuses := b.statuses.send s }
  | none =>
    match e.received? with
    | some m =>
      { b with latestMessage := b.latestMessage.replace (some m), messages := b.messages.send m }
    | none => b

/-- What one can subscribe to. -/
inductive Topic
  | statuses
  | messages
  | latestStatus
  | latestMessage
deriving DecidableEq

/-- How far a subscriber has come. -/
inductive Subscription
  | statuses (c : Broadcast.Cursor)
  | messages (c : Broadcast.Cursor)
  | latestStatus (seen : Nat)
  | latestMessage (seen : Nat)
deriving DecidableEq

/-- What a subscriber gets. -/
inductive Notice
  | status (d : Broadcast.Delivery Status)
  | message (d : Broadcast.Delivery Received)
  | latestStatus (isChanged : Bool) (value : Option Status)
  | latestMessage (isChanged : Bool) (value : Option Received)
deriving DecidableEq

/-- A new subscriber gets what comes from now on, and has seen the latest values. -/
def subscribe (b : Bus) : Topic → Subscription
  | .statuses => .statuses b.statuses.subscribe
  | .messages => .messages b.messages.subscribe
  | .latestStatus => .latestStatus b.latestStatus.version
  | .latestMessage => .latestMessage b.latestMessage.version

def receive (b : Bus) : Subscription → Notice × Subscription
  | .statuses c =>
    let (d, c) := b.statuses.receive c
    (.status d, .statuses c)
  | .messages c =>
    let (d, c) := b.messages.receive c
    (.message d, .messages c)
  | .latestStatus seen =>
    let (isChanged, value, seen) := b.latestStatus.observe seen
    (.latestStatus isChanged value, .latestStatus seen)
  | .latestMessage seen =>
    let (isChanged, value, seen) := b.latestMessage.observe seen
    (.latestMessage isChanged value, .latestMessage seen)

end Bus

end WebSocketHost
