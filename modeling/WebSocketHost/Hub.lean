import WebSocketHost.Bus
import WebSocketHost.Registry

/-!
What all connections share: who is registered, and where events go. In the
registry a connection goes by its number.
-/
namespace WebSocketHost

structure Hub where
  registry : Registry Nat := .empty
  bus : Bus
  /-- Every event, also binary data that is no text. -/
  events : Broadcast Event

namespace Hub

def ofCapacity (capacity : Nat) (h : 0 < capacity) : Hub where
  bus := .ofCapacity capacity h
  events := .ofCapacity capacity h

def emit (h : Hub) (e : Event) : Hub := { h with bus := h.bus.publish e, events := h.events.send e }

end Hub

end WebSocketHost
