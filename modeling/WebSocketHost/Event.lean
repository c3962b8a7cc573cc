import WebSocketHost.Address.Socket
import WebSocketHost.CloseCode
import WebSocketHost.Text.Quoted
import WebSocketHost.Text.Utf8

/-!
What happens on connections, and what is sent to them. A connection is known by
its peer's address.
-/
namespace WebSocketHost

/-- The text of a peer's address. -/
abbrev SessionId := String

def SessionId.ofAddress (a : SocketAddress) : SessionId := a.toText

/-- Something that happened on a connection. -/
inductive Event
  | connected (id : SessionId)
  /-- The peer closed, the transport failed, or the server stopped. -/
  | disconnected (id : SessionId)
  /-- The connection was closed because the peer broke a rule. -/
  | closed (id : SessionId) (code : CloseCode)
  | text (id : SessionId) (content : String)
  | binary (id : SessionId) (data : Octets)
deriving DecidableEq

/-- That a session is connected, or no longer is. -/
structure Status where
  sessionId : SessionId
  isConnect : Bool
deriving DecidableEq

/-- A message as text. -/
structure Received where
  sessionId : SessionId
  content : String
deriving DecidableEq

namespace Event

def sessionId : Event → SessionId
  | connected id | disconnected id | closed id _ | text id _ | binary id _ => id

def status? : Event → Option Status
  | connected id => some ⟨id, true⟩
  | disconnected id | closed id _ => some ⟨id, false⟩
  | text _ _ | binary _ _ => none

/-- Binary data counts as a message if it is text after all. -/
def received? : Event → Option Received
  | text id content => some ⟨id, content⟩
  | binary id data => (Text.ofUtf8? data).map (⟨id, ·⟩)
  | connected _ | disconnected _ | closed _ _ => none

/-- The last event of a connection. -/
def isTerminal : Event → Bool
  | disconnected _ | closed _ _ => true
  | _ => false

/-- No event is of both kinds. -/
theorem received?_eq_none_of_status? {e : Event} {s : Status} (h : e.status? = some s) :
    e.received? = none := by
  cases e <;> simp_all [status?, received?]

end Event

/-- Something to send to a session. -/
inductive Outbound
  | text (id : SessionId) (content : String)
  | binary (id : SessionId) (data : Octets)

namespace Outbound

def sessionId : Outbound → SessionId
  | text id _ | binary id _ => id

/-- The form used in logs. -/
def toLog : Outbound → String
  | text id content =>
    "SendText \x7b id: SessionId(" ++ Text.quoted id ++ "), text: " ++ Text.quoted content ++ " \x7d"
  | binary id data =>
    "SendBinary \x7b id: SessionId(" ++ Text.quoted id ++ "), data: ["
      ++ ", ".intercalate (data.map fun o => toString o.toNat) ++ "] \x7d"

end Outbound

end WebSocketHost
