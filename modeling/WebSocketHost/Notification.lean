import WebSocketHost.Event
import WebSocketHost.Json.Record

/-!
Notifications as lines of JSON, one object a line.
-/
namespace WebSocketHost

open Json (Scalar)

namespace Status

def fields : Json.Fields := [("sessionId", .text), ("isConnect", .flag)]

def toJson (s : Status) : String :=
  Json.encodeRecord [("sessionId", .text s.sessionId), ("isConnect", .flag s.isConnect)]

def ofJson? (s : String) : Option Status :=
  match Json.record? fields s with
  | some [.text sessionId, .flag isConnect] => some ⟨sessionId, isConnect⟩
  | _ => none

end Status

namespace Received

def fields : Json.Fields := [("sessionId", .text), ("content", .text)]

def toJson (r : Received) : String :=
  Json.encodeRecord [("sessionId", .text r.sessionId), ("content", .text r.content)]

def ofJson? (s : String) : Option Received :=
  match Json.record? fields s with
  | some [.text sessionId, .text content] => some ⟨sessionId, content⟩
  | _ => none

end Received

end WebSocketHost
