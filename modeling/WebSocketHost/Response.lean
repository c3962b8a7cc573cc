import WebSocketHost.InfoPage
import WebSocketHost.Upgrade

/-!
The four answers to an HTTP request.
-/
namespace WebSocketHost

structure Response where
  status : Nat
  reason : String
  headers : List (String × String)
  body : String := ""

namespace Response

def lineEnd : String := "\r\n"

/-- A status line, a line for each header, an empty line and the body. -/
def toText (r : Response) : String :=
  s!"HTTP/1.1 {r.status} {r.reason}" ++ lineEnd
    ++ String.join (r.headers.map fun (name, value) => s!"{name}: {value}" ++ lineEnd)
    ++ lineEnd ++ r.body

/-- The connection speaks frames from here on. -/
def switchingProtocols (key : String) : Response where
  status := 101
  reason := "Switching Protocols"
  headers := [("Upgrade", "websocket"), ("Connection", "Upgrade"),
    ("Sec-WebSocket-Accept", Upgrade.acceptKey key)]

/-- A page; the length counts its bytes. -/
def page (body : String) : Response where
  status := 200
  reason := "OK"
  headers := [("Content-Type", "text/html"), ("Content-Length", toString body.utf8ByteSize),
    ("Connection", "close")]
  body := body

def infoPage (path : String) : Response := page (InfoPage.html path)

def methodNotAllowed : Response where
  status := 405
  reason := "Method Not Allowed"
  headers := [("Connection", "close"), ("Content-Length", "0")]

/-- Names the protocol version to try. -/
def badRequest : Response where
  status := 400
  reason := "Bad Request"
  headers := [("Sec-WebSocket-Version", Upgrade.protocolVersion), ("Connection", "close"),
    ("Content-Length", "0")]

end Response

end WebSocketHost
