import WebSocketHost.Base64
import WebSocketHost.RequestHead
import WebSocketHost.Sha1
import WebSocketHost.Text.Utf8

/-!
The opening handshake: which requests ask for an upgrade, whether it can be
granted, and the value that proves that the request's key was read.
-/
namespace WebSocketHost

/-- Why an upgrade cannot be granted. -/
inductive UpgradeFault
  | version
  | protocolVersion
  | key
deriving DecidableEq

namespace UpgradeFault

def message : UpgradeFault → String
  | version => "upgrade requires HTTP/1.1"
  | protocolVersion => "unsupported Sec-WebSocket-Version"
  | key => "missing or malformed Sec-WebSocket-Key"

end UpgradeFault

/-- How a request relates to the upgrade of one path. -/
inductive Upgrade
  /-- A request for something else. -/
  | notUpgrade
  | valid (key : String)
  | invalid (fault : UpgradeFault)
deriving DecidableEq

namespace Upgrade

/-- The one protocol version that is spoken. -/
def protocolVersion : String := "13"

/-- Appended to a key before it is hashed. -/
def keySuffix : String := "258EAFA5-E914-47DA-95CA-C5AB0DC85B11"

/-- A key is the encoding of sixteen bytes. Blanks around it do no harm. -/
def isKey (key : String) : Bool :=
  match Base64.decode (Text.utf8 (Text.trim key)) with
  | .ok bytes => bytes.length = 16
  | .error _ => false

/-- The answer to a key. -/
def acceptKey (key : String) : String :=
  Base64.toText (Sha1.digest (Text.utf8 (Text.trim key ++ keySuffix)))

def isWanted (h : RequestHead) (path : String) : Bool :=
  h.isGet && h.hasToken "Upgrade" "websocket" && h.hasToken "Connection" "upgrade"
    && h.path == path

/-- The first fault decides, in the order version, protocol version, key. -/
def ofHead (h : RequestHead) (path : String) : Upgrade :=
  if !isWanted h path then .notUpgrade
  else if h.minorVersion ≠ 1 then .invalid .version
  else if h.header? "Sec-WebSocket-Version" ≠ some protocolVersion then .invalid .protocolVersion
  else match h.header? "Sec-WebSocket-Key" with
    | some key => if isKey key then .valid key else .invalid .key
    | none => .invalid .key

end Upgrade

end WebSocketHost
