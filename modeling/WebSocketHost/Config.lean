import WebSocketHost.Address.Ip
import WebSocketHost.Certificate
import WebSocketHost.Duration

/-!
What a server is started with.
-/
namespace WebSocketHost

/-- Sizes are counted in 64 bits. -/
def maxSize : Nat := UInt64.size - 1

structure Config where
  /-- The address to listen on; without one, the machine's own in its local network. -/
  host : Option IpAddress := none
  /-- Tried in order until one is free. -/
  ports : List UInt16 := [1024, 2048]
  /-- Bytes in a frame, and in a message, that are still accepted. -/
  maxFrameSize : Nat := 2 * 1024 * 1024
  certificate : Option CertificateSource := none
  /-- The path on which connections are upgraded; elsewhere there is a page. -/
  path : String := "/websocket"
  /-- How long a connection waits for its last frame to be taken. -/
  closeTimeout : Duration := .ofSeconds 5
  /-- How long a peer may take to ask for the upgrade. -/
  handshakeTimeout : Duration := .ofSeconds 10
  backlog : UInt32 := 256
deriving DecidableEq

namespace Config

def wantsEncryption (c : Config) : Bool := c.certificate.isSome

/-- How long a stop waits for connections: each may spend its close timeout
twice, once for the closing frame and once for shutting down. -/
def drainTimeout? (c : Config) : Option Duration := do
  let twice ← c.closeTimeout.add? c.closeTimeout
  twice.add? (.ofSeconds 1)

def certificateLog : Option CertificateSource → String
  | none => "None"
  | some s => s.toConfigLog

/-- The configuration in logs. -/
def toLog (c : Config) : String :=
  let host := match c.host with
    | none => "None"
    | some a => "Some(" ++ a.toText ++ ")"
  let ports := ", ".intercalate (c.ports.map fun p => toString p.toNat)
  "ServerConfig \x7b host: " ++ host ++ ", ports: [" ++ ports ++ "], max_frame_size: "
    ++ toString c.maxFrameSize ++ ", tls: " ++ certificateLog c.certificate ++ ", path: "
    ++ Text.quoted c.path ++ ", close_timeout: " ++ c.closeTimeout.toText
    ++ ", handshake_timeout: " ++ c.handshakeTimeout.toText ++ ", backlog: "
    ++ toString c.backlog.toNat ++ " \x7d"

end Config

end WebSocketHost
