import WebSocketHost.Address.Socket
import WebSocketHost.Config

/-!
Where a server can be reached, and how it comes to an address: the ports are
tried in order, and only one that is in use lets the next have its turn.
-/
namespace WebSocketHost

namespace SocketAddress

def ip : SocketAddress → IpAddress
  | v4 ip _ => .v4 ip
  | v6 ip _ _ => .v6 ip

def port : SocketAddress → UInt16
  | v4 _ port | v6 _ _ port => port

end SocketAddress

/-- Whether an address stands for all addresses of a machine. -/
def IpAddress.isUnspecified : IpAddress → Bool
  | v4 a => a.isUnspecified
  | v6 a => a.groups.all (· = 0)

structure Endpoint where
  /-- The address listened on. -/
  address : SocketAddress
  /-- The address for peers. It differs only if all addresses are listened on. -/
  advertised : SocketAddress
  isSecure : Bool
  path : String
deriving DecidableEq

namespace Endpoint

/-- `lan` is the machine's own address in its local network. -/
def ofAddress (address : SocketAddress) (lan : IpAddress) (isSecure : Bool) (path : String) :
    Endpoint where
  address
  advertised := if address.ip.isUnspecified then .ofIp lan address.port else address
  isSecure
  path

def baseUrl (e : Endpoint) : String :=
  (if e.isSecure then "wss" else "ws") ++ "://" ++ e.advertised.toText

def url (e : Endpoint) : String := e.baseUrl ++ e.path

end Endpoint

/-- What came of an attempt to listen on an address. -/
inductive BindOutcome
  /-- The address that was bound; the system chooses a port in place of zero. -/
  | bound (address : SocketAddress)
  | inUse
  | failed (reason : String)
deriving DecidableEq

/-- Why a server did not start. -/
inductive StartError
  | noPorts
  | portsExhausted (ports : List UInt16)
  | bind (address : SocketAddress) (reason : String)
  /-- The time that a stop would have to wait cannot be represented. This is
  found when the port is bound already. -/
  | timeoutOverflow
deriving DecidableEq

namespace StartError

def message : StartError → String
  | noPorts => "no candidate ports configured"
  | portsExhausted ports =>
    "all candidate ports are in use: [" ++ ", ".intercalate (ports.map fun p => toString p.toNat) ++ "]"
  | bind address reason => s!"failed to bind {address.toText}: {reason}"
  | timeoutOverflow => "overflow when adding durations"

end StartError

/-- Tries ports in order. -/
def bindFrom {m : Type → Type} [Monad m] (bind : SocketAddress → m BindOutcome) (host : IpAddress)
    (ports : List UInt16) : List UInt16 → m (Except StartError SocketAddress)
  | [] => return .error (.portsExhausted ports)
  | port :: rest => do
    match ← bind (.ofIp host port) with
    | .bound address => return .ok address
    | .inUse => bindFrom bind host ports rest
    | .failed reason => return .error (.bind (.ofIp host port) reason)

/-- Binds the first port that is free. -/
def bindFirst {m : Type → Type} [Monad m] (bind : SocketAddress → m BindOutcome) (host : IpAddress)
    (ports : List UInt16) : m (Except StartError SocketAddress) :=
  if ports = [] then return .error .noPorts else bindFrom bind host ports ports

end WebSocketHost
