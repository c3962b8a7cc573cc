import WebSocketHost.Address.Ip

/-!
Socket addresses: an internet address and a port. The longer kind stands in
brackets and may name a scope.
-/
namespace WebSocketHost

inductive SocketAddress
  | v4 (ip : Ipv4) (port : UInt16)
  | v6 (ip : Ipv6) (scope : UInt32) (port : UInt16)
deriving DecidableEq

namespace SocketAddress

open Text (Reader)
open Text.Reader

def ofIp (ip : IpAddress) (port : UInt16) : SocketAddress :=
  match ip with
  | .v4 a => v4 a port
  | .v6 a => v6 a 0 port

/-- Scope zero is no scope, and is not written. -/
def toText : SocketAddress → String
  | v4 ip port => s!"{ip.toText}:{port.toNat}"
  | v6 ip scope port =>
    if scope = 0 then s!"[{ip.toText}]:{port.toNat}" else s!"[{ip.toText}%{scope.toNat}]:{port.toNat}"

def readPort : Reader UInt16 := do
  char ':'
  return UInt16.ofNat (← number 10 UInt16.size)

def readV4 : Reader SocketAddress := do
  let ip ← Ipv4.read
  return v4 ip (← readPort)

def readScope : Reader UInt32 := do
  char '%'
  return UInt32.ofNat (← number 10 UInt32.size)

def readV6 : Reader SocketAddress := do
  char '['
  let ip ← Ipv6.read
  let scope ← optional readScope
  char ']'
  return v6 ip (scope.getD 0) (← readPort)

def read : Reader SocketAddress := readV4 <|> readV6

def ofText? (s : String) : Option SocketAddress := whole read s

end SocketAddress

end WebSocketHost
