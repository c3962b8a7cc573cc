import WebSocketHost.Address.Ip

/-!
Which of a machine's addresses to advertise: an address of the shorter kind
that others can reach, from a preferred interface if there is one.
-/
namespace WebSocketHost.Address

/-- An interface and one of its addresses. -/
abbrev Candidate := String × IpAddress

/-- Interfaces tried first, in order. -/
def preferred : List String := ["en0", "en1", "eth0", "wlan0"]

def isUsable (c : Candidate) : Bool :=
  match c.2 with
  | .v4 a => !a.isLoopback && !a.isLinkLocal && !a.isUnspecified
  | .v6 _ => false

/-- The first usable address of the first preferred interface that has one, then
the first usable address of all, then the loopback address. -/
def choose (candidates : List Candidate) : IpAddress :=
  let usable := candidates.filter isUsable
  match preferred.findSome? fun name => usable.find? fun c => c.1 = name with
  | some c => c.2
  | none =>
    match usable with
    | c :: _ => c.2
    | [] => .v4 .loopback

end WebSocketHost.Address
