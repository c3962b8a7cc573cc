import WebSocketHost.RequestHead.Reader
import WebSocketHost.Response

/-!
One HTTP request, read from a peer and answered. What the peer sends is data
here: the pieces that arrive, and how they end.
-/
namespace WebSocketHost

/-- A peer's side of a negotiation. -/
structure Peer where
  /-- What it sends, in the pieces that arrive. -/
  chunks : List Octets
  /-- Reading fails after the last piece; otherwise the stream ends there. -/
  readFails : Bool := false
  writeFails : Bool := false

namespace Peer

/-- Most bytes that one read takes. -/
def readSize : Nat := 4096

/-- The reads that a piece takes. -/
def pieces (b : Octets) : List Octets :=
  if _h : b = [] then [] else b.take readSize :: pieces (b.drop readSize)
termination_by b.length
decreasing_by
  have := List.length_pos_iff.mpr _h
  simp only [List.length_drop, readSize]
  omega

/-- What the reads give, one after another. None of them is empty. -/
def reads (p : Peer) : List Octets := p.chunks.flatMap pieces

end Peer

namespace Negotiation

/-- How a request was answered. -/
inductive Outcome
  /-- The peer may go on with frames; some may have come with the request. -/
  | upgraded (leftover : Octets)
  | pageServed
  | methodNotAllowed
  | badRequest (reason : String)
deriving DecidableEq

inductive Failure
  | io
  | connectionClosed
deriving DecidableEq

namespace Failure

def message : Failure → String
  | io => "I/O error during HTTP negotiation"
  | connectionClosed => "connection closed before the request head was complete"

end Failure

/-- What was read when a head was complete or found to be bad, with the reads left. -/
structure Arrival where
  result : Except RequestHead.ReadError (RequestHead × Octets)
  unread : List Octets

/-- What the bytes so far amount to, once they decide. -/
def verdict? (buffer : Octets) : Option (Except RequestHead.ReadError (RequestHead × Octets)) :=
  match RequestHead.read buffer with
  | .error (.incomplete _) => none
  | result => some result

/-- Reads until the bytes so far decide. `none` when they never do. -/
def arrive (buffer : Octets) : List Octets → Option Arrival
  | [] => (verdict? buffer).map (⟨·, []⟩)
  | piece :: reads =>
    match verdict? buffer with
    | some result => some ⟨result, piece :: reads⟩
    | none => arrive (buffer ++ piece) reads

/-- The answer to what was read, and what it means. -/
def answer (path : String) :
    Except RequestHead.ReadError (RequestHead × Octets) → Response × Outcome
  | .error e => (.badRequest, .badRequest e.message)
  | .ok (head, leftover) =>
    match Upgrade.ofHead head path with
    | .valid key => (.switchingProtocols key, .upgraded leftover)
    | .invalid fault => (.badRequest, .badRequest fault.message)
    | .notUpgrade =>
      if head.isGet then (.infoPage path, .pageServed) else (.methodNotAllowed, .methodNotAllowed)

/-- What a negotiation leaves behind. -/
structure Ending where
  result : Except Failure Outcome
  written : String
  unread : List Octets

def run (path : String) (p : Peer) : Ending :=
  match arrive [] p.reads with
  | none => ⟨.error (if p.readFails then .io else .connectionClosed), "", []⟩
  | some ⟨result, unread⟩ =>
    if p.writeFails then ⟨.error .io, "", unread⟩
    else
      let (response, outcome) := answer path result
      ⟨.ok outcome, response.toText, unread⟩

end Negotiation

end WebSocketHost
