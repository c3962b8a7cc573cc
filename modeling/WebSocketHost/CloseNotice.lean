import WebSocketHost.CloseCode
import WebSocketHost.Frame
import WebSocketHost.Text.Utf8

/-!
Close notices: a status code and a reason that fits a control frame. A reason
too long is cut in front of the first character that does not fit whole.
-/
namespace WebSocketHost

structure CloseNotice where
  code : CloseCode
  reason : String
deriving DecidableEq

namespace CloseNotice

/-- Characters from the front while their bytes fit. -/
def fit : Nat → List Char → List Char
  | _, [] => []
  | room, c :: cs => if c.utf8Size ≤ room then c :: fit (room - c.utf8Size) cs else []

/-- Room for a reason beside the two bytes of the code. -/
def maxReason : Nat := Frame.maxControlPayload - 2

def ofReason (code : CloseCode) (reason : String) : CloseNotice :=
  ⟨code, String.ofList (fit maxReason reason.toList)⟩

def payload (n : CloseNotice) : Octets := n.code.toOctets ++ Text.utf8 n.reason

def toText (n : CloseNotice) : String := s!"{n.reason} ({n.code.toText})"

def frame (n : CloseNotice) : Frame := .whole .close n.payload

@[simp] theorem ofPayload?_payload (n : CloseNotice) :
    CloseCode.ofPayload? n.payload = some n.code := by
  simp [payload]

theorem fit_prefix (room : Nat) (cs : List Char) : fit room cs <+: cs := by
  induction cs generalizing room with
  | nil => exact List.prefix_rfl
  | cons c cs ih =>
    unfold fit
    split
    · exact List.prefix_cons_inj c |>.mpr (ih _)
    · exact List.nil_prefix

/-- The bytes of what is kept fit the room. -/
theorem length_utf8_fit_le (room : Nat) (cs : List Char) :
    (Text.utf8 (String.ofList (fit room cs))).length ≤ room := by
  induction cs generalizing room with
  | nil => simp [fit, Text.utf8]
  | cons c cs ih =>
    unfold fit
    split
    · have := ih (room - c.utf8Size)
      rw [Text.length_utf8_ofList_cons]
      omega
    · simp [Text.utf8]

end CloseNotice

end WebSocketHost
