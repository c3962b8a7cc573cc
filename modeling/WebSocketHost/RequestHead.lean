import WebSocketHost.Text.Ascii
import WebSocketHost.Text.Blank

/-!
The head of an HTTP request, and the questions an upgrade asks of it. Header
names are compared without regard to case.
-/
namespace WebSocketHost

structure RequestHead where
  method : String
  /-- The request target as sent, with its query. -/
  target : String
  /-- The digit after `HTTP/1.`. -/
  minorVersion : Nat
  /-- Names and trimmed values, in the order they came. -/
  headers : List (String × String)
deriving DecidableEq

namespace RequestHead

/-- The first value of a header. -/
def header? (h : RequestHead) (name : String) : Option String :=
  (h.headers.find? fun (n, _) => Text.equalIgnoringCase n name).map (·.2)

/-- Every value of a header, in order. -/
def values (h : RequestHead) (name : String) : List String :=
  (h.headers.filter fun (n, _) => Text.equalIgnoringCase n name).map (·.2)

/-- The items of a comma-separated value, trimmed. -/
def items (value : String) : List String :=
  (Text.split ',' value.toList).map fun item => String.ofList (Text.trimWhile Text.isBlank item)

/-- Whether some value of a header lists a token. -/
def hasToken (h : RequestHead) (name token : String) : Bool :=
  ((h.values name).flatMap items).any fun item => Text.equalIgnoringCase item token

/-- The target without its query. -/
def path (h : RequestHead) : String := String.ofList (h.target.toList.takeWhile (· ≠ '?'))

def isGet (h : RequestHead) : Bool := h.method = "GET"

/-- Largest head that is taken, in bytes. -/
def maxSize : Nat := 8192

/-- Most headers that are taken. -/
def maxHeaders : Nat := 64

end RequestHead

end WebSocketHost
