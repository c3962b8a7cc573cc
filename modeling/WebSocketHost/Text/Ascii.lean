import WebSocketHost.Octets

/-!
The ASCII part of text: comparison that ignores case, and pieces between
separators. Characters outside ASCII have no case here.
-/
namespace WebSocketHost.Text

def equalIgnoringCase (s t : String) : Bool :=
  s.toList.map Char.toLower == t.toList.map Char.toLower

/-- The pieces between separators: one more than there are separators. -/
def split (separator : Char) : List Char → List (List Char)
  | [] => [[]]
  | c :: cs =>
    let pieces := split separator cs
    if c = separator then [] :: pieces
    else match pieces with
      | piece :: pieces => (c :: piece) :: pieces
      | [] => [[c]]

/-- Bytes that stand for ASCII characters, as text. -/
def ofAscii (b : Octets) : String := String.ofList (b.map fun o => Char.ofNat o.toNat)

end WebSocketHost.Text
