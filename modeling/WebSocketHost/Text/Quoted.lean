import WebSocketHost.Text.Extending
import WebSocketHost.Text.Unprintable

/-!
Text between quotation marks, for logs and messages: whatever could be missed
or misread is written as an escape.
-/
namespace WebSocketHost.Text

/-- The number of a character in hexadecimal, with no leading zeros. -/
def escapeByNumber (c : Char) : List Char :=
  ['\\', 'u', '\x7b'] ++ Nat.toDigits 16 c.toNat ++ ['\x7d']

def escape (c : Char) : List Char :=
  match c with
  | '\x00' => ['\\', '0']
  | '\t' => ['\\', 't']
  | '\r' => ['\\', 'r']
  | '\n' => ['\\', 'n']
  | '\\' => ['\\', '\\']
  | '"' => ['\\', '"']
  | c => if isExtending c || isUnprintable c then escapeByNumber c else [c]

def quoted (s : String) : String :=
  String.ofList ('"' :: s.toList.flatMap escape ++ ['"'])

end WebSocketHost.Text
