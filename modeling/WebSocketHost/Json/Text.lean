import WebSocketHost.Text.Reader

/-!
Strings of JSON. What is written stays on one line, whatever the text holds.
-/
namespace WebSocketHost.Json

/-- Two hexadecimal digits in lower case. -/
def twoDigits (n : Nat) : List Char := [Nat.digitChar (n / 16), Nat.digitChar (n % 16)]

/-- Quotation mark, backslash and the controls are escaped, the common ones by a letter. -/
def escape (c : Char) : List Char :=
  match c with
  | '"' => ['\\', '"']
  | '\\' => ['\\', '\\']
  | '\x08' => ['\\', 'b']
  | '\t' => ['\\', 't']
  | '\n' => ['\\', 'n']
  | '\x0c' => ['\\', 'f']
  | '\r' => ['\\', 'r']
  | c => if c.toNat < 0x20 then ['\\', 'u', '0', '0'] ++ twoDigits c.toNat else [c]

def encodeText (s : String) : List Char := '"' :: s.toList.flatMap escape ++ ['"']

open Text (Reader)
open Text.Reader

/-- Spaces between the parts of a value. -/
def blank : Reader Unit := do
  let _ ← takeWhile fun c => c = ' ' || c = '\n' || c = '\t' || c = '\r'

/-- The character a one-letter escape stands for. -/
def letterEscape? (c : Char) : Option Char :=
  match c with
  | '"' => some '"'
  | '\\' => some '\\'
  | '/' => some '/'
  | 'b' => some '\x08'
  | 'f' => some '\x0c'
  | 'n' => some '\n'
  | 'r' => some '\r'
  | 't' => some '\t'
  | _ => none

/-- The number of four hexadecimal digits, and the rest. -/
def fourDigits? : List Char → Option (Nat × List Char)
  | a :: b :: c :: d :: rest =>
    if [a, b, c, d].all (isDigit 16) then some (valueOf 16 [a, b, c, d], rest) else none
  | _ => none

/-- A character from its escape by number. Characters past the first plane take
two escapes in a row, and half of a pair stands for nothing. -/
def numberEscape? (cs : List Char) : Option (Char × List Char) := do
  let (high, rest) ← fourDigits? cs
  if 0xD800 ≤ high ∧ high < 0xDC00 then
    match rest with
    | '\\' :: 'u' :: rest =>
      let (low, rest) ← fourDigits? rest
      if 0xDC00 ≤ low ∧ low < 0xE000 then
        some (Char.ofNat (0x10000 + (high - 0xD800) * 0x400 + (low - 0xDC00)), rest)
      else none
    | _ => none
  else if 0xDC00 ≤ high ∧ high < 0xE000 then none
  else some (Char.ofNat high, rest)

/-- One character of a string, and the rest. -/
def character? : List Char → Option (Char × List Char)
  | '\\' :: 'u' :: rest => numberEscape? rest
  | '\\' :: c :: rest => (letterEscape? c).map (·, rest)
  | c :: rest => if c.toNat < 0x20 ∨ c = '\\' then none else some (c, rest)
  | [] => none

/-- Characters up to the closing mark. `fuel` is the number of characters left. -/
def characters : (fuel : Nat) → List Char → Option (List Char × List Char)
  | _, '"' :: rest => some ([], rest)
  | 0, _ => none
  | fuel + 1, cs => do
    let (c, rest) ← character? cs
    let (text, rest) ← characters fuel rest
    some (c :: text, rest)

def text : Reader String := do
  char '"'
  let cs ← show Reader (List Char) from fun cs => characters cs.length cs
  return String.ofList cs

end WebSocketHost.Json
