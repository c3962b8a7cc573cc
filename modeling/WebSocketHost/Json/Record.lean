import WebSocketHost.Json.Text

/-!
Records with fixed fields, as JSON. A record is read from an object with its
fields in any order, each of them once, or from an array of its values. What an
object holds beside the fields is passed over.
-/
namespace WebSocketHost.Json

open Text (Reader)
open Text.Reader

inductive Kind
  | text
  | flag
deriving DecidableEq

inductive Scalar
  | text (s : String)
  | flag (b : Bool)
deriving DecidableEq

/-- Names and kinds in the order the record is written. -/
abbrev Fields := List (String × Kind)

namespace Scalar

def encode : Scalar → List Char
  | text s => encodeText s
  | flag b => (if b then "true" else "false").toList

def read : Kind → Reader Scalar
  | .text => text <$> Json.text
  | .flag => (do word "true"; return flag true) <|> (do word "false"; return flag false)

end Scalar

/-- The object with the fields and their values, without any spaces. -/
def encodeRecord (members : List (String × Scalar)) : String :=
  let member (m : String × Scalar) := encodeText m.1 ++ ':' :: m.2.encode
  String.ofList ('\x7b' :: [','].intercalate (members.map member) ++ ['\x7d'])

/-! ### Values that are passed over -/

/-- An escape that is passed over need not stand for a character. -/
def skipCharacters : (fuel : Nat) → List Char → Option (Unit × List Char)
  | _, '"' :: rest => some ((), rest)
  | 0, _ => none
  | fuel + 1, '\\' :: 'u' :: rest => do
    let (_, rest) ← fourDigits? rest
    skipCharacters fuel rest
  | fuel + 1, '\\' :: c :: rest => do
    let _ ← letterEscape? c
    skipCharacters fuel rest
  | fuel + 1, c :: rest => if c.toNat < 0x20 ∨ c = '\\' then none else skipCharacters fuel rest
  | _, [] => none

def skipText : Reader Unit := do
  char '"'
  show Reader Unit from fun cs => skipCharacters cs.length cs

def digits : Reader Unit := do
  if (← takeWhile (isDigit 10)) = [] then failure

/-- A number that starts with zero has no other digit before its point. -/
def skipNumber : Reader Unit := do
  optionally (char '-')
  let whole ← takeWhile (isDigit 10)
  if whole = [] ∨ (whole.head? = some '0' ∧ 1 < whole.length) then failure
  let point := (← takeWhile fun c => c = '.').length
  if 1 < point then failure
  if point = 1 then digits
  let exponent := (← takeWhile fun c => c = 'e' || c = 'E').length
  if 1 < exponent then failure
  if exponent = 1 then
    optionally (char '+' <|> char '-')
    digits

/-- Items between brackets, with commas between them. -/
def skipItems (fuel : Nat) (item : Reader Unit) (close : Char) : Reader Unit :=
  match fuel with
  | 0 => failure
  | fuel + 1 => do
    item
    blank
    char close <|> (do char ','; blank; skipItems fuel item close)

def skipBracketed (size : Nat) (item : Reader Unit) (close : Char) : Reader Unit := do
  blank
  char close <|> skipItems size item close

/-- Any value. `size` is the length of the text, which bounds the depth of nesting. -/
def skipValue (size : Nat) : (depth : Nat) → Reader Unit
  | 0 => failure
  | depth + 1 =>
    word "null" <|> word "true" <|> word "false" <|> skipText <|> skipNumber
      <|> (do char '['; skipBracketed size (skipValue size depth) ']')
      <|> (do
        char '\x7b'
        let member : Reader Unit := do
          skipText
          blank
          char ':'
          blank
          skipValue size depth
        skipBracketed size member '\x7d')

/-! ### Reading records -/

/-- A member of an object: a field that has not come yet, or anything else. -/
def member (fields : Fields) (size : Nat) (known : List (String × Scalar)) :
    Reader (List (String × Scalar)) := do
  let name ← text
  blank
  char ':'
  blank
  match fields.lookup name with
  | some kind =>
    if known.any (·.1 = name) then failure
    return (name, ← Scalar.read kind) :: known
  | none =>
    skipValue size size
    return known

def members (fields : Fields) (size : Nat) :
    (fuel : Nat) → List (String × Scalar) → Reader (List (String × Scalar))
  | 0, _ => failure
  | fuel + 1, known => do
    let known ← member fields size known
    blank
    (do char '\x7d'; return known) <|> (do char ','; blank; members fields size fuel known)

/-- The values of an object's fields, in the order of the fields. -/
def readObject (fields : Fields) (size : Nat) : Reader (List Scalar) := do
  char '\x7b'
  blank
  let known ← (do char '\x7d'; return []) <|> members fields size size []
  lift (fields.mapM fun (name, _) => known.lookup name)

def readArray : Fields → Reader (List Scalar)
  | [] => return []
  | (_, kind) :: fields => do
    let v ← Scalar.read kind
    blank
    if fields ≠ [] then
      char ','
      blank
    return v :: (← readArray fields)

def readRecord (fields : Fields) (size : Nat) : Reader (List Scalar) := do
  blank
  let values ←
    (do char '['; blank; let vs ← readArray fields; char ']'; return vs) <|> readObject fields size
  blank
  return values

/-- The values of a record, in the order of its fields. -/
def record? (fields : Fields) (s : String) : Option (List Scalar) :=
  whole (readRecord fields (s.length + 1)) s

end WebSocketHost.Json
