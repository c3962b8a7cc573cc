import WebSocketHost.Toml.Number
import WebSocketHost.Toml.Text

/-!
Documents of TOML: assignments of values to keys, one a line, under headers
that name tables.
-/
namespace WebSocketHost.Toml

open Text (Reader)
open Text.Reader

/-- How many brackets and braces may stand around a value, and how many names in a key. -/
def maxDepth : Nat := 79

def comment : Reader Unit := do
  char '#'
  let _ ← takeWhile isPlain

def isBareKeyChar (c : Char) : Bool :=
  c.isAlpha || c.isDigit || c = '-' || c = '_'

def keyName : Reader String :=
  oneLine '"' true <|> oneLine '\'' false <|> (do return String.ofList (← takeSome isBareKeyChar))

/-- Names with dots between them, and blanks around each. -/
def key : Reader Key := do
  let names ← separated (char '.') do
    blank
    let n ← keyName
    blank
    return n
  if maxDepth < names.length then failure
  match names.reverse with
  | name :: path => return ⟨path.reverse, name⟩
  | [] => failure

/-- What may stand between the items of an array. -/
def arrayBlank : Reader Unit := do
  let _ ← many ((do let _ ← takeSome isSpace) <|> newline <|> (do comment; newline))

/-- Items with commas between them, and maybe one after the last. -/
def array (value : Reader Value) : Reader Value := do
  char '['
  let item : Reader Value := do
    arrayBlank
    let v ← value
    arrayBlank
    return v
  let items ← separated (char ',') item <|> pure []
  if items ≠ [] then optionally (char ',')
  arrayBlank
  char ']'
  return .array items

/-- Assignments on one line, with commas between them and none after the last. -/
def inlineTable (value : Reader Value) : Reader Value := do
  char '\x7b'
  let assignment : Reader (Key × Value) := do
    let k ← key
    char '='
    blank
    let v ← value
    blank
    return (k, v)
  let assignments ← separated (char ',') assignment <|> pure []
  blank
  char '\x7d'
  lift (braces? assignments)

/-- A value that holds no other. -/
def plainValue : Reader Value :=
  (do return .text (← quotedText)) <|> number
    <|> (do word "true"; return .flag true) <|> (do word "false"; return .flag false)

def value : (depth : Nat) → Reader Value
  | 0 => plainValue
  | depth + 1 => plainValue <|> array (value depth) <|> inlineTable (value depth)

/-- What may follow on the line of a statement. -/
def lineEnd : Reader Unit := do
  blank
  optionally comment
  newline <|> ending

def assignment : Reader Statement := do
  let k ← key
  char '='
  blank
  return .assignment k (← value maxDepth)

def elementHeader : Reader Statement := do
  word "[["
  let k ← key
  word "]]"
  return .element k

def tableHeader : Reader Statement := do
  char '['
  let k ← key
  char ']'
  return .table k

/-- A line with a statement or without one. -/
def line : Reader (Option Statement) := do
  blank
  (do
    let s ← elementHeader <|> tableHeader <|> assignment
    lineEnd
    return some s) <|> (do lineEnd; return none)

/-- A mark of the byte order may stand in front. -/
def statements : Reader (List Statement) := do
  optionally (char '\ufeff')
  let lines ← many line
  ending
  return lines.filterMap id

/-- The members of a document's outermost table. -/
def read (s : String) : Option Members := do
  let d ← Document.ofStatements? (← whole statements s)
  return d.members

end WebSocketHost.Toml
