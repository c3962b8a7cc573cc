import WebSocketHost.Text.Reader

/-!
Strings of TOML: between quotation marks with escapes, or between apostrophes
as they are; on one line, or on several between threefold marks.
-/
namespace WebSocketHost.Toml

open Text (Reader)
open Text.Reader

def isSpace (c : Char) : Bool := c = ' ' || c = '\t'

def blank : Reader Unit := do
  let _ ← takeWhile isSpace

def newline : Reader Unit := char '\n' <|> word "\r\n"

/-- The characters that stand for themselves in texts and comments: all but the controls. -/
def isPlain (c : Char) : Bool := c = '\t' || (0x20 ≤ c.toNat && c.toNat ≠ 0x7F)

/-- The character with a number of so many hexadecimal digits. -/
def characterByNumber (digits : Nat) : Reader Char := do
  let ds ← (List.range digits).mapM fun _ => charWhere (isDigit 16)
  let n := valueOf 16 ds
  if n.isValidChar then return Char.ofNat n else failure

def escapeByLetter? (c : Char) : Option Char :=
  match c with
  | 'b' => some '\x08'
  | 't' => some '\t'
  | 'n' => some '\n'
  | 'f' => some '\x0c'
  | 'r' => some '\r'
  | '"' => some '"'
  | '\\' => some '\\'
  | _ => none

def escaped : Reader Char := do
  char '\\'
  (do char 'u'; characterByNumber 4) <|> (do char 'U'; characterByNumber 8)
    <|> (do lift (escapeByLetter? (← charWhere fun _ => true)))

def isPlainWithin (mark : Char) (escapes : Bool) (c : Char) : Bool :=
  isPlain c && c != mark && !(escapes && c = '\\')

def oneLine (mark : Char) (escapes : Bool) : Reader String := do
  char mark
  let plain := charWhere (isPlainWithin mark escapes)
  let cs ← many (if escapes then plain <|> escaped else plain)
  char mark
  return String.ofList cs

/-- A line break that a backslash takes away, with the blanks around it. -/
def joinedLine : Reader Unit := do
  char '\\'
  blank
  newline
  let _ ← many (newline <|> (do let _ ← takeSome isSpace))

/-- A piece of a text on several lines that holds no mark. -/
def piece (mark : Char) (escapes : Bool) : Reader (List Char) :=
  let plain : Reader (List Char) := do return [← charWhere (isPlainWithin mark escapes)]
  let lineBreak : Reader (List Char) := do newline; return ['\n']
  let special : Reader (List Char) := (do joinedLine; return []) <|> (do return [← escaped])
  if escapes then plain <|> special <|> lineBreak else plain <|> lineBreak

/-- Marks in a row inside a text. Up to two belong to it; three end it, and then
up to two before them belong to it. -/
def marksWithin (mark : Char) : Reader (List Char) := fun cs =>
  match cs.takeWhile (· = mark) with
  | [m] => some ([m], cs.drop 1)
  | [m, m'] => some ([m, m'], cs.drop 2)
  | _ => none

def closingMarks (mark : Char) : Reader (List Char) := fun cs =>
  let n := (cs.takeWhile (· = mark)).length
  if 3 ≤ n ∧ n ≤ 5 then some (cs.take (n - 3), cs.drop n) else none

/-- A line break right after the opening marks is left out. -/
def manyLines (mark : Char) (escapes : Bool) : Reader String := do
  word (String.ofList [mark, mark, mark])
  optionally newline
  let pieces ← many (piece mark escapes <|> marksWithin mark)
  let last ← closingMarks mark
  return String.ofList (pieces.flatten ++ last)

def quotedText : Reader String :=
  manyLines '"' true <|> oneLine '"' true <|> manyLines '\'' false <|> oneLine '\'' false

end WebSocketHost.Toml
