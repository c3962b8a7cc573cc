import WebSocketHost.RequestHead
import WebSocketHost.Text.Utf8

/-!
Reading a request head from the front of a byte string. The bytes are judged in
order and the first that is out of place decides, so bytes that come later
change nothing about an answer, except that they may complete a head.
-/
namespace WebSocketHost.RequestHead

/-- What is wrong with a head. -/
inductive Fault
  | token
  | newLine
  | headerName
  | headerValue
  | tooManyHeaders
  | valueNotUtf8 (name : String)
deriving DecidableEq

namespace Fault

def message : Fault → String
  | token => "invalid token"
  | newLine => "invalid new line"
  | headerName => "invalid header name"
  | headerValue => "invalid header value"
  | tooManyHeaders => "too many headers"
  | valueNotUtf8 name => s!"header {name} is not UTF-8"

end Fault

/-- Why there is no head at the front of a buffer. -/
inductive ReadError
  /-- The blank line that ends a head has not come yet: read on and try again. -/
  | incomplete (available : Nat)
  | tooLarge (max : Nat)
  | malformed (fault : Fault)
  | unsupportedVersion
deriving DecidableEq

namespace ReadError

def message : ReadError → String
  | incomplete available => s!"incomplete request head ({available} bytes so far)"
  | tooLarge max => s!"request head exceeds {max} bytes"
  | malformed fault => s!"malformed request: {fault.message}"
  | unsupportedVersion => "unsupported HTTP version"

end ReadError

/-- How far a rule of the grammar gets with a byte string. -/
inductive Scan (α : Type)
  | done (value : α) (rest : Octets)
  /-- The bytes end inside what the rule describes. -/
  | more
  | bad (fault : Fault)
  /-- The version is not one that is spoken here. -/
  | badVersion

/-- A rule of the grammar. -/
def Rule (α : Type) := Octets → Scan α

namespace Rule

/-- One rule after another, each on what the one before it left. -/
def andThen (r : Rule α) (f : α → Rule β) : Rule β := fun b =>
  match r b with
  | .done a rest => f a rest
  | .more => .more
  | .bad fault => .bad fault
  | .badVersion => .badVersion

instance : Monad Rule where
  pure a := fun b => .done a b
  bind := andThen

def fail (fault : Fault) : Rule α := fun _ => .bad fault

/-- Bytes while `p` holds, and the first byte it does not hold of. -/
def stretch (p : UInt8 → Bool) : Rule (Octets × UInt8) := fun b =>
  match b.dropWhile p with
  | [] => .more
  | o :: rest => .done (b.takeWhile p, o) rest

def byte : Rule UInt8 := fun b =>
  match b with
  | [] => .more
  | o :: rest => .done o rest

end Rule

open Rule

def lineFeed : UInt8 := 10
def carriageReturn : UInt8 := 13
def space : UInt8 := 32
def tab : UInt8 := 9
def colon : UInt8 := 58

/-- The marks that may stand in a token beside letters and digits. -/
def tokenMarks : List UInt8 := [33, 35, 36, 37, 38, 39, 42, 43, 45, 46, 94, 95, 96, 124, 126]

/-- Bytes of a method or a header name. -/
def isToken (o : UInt8) : Bool :=
  (48 ≤ o && o ≤ 57) || (65 ≤ o && o ≤ 90) || (97 ≤ o && o ≤ 122) || tokenMarks.contains o

/-- Bytes of a target: all but controls, the space and the delete character. -/
def isTarget (o : UInt8) : Bool := 33 ≤ o && o ≠ 127

/-- Bytes of a header value: all but controls, though the tab is one of them. -/
def isValue (o : UInt8) : Bool := o = tab || (32 ≤ o && o ≠ 127)

/-- A line feed is wanted after a carriage return. -/
def feed (fault : Fault) : Rule Unit := do
  if (← byte) ≠ lineFeed then fail fault

/-- The end of a line, of which the first byte has been taken. -/
def endLine (first : UInt8) (fault : Fault) : Rule Unit :=
  if first = carriageReturn then feed fault
  else if first = lineFeed then pure ()
  else fail fault

/-- Empty lines before the request line are passed over. -/
def emptyLines : Octets → Scan Unit
  | [] => .more
  | o :: rest =>
    if o = lineFeed then emptyLines rest
    else if o = carriageReturn then
      match rest with
      | [] => .more
      | o :: rest => if o = lineFeed then emptyLines rest else .bad .newLine
    else .done () (o :: rest)

def methodRule : Rule String := do
  let (name, stop) ← stretch isToken
  if name = [] ∨ stop ≠ space then fail .token
  return Text.ofAscii name

def targetRule : Rule String := do
  let (target, stop) ← stretch isTarget
  if target = [] ∨ stop ≠ space then fail .token
  match Text.ofUtf8? target with
  | some t => return t
  | none => fail .token

def versionText : Octets := Text.utf8 "HTTP/1."

/-- The version is compared as a whole once it is there, and as far as it goes before that. -/
def versionRule : Rule Nat := fun b =>
  if b.length < 8 then
    if b.isPrefixOf versionText then .more else .badVersion
  else if b.take 8 = versionText ++ [48] then .done 0 (b.drop 8)
  else if b.take 8 = versionText ++ [49] then .done 1 (b.drop 8)
  else .badVersion

/-- A header line, or nothing for the blank line that ends the head. -/
def lineRule : Rule (Option (Octets × Octets)) := do
  let (name, stop) ← stretch isToken
  if name = [] ∧ (stop = carriageReturn ∨ stop = lineFeed) then
    endLine stop .newLine
    return none
  if name = [] ∨ stop ≠ colon then fail .headerName
  let (value, stop) ← stretch isValue
  endLine stop .headerValue
  return some (name, Text.trimWhile (fun o => o = space || o = tab) value)

/-- Header lines up to the blank one, for as many as there is room. -/
def linesRule : Nat → Rule (List (Octets × Octets))
  | 0 => do
    match ← lineRule with
    | none => return []
    | some _ => fail .tooManyHeaders
  | room + 1 => do
    match ← lineRule with
    | none => return []
    | some line => return line :: (← linesRule room)

/-- The parts of a head as they were sent. -/
structure Raw where
  method : String
  target : String
  minorVersion : Nat
  lines : List (Octets × Octets)

def headRule : Rule Raw := do
  show Rule Unit from emptyLines
  let method ← methodRule
  let target ← targetRule
  let minorVersion ← versionRule
  endLine (← byte) .newLine
  let lines ← linesRule maxHeaders
  return { method, target, minorVersion, lines }

/-- A header as text, unless its value is none. -/
def header (line : Octets × Octets) : Except ReadError (String × String) :=
  let name := Text.ofAscii line.1
  match Text.ofUtf8? line.2 with
  | some value => .ok (name, Text.trim value)
  | none => .error (.malformed (.valueNotUtf8 name))

/-- The head at the front of a byte string, and what follows it. -/
def read (b : Octets) : Except ReadError (RequestHead × Octets) :=
  match headRule b with
  | .done raw rest =>
    if maxSize < b.length - rest.length then .error (.tooLarge maxSize)
    else do
      let headers ← raw.lines.mapM header
      return (⟨raw.method, raw.target, raw.minorVersion, headers⟩, rest)
  | .more => if maxSize < b.length then .error (.tooLarge maxSize) else .error (.incomplete b.length)
  | .bad fault => .error (.malformed fault)
  | .badVersion => .error .unsupportedVersion

end WebSocketHost.RequestHead
