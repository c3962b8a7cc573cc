/-!
Readers of text: each takes characters from the front and leaves the rest, or
refuses and takes nothing.
-/
namespace WebSocketHost.Text

def Reader (α : Type) := List Char → Option (α × List Char)

namespace Reader

instance : Monad Reader where
  pure a := fun cs => some (a, cs)
  bind r f := fun cs => (r cs).bind fun (a, rest) => f a rest

instance : Alternative Reader where
  failure := fun _ => none
  orElse r s := fun cs => (r cs).orElse fun _ => s () cs

/-- What is read from a whole text, if nothing is left of it. -/
def whole (r : Reader α) (s : String) : Option α :=
  match r s.toList with
  | some (a, []) => some a
  | _ => none

/-- A reading that may turn out to be none. -/
def lift : Option α → Reader α
  | some a => pure a
  | none => failure

def char (c : Char) : Reader Unit := fun cs =>
  match cs with
  | d :: rest => if d = c then some ((), rest) else none
  | [] => none

/-- Characters while `p` holds, possibly none. -/
def takeWhile (p : Char → Bool) : Reader (List Char) := fun cs =>
  some (cs.takeWhile p, cs.dropWhile p)

/-- One character of a class. -/
def charWhere (p : Char → Bool) : Reader Char := fun cs =>
  match cs with
  | c :: rest => if p c then some (c, rest) else none
  | [] => none

/-- Characters while `p` holds, at least one. -/
def takeSome (p : Char → Bool) : Reader (List Char) := do
  let cs ← takeWhile p
  if cs = [] then failure
  return cs

def word (s : String) : Reader Unit := s.toList.forM char

def optionally (r : Reader Unit) : Reader Unit := r <|> pure ()

/-- The end of a text. -/
def ending : Reader Unit := fun cs => if cs.isEmpty then some ((), cs) else none

/-- As many readings in a row as there are. One that takes nothing is the last. -/
def many (r : Reader α) : Reader (List α) := fun cs =>
  match r cs with
  | none => some ([], cs)
  | some (a, rest) =>
    if _h : rest.length < cs.length then (many r rest).map fun (as, rest) => (a :: as, rest)
    else some ([a], rest)
termination_by cs => cs.length

/-- Readings with a separator between them, at least one. -/
def separated (separator : Reader Unit) (r : Reader α) : Reader (List α) := do
  let a ← r
  let as ← many (do separator; r)
  return a :: as

def digitValue? (radix : Nat) (c : Char) : Option Nat :=
  let v :=
    if '0' ≤ c ∧ c ≤ '9' then c.toNat - 48
    else if 'a' ≤ c ∧ c ≤ 'z' then c.toNat - 87
    else if 'A' ≤ c ∧ c ≤ 'Z' then c.toNat - 55
    else radix
  if v < radix then some v else none

def isDigit (radix : Nat) (c : Char) : Bool := (digitValue? radix c).isSome

/-- The number that digits stand for. -/
def valueOf (radix : Nat) (digits : List Char) : Nat :=
  digits.foldl (fun n c => n * radix + (digitValue? radix c).getD 0) 0

/-- All the digits there are, as a number below a bound. -/
def number (radix bound : Nat) : Reader Nat := do
  let digits ← takeWhile (isDigit radix)
  let n := valueOf radix digits
  if digits = [] ∨ bound ≤ n then failure
  return n

end Reader

end WebSocketHost.Text
