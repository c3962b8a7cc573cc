import WebSocketHost.Text.Reader

/-!
Internet addresses and their text: four decimal numbers, or eight hexadecimal
groups with the longest run of zeros left out.
-/
namespace WebSocketHost

structure Ipv4 where
  first : UInt8
  second : UInt8
  third : UInt8
  fourth : UInt8
deriving DecidableEq

structure Ipv6 where
  groups : List UInt16
  length_groups : groups.length = 8
deriving DecidableEq

inductive IpAddress
  | v4 (a : Ipv4)
  | v6 (a : Ipv6)
deriving DecidableEq

open Text (Reader)
open Text.Reader

namespace Ipv4

def toText (a : Ipv4) : String :=
  s!"{a.first.toNat}.{a.second.toNat}.{a.third.toNat}.{a.fourth.toNat}"

/-- A number of an address has at most three digits and no leading zero. -/
def octet : Reader UInt8 := do
  let digits ← takeWhile (isDigit 10)
  let n := valueOf 10 digits
  if digits = [] ∨ 3 < digits.length ∨ 256 ≤ n then failure
  if digits.head? = some '0' ∧ 1 < digits.length then failure
  return UInt8.ofNat n

def read : Reader Ipv4 := do
  let a ← octet
  char '.'
  let b ← octet
  char '.'
  let c ← octet
  char '.'
  let d ← octet
  return ⟨a, b, c, d⟩

def loopback : Ipv4 := ⟨127, 0, 0, 1⟩

def isLoopback (a : Ipv4) : Bool := a.first = 127
def isLinkLocal (a : Ipv4) : Bool := a.first = 169 && a.second = 254
def isUnspecified (a : Ipv4) : Bool := a = ⟨0, 0, 0, 0⟩

/-- The address as the last two groups of a longer one. -/
def groups (a : Ipv4) : List UInt16 :=
  [a.first.toUInt16 * 256 + a.second.toUInt16, a.third.toUInt16 * 256 + a.fourth.toUInt16]

end Ipv4

namespace Ipv6

def groupText (g : UInt16) : String := String.ofList (Nat.toDigits 16 g.toNat)

def joinGroups (gs : List UInt16) : String := ":".intercalate (gs.map groupText)

/-- Zeros in a row from a place on. -/
def zerosAt (gs : List UInt16) (i : Nat) : Nat := ((gs.drop i).takeWhile (· = 0)).length

/-- Where the longest run of zeros starts; of several, the first. -/
def longestZeros (gs : List UInt16) : Nat :=
  (List.range gs.length).foldl (fun best i => if zerosAt gs best < zerosAt gs i then i else best) 0

/-- The four numbers that an address carries for the shorter kind. -/
def mapped? (a : Ipv6) : Option Ipv4 :=
  match a.groups with
  | [0, 0, 0, 0, 0, 0xffff, high, low] =>
    some ⟨(high / 256).toUInt8, high.toUInt8, (low / 256).toUInt8, low.toUInt8⟩
  | _ => none

/-- A single zero is written; of a longer run only the colons around it are. -/
def toText (a : Ipv6) : String :=
  match a.mapped? with
  | some v4 => "::ffff:" ++ v4.toText
  | none =>
    let start := longestZeros a.groups
    let length := zerosAt a.groups start
    if length < 2 then joinGroups a.groups
    else joinGroups (a.groups.take start) ++ "::" ++ joinGroups (a.groups.drop (start + length))

/-- A group has at most four digits. -/
def group : Reader UInt16 := do
  let digits ← takeWhile (isDigit 16)
  if digits = [] ∨ 4 < digits.length then failure
  return UInt16.ofNat (valueOf 16 digits)

/-- A colon comes before every group but the first. -/
def separated (first : Bool) (r : Reader α) : Reader α := do
  if !first then char ':'
  r

/-- Up to `room` groups. The last two may be written as a shorter address,
which ends the reading; the flag tells whether they were. -/
def readGroups : (room : Nat) → (first : Bool) → List Char → List UInt16 × Bool × List Char
  | 0, _, cs => ([], false, cs)
  | room + 1, first, cs =>
    match if room = 0 then none else separated first Ipv4.read cs with
    | some (v4, cs) => (v4.groups, true, cs)
    | none =>
      match separated first group cs with
      | some (g, cs) =>
        let (gs, short, cs) := readGroups room false cs
        (g :: gs, short, cs)
      | none => ([], false, cs)

def groupsUpTo (room : Nat) : Reader (List UInt16 × Bool) := fun cs =>
  let (gs, short, rest) := readGroups room true cs
  some ((gs, short), rest)

def ofGroups? (gs : List UInt16) : Option Ipv6 := if h : gs.length = 8 then some ⟨gs, h⟩ else none

/-- Two colons stand for one zero group or more. -/
def read : Reader Ipv6 := do
  let (head, short) ← groupsUpTo 8
  if head.length = 8 then lift (ofGroups? head)
  else if short then failure
  else
    char ':'
    char ':'
    let (tail, _) ← groupsUpTo (7 - head.length)
    let zeros := List.replicate (8 - head.length - tail.length) 0
    lift (ofGroups? (head ++ zeros ++ tail))

end Ipv6

namespace IpAddress

def toText : IpAddress → String
  | v4 a => a.toText
  | v6 a => a.toText

def read : Reader IpAddress := v4 <$> Ipv4.read <|> v6 <$> Ipv6.read

def ofText? (s : String) : Option IpAddress := whole read s

end IpAddress

end WebSocketHost
