import WebSocketHost.Octets
import WebSocketHost.Text.Ascii

/-!
Base64 with the standard alphabet. Only the canonical form is read: every
group has four symbols, padding fills the last one, and the bits that encode
nothing are zero. An error names the first byte that is out of place.
-/
namespace WebSocketHost.Base64

/-- The symbol of a six-bit value. -/
def symbol (v : Nat) : UInt8 :=
  UInt8.ofNat <|
    if v < 26 then 65 + v
    else if v < 52 then 71 + v
    else if v < 62 then v - 4
    else if v = 62 then 43
    else 47

def value? (o : UInt8) : Option Nat :=
  let n := o.toNat
  if 65 ≤ n ∧ n ≤ 90 then some (n - 65)
  else if 97 ≤ n ∧ n ≤ 122 then some (n - 71)
  else if 48 ≤ n ∧ n ≤ 57 then some (n + 4)
  else if n = 43 then some 62
  else if n = 47 then some 63
  else none

theorem value?_symbol : ∀ v < 64, value? (symbol v) = some v := by decide

/-- Fills up the last group. -/
def pad : UInt8 := 61

/-- The symbols of up to three bytes, padded to four. -/
def group : Octets → Octets
  | [] => []
  | [a] => [symbol (a.toNat / 4), symbol (a.toNat % 4 * 16), pad, pad]
  | [a, b] =>
    [symbol (a.toNat / 4), symbol (a.toNat % 4 * 16 + b.toNat / 16), symbol (b.toNat % 16 * 4), pad]
  | a :: b :: c :: _ =>
    [symbol (a.toNat / 4), symbol (a.toNat % 4 * 16 + b.toNat / 16),
      symbol (b.toNat % 16 * 4 + c.toNat / 64), symbol (c.toNat % 64)]

def encode : Octets → Octets
  | a :: b :: c :: rest => group [a, b, c] ++ encode rest
  | last => group last

/-- The encoding as text; its symbols are all ASCII. -/
def toText (b : Octets) : String := Text.ofAscii (encode b)

/-- Offsets count bytes from the front of the text. -/
inductive DecodeError
  | invalidSymbol (offset : Nat) (symbol : UInt8)
  /-- The last symbol has bits set that encode nothing. -/
  | invalidLastSymbol (offset : Nat) (symbol : UInt8)
  | invalidLength (length : Nat)
  | invalidPadding
deriving DecidableEq

namespace DecodeError

def message : DecodeError → String
  | invalidSymbol offset symbol => s!"Invalid symbol {symbol.toNat}, offset {offset}."
  | invalidLastSymbol offset symbol => s!"Invalid last symbol {symbol.toNat}, offset {offset}."
  | invalidLength length => s!"Invalid input length: {length}"
  | invalidPadding => "Invalid padding"

end DecodeError

/-- The values of symbols that start at an offset. -/
def values (offset : Nat) : Octets → Except DecodeError (List Nat)
  | [] => .ok []
  | o :: rest =>
    match value? o with
    | none => .error (.invalidSymbol offset o)
    | some v => return v :: (← values (offset + 1) rest)

/-- The bytes that two to four values encode whole, and the bits left over. -/
def join : List Nat → Octets × Nat
  | [a, b] => ([UInt8.ofNat (a * 4 + b / 16)], b % 16)
  | [a, b, c] => ([UInt8.ofNat (a * 4 + b / 16), UInt8.ofNat (b * 16 + c / 4)], c % 4)
  | [a, b, c, d] =>
    ([UInt8.ofNat (a * 4 + b / 16), UInt8.ofNat (b * 16 + c / 4), UInt8.ofNat (c * 64 + d)], 0)
  | _ => ([], 0)

/-- The last group: symbols, then nothing but padding. -/
def decodeLast (offset : Nat) (last : Octets) : Except DecodeError Octets := do
  let symbols := last.takeWhile (· != pad)
  let padding := last.drop symbols.length
  let vs ← values offset symbols
  if padding ≠ [] ∧ (symbols.length < 2 ∨ padding.any (· != pad)) then
    .error (.invalidSymbol (offset + symbols.length) pad)
  else if last ≠ [] ∧ symbols.length < 2 then .error (.invalidLength (offset + symbols.length))
  else if last.length % 4 ≠ 0 then .error .invalidPadding
  else
    let (bytes, left) := join vs
    if left ≠ 0 then
      .error (.invalidLastSymbol (offset + symbols.length - 1) (symbols.getLast?.getD pad))
    else .ok bytes

/-- Groups from an offset on. Padding may stand in the last one only. -/
def decodeFrom (offset : Nat) : Octets → Except DecodeError Octets
  | a :: b :: c :: d :: e :: rest => do
    let vs ← values offset [a, b, c, d]
    return (join vs).1 ++ (← decodeFrom (offset + 4) (e :: rest))
  | last => decodeLast offset last

/-- A single byte after the last whole group is judged before all else, because
it is most often a line break left at the end. -/
def strayEnd? (b : Octets) : Option DecodeError :=
  match b.getLast? with
  | some o =>
    if b.length % 4 = 1 ∧ o ≠ pad ∧ value? o = none then some (.invalidSymbol (b.length - 1) o)
    else none
  | none => none

def decode (b : Octets) : Except DecodeError Octets :=
  match strayEnd? b with
  | some e => .error e
  | none => decodeFrom 0 b

end WebSocketHost.Base64
