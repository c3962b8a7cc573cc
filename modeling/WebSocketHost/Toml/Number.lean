import WebSocketHost.Toml.Table
import WebSocketHost.Text.Reader

/-!
Numbers, dates and times of TOML. Integers have 64 bits with a sign. Numbers
with a fraction, and dates and times, are checked and kept as written.
-/
namespace WebSocketHost.Toml

open Text (Reader)
open Text.Reader

/-- Digits in which single underscores may stand between two of them. -/
def digitRun (radix : Nat) : Reader (List Char) := do
  let first ← charWhere (isDigit radix)
  let rest ← many (charWhere (isDigit radix) <|> (do char '_'; charWhere (isDigit radix)))
  return first :: rest

def sign : Reader (List Char) := do
  let s ← optional (charWhere fun c => c = '+' || c = '-')
  return s.toList

def isNegative (sign : List Char) : Bool := sign = ['-']

/-- An integer if it is in range. -/
def integerOf (negative : Bool) (magnitude : Nat) : Reader Value :=
  let n : Int := if negative then -magnitude else magnitude
  if Int64.minValue.toInt ≤ n ∧ n ≤ Int64.maxValue.toInt then return .integer n else failure

/-- Decimal digits without a zero in front. -/
def decimalRun : Reader (List Char) := do
  let ds ← digitRun 10
  if ds.head? = some '0' ∧ 1 < ds.length then failure
  return ds

def integerInRadix (lead : String) (radix : Nat) : Reader Value := do
  word lead
  integerOf false (valueOf radix (← digitRun radix))

def decimalInteger : Reader Value := do
  let s ← sign
  integerOf (isNegative s) (valueOf 10 (← decimalRun))

def integer : Reader Value :=
  integerInRadix "0x" 16 <|> integerInRadix "0o" 8 <|> integerInRadix "0b" 2 <|> decimalInteger

/-- The largest number with a fraction is below this one, which already rounds to
no number. -/
def firstInfinite : Nat := 1 <<< 1024 - 1 <<< 970

/-- Whether digits times a power of ten stay below infinity. Outside of the
exponents compared the count of digits tells. -/
def isFinite (digits : Nat) (exponent : Int) : Bool :=
  let size : Int := (Nat.toDigits 10 digits).length + exponent
  if digits = 0 ∨ size < 300 then true
  else if 320 < size then false
  else if 0 ≤ exponent then digits * Nat.pow 10 exponent.toNat < firstInfinite
  else digits < firstInfinite * Nat.pow 10 (-exponent).toNat

def exponent : Reader (List Char) := do
  let e ← charWhere fun c => c = 'e' || c = 'E'
  let s ← sign
  return e :: s ++ (← digitRun 10)

def fraction : Reader (List Char) := do
  char '.'
  digitRun 10

/-- A number with a fraction, an exponent or both. One that is too large is
refused; below zero it counts as infinite. -/
def decimalFloat : Reader Value := do
  let s ← sign
  let whole ← decimalRun
  let part ← optional fraction
  let power ← optional exponent
  if part.isNone ∧ power.isNone then failure
  let places := part.getD []
  let scale : Int := match power with
    | none => 0
    | some p =>
      let n : Int := valueOf 10 (p.filter (isDigit 10))
      if p.contains '-' then -n else n
  if !isNegative s && !isFinite (valueOf 10 (whole ++ places)) (scale - places.length) then failure
  let point := if part.isSome then '.' :: places else []
  return .float (String.ofList (s ++ whole ++ point ++ power.getD []))

def specialFloat : Reader Value := do
  let s ← sign
  let name ← (do word "inf"; return "inf") <|> (do word "nan"; return "nan")
  return .float (String.ofList s ++ name)

def float : Reader Value := decimalFloat <|> specialFloat

/-! ### Dates and times -/

/-- A number of so many digits in a range. -/
def field (digits low high : Nat) : Reader (List Char) := do
  let ds ← (List.range digits).mapM fun _ => charWhere (isDigit 10)
  let n := valueOf 10 ds
  if low ≤ n ∧ n ≤ high then return ds else failure

def daysIn (year month : Nat) : Nat :=
  if month = 2 then
    if year % 4 = 0 ∧ (year % 100 ≠ 0 ∨ year % 400 = 0) then 29 else 28
  else if month ∈ [4, 6, 9, 11] then 30
  else 31

def date : Reader (List Char) := do
  let year ← field 4 0 9999
  char '-'
  let month ← field 2 1 12
  char '-'
  let day ← field 2 1 (daysIn (valueOf 10 year) (valueOf 10 month))
  return year ++ '-' :: month ++ '-' :: day

/-- A minute may have one second more than sixty at its end. -/
def time : Reader (List Char) := do
  let hour ← field 2 0 23
  char ':'
  let minute ← field 2 0 59
  char ':'
  let second ← field 2 0 60
  let part ← optional (do char '.'; return '.' :: (← takeSome (isDigit 10)))
  return hour ++ ':' :: minute ++ ':' :: second ++ part.getD []

def offset : Reader (List Char) :=
  (do return [← charWhere fun c => c = 'Z' || c = 'z'])
    <|> (do
      let s ← charWhere fun c => c = '+' || c = '-'
      let hour ← field 2 0 23
      char ':'
      return s :: hour ++ ':' :: (← field 2 0 59))

def dateAndTime : Reader (List Char) := do
  let d ← date
  let rest ← optional do
    let delimiter ← charWhere fun c => c = 'T' || c = 't' || c = ' '
    let t ← time
    let o ← optional offset
    return delimiter :: t ++ o.getD []
  return d ++ rest.getD []

def moment : Reader Value := do
  return .moment (String.ofList (← dateAndTime <|> time))

def number : Reader Value := moment <|> float <|> integer

end WebSocketHost.Toml
