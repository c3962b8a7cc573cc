/-!
Spans of time, to the nanosecond. Seconds are counted in 64 bits, so that a sum
may have no representation.
-/
namespace WebSocketHost

structure Duration where
  nanos : Nat
  representable : nanos < UInt64.size * 1000000000
deriving DecidableEq

namespace Duration

def ofNanos? (n : Nat) : Option Duration :=
  if h : n < UInt64.size * 1000000000 then some ⟨n, h⟩ else none

def ofSeconds (s : UInt64) : Duration :=
  ⟨s.toNat * 1000000000, by have := s.toNat_lt_size; omega⟩

def ofMillis (ms : UInt64) : Duration :=
  ⟨ms.toNat * 1000000, by have := ms.toNat_lt_size; omega⟩

/-- The whole seconds. -/
def seconds (d : Duration) : Nat := d.nanos / 1000000000

/-- The whole milliseconds. -/
def millis (d : Duration) : Nat := d.nanos / 1000000

def add? (a b : Duration) : Option Duration := ofNanos? (a.nanos + b.nanos)

/-- A count and a part of one in so many digits, without the zeros at its end. -/
def decimal (whole part digits : Nat) (unit : String) : String :=
  let places := (List.range digits).map fun i => Nat.digitChar (part / Nat.pow 10 i % 10)
  let kept := (places.dropWhile (· = '0')).reverse
  toString whole ++ String.ofList (if kept = [] then [] else '.' :: kept) ++ unit

/-- In the largest unit of which there is one. -/
def toText (d : Duration) : String :=
  let n := d.nanos
  if 1000000000 ≤ n then decimal (n / 1000000000) (n % 1000000000) 9 "s"
  else if 1000000 ≤ n then decimal (n / 1000000) (n % 1000000) 6 "ms"
  else if 1000 ≤ n then decimal (n / 1000) (n % 1000) 3 "µs"
  else decimal n 0 0 "ns"

theorem ofNanos?_eq_none_iff {n : Nat} : ofNanos? n = none ↔ UInt64.size * 1000000000 ≤ n := by
  simp [ofNanos?]

theorem nanos_of_ofNanos? {n : Nat} {d : Duration} (h : ofNanos? n = some d) : d.nanos = n := by
  unfold ofNanos? at h
  split at h
  · cases h
    rfl
  · cases h

end Duration

end WebSocketHost
