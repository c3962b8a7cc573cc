/-!
Fan-out of a stream to any number of receivers. A channel keeps the latest
items only; a receiver that falls behind is told how many it missed, and goes
on with the oldest that is kept.
-/
namespace WebSocketHost

/-- The smallest power of two that is not below a number: one more binary digit
than the number before it has. -/
def ceilPow2 (n : Nat) : Nat := if n ≤ 1 then 1 else 1 <<< ((n - 1).log2 + 1)

theorem le_ceilPow2 (n : Nat) : n ≤ ceilPow2 n := by
  unfold ceilPow2
  split
  · assumption
  · have := Nat.lt_log2_self (n := n - 1)
    rw [Nat.one_shiftLeft]
    omega

structure Broadcast (α : Type) where
  capacity : Nat
  /-- Items sent so far. -/
  sent : Nat := 0
  /-- The items kept, the latest first. -/
  kept : List α := []

namespace Broadcast

variable {α : Type}

/-- A channel that keeps at least so many items. There is none that keeps nothing. -/
def ofCapacity (capacity : Nat) (_ : 0 < capacity) : Broadcast α :=
  { capacity := ceilPow2 capacity }

def send (b : Broadcast α) (a : α) : Broadcast α :=
  { b with sent := b.sent + 1, kept := (a :: b.kept).take b.capacity }

/-- A place in a stream: the number of items before it. -/
structure Cursor where
  next : Nat
deriving DecidableEq

/-- The place after all items sent so far. -/
def subscribe (b : Broadcast α) : Cursor := ⟨b.sent⟩

/-- What a receiver gets when it asks for the next item. -/
inductive Delivery (α : Type)
  | empty
  | item (a : α)
  /-- So many items were dropped before this receiver got to them. -/
  | lagged (missed : Nat)
deriving DecidableEq

def receive (b : Broadcast α) (c : Cursor) : Delivery α × Cursor :=
  let oldest := b.sent - b.capacity
  if c.next < oldest then (.lagged (oldest - c.next), ⟨oldest⟩)
  else if c.next < b.sent then
    match b.kept[b.sent - 1 - c.next]? with
    | some a => (.item a, ⟨c.next + 1⟩)
    | none => (.empty, c)
  else (.empty, c)

/-- All there is for a receiver, in order. `fuel` bounds the number of deliveries. -/
def drainFrom (b : Broadcast α) : (fuel : Nat) → Cursor → List (Delivery α) × Cursor
  | 0, c => ([], c)
  | fuel + 1, c =>
    match b.receive c with
    | (.empty, c) => ([], c)
    | (d, c) =>
      let (ds, c) := b.drainFrom fuel c
      (d :: ds, c)

def drain (b : Broadcast α) (c : Cursor) : List (Delivery α) × Cursor :=
  b.drainFrom (b.sent + 1) c

end Broadcast

/-- A cell that holds the latest value and counts its changes. -/
structure Watch (α : Type) where
  value : α
  version : Nat := 0

namespace Watch

variable {α : Type}

def replace (w : Watch α) (a : α) : Watch α := ⟨a, w.version + 1⟩

/-- Whether the value was replaced since an observer looked, and what it is now. -/
def observe (w : Watch α) (seen : Nat) : Bool × α × Nat := (w.version != seen, w.value, w.version)

end Watch

end WebSocketHost
