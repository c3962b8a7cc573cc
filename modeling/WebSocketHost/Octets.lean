/-!
Byte strings, and the numbers a wire format writes most significant byte first.
Main statements: `ofNat` has the width asked for, and `toNat` reads it back.
-/
namespace WebSocketHost

/-- A byte string as the wire carries it. -/
abbrev Octets := List UInt8

namespace Octets

/-- The number a byte string stands for, most significant byte first. -/
def toNat (b : Octets) : Nat := b.foldl (fun n o => n * 256 + o.toNat) 0

/-- The lowest `width` bytes of a number, most significant first. -/
def ofNat : Nat → Nat → Octets
  | 0, _ => []
  | width + 1, n => ofNat width (n / 256) ++ [UInt8.ofNat n]

@[simp] theorem length_ofNat (width n : Nat) : (ofNat width n).length = width := by
  induction width generalizing n with
  | zero => rfl
  | succ width ih => simp [ofNat, ih]

@[simp] theorem toNat_nil : toNat [] = 0 := rfl

@[simp] theorem toNat_append_singleton (b : Octets) (o : UInt8) :
    toNat (b ++ [o]) = toNat b * 256 + o.toNat := by
  simp [toNat]

/-- How many numbers so many bytes can stand for. -/
def capacity : Nat → Nat
  | 0 => 1
  | width + 1 => 256 * capacity width

theorem toNat_ofNat {width n : Nat} (h : n < capacity width) : toNat (ofNat width n) = n := by
  induction width generalizing n with
  | zero => simp_all [ofNat, capacity]
  | succ width ih =>
    have hq : n / 256 < capacity width := by
      rw [Nat.div_lt_iff_lt_mul (by decide), Nat.mul_comm]
      exact h
    rw [ofNat, toNat_append_singleton, ih hq, UInt8.toNat_ofNat']
    omega

theorem toNat_lt (b : Octets) : toNat b < capacity b.length := by
  suffices h : ∀ n, b.foldl (fun n o => n * 256 + o.toNat) n < (n + 1) * capacity b.length by
    simpa [toNat] using h 0
  induction b with
  | nil => simp [capacity]
  | cons o b ih =>
    intro n
    have ho := o.toNat_lt
    refine Nat.lt_of_lt_of_le (ih _) ?_
    rw [List.length_cons, capacity, ← Nat.mul_assoc]
    exact Nat.mul_le_mul_right _ (by show n * 256 + o.toNat + 1 ≤ (n + 1) * 256; omega)

end Octets

end WebSocketHost
