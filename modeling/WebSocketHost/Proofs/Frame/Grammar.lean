import Mathlib.Algebra.GroupWithZero.Nat
import WebSocketHost.Proofs.Frame.Extension

/-! Frames told from their bytes alone, each field by its place, and all that can be said
against a byte string in one list. What `decode` gives is the first of these objections that
applies, or else the frame as it stands in the bytes. -/
namespace WebSocketHost.Frame

namespace Layout

/-- The byte at a place; nothing is asked of places behind the end. -/
def octet (b : Octets) (i : Nat) : UInt8 := b[i]?.getD 0

def nibble (b : Octets) : Fin 16 := ⟨(octet b 0).toNat % 16, Nat.mod_lt _ (by decide)⟩

def rsvBits (b : Octets) : Fin 8 := ⟨(octet b 0).toNat / 16 % 8, Nat.mod_lt _ (by decide)⟩

def isFinal (b : Octets) : Bool := 128 ≤ (octet b 0).toNat

def isMasked (b : Octets) : Bool := 128 ≤ (octet b 1).toNat

def shortLength (b : Octets) : Nat := (octet b 1).toNat % 128

/-- How many bytes hold the length behind a short length. -/
def lengthWidth (short : Nat) : Nat := if short = 126 then 2 else if short = 127 then 8 else 0

def keyWidth (masked : Bool) : Nat := if masked then 4 else 0

def headerSize (b : Octets) : Nat := 2 + lengthWidth (shortLength b) + keyWidth (isMasked b)

/-- The length that a short length stands for, read from what follows it if need be. -/
def lengthOf (short : Nat) (b : Octets) : Nat :=
  if lengthWidth short = 0 then short else Octets.toNat (b.take (lengthWidth short))

def declaredLength (b : Octets) : Nat := lengthOf (shortLength b) (b.drop 2)

def keyOf (masked : Bool) (b : Octets) : Option MaskKey :=
  if masked then some ⟨octet b 0, octet b 1, octet b 2, octet b 3⟩ else none

def key? (b : Octets) : Option MaskKey :=
  keyOf (isMasked b) (b.drop (2 + lengthWidth (shortLength b)))

def frame (b : Octets) : Frame where
  opcode := .ofNibble (nibble b)
  fin := isFinal b
  rsv := rsvBits b
  payload := (List.range (declaredLength b)).map fun i =>
    if isMasked b then octet b (headerSize b + i) ^^^ octet b (headerSize b - 4 + i % 4)
    else octet b (headerSize b + i)
  mask := none

/-- What may be wrong with a header that is there in full. -/
def faults (max : Nat) (b : Octets) : List (Bool × DecodeError) :=
  let opcode := (nibble b).val
  let length := declaredLength b
  [(3 ≤ opcode ∧ opcode ≤ 7 ∨ 11 ≤ opcode, .reservedOpcode (.ofNibble (nibble b))),
    ((rsvBits b).val ≠ 0, .reservedBits (rsvBits b)),
    (2 ^ 63 ≤ length, .lengthOverflow),
    (8 ≤ opcode ∧ !isFinal b, .fragmentedControl),
    (8 ≤ opcode ∧ 125 < length, .oversizedControl length),
    (max < length, .oversized length max)]

/-- Whether each objection applies, in the order in which they are looked at. -/
def objections (max : Nat) (b : Octets) : List (Bool × DecodeError) :=
  (decide (b.length < headerSize b), .incomplete b.length) :: faults max b ++
    [(decide (b.length < headerSize b + declaredLength b), .incomplete b.length)]

def firstThatApplies (list : List (Bool × DecodeError)) : Option DecodeError :=
  (list.find? (·.1)).map (·.2)

/-- The header that a byte string begins with. -/
def header (b : Octets) : Header :=
  ⟨.ofNibble (nibble b), isFinal b, rsvBits b, key? b, declaredLength b⟩

end Layout

namespace Header

theorem cut?_eq (n : Nat) (b : Octets) :
    cut? n b = if n ≤ b.length then some (b.take n, b.drop n) else none := by
  by_cases h : n ≤ b.length
  · simp [cut?, h]
  · have hmin : min n b.length ≠ n := by omega
    simp [cut?, h, hmin]

end Header

namespace Layout

open Header

theorem headerSize_le (b : Octets) : headerSize b ≤ 14 := by
  have hlength : lengthWidth (shortLength b) ≤ 8 := by
    unfold lengthWidth
    split
    · omega
    · split <;> omega
  have hkey : keyWidth (isMasked b) ≤ 4 := by cases isMasked b <;> simp [keyWidth]
  unfold headerSize
  omega

theorem octet_drop (n i : Nat) (b : Octets) : octet (b.drop n) i = octet b (n + i) := by
  simp [octet]

theorem octet_of_lt {b : Octets} {i : Nat} (h : i < b.length) : octet b i = b[i] := by
  simp [octet, h]

theorem readLength?_eq (short : Nat) (b : Octets) :
    readLength? short b = if lengthWidth short ≤ b.length then
      some (lengthOf short b, b.drop (lengthWidth short)) else none := by
  unfold readLength? lengthOf lengthWidth
  by_cases h₂ : short = 126
  · by_cases h : 2 ≤ b.length <;> simp [h₂, cut?_eq, h]
  · by_cases h₈ : short = 127
    · by_cases h : 8 ≤ b.length <;> simp [h₈, cut?_eq, h]
    · simp [h₂, h₈]

theorem ofOctets?_take {b : Octets} (h : 4 ≤ b.length) :
    MaskKey.ofOctets? (b.take 4) = some ⟨octet b 0, octet b 1, octet b 2, octet b 3⟩ := by
  match b with
  | _ :: _ :: _ :: _ :: _ => rfl
  | [] | [_] | [_, _] | [_, _, _] => simp at h

theorem readKey?_eq (masked : Bool) (b : Octets) :
    readKey? masked b = if keyWidth masked ≤ b.length then
      some (keyOf masked b, b.drop (keyWidth masked)) else none := by
  cases masked with
  | false => simp [readKey?, keyWidth, keyOf]
  | true =>
    by_cases h : 4 ≤ b.length
    · simp [readKey?, keyWidth, keyOf, cut?_eq, h, ofOctets?_take h]
    · simp [readKey?, keyWidth, cut?_eq, h]

/-- A header is read as soon as its last byte is there. -/
theorem read?_eq (b : Octets) :
    read? b = if headerSize b ≤ b.length then some (header b, b.drop (headerSize b)) else none := by
  match b with
  | [] | [_] =>
    rw [if_neg (by simp only [headerSize, List.length_cons, List.length_nil]; omega)]
    rfl
  | first :: second :: rest =>
    have hdrop (n : Nat) : (first :: second :: rest).drop (2 + n) = rest.drop n := by
      rw [Nat.add_comm]
      rfl
    have hsize : headerSize (first :: second :: rest) ≤ rest.length + 2 ↔
        lengthWidth (second.toNat % 128) ≤ rest.length ∧
          keyWidth (128 ≤ second.toNat) ≤ rest.length - lengthWidth (second.toNat % 128) := by
      show 2 + lengthWidth (second.toNat % 128) + keyWidth (128 ≤ second.toNat) ≤ _ ↔ _
      omega
    have hheader : header (first :: second :: rest) =
        ⟨.ofNibble ⟨first.toNat % 16, Nat.mod_lt _ (by decide)⟩, 128 ≤ first.toNat,
          ⟨first.toNat / 16 % 8, Nat.mod_lt _ (by decide)⟩,
          keyOf (128 ≤ second.toNat) (rest.drop (lengthWidth (second.toNat % 128))),
          lengthOf (second.toNat % 128) rest⟩ := by
      rw [← hdrop]
      rfl
    have hrest : (first :: second :: rest).drop (headerSize (first :: second :: rest)) =
        (rest.drop (lengthWidth (second.toNat % 128))).drop (keyWidth (128 ≤ second.toNat)) := by
      rw [headerSize, Nat.add_assoc, hdrop, List.drop_drop]
      rfl
    rw [hheader, hrest, List.length_cons, List.length_cons]
    simp only [read?, readLength?_eq, readKey?_eq, hsize]
    by_cases hlength : lengthWidth (second.toNat % 128) ≤ rest.length
    · by_cases hkey : keyWidth (128 ≤ second.toNat) ≤
          rest.length - lengthWidth (second.toNat % 128) <;> simp [hlength, hkey]
    · simp [hlength]

theorem isReserved_ofNibble (n : Fin 16) :
    (Opcode.ofNibble n).isReserved = decide (3 ≤ n.val ∧ n.val ≤ 7 ∨ 11 ≤ n.val) := by
  revert n; decide

theorem isControl_ofNibble (n : Fin 16) : (Opcode.ofNibble n).isControl = decide (8 ≤ n.val) := by
  revert n; decide

@[simp] theorem firstThatApplies_cons (applies : Bool) (e : DecodeError)
    (list : List (Bool × DecodeError)) :
    firstThatApplies ((applies, e) :: list) =
      if applies then some e else firstThatApplies list := by
  cases applies <;> rfl

@[simp] theorem firstThatApplies_nil : firstThatApplies [] = none := rfl

theorem firstThatApplies_append (list more : List (Bool × DecodeError)) :
    firstThatApplies (list ++ more) = (firstThatApplies list).or (firstThatApplies more) := by
  induction list with
  | nil => rfl
  | cons objection list ih =>
    obtain ⟨applies, e⟩ := objection
    cases applies <;> simp [ih]

theorem firstThatApplies_eq_none {list : List (Bool × DecodeError)} :
    firstThatApplies list = none ↔ ∀ objection ∈ list, objection.1 = false := by
  simp [firstThatApplies]

/-- The checks of a header are those of the list. -/
theorem fault?_header (max : Nat) (b : Octets) :
    (header b).fault? max = firstThatApplies (faults max b) := by
  have hlength : 0x7FFFFFFFFFFFFFFF < declaredLength b ↔ 2 ^ 63 ≤ declaredLength b := by omega
  have hcontrol : maxControlPayload < declaredLength b ↔ 125 < declaredLength b := Iff.rfl
  simp only [fault?, faults, header, isReserved_ofNibble, isControl_ofNibble, Bool.and_eq_true,
    firstThatApplies_cons, firstThatApplies_nil, decide_eq_true_iff, hlength, hcontrol]
  congr

theorem byteAt_key {b : Octets} {key : MaskKey} (h : key? b = some key) (i : Nat) :
    key.byteAt i = octet b (headerSize b - 4 + i % 4) := by
  unfold key? keyOf at h
  split at h
  · next hmasked =>
    cases h
    have hsize : headerSize b - 4 = 2 + lengthWidth (shortLength b) := by
      simp [headerSize, keyWidth, hmasked]
    have hcases : i % 4 = 0 ∨ i % 4 = 1 ∨ i % 4 = 2 ∨ i % 4 = 3 := by omega
    rw [hsize]
    unfold MaskKey.byteAt
    rcases hcases with hi | hi | hi | hi <;> simp [hi, octet_drop]
  · cases h

theorem isMasked_eq (b : Octets) : isMasked b = (key? b).isSome := by
  unfold key? keyOf
  split <;> simp_all

/-- What follows a header completes it to the frame that is there. -/
theorem complete_header {b : Octets} (h : headerSize b + declaredLength b ≤ b.length) :
    (header b).complete ((b.drop (headerSize b)).take (declaredLength b)) = frame b := by
  have hpayload (sent : Octets) : (header b).complete sent =
      { frame b with payload := ((header b).complete sent).payload } := rfl
  rw [hpayload]
  suffices hsame : ((header b).complete _).payload = (frame b).payload by rw [hsame]
  have hlength : declaredLength b ≤ b.length - headerSize b := by omega
  cases hkey : key? b with
  | none =>
    have hmasked : isMasked b = false := by simp [isMasked_eq, hkey]
    simp only [Header.complete, header, frame, hkey, hmasked]
    apply List.ext_getElem
    · simp [hlength]
    · intro i hi hi'
      simp at hi'
      have hplace : headerSize b + i < b.length := by omega
      simp [octet, hplace]
  | some key =>
    have hmasked : isMasked b = true := by simp [isMasked_eq, hkey]
    simp only [Header.complete, header, frame, hkey, hmasked]
    apply List.ext_getElem
    · simp [hlength]
    · intro i hi hi'
      simp at hi'
      have hplace : headerSize b + i < b.length := by omega
      simp [MaskKey.apply, byteAt_key hkey, octet_of_lt hplace]

end Layout

open Layout

theorem decode_eq (max : Nat) (b : Octets) :
    decode max b = match firstThatApplies (objections max b) with
      | some e => .error e
      | none => .ok (frame b, b.drop (headerSize b + declaredLength b)) := by
  unfold decode objections
  rw [read?_eq]
  by_cases hheader : headerSize b ≤ b.length
  · have hshort : ¬ b.length < headerSize b := by omega
    simp only [hheader, if_true, List.cons_append, firstThatApplies_cons, hshort, decide_false,
      Bool.false_eq_true, if_false, firstThatApplies_append, firstThatApplies_nil, fault?_header]
    cases hfault : firstThatApplies (faults max b) with
    | some e => rfl
    | none =>
      have hlength : (Layout.header b).length = declaredLength b := rfl
      rw [hlength, Header.cut?_eq, List.length_drop]
      by_cases hpayload : b.length < headerSize b + declaredLength b
      · have hleft : ¬ declaredLength b ≤ b.length - headerSize b := by omega
        simp [hleft, hpayload]
      · have hleft : declaredLength b ≤ b.length - headerSize b := by omega
        simp [hleft, hpayload, complete_header (Nat.not_lt.mp hpayload)]
  · have hshort : b.length < headerSize b := by omega
    simp [hheader, hshort]

/-- What is wrong with a byte string is told by the first objection that applies; with none,
the frame in it is taken with all its bytes and no more. Where the payload is looked for, the
size of the whole frame fits into 64 bits. -/
theorem decode_by_first_objection (max : Nat) (b : Octets) :
    (decode max b = match firstThatApplies (objections max b) with
      | some e => .error e
      | none => .ok (frame b, b.drop (headerSize b + declaredLength b))) ∧
    (∀ f rest, decode max b = .ok (f, rest) →
      b.length - rest.length = headerSize b + declaredLength b) ∧
    (firstThatApplies (objections max b).dropLast = none →
      headerSize b + declaredLength b < 2 ^ 64) := by
  refine ⟨decode_eq max b, fun f rest hd => ?_, fun hnone => ?_⟩
  · rw [decode_eq] at hd
    split at hd
    · cases hd
    · next hnone =>
      cases hd
      have hpayload := of_decide_eq_false
        (firstThatApplies_eq_none.mp hnone (_, .incomplete b.length) List.mem_concat_self)
      rw [List.length_drop]
      omega
  · rw [objections, List.dropLast_concat] at hnone
    have hmem : (decide (2 ^ 63 ≤ declaredLength b), .lengthOverflow) ∈ faults max b :=
      .tail _ (.tail _ (.head _))
    have hlength := of_decide_eq_false
      (firstThatApplies_eq_none.mp hnone _ (List.mem_cons_of_mem _ hmem))
    have hheader := headerSize_le b
    omega

end WebSocketHost.Frame
