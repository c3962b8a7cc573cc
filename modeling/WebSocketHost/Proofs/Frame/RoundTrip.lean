import Mathlib.Algebra.Group.Nat.Defs
import WebSocketHost.Proofs.Frame.Extension

/-! Decoding undoes encoding, and not before the last byte is there. The key is gone
from a decoded frame, its work being done; everything else is as it was sent. -/
namespace WebSocketHost.Frame

namespace Header

/-- The first byte of a header holds the final bit, the reserved bits and the opcode. -/
theorem flags_lt (h : Header) :
    h.fin.toNat * 128 + h.rsv.val * 16 + h.opcode.toNibble.val < 256 := by
  have hfin := h.fin.toNat_le
  have hrsv := h.rsv.isLt
  have hop := h.opcode.toNibble.isLt
  omega

theorem lengthField_le (length : Nat) : (lengthField length).1 ≤ 127 := by
  unfold lengthField
  split
  · dsimp only
    omega
  · split <;> simp

theorem readLength?_lengthField {length : Nat} (hlen : length < 2 ^ 64) (rest : Octets) :
    readLength? (lengthField length).1 ((lengthField length).2 ++ rest) = some (length, rest) := by
  unfold lengthField
  split
  · next h =>
    have h₁ : length ≠ 126 := by omega
    have h₂ : length ≠ 127 := by omega
    simp [readLength?, h₁, h₂]
  · split
    · next h =>
      have hcut : cut? 2 (Octets.ofNat 2 length ++ rest) = some (Octets.ofNat 2 length, rest) :=
        cut?_eq_some_iff.mpr ⟨rfl, Octets.length_ofNat 2 length⟩
      have hnat : Octets.toNat (Octets.ofNat 2 length) = length :=
        Octets.toNat_ofNat (show length < 65536 from h)
      simp [readLength?, hcut, hnat]
    · have hcut : cut? 8 (Octets.ofNat 8 length ++ rest) = some (Octets.ofNat 8 length, rest) :=
        cut?_eq_some_iff.mpr ⟨rfl, Octets.length_ofNat 8 length⟩
      have hnat : Octets.toNat (Octets.ofNat 8 length) = length :=
        Octets.toNat_ofNat (show length < Octets.capacity 8 from hlen)
      simp [readLength?, hcut, hnat]

theorem readKey?_toOctets (mask : Option MaskKey) (rest : Octets) :
    readKey? mask.isSome ((mask.map MaskKey.toOctets).getD [] ++ rest) = some (mask, rest) := by
  cases mask with
  | none => rfl
  | some key =>
    have hcut : cut? 4 (key.toOctets ++ rest) = some (key.toOctets, rest) :=
      cut?_eq_some_iff.mpr ⟨rfl, rfl⟩
    simp [readKey?, hcut]

theorem read?_encode_append {h : Header} (hlen : h.length < 2 ^ 64) (rest : Octets) :
    read? (h.encode ++ rest) = some (h, rest) := by
  have hflags := h.flags_lt
  have hop := h.opcode.toNibble.isLt
  have hrsv := h.rsv.isLt
  have hshort := lengthField_le h.length
  have hmask := h.mask.isSome.toNat_le
  have hfirst : (UInt8.ofNat (h.fin.toNat * 128 + h.rsv.val * 16 + h.opcode.toNibble.val)).toNat =
      h.fin.toNat * 128 + h.rsv.val * 16 + h.opcode.toNibble.val := by
    rw [UInt8.toNat_ofNat', Nat.mod_eq_of_lt hflags]
  have hsecond : (UInt8.ofNat (h.mask.isSome.toNat * 128 + (lengthField h.length).1)).toNat =
      h.mask.isSome.toNat * 128 + (lengthField h.length).1 := by
    rw [UInt8.toNat_ofNat']
    exact Nat.mod_eq_of_lt (by omega)
  have hlow : (h.mask.isSome.toNat * 128 + (lengthField h.length).1) % 128 =
      (lengthField h.length).1 := by omega
  have hmasked : decide (128 ≤ h.mask.isSome.toNat * 128 + (lengthField h.length).1) =
      h.mask.isSome := by
    cases h.mask <;> simp; omega
  have hnibble : (h.fin.toNat * 128 + h.rsv.val * 16 + h.opcode.toNibble.val) % 16 =
      h.opcode.toNibble.val := by omega
  have hbits : (h.fin.toNat * 128 + h.rsv.val * 16 + h.opcode.toNibble.val) / 16 % 8 =
      h.rsv.val := by omega
  have hfinal : decide (128 ≤ h.fin.toNat * 128 + h.rsv.val * 16 + h.opcode.toNibble.val) =
      h.fin := by
    cases h.fin <;> simp <;> omega
  simp only [encode, List.cons_append, List.append_assoc, read?, hfirst, hsecond, hlow, hmasked,
    hnibble, hbits, hfinal, readLength?_lengthField hlen, Option.bind_eq_bind, Option.bind_some,
    readKey?_toOctets, Fin.eta, Opcode.ofNibble_toNibble]

/-- What a receiver asks of a header, in any order. -/
theorem fault?_eq_none_iff {h : Header} {max : Nat} :
    h.fault? max = none ↔
      h.opcode.isReserved = false ∧ h.rsv.val = 0 ∧ h.length < 2 ^ 63 ∧
        (h.opcode.isControl = true → h.fin = true ∧ h.length ≤ maxControlPayload) ∧
        h.length ≤ max := by
  unfold fault?
  constructor
  · intro hf
    repeat' split at hf
    all_goals simp_all
    omega
  · rintro ⟨hres, hrsv, hlen, hcontrol, hmax⟩
    have h₁ : ¬ 0x7FFFFFFFFFFFFFFF < h.length := by omega
    have h₂ : ¬ max < h.length := by omega
    cases hc : h.opcode.isControl with
    | false => simp [hres, hrsv, h₁, h₂]
    | true =>
      obtain ⟨hfin, hle⟩ := hcontrol hc
      have h₃ : ¬ maxControlPayload < h.length := by omega
      simp [hres, hrsv, h₁, h₂, h₃, hfin]

end Header

/-- The first byte of a frame tells what it is for. -/
theorem opcode_eq_of_encode {f g : Frame} (h : f.encode = g.encode) :
    f.opcode = g.opcode := by
  have hbyte := (List.cons.inj h).1
  have hf := f.header.flags_lt
  have hg := g.header.flags_lt
  have hflags := congrArg UInt8.toNat hbyte
  rw [UInt8.toNat_ofNat', UInt8.toNat_ofNat', Nat.mod_eq_of_lt hf, Nat.mod_eq_of_lt hg] at hflags
  have hnibble : f.opcode.toNibble = g.opcode.toNibble := by
    have hlow := congrArg (· % 16) hflags
    have hf := f.opcode.toNibble.isLt
    have hg := g.opcode.toNibble.isLt
    simp only [Frame.header] at hlow
    exact Fin.ext (by omega)
  rw [← Opcode.ofNibble_toNibble f.opcode, hnibble, Opcode.ofNibble_toNibble]

/-- A receiver that takes payloads up to `max` finds nothing wrong with the frame. -/
def Acceptable (max : Nat) (f : Frame) : Prop := f.header.fault? max = none

theorem acceptable_data {max : Nat} {f : Frame}
    (hop : f.opcode = .text ∨ f.opcode = .binary ∨ f.opcode = .continuation) (hrsv : f.rsv = 0)
    (hlen : f.payload.length < 2 ^ 63) (hmax : f.payload.length ≤ max) : f.Acceptable max := by
  have hres : f.opcode.isReserved = false := by rcases hop with h | h | h <;> rw [h] <;> rfl
  have hdata : f.opcode.isControl = false := by rcases hop with h | h | h <;> rw [h] <;> rfl
  refine Header.fault?_eq_none_iff.mpr ⟨hres, congrArg Fin.val hrsv, hlen, ?_, hmax⟩
  intro hcontrol
  exact absurd (hdata.symm.trans hcontrol) Bool.false_ne_true

theorem acceptable_control {max : Nat} {f : Frame}
    (hop : f.opcode = .close ∨ f.opcode = .ping ∨ f.opcode = .pong) (hrsv : f.rsv = 0)
    (hfin : f.fin = true) (hlen : f.payload.length ≤ maxControlPayload)
    (hmax : f.payload.length ≤ max) : f.Acceptable max := by
  have hres : f.opcode.isReserved = false := by rcases hop with h | h | h <;> rw [h] <;> rfl
  exact Header.fault?_eq_none_iff.mpr ⟨hres, congrArg Fin.val hrsv,
    Nat.lt_of_le_of_lt hlen (by decide), fun _ => ⟨hfin, hlen⟩, hmax⟩

@[simp] theorem length_sentPayload (f : Frame) : f.sentPayload.length = f.payload.length := by
  unfold sentPayload
  split <;> simp

theorem complete_sentPayload (f : Frame) :
    f.header.complete f.sentPayload = { f with mask := none } := by
  unfold Header.complete sentPayload header
  cases f.mask <;> simp

theorem decode_encode_append {max : Nat} {f : Frame} (hf : f.Acceptable max) (rest : Octets) :
    decode max (f.encode ++ rest) = .ok ({ f with mask := none }, rest) := by
  obtain ⟨_, _, hlen, _, _⟩ := Header.fault?_eq_none_iff.mp hf
  rw [decode_eq_ok_iff]
  refine ⟨f.header, f.sentPayload, ?_, hf, f.length_sentPayload, f.complete_sentPayload.symm⟩
  rw [encode, List.append_assoc]
  exact Header.read?_encode_append (Nat.lt_trans hlen (by decide)) _

theorem decode_take_encode {max : Nat} {f : Frame} (hf : f.Acceptable max) {k : Nat}
    (hk : k < f.encode.length) : decode max (f.encode.take k) = .error (.incomplete k) := by
  have hwhole : decode max (f.encode.take k ++ f.encode.drop k) =
      .ok ({ f with mask := none }, []) := by
    rw [List.take_append_drop]
    simpa using decode_encode_append hf []
  -- whatever else is said of the cut frame would have to be said of the whole one
  cases hd : decode max (f.encode.take k) with
  | ok p =>
    rw [decode_append_of_ok (f.encode.drop k) hd] at hwhole
    have hdrop : (f.encode.drop k).length = 0 := by simp_all
    rw [List.length_drop] at hdrop
    omega
  | error e =>
    by_cases he : ∃ available, e = .incomplete available
    · obtain ⟨available, rfl⟩ := he
      rw [available_of_incomplete hd, List.length_take, Nat.min_eq_left (Nat.le_of_lt hk)]
    · have he : ∀ available, e ≠ .incomplete available := fun available h => he ⟨available, h⟩
      rw [decode_append_of_refusal (f.encode.drop k) he hd] at hwhole
      cases hwhole

/-- A frame comes back from the front of whatever it is followed by, which is left as it
was; cut anywhere, it is found to be incomplete and nothing else. The last hypothesis
holds of every byte string in memory. -/
theorem decode_encode_cut_anywhere {max : Nat} {f : Frame} (hop : f.opcode.isReserved = false)
    (hrsv : f.rsv = 0)
    (hcontrol : f.opcode.isControl = true → f.fin = true ∧ f.payload.length ≤ 125)
    (hmax : f.payload.length ≤ max) (hmem : f.payload.length < 2 ^ 63) :
    (∀ rest, decode max (f.encode ++ rest) = .ok ({ f with mask := none }, rest)) ∧
      f.encode.length = f.wireLength ∧
      ∀ k < f.encode.length, decode max (f.encode.take k) = .error (.incomplete k) := by
  have hf : f.Acceptable max :=
    Header.fault?_eq_none_iff.mpr ⟨hop, congrArg Fin.val hrsv, hmem, hcontrol, hmax⟩
  refine ⟨?_, f.length_encode, ?_⟩
  · intro rest
    exact decode_encode_append hf rest
  · intro k hk
    exact decode_take_encode hf hk

/-- A fragment that just needs the longer length field, under a key, with the header of
another frame behind it; and the same fragment cut inside its key. -/
theorem decode_encode_cut_in_key :
    let f : Frame := ⟨.continuation, List.replicate 126 7, false, 0, some ⟨1, 2, 3, 4⟩⟩
    decode 126 (f.encode ++ [0x89, 0x80]) = .ok ({ f with mask := none }, [0x89, 0x80]) ∧
      f.encode.length = 134 ∧ decode 126 (f.encode.take 6) = .error (.incomplete 6) := by
  intro f
  have hlen : f.payload.length = 126 := List.length_replicate
  obtain ⟨hwhole, hlength, hcut⟩ := decode_encode_cut_anywhere (f := f) rfl rfl nofun
    (Nat.le_of_eq hlen) (by omega)
  have hlength : f.encode.length = 134 := by
    rw [hlength, wireLength, hlen]
    rfl
  exact ⟨hwhole _, hlength, hcut 6 (by omega)⟩

end WebSocketHost.Frame
