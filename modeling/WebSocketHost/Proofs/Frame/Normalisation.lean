import Mathlib.Data.List.Induction
import WebSocketHost.Proofs.Frame.Grammar
import WebSocketHost.Proofs.Frame.RoundTrip

/-! A frame that was decoded, encoded again under the key it came with. Lengths may be sent in
more bytes than they need; encoding does not do so, and changes nothing else. -/
namespace WebSocketHost

theorem Octets.ofNat_toNat (b : Octets) : ofNat b.length (toNat b) = b := by
  induction b using List.reverseRecOn with
  | nil => rfl
  | append_singleton b o ih =>
    have ho := o.toNat_lt
    have hq : (toNat b * 256 + o.toNat) / 256 = toNat b := by omega
    have hr : UInt8.ofNat (toNat b * 256 + o.toNat) = o := by
      apply UInt8.toNat_inj.mp
      rw [UInt8.toNat_ofNat']
      omega
    rw [List.length_append, List.length_singleton, ofNat, toNat_append_singleton, hq, hr, ih]

namespace Frame

namespace Layout

/-- The fewest bytes behind a short length that a length can be held in. -/
def shortestWidth (length : Nat) : Nat :=
  if length < 126 then 0 else if length < 65536 then 2 else 8

/-- The length is sent in the shortest form there is for it. -/
def IsShortest (b : Octets) : Prop := lengthWidth (shortLength b) = shortestWidth (declaredLength b)

theorem shortLength_lt (b : Octets) : shortLength b < 128 := Nat.mod_lt _ (by decide)

theorem lengthWidth_cases (b : Octets) :
    lengthWidth (shortLength b) = 0 ∧ shortLength b < 126 ∨
      lengthWidth (shortLength b) = 2 ∧ shortLength b = 126 ∨
      lengthWidth (shortLength b) = 8 ∧ shortLength b = 127 := by
  have hshort := shortLength_lt b
  unfold lengthWidth
  split
  · omega
  · split <;> omega

theorem shortestWidth_cases (length : Nat) :
    shortestWidth length = 0 ∧ length < 126 ∨
      shortestWidth length = 2 ∧ 126 ≤ length ∧ length < 65536 ∨
      shortestWidth length = 8 ∧ 65536 ≤ length := by
  unfold shortestWidth
  split
  · omega
  · split <;> omega

theorem length_lengthField (length : Nat) :
    (Header.lengthField length).2.length = shortestWidth length := by
  unfold Header.lengthField shortestWidth
  split
  · rfl
  · split <;> simp

theorem length_encode_header (b : Octets) :
    (header b).encode.length =
      2 + shortestWidth (declaredLength b) + keyWidth (isMasked b) := by
  have hkey : (((key? b).map MaskKey.toOctets).getD []).length = keyWidth (isMasked b) := by
    rw [isMasked_eq]
    cases key? b <;> rfl
  have hlength := length_lengthField (declaredLength b)
  simp only [Header.encode, header, List.length_append, List.length_cons, hkey, hlength]
  omega

theorem flags_eq (b : Octets) :
    UInt8.ofNat ((isFinal b).toNat * 128 + (rsvBits b).val * 16 + (nibble b).val) = octet b 0 := by
  have ho := (octet b 0).toNat_lt
  apply UInt8.toNat_inj.mp
  rw [UInt8.toNat_ofNat']
  simp only [isFinal, rsvBits, nibble]
  by_cases hf : 128 ≤ (octet b 0).toNat <;> simp [hf] <;> omega

theorem lengthByte_eq (b : Octets) :
    UInt8.ofNat ((isMasked b).toNat * 128 + shortLength b) = octet b 1 := by
  have ho := (octet b 1).toNat_lt
  apply UInt8.toNat_inj.mp
  rw [UInt8.toNat_ofNat']
  simp only [isMasked, shortLength]
  by_cases hf : 128 ≤ (octet b 1).toNat <;> simp [hf] <;> omega

section Complete

variable {b : Octets} (h : headerSize b ≤ b.length)
include h

theorem length_long :
    ((b.drop 2).take (lengthWidth (shortLength b))).length = lengthWidth (shortLength b) := by
  rw [List.length_take, List.length_drop]
  unfold headerSize at h
  omega

/-- No form is shorter than the shortest. -/
theorem shortestWidth_le : shortestWidth (declaredLength b) ≤ lengthWidth (shortLength b) := by
  have hcases := shortestWidth_cases (declaredLength b)
  rcases lengthWidth_cases b with ⟨hw, hshort⟩ | ⟨hw, -⟩ | ⟨hw, -⟩
  · have hlength : declaredLength b = shortLength b := by simp [declaredLength, lengthOf, hw]
    omega
  · have hlong := Octets.toNat_lt ((b.drop 2).take (lengthWidth (shortLength b)))
    rw [length_long h, hw] at hlong
    have hlength : declaredLength b < Octets.capacity 2 := by
      simpa [declaredLength, lengthOf, hw] using hlong
    have hcapacity : Octets.capacity 2 = 65536 := rfl
    omega
  · omega

theorem lengthField_of_shortest (hs : IsShortest b) :
    Header.lengthField (declaredLength b) =
      (shortLength b, (b.drop 2).take (lengthWidth (shortLength b))) := by
  have hbytes : lengthWidth (shortLength b) ≠ 0 →
      Octets.ofNat (lengthWidth (shortLength b)) (declaredLength b) =
        (b.drop 2).take (lengthWidth (shortLength b)) := by
    intro hw
    have hlong := Octets.ofNat_toNat ((b.drop 2).take (lengthWidth (shortLength b)))
    rw [length_long h] at hlong
    rwa [declaredLength, lengthOf, if_neg hw]
  have hcases := shortestWidth_cases (declaredLength b)
  rw [← hs] at hcases
  unfold Header.lengthField
  rcases lengthWidth_cases b with ⟨hw, hshort⟩ | ⟨hw, hshort⟩ | ⟨hw, hshort⟩
  · simp [declaredLength, lengthOf, hw, hshort]
  · rw [if_neg (by omega), if_pos (by omega), ← hbytes (by omega), hw, hshort]
  · rw [if_neg (by omega), if_neg (by omega), ← hbytes (by omega), hw, hshort]

theorem toOctets_key : ((key? b).map MaskKey.toOctets).getD [] =
    (b.drop (2 + lengthWidth (shortLength b))).take (keyWidth (isMasked b)) := by
  unfold key? keyOf
  cases hmasked : isMasked b with
  | false => simp [keyWidth]
  | true =>
    have hleft : 4 ≤ (b.drop (2 + lengthWidth (shortLength b))).length := by
      rw [List.length_drop]
      simp only [headerSize, hmasked, keyWidth, if_true] at h
      omega
    generalize b.drop (2 + lengthWidth (shortLength b)) = left at hleft
    rcases left with _ | ⟨_, _ | ⟨_, _ | ⟨_, _ | ⟨_, left⟩⟩⟩⟩
    case cons.cons.cons.cons => rfl
    all_goals simp at hleft

theorem take_headerSize :
    b.take (headerSize b) = octet b 0 :: octet b 1 ::
      ((b.drop 2).take (lengthWidth (shortLength b)) ++
        ((key? b).map MaskKey.toOctets).getD []) := by
  have hfront : b.take 2 = [octet b 0, octet b 1] := by
    match b with
    | _ :: _ :: _ => rfl
    | [] | [_] =>
      simp only [headerSize, List.length_cons, List.length_nil] at h
      omega
  rw [headerSize, List.take_add, List.take_add, hfront, toOctets_key h]
  rfl

theorem encode_header_eq_iff : (header b).encode = b.take (headerSize b) ↔ IsShortest b := by
  constructor
  · intro heq
    have hlength := congrArg List.length heq
    rw [length_encode_header, List.length_take, Nat.min_eq_left h, headerSize] at hlength
    unfold IsShortest
    omega
  · intro hs
    have hflags := flags_eq b
    have hbyte := lengthByte_eq b
    rw [isMasked_eq] at hbyte
    simp only [Header.encode, header, lengthField_of_shortest h hs, take_headerSize h,
      Opcode.toNibble_ofNibble, hflags, hbyte, List.cons_append]

end Complete

end Layout

section Complete

variable {h : Header} {sent : Octets}

theorem header_complete (hlen : sent.length = h.length) :
    Frame.header { h.complete sent with mask := h.mask } = h := by
  obtain ⟨opcode, fin, rsv, mask, length⟩ := h
  cases hlen
  cases mask <;> simp [Header.complete, Frame.header]

/-- Under the key of its header a completed frame is sent as it came. -/
theorem encode_complete (hlen : sent.length = h.length) :
    encode { h.complete sent with mask := h.mask } = h.encode ++ sent := by
  have hsent : sentPayload { h.complete sent with mask := h.mask } = sent := by
    obtain ⟨opcode, fin, rsv, mask, length⟩ := h
    cases mask <;> simp [Header.complete, sentPayload]
  rw [encode, header_complete hlen, hsent]

end Complete

open Layout

/-- A decoded frame, with its key put back and encoded, takes no more bytes than it came in
and decodes to itself; it takes the same bytes if its length came in the shortest form, and
only then. -/
theorem encode_decoded (max : Nat) (b : Octets) (f : Frame) (rest : Octets)
    (hd : decode max b = .ok (f, rest)) :
    let again := encode { f with mask := key? b }
    again.length ≤ b.length - rest.length ∧
      decode max again = .ok (f, []) ∧
      (again = b.take (b.length - rest.length) ↔ IsShortest b) := by
  obtain ⟨h, sent, hread, hfault, hlen, rfl⟩ := decode_eq_ok_iff.mp hd
  have hheader : headerSize b ≤ b.length := by
    by_contra hshort
    simp [read?_eq, hshort] at hread
  rw [read?_eq, if_pos hheader] at hread
  obtain ⟨rfl, hrest⟩ := Prod.mk.inj (Option.some.inj hread)
  have hencode : encode { (Layout.header b).complete sent with mask := key? b } =
      (Layout.header b).encode ++ sent := encode_complete hlen
  have hsize : b.length - rest.length = headerSize b + sent.length := by
    have hlength := congrArg List.length hrest
    rw [List.length_drop, List.length_append] at hlength
    omega
  have htake : b.take (b.length - rest.length) = b.take (headerSize b) ++ sent := by
    rw [hsize, List.take_add, hrest, List.take_left]
  have hacceptable : Acceptable max { (Layout.header b).complete sent with mask := key? b } := by
    have hagain : Frame.header { (Layout.header b).complete sent with mask := key? b } =
        Layout.header b := header_complete hlen
    rwa [Acceptable, hagain]
  refine ⟨?_, ?_, ?_⟩
  · rw [hencode, hsize, List.length_append, length_encode_header, headerSize]
    have hshortest := shortestWidth_le hheader
    omega
  · have hdecode := decode_encode_append hacceptable []
    rwa [List.append_nil] at hdecode
  · rw [hencode, htake, List.append_left_inj, encode_header_eq_iff hheader]

/-- One byte of text under a key, its length sent in two bytes, with another frame behind it. -/
theorem encode_decoded_long_form :
    let b : Octets := [0x81, 0xFE, 0, 1, 1, 2, 3, 4, 0x69, 0x89]
    let f : Frame := ⟨.text, [0x68], true, 0, none⟩
    let again := encode { f with mask := some ⟨1, 2, 3, 4⟩ }
    decode 1 b = .ok (f, [0x89]) ∧ key? b = some ⟨1, 2, 3, 4⟩ ∧ again.length ≤ 9 ∧
      decode 1 again = .ok (f, []) ∧ again ≠ b.take 9 := by
  intro b f again
  have hd : decode 1 b = .ok (f, [0x89]) := rfl
  have hkey : key? b = some ⟨1, 2, 3, 4⟩ := by decide
  have hall := encode_decoded 1 b f [0x89] hd
  rw [hkey] at hall
  obtain ⟨hlength, hagain, hsame⟩ := hall
  have hlong : ¬ IsShortest b := by
    unfold IsShortest
    decide
  exact ⟨hd, hkey, hlength, hagain, fun heq => hlong (hsame.mp heq)⟩

end Frame

end WebSocketHost
