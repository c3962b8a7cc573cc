import WebSocketHost.Proofs.Frame.RoundTrip

/-! What stands at the front of a byte string, told by its header: a frame, one that is not
there in full, or one that is refused. The limit on lengths is looked at last, so only a
header with nothing else wrong is refused for its length. -/
namespace WebSocketHost.Frame

/-- What a header has to keep to whatever its receiver's limit. -/
structure Header.Lawful (h : Header) : Prop where
  opcode : h.opcode.isReserved = false
  rsv : h.rsv = 0
  length : h.length < 2 ^ 63
  control : h.opcode.isControl = true → h.fin = true ∧ h.length ≤ 125

section Header

variable {h : Header} {max : Nat}

theorem Header.fault?_eq_none_iff_lawful : h.fault? max = none ↔ h.Lawful ∧ h.length ≤ max := by
  rw [fault?_eq_none_iff]
  constructor
  · rintro ⟨hop, hrsv, hlen, hcontrol, hmax⟩
    exact ⟨⟨hop, Fin.ext hrsv, hlen, hcontrol⟩, hmax⟩
  · rintro ⟨⟨hop, hrsv, hlen, hcontrol⟩, hmax⟩
    exact ⟨hop, congrArg Fin.val hrsv, hlen, hcontrol, hmax⟩

theorem Header.fault?_of_too_long (hlaw : h.Lawful) (hmax : max < h.length) :
    h.fault? max = some (.oversized h.length max) := by
  have hlen : ¬ 0x7FFFFFFFFFFFFFFF < h.length := by
    have hlen := hlaw.length
    omega
  have hrsv : ¬ h.rsv.val ≠ 0 := by simp [hlaw.rsv]
  unfold fault?
  rw [if_neg (Bool.eq_false_iff.mp hlaw.opcode), if_neg hrsv, if_neg hlen]
  cases hc : h.opcode.isControl with
  | false => simp [hmax]
  | true =>
    obtain ⟨hfin, hle⟩ := hlaw.control hc
    simp [hfin, hmax, maxControlPayload, Nat.not_lt.mpr hle]

/-- An unlawful header is refused, and not for its length. -/
theorem Header.fault?_of_unlawful (hlaw : ¬ h.Lawful) :
    ∃ e, h.fault? max = some e ∧ ∀ size limit, e ≠ .oversized size limit := by
  cases hf : h.fault? max with
  | none => exact absurd (fault?_eq_none_iff_lawful.mp hf).1 hlaw
  | some e =>
    refine ⟨e, rfl, ?_⟩
    rintro size limit rfl
    apply hlaw
    unfold fault? at hf
    split at hf
    · cases hf
    next hop =>
    split at hf
    · cases hf
    next hrsv =>
    split at hf
    · cases hf
    next hlen =>
    split at hf
    · cases hf
    next hfin =>
    split at hf
    · cases hf
    next hsize =>
    refine ⟨Bool.eq_false_iff.mpr hop, Fin.ext (Decidable.not_not.mp hrsv), by omega, fun hc => ?_⟩
    have hfin : h.fin = true := by simpa [hc] using hfin
    have hsize : h.length ≤ maxControlPayload := by simpa [hc] using hsize
    exact ⟨hfin, hsize⟩

end Header

/-- More bytes are needed, for the header or for the payload of a frame that will be taken. -/
def Waiting (max : Nat) (b : Octets) : Prop :=
  Header.read? b = none ∨
    ∃ h rest, Header.read? b = some (h, rest) ∧ h.Lawful ∧ h.length ≤ max ∧ rest.length < h.length

section Verdict

variable {max : Nat} {b : Octets}

theorem decode_of_waiting (hw : Waiting max b) : decode max b = .error (.incomplete b.length) := by
  unfold decode
  rcases hw with hread | ⟨h, rest, hread, hlaw, hmax, hshort⟩
  · rw [hread]
  · have hcut : Header.cut? h.length rest = none := by
      have htake : (rest.take h.length).length ≠ h.length := by
        rw [List.length_take]
        omega
      rw [Header.cut?, if_neg htake]
    rw [hread]
    dsimp only
    rw [Header.fault?_eq_none_iff_lawful.mpr ⟨hlaw, hmax⟩]
    dsimp only
    rw [hcut]

theorem verdict (max : Nat) (b : Octets) :
    Waiting max b ∨
      (∃ h rest, Header.read? b = some (h, rest) ∧ ¬ h.Lawful) ∨
      (∃ h rest, Header.read? b = some (h, rest) ∧ h.Lawful ∧ max < h.length) ∨
      ∃ f rest, decode max b = .ok (f, rest) := by
  cases hread : Header.read? b with
  | none => exact .inl (.inl hread)
  | some p =>
    obtain ⟨h, rest⟩ := p
    by_cases hlaw : h.Lawful
    · by_cases hmax : max < h.length
      · exact .inr (.inr (.inl ⟨h, rest, rfl, hlaw, hmax⟩))
      by_cases hshort : rest.length < h.length
      · exact .inl (.inr ⟨h, rest, hread, hlaw, Nat.not_lt.mp hmax, hshort⟩)
      · have hfault := Header.fault?_eq_none_iff_lawful.mpr ⟨hlaw, Nat.not_lt.mp hmax⟩
        have hlen : (rest.take h.length).length = h.length := by
          rw [List.length_take]
          omega
        refine .inr (.inr (.inr ⟨_, rest.drop h.length, decode_eq_ok_iff.mpr
          ⟨h, rest.take h.length, ?_, hfault, hlen, rfl⟩⟩))
        rw [hread, List.take_append_drop]
    · exact .inr (.inl ⟨h, rest, rfl, hlaw⟩)

/-- A decoded frame could be sent again as it is. -/
theorem acceptable_of_decode {rest : Octets} {f : Frame} (hd : decode max b = .ok (f, rest)) :
    f.Acceptable max := by
  obtain ⟨h, sent, _, hfault, hlen, rfl⟩ := decode_eq_ok_iff.mp hd
  have hpayload : (h.complete sent).payload.length = h.length := by
    unfold Header.complete
    cases h.mask <;> simp [hlen]
  rw [Acceptable, Header.fault?_eq_none_iff, header, hpayload]
  exact Header.fault?_eq_none_iff.mp hfault

theorem eq_of_decode {rest : Octets} {f : Frame} (hd : decode max b = .ok (f, rest)) :
    f = ⟨f.opcode, f.payload, f.fin, 0, none⟩ := by
  have hrsv := (Header.fault?_eq_none_iff.mp (acceptable_of_decode hd)).2.1
  have hmask : f.mask = none := by
    obtain ⟨h, sent, _, _, _, rfl⟩ := decode_eq_ok_iff.mp hd
    rfl
  obtain ⟨opcode, payload, fin, rsv, mask⟩ := f
  cases hmask
  rw [show rsv = 0 from Fin.ext hrsv]

end Verdict

end WebSocketHost.Frame
