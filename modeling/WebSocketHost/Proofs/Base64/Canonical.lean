import WebSocketHost.Base64
import WebSocketHost.Proofs.Text.Trimmed

/-! Reading Base64 undoes writing it and takes nothing else: every byte string has one text, and
a text that is read is the text of what is read. A group of symbols is compared with the values
its bytes are cut into. -/
namespace WebSocketHost.Base64

section Symbol

variable {o : UInt8} {v offset : Nat} {b : Octets} {vs : List Nat}

theorem value?_ofNat :
    ∀ n < 256, ∀ v ∈ value? (UInt8.ofNat n), v < 64 ∧ symbol v = UInt8.ofNat n := by
  decide +kernel

theorem value?_eq_some_iff : value? o = some v ↔ v < 64 ∧ o = symbol v := by
  constructor
  · intro h
    rw [← UInt8.ofNat_toNat (x := o)] at h ⊢
    obtain ⟨hv, heq⟩ := value?_ofNat o.toNat o.toNat_lt v h
    exact ⟨hv, heq.symm⟩
  · rintro ⟨hv, rfl⟩
    exact value?_symbol v hv

theorem symbol_ne_pad (h : v < 64) : symbol v ≠ pad := by
  intro heq
  have hpad : value? pad = some v := value?_eq_some_iff.mpr ⟨h, heq.symm⟩
  contradiction

theorem symbol_lt (v : Nat) : symbol v < 128 := by
  rcases Nat.lt_or_ge v 64 with h | h
  · revert v
    decide
  · rw [symbol, if_neg (by omega), if_neg (by omega), if_neg (by omega), if_neg (by omega)]
    decide

theorem values_cons_eq_ok_iff : values offset (o :: b) = .ok vs ↔
    ∃ v vs', value? o = some v ∧ values (offset + 1) b = .ok vs' ∧ vs = v :: vs' := by
  rw [values]
  cases value? o with
  | none => simp
  | some v =>
    cases values (offset + 1) b with
    | error e => simp [bind, Except.bind]
    | ok vs' => simp [bind, Except.bind, pure, Except.pure, eq_comm]

theorem values_eq_ok_iff : values offset b = .ok vs ↔ (∀ v ∈ vs, v < 64) ∧ b = vs.map symbol := by
  induction b generalizing offset vs with
  | nil => cases vs <;> simp [values]
  | cons o b ih =>
    simp only [values_cons_eq_ok_iff, ih, value?_eq_some_iff]
    constructor
    · rintro ⟨v, vs, ⟨hv, rfl⟩, ⟨hvs, rfl⟩, rfl⟩
      exact ⟨List.forall_mem_cons.mpr ⟨hv, hvs⟩, rfl⟩
    · rintro ⟨hvs, hmap⟩
      obtain ⟨v, vs, rfl, rfl, rfl⟩ := List.map_eq_cons_iff.mp hmap.symm
      rw [List.forall_mem_cons] at hvs
      exact ⟨v, vs, ⟨hvs.1, rfl⟩, ⟨hvs.2, rfl⟩, rfl⟩

end Symbol

/-- The values one to three bytes are cut into, the last filled up with zeros. -/
def sextets : Octets → List Nat
  | [a] => [a.toNat / 4, a.toNat % 4 * 16]
  | [a, b] => [a.toNat / 4, a.toNat % 4 * 16 + b.toNat / 16, b.toNat % 16 * 4]
  | [a, b, c] =>
    [a.toNat / 4, a.toNat % 4 * 16 + b.toNat / 16, b.toNat % 16 * 4 + c.toNat / 64, c.toNat % 64]
  | _ => []

section Group

variable {bytes : Octets} {vs : List Nat}

theorem group_eq (h : bytes ≠ []) (hlen : bytes.length ≤ 3) :
    group bytes = (sextets bytes).map symbol ++ List.replicate (3 - bytes.length) pad := by
  match bytes, h, hlen with
  | [a], _, _ => rfl
  | [a, b], _, _ => rfl
  | [a, b, c], _, _ => rfl

theorem length_sextets (h : bytes ≠ []) (hlen : bytes.length ≤ 3) :
    (sextets bytes).length = bytes.length + 1 := by
  match bytes, h, hlen with
  | [a], _, _ => rfl
  | [a, b], _, _ => rfl
  | [a, b, c], _, _ => rfl

theorem length_group (hne : bytes ≠ []) (hlen : bytes.length ≤ 3) : (group bytes).length = 4 := by
  rw [group_eq hne hlen, List.length_append, List.length_map, length_sextets hne hlen,
    List.length_replicate]
  omega

theorem sextets_lt (hlen : bytes.length ≤ 3) : ∀ v ∈ sextets bytes, v < 64 := by
  match bytes, hlen with
  | [], _ => simp [sextets]
  | [a], _ =>
    have ha := a.toNat_lt
    simp only [sextets, List.forall_mem_cons, List.not_mem_nil, false_implies, implies_true,
      and_true]
    omega
  | [a, b], _ =>
    have ha := a.toNat_lt
    have hb := b.toNat_lt
    simp only [sextets, List.forall_mem_cons, List.not_mem_nil, false_implies, implies_true,
      and_true]
    omega
  | [a, b, c], _ =>
    have ha := a.toNat_lt
    have hb := b.toNat_lt
    have hc := c.toNat_lt
    simp only [sextets, List.forall_mem_cons, List.not_mem_nil, false_implies, implies_true,
      and_true]
    omega

theorem ofNat_eq {n : Nat} {o : UInt8} (h : n % 256 = o.toNat) : UInt8.ofNat n = o := by
  rw [← UInt8.toNat_inj, UInt8.toNat_ofNat', h]

/-- Bytes that were cut come together again, and nothing is left over. -/
theorem join_sextets (h : bytes ≠ []) (hlen : bytes.length ≤ 3) :
    join (sextets bytes) = (bytes, 0) := by
  match bytes, h, hlen with
  | [a], _, _ =>
    have ha := a.toNat_lt
    simp only [sextets, join, Prod.mk.injEq, List.cons.injEq, and_true]
    exact ⟨ofNat_eq (by omega), by omega⟩
  | [a, b], _, _ =>
    have ha := a.toNat_lt
    have hb := b.toNat_lt
    simp only [sextets, join, Prod.mk.injEq, List.cons.injEq, and_true]
    exact ⟨⟨ofNat_eq (by omega), ofNat_eq (by omega)⟩, by omega⟩
  | [a, b, c], _, _ =>
    have ha := a.toNat_lt
    have hb := b.toNat_lt
    have hc := c.toNat_lt
    simp only [sextets, join, Prod.mk.injEq, List.cons.injEq, and_true]
    exact ⟨ofNat_eq (by omega), ofNat_eq (by omega), ofNat_eq (by omega)⟩

/-- Values that leave nothing over are the ones their bytes are cut into. -/
theorem sextets_join (hlow : 2 ≤ vs.length) (hhigh : vs.length ≤ 4) (h : ∀ v ∈ vs, v < 64)
    (hleft : (join vs).2 = 0) :
    sextets (join vs).1 = vs ∧ (join vs).1.length + 1 = vs.length := by
  match vs, hlow, hhigh with
  | [a, b], _, _ =>
    simp only [List.forall_mem_cons, List.not_mem_nil, false_implies, implies_true, and_true] at h
    simp only [join] at hleft
    simp only [join, sextets, UInt8.toNat_ofNat', List.cons.injEq, and_true]
    exact ⟨⟨by omega, by omega⟩, rfl⟩
  | [a, b, c], _, _ =>
    simp only [List.forall_mem_cons, List.not_mem_nil, false_implies, implies_true, and_true] at h
    simp only [join] at hleft
    simp only [join, sextets, UInt8.toNat_ofNat', List.cons.injEq, and_true]
    exact ⟨⟨by omega, by omega, by omega⟩, rfl⟩
  | [a, b, c, d], _, _ =>
    simp only [List.forall_mem_cons, List.not_mem_nil, false_implies, implies_true, and_true] at h
    simp only [join, sextets, UInt8.toNat_ofNat', List.cons.injEq, and_true]
    exact ⟨⟨by omega, by omega, by omega, by omega⟩, rfl⟩

end Group

section Decode

variable {offset : Nat} {last bytes t : Octets}

/-- What the checks on a last group come to. -/
theorem decodeLast_eq_ok_iff_checks :
    let symbols := last.takeWhile (· != pad)
    let padding := last.drop symbols.length
    decodeLast offset last = .ok bytes ↔ ∃ vs, values offset symbols = .ok vs ∧
      (∀ o ∈ padding, o = pad) ∧ (last ≠ [] → 2 ≤ symbols.length) ∧ last.length % 4 = 0 ∧
      join vs = (bytes, 0) := by
  intro symbols padding
  have hlast : padding ≠ [] → last ≠ [] := by
    rintro hne rfl
    exact hne List.drop_nil
  have hdecode : decodeLast offset last = (values offset symbols).bind fun vs =>
      if padding ≠ [] ∧ (symbols.length < 2 ∨ padding.any (· != pad)) then
        .error (.invalidSymbol (offset + symbols.length) pad)
      else if last ≠ [] ∧ symbols.length < 2 then .error (.invalidLength (offset + symbols.length))
      else if last.length % 4 ≠ 0 then .error .invalidPadding
      else if (join vs).2 ≠ 0 then
        .error (.invalidLastSymbol (offset + symbols.length - 1) (symbols.getLast?.getD pad))
      else .ok (join vs).1 := rfl
  have hany : padding.any (· != pad) = true ↔ ¬ ∀ o ∈ padding, o = pad := by simp
  rw [hdecode]
  cases values offset symbols with
  | error e => simp [Except.bind]
  | ok vs =>
    simp only [Except.bind, Except.ok.injEq, exists_eq_left', Prod.ext_iff, hany]
    split_ifs with hpadding hshort hlen hleft
    · simp only [false_iff]
      rintro ⟨hpad, hlow, _⟩
      have := hlow (hlast hpadding.1)
      exact hpadding.2.elim (by omega) (fun h => h hpad)
    · simp only [false_iff]
      rintro ⟨_, hlow, _⟩
      have := hlow hshort.1
      omega
    · simp [hlen]
    · simp [hleft]
    · have hpad : ∀ o ∈ padding, o = pad := by
        by_contra hpad
        refine hpadding ⟨?_, .inr hpad⟩
        intro hnil
        simp [hnil] at hpad
      have hlow : last ≠ [] → 2 ≤ symbols.length := fun hne => by
        by_contra hlt
        exact hshort ⟨hne, by omega⟩
      rw [not_not] at hlen hleft
      rw [Except.ok.injEq]
      constructor
      · intro h
        exact ⟨hpad, hlow, hlen, h, hleft⟩
      · rintro ⟨_, _, _, h, _⟩
        exact h

theorem group_of_symbols {vs : List Nat} {padding : Octets} (hvs : ∀ v ∈ vs, v < 64)
    (hlow : 2 ≤ vs.length) (hpad : ∀ o ∈ padding, o = pad) (hlen : vs.length + padding.length = 4)
    (hjoin : join vs = (bytes, 0)) :
    bytes.length ≤ 3 ∧ vs.map symbol ++ padding = group bytes := by
  have hbytes : bytes = (join vs).1 := by rw [hjoin]
  obtain ⟨hsextets, hlength⟩ := sextets_join hlow (by omega) hvs (by rw [hjoin])
  rw [← hbytes] at hsextets hlength
  have hne : bytes ≠ [] := by
    rintro rfl
    simp at hlength
    omega
  refine ⟨by omega, ?_⟩
  rw [group_eq hne (by omega), hsextets, List.eq_replicate_of_mem hpad]
  congr 2
  omega

theorem takeWhile_group (hne : bytes ≠ []) (hlen : bytes.length ≤ 3) :
    (group bytes).takeWhile (· != pad) = (sextets bytes).map symbol := by
  have hsymbols : ∀ o ∈ (sextets bytes).map symbol, (o != pad) = true := by
    intro o ho
    obtain ⟨v, hv, rfl⟩ := List.mem_map.mp ho
    exact bne_iff_ne.mpr (symbol_ne_pad (sextets_lt hlen v hv))
  rw [group_eq hne hlen, List.takeWhile_append_of_pos hsymbols]
  simp

theorem decodeLast_group (hlen : bytes.length ≤ 3) :
    decodeLast offset (group bytes) = .ok bytes := by
  by_cases hne : bytes = []
  · rw [hne]
    rfl
  · refine decodeLast_eq_ok_iff_checks.mpr
      ⟨sextets bytes, ?_, ?_, fun _ => ?_, ?_, join_sextets hne hlen⟩
    · rw [takeWhile_group hne hlen, values_eq_ok_iff]
      exact ⟨sextets_lt hlen, rfl⟩
    · rw [takeWhile_group hne hlen, group_eq hne hlen, List.drop_left]
      exact fun o => List.eq_of_mem_replicate
    · rw [takeWhile_group hne hlen, List.length_map, length_sextets hne hlen]
      have := List.length_pos_iff.mpr hne
      omega
    · rw [length_group hne hlen]

theorem decodeLast_eq_ok_iff (h : last.length ≤ 4) :
    decodeLast offset last = .ok bytes ↔ bytes.length ≤ 3 ∧ last = group bytes := by
  constructor
  · intro hdecode
    obtain ⟨vs, hvs, hpad, hlow, hlen, hjoin⟩ := decodeLast_eq_ok_iff_checks.mp hdecode
    obtain ⟨hvs, hsymbols⟩ := values_eq_ok_iff.mp hvs
    rw [hsymbols, List.length_map] at hpad hlow
    have hsplit : vs.map symbol ++ last.drop vs.length = last := by
      have hprefix := List.prefix_iff_eq_append.mp (last.takeWhile_prefix (· != pad))
      rwa [hsymbols, List.length_map] at hprefix
    have hlength := congrArg List.length hsplit
    rw [List.length_append, List.length_map] at hlength
    by_cases hnil : last = []
    · rw [hnil] at hlength ⊢
      have hvs : vs = [] := by simpa using hlength
      rw [hvs] at hjoin
      cases hjoin
      exact ⟨Nat.zero_le _, rfl⟩
    · have hpos := List.length_pos_iff.mpr hnil
      rw [← hsplit]
      exact group_of_symbols hvs (hlow hnil) hpad (by omega) hjoin
  · rintro ⟨hlen, rfl⟩
    exact decodeLast_group hlen

theorem encode_of_length_le (h : bytes.length ≤ 3) : encode bytes = group bytes := by
  match bytes, h with
  | [], _ => rfl
  | [a], _ => rfl
  | [a, b], _ => rfl
  | [a, b, c], _ => rfl

@[simp] theorem length_encode (bytes : Octets) :
    (encode bytes).length = 4 * ((bytes.length + 2) / 3) := by
  fun_induction encode bytes with
  | case1 a b c rest ih =>
    have hgroup : (group [a, b, c]).length = 4 := rfl
    rw [List.length_append, hgroup, ih]
    simp only [List.length_cons]
    omega
  | case2 last hshort =>
    match last, hshort with
    | [], _ => rfl
    | [a], _ => simp [group]
    | [a, b], _ => simp [group]
    | a :: b :: c :: rest, hshort => exact (hshort a b c rest rfl).elim

/-- Four symbols that are no padding are a whole group. -/
theorem values_four_eq_ok_iff {vs : List Nat} (hlen : last.length = 4) :
    values offset last = .ok vs ↔
      ∃ a b c, last = group [a, b, c] ∧ vs = sextets [a, b, c] := by
  rw [values_eq_ok_iff]
  constructor
  · rintro ⟨hvs, rfl⟩
    rw [List.length_map] at hlen
    have hleft : (join vs).2 = 0 := by
      match vs, hlen with
      | [a, b, c, d], _ => rfl
    obtain ⟨hsextets, hthree⟩ := sextets_join (by omega) (by omega) hvs hleft
    obtain ⟨a, b, c, hbytes⟩ := List.length_eq_three.mp (show (join vs).1.length = 3 by omega)
    rw [hbytes] at hsextets
    refine ⟨a, b, c, ?_, hsextets.symm⟩
    rw [← hsextets]
    rfl
  · rintro ⟨a, b, c, rfl, rfl⟩
    exact ⟨sextets_lt (Nat.le_refl 3), rfl⟩

/-- More than four symbols are a group and those after it, when they are read. -/
theorem decodeFrom_eq_ok_iff_group {a b c d e : UInt8} {rest : Octets} :
    decodeFrom offset (a :: b :: c :: d :: e :: rest) = .ok bytes ↔
      ∃ x y z bytes', [a, b, c, d] = group [x, y, z] ∧
        decodeFrom (offset + 4) (e :: rest) = .ok bytes' ∧ bytes = x :: y :: z :: bytes' := by
  have hjoin (x y z : UInt8) : join (sextets [x, y, z]) = ([x, y, z], 0) :=
    join_sextets (List.cons_ne_nil _ _) (Nat.le_refl 3)
  rw [decodeFrom]
  constructor
  · intro h
    cases hvs : values offset [a, b, c, d] with
    | error err => simp [hvs, bind, Except.bind] at h
    | ok vs =>
      cases hrest : decodeFrom (offset + 4) (e :: rest) with
      | error err => simp [hvs, hrest, bind, Except.bind] at h
      | ok bytes' =>
        obtain ⟨x, y, z, hgroup, rfl⟩ := (values_four_eq_ok_iff rfl).mp hvs
        have hbytes : [x, y, z] ++ bytes' = bytes := by
          simpa [hvs, hrest, hjoin, bind, Except.bind, pure, Except.pure] using h
        exact ⟨x, y, z, bytes', hgroup, rfl, hbytes.symm⟩
  · rintro ⟨x, y, z, bytes', hgroup, hrest, rfl⟩
    have hvs : values offset [a, b, c, d] = .ok (sextets [x, y, z]) :=
      (values_four_eq_ok_iff rfl).mpr ⟨x, y, z, hgroup, rfl⟩
    simp [hvs, hrest, hjoin, bind, Except.bind, pure, Except.pure]

/-- And so they are when they are written. -/
theorem eq_encode_iff_group {a b c d e : UInt8} {rest : Octets} :
    a :: b :: c :: d :: e :: rest = encode bytes ↔
      ∃ x y z bytes', [a, b, c, d] = group [x, y, z] ∧ e :: rest = encode bytes' ∧
        bytes = x :: y :: z :: bytes' := by
  constructor
  · intro h
    have hlen := congrArg List.length h
    rw [length_encode] at hlen
    match bytes, hlen with
    | [], hlen => simp at hlen
    | [_], hlen => simp at hlen
    | [_, _], hlen => simp at hlen
    | x :: y :: z :: bytes', _ =>
      have hsplit : [a, b, c, d] ++ e :: rest = group [x, y, z] ++ encode bytes' := h
      obtain ⟨hgroup, hrest⟩ := List.append_inj hsplit rfl
      exact ⟨x, y, z, bytes', hgroup, hrest, rfl⟩
  · rintro ⟨x, y, z, bytes', hgroup, hrest, rfl⟩
    show [a, b, c, d] ++ e :: rest = group [x, y, z] ++ encode bytes'
    rw [hgroup, hrest]

theorem decodeFrom_eq_ok_iff : decodeFrom offset t = .ok bytes ↔ t = encode bytes := by
  fun_induction decodeFrom offset t generalizing bytes with
  | case1 offset a b c d e rest ih =>
    rw [eq_encode_iff_group, ← decodeFrom, decodeFrom_eq_ok_iff_group]
    simp only [ih]
  | case2 offset last hshort =>
    have hlen : last.length ≤ 4 := by
      match last, hshort with
      | [], _ => simp
      | [a], _ => simp
      | [a, b], _ => simp
      | [a, b, c], _ => simp
      | [a, b, c, d], _ => simp
      | a :: b :: c :: d :: e :: rest, hshort => exact (hshort a b c d e rest rfl).elim
    rw [decodeLast_eq_ok_iff hlen]
    constructor
    · rintro ⟨hbytes, rfl⟩
      exact (encode_of_length_le hbytes).symm
    · rintro rfl
      have hbytes : bytes.length ≤ 3 := by
        rw [length_encode] at hlen
        omega
      exact ⟨hbytes, encode_of_length_le hbytes⟩

theorem strayEnd?_encode (bytes : Octets) : strayEnd? (encode bytes) = none := by
  have hlen := length_encode bytes
  unfold strayEnd?
  split
  · rw [if_neg (by omega)]
  · rfl

/-- A text is read exactly when it is the text of some bytes, and then as those bytes. -/
theorem decode_eq_ok_iff : decode t = .ok bytes ↔ t = encode bytes := by
  constructor
  · intro h
    unfold decode at h
    split at h
    · contradiction
    · exact decodeFrom_eq_ok_iff.mp h
  · rintro rfl
    rw [decode, strayEnd?_encode]
    exact decodeFrom_eq_ok_iff.mpr rfl

end Decode

section Text

theorem group_lt {bytes : Octets} : ∀ o ∈ group bytes, o < 128 := by
  have hpad : pad < 128 := by decide
  fun_cases group bytes <;> simp [symbol_lt, hpad]

theorem encode_lt (bytes : Octets) : ∀ o ∈ encode bytes, o < 128 := by
  fun_induction encode bytes with
  | case1 a b c rest ih => exact List.forall_mem_append.mpr ⟨group_lt, ih⟩
  | case2 last => exact group_lt

@[simp] theorem utf8_toText (bytes : Octets) : Text.utf8 (toText bytes) = encode bytes :=
  Text.utf8_ofAscii (encode_lt bytes)

end Text

end WebSocketHost.Base64
