import WebSocketHost.Certificate
import WebSocketHost.Proofs.Base64.Canonical

/-! Which texts a bundle can be read from. A concealed text may be wrapped, written with the other
alphabet and lose its padding, and still reveals its bundle; nothing else does. Padding stands at
the front of a concealed text, so how much of it is left says how much has to be restored. -/
namespace WebSocketHost

namespace Base64

/-- Symbols, and no more padding than fills up the last group. -/
theorem encode_eq_symbols_append_padding (bytes : Octets) :
    ∃ (vs : List Nat) (n : Nat), encode bytes = vs.map symbol ++ List.replicate n pad ∧ n < 4 ∧
      ∀ v ∈ vs, v < 64 := by
  fun_induction encode bytes with
  | case1 a b c rest ih =>
    obtain ⟨vs, n, hrest, hn, hvs⟩ := ih
    refine ⟨sextets [a, b, c] ++ vs, n, ?_, hn, ?_⟩
    · rw [hrest, List.map_append, List.append_assoc]
      rfl
    · exact List.forall_mem_append.mpr ⟨sextets_lt (Nat.le_refl 3), hvs⟩
  | case2 last hshort =>
    have hlen : last.length ≤ 3 := by
      rcases last with _ | ⟨a, _ | ⟨b, _ | ⟨c, rest⟩⟩⟩
      case cons.cons.cons => exact (hshort a b c rest rfl).elim
      all_goals simp
    by_cases hne : last = []
    · exact ⟨[], 0, by rw [hne]; rfl, by decide, List.forall_mem_nil _⟩
    · exact ⟨sextets last, 3 - last.length, group_eq hne hlen, by omega, sextets_lt hlen⟩

end Base64

namespace Certificate

/-- Texts for a text: with blanks put in anywhere, symbols of the other alphabet in place of some,
and some of the padding left out. -/
inductive Disguise : List Char → List Char → Prop
  | nil : Disguise [] []
  | keep (c : Char) {t u : List Char} (h : Disguise t u) : Disguise (c :: t) (c :: u)
  | blank {c : Char} (hc : Text.isBlank c = true) {t u : List Char} (h : Disguise t u) :
    Disguise t (c :: u)
  | minus {t u : List Char} (h : Disguise t u) : Disguise ('+' :: t) ('-' :: u)
  | underscore {t u : List Char} (h : Disguise t u) : Disguise ('/' :: t) ('_' :: u)
  | unpad {t u : List Char} (h : Disguise t u) : Disguise ('=' :: t) u

/-- The characters of a text that are not blank, in the standard alphabet. -/
def symbols (t : List Char) : List Char := (t.filter fun c => !Text.isBlank c).map standardSymbol

/-- A text turned round, without its blanks, in the standard alphabet, and padded until the number
of its bytes is a multiple of four. -/
def IsNormalForm (s t : String) : Prop :=
  ∃ n < 4, t.toList = symbols s.toList.reverse ++ List.replicate n '=' ∧
    (Text.utf8 t).length % 4 = 0

/-- A character that reading leaves as it is. -/
def IsPlain (c : Char) : Prop := Text.isBlank c = false ∧ standardSymbol c = c

section Symbols

variable {c : Char} {s t u : List Char} {n : Nat}

theorem symbols_cons_of_blank (hc : Text.isBlank c = true) (t : List Char) :
    symbols (c :: t) = symbols t := by
  simp [symbols, hc]

theorem symbols_cons_of_not_blank (hc : Text.isBlank c = false) (t : List Char) :
    symbols (c :: t) = standardSymbol c :: symbols t := by
  simp [symbols, hc]

theorem symbols_cons_of_plain (hc : IsPlain c) (t : List Char) :
    symbols (c :: t) = c :: symbols t := by
  rw [symbols_cons_of_not_blank hc.1, hc.2]

theorem symbols_reverse (t : List Char) : symbols t.reverse = (symbols t).reverse := by
  simp [symbols, List.filter_reverse]

theorem isPlain_pad : IsPlain '=' := ⟨by decide, rfl⟩

/-- Every text is a disguise of its symbols. -/
theorem disguise_symbols (u : List Char) : Disguise (symbols u) u := by
  induction u with
  | nil => exact .nil
  | cons c u ih =>
    by_cases hblank : Text.isBlank c = true
    · rw [symbols_cons_of_blank hblank]
      exact .blank hblank ih
    · rw [symbols_cons_of_not_blank (Bool.eq_false_iff.mpr hblank)]
      unfold standardSymbol
      split
      · exact .minus ih
      · exact .underscore ih
      · exact .keep c ih

theorem Disguise.unpads (h : Disguise t u) (n : Nat) :
    Disguise (List.replicate n '=' ++ t) u := by
  induction n with
  | zero => exact h
  | succ n ih => exact .unpad ih

/-- Where a text is padding and then plain characters, a disguise takes away from the padding
and from nothing else. -/
theorem Disguise.symbols_eq (h : Disguise t u) (ht : t = List.replicate n '=' ++ s)
    (hs : ∀ c ∈ s, IsPlain c ∧ c ≠ '=') :
    ∃ k ≤ n, symbols u = List.replicate k '=' ++ s := by
  induction h generalizing n s with
  | nil =>
    obtain ⟨hn, rfl⟩ := List.append_eq_nil_iff.mp ht.symm
    exact ⟨0, Nat.zero_le n, rfl⟩
  | keep c h ih =>
    cases n with
    | zero =>
      subst ht
      obtain ⟨hc, hs⟩ := List.forall_mem_cons.mp hs
      obtain ⟨k, hk, hu⟩ := ih (n := 0) rfl hs
      rw [Nat.le_zero.mp hk] at hu
      exact ⟨0, Nat.le_refl 0, by rw [symbols_cons_of_plain hc.1, hu]; rfl⟩
    | succ n =>
      obtain ⟨hc, ht⟩ := List.cons.inj ht
      obtain ⟨k, hk, hu⟩ := ih ht hs
      exact ⟨k + 1, by omega, by rw [hc, symbols_cons_of_plain isPlain_pad, hu]; rfl⟩
  | blank hc h ih =>
    rw [symbols_cons_of_blank hc]
    exact ih ht hs
  | minus h ih | underscore h ih =>
    cases n with
    | zero =>
      subst ht
      obtain ⟨k, hk, hu⟩ := ih (n := 0) rfl (List.forall_mem_cons.mp hs).2
      rw [Nat.le_zero.mp hk] at hu
      exact ⟨0, Nat.le_refl 0, by rw [symbols_cons_of_not_blank (by decide), hu]; rfl⟩
    | succ n => cases (List.cons.inj ht).1
  | unpad h ih =>
    cases n with
    | zero =>
      subst ht
      exact absurd rfl (List.forall_mem_cons.mp hs).1.2
    | succ n =>
      obtain ⟨k, hk, hu⟩ := ih (List.cons.inj ht).2 hs
      exact ⟨k, by omega, hu⟩

end Symbols

section NormalForm

variable {s t : String} {b : Octets}

/-- How much padding a text lacks. -/
def lacking (s : String) : Nat :=
  (4 - (Text.utf8 (String.ofList (symbols s.toList.reverse))).length % 4) % 4

theorem utf8_append_padding (cs : List Char) (n : Nat) :
    Text.utf8 (String.ofList (cs ++ List.replicate n '=')) =
      Text.utf8 (String.ofList cs) ++ List.replicate n Base64.pad := by
  have hpad : String.utf8EncodeChar '=' = [Base64.pad] := rfl
  rw [Text.utf8_ofList, Text.utf8_ofList, List.flatMap_append]
  congr 1
  induction n with
  | zero => rfl
  | succ n ih => rw [List.replicate_succ, List.flatMap_cons, ih, hpad]; rfl

theorem canonicalText_eq (s : String) :
    canonicalText s =
      Text.utf8 (String.ofList (symbols s.toList.reverse ++ List.replicate (lacking s) '=')) :=
  (utf8_append_padding ..).symm

theorem isNormalForm_iff : IsNormalForm s t ↔ Text.utf8 t = canonicalText s := by
  rw [canonicalText_eq]
  constructor
  · rintro ⟨n, hn, ht, hlength⟩
    rw [← String.ofList_toList (s := t), ht] at hlength ⊢
    rw [utf8_append_padding, List.length_append, List.length_replicate] at hlength
    rw [show n = lacking s by unfold lacking; omega]
  · intro h
    have ht := Text.utf8_injective h
    refine ⟨lacking s, Nat.mod_lt _ (by decide), ?_, ?_⟩
    · rw [ht, String.toList_ofList]
    · rw [h, utf8_append_padding, List.length_append, List.length_replicate, lacking]
      omega

theorem IsNormalForm.unique {t' : String} (h : IsNormalForm s t) (h' : IsNormalForm s t') :
    t = t' :=
  Text.utf8_injective ((isNormalForm_iff.mp h).trans (isNormalForm_iff.mp h').symm)

theorem exists_isNormalForm (s : String) : ∃ t, IsNormalForm s t :=
  ⟨_, isNormalForm_iff.mpr (canonicalText_eq s).symm⟩

theorem reveal_eq_ok_iff : reveal s = .ok b ↔ IsNormalForm s (Base64.toText b) := by
  rw [isNormalForm_iff, Base64.utf8_toText, reveal, Base64.decode_eq_ok_iff, eq_comm]

end NormalForm

/-- A concealed text is padding, and then plain characters that are none. -/
theorem conceal_eq_padding_append (b : Octets) :
    ∃ n, n < 4 ∧ ∃ cs : List Char, (conceal b).toList = List.replicate n '=' ++ cs ∧
      ∀ c ∈ cs, IsPlain c ∧ c ≠ '=' := by
  have hsymbol : ∀ v < 64, let c := Char.ofNat (Base64.symbol v).toNat
      (Text.isBlank c = false ∧ standardSymbol c = c) ∧ c ≠ '=' := by
    decide +kernel
  obtain ⟨vs, n, hencode, hn, hvs⟩ := Base64.encode_eq_symbols_append_padding b
  refine ⟨n, hn, ((vs.map Base64.symbol).map fun o => Char.ofNat o.toNat).reverse, ?_, ?_⟩
  · rw [conceal, Base64.toText, hencode, Text.ofAscii, String.toList_ofList, String.toList_ofList,
      List.map_append, List.reverse_append, List.map_replicate, List.reverse_replicate]
    rfl
  · intro c hc
    rw [List.mem_reverse, List.map_map] at hc
    obtain ⟨v, hv, rfl⟩ := List.mem_map.mp hc
    exact hsymbol v (hvs v hv)

/-- The normal form of a text is the text of some bytes just when it is a disguise of their
concealed text. -/
theorem isNormalForm_iff_disguise (b : Octets) (s : String) :
    IsNormalForm s (Base64.toText b) ↔ Disguise (conceal b).toList s.toList := by
  have htext : (Base64.toText b).toList = (conceal b).toList.reverse := by
    rw [conceal, String.toList_ofList, List.reverse_reverse]
  obtain ⟨n, hn, cs, hconceal, hcs⟩ := conceal_eq_padding_append b
  unfold IsNormalForm
  rw [htext, symbols_reverse, Base64.utf8_toText, Base64.length_encode]
  constructor
  · rintro ⟨k, -, hsymbols, -⟩
    have hsymbols := congrArg List.reverse hsymbols
    rw [List.reverse_reverse, List.reverse_append, List.reverse_reverse,
      List.reverse_replicate] at hsymbols
    rw [hsymbols]
    exact (disguise_symbols s.toList).unpads k
  · intro h
    obtain ⟨k, hk, hsymbols⟩ := h.symbols_eq hconceal hcs
    refine ⟨n - k, by omega, ?_, Nat.mul_mod_right ..⟩
    rw [hsymbols, hconceal, List.reverse_append, List.reverse_append, List.reverse_replicate,
      List.reverse_replicate, List.append_assoc, List.replicate_append_replicate]
    congr 2
    omega

theorem Disguise.refl (t : List Char) : Disguise t t := by
  induction t with
  | nil => exact .nil
  | cons c t ih => exact .keep c ih

/-- A bundle is revealed by its concealed text in every disguise, and by no other text. That is to
say that a text reveals a bundle just when the text's normal form is the Base64 text of the bundle:
every text has one normal form, and texts whose normal forms differ reveal different bundles. -/
theorem reveal_exactly (b : Octets) (s : String) :
    reveal (conceal b) = .ok b ∧
    (reveal s = .ok b ↔ Disguise (conceal b).toList s.toList) ∧
    (reveal s = .ok b ↔ IsNormalForm s (Base64.toText b)) ∧
    (∃! t, IsNormalForm s t) ∧
    ∀ s' t t', IsNormalForm s t → IsNormalForm s' t' → t ≠ t' →
      ¬ (reveal s = .ok b ∧ reveal s' = .ok b) := by
  refine ⟨?_, ?_, reveal_eq_ok_iff, ?_, ?_⟩
  · exact reveal_eq_ok_iff.mpr ((isNormalForm_iff_disguise b _).mpr (.refl _))
  · exact reveal_eq_ok_iff.trans (isNormalForm_iff_disguise b s)
  · obtain ⟨t, ht⟩ := exists_isNormalForm s
    exact ⟨t, ht, fun t' ht' => ht'.unique ht⟩
  · rintro s' t t' ht ht' hne ⟨hs, hs'⟩
    exact hne <| (ht.unique (reveal_eq_ok_iff.mp hs)).trans
      ((reveal_eq_ok_iff.mp hs').unique ht')

/-- A text that is wrapped, in the other alphabet and without padding; and one for whose last
symbol another stands that says the same but for bits that encode nothing. -/
theorem reveal_exactly_wrapped :
    conceal [0xFB, 0xFF] = "=8/+" ∧ reveal "8_\n-" = .ok [0xFB, 0xFF] ∧
      IsNormalForm "8_\n-" "+/8=" ∧ IsNormalForm "9/+" "+/9=" ∧
      reveal "9/+" ≠ .ok [0xFB, 0xFF] := by
  have hconceal : conceal [0xFB, 0xFF] = "=8/+" := by decide +kernel
  have hform : IsNormalForm "8_\n-" "+/8=" := ⟨1, by decide, by decide +kernel, by decide +kernel⟩
  have hother : IsNormalForm "9/+" "+/9=" := ⟨1, by decide, by decide +kernel, by decide +kernel⟩
  obtain ⟨-, hdisguise, -, -, hdiffer⟩ := reveal_exactly [0xFB, 0xFF] "8_\n-"
  have hreveal : reveal "8_\n-" = .ok [0xFB, 0xFF] := by
    rw [hdisguise, hconceal]
    exact .unpad (.keep '8' (.underscore (.blank (by decide) (.minus .nil))))
  refine ⟨hconceal, hreveal, hform, hother, fun hsame => ?_⟩
  exact hdiffer "9/+" "+/8=" "+/9=" hform hother (by decide) ⟨hreveal, hsame⟩

end Certificate

end WebSocketHost
