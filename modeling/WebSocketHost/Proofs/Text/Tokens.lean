import WebSocketHost.Proofs.Text.Trimmed

/-! Tokens in a comma-separated text: a token stays the same token when the case of its letters
changes or blanks are put around it, and a list of tokens is one text or several. -/
namespace WebSocketHost.Text

/-- `t'` is `t` with the case of letters changed and blanks put around it. -/
def Respaced (t t' : String) : Prop :=
  ∃ front token back, t' = front ++ token ++ back ∧ equalIgnoringCase token t = true ∧
    (∀ c ∈ front.toList, isBlank c = true) ∧ ∀ c ∈ back.toList, isBlank c = true

section Case

variable {s t u : String}

theorem equalIgnoringCase_iff :
    equalIgnoringCase s t = true ↔ s.toList.map Char.toLower = t.toList.map Char.toLower :=
  beq_iff_eq

theorem equalIgnoringCase_symm (h : equalIgnoringCase s t = true) :
    equalIgnoringCase t s = true :=
  equalIgnoringCase_iff.mpr (equalIgnoringCase_iff.mp h).symm

theorem equalIgnoringCase_congr (h : equalIgnoringCase s t = true) (u : String) :
    equalIgnoringCase s u = equalIgnoringCase t u := by
  rw [equalIgnoringCase, equalIgnoringCase_iff.mp h]
  rfl

/-- Only letters of ASCII have a case. -/
theorem toLower_cases (c : Char) : c.toLower = c ∨ ∃ n < 128, c = Char.ofNat n := by
  unfold Char.toLower
  split
  case isTrue h =>
    have hn : c.toNat ≤ 90 := UInt32.le_iff_toNat_le.mp h.2
    exact .inr ⟨c.toNat, by omega, (Char.ofNat_toNat c).symm⟩
  case isFalse => exact .inl rfl

theorem isBlank_toLower (c : Char) : isBlank c.toLower = isBlank c := by
  have hascii : ∀ n < 128, isBlank (Char.ofNat n).toLower = isBlank (Char.ofNat n) := by decide
  rcases toLower_cases c with h | ⟨n, hn, rfl⟩
  · rw [h]
  · exact hascii n hn

theorem eq_comma_of_toLower {c : Char} (h : c.toLower = ',') : c = ',' := by
  have hascii : ∀ n < 128, (Char.ofNat n).toLower = ',' → Char.ofNat n = ',' := by decide
  rcases toLower_cases c with hc | ⟨n, hn, rfl⟩
  · rw [← hc, h]
  · exact hascii n hn h

theorem comma_mem_of_equalIgnoringCase (h : equalIgnoringCase s t = true) (hs : ',' ∈ s.toList) :
    ',' ∈ t.toList := by
  have hmem : ',' ∈ t.toList.map Char.toLower := by
    rw [← equalIgnoringCase_iff.mp h]
    exact List.mem_map_of_mem hs
  obtain ⟨c, hc, hlower⟩ := List.mem_map.mp hmem
  rwa [← eq_comma_of_toLower hlower]

end Case

section Trim

variable {α β : Type} {p : α → Bool} {l front back : List α}

theorem trimWhile_map {f : α → β} {q : β → Bool} (h : ∀ a, q (f a) = p a) (l : List α) :
    trimWhile q (l.map f) = (trimWhile p l).map f := by
  have hcomp : q ∘ f = p := funext h
  simp [trimWhile, List.dropWhile_map, ← List.map_reverse, hcomp]

theorem trimWhile_append_left (h : ∀ a ∈ front, p a = true) :
    trimWhile p (front ++ l) = trimWhile p l := by
  rw [trimWhile, List.dropWhile_append_of_pos h]
  rfl

theorem trimWhile_append_right (h : ∀ a ∈ back, p a = true) :
    trimWhile p (l ++ back) = trimWhile p l := by
  have hback : back.dropWhile p = [] := List.dropWhile_eq_nil_iff.mpr h
  rw [trimWhile, trimWhile, List.dropWhile_append]
  split
  case isTrue hl =>
    rw [hback, List.isEmpty_iff.mp hl]
  case isFalse =>
    rw [List.reverse_append, List.dropWhile_append_of_pos]
    simpa using h

/-- What is trimmed off fulfils the condition. -/
theorem trimWhile_split (p : α → Bool) (l : List α) :
    ∃ front back, l = front ++ trimWhile p l ++ back ∧ (∀ a ∈ front, p a = true) ∧
      ∀ a ∈ back, p a = true := by
  refine ⟨l.takeWhile p, ((l.dropWhile p).reverse.takeWhile p).reverse, ?_, ?_, ?_⟩
  · rw [trimWhile, List.append_assoc, ← List.reverse_append, List.takeWhile_append_dropWhile,
      List.reverse_reverse, List.takeWhile_append_dropWhile]
  · exact fun a => List.mem_takeWhile_imp
  · intro a ha
    exact List.mem_takeWhile_imp (List.mem_reverse.mp ha)

end Trim

namespace Respaced

variable {t t' token : String}

theorem trim_eq (h : Respaced t t') : equalIgnoringCase (trim t') (trim t) = true := by
  obtain ⟨front, token, back, rfl, hcase, hfront, hback⟩ := h
  have htrim : trim (front ++ token ++ back) = trim token := by
    simp only [trim, String.toList_append, trimWhile_append_right hback,
      trimWhile_append_left hfront]
  rw [equalIgnoringCase_iff] at hcase ⊢
  rw [htrim]
  simp only [trim, String.toList_ofList, ← trimWhile_map isBlank_toLower, hcase]

theorem comma_not_mem (h : Respaced t t') (ht : ',' ∉ t.toList) : ',' ∉ t'.toList := by
  have hcomma : isBlank ',' = false := by decide
  obtain ⟨front, token, back, rfl, hcase, hfront, hback⟩ := h
  simp only [String.toList_append, List.mem_append, not_or]
  refine ⟨⟨fun hmem => ?_, fun hmem => ht (comma_mem_of_equalIgnoringCase hcase hmem)⟩,
    fun hmem => ?_⟩
  · simp [hfront _ hmem] at hcomma
  · simp [hback _ hmem] at hcomma

/-- A text is a token with blanks around it when trimming it leaves the token. -/
theorem iff_trim (htoken : trim token = token) :
    Respaced token t ↔ equalIgnoringCase (trim t) token = true := by
  constructor
  · intro h
    have htrim := h.trim_eq
    rwa [htoken] at htrim
  · intro h
    obtain ⟨front, back, ht, hfront, hback⟩ := trimWhile_split isBlank t.toList
    refine ⟨.ofList front, trim t, .ofList back, ?_, h, ?_, ?_⟩
    · rw [trim, ← String.ofList_append, ← String.ofList_append, ← ht, String.ofList_toList]
    · rwa [String.toList_ofList]
    · rwa [String.toList_ofList]

end Respaced

section Pieces

theorem split_eq_splitOn (separator : Char) (cs : List Char) :
    split separator cs = cs.splitOn separator := by
  induction cs with
  | nil => rfl
  | cons c cs ih =>
    rw [split, ih, List.splitOn_cons_eq_if_modifyHead]
    by_cases hc : c = separator
    · simp [hc]
    · obtain ⟨piece, pieces, h⟩ := List.exists_cons_of_ne_nil (List.splitOn_ne_nil separator cs)
      simp [hc, h]

end Pieces

end WebSocketHost.Text
