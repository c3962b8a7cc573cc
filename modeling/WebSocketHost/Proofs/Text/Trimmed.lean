import Mathlib.Data.List.DropRight
import WebSocketHost.Text.Ascii
import WebSocketHost.Text.Blank
import WebSocketHost.Text.Utf8

/-! Text and its bytes compared. An ASCII byte is a character by itself, wherever it stands;
so text in ASCII is read off its bytes one by one, and text with no blank at its ends has no
space or tab at the ends of its bytes. -/
namespace WebSocketHost.Text

section Trim

variable {α : Type} {p : α → Bool} {l : List α}

theorem trimWhile_eq_rdropWhile (p : α → Bool) (l : List α) :
    trimWhile p l = (l.dropWhile p).rdropWhile p := rfl

theorem trimWhile_eq_self_iff :
    trimWhile p l = l ↔ (∀ x ∈ l.head?, p x = false) ∧ ∀ x ∈ l.getLast?, p x = false := by
  rw [trimWhile_eq_rdropWhile]
  constructor
  · intro h
    -- nothing is lost from both ends together, so nothing is lost from either
    have hfront : l.dropWhile p = l := by
      apply (l.dropWhile_suffix p).eq_of_length_le
      calc l.length = ((l.dropWhile p).rdropWhile p).length := by rw [h]
        _ ≤ (l.dropWhile p).length := (List.rdropWhile_prefix p _).length_le
    rw [hfront, List.rdropWhile_eq_self_iff] at h
    rw [List.dropWhile_eq_self_iff] at hfront
    cases l with
    | nil => simp
    | cons x l =>
      have hx : p x = false := Bool.eq_false_iff.mpr (hfront (by simp))
      have hlast := h (List.cons_ne_nil x l)
      simpa [List.getLast?_eq_some_getLast (List.cons_ne_nil x l), hx] using hlast
  · rintro ⟨hhead, hlast⟩
    have hfront : l.dropWhile p = l := by
      cases l with
      | nil => rfl
      | cons x l => simpa using hhead x rfl
    rw [hfront, List.rdropWhile_eq_self_iff]
    intro hne
    simp [hlast _ (List.getLast?_eq_some_getLast hne)]

theorem trimWhile_trimWhile (p : α → Bool) (l : List α) :
    trimWhile p (trimWhile p l) = trimWhile p l := by
  rw [trimWhile_eq_self_iff, trimWhile_eq_rdropWhile]
  constructor
  · intro x hx
    have hx : x ∈ (l.dropWhile p).head? := by
      obtain ⟨t, ht⟩ := List.rdropWhile_prefix p (l := l.dropWhile p)
      rw [← ht]
      exact List.mem_head?_append_of_mem_head? hx
    have hhead := List.head?_dropWhile_not p l
    rw [Option.mem_def.mp hx] at hhead
    simpa using hhead
  · intro x hx
    have hne : (l.dropWhile p).rdropWhile p ≠ [] := by
      intro hnil
      simp [hnil] at hx
    rw [List.getLast?_eq_some_getLast hne] at hx
    cases hx
    simpa using List.rdropWhile_last_not p _ hne

theorem trimWhile_cons_of_pos {x : α} (hx : p x = true) (l : List α) :
    trimWhile p (x :: l) = trimWhile p l := by
  simp [trimWhile, hx]

theorem trim_trim (s : String) : trim (trim s) = trim s := by
  simp [trim, trimWhile_trimWhile]

end Trim

section Bytes

variable {s : String} {o : UInt8}

theorem utf8_ofList (cs : List Char) :
    utf8 (String.ofList cs) = cs.flatMap String.utf8EncodeChar := by
  simp [utf8, List.utf8Encode]

theorem utf8_eq (s : String) : utf8 s = s.toList.flatMap String.utf8EncodeChar := by
  rw [← utf8_ofList, String.ofList_toList]

theorem utf8_append (s t : String) : utf8 (s ++ t) = utf8 s ++ utf8 t := by
  simp [utf8]

theorem utf8_ne_nil (h : s ≠ "") : utf8 s ≠ [] := by
  intro hnil
  exact h (utf8_injective (hnil.trans (by decide)))

/-- No byte of a longer character could be taken for a character of its own. -/
theorem utf8EncodeChar_cases (c : Char) :
    (c.toNat < 128 ∧ String.utf8EncodeChar c = [UInt8.ofNat c.toNat]) ∨
      ∀ o ∈ String.utf8EncodeChar c, 128 ≤ o := by
  have hhigh (n : Nat) (hn : 128 ≤ n) (hn' : n < 256) : 128 ≤ UInt8.ofNat n := by
    rw [UInt8.le_iff_toNat_le, UInt8.toNat_ofNat_of_lt' hn']
    exact hn
  have hc : c.toNat = c.val.toNat := rfl
  fun_cases String.utf8EncodeChar c with
  | case1 v h => exact .inl ⟨by omega, rfl⟩
  | case2 v h h₁ =>
    right
    simp only [List.forall_mem_cons, List.not_mem_nil, false_implies, implies_true, and_true]
    refine ⟨hhigh _ ?_ ?_, hhigh _ ?_ ?_⟩ <;> omega
  | case3 v h h₁ h₂ =>
    right
    simp only [List.forall_mem_cons, List.not_mem_nil, false_implies, implies_true, and_true]
    refine ⟨hhigh _ ?_ ?_, hhigh _ ?_ ?_, hhigh _ ?_ ?_⟩ <;> omega
  | case4 v h h₁ h₂ =>
    right
    simp only [List.forall_mem_cons, List.not_mem_nil, false_implies, implies_true, and_true]
    refine ⟨hhigh _ ?_ ?_, hhigh _ ?_ ?_, hhigh _ ?_ ?_, hhigh _ ?_ ?_⟩ <;> omega

/-- A character that one of its bytes gives away. -/
theorem eq_ofNat_of_mem {c : Char} (ho : o ∈ String.utf8EncodeChar c) (hascii : o < 128) :
    String.utf8EncodeChar c = [o] ∧ c = Char.ofNat o.toNat := by
  rcases utf8EncodeChar_cases c with ⟨hc, hbytes⟩ | hhigh
  · rw [hbytes, List.mem_singleton] at ho
    rw [hbytes, ho, UInt8.toNat_ofNat_of_lt' (Nat.lt_trans hc (by decide)), Char.ofNat_toNat]
    exact ⟨rfl, rfl⟩
  · exact absurd (hhigh o ho) (by rw [UInt8.not_le]; exact hascii)

theorem ofAscii_utf8 (h : ∀ o ∈ utf8 s, o < 128) : ofAscii (utf8 s) = s := by
  suffices hchars : (utf8 s).map (fun o => Char.ofNat o.toNat) = s.toList by
    rw [ofAscii, hchars, String.ofList_toList]
  rw [utf8_eq] at h ⊢
  generalize s.toList = cs at h ⊢
  induction cs with
  | nil => rfl
  | cons c cs ih =>
    rw [List.flatMap_cons, List.forall_mem_append] at h
    obtain ⟨o, ho⟩ := List.exists_mem_of_ne_nil _ (String.utf8EncodeChar_ne_nil (c := c))
    obtain ⟨hbytes, hc⟩ := eq_ofNat_of_mem ho (h.1 o ho)
    rw [List.flatMap_cons, List.map_append, ih h.2, hbytes, hc]
    rfl

theorem utf8_ofAscii {b : Octets} (h : ∀ o ∈ b, o < 128) : utf8 (ofAscii b) = b := by
  have hbyte : ∀ n < 128, String.utf8EncodeChar (Char.ofNat n) = [UInt8.ofNat n] := by
    decide +kernel
  rw [ofAscii, utf8_ofList]
  induction b with
  | nil => rfl
  | cons o b ih =>
    rw [List.forall_mem_cons] at h
    rw [List.map_cons, List.flatMap_cons, ih h.2, hbyte o.toNat h.1, UInt8.ofNat_toNat]
    rfl

theorem head?_of_head?_utf8 (ho : o ∈ (utf8 s).head?) (hascii : o < 128) :
    Char.ofNat o.toNat ∈ s.toList.head? := by
  rw [utf8_eq] at ho
  cases hs : s.toList with
  | nil => simp [hs] at ho
  | cons c cs =>
    rw [hs, List.flatMap_cons, List.head?_append_of_ne_nil _ String.utf8EncodeChar_ne_nil] at ho
    obtain ⟨_, hc⟩ := eq_ofNat_of_mem (List.mem_of_mem_head? ho) hascii
    simp [hc]

theorem getLast?_of_getLast?_utf8 (ho : o ∈ (utf8 s).getLast?) (hascii : o < 128) :
    Char.ofNat o.toNat ∈ s.toList.getLast? := by
  rw [utf8_eq] at ho
  cases hs : s.toList using List.reverseRecOn with
  | nil => simp [hs] at ho
  | append_singleton cs c =>
    rw [hs, List.flatMap_append, List.flatMap_singleton,
      List.getLast?_append_of_ne_nil _ String.utf8EncodeChar_ne_nil] at ho
    obtain ⟨_, hc⟩ := eq_ofNat_of_mem (List.mem_of_mem_getLast? ho) hascii
    simp [hc]

/-- Blanks at the ends are the only ones that trimming bytes could take. -/
theorem trimWhile_utf8 {p : UInt8 → Bool}
    (hp : ∀ o, p o = true → o < 128 ∧ isBlank (Char.ofNat o.toNat)) (h : trim s = s) :
    trimWhile p (utf8 s) = utf8 s := by
  have hchars : trimWhile isBlank s.toList = s.toList := by
    rw [← String.toList_ofList (l := trimWhile isBlank s.toList)]
    exact congrArg String.toList h
  obtain ⟨hhead, hlast⟩ := trimWhile_eq_self_iff.mp hchars
  rw [trimWhile_eq_self_iff]
  constructor
  · intro o ho
    by_contra hpo
    obtain ⟨hascii, hblank⟩ := hp o (by simpa using hpo)
    simp [hhead _ (head?_of_head?_utf8 ho hascii)] at hblank
  · intro o ho
    by_contra hpo
    obtain ⟨hascii, hblank⟩ := hp o (by simpa using hpo)
    simp [hlast _ (getLast?_of_getLast?_utf8 ho hascii)] at hblank

end Bytes

end WebSocketHost.Text
