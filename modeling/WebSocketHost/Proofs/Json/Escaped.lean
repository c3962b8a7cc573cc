import WebSocketHost.Json.Text
import WebSocketHost.Proofs.Text.Numeral

/-! A written string holds no control character, and its reader takes exactly what was written,
whatever stands behind it. -/
namespace WebSocketHost.Json

open Text.Reader

/-- A character that has no place in JSON outside an escape. -/
def IsControl (c : Char) : Prop := c.toNat < 0x20

instance (c : Char) : Decidable (IsControl c) := Nat.decLt _ _

section Character

variable {c d : Char} {rest : List Char}

/-- How a character is written: by a letter, by its number, or as it is. -/
theorem escape_cases (c : Char) :
    (∃ letter, escape c = ['\\', letter] ∧ letter ≠ 'u' ∧ ¬IsControl letter ∧
      letterEscape? letter = some c) ∨
    (IsControl c ∧ escape c = ['\\', 'u', '0', '0'] ++ twoDigits c.toNat) ∨
    (¬IsControl c ∧ c ≠ '"' ∧ c ≠ '\\' ∧ escape c = [c]) := by
  unfold escape
  split
  case h_8 hquote hbackslash _ _ _ _ _ =>
    by_cases hc : IsControl c
    · exact .inr (.inl ⟨hc, if_pos hc⟩)
    · exact .inr (.inr ⟨hc, hquote, hbackslash, if_neg hc⟩)
  all_goals exact .inl ⟨_, rfl, by decide, by decide, rfl⟩

theorem fourDigits?_control (hc : IsControl c) :
    fourDigits? ('0' :: '0' :: twoDigits c.toNat ++ rest) = some (c.toNat, rest) := by
  have hall : ∀ n < 0x20, ['0', '0', (n / 16).digitChar, (n % 16).digitChar].all (isDigit 16) ∧
      valueOf 16 ['0', '0', (n / 16).digitChar, (n % 16).digitChar] = n := by decide +kernel
  obtain ⟨hdigits, hvalue⟩ := hall c.toNat hc
  exact (if_pos hdigits).trans (congrArg (fun n => some (n, rest)) hvalue)

theorem numberEscape?_control (hc : IsControl c) :
    numberEscape? ('0' :: '0' :: twoDigits c.toNat ++ rest) = some (c, rest) := by
  have hlow : c.toNat < 0x20 := hc
  unfold numberEscape?
  rw [fourDigits?_control hc]
  simp only [Option.bind_eq_bind, Option.bind_some]
  rw [if_neg (by omega), if_neg (by omega), Char.ofNat_toNat]

theorem character?_letter (hd : d ≠ 'u') (h : letterEscape? d = some c) :
    character? ('\\' :: d :: rest) = some (c, rest) := by
  rw [character?, h, Option.map_some]
  exact fun heq => hd heq

theorem character?_plain (hc : ¬IsControl c) (hbackslash : c ≠ '\\') :
    character? (c :: rest) = some (c, rest) := by
  have hplain : ¬(c.toNat < 0x20 ∨ c = '\\') := not_or.mpr ⟨hc, hbackslash⟩
  unfold character?
  split <;> simp_all

theorem character?_escape (c : Char) (rest : List Char) :
    character? (escape c ++ rest) = some (c, rest) := by
  rcases escape_cases c with ⟨letter, heq, hletter, -, hmeans⟩ | ⟨hc, heq⟩ |
    ⟨hc, -, hbackslash, heq⟩
  · rw [heq]
    exact character?_letter hletter hmeans
  · rw [heq]
    exact numberEscape?_control hc
  · rw [heq]
    exact character?_plain hc hbackslash

/-- What a character is written as does not look like the closing mark. -/
theorem head?_escape (c : Char) : ∃ d ds, escape c = d :: ds ∧ d ≠ '"' := by
  rcases escape_cases c with ⟨letter, heq, -, -, -⟩ | ⟨-, heq⟩ | ⟨-, hquote, -, heq⟩
  · exact ⟨_, _, heq, by decide⟩
  · exact ⟨_, _, heq, by decide⟩
  · exact ⟨_, _, heq, hquote⟩

theorem not_isControl_of_mem_escape (h : d ∈ escape c) : ¬IsControl d := by
  have hdigits : ∀ n < 0x20, (['\\', 'u', '0', '0'] ++ twoDigits n).all (¬IsControl ·) := by
    decide +kernel
  rcases escape_cases c with ⟨letter, heq, -, hletter, -⟩ | ⟨hc, heq⟩ | ⟨hc, -, -, heq⟩
  · rw [heq, List.mem_cons, List.mem_singleton] at h
    rcases h with rfl | rfl
    · decide
    · exact hletter
  · rw [heq] at h
    exact of_decide_eq_true (List.all_eq_true.mp (hdigits _ hc) d h)
  · rw [heq, List.mem_singleton] at h
    rwa [h]

end Character

section Strings

variable {rest : List Char}

theorem characters_flatMap_escape (cs : List Char) {fuel : Nat}
    (hfuel : (cs.flatMap escape).length ≤ fuel) :
    characters fuel (cs.flatMap escape ++ '"' :: rest) = some (cs, rest) := by
  induction cs generalizing fuel with
  | nil => simp [characters]
  | cons c cs ih =>
    obtain ⟨d, ds, heq, hd⟩ := head?_escape c
    rw [List.flatMap_cons, heq, List.cons_append, List.length_cons] at hfuel
    obtain ⟨fuel, rfl⟩ : ∃ n, fuel = n + 1 := ⟨fuel - 1, by omega⟩
    have hmore : characters fuel (cs.flatMap escape ++ '"' :: rest) = some (cs, rest) :=
      ih (by rw [List.length_append] at hfuel; omega)
    have hfirst := character?_escape c (cs.flatMap escape ++ '"' :: rest)
    rw [List.flatMap_cons, List.append_assoc]
    rw [heq, List.cons_append] at hfirst ⊢
    unfold characters
    split
    next hclose => exact absurd (List.cons.inj hclose).1 hd
    next => contradiction
    next => simp_all

theorem text_encodeText (s : String) (rest : List Char) :
    text (encodeText s ++ rest) = some (s, rest) := by
  let inner : Text.Reader (List Char) := fun cs => characters cs.length cs
  have hinner : inner (s.toList.flatMap escape ++ '"' :: rest) = some (s.toList, rest) :=
    characters_flatMap_escape s.toList (by simp)
  have hopen : encodeText s ++ rest = '"' :: (s.toList.flatMap escape ++ '"' :: rest) := by
    simp [encodeText]
  rw [hopen]
  refine (bind_of_some (char_cons '"' _)).trans ((bind_of_some hinner).trans ?_)
  rw [String.ofList_toList]
  rfl

theorem not_isControl_of_mem_encodeText {s : String} {c : Char} (h : c ∈ encodeText s) :
    ¬IsControl c := by
  simp only [encodeText, List.cons_append, List.mem_cons, List.mem_append, List.mem_flatMap,
    List.not_mem_nil, or_false] at h
  rcases h with rfl | ⟨d, -, hd⟩ | rfl
  · decide
  · exact not_isControl_of_mem_escape hd
  · decide

end Strings

end WebSocketHost.Json
