import WebSocketHost.Text.Reader

/-! Numbers are written by their digits and nothing else, so a reader that takes all the digits
there are comes to the number again, if no digit follows. -/
namespace WebSocketHost.Text.Reader

section Reading

variable {α β : Type} {r : Reader α} {f : α → Reader β} {p : Char → Bool} {a : α}
  {cs front rest : List Char}

theorem bind_of_some (h : r cs = some (a, rest)) : (r >>= f) cs = f a rest :=
  show (r cs).bind _ = _ by rw [h]; rfl

theorem bind_of_none (h : r cs = none) : (r >>= f) cs = none :=
  show (r cs).bind _ = _ by rw [h]; rfl

theorem orElse_of_some {r' : Reader α} (h : r cs = some (a, rest)) :
    (r <|> r') cs = some (a, rest) :=
  show (r cs).orElse _ = _ by rw [h]; rfl

theorem orElse_of_none {r' : Reader α} (h : r cs = none) : (r <|> r') cs = r' cs :=
  show (r cs).orElse _ = _ by rw [h]; rfl

theorem char_cons (c : Char) (rest : List Char) : char c (c :: rest) = some ((), rest) :=
  if_pos rfl

theorem char_of_head?_ne {c : Char} (h : cs.head? ≠ some c) : char c cs = none := by
  cases cs with
  | nil => rfl
  | cons d rest => exact if_neg fun hd => h (congrArg some hd)

/-- A stretch of characters goes no further. -/
def Stops (p : Char → Bool) (cs : List Char) : Prop := ∀ c ∈ cs.head?, p c = false

theorem stops_nil : Stops p [] := nofun

theorem stops_cons {c : Char} (h : p c = false) : Stops p (c :: cs) := by
  intro d hd
  cases hd
  exact h

theorem Stops.mono {q : Char → Bool} (h : Stops p cs) (hq : ∀ c, q c = true → p c = true) :
    Stops q cs := by
  refine fun c hc => Bool.eq_false_iff.mpr fun hqc => ?_
  cases (hq c hqc).symm.trans (h c hc)

theorem Stops.takeWhile_eq (h : Stops p cs) : takeWhile p cs = some ([], cs) := by
  cases cs with
  | nil => rfl
  | cons c rest =>
    have hc : p c = false := h c rfl
    simp [takeWhile, hc]

theorem takeWhile_append (hfront : ∀ c ∈ front, p c = true) (hrest : Stops p rest) :
    takeWhile p (front ++ rest) = some (front, rest) := by
  obtain ⟨htake, hdrop⟩ := Prod.mk.inj (Option.some.inj hrest.takeWhile_eq)
  rw [takeWhile, List.takeWhile_append_of_pos hfront, List.dropWhile_append_of_pos hfront,
    htake, hdrop, List.append_nil]

/-- A stretch that is left out ends within the front or within the rest. -/
theorem head?_dropWhile_append {c : Char} (h : c ∈ ((front ++ rest).dropWhile p).head?) :
    c ∈ front ∨ c ∈ (rest.dropWhile p).head? := by
  induction front with
  | nil => exact .inr h
  | cons d front ih =>
    rw [List.cons_append, List.dropWhile_cons] at h
    split at h
    · exact (ih h).imp_left (List.mem_cons_of_mem d)
    · cases h
      exact .inl List.mem_cons_self

end Reading

section Digits

variable {radix n : Nat}

theorem digitValue?_digitChar (hradix : radix ≤ 16) (hn : n < radix) :
    digitValue? radix n.digitChar = some n := by
  have hall : ∀ radix ≤ 16, ∀ n < radix, digitValue? radix n.digitChar = some n := by
    decide +kernel
  exact hall radix hradix n hn

theorem isDigit_of_mem_toDigits (hlow : 1 < radix) (hhigh : radix ≤ 16) {c : Char}
    (h : c ∈ Nat.toDigits radix n) : isDigit radix c = true := by
  induction n using Nat.strongRecOn with
  | ind n ih =>
    rw [Nat.toDigits_eq_if hlow] at h
    split at h
    · next hlt =>
      cases List.mem_singleton.mp h
      rw [isDigit, digitValue?_digitChar hhigh hlt]
      rfl
    · next hle =>
      rcases List.mem_append.mp h with hmore | hlast
      · exact ih (n / radix) (Nat.div_lt_self (by omega) hlow) hmore
      · cases List.mem_singleton.mp hlast
        rw [isDigit, digitValue?_digitChar hhigh (Nat.mod_lt n (by omega))]
        rfl

theorem takeWhile_toDigits (hlow : 1 < radix) (hhigh : radix ≤ 16) (n : Nat) {rest : List Char}
    (hrest : Stops (isDigit radix) rest) :
    takeWhile (isDigit radix) (Nat.toDigits radix n ++ rest) =
      some (Nat.toDigits radix n, rest) :=
  takeWhile_append (fun _ hc => isDigit_of_mem_toDigits hlow hhigh hc) hrest

theorem valueOf_concat (ds : List Char) (c : Char) :
    valueOf radix (ds ++ [c]) = valueOf radix ds * radix + (digitValue? radix c).getD 0 := by
  simp [valueOf]

theorem valueOf_toDigits (hlow : 1 < radix) (hhigh : radix ≤ 16) (n : Nat) :
    valueOf radix (Nat.toDigits radix n) = n := by
  induction n using Nat.strongRecOn with
  | ind n ih =>
    rw [Nat.toDigits_eq_if hlow]
    split
    · next hlt => simp [valueOf, digitValue?_digitChar hhigh hlt]
    · next hle =>
      rw [valueOf_concat, ih (n / radix) (Nat.div_lt_self (by omega) hlow),
        digitValue?_digitChar hhigh (Nat.mod_lt n (by omega)), Option.getD_some]
      exact Nat.div_add_mod' n radix

/-- Only zero is written with a zero in front. -/
theorem head?_toDigits (hlow : 1 < radix) (hhigh : radix ≤ 16)
    (h : (Nat.toDigits radix n).head? = some '0') : n = 0 := by
  induction n using Nat.strongRecOn with
  | ind n ih =>
    rw [Nat.toDigits_eq_if hlow] at h
    split at h
    · exact Nat.digitChar_eq_zero.mp (Option.some.inj h)
    · next hle =>
      rw [List.head?_append, List.head?_eq_some_head Nat.toDigits_ne_nil, Option.some_or,
        ← List.head?_eq_some_head Nat.toDigits_ne_nil] at h
      have hzero := ih (n / radix) (Nat.div_lt_self (by omega) hlow) h
      rw [Nat.div_eq_zero_iff] at hzero
      omega

theorem number_append {bound : Nat} (hlow : 1 < radix) (hhigh : radix ≤ 16) (hn : n < bound)
    {rest : List Char} (hrest : Stops (isDigit radix) rest) :
    number radix bound (Nat.toDigits radix n ++ rest) = some (n, rest) := by
  refine (bind_of_some (takeWhile_toDigits hlow hhigh n hrest)).trans ?_
  have hvalid : ¬(Nat.toDigits radix n = [] ∨ bound ≤ n) := by
    simp [Nat.toDigits_ne_nil, hn]
  simp only [valueOf_toDigits hlow hhigh, if_neg hvalid]
  rfl

end Digits

end WebSocketHost.Text.Reader
