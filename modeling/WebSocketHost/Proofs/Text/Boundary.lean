import WebSocketHost.Proofs.Text.Trimmed

/-! Where a text can be cut, seen from its bytes, and the search for the last such place at or
before an offset. No character is longer than four bytes, so the search is short; in front of
the first character a text can always be cut, so it never steps past the start. -/
namespace WebSocketHost.Text

/-- Whether the bytes can be cut at an offset: at either end, or in front of a byte that does
not continue a character. -/
def isBoundary (b : Octets) (e : Nat) : Bool :=
  e == 0 || match b[e]? with
    | some o => !isContinuation o
    | none => e == b.length

/-- `Search b e turns found`: stepping back from `e` while the bytes cannot be cut there takes
`turns` steps and ends at `found`. There is no step back from the start. -/
inductive Search (b : Octets) : Nat → Nat → Nat → Prop
  | stop {e : Nat} : isBoundary b e = true → Search b e 0 e
  | back {e turns found : Nat} : isBoundary b (e + 1) = false → Search b e turns found →
      Search b (e + 1) (turns + 1) found

/-- `kept` is the longest front of a text whose bytes fit the room. -/
structure IsLongestFront (room : Nat) (s kept : String) : Prop where
  split : ∃ rest, s = kept ++ rest
  fits : (utf8 kept).length ≤ room
  longest : ∀ front rest, s = front ++ rest → (utf8 front).length ≤ room →
    (utf8 front).length ≤ (utf8 kept).length

section Character

theorem isContinuation_ofNat :
    ∀ n < 256, isContinuation (UInt8.ofNat n) = decide (128 ≤ n ∧ n < 192) := by
  decide +kernel

/-- Of the bytes of a character, all but the first continue it. -/
theorem utf8EncodeChar_continues (c : Char) :
    ∃ o os, String.utf8EncodeChar c = o :: os ∧ isContinuation o = false ∧
      ∀ o' ∈ os, isContinuation o' = true := by
  have hfirst (n : Nat) (h : n < 128 ∨ 192 ≤ n ∧ n < 256) :
      isContinuation (UInt8.ofNat n) = false := by
    rw [isContinuation_ofNat n (by omega), decide_eq_false_iff_not]
    omega
  have hnext (n : Nat) : isContinuation (UInt8.ofNat (n % 64 + 128)) = true := by
    rw [isContinuation_ofNat _ (by omega), decide_eq_true_eq]
    omega
  fun_cases String.utf8EncodeChar c with
  | case1 v h => exact ⟨_, _, rfl, hfirst _ (by omega), by simp⟩
  | case2 v h h₁ =>
    refine ⟨_, _, rfl, hfirst _ (by omega), ?_⟩
    simp only [List.forall_mem_cons, hnext, List.not_mem_nil, false_implies, implies_true, and_true]
  | case3 v h h₁ h₂ =>
    refine ⟨_, _, rfl, hfirst _ (by omega), ?_⟩
    simp only [List.forall_mem_cons, hnext, List.not_mem_nil, false_implies, implies_true, and_true]
  | case4 v h h₁ h₂ =>
    refine ⟨_, _, rfl, hfirst _ (by omega), ?_⟩
    simp only [List.forall_mem_cons, hnext, List.not_mem_nil, false_implies, implies_true, and_true]

end Character

section Boundary

theorem isBoundary_zero (b : Octets) : isBoundary b 0 = true := rfl

theorem isBoundary_succ (b : Octets) (e : Nat) :
    isBoundary b (e + 1) = match b[e + 1]? with
      | some o => !isContinuation o
      | none => e + 1 == b.length := by
  simp [isBoundary]

/-- Inside a character there is no boundary. -/
theorem isBoundary_inside {c : Char} {e : Nat} (he : e + 1 < c.utf8Size) (b : Octets) :
    isBoundary (String.utf8EncodeChar c ++ b) (e + 1) = false := by
  obtain ⟨o, os, hc, _, hos⟩ := utf8EncodeChar_continues c
  have hlen : os.length + 1 = c.utf8Size := by
    rw [← String.length_utf8EncodeChar, hc, List.length_cons]
  have hlt : e < os.length := by omega
  rw [isBoundary_succ, hc, List.cons_append, List.getElem?_cons_succ,
    List.getElem?_append_left hlt, List.getElem?_eq_getElem hlt]
  simp [hos _ (List.getElem_mem hlt)]

/-- Behind a character there are the boundaries of what follows it. -/
theorem isBoundary_behind (c : Char) (cs : List Char) (e : Nat) :
    isBoundary (String.utf8EncodeChar c ++ cs.flatMap String.utf8EncodeChar) (c.utf8Size + e) =
      isBoundary (cs.flatMap String.utf8EncodeChar) e := by
  obtain ⟨k, hk⟩ := Nat.exists_eq_succ_of_ne_zero c.utf8Size_pos.ne'
  have hlen : (String.utf8EncodeChar c).length = k + 1 := by
    rw [String.length_utf8EncodeChar, hk]
  rw [hk, show k.succ + e = (k + e) + 1 by omega, isBoundary_succ,
    List.getElem?_append_right (by omega), hlen, show k + e + 1 - (k + 1) = e by omega]
  cases e with
  | succ e =>
    rw [isBoundary_succ]
    cases (cs.flatMap String.utf8EncodeChar)[e + 1]? with
    | some o => rfl
    | none =>
      simp only [List.length_append, hlen, beq_eq_beq]
      omega
  | zero =>
    rw [isBoundary_zero]
    cases cs with
    | nil => simp [hlen]
    | cons c' cs =>
      obtain ⟨o, os, hc, ho, _⟩ := utf8EncodeChar_continues c'
      simp [hc, ho]

theorem isBoundary_flatMap_iff {cs : List Char} {e : Nat} :
    isBoundary (cs.flatMap String.utf8EncodeChar) e = true ↔
      ∃ front, front <+: cs ∧ (front.flatMap String.utf8EncodeChar).length = e := by
  induction cs generalizing e with
  | nil =>
    cases e with
    | zero => simp [isBoundary_zero]
    | succ e => simp [isBoundary_succ]
  | cons c cs ih =>
    rw [List.flatMap_cons]
    constructor
    · intro he
      rcases e with _ | e
      · exact ⟨[], List.nil_prefix, rfl⟩
      rcases Nat.lt_or_ge (e + 1) c.utf8Size with hlt | hge
      · rw [isBoundary_inside hlt] at he
        contradiction
      · obtain ⟨e', he'⟩ := Nat.exists_eq_add_of_le hge
        rw [he', isBoundary_behind, ih] at he
        obtain ⟨front, hfront, rfl⟩ := he
        exact ⟨c :: front, List.prefix_cons_inj c |>.mpr hfront, by simp [he']⟩
    · rintro ⟨_ | ⟨c', front⟩, hfront, rfl⟩
      · exact isBoundary_zero _
      · rw [List.cons_prefix_cons] at hfront
        obtain ⟨rfl, hfront⟩ := hfront
        rw [List.flatMap_cons, List.length_append, String.length_utf8EncodeChar,
          isBoundary_behind, ih]
        exact ⟨front, hfront, rfl⟩

/-- A text can be cut where one of its fronts ends, and nowhere else. -/
theorem isBoundary_iff {s : String} {e : Nat} :
    isBoundary (utf8 s) e = true ↔ ∃ front rest, s = front ++ rest ∧ (utf8 front).length = e := by
  rw [utf8_eq, isBoundary_flatMap_iff]
  constructor
  · rintro ⟨front, ⟨rest, hs⟩, he⟩
    refine ⟨.ofList front, .ofList rest, ?_, by rw [utf8_ofList, he]⟩
    rw [← String.ofList_append, hs, String.ofList_toList]
  · rintro ⟨front, rest, rfl, he⟩
    refine ⟨front.toList, ?_, by rw [← utf8_eq, he]⟩
    rw [String.toList_append]
    exact List.prefix_append _ _

end Boundary

section Search

variable {b : Octets}

/-- The search ends at the last boundary at or before its start. -/
theorem Search.of_last {found : Nat} (hfound : isBoundary b found = true) (turns : Nat)
    (hnone : ∀ e, found < e → e ≤ found + turns → isBoundary b e = false) :
    Search b (found + turns) turns found := by
  induction turns with
  | zero => exact .stop hfound
  | succ turns ih =>
    have hlast := hnone (found + (turns + 1)) (by omega) (Nat.le_refl _)
    refine .back hlast (ih fun e hlt hle => ?_)
    exact hnone e hlt (by omega)

/-- One search has one course. -/
theorem Search.unique {e turns turns' found found' : Nat} (h : Search b e turns found)
    (h' : Search b e turns' found') : turns = turns' ∧ found = found' := by
  induction h generalizing turns' with
  | stop he =>
    cases h' with
    | stop => exact ⟨rfl, rfl⟩
    | back he' => simp [he] at he'
  | back he _ ih =>
    cases h' with
    | stop he' => simp [he] at he'
    | back _ h' =>
      obtain ⟨rfl, rfl⟩ := ih h'
      exact ⟨rfl, rfl⟩

end Search

namespace IsLongestFront

variable {room : Nat} {s kept : String}

theorem length_le (h : IsLongestFront room s kept) : (utf8 kept).length ≤ (utf8 s).length := by
  obtain ⟨rest, rfl⟩ := h.split
  simp [utf8_append]

theorem eq_of_fits (h : IsLongestFront room s kept) (hs : (utf8 s).length ≤ room) : kept = s := by
  obtain ⟨rest, hrest⟩ := h.split
  have hlen := h.longest s "" (by simp) hs
  have hnil : utf8 rest = utf8 "" := by
    apply List.eq_nil_of_length_eq_zero
    rw [hrest, utf8_append, List.length_append] at hlen
    omega
  rw [hrest, utf8_injective hnil, String.append_empty]

/-- The character that is left out first has at most four bytes. -/
theorem lt_add_four (h : IsLongestFront room s kept) :
    min (utf8 s).length room < (utf8 kept).length + 4 := by
  obtain ⟨rest, rfl⟩ := h.split
  cases hrest : rest.toList with
  | nil =>
    rw [String.toList_eq_nil_iff.mp hrest, String.append_empty]
    omega
  | cons c cs =>
    have hsplit : kept ++ rest = (kept ++ .ofList [c]) ++ .ofList cs := by
      rw [String.append_assoc, ← String.ofList_append, List.singleton_append, ← hrest,
        String.ofList_toList]
    have hlen : (utf8 (kept ++ .ofList [c])).length = (utf8 kept).length + c.utf8Size := by
      rw [utf8_append, utf8_ofList, List.flatMap_singleton, List.length_append,
        String.length_utf8EncodeChar]
    have hlong := h.longest _ _ hsplit
    have hpos := c.utf8Size_pos
    have hfour := c.utf8Size_le_four
    omega

/-- Stepping back from where the room or the text ends leads to the end of the longest front, in
at most three turns and in no other way. -/
theorem search (h : IsLongestFront room s kept) :
    ∃ turns ≤ 3, ∀ turns' found, Search (utf8 s) (min (utf8 s).length room) turns' found ↔
      turns' = turns ∧ found = (utf8 kept).length := by
  have hle := h.length_le
  have hfits := h.fits
  have hfour := h.lt_add_four
  obtain ⟨turns, hturns⟩ : ∃ turns, min (utf8 s).length room = (utf8 kept).length + turns :=
    Nat.exists_eq_add_of_le (by omega)
  have hcourse : Search (utf8 s) (min (utf8 s).length room) turns (utf8 kept).length := by
    rw [hturns]
    apply Search.of_last
    · obtain ⟨rest, hrest⟩ := h.split
      exact isBoundary_iff.mpr ⟨kept, rest, hrest, rfl⟩
    · intro e hlt hle
      by_contra he
      rw [Bool.not_eq_false, isBoundary_iff] at he
      obtain ⟨front, rest, hs, rfl⟩ := he
      have := h.longest front rest hs (by omega)
      omega
  refine ⟨turns, by omega, fun turns' found => ⟨fun hsearch => hsearch.unique hcourse, ?_⟩⟩
  rintro ⟨rfl, rfl⟩
  exact hcourse

end IsLongestFront

end WebSocketHost.Text
