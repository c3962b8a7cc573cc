import WebSocketHost.Proofs.RequestHead.Steady

/-! A head is known by its lines alone: blank ones, the request line, the header lines and
the blank line after them. No line has a line feed inside, so a byte string can begin with
one head only, and what is read as a head is that one. -/
namespace WebSocketHost.RequestHead

/-- What a line may end with. -/
def lineEnds : List Octets := [[lineFeed], [carriageReturn, lineFeed]]

theorem mem_lineEnds {stop : Octets} :
    stop ∈ lineEnds ↔ stop = [lineFeed] ∨ stop = [carriageReturn, lineFeed] := by
  simp [lineEnds]

def Plain (b : Octets) : Prop := ∀ o ∈ b, o ≠ carriageReturn ∧ o ≠ lineFeed

instance (b : Octets) : Decidable (Plain b) :=
  List.decidableBAll (fun o => o ≠ carriageReturn ∧ o ≠ lineFeed) b

def IsBlank (l : Octets) : Prop := l ∈ lineEnds

/-- A line with something on it. -/
def IsLine (l : Octets) : Prop :=
  ∃ text stop, text ≠ [] ∧ Plain text ∧ stop ∈ lineEnds ∧ l = text ++ stop

/-- Header lines, and the blank line that ends a head. -/
inductive AreFields : Octets → Prop
  | blank {l : Octets} (hl : IsBlank l) : AreFields l
  | line {l b : Octets} (hl : IsLine l) (hb : AreFields b) : AreFields (l ++ b)

inductive IsHead : Octets → Prop
  | blank {l b : Octets} (hl : IsBlank l) (hb : IsHead b) : IsHead (l ++ b)
  | request {l b : Octets} (hl : IsLine l) (hb : AreFields b) : IsHead (l ++ b)

section Unique

variable {l l' b b' rest rest' : Octets}

theorem eq_of_lineFeed {c c' : Octets} (hc : lineFeed ∉ c) (hc' : lineFeed ∉ c')
    (h : c ++ lineFeed :: rest = c' ++ lineFeed :: rest') : c = c' ∧ rest = rest' := by
  induction c generalizing c' with
  | nil =>
    cases c' with
    | nil => exact ⟨rfl, (List.cons.inj h).2⟩
    | cons x c' =>
      have hx : lineFeed = x := (List.cons.inj h).1
      exact absurd (by rw [hx]; exact List.mem_cons_self) hc'
  | cons x c ih =>
    cases c' with
    | nil =>
      have hx : x = lineFeed := (List.cons.inj h).1
      exact absurd (by rw [hx]; exact List.mem_cons_self) hc
    | cons y c' =>
      obtain ⟨hxy, htail⟩ := List.cons.inj h
      obtain ⟨htail, hrest⟩ := ih (fun hm => hc (List.mem_cons_of_mem x hm))
        (fun hm => hc' (List.mem_cons_of_mem y hm)) htail
      exact ⟨by rw [hxy, htail], hrest⟩

/-- Either kind of line ends with its first line feed. -/
theorem ends_with_lineFeed (hl : IsBlank l ∨ IsLine l) :
    ∃ c, lineFeed ∉ c ∧ l = c ++ [lineFeed] := by
  have hstop (stop : Octets) (hstop : stop ∈ lineEnds) :
      ∃ c, lineFeed ∉ c ∧ stop = c ++ [lineFeed] := by
    rcases mem_lineEnds.mp hstop with rfl | rfl
    · exact ⟨[], List.not_mem_nil, rfl⟩
    · exact ⟨[carriageReturn], by decide, rfl⟩
  rcases hl with hl | ⟨text, stop, _, hplain, hend, rfl⟩
  · exact hstop l hl
  · obtain ⟨c, hc, rfl⟩ := hstop stop hend
    refine ⟨text ++ c, ?_, by rw [List.append_assoc]⟩
    intro hm
    rcases List.mem_append.mp hm with hm | hm
    · exact (hplain lineFeed hm).2 rfl
    · exact hc hm

theorem eq_of_lines (hl : IsBlank l ∨ IsLine l) (hl' : IsBlank l' ∨ IsLine l')
    (h : l ++ rest = l' ++ rest') : l = l' ∧ rest = rest' := by
  obtain ⟨c, hc, rfl⟩ := ends_with_lineFeed hl
  obtain ⟨c', hc', rfl⟩ := ends_with_lineFeed hl'
  rw [List.append_assoc, List.append_assoc] at h
  obtain ⟨rfl, hrest⟩ := eq_of_lineFeed hc hc' h
  exact ⟨rfl, hrest⟩

theorem not_blank_of_line (hl : IsLine l) : ¬ IsBlank l := by
  obtain ⟨text, stop, hne, hplain, _, rfl⟩ := hl
  intro hblank
  cases text with
  | nil => exact hne rfl
  | cons o text =>
    have ho := hplain o List.mem_cons_self
    rcases mem_lineEnds.mp hblank with h | h
    · exact ho.2 (List.cons.inj h).1
    · exact ho.1 (List.cons.inj h).1

theorem AreFields.eq_rest (hb : AreFields b) (hb' : AreFields b') (h : b ++ rest = b' ++ rest') :
    rest = rest' := by
  induction hb generalizing b' with
  | @blank l hl =>
    cases hb' with
    | blank hl' => exact (eq_of_lines (.inl hl) (.inl hl') h).2
    | line hl' hb' =>
      rw [List.append_assoc] at h
      have heq := (eq_of_lines (.inl hl) (.inr hl') h).1
      exact absurd (heq ▸ hl) (not_blank_of_line hl')
  | line hl hb ih =>
    rw [List.append_assoc] at h
    cases hb' with
    | blank hl' =>
      have heq := (eq_of_lines (.inr hl) (.inl hl') h).1
      exact absurd (heq ▸ hl') (not_blank_of_line hl)
    | line hl' hb' =>
      rw [List.append_assoc] at h
      exact ih hb' (eq_of_lines (.inr hl) (.inr hl') h).2

theorem IsHead.eq_rest (hb : IsHead b) (hb' : IsHead b') (h : b ++ rest = b' ++ rest') :
    rest = rest' := by
  induction hb generalizing b' with
  | blank hl hb ih =>
    rw [List.append_assoc] at h
    cases hb' with
    | blank hl' hb' =>
      rw [List.append_assoc] at h
      exact ih hb' (eq_of_lines (.inl hl) (.inl hl') h).2
    | request hl' hb' =>
      rw [List.append_assoc] at h
      have heq := (eq_of_lines (.inl hl) (.inr hl') h).1
      exact absurd (heq ▸ hl) (not_blank_of_line hl')
  | request hl hb =>
    rw [List.append_assoc] at h
    cases hb' with
    | blank hl' hb' =>
      rw [List.append_assoc] at h
      have heq := (eq_of_lines (.inr hl) (.inl hl') h).1
      exact absurd (heq ▸ hl') (not_blank_of_line hl)
    | request hl' hb' =>
      rw [List.append_assoc] at h
      exact hb.eq_rest hb' (eq_of_lines (.inr hl) (.inr hl') h).2

end Unique

open Rule

section Read

variable {b rest : Octets}

theorem plain_of_stretch {p : UInt8 → Bool} {front : Octets} {o : UInt8}
    (hreturn : p carriageReturn = false) (hfeed : p lineFeed = false)
    (h : stretch p b = .done (front, o) rest) : Plain front := by
  obtain ⟨_, hfront, _⟩ := split_of_stretch h
  intro x hx
  have hp := hfront x hx
  constructor
  · rintro rfl
    rw [hreturn] at hp
    cases hp
  · rintro rfl
    rw [hfeed] at hp
    cases hp

/-- Blank lines in front of a head are part of it. -/
theorem head_of_emptyLines {u : Unit} (h : emptyLines b = .done u rest) :
    ∃ front, b = front ++ rest ∧ ∀ head, IsHead head → IsHead (front ++ head) := by
  fun_induction emptyLines b with
  | case1 => cases h
  | case2 b ih =>
    obtain ⟨front, hb, hhead⟩ := ih h
    refine ⟨lineFeed :: front, by rw [hb]; rfl, fun head hh => ?_⟩
    exact IsHead.blank (l := [lineFeed]) (mem_lineEnds.mpr (.inl rfl)) (hhead head hh)
  | case3 => cases h
  | case4 b hne ih =>
    obtain ⟨front, hb, hhead⟩ := ih h
    refine ⟨carriageReturn :: lineFeed :: front, by rw [hb]; rfl, fun head hh => ?_⟩
    exact IsHead.blank (l := [carriageReturn, lineFeed]) (mem_lineEnds.mpr (.inr rfl))
      (hhead head hh)
  | case5 o b ho hne => cases h
  | case6 o b hfeed hreturn =>
    cases h
    exact ⟨[], rfl, fun head hh => hh⟩

theorem blank_of_endLine {o : UInt8} {fault : Fault} {u : Unit}
    (h : endLine o fault b = .done u rest) : ∃ stop ∈ lineEnds, o :: b = stop ++ rest := by
  unfold endLine at h
  split at h
  · next ho =>
    obtain ⟨x, mid, hx, hmid⟩ := bind_done_iff.mp h
    rw [eq_cons_of_byte hx, ho]
    split at hmid
    · cases hmid
    · next hfeed =>
      cases hmid
      rw [Decidable.not_not.mp hfeed]
      exact ⟨_, mem_lineEnds.mpr (.inr rfl), rfl⟩
  · split at h
    · next ho =>
      cases h
      rw [ho]
      exact ⟨_, mem_lineEnds.mpr (.inl rfl), rfl⟩
    · cases h

theorem Plain.append {c : Octets} (hb : Plain b) (hc : Plain c) : Plain (b ++ c) := by
  intro o ho
  rcases List.mem_append.mp ho with ho | ho
  · exact hb o ho
  · exact hc o ho

/-- A method and a target alike are a stretch and a space behind it. -/
theorem plain_of_word {p : UInt8 → Bool} {word : Octets} {stop : UInt8}
    (hreturn : p carriageReturn = false) (hfeed : p lineFeed = false)
    (h : stretch p b = .done (word, stop) rest) (hstop : ¬ (word = [] ∨ stop ≠ space)) :
    ∃ front, front ≠ [] ∧ Plain front ∧ b = front ++ rest := by
  rw [not_or, Decidable.not_not] at hstop
  have hspace : Plain [space] := by decide
  refine ⟨word ++ [space], by simp, (plain_of_stretch hreturn hfeed h).append hspace, ?_⟩
  rw [(split_of_stretch h).1, hstop.2, List.append_cons]

theorem plain_of_methodRule {method : String} (h : methodRule b = .done method rest) :
    ∃ front, front ≠ [] ∧ Plain front ∧ b = front ++ rest := by
  obtain ⟨⟨name, stop⟩, mid, hname, hmid⟩ := bind_done_iff.mp h
  dsimp only at hmid
  split at hmid
  · cases hmid
  · next hstop =>
    cases hmid
    exact plain_of_word rfl rfl hname hstop

theorem plain_of_targetRule {target : String} (h : targetRule b = .done target rest) :
    ∃ front, front ≠ [] ∧ Plain front ∧ b = front ++ rest := by
  obtain ⟨⟨name, stop⟩, mid, hname, hmid⟩ := bind_done_iff.mp h
  dsimp only at hmid
  split at hmid
  · cases hmid
  next hstop =>
  cases htext : Text.ofUtf8? name with
  | some text =>
    rw [htext] at hmid
    cases hmid
    exact plain_of_word rfl rfl hname hstop
  | none =>
    rw [htext] at hmid
    cases hmid

theorem plain_of_versionRule {version : Nat} (h : versionRule b = .done version rest) :
    ∃ front, Plain front ∧ b = front ++ rest := by
  rw [drop_of_versionRule h]
  refine ⟨b.take 8, ?_, (List.take_append_drop 8 b).symm⟩
  unfold versionRule at h
  split at h
  · split at h <;> cases h
  · split at h
    · next hfront =>
      rw [hfront]
      decide
    · split at h
      · next hfront =>
        rw [hfront]
        decide
      · cases h

theorem line_of_lineRule {line : Option (Octets × Octets)} (h : lineRule b = .done line rest) :
    ∃ l, b = l ++ rest ∧ if line.isSome then IsLine l else IsBlank l := by
  obtain ⟨⟨name, stop⟩, mid, hname, hmid⟩ := bind_done_iff.mp h
  obtain ⟨hb, _, _⟩ := split_of_stretch hname
  dsimp only at hmid
  split at hmid
  · next hblank =>
    obtain ⟨u, left, hend, hleft⟩ := bind_done_iff.mp hmid
    cases hleft
    obtain ⟨stop', hstop', heq⟩ := blank_of_endLine hend
    exact ⟨stop', by rw [hb, hblank.1, List.nil_append, heq], hstop'⟩
  split at hmid
  · cases hmid
  next hcolon =>
  rw [not_or, Decidable.not_not] at hcolon
  obtain ⟨⟨value, stop'⟩, mid', hvalue, hmid'⟩ := bind_done_iff.mp hmid
  obtain ⟨u, left, hend, hleft⟩ := bind_done_iff.mp hmid'
  cases hleft
  obtain ⟨last, hlast, heq⟩ := blank_of_endLine hend
  have hplain : Plain (name ++ colon :: value) := by
    have hcolon : Plain [colon] := by decide
    exact (plain_of_stretch rfl rfl hname).append (hcolon.append (plain_of_stretch rfl rfl hvalue))
  refine ⟨(name ++ colon :: value) ++ last, ?_, ⟨_, last, by simp, hplain, hlast, rfl⟩⟩
  rw [hb, hcolon.2, (split_of_stretch hvalue).1, heq]
  simp

theorem fields_of_linesRule {room : Nat} {lines : List (Octets × Octets)}
    (h : linesRule room b = .done lines rest) :
    ∃ fields, b = fields ++ rest ∧ AreFields fields := by
  induction room generalizing b lines with
  | zero =>
    obtain ⟨line, mid, hline, hmid⟩ := bind_done_iff.mp h
    obtain ⟨l, hb, hl⟩ := line_of_lineRule hline
    cases line with
    | none =>
      cases hmid
      exact ⟨l, hb, .blank hl⟩
    | some line => cases hmid
  | succ room ih =>
    obtain ⟨line, mid, hline, hmid⟩ := bind_done_iff.mp h
    obtain ⟨l, hb, hl⟩ := line_of_lineRule hline
    cases line with
    | none =>
      cases hmid
      exact ⟨l, hb, .blank hl⟩
    | some line =>
      obtain ⟨lines', left, hlines, hleft⟩ := bind_done_iff.mp hmid
      cases hleft
      obtain ⟨fields, hmid', hfields⟩ := ih hlines
      refine ⟨l ++ fields, ?_, .line hl hfields⟩
      rw [hb, hmid', List.append_assoc]

theorem head_of_headRule {raw : Raw} (h : headRule b = .done raw rest) :
    ∃ head, IsHead head ∧ b = head ++ rest := by
  obtain ⟨_, b₁, hempty, h⟩ := bind_done_iff.mp h
  obtain ⟨_, b₂, hmethod, h⟩ := bind_done_iff.mp h
  obtain ⟨_, b₃, htarget, h⟩ := bind_done_iff.mp h
  obtain ⟨_, b₄, hversion, h⟩ := bind_done_iff.mp h
  obtain ⟨o, b₅, hbyte, h⟩ := bind_done_iff.mp h
  obtain ⟨_, b₆, hend, h⟩ := bind_done_iff.mp h
  obtain ⟨lines, b₇, hlines, h⟩ := bind_done_iff.mp h
  cases h
  obtain ⟨blanks, rfl, hhead⟩ := head_of_emptyLines hempty
  obtain ⟨method, hne, hplain₁, rfl⟩ := plain_of_methodRule hmethod
  obtain ⟨target, _, hplain₂, rfl⟩ := plain_of_targetRule htarget
  obtain ⟨version, hplain₃, rfl⟩ := plain_of_versionRule hversion
  obtain ⟨stop, hstop, heq⟩ := blank_of_endLine hend
  obtain ⟨fields, rfl, hfields⟩ := fields_of_linesRule hlines
  have hb₄ : b₄ = o :: b₅ := eq_cons_of_byte hbyte
  have hline : IsLine ((method ++ target ++ version) ++ stop) :=
    ⟨_, stop, by simp [hne], (hplain₁.append hplain₂).append hplain₃, hstop, rfl⟩
  refine ⟨_, hhead _ (.request hline hfields), ?_⟩
  rw [hb₄, heq]
  simp

theorem head_of_read {head : RequestHead} (h : read b = .ok (head, rest)) :
    ∃ front, IsHead front ∧ b = front ++ rest := by
  obtain ⟨raw, headers, hb, _⟩ := read_eq_ok_iff.mp h
  exact head_of_headRule hb

end Read

end WebSocketHost.RequestHead
