import WebSocketHost.RequestHead.Reader

/-! Reading a head again with more bytes behind it. A rule that has come to an answer keeps
it, and a rule that wants more bytes goes on where they begin; both are carried from the
single rules to `headRule`, and from there to `read`. -/
namespace WebSocketHost.RequestHead

namespace Scan

variable {α : Type}

/-- The same answer when more bytes follow. -/
def followedBy (s : Scan α) (more : Octets) : Scan α :=
  match s with
  | .done a rest => .done a (rest ++ more)
  | .more => .more
  | .bad fault => .bad fault
  | .badVersion => .badVersion

end Scan

namespace Rule

variable {α β : Type} {r : Rule α} {b rest more : Octets} {a : α}

structure Steady (r : Rule α) : Prop where
  settled : ∀ b more, r b ≠ .more → r (b ++ more) = (r b).followedBy more
  takes : ∀ b a rest, r b = .done a rest → rest <:+ b
  /-- A rule that ran out of bytes needs them all: what it leaves in the end is of the new ones. -/
  late : ∀ b more a rest, r b = .more → r (b ++ more) = .done a rest → rest <:+ more

theorem bind_apply (r : Rule α) (f : α → Rule β) (b : Octets) :
    (r >>= f) b = match r b with
      | .done a rest => f a rest
      | .more => .more
      | .bad fault => .bad fault
      | .badVersion => .badVersion := rfl

theorem bind_done_iff {f : α → Rule β} {c : β} :
    (r >>= f) b = .done c rest ↔ ∃ a mid, r b = .done a mid ∧ f a mid = .done c rest := by
  rw [bind_apply]
  cases r b <;> simp [and_assoc]

theorem Steady.append (hr : Steady r) (h : r b = .done a rest) (more : Octets) :
    r (b ++ more) = .done a (rest ++ more) := by
  have hmore : r b ≠ .more := by simp [h]
  rw [hr.settled b more hmore, h, Scan.followedBy]

theorem Steady.bind {f : α → Rule β} (hr : Steady r) (hf : ∀ a, Steady (f a)) :
    Steady (r >>= f) := by
  refine ⟨?_, ?_, ?_⟩
  · intro b more h
    rw [bind_apply] at h ⊢
    rw [bind_apply]
    cases hb : r b with
    | done a mid =>
      rw [hb] at h
      rw [hr.append hb]
      exact (hf a).settled mid more h
    | more => simp [hb] at h
    | bad fault => rw [hr.settled b more (by simp [hb]), hb, Scan.followedBy, Scan.followedBy]
    | badVersion => rw [hr.settled b more (by simp [hb]), hb, Scan.followedBy, Scan.followedBy]
  · intro b c rest h
    obtain ⟨a, mid, hb, hmid⟩ := bind_done_iff.mp h
    exact ((hf a).takes mid c rest hmid).trans (hr.takes b a mid hb)
  · intro b more c rest h hmore
    obtain ⟨a, mid, hb', hmid⟩ := bind_done_iff.mp hmore
    rw [bind_apply] at h
    cases hb : r b with
    | done a' mid' =>
      rw [hb] at h
      rw [hr.append hb] at hb'
      cases hb'
      exact (hf a).late mid' more c rest h hmid
    | more => exact ((hf a).takes mid c rest hmid).trans (hr.late b more a mid hb hb')
    | bad fault => simp [hb] at h
    | badVersion => simp [hb] at h

theorem steady_pure (a : α) : Steady (pure a : Rule α) := by
  refine ⟨?_, ?_, ?_⟩
  · intro b more h
    rfl
  · intro b a' rest h
    cases h
    exact List.suffix_rfl
  · intro b more a' rest h
    cases h

theorem steady_fail (fault : Fault) : Steady (fail fault : Rule α) := by
  refine ⟨fun b more h => rfl, ?_, ?_⟩
  · intro b a rest h
    cases h
  · intro b more a rest h
    cases h

theorem eq_cons_of_byte {o : UInt8} (h : byte b = .done o rest) : b = o :: rest := by
  cases b with
  | nil => cases h
  | cons x b =>
    cases h
    rfl

theorem steady_byte : Steady byte := by
  refine ⟨?_, ?_, ?_⟩
  · intro b more h
    cases b with
    | nil => exact absurd rfl h
    | cons o b => rfl
  · intro b o rest h
    rw [eq_cons_of_byte h]
    exact List.suffix_cons o rest
  · intro b more o rest h hmore
    cases b with
    | nil =>
      rw [← List.nil_append more, eq_cons_of_byte hmore]
      exact List.suffix_cons o rest
    | cons x b => cases h

section Stretch

variable {p : UInt8 → Bool} {front : Octets} {o : UInt8}

theorem stretch_append (hfront : ∀ x ∈ front, p x = true) (ho : p o = false) (rest : Octets) :
    stretch p (front ++ o :: rest) = .done (front, o) rest := by
  unfold stretch
  rw [List.dropWhile_append_of_pos hfront, List.takeWhile_append_of_pos hfront]
  simp [ho]

theorem stretch_all (hall : ∀ x ∈ b, p x = true) : stretch p b = .more := by
  unfold stretch
  rw [← List.append_nil b, List.dropWhile_append_of_pos hall, List.dropWhile_nil]

theorem stretch_cases (p : UInt8 → Bool) (b : Octets) :
    (stretch p b = .more ∧ ∀ x ∈ b, p x = true) ∨
      ∃ front o rest, b = front ++ o :: rest ∧ (∀ x ∈ front, p x = true) ∧ p o = false := by
  induction b with
  | nil => exact .inl ⟨rfl, nofun⟩
  | cons x b ih =>
    cases hx : p x with
    | false => exact .inr ⟨[], x, b, rfl, nofun, hx⟩
    | true =>
      rcases ih with ⟨hmore, hall⟩ | ⟨front, o, rest, hb, hfront, ho⟩
      · have hall : ∀ y ∈ x :: b, p y = true := List.forall_mem_cons.mpr ⟨hx, hall⟩
        exact .inl ⟨stretch_all hall, hall⟩
      · refine .inr ⟨x :: front, o, rest, by rw [hb]; rfl, ?_, ho⟩
        exact List.forall_mem_cons.mpr ⟨hx, hfront⟩

theorem split_of_stretch (h : stretch p b = .done (front, o) rest) :
    b = front ++ o :: rest ∧ (∀ x ∈ front, p x = true) ∧ p o = false := by
  rcases stretch_cases p b with ⟨hmore, _⟩ | ⟨front', o', rest', hb, hfront, ho⟩
  · rw [hmore] at h
    cases h
  · rw [hb, stretch_append hfront ho] at h
    cases h
    exact ⟨hb, hfront, ho⟩

theorem steady_stretch (p : UInt8 → Bool) : Steady (stretch p) := by
  refine ⟨?_, ?_, ?_⟩
  · intro b more h
    rcases stretch_cases p b with ⟨hmore, _⟩ | ⟨front, o, rest, hb, hfront, ho⟩
    · exact absurd hmore h
    · rw [hb, List.append_assoc, List.cons_append, stretch_append hfront ho,
        stretch_append hfront ho, Scan.followedBy]
  · rintro b ⟨front, o⟩ rest h
    rw [(split_of_stretch h).1, List.append_cons]
    exact List.suffix_append _ rest
  · rintro b more ⟨front, o⟩ rest h hmore
    obtain ⟨hsplit, _, ho⟩ := split_of_stretch hmore
    have hall : ∀ x ∈ b, p x = true := by
      rcases stretch_cases p b with ⟨_, hall⟩ | ⟨front', o', rest', hb, hfront', ho'⟩
      · exact hall
      · rw [hb, stretch_append hfront' ho'] at h
        cases h
    -- the byte that ends the stretch cannot be one of the first
    rcases List.append_eq_append_iff.mp hsplit with ⟨c, _, hrest⟩ | ⟨c, hb, hrest⟩
    · rw [hrest, List.append_cons]
      exact List.suffix_append _ rest
    · cases c with
      | nil =>
        rw [List.nil_append] at hrest
        rw [← hrest]
        exact List.suffix_cons o rest
      | cons x c =>
        have hx : o = x := (List.cons.inj hrest).1
        rw [hall o (by simp [hb, hx])] at ho
        cases ho

end Stretch

end Rule

open Rule

section EmptyLines

theorem emptyLines_lineFeed (b : Octets) : emptyLines (lineFeed :: b) = emptyLines b := by
  rw [emptyLines.eq_def]
  dsimp only
  rw [if_pos rfl]

theorem emptyLines_carriageReturn (o : UInt8) (b : Octets) :
    emptyLines (carriageReturn :: o :: b) =
      if o = lineFeed then emptyLines b else .bad .newLine := by
  have hne : carriageReturn ≠ lineFeed := by decide
  rw [emptyLines.eq_def]
  dsimp only
  rw [if_neg hne, if_pos rfl]

theorem emptyLines_text {o : UInt8} (hfeed : o ≠ lineFeed) (hreturn : o ≠ carriageReturn)
    (b : Octets) : emptyLines (o :: b) = .done () (o :: b) := by
  rw [emptyLines.eq_def]
  dsimp only
  rw [if_neg hfeed, if_neg hreturn]

variable {b rest : Octets} {u : Unit}

theorem suffix_of_emptyLines (h : emptyLines b = .done u rest) : rest <:+ b := by
  fun_induction emptyLines b with
  | case1 => cases h
  | case2 b ih => exact (ih h).trans (List.suffix_cons _ b)
  | case3 => cases h
  | case4 b hne ih => exact ((ih h).trans (List.suffix_cons _ b)).trans (List.suffix_cons _ _)
  | case5 o b ho hne => cases h
  | case6 o b hfeed hreturn =>
    cases h
    exact List.suffix_rfl

/-- The byte after the empty lines is looked at and left. -/
theorem steady_emptyLines : @Steady Unit emptyLines := by
  refine ⟨?_, fun b u rest => suffix_of_emptyLines, ?_⟩
  · intro b more h
    fun_induction emptyLines b with
    | case1 => exact absurd rfl h
    | case2 b ih => rw [List.cons_append, emptyLines_lineFeed, ih h]
    | case3 => exact absurd rfl h
    | case4 b hne ih =>
      rw [List.cons_append, List.cons_append, emptyLines_carriageReturn, if_pos rfl, ih h]
    | case5 o b ho hne =>
      rw [List.cons_append, List.cons_append, emptyLines_carriageReturn, if_neg ho]
      rfl
    | case6 o b hfeed hreturn =>
      rw [List.cons_append, emptyLines_text hfeed hreturn]
      rfl
  · intro b more u rest h hmore
    fun_induction emptyLines b with
    | case1 => exact suffix_of_emptyLines hmore
    | case2 b ih =>
      rw [List.cons_append, emptyLines_lineFeed] at hmore
      exact ih h hmore
    | case3 =>
      cases more with
      | nil => cases hmore
      | cons o more =>
        rw [List.cons_append, List.nil_append, emptyLines_carriageReturn] at hmore
        split at hmore
        · exact (suffix_of_emptyLines hmore).trans (List.suffix_cons o more)
        · cases hmore
    | case4 b hne ih =>
      rw [List.cons_append, List.cons_append, emptyLines_carriageReturn, if_pos rfl] at hmore
      exact ih h hmore
    | case5 o b ho hne => cases h
    | case6 o b hfeed hreturn => cases h

end EmptyLines

theorem steady_feed (fault : Fault) : Steady (feed fault) := by
  apply steady_byte.bind
  intro o
  split
  · exact steady_fail fault
  · exact steady_pure ()

theorem steady_endLine (first : UInt8) (fault : Fault) : Steady (endLine first fault) := by
  unfold endLine
  split
  · exact steady_feed fault
  · split
    · exact steady_pure ()
    · exact steady_fail fault

theorem steady_methodRule : Steady methodRule := by
  apply (steady_stretch isToken).bind
  rintro ⟨name, stop⟩
  dsimp only
  split
  · exact (steady_fail .token).bind fun _ => steady_pure _
  · exact steady_pure _

theorem steady_targetRule : Steady targetRule := by
  apply (steady_stretch isTarget).bind
  rintro ⟨target, stop⟩
  dsimp only
  cases Text.ofUtf8? target with
  | some t =>
    split
    · exact (steady_fail .token).bind fun _ => steady_pure t
    · exact steady_pure t
  | none =>
    split
    · exact (steady_fail .token).bind fun _ => steady_fail .token
    · exact steady_fail .token

section Version

variable {b more rest : Octets} {n : Nat}

theorem versionRule_long (h : 8 ≤ b.length) (more : Octets) :
    versionRule (b ++ more) = (versionRule b).followedBy more := by
  have hlong : ¬ (b ++ more).length < 8 := by
    rw [List.length_append]
    omega
  unfold versionRule
  rw [if_neg hlong, if_neg (Nat.not_lt.mpr h), List.take_append_of_le_length h,
    List.drop_append_of_le_length h]
  split
  · rfl
  · split <;> rfl

theorem drop_of_versionRule (h : versionRule b = .done n rest) : rest = b.drop 8 := by
  unfold versionRule at h
  split at h
  · split at h <;> cases h
  · split at h
    · cases h
      rfl
    · split at h
      · cases h
        rfl
      · cases h

/-- What is not the front of a version cannot grow into one. -/
theorem versionRule_foreign (hshort : b.length < 8) (hb : b.isPrefixOf versionText = false)
    (more : Octets) : versionRule (b ++ more) = .badVersion := by
  have hfront : ¬ b <+: versionText := by
    rw [← List.isPrefixOf_iff_prefix, hb]
    exact Bool.false_ne_true
  have hgrown (digit : UInt8) : (b ++ more).take 8 ≠ versionText ++ [digit] := by
    intro h
    have hpre : b <+: (b ++ more).take 8 := by
      rw [List.take_append, List.take_of_length_le (Nat.le_of_lt hshort)]
      exact List.prefix_append b _
    rw [h] at hpre
    exact hfront (List.prefix_of_prefix_length_le hpre (List.prefix_append _ _)
      (Nat.le_of_lt_succ hshort))
  unfold versionRule
  split
  · split
    · next hpre =>
      have hpre := List.isPrefixOf_iff_prefix.mp hpre
      exact absurd ((List.prefix_append b more).trans hpre) hfront
    · rfl
  · rw [if_neg (hgrown 48), if_neg (hgrown 49)]

theorem steady_versionRule : Steady versionRule := by
  refine ⟨?_, ?_, ?_⟩
  · intro b more h
    by_cases hlong : 8 ≤ b.length
    · exact versionRule_long hlong more
    have hshort := Nat.not_le.mp hlong
    cases hb : b.isPrefixOf versionText with
    | true => simp [versionRule, hshort, hb] at h
    | false =>
      rw [versionRule_foreign hshort hb]
      simp [versionRule, hshort, hb, Scan.followedBy]
  · intro b n rest h
    rw [drop_of_versionRule h]
    exact List.drop_suffix 8 b
  · intro b more n rest h hmore
    have hshort : b.length < 8 := by
      unfold versionRule at h
      split at h
      · assumption
      · split at h
        · cases h
        · split at h <;> cases h
    rw [drop_of_versionRule hmore, List.drop_append, List.drop_eq_nil_of_le (Nat.le_of_lt hshort),
      List.nil_append]
    exact List.drop_suffix _ more

end Version

theorem steady_lineRule : Steady lineRule := by
  apply (steady_stretch isToken).bind
  rintro ⟨name, stop⟩
  have hvalue : Steady (do
      let p ← stretch isValue
      endLine p.2 .headerValue
      return some (name, Text.trimWhile (fun o => o = space || o = tab) p.1)) :=
    (steady_stretch isValue).bind fun p => (steady_endLine p.2 .headerValue).bind fun _ =>
      steady_pure _
  dsimp only
  split
  · exact (steady_endLine stop .newLine).bind fun _ => steady_pure none
  · split
    · exact (steady_fail .headerName).bind fun _ => hvalue
    · exact hvalue

theorem steady_linesRule (room : Nat) : Steady (linesRule room) := by
  induction room with
  | zero =>
    apply steady_lineRule.bind
    intro line
    cases line with
    | none => exact steady_pure []
    | some line => exact steady_fail .tooManyHeaders
  | succ room ih =>
    apply steady_lineRule.bind
    intro line
    cases line with
    | none => exact steady_pure []
    | some line => exact ih.bind fun lines => steady_pure _

theorem steady_headRule : Steady headRule :=
  steady_emptyLines.bind fun _ => steady_methodRule.bind fun _ => steady_targetRule.bind fun _ =>
    steady_versionRule.bind fun _ => steady_byte.bind fun o => (steady_endLine o .newLine).bind
      fun _ => (steady_linesRule maxHeaders).bind fun _ => steady_pure _

section Read

variable {b rest : Octets} {head : RequestHead} {e : ReadError}

theorem malformed_of_headers {lines : List (Octets × Octets)} (h : lines.mapM header = .error e) :
    ∃ fault, e = .malformed fault := by
  induction lines with
  | nil => cases h
  | cons line lines ih =>
    rw [List.mapM_cons] at h
    cases hl : header line with
    | error e' =>
      rw [hl] at h
      cases h
      unfold header at hl
      dsimp only at hl
      split at hl
      · cases hl
      · exact ⟨_, (Except.error.inj hl).symm⟩
    | ok named =>
      rw [hl] at h
      cases hls : lines.mapM header with
      | error e' =>
        rw [hls] at h ih
        cases h
        exact ih rfl
      | ok rest =>
        rw [hls] at h
        cases h

theorem length_taken {b rest : Octets} (more : Octets) :
    (b ++ more).length - (rest ++ more).length = b.length - rest.length := by
  rw [List.length_append, List.length_append, Nat.add_sub_add_right]

theorem read_eq_ok_iff :
    read b = .ok (head, rest) ↔
      ∃ raw headers, headRule b = .done raw rest ∧ b.length - rest.length ≤ maxSize ∧
        raw.lines.mapM header = .ok headers ∧
        head = ⟨raw.method, raw.target, raw.minorVersion, headers⟩ := by
  unfold read
  constructor
  · intro h
    cases hb : headRule b with
    | done raw left =>
      rw [hb] at h
      dsimp only at h
      split at h
      · cases h
      next hfits =>
      cases hlines : raw.lines.mapM header with
      | error e =>
        rw [hlines] at h
        cases h
      | ok headers =>
        rw [hlines] at h
        cases h
        exact ⟨raw, headers, rfl, Nat.not_lt.mp hfits, hlines, rfl⟩
    | more =>
      rw [hb] at h
      dsimp only at h
      split at h <;> cases h
    | bad fault =>
      rw [hb] at h
      cases h
    | badVersion =>
      rw [hb] at h
      cases h
  · rintro ⟨raw, headers, hb, hfits, hlines, rfl⟩
    rw [hb]
    dsimp only
    rw [if_neg (Nat.not_lt.mpr hfits), hlines]
    rfl

/-- What was read stays read, and what follows it grows. -/
theorem read_append_of_ok (h : read b = .ok (head, rest)) (more : Octets) :
    read (b ++ more) = .ok (head, rest ++ more) := by
  obtain ⟨raw, headers, hb, hfits, hlines, rfl⟩ := read_eq_ok_iff.mp h
  apply read_eq_ok_iff.mpr
  refine ⟨raw, headers, steady_headRule.append hb more, ?_, hlines, rfl⟩
  rwa [length_taken]

/-- What was refused stays refused, though a larger head may be refused for its size. -/
theorem read_append_of_refusal (h : read b = .error e) (he : ∀ available, e ≠ .incomplete available)
    (more : Octets) :
    ∃ e', read (b ++ more) = .error e' ∧ ∀ available, e' ≠ .incomplete available := by
  unfold read at h
  cases hb : headRule b with
  | done raw left =>
    rw [hb] at h
    dsimp only at h
    unfold read
    rw [steady_headRule.append hb]
    dsimp only
    rw [length_taken]
    split at h
    · next hlarge =>
      rw [if_pos hlarge]
      exact ⟨_, rfl, nofun⟩
    · next hfits =>
      rw [if_neg hfits]
      cases hlines : raw.lines.mapM header with
      | error e' =>
        obtain ⟨fault, rfl⟩ := malformed_of_headers hlines
        exact ⟨_, rfl, nofun⟩
      | ok headers =>
        rw [hlines] at h
        cases h
  | more =>
    rw [hb] at h
    dsimp only at h
    split at h
    · next hlarge =>
      unfold read
      cases hmore : headRule (b ++ more) with
      | done raw left =>
        -- the head reaches into the new bytes, so it is larger than all there was before them
        have hleft := (steady_headRule.late b more raw left hb hmore).length_le
        have hlarge : maxSize < (b ++ more).length - left.length := by
          rw [List.length_append]
          omega
        dsimp only
        rw [if_pos hlarge]
        exact ⟨_, rfl, nofun⟩
      | more =>
        have hlarge : maxSize < (b ++ more).length := by
          rw [List.length_append]
          omega
        dsimp only
        rw [if_pos hlarge]
        exact ⟨_, rfl, nofun⟩
      | bad fault => exact ⟨_, rfl, nofun⟩
      | badVersion => exact ⟨_, rfl, nofun⟩
    · cases h
      exact absurd rfl (he _)
  | bad fault =>
    unfold read
    rw [steady_headRule.settled b more (by simp [hb]), hb]
    exact ⟨_, rfl, nofun⟩
  | badVersion =>
    unfold read
    rw [steady_headRule.settled b more (by simp [hb]), hb]
    exact ⟨_, rfl, nofun⟩

end Read

end WebSocketHost.RequestHead
