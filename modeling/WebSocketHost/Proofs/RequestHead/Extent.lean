import Mathlib.Data.List.Forall2
import WebSocketHost.Proofs.RequestHead.Steady
import WebSocketHost.Proofs.Text.Trimmed

/-! Where a head ends. Its last byte is the one that completes it: before that byte there is
only the answer that more is wanted, and the bytes behind it are not looked at. So a reader
that asks again whenever bytes have come asks the same question of every head, and stops. -/
namespace WebSocketHost.RequestHead

namespace Rule

variable {α : Type} {r : Rule α} {front back rest : Octets} {a : α}

/-- A rule that has taken some of the later bytes could not do without them. -/
theorem Steady.more_of_taken (hr : Steady r) (h : r (front ++ back) = .done a rest)
    (htaken : rest.length < back.length) : r front = .more := by
  by_contra hmore
  rw [hr.settled front back hmore] at h
  cases hfront : r front with
  | done a' left =>
    simp only [hfront, Scan.followedBy, Scan.done.injEq] at h
    rw [← h.2, List.length_append] at htaken
    omega
  | more => exact hmore hfront
  | bad fault => simp [hfront, Scan.followedBy] at h
  | badVersion => simp [hfront, Scan.followedBy] at h

end Rule

open Rule

variable {b rest : Octets} {head : RequestHead} {k : Nat}

section Headers

theorem length_of_linesRule {room : Nat} {lines : List (Octets × Octets)}
    (h : linesRule room b = .done lines rest) : lines.length ≤ room := by
  induction room generalizing b lines with
  | zero =>
    obtain ⟨line, mid, _, hmid⟩ := bind_done_iff.mp h
    cases line with
    | none =>
      cases hmid
      simp
    | some line => cases hmid
  | succ room ih =>
    obtain ⟨line, mid, _, hmid⟩ := bind_done_iff.mp h
    cases line with
    | none =>
      cases hmid
      simp
    | some line =>
      obtain ⟨more, left, hmore, hleft⟩ := bind_done_iff.mp hmid
      cases hleft
      simpa using ih hmore

theorem length_of_headRule {raw : Raw} (h : headRule b = .done raw rest) :
    raw.lines.length ≤ maxHeaders := by
  obtain ⟨_, _, _, h⟩ := bind_done_iff.mp h
  obtain ⟨_, _, _, h⟩ := bind_done_iff.mp h
  obtain ⟨_, _, _, h⟩ := bind_done_iff.mp h
  obtain ⟨_, _, _, h⟩ := bind_done_iff.mp h
  obtain ⟨_, _, _, h⟩ := bind_done_iff.mp h
  obtain ⟨_, _, _, h⟩ := bind_done_iff.mp h
  obtain ⟨lines, _, hlines, h⟩ := bind_done_iff.mp h
  cases h
  exact length_of_linesRule hlines

theorem header_eq_ok_iff {line : Octets × Octets} {field : String × String} :
    header line = .ok field ↔
      ∃ value, Text.ofUtf8? line.2 = some value ∧
        field = (Text.ofAscii line.1, Text.trim value) := by
  unfold header
  cases Text.ofUtf8? line.2 with
  | none => simp
  | some value => simp [eq_comm]

theorem mapM_header_eq_ok_iff {lines : List (Octets × Octets)} {fields : List (String × String)} :
    lines.mapM header = .ok fields ↔
      List.Forall₂ (fun line field => header line = .ok field) lines fields := by
  induction lines generalizing fields with
  | nil => simp [pure, Except.pure, eq_comm]
  | cons line lines ih =>
    rw [List.mapM_cons, List.forall₂_cons_left_iff]
    cases hline : header line with
    | error e => simp [bind, Except.bind]
    | ok field =>
      cases hlines : lines.mapM header with
      | error e => simp [bind, Except.bind, ← ih, hlines]
      | ok rest =>
        simp only [← ih, hlines]
        simp [bind, Except.bind, pure, Except.pure, eq_comm]

theorem trimmed_of_fields {lines : List (Octets × Octets)} {fields : List (String × String)}
    (h : List.Forall₂ (fun line field => header line = .ok field) lines fields) :
    ∀ field ∈ fields, Text.trim field.2 = field.2 := by
  induction h with
  | nil => simp
  | cons hline _ ih =>
    obtain ⟨value, _, rfl⟩ := header_eq_ok_iff.mp hline
    exact List.forall_mem_cons.mpr ⟨Text.trim_trim value, ih⟩

end Headers

section Answers

/-- What is read is taken from the front, and it is no larger than allowed. -/
theorem taken_of_read (h : read b = .ok (head, rest)) :
    ∃ taken, b = taken ++ rest ∧ taken.length ≤ maxSize := by
  obtain ⟨raw, headers, hraw, hsize, _⟩ := read_eq_ok_iff.mp h
  obtain ⟨taken, rfl⟩ := steady_headRule.takes b raw rest hraw
  refine ⟨taken, rfl, ?_⟩
  simpa using hsize

theorem headers_of_read (h : read b = .ok (head, rest)) :
    head.headers.length ≤ maxHeaders ∧ ∀ field ∈ head.headers, Text.trim field.2 = field.2 := by
  obtain ⟨raw, headers, hraw, _, hheaders, rfl⟩ := read_eq_ok_iff.mp h
  have hfields := mapM_header_eq_ok_iff.mp hheaders
  constructor
  · rw [← hfields.length_eq]
    exact length_of_headRule hraw
  · exact trimmed_of_fields hfields

theorem read_eq_incomplete_iff :
    read b = .error (.incomplete k) ↔ headRule b = .more ∧ b.length ≤ maxSize ∧ k = b.length := by
  unfold read
  cases hb : headRule b with
  | done raw left =>
    dsimp only
    split
    · simp
    · cases hlines : raw.lines.mapM header with
      | ok headers => simp [bind, Except.bind, pure, Except.pure]
      | error e =>
        obtain ⟨fault, rfl⟩ := malformed_of_headers hlines
        simp [bind, Except.bind]
  | more =>
    dsimp only
    split
    · next hlarge => simp [Nat.not_le.mpr hlarge]
    · next hfits => simp [Nat.not_lt.mp hfits, eq_comm]
  | bad fault => simp
  | badVersion => simp

/-- One byte less than the head, and there is no telling yet. -/
theorem read_take_of_taken {taken : Octets} (h : read (taken ++ rest) = .ok (head, rest))
    (hsize : taken.length ≤ maxSize) (hk : k < taken.length) :
    read (taken.take k) = .error (.incomplete k) := by
  obtain ⟨raw, headers, hraw, _⟩ := read_eq_ok_iff.mp h
  rw [← List.take_append_drop k taken, List.append_assoc] at hraw
  rw [read_eq_incomplete_iff, List.length_take]
  refine ⟨steady_headRule.more_of_taken hraw ?_, by omega, by omega⟩
  rw [List.length_append, List.length_drop]
  omega

/-- Once no more bytes are wanted, those that come change nothing. -/
theorem read_append_of_scanned (hscan : headRule b ≠ .more) (more : Octets) :
    read (b ++ more) = (read b).map fun found => (found.1, found.2 ++ more) := by
  unfold read
  rw [steady_headRule.settled b more hscan]
  cases hb : headRule b with
  | done raw left =>
    dsimp only [Scan.followedBy]
    rw [length_taken]
    split
    · rfl
    · cases raw.lines.mapM header <;> rfl
  | more => exact absurd hb hscan
  | bad fault => rfl
  | badVersion => rfl

theorem read_append_of_fault {e : ReadError} (h : read b = .error e)
    (hwait : ∀ available, e ≠ .incomplete available) (hsize : ∀ max, e ≠ .tooLarge max)
    (more : Octets) : read (b ++ more) = .error e := by
  have hscan : headRule b ≠ .more := by
    intro hmore
    simp only [read, hmore] at h
    split at h
    · cases h
      exact hsize maxSize rfl
    · cases h
      exact hwait b.length rfl
  rw [read_append_of_scanned hscan, h]
  rfl

theorem read_append_of_tooLarge {max : Nat} (h : read b = .error (.tooLarge max)) (more : Octets) :
    (∀ found, read (b ++ more) ≠ .ok found) ∧ ∀ k, read (b ++ more) ≠ .error (.incomplete k) := by
  obtain ⟨e, he, hwait⟩ := read_append_of_refusal h nofun more
  rw [he]
  simpa using hwait

/-- Every answer but that more is wanted stands whatever comes, and a head is the shortest
front that is one. -/
theorem read_settles (b : Octets) :
    match read b with
    | .ok (head, rest) =>
      (∃ taken, b = taken ++ rest ∧ taken.length ≤ maxSize ∧
        ∀ k < taken.length, read (taken.take k) = .error (.incomplete k)) ∧
      (head.headers.length ≤ maxHeaders ∧ ∀ field ∈ head.headers, Text.trim field.2 = field.2) ∧
      ∀ more, read (b ++ more) = .ok (head, rest ++ more)
    | .error (.incomplete k) => k = b.length ∧ b.length ≤ maxSize
    | .error (.tooLarge _) => ∀ more,
      (∀ found, read (b ++ more) ≠ .ok found) ∧ ∀ k, read (b ++ more) ≠ .error (.incomplete k)
    | .error (.malformed fault) => ∀ more, read (b ++ more) = .error (.malformed fault)
    | .error .unsupportedVersion => ∀ more, read (b ++ more) = .error .unsupportedVersion := by
  split
  · next head rest h =>
    obtain ⟨taken, rfl, hsize⟩ := taken_of_read h
    exact ⟨⟨taken, rfl, hsize, fun k => read_take_of_taken h hsize⟩, headers_of_read h,
      read_append_of_ok h⟩
  · next k h =>
    obtain ⟨_, hsize, hk⟩ := read_eq_incomplete_iff.mp h
    exact ⟨hk, hsize⟩
  · next h => exact read_append_of_tooLarge h
  · next h => exact read_append_of_fault h nofun nofun
  · next h => exact read_append_of_fault h nofun nofun

end Answers

end WebSocketHost.RequestHead
