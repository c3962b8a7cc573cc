import Mathlib.Data.Prod.Lex
import WebSocketHost.Address.Choice

/-! Which address is chosen: of the candidates that others can reach, the least one in the order
of names and places. The searches for one name after another come to that order by induction on
the names. -/
namespace WebSocketHost.Address

/-- An address of the shorter kind that stands neither for the machine itself, nor for its own
link, nor for all addresses. -/
def IsReachable (a : IpAddress) : Prop :=
  ∃ ip : Ipv4, a = .v4 ip ∧ ip.first ≠ 127 ∧ (ip.first ≠ 169 ∨ ip.second ≠ 254) ∧
    ip ≠ ⟨0, 0, 0, 0⟩

theorem isUsable_iff {c : Candidate} : isUsable c = true ↔ IsReachable c.2 := by
  unfold isUsable IsReachable
  cases c.2 with
  | v4 ip =>
    simp [Ipv4.isLoopback, Ipv4.isLinkLocal, Ipv4.isUnspecified, and_assoc]
  | v6 ip => simp

instance : DecidablePred IsReachable := fun a =>
  decidable_of_iff (isUsable ("", a) = true) isUsable_iff

/-- The order of candidates: first by the place of the interface's name among `names`, with all
other names behind those, and then by the candidate's own place. -/
def rank (names : List String) (place : Nat) (c : Candidate) : Nat ×ₗ Nat :=
  toLex (names.idxOf c.1, place)

/-- A reachable candidate, at a place before which no other stands in the order. -/
structure IsBest (names : List String) (candidates : List Candidate) (place : Nat)
    (c : Candidate) : Prop where
  here : candidates[place]? = some c
  reachable : IsReachable c.2
  least : ∀ other d, candidates[other]? = some d → IsReachable d.2 →
    rank names place c ≤ rank names other d

instance (names : List String) (candidates : List Candidate) (place : Nat) (c : Candidate) :
    Decidable (IsBest names candidates place c) :=
  decidable_of_iff
    (candidates[place]? = some c ∧ IsReachable c.2 ∧ ∀ p ∈ candidates.zipIdx,
      IsReachable p.1.2 → rank names place c ≤ rank names p.2 p.1)
    ⟨fun ⟨hhere, hreachable, hleast⟩ => ⟨hhere, hreachable, fun other d hother =>
        hleast (d, other) (List.mem_zipIdx_iff_getElem?.mpr hother)⟩,
      fun ⟨hhere, hreachable, hleast⟩ => ⟨hhere, hreachable, fun p hp =>
        hleast p.2 p.1 (List.mem_zipIdx_iff_getElem?.mp hp)⟩⟩

/-- The first usable candidate of the first name that has one, then the first of all. -/
def pick (names : List String) (candidates : List Candidate) : Option Candidate :=
  let usable := candidates.filter isUsable
  (names.findSome? fun name => usable.find? fun c => c.1 = name) <|> usable.head?

theorem choose_eq_pick (candidates : List Candidate) :
    choose candidates = ((pick preferred candidates).map (·.2)).getD (.v4 .loopback) := by
  unfold choose pick
  dsimp only
  cases preferred.findSome? fun name => (candidates.filter isUsable).find? fun c => c.1 = name with
  | some c => rfl
  | none => cases candidates.filter isUsable <;> rfl

section Pick

variable {name : String} {names : List String} {candidates : List Candidate} {c : Candidate}

theorem filter_eq_nil_iff :
    candidates.filter isUsable = [] ↔ ∀ c ∈ candidates, ¬IsReachable c.2 := by
  simp only [List.filter_eq_nil_iff, isUsable_iff]

theorem pick_cons_of_some
    (h : ((candidates.filter isUsable).find? fun c => c.1 = name) = some c) :
    pick (name :: names) candidates = some c := by
  simp only [pick, List.findSome?_cons, h]
  rfl

theorem pick_cons_of_none
    (h : ((candidates.filter isUsable).find? fun c => c.1 = name) = none) :
    pick (name :: names) candidates = pick names candidates := by
  simp only [pick, List.findSome?_cons, h]

theorem idxOf_cons_of_ne {other : String} (h : other ≠ name) :
    (name :: names).idxOf other = names.idxOf other + 1 := by
  rw [List.idxOf_cons, beq_false_of_ne (Ne.symm h)]
  rfl

/-- The first of the usable candidates that a test holds of stands before all the others. -/
theorem first_of_find? {p : Candidate → Bool}
    (h : (candidates.filter isUsable).find? p = some c) :
    IsReachable c.2 ∧ p c = true ∧ ∃ place : Nat, candidates[place]? = some c ∧
      ∀ other d, candidates[other]? = some d → IsReachable d.2 → p d = true → place ≤ other := by
  rw [List.find?_filter] at h
  obtain ⟨hc, place, hlt, hplace, hbefore⟩ := List.find?_eq_some_iff_getElem.mp h
  obtain ⟨husable, hp⟩ : isUsable c = true ∧ p c = true := by simpa using hc
  refine ⟨isUsable_iff.mp husable, hp, place, List.getElem?_eq_some_iff.mpr ⟨hlt, hplace⟩,
    fun other d hother hd hpd => ?_⟩
  by_contra hlater
  obtain ⟨hlt', rfl⟩ := List.getElem?_eq_some_iff.mp hother
  simpa [isUsable_iff.mpr hd, hpd] using hbefore other (Nat.lt_of_not_le hlater)

theorem exists_isBest_of_pick (h : pick names candidates = some c) :
    ∃ place, IsBest names candidates place c := by
  induction names with
  | nil =>
    have hfirst : (candidates.filter isUsable).find? (fun _ => true) = some c := by
      rw [← List.head?_filter]
      simpa [pick] using h
    obtain ⟨hc, -, place, hplace, hleast⟩ := first_of_find? hfirst
    refine ⟨place, hplace, hc, fun other d hother hd => ?_⟩
    exact Prod.Lex.toLex_le_toLex.mpr (.inr ⟨rfl, hleast other d hother hd rfl⟩)
  | cons name names ih =>
    cases hfind : (candidates.filter isUsable).find? fun c => c.1 = name with
    | some best =>
      obtain rfl : best = c := Option.some.inj ((pick_cons_of_some hfind).symm.trans h)
      obtain ⟨hbest, hname, place, hplace, hleast⟩ := first_of_find? hfind
      obtain rfl : best.1 = name := of_decide_eq_true hname
      refine ⟨place, hplace, hbest, fun other d hother hd => Prod.Lex.toLex_le_toLex.mpr ?_⟩
      rw [List.idxOf_cons_self]
      by_cases hsame : d.1 = best.1
      · refine .inr ⟨by rw [hsame, List.idxOf_cons_self], ?_⟩
        exact hleast other d hother hd (decide_eq_true hsame)
      · refine .inl ?_
        rw [idxOf_cons_of_ne hsame]
        exact Nat.succ_pos _
    | none =>
      -- No usable candidate has the name: each name of theirs is one place further back.
      have hfar (place : Nat) (d : Candidate) (hplace : candidates[place]? = some d)
          (hd : IsReachable d.2) : (name :: names).idxOf d.1 = names.idxOf d.1 + 1 := by
        have hmem : d ∈ candidates.filter isUsable :=
          List.mem_filter.mpr ⟨List.mem_of_getElem? hplace, isUsable_iff.mpr hd⟩
        exact idxOf_cons_of_ne (by simpa using List.find?_eq_none.mp hfind d hmem)
      rw [pick_cons_of_none hfind] at h
      obtain ⟨place, hplace, hc, hleast⟩ := ih h
      refine ⟨place, hplace, hc, fun other d hother hd => Prod.Lex.toLex_le_toLex.mpr ?_⟩
      rw [hfar place c hplace hc, hfar other d hother hd]
      refine (Prod.Lex.toLex_le_toLex.mp (hleast other d hother hd)).imp Nat.succ_lt_succ ?_
      exact And.imp_left (congrArg Nat.succ)

theorem pick_eq_none_iff : pick names candidates = none ↔ ∀ c ∈ candidates, ¬IsReachable c.2 := by
  rw [← filter_eq_nil_iff, pick]
  cases candidates.filter isUsable with
  | nil => simp
  | cons c usable =>
    simp only [List.head?_cons, reduceCtorEq, iff_false]
    cases names.findSome? fun name => (c :: usable).find? fun c => c.1 = name <;> nofun

theorem IsBest.unique {place place' : Nat} {c' : Candidate} (h : IsBest names candidates place c)
    (h' : IsBest names candidates place' c') : c = c' := by
  have hle : rank names place c ≤ rank names place' c' := h.least _ _ h'.here h'.reachable
  have hge : rank names place' c' ≤ rank names place c := h'.least _ _ h.here h.reachable
  have hplace : place = place' := congrArg (·.2) (toLex.injective (le_antisymm hle hge))
  have hhere : candidates[place']? = some c := hplace ▸ h.here
  exact Option.some.inj (hhere.symm.trans h'.here)

theorem not_isReachable_loopback : ¬IsReachable (.v4 .loopback) := by
  rintro ⟨ip, hip, hloopback, -⟩
  cases hip
  exact hloopback rfl

end Pick

section Choose

variable {candidates : List Candidate} {place : Nat} {c : Candidate}

theorem choose_of_isBest (h : IsBest preferred candidates place c) : choose candidates = c.2 := by
  rw [choose_eq_pick]
  cases hpick : pick preferred candidates with
  | none => exact absurd h.reachable (pick_eq_none_iff.mp hpick c (List.mem_of_getElem? h.here))
  | some best =>
    obtain ⟨place', hbest⟩ := exists_isBest_of_pick hpick
    rw [hbest.unique h]
    rfl

theorem exists_isBest (h : ∃ c ∈ candidates, IsReachable c.2) :
    ∃ place c, IsBest preferred candidates place c := by
  obtain ⟨c, hc, hreachable⟩ := h
  cases hpick : pick preferred candidates with
  | none => exact absurd hreachable (pick_eq_none_iff.mp hpick c hc)
  | some best =>
    obtain ⟨place, hbest⟩ := exists_isBest_of_pick hpick
    exact ⟨place, best, hbest⟩

theorem choose_eq_loopback_iff :
    choose candidates = .v4 .loopback ↔ ∀ c ∈ candidates, ¬IsReachable c.2 := by
  constructor
  · intro h c hc hreachable
    obtain ⟨place, best, hbest⟩ := exists_isBest ⟨c, hc, hreachable⟩
    refine not_isReachable_loopback ?_
    rw [← h, choose_of_isBest hbest]
    exact hbest.reachable
  · intro h
    rw [choose_eq_pick, pick_eq_none_iff.mpr h]
    rfl

theorem choose_of_filter_eq {candidates' : List Candidate}
    (h : candidates.filter isUsable = candidates'.filter isUsable) :
    choose candidates = choose candidates' := by
  unfold choose
  rw [h]

/-- The choice is the least of the reachable candidates in the order that begins with four names,
and the loopback address if there are none and only then. Candidates that are not reachable make no
difference, wherever they stand. -/
theorem choose_is_least (candidates : List Candidate) :
    ((∃ c ∈ candidates, IsReachable c.2) →
      ∃ place c, IsBest ["en0", "en1", "eth0", "wlan0"] candidates place c) ∧
    (∀ place c, IsBest ["en0", "en1", "eth0", "wlan0"] candidates place c →
      choose candidates = c.2) ∧
    (choose candidates = .v4 ⟨127, 0, 0, 1⟩ ↔ ∀ c ∈ candidates, ¬IsReachable c.2) ∧
    ∀ before among after, candidates = before ++ among ++ after →
      (∀ c ∈ among, ¬IsReachable c.2) → choose candidates = choose (before ++ after) := by
  refine ⟨exists_isBest, fun _ _ => choose_of_isBest, choose_eq_loopback_iff, ?_⟩
  rintro before among after rfl hnone
  refine choose_of_filter_eq ?_
  simp only [List.filter_append, filter_eq_nil_iff.mpr hnone, List.append_nil]

/-- The preferred interface stands behind another, and only its third address can be reached. The
choice is that address, with the other two and without them. -/
theorem choose_is_least_third_address :
    let others : List Candidate := [("en0", .v6 ⟨[0xfe80, 0, 0, 0, 0, 0, 0, 1], rfl⟩),
      ("en0", .v4 ⟨169, 254, 10, 10⟩)]
    let best : Candidate := ("en0", .v4 ⟨192, 168, 1, 23⟩)
    let before : List Candidate := [("utun3", .v4 ⟨10, 8, 0, 2⟩)]
    let after : List Candidate := [best, ("en0", .v4 ⟨192, 168, 1, 24⟩), ("eth0", .v4 ⟨10, 0, 0, 9⟩)]
    IsBest ["en0", "en1", "eth0", "wlan0"] (before ++ others ++ after) 3 best ∧
      choose (before ++ others ++ after) = best.2 ∧ choose (before ++ after) = best.2 := by
  intro others best before after
  have hbest : IsBest ["en0", "en1", "eth0", "wlan0"] (before ++ others ++ after) 3 best := by
    decide +kernel
  have hothers : ∀ c ∈ others, ¬IsReachable c.2 := by decide +kernel
  obtain ⟨-, hchoose, -, hwithout⟩ := choose_is_least (before ++ others ++ after)
  have hsame := hwithout before others after rfl hothers
  exact ⟨hbest, hchoose 3 best hbest, hsame ▸ hchoose 3 best hbest⟩

end Choose

end WebSocketHost.Address
