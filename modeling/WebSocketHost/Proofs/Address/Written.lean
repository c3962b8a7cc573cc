import WebSocketHost.Address.Socket
import WebSocketHost.Proofs.Text.Numeral

/-! The text of an address is read back as the address, whatever comes behind it, as long as that
does not look like more of it. -/
namespace WebSocketHost

open Text (Reader)
open Text.Reader

namespace Ipv4

variable {cs rest : List Char}

theorem toList_toText (a : Ipv4) : a.toText.toList =
    Nat.toDigits 10 a.first.toNat ++ '.' :: (Nat.toDigits 10 a.second.toNat ++
      '.' :: (Nat.toDigits 10 a.third.toNat ++ '.' :: Nat.toDigits 10 a.fourth.toNat)) := by
  simp [toText]
  rfl

theorem octet_append (o : UInt8) (hrest : Stops (isDigit 10) rest) :
    octet (Nat.toDigits 10 o.toNat ++ rest) = some (o, rest) := by
  have hlt : o.toNat < 256 := o.toNat_lt
  have hlength : (Nat.toDigits 10 o.toNat).length ≤ 3 :=
    (Nat.length_toDigits_le_iff (by decide) (by decide)).mpr (by omega)
  have hbound : ¬(Nat.toDigits 10 o.toNat = [] ∨ 3 < (Nat.toDigits 10 o.toNat).length ∨
      256 ≤ o.toNat) := by
    simp only [Nat.toDigits_ne_nil, false_or, not_or, Nat.not_lt, Nat.not_le]
    exact ⟨hlength, hlt⟩
  have hzero : ¬((Nat.toDigits 10 o.toNat).head? = some '0' ∧
      1 < (Nat.toDigits 10 o.toNat).length) := by
    rintro ⟨hhead, hlong⟩
    rw [head?_toDigits (by decide) (by decide) hhead] at hlong
    contradiction
  refine (bind_of_some (takeWhile_toDigits (by decide) (by decide) o.toNat hrest)).trans ?_
  simp only [@valueOf_toDigits 10 (by decide) (by decide), if_neg hbound, if_neg hzero,
    UInt8.ofNat_toNat]
  rfl

theorem read_append (a : Ipv4) (hrest : Stops (isDigit 10) rest) :
    read (a.toText.toList ++ rest) = some (a, rest) := by
  have hdot (cs : List Char) : Stops (isDigit 10) ('.' :: cs) := stops_cons rfl
  rw [toList_toText]
  simp only [List.append_assoc, List.cons_append]
  refine (bind_of_some (octet_append a.first (hdot _))).trans ?_
  refine (bind_of_some (char_cons '.' _)).trans ?_
  refine (bind_of_some (octet_append a.second (hdot _))).trans ?_
  refine (bind_of_some (char_cons '.' _)).trans ?_
  refine (bind_of_some (octet_append a.third (hdot _))).trans ?_
  refine (bind_of_some (char_cons '.' _)).trans ?_
  exact bind_of_some (octet_append a.fourth hrest)

theorem rest_of_octet {o : UInt8} (h : octet cs = some (o, rest)) :
    rest = cs.dropWhile (isDigit 10) := by
  unfold octet at h
  rw [bind_of_some (r := takeWhile (isDigit 10)) rfl] at h
  dsimp only at h
  split at h
  · cases h
  · split at h
    · cases h
    · cases h
      rfl

/-- What goes on after its first digits with no dot is no address of this kind. -/
theorem read_eq_none (h : (cs.dropWhile (isDigit 10)).head? ≠ some '.') : read cs = none := by
  cases hoctet : octet cs with
  | none => exact bind_of_none hoctet
  | some found =>
    obtain ⟨o, rest⟩ := found
    refine (bind_of_some hoctet).trans (bind_of_none (char_of_head?_ne ?_))
    rwa [rest_of_octet hoctet]

end Ipv4

namespace Ipv6

variable {cs rest : List Char} {g : UInt16} {gs : List UInt16}

/-- A character that may stand in a group or in the shorter address at the end. -/
def isOfGroup (c : Char) : Bool := isDigit 16 c || c = '.'

/-- What comes is no further group: neither more of the last one, nor a colon with one behind it. -/
structure Ends (cs : List Char) : Prop where
  group : Stops isOfGroup cs
  colon : ∀ rest, cs = ':' :: rest → Stops isOfGroup rest

theorem Ends.of_cons {c : Char} (hc : isOfGroup c = false) (hcolon : c ≠ ':') :
    Ends (c :: cs) where
  group := stops_cons hc
  colon := by
    rintro rest h
    cases h
    exact absurd rfl hcolon

theorem Ends.colons (cs : List Char) : Ends (':' :: ':' :: cs) where
  group := stops_cons (by decide)
  colon := by
    rintro rest h
    cases h
    exact stops_cons (by decide)

section Groups

theorem isOfGroup_of_isDigit {c : Char} (h : isDigit 16 c = true) : isOfGroup c = true := by
  rw [isOfGroup, h, Bool.true_or]

theorem isDigit_hex_of_decimal {c : Char} (h : isDigit 10 c = true) : isDigit 16 c = true := by
  unfold isDigit digitValue? at *
  grind

theorem stops_decimal (h : Stops isOfGroup cs) : Stops (isDigit 10) cs :=
  h.mono fun _ hc => isOfGroup_of_isDigit (isDigit_hex_of_decimal hc)

theorem group_append (g : UInt16) (hrest : Stops isOfGroup rest) :
    group (Nat.toDigits 16 g.toNat ++ rest) = some (g, rest) := by
  have hlt : g.toNat < 65536 := g.toNat_lt
  have hlength : (Nat.toDigits 16 g.toNat).length ≤ 4 :=
    (Nat.length_toDigits_le_iff (by decide) (by decide)).mpr (by omega)
  have hbound : ¬(Nat.toDigits 16 g.toNat = [] ∨ 4 < (Nat.toDigits 16 g.toNat).length) := by
    simpa only [Nat.toDigits_ne_nil, false_or, Nat.not_lt] using hlength
  have hstop : Stops (isDigit 16) rest := hrest.mono fun _ => isOfGroup_of_isDigit
  refine (bind_of_some (takeWhile_toDigits (by decide) (by decide) g.toNat hstop)).trans ?_
  simp only [@valueOf_toDigits 16 (by decide) (by decide), if_neg hbound,
    UInt16.ofNat_toNat]
  rfl

theorem group_eq_none (h : Stops isOfGroup cs) : group cs = none := by
  have hstop : Stops (isDigit 16) cs := h.mono fun _ => isOfGroup_of_isDigit
  exact bind_of_some hstop.takeWhile_eq

/-- Neither what stands behind a group nor a group with that behind it is taken for a shorter
address. -/
theorem readV4_eq_none {front : List Char} (hfront : ∀ c ∈ front, isDigit 16 c = true)
    (hrest : Stops isOfGroup rest) : Ipv4.read (front ++ rest) = none := by
  have hdrop : rest.dropWhile (isDigit 10) = rest :=
    congrArg Prod.snd (Option.some.inj (stops_decimal hrest).takeWhile_eq)
  refine Ipv4.read_eq_none fun hdot => ?_
  rcases head?_dropWhile_append hdot with hgroup | hbehind
  · cases hfront '.' hgroup
  · rw [hdrop] at hbehind
    cases hrest '.' hbehind

theorem readV4_group (g : UInt16) (hrest : Stops isOfGroup rest) :
    Ipv4.read (Nat.toDigits 16 g.toNat ++ rest) = none :=
  readV4_eq_none (fun _ hc => isDigit_of_mem_toDigits (by decide) (by decide) hc) hrest

theorem separated_later {α : Type} (r : Reader α) (cs : List Char) :
    separated false r (':' :: cs) = r cs := bind_of_some (char_cons ':' cs)

/-- Nothing is read where no group comes. -/
theorem Ends.separated_eq_none {α : Type} {r : Reader α} (h : Ends cs)
    (hr : ∀ {cs : List Char}, Stops isOfGroup cs → r cs = none) (first : Bool) :
    separated first r cs = none := by
  cases first with
  | true => exact hr h.group
  | false =>
    by_cases hcolon : cs.head? = some ':'
    · obtain ⟨rest, rfl⟩ : ∃ rest, cs = ':' :: rest := by
        cases cs with
        | nil => cases hcolon
        | cons c rest => exact ⟨rest, by cases hcolon; rfl⟩
      rw [separated_later]
      exact hr (h.colon rest rfl)
    · exact bind_of_none (char_of_head?_ne hcolon)

theorem readGroups_eq_nil (h : Ends cs) (room : Nat) (first : Bool) :
    readGroups room first cs = ([], false, cs) := by
  cases room with
  | zero => rfl
  | succ room =>
    have hshort := h.separated_eq_none (r := Ipv4.read) (readV4_eq_none (List.forall_mem_nil _)) first
    have hgroup := h.separated_eq_none (r := group) group_eq_none first
    simp only [readGroups, hshort, hgroup, ite_self]

/-- Groups with a colon before each. -/
def colonGroups (gs : List UInt16) : List Char :=
  gs.flatMap fun g => ':' :: Nat.toDigits 16 g.toNat

theorem toList_joinGroups_cons (g : UInt16) (gs : List UInt16) :
    (joinGroups (g :: gs)).toList = Nat.toDigits 16 g.toNat ++ colonGroups gs := by
  induction gs generalizing g with
  | nil => simp [joinGroups, groupText, colonGroups]
  | cons g' gs ih =>
    have hnext : joinGroups (g :: g' :: gs) = groupText g ++ ":" ++ joinGroups (g' :: gs) :=
      String.intercalate_cons_cons
    rw [hnext, String.toList_append, String.toList_append, ih g', groupText, String.toList_ofList]
    simp [colonGroups]

theorem Ends.colonGroups_append (h : Ends rest) (gs : List UInt16) :
    Stops isOfGroup (colonGroups gs ++ rest) := by
  cases gs with
  | nil => exact h.group
  | cons g gs => exact stops_cons (by decide)

theorem readGroups_cons {room : Nat} {cs : List Char} (first : Bool)
    (hshort : separated first Ipv4.read cs = none) (hgroup : separated first group cs = some (g, rest)) :
    readGroups (room + 1) first cs =
      (g :: (readGroups room false rest).1, (readGroups room false rest).2) := by
  simp only [readGroups, hshort, hgroup, ite_self]

theorem readGroups_colonGroups {room : Nat} (hroom : gs.length ≤ room) (hrest : Ends rest) :
    readGroups room false (colonGroups gs ++ rest) = (gs, false, rest) := by
  induction gs generalizing room with
  | nil => exact readGroups_eq_nil hrest room false
  | cons g gs ih =>
    obtain ⟨room, rfl⟩ : ∃ more, room = more + 1 := ⟨room - 1, by simp at hroom; omega⟩
    have hbehind := hrest.colonGroups_append gs
    have htext : colonGroups (g :: gs) ++ rest =
        ':' :: (Nat.toDigits 16 g.toNat ++ (colonGroups gs ++ rest)) := by
      simp [colonGroups]
    rw [htext, readGroups_cons false ((separated_later _ _).trans (readV4_group g hbehind))
      ((separated_later _ _).trans (group_append g hbehind)), ih (Nat.le_of_succ_le_succ hroom)]

theorem readGroups_joinGroups {room : Nat} (hroom : gs.length ≤ room) (hrest : Ends rest) :
    readGroups room true ((joinGroups gs).toList ++ rest) = (gs, false, rest) := by
  cases gs with
  | nil => exact readGroups_eq_nil hrest room true
  | cons g gs =>
    obtain ⟨room, rfl⟩ : ∃ more, room = more + 1 := ⟨room - 1, by simp at hroom; omega⟩
    have hbehind := hrest.colonGroups_append gs
    rw [toList_joinGroups_cons, List.append_assoc,
      readGroups_cons true (readV4_group g hbehind) (group_append g hbehind),
      readGroups_colonGroups (Nat.le_of_succ_le_succ hroom) hrest]

/-- A shorter address in the place of the last two groups. -/
theorem readGroups_short {room : Nat} (v4 : Ipv4) (hrest : Stops (isDigit 10) rest) :
    readGroups (room + 2) false (':' :: (v4.toText.toList ++ rest)) = (v4.groups, true, rest) := by
  have hread := (separated_later Ipv4.read _).trans (v4.read_append hrest)
  simp only [readGroups, hread, Nat.add_eq_zero_iff, Nat.one_ne_zero, and_false, if_false]

end Groups

section Whole

theorem ofGroups?_groups (a : Ipv6) : ofGroups? a.groups = some a := dif_pos a.length_groups

theorem groupsUpTo_eq {room : Nat} {short : Bool} (h : readGroups room true cs = (gs, short, rest)) :
    groupsUpTo room cs = some ((gs, short), rest) := by
  simp only [groupsUpTo, h]

/-- All eight groups. -/
theorem read_full (a : Ipv6) (h : readGroups 8 true cs = (a.groups, false, rest)) :
    read cs = some (a, rest) := by
  refine (bind_of_some (groupsUpTo_eq h)).trans ?_
  dsimp only
  rw [if_pos a.length_groups, ofGroups?_groups]
  rfl

section Colons

variable {a : Ipv6} {before after : List UInt16} {zeros : Nat}

theorem length_around (h : a.groups = before ++ List.replicate zeros 0 ++ after) :
    before.length + zeros + after.length = 8 := by
  rw [← a.length_groups, h]
  simp [Nat.add_assoc]

/-- Groups on both sides of two colons, which stand for the zeros between. -/
theorem read_colons {short : Bool} {cs' : List Char}
    (hgroups : a.groups = before ++ List.replicate zeros 0 ++ after) (hzeros : 0 < zeros)
    (hbefore : readGroups 8 true cs = (before, false, ':' :: ':' :: cs'))
    (hafter : readGroups (7 - before.length) true cs' = (after, short, rest)) :
    read cs = some (a, rest) := by
  have hlength := length_around hgroups
  refine (bind_of_some (groupsUpTo_eq hbefore)).trans ?_
  dsimp only
  rw [if_neg (by omega), if_neg (by decide)]
  refine (bind_of_some (char_cons ':' _)).trans ?_
  refine (bind_of_some (char_cons ':' _)).trans ?_
  refine (bind_of_some (groupsUpTo_eq hafter)).trans ?_
  dsimp only
  have hmissing : 8 - before.length - after.length = zeros := by omega
  rw [hmissing, ← hgroups, ofGroups?_groups]
  rfl

theorem read_compressed (hgroups : a.groups = before ++ List.replicate zeros 0 ++ after)
    (hzeros : 0 < zeros) (hrest : Ends rest) :
    read ((joinGroups before ++ "::" ++ joinGroups after).toList ++ rest) = some (a, rest) := by
  have hlength := length_around hgroups
  have hafter : readGroups (7 - before.length) true ((joinGroups after).toList ++ rest) =
      (after, false, rest) := readGroups_joinGroups (by omega) hrest
  rw [String.toList_append, String.toList_append, List.append_assoc, List.append_assoc]
  exact read_colons hgroups hzeros (readGroups_joinGroups (by omega) (Ends.colons _)) hafter

end Colons

theorem halves (g : UInt16) : (g / 256).toUInt8.toUInt16 * 256 + g.toUInt8.toUInt16 = g := by
  have hlt : g.toNat < 65536 := g.toNat_lt
  apply UInt16.toNat_inj.mp
  simp
  omega

theorem groups_of_mapped? {a : Ipv6} {v4 : Ipv4} (h : a.mapped? = some v4) :
    a.groups = [] ++ List.replicate 5 0 ++ 0xffff :: v4.groups := by
  unfold mapped? at h
  split at h
  · next high low hgroups =>
    cases h
    rw [hgroups, Ipv4.groups, halves, halves]
    rfl
  · cases h

theorem groups_eq_append_zeros (gs : List UInt16) (i : Nat) :
    gs = gs.take i ++ List.replicate (zerosAt gs i) 0 ++ gs.drop (i + zerosAt gs i) := by
  have hzeros : (gs.drop i).takeWhile (· = 0) = List.replicate (zerosAt gs i) 0 := by
    refine List.eq_replicate_iff.mpr ⟨rfl, fun g hg => ?_⟩
    simpa using List.all_eq_true.mp List.all_takeWhile g hg
  have htake : (gs.drop i).take (zerosAt gs i) = List.replicate (zerosAt gs i) 0 := by
    rw [← hzeros]
    exact (List.prefix_iff_eq_take.mp (List.takeWhile_prefix _)).symm
  rw [← htake, ← List.drop_drop, List.append_assoc, List.take_append_drop, List.take_append_drop]

theorem read_append (a : Ipv6) (hrest : Ends rest) :
    read (a.toText.toList ++ rest) = some (a, rest) := by
  unfold toText
  split
  · next v4 hmapped =>
    have hfront : "::ffff:".toList =
        ':' :: ':' :: (Nat.toDigits 16 (0xffff : UInt16).toNat ++ [':']) := by decide
    have htext : ("::ffff:" ++ v4.toText).toList ++ rest =
        ':' :: ':' :: (Nat.toDigits 16 (0xffff : UInt16).toNat ++
          ':' :: (v4.toText.toList ++ rest)) := by
      rw [String.toList_append, hfront]
      simp only [List.append_assoc, List.cons_append, List.nil_append]
    have hcolon : Stops isOfGroup (':' :: (v4.toText.toList ++ rest)) := stops_cons (by decide)
    have hafter : readGroups 7 true (Nat.toDigits 16 (0xffff : UInt16).toNat ++
        ':' :: (v4.toText.toList ++ rest)) = (0xffff :: v4.groups, true, rest) := by
      rw [readGroups_cons true (readV4_group _ hcolon) (group_append _ hcolon),
        readGroups_short v4 (stops_decimal hrest.group)]
    rw [htext]
    exact read_colons (groups_of_mapped? hmapped) (by decide)
      (readGroups_eq_nil (Ends.colons _) 8 true) hafter
  · dsimp only
    split
    · exact read_full a (readGroups_joinGroups (Nat.le_of_eq a.length_groups) hrest)
    · next hlong => exact read_compressed (groups_eq_append_zeros _ _) (by omega) hrest

end Whole

section Form

theorem zerosAt_of_length_le {i : Nat} (h : gs.length ≤ i) : zerosAt gs i = 0 := by
  rw [zerosAt, List.drop_eq_nil_of_le h]
  rfl

/-- The longest run of zeros is found, and of several the first. -/
theorem longestZeros_is_first_longest (gs : List UInt16) :
    (∀ i, zerosAt gs i ≤ zerosAt gs (longestZeros gs)) ∧
      ∀ i < longestZeros gs, zerosAt gs i < zerosAt gs (longestZeros gs) := by
  let search (n : Nat) :=
    (List.range n).foldl (fun best i => if zerosAt gs best < zerosAt gs i then i else best) 0
  -- Among the places looked at so far.
  have hsearch (n : Nat) : (∀ i < n, zerosAt gs i ≤ zerosAt gs (search n)) ∧
      ∀ i < search n, zerosAt gs i < zerosAt gs (search n) := by
    induction n with
    | zero => exact ⟨nofun, nofun⟩
    | succ n ih =>
      obtain ⟨hlongest, hfirst⟩ := ih
      have hnext : search (n + 1) =
          if zerosAt gs (search n) < zerosAt gs n then n else search n := by
        simp [search, List.range_succ]
      rw [hnext]
      split
      · next hlonger =>
        have hbefore : ∀ i < n, zerosAt gs i < zerosAt gs n :=
          fun i hi => Nat.lt_of_le_of_lt (hlongest i hi) hlonger
        refine ⟨fun i hi => ?_, hbefore⟩
        rcases Nat.lt_succ_iff_lt_or_eq.mp hi with hi | rfl
        · exact Nat.le_of_lt (hbefore i hi)
        · exact Nat.le_refl _
      · next hshorter =>
        refine ⟨fun i hi => ?_, hfirst⟩
        rcases Nat.lt_succ_iff_lt_or_eq.mp hi with hi | rfl
        · exact hlongest i hi
        · exact Nat.le_of_not_lt hshorter
  obtain ⟨hlongest, hfirst⟩ := hsearch gs.length
  refine ⟨fun i => ?_, hfirst⟩
  by_cases hi : i < gs.length
  · exact hlongest i hi
  · rw [zerosAt_of_length_le (Nat.le_of_not_lt hi)]
    exact Nat.zero_le _

/-- How an address is written, of all the ways in which it could be. -/
inductive IsWritten (a : Ipv6) : String → Prop
  /-- An address that carries a shorter one ends with that. -/
  | mapped (v4 : Ipv4) (hgroups : a.groups = [0, 0, 0, 0, 0, 0xffff] ++ v4.groups) :
    IsWritten a ("::ffff:" ++ v4.toText)
  | full (hcarries : ∀ v4 : Ipv4, a.groups ≠ [0, 0, 0, 0, 0, 0xffff] ++ v4.groups)
    (hsingle : ∀ i, zerosAt a.groups i ≤ 1) : IsWritten a (joinGroups a.groups)
  /-- Two zeros or more in a row are left out where most of them are, as far in front as that is. -/
  | compressed (hcarries : ∀ v4 : Ipv4, a.groups ≠ [0, 0, 0, 0, 0, 0xffff] ++ v4.groups)
    {before after : List UInt16} {zeros : Nat}
    (hgroups : a.groups = before ++ List.replicate zeros 0 ++ after) (hseveral : 2 ≤ zeros)
    (hlongest : ∀ i, zerosAt a.groups i ≤ zeros)
    (hfirst : ∀ i < before.length, zerosAt a.groups i < zeros) :
    IsWritten a (joinGroups before ++ "::" ++ joinGroups after)

theorem groups_ne_of_not_mapped {a : Ipv6} (h : a.mapped? = none) (v4 : Ipv4) :
    a.groups ≠ [0, 0, 0, 0, 0, 0xffff] ++ v4.groups := by
  intro hgroups
  simp [mapped?, hgroups, Ipv4.groups] at h

theorem isWritten_toText (a : Ipv6) : a.IsWritten a.toText := by
  obtain ⟨hlongest, hfirst⟩ := longestZeros_is_first_longest a.groups
  unfold toText
  split
  · next v4 hmapped => exact .mapped v4 (groups_of_mapped? hmapped)
  · next hmapped =>
    dsimp only
    split
    · next hshort =>
      refine .full (groups_ne_of_not_mapped hmapped) fun i => ?_
      exact Nat.le_trans (hlongest i) (Nat.le_of_lt_succ hshort)
    · next hlong =>
      refine .compressed (groups_ne_of_not_mapped hmapped) (groups_eq_append_zeros _ _)
        (Nat.le_of_not_lt hlong) hlongest fun i hi => hfirst i ?_
      exact Nat.lt_of_lt_of_le hi (List.length_take_le _ _)

/-- Of two runs of the same length the first is left out, and a single zero is not. -/
example : (Ipv6.mk [1, 0, 0, 2, 0, 0, 3, 0] rfl).toText = "1::2:0:0:3:0" := by decide +kernel

end Form

end Ipv6

end WebSocketHost
