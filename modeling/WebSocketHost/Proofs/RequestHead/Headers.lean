import WebSocketHost.Proofs.Text.Tokens
import WebSocketHost.RequestHead

/-! The questions asked of a request head, answered from its headers: which value comes first,
which tokens are listed, and where the path ends. -/
namespace WebSocketHost.RequestHead

section Items

theorem items_eq_singleton {t : String} (h : ',' ∉ t.toList) : items t = [Text.trim t] := by
  rw [items, Text.split_eq_splitOn, List.splitOn_eq_singleton h]
  rfl

theorem items_append_comma (s t : String) : items (s ++ "," ++ t) = items s ++ items t := by
  simp only [items, Text.split_eq_splitOn, String.toList_append, List.append_assoc]
  rw [← List.map_append, ← List.splitOn_append_cons_self]
  rfl

/-- A joined value lists what its parts list. -/
theorem items_intercalate {ts : List String} (h : ts ≠ []) :
    items (",".intercalate ts) = ts.flatMap items := by
  induction ts with
  | nil => contradiction
  | cons t ts ih =>
    cases ts with
    | nil => simp
    | cons t' ts =>
      rw [String.intercalate_cons_cons, items_append_comma, ih (List.cons_ne_nil _ _)]
      rfl

/-- A value lists a token that stands between its commas, in any case and with any blanks. -/
theorem exists_mem_items_iff {value token : String} (htrim : Text.trim token = token)
    (hcomma : ',' ∉ token.toList) :
    (∃ item ∈ items value, Text.equalIgnoringCase item token = true) ↔
      ∃ ts, value = ",".intercalate ts ∧ ∃ t ∈ ts, Text.Respaced token t := by
  constructor
  · rintro ⟨item, hitem, hcase⟩
    rw [items, Text.split_eq_splitOn] at hitem
    obtain ⟨piece, hpiece, rfl⟩ := List.mem_map.mp hitem
    refine ⟨(value.toList.splitOn ',').map String.ofList, ?_, .ofList piece,
      List.mem_map_of_mem hpiece, ?_⟩
    · rw [← String.toList_inj, String.toList_intercalate, List.map_map]
      simp [Function.comp_def]
    · rw [Text.Respaced.iff_trim htrim, Text.trim, String.toList_ofList]
      exact hcase
  · rintro ⟨ts, rfl, t, ht, hrespaced⟩
    refine ⟨Text.trim t, ?_, (Text.Respaced.iff_trim htrim).mp hrespaced⟩
    rw [items_intercalate (List.ne_nil_of_mem ht), List.mem_flatMap]
    refine ⟨t, ht, ?_⟩
    rw [items_eq_singleton (hrespaced.comma_not_mem hcomma)]
    exact List.mem_singleton_self _

end Items

section Answers

variable {h : RequestHead} {name token value path : String}

theorem hasToken_iff : h.hasToken name token = true ↔
    ∃ f ∈ h.headers, Text.equalIgnoringCase f.1 name = true ∧
      ∃ item ∈ items f.2, Text.equalIgnoringCase item token = true := by
  simp [hasToken, values]

theorem header?_eq_head? (h : RequestHead) (name : String) :
    h.header? name = (h.values name).head? := by
  rw [header?, values, List.head?_map, List.head?_filter]

theorem header?_eq_some_iff : h.header? name = some value ↔
    ∃ before n after, h.headers = before ++ (n, value) :: after ∧
      Text.equalIgnoringCase n name = true ∧
      ∀ f ∈ before, Text.equalIgnoringCase f.1 name = false := by
  rw [header?, Option.map_eq_some_iff]
  constructor
  · rintro ⟨⟨n, v⟩, hfind, rfl⟩
    obtain ⟨hname, before, after, hsplit, hbefore⟩ := List.find?_eq_some_iff_append.mp hfind
    exact ⟨before, n, after, hsplit, hname, fun f hf => by simpa using hbefore f hf⟩
  · rintro ⟨before, n, after, hsplit, hname, hbefore⟩
    refine ⟨(n, value), List.find?_eq_some_iff_append.mpr ⟨hname, before, after, hsplit, ?_⟩, rfl⟩
    exact fun f hf => by simpa using hbefore f hf

theorem path_eq_iff : h.path = path ↔
    '?' ∉ path.toList ∧ (h.target = path ∨ ∃ query, h.target = path ++ "?" ++ query) := by
  have hpath : h.path = path ↔ h.target.toList.takeWhile (· ≠ '?') = path.toList := by
    rw [RequestHead.path, ← String.toList_inj, String.toList_ofList]
  rw [hpath]
  constructor
  · intro htake
    refine ⟨fun hmem => ?_, ?_⟩
    · rw [← htake] at hmem
      simpa using List.mem_takeWhile_imp hmem
    · have hsplit := List.takeWhile_append_dropWhile (p := (· ≠ '?')) (l := h.target.toList)
      rw [htake] at hsplit
      cases hdrop : h.target.toList.dropWhile (· ≠ '?') with
      | nil =>
        left
        rw [hdrop, List.append_nil] at hsplit
        exact String.toList_inj.mp hsplit.symm
      | cons c query =>
        have hc : c = '?' := by
          have hhead := List.head?_dropWhile_not (· ≠ '?') h.target.toList
          rw [hdrop] at hhead
          simpa using hhead
        right
        refine ⟨.ofList query, ?_⟩
        rw [← String.toList_inj, ← hsplit, hdrop, hc]
        simp
  · rintro ⟨hquery, htarget⟩
    have hpos : ∀ c ∈ path.toList, decide (c ≠ '?') = true := by
      intro c hc
      rw [decide_eq_true_eq]
      rintro rfl
      exact hquery hc
    rcases htarget with htarget | ⟨query, htarget⟩
    · rw [htarget, List.takeWhile_eq_self_iff]
      exact hpos
    · rw [htarget, String.toList_append, String.toList_append, List.append_assoc,
        List.takeWhile_append_of_pos hpos]
      simp

end Answers

end WebSocketHost.RequestHead
