import WebSocketHost.Proofs.Text.Numeral
import WebSocketHost.Toml.Document

/-! The integers of a document. An integer that is read has 64 bits with a sign, wherever it stands:
by itself, in an array, in braces or in a table that the document builds. -/
namespace WebSocketHost

namespace Text.Reader

/-- Whatever a reader comes to has a property. -/
def Yields {α : Type} (r : Reader α) (P : α → Prop) : Prop :=
  ∀ cs a rest, r cs = some (a, rest) → P a

namespace Yields

variable {α β : Type} {P : α → Prop} {Q : β → Prop} {r r' : Reader α} {f : α → Reader β}

theorem pure {a : α} (h : P a) : Yields (pure a : Reader α) P := by
  intro cs b rest hread
  cases hread
  exact h

theorem failure : Yields (failure : Reader α) P := nofun

theorem bind (hr : Yields r P) (hf : ∀ a, P a → Yields (f a) Q) : Yields (r >>= f) Q := by
  intro cs b rest hread
  obtain ⟨⟨a, rest'⟩, ha, hb⟩ := Option.bind_eq_some_iff.mp hread
  exact hf a (hr cs a rest' ha) rest' b rest hb

/-- What is read first does not matter. -/
theorem after (hf : ∀ a, Yields (f a) Q) : Yields (r >>= f) Q :=
  bind (P := fun _ => True) (fun _ _ _ _ => trivial) fun a _ => hf a

/-- Nor does what is read first on a condition. -/
theorem afterIf {c : Prop} [Decidable c] {r : Reader Unit} {f : Unit → Reader β}
    (hf : ∀ u, Yields (f u) Q) : Yields (if c then r >>= f else f ()) Q := by
  split
  · exact after hf
  · exact hf ()

theorem orElse (h : Yields r P) (h' : Yields r' P) : Yields (r <|> r') P := by
  intro cs a rest hread
  cases hfirst : r cs with
  | none => exact h' cs a rest ((orElse_of_none hfirst).symm.trans hread)
  | some p => exact h cs a rest (hfirst.trans ((orElse_of_some hfirst).symm.trans hread))

theorem lift {o : Option α} (h : ∀ a, o = some a → P a) : Yields (lift o) P := by
  cases o with
  | none => exact failure
  | some a => exact pure (h a rfl)

theorem many (h : Yields r P) : Yields (many r) fun as => ∀ a ∈ as, P a := by
  intro cs as rest hread
  fun_induction Reader.many r cs generalizing as rest with
  | case1 => 
    cases hread
    exact nofun
  | case2 cs a middle ha _ ih =>
    obtain ⟨⟨others, left⟩, hothers, heq⟩ := Option.map_eq_some_iff.mp hread
    cases heq
    exact List.forall_mem_cons.mpr ⟨h cs a middle ha, ih _ _ hothers⟩
  | case3 cs a middle ha =>
    cases hread
    exact List.forall_mem_singleton.mpr (h cs a middle ha)

theorem separated {separator : Reader Unit} (h : Yields r P) :
    Yields (separated separator r) fun as => ∀ a ∈ as, P a := by
  unfold Reader.separated
  refine bind h fun a ha => bind (many (after fun _ => h)) fun as has => pure ?_
  exact List.forall_mem_cons.mpr ⟨ha, has⟩

theorem whole (h : Yields r P) {s : String} {a : α} (hread : r.whole s = some a) : P a := by
  unfold Reader.whole at hread
  split at hread
  · next hsome =>
    cases hread
    exact h _ _ _ hsome
  · cases hread

end Yields

end Text.Reader

namespace Toml

open Text (Reader)
open Text.Reader (Yields)

/-- All integers of a value have 64 bits with a sign. -/
inductive Value.InRange : Value → Prop
  | text (s : String) : InRange (.text s)
  | integer {n : Int} (low : Int64.minValue.toInt ≤ n) (high : n ≤ Int64.maxValue.toInt) :
    InRange (.integer n)
  | flag (b : Bool) : InRange (.flag b)
  | float (written : String) : InRange (.float written)
  | moment (written : String) : InRange (.moment written)
  | array {items : List Value} (h : ∀ v ∈ items, InRange v) : InRange (.array items)
  | table {origin : Origin} {members : Members} (h : ∀ m ∈ members, InRange m.2) :
    InRange (.table origin members)
  | tables {latestFirst : List Members} (h : ∀ ms ∈ latestFirst, ∀ m ∈ ms, InRange m.2) :
    InRange (.tables latestFirst)

def Members.InRange (ms : Members) : Prop := ∀ m ∈ ms, m.2.InRange

/-! ### Tables -/

section Tables

variable {ms ms' : Members} {key : String} {v : Value} {path : List String} {origin : Origin}

theorem Members.inRange_nil : Members.InRange [] := nofun

theorem Members.InRange.get? (h : ms.InRange) (hget : ms.get? key = some v) : v.InRange := by
  obtain ⟨before, after, rfl, -⟩ := List.lookup_eq_some_iff.mp hget
  exact h (key, v) (by simp)

theorem Members.InRange.append (h : ms.InRange) (hv : v.InRange) :
    Members.InRange (ms ++ [(key, v)]) := by
  intro m hm
  rcases List.mem_append.mp hm with hold | hnew
  · exact h m hold
  · cases List.mem_singleton.mp hnew
    exact hv

theorem Members.InRange.insert? (h : ms.InRange) (hv : v.InRange)
    (hinsert : ms.insert? key v = some ms') : ms'.InRange := by
  unfold Members.insert? at hinsert
  split at hinsert
  · cases hinsert
  · cases hinsert
    exact h.append hv

theorem Members.InRange.set (h : ms.InRange) (hv : v.InRange) : (ms.set key v).InRange := by
  unfold Members.set
  split
  · intro m hm
    obtain ⟨⟨k, w⟩, hold, rfl⟩ := List.mem_map.mp hm
    dsimp only
    split
    · exact hv
    · exact h _ hold
  · exact h.append hv

/-- The table at the end of a path is the only one that changes. -/
theorem inRange_update {byKey : Bool} {change : Origin → Members → Option Members}
    (hchange : ∀ origin ms ms', ms.InRange → change origin ms = some ms' → ms'.InRange)
    (h : ms.InRange) (hupdate : update byKey path change origin ms = some ms') : ms'.InRange := by
  induction path generalizing origin ms ms' with
  | nil => exact hchange origin ms ms' h hupdate
  | cons key path ih =>
    unfold update at hupdate
    split at hupdate
    · obtain ⟨inner, hinner, heq⟩ := Option.bind_eq_some_iff.mp hupdate
      cases heq
      exact h.set (.table (ih Members.inRange_nil hinner))
    · next origin' inner hget =>
      split at hupdate
      · cases hupdate
      · obtain ⟨inner', hinner, heq⟩ := Option.bind_eq_some_iff.mp hupdate
        cases heq
        cases h.get? hget with
        | table hmembers => exact h.set (.table (ih hmembers hinner))
    · next latest earlier hget =>
      obtain ⟨inner, hinner, heq⟩ := Option.bind_eq_some_iff.mp hupdate
      cases heq
      cases h.get? hget with
      | tables htables =>
        obtain ⟨hlatest, hearlier⟩ := List.forall_mem_cons.mp htables
        exact h.set (.tables (List.forall_mem_cons.mpr ⟨ih hlatest hinner, hearlier⟩))
    · cases hupdate

theorem inRange_assign (h : ms.InRange) (hv : v.InRange)
    (hassign : assign path key v origin ms = some ms') : ms'.InRange := by
  refine inRange_update (fun origin ms ms' h hchange => ?_) h hassign
  split at hchange
  · cases hchange
  · exact h.insert? hv hchange

theorem inRange_openTable (h : ms.InRange) (hopen : openTable path key origin ms = some ms') :
    ms'.InRange := by
  refine inRange_update (fun _ ms ms' h hchange => ?_) h hopen
  split at hchange
  · cases hchange
    exact h.set (.table Members.inRange_nil)
  · next inner hget =>
    cases hchange
    cases h.get? hget with
    | table hmembers => exact h.set (.table hmembers)
  · cases hchange

theorem inRange_openElement (h : ms.InRange)
    (hopen : openElement path key origin ms = some ms') : ms'.InRange := by
  refine inRange_update (fun _ ms ms' h hchange => ?_) h hopen
  split at hchange
  · cases hchange
    exact h.set (.tables (List.forall_mem_singleton.mpr Members.inRange_nil))
  · next ts hget =>
    cases hchange
    cases h.get? hget with
    | tables htables =>
      exact h.set (.tables (List.forall_mem_cons.mpr ⟨Members.inRange_nil, htables⟩))
  · cases hchange

end Tables

/-- What each step of a fold preserves, the fold preserves. -/
theorem foldlM_preserves {α β : Type} {P : β → Prop} {f : β → α → Option β} {l : List α} {b b' : β}
    (hf : ∀ b a b', a ∈ l → P b → f b a = some b' → P b') (h : P b)
    (hfold : l.foldlM f b = some b') : P b' := by
  induction l generalizing b with
  | nil =>
    cases hfold
    exact h
  | cons a l ih =>
    rw [List.foldlM_cons] at hfold
    obtain ⟨c, hc, hfold⟩ := Option.bind_eq_some_iff.mp hfold
    exact ih (fun b a b' ha => hf b a b' (List.mem_cons_of_mem _ ha))
      (hf b a c List.mem_cons_self h hc) hfold

theorem inRange_braces? {assignments : List (Key × Value)} {v : Value}
    (h : ∀ p ∈ assignments, p.2.InRange) (hbraces : braces? assignments = some v) : v.InRange := by
  obtain ⟨ms, hms, heq⟩ := Option.bind_eq_some_iff.mp hbraces
  cases heq
  refine .table (foldlM_preserves (P := Members.InRange) ?_ Members.inRange_nil hms)
  exact fun ms p ms' hp hms hassign => inRange_assign hms (h p hp) hassign

/-- What a statement says is in range. -/
def Statement.InRange : Statement → Prop
  | .assignment _ v => v.InRange
  | .table _ | .element _ => True

theorem Document.inRange_apply {d d' : Document} {s : Statement} (h : d.members.InRange)
    (hs : s.InRange) (happly : d.apply s = some d') : d'.members.InRange := by
  cases s with
  | assignment key v =>
    obtain ⟨ms, hms, heq⟩ := Option.bind_eq_some_iff.mp happly
    cases heq
    exact inRange_update (fun _ _ _ h hassign => inRange_assign h hs hassign) h hms
  | table header =>
    obtain ⟨ms, hms, heq⟩ := Option.bind_eq_some_iff.mp happly
    cases heq
    exact inRange_openTable h hms
  | element header =>
    obtain ⟨ms, hms, heq⟩ := Option.bind_eq_some_iff.mp happly
    cases heq
    exact inRange_openElement h hms

/-! ### Readers -/

theorem yields_integerOf (negative : Bool) (magnitude : Nat) :
    Yields (integerOf negative magnitude) Value.InRange := by
  unfold integerOf
  extract_lets n
  split
  · next hrange => exact .pure (.integer hrange.1 hrange.2)
  · exact .failure

theorem yields_integer : Yields integer Value.InRange := by
  have hradix (lead : String) (radix : Nat) : Yields (integerInRadix lead radix) Value.InRange :=
    .after fun _ => .after fun _ => yields_integerOf _ _
  have hdecimal : Yields decimalInteger Value.InRange :=
    .after fun _ => .after fun _ => yields_integerOf _ _
  exact .orElse (hradix _ _) (.orElse (hradix _ _) (.orElse (hradix _ _) hdecimal))

theorem yields_float : Yields float Value.InRange := by
  refine .orElse (.after fun s => .after fun whole => .after fun part => .after fun power => ?_)
    (.after fun _ => .after fun _ => .pure (.float _))
  -- Both checks may refuse, and neither has a say in what is made of the digits.
  -- the two checks may refuse, but have no say in what is made of the digits
  extract_lets places scale point written checked
  exact .afterIf fun _ => .afterIf fun _ => .pure (.float _)

theorem yields_number : Yields number Value.InRange :=
  .orElse (.after fun _ => .pure (.moment _)) (.orElse yields_float yields_integer)

theorem yields_plainValue : Yields plainValue Value.InRange :=
  .orElse (.after fun _ => .pure (.text _)) (.orElse yields_number
    (.orElse (.after fun _ => .pure (.flag true)) (.after fun _ => .pure (.flag false))))

theorem yields_array {value : Reader Value} (h : Yields value Value.InRange) :
    Yields (array value) Value.InRange := by
  unfold array
  refine .after fun _ => ?_
  extract_lets item
  have hitem : Yields item Value.InRange :=
    .after fun _ => .bind h fun v hv => .after fun _ => .pure hv
  refine .bind (.orElse (.separated hitem) (.pure nofun)) fun items hitems => ?_
  exact .afterIf fun _ => .after fun _ => .after fun _ => .pure (.array hitems)

theorem yields_inlineTable {value : Reader Value} (h : Yields value Value.InRange) :
    Yields (inlineTable value) Value.InRange := by
  unfold inlineTable
  refine .after fun _ => ?_
  extract_lets assignment
  have hassignment : Yields assignment fun p => p.2.InRange :=
    .after fun _ => .after fun _ => .after fun _ => .bind h fun v hv => .after fun _ => .pure hv
  refine .bind (.orElse (.separated hassignment) (.pure nofun)) fun assignments hassignments => ?_
  exact .after fun _ => .after fun _ => .lift fun v hv => inRange_braces? hassignments hv

/-- However deep values stand in others. -/
theorem yields_value (depth : Nat) : Yields (value depth) Value.InRange := by
  induction depth with
  | zero => exact yields_plainValue
  | succ depth ih =>
    exact .orElse yields_plainValue (.orElse (yields_array ih) (yields_inlineTable ih))

theorem yields_line : Yields line fun s => ∀ s' ∈ s, Statement.InRange s' := by
  have hassignment : Yields assignment Statement.InRange :=
    .after fun _ => .after fun _ => .after fun _ => .bind (yields_value _) fun v hv => .pure hv
  have helement : Yields elementHeader Statement.InRange :=
    .after fun _ => .after fun _ => .after fun _ => .pure trivial
  have htable : Yields tableHeader Statement.InRange :=
    .after fun _ => .after fun _ => .after fun _ => .pure trivial
  refine .after fun _ => .orElse ?_ (.after fun _ => .pure nofun)
  refine .bind (.orElse helement (.orElse htable hassignment)) fun s hs =>
    .after fun _ => .pure fun s' hs' => ?_
  cases hs'
  exact hs

theorem yields_statements : Yields statements fun ss => ∀ s ∈ ss, Statement.InRange s := by
  refine .after fun _ => .bind (.many yields_line) fun lines hlines => .after fun _ => .pure ?_
  intro s hs
  obtain ⟨line, hline, hsome⟩ := List.mem_filterMap.mp hs
  exact hlines line hline s hsome

/-- All the integers of a document that is read are in range. -/
theorem inRange_read {s : String} {ms : Members} (h : read s = some ms) : ms.InRange := by
  obtain ⟨ss, hss, h⟩ := Option.bind_eq_some_iff.mp h
  obtain ⟨d, hd, heq⟩ := Option.bind_eq_some_iff.mp h
  cases heq
  refine foldlM_preserves (P := fun d => d.members.InRange) ?_ Members.inRange_nil hd
  exact fun d s d' hs hd happly =>
    Document.inRange_apply hd (yields_statements.whole hss s hs) happly

end Toml

end WebSocketHost
