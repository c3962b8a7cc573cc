import Mathlib.Logic.Relation
import WebSocketHost.Proofs.Base64.Canonical
import WebSocketHost.Proofs.RequestHead.Headers
import WebSocketHost.Upgrade

/-! What an opening handshake depends on. A request can be worded in many ways: names in any case,
headers in another order or with others between them, tokens in one header or in several. Each way
is a step that leaves the answer as it is; and the answer grants an upgrade exactly when the
request asks for it in one of these ways. -/
namespace WebSocketHost.Upgrade

open RequestHead (items)

/-- The headers read for the tokens they list. -/
def tokenNames : List String := ["Upgrade", "Connection"]

/-- The headers read for their first value. -/
def valueNames : List String := ["Sec-WebSocket-Version", "Sec-WebSocket-Key"]

/-- The headers that have one of some names. -/
abbrev named (name : String) (f : String × String) : Bool := Text.equalIgnoringCase f.1 name

/-- One step from a request to another that HTTP takes for the same. -/
inductive Rewording : RequestHead → RequestHead → Prop
  /-- A header name in another case. -/
  | recase {h : RequestHead} {n n' v : String} {before after : List (String × String)} :
      h.headers = before ++ (n, v) :: after → Text.equalIgnoringCase n' n = true →
      Rewording h { h with headers := before ++ (n', v) :: after }
  /-- Another order, in which headers of one name keep theirs. -/
  | reorder {h : RequestHead} {headers : List (String × String)} :
      (∀ name, headers.filter (named name) = h.headers.filter (named name)) →
      Rewording h { h with headers }
  /-- A header that an upgrade does not read. -/
  | add {h : RequestHead} {n v : String} {before after : List (String × String)} :
      h.headers = before ++ after →
      (∀ name ∈ tokenNames ++ valueNames, Text.equalIgnoringCase n name = false) →
      Rewording h { h with headers := before ++ (n, v) :: after }
  /-- One header in place of several, its value theirs joined by commas. -/
  | join {h : RequestHead} {name n : String} {fields before after : List (String × String)} :
      name ∈ tokenNames → Text.equalIgnoringCase n name = true →
      fields ≠ [] → (∀ f ∈ fields, named name f = true) →
      h.headers.Perm (fields ++ (before ++ after)) → (before ++ after).Sublist h.headers →
      Rewording h { h with headers := before ++ (n, ",".intercalate (fields.map (·.2))) :: after }
  /-- Tokens in another case or with other blanks around them. -/
  | respace {h : RequestHead} {name n : String} {ts ts' : List String}
      {before after : List (String × String)} :
      name ∈ tokenNames → Text.equalIgnoringCase n name = true →
      h.headers = before ++ (n, ",".intercalate ts) :: after →
      (∀ t ∈ ts, ',' ∉ t.toList) → List.Forall₂ Text.Respaced ts ts' →
      Rewording h { h with headers := before ++ (n, ",".intercalate ts') :: after }
  /-- A query behind a target that has none. -/
  | query {h : RequestHead} {query : String} :
      '?' ∉ h.target.toList → Rewording h { h with target := h.target ++ "?" ++ query }

/-- Requests that give the same answers to the questions an upgrade asks. -/
structure Alike (h h' : RequestHead) : Prop where
  method : h.method = h'.method
  version : h.minorVersion = h'.minorVersion
  path : h.path = h'.path
  tokens : ∀ name ∈ tokenNames, ∀ token, h.hasToken name token = h'.hasToken name token
  values : ∀ name ∈ valueNames, h.values name = h'.values name

namespace Alike

variable {h h' : RequestHead}

theorem refl (h : RequestHead) : Alike h h := ⟨rfl, rfl, rfl, fun _ _ _ => rfl, fun _ _ => rfl⟩

theorem symm (ha : Alike h h') : Alike h' h where
  method := ha.method.symm
  version := ha.version.symm
  path := ha.path.symm
  tokens name hname token := (ha.tokens name hname token).symm
  values name hname := (ha.values name hname).symm

theorem trans {h'' : RequestHead} (ha : Alike h h') (ha' : Alike h' h'') : Alike h h'' where
  method := ha.method.trans ha'.method
  version := ha.version.trans ha'.version
  path := ha.path.trans ha'.path
  tokens name hname token := (ha.tokens name hname token).trans (ha'.tokens name hname token)
  values name hname := (ha.values name hname).trans (ha'.values name hname)

/-- The answer depends on nothing else. -/
theorem ofHead_eq (ha : Alike h h') (path : String) : ofHead h path = ofHead h' path := by
  have hheader (name : String) (hname : name ∈ valueNames) : h.header? name = h'.header? name := by
    rw [RequestHead.header?_eq_head?, RequestHead.header?_eq_head?, ha.values name hname]
  have hwanted : isWanted h path = isWanted h' path := by
    simp only [isWanted, RequestHead.isGet, ha.method, ha.path, ha.tokens "Upgrade" (by decide),
      ha.tokens "Connection" (by decide)]
  simp only [ofHead, hwanted, ha.version, hheader "Sec-WebSocket-Version" (by decide),
    hheader "Sec-WebSocket-Key" (by decide)]

theorem hasToken_eq_of_values {name : String} (hvalues : h.values name = h'.values name)
    (token : String) : h.hasToken name token = h'.hasToken name token := by
  rw [RequestHead.hasToken, RequestHead.hasToken, hvalues]

/-- New headers that say the same under every name that is read. -/
theorem of_values {headers : List (String × String)}
    (hvalues : ∀ name ∈ tokenNames ++ valueNames,
      h.values name = { h with headers }.values name) : Alike h { h with headers } where
  method := rfl
  version := rfl
  path := rfl
  tokens name hname := hasToken_eq_of_values (hvalues name (List.mem_append_left _ hname))
  values name hname := hvalues name (List.mem_append_right _ hname)

/-- New headers that differ under one name, and list the same tokens there. -/
theorem of_tokens {name : String} {headers : List (String × String)} (hname : name ∈ tokenNames)
    (hothers : ∀ other, Text.equalIgnoringCase name other = false →
      h.values other = { h with headers }.values other)
    (htokens : ∀ token, h.hasToken name token = { h with headers }.hasToken name token) :
    Alike h { h with headers } where
  method := rfl
  version := rfl
  path := rfl
  tokens other hother token := by
    by_cases heq : name = other
    · rw [← heq]
      exact htokens token
    · have hdiffer : ∀ a ∈ tokenNames, ∀ b ∈ tokenNames, a ≠ b →
          Text.equalIgnoringCase a b = false := by
        decide
      exact hasToken_eq_of_values (hothers other (hdiffer name hname other hother heq)) token
  values other hother := by
    have hdiffer : ∀ a ∈ tokenNames, ∀ b ∈ valueNames, Text.equalIgnoringCase a b = false := by
      decide
    exact hothers other (hdiffer name hname other hother)

end Alike

theorem values_eq (h : RequestHead) (name : String) :
    h.values name = (h.headers.filter (named name)).map (·.2) := rfl

/-- Whether a value lists a token. -/
def Lists (value token : String) : Prop :=
  ∃ item ∈ items value, Text.equalIgnoringCase item token = true

section Replace

variable {h : RequestHead} {name n v : String} {fields before after : List (String × String)}

/-- What is taken together under one name leaves the other names as they were. -/
theorem values_replace (hn : Text.equalIgnoringCase n name = true)
    (hfields : ∀ f ∈ fields, named name f = true)
    (hperm : h.headers.Perm (fields ++ (before ++ after)))
    (horder : (before ++ after).Sublist h.headers) {other : String}
    (hother : Text.equalIgnoringCase name other = false) :
    h.values other = { h with headers := before ++ (n, v) :: after }.values other := by
  have hfield : named other (n, v) = false := by
    rw [named, Text.equalIgnoringCase_congr hn other]
    exact hother
  have hnone : fields.filter (named other) = [] := by
    rw [List.filter_eq_nil_iff]
    intro f hf
    rw [Bool.not_eq_true, named, Text.equalIgnoringCase_congr (hfields f hf) other]
    exact hother
  have hkept : (before ++ after).filter (named other) = h.headers.filter (named other) := by
    apply (horder.filter _).eq_of_length
    rw [(hperm.filter _).length_eq, List.filter_append fields, hnone, List.nil_append]
  rw [values_eq, values_eq, ← hkept, List.filter_append, List.filter_append,
    List.filter_cons_of_neg (by simp [hfield])]

/-- The field put in lists what the fields taken out listed, so the request lists what it did. -/
theorem hasToken_replace (hn : Text.equalIgnoringCase n name = true)
    (hfields : ∀ f ∈ fields, named name f = true)
    (hperm : h.headers.Perm (fields ++ (before ++ after)))
    (hlists : ∀ token, Lists v token ↔ ∃ f ∈ fields, Lists f.2 token) (token : String) :
    h.hasToken name token =
      { h with headers := before ++ (n, v) :: after }.hasToken name token := by
  rw [Bool.eq_iff_iff, RequestHead.hasToken_iff, RequestHead.hasToken_iff]
  constructor
  · rintro ⟨f, hf, hname, hitem⟩
    rcases List.mem_append.mp (hperm.mem_iff.mp hf) with hf | hf
    · exact ⟨(n, v), by simp, hn, (hlists token).mpr ⟨f, hf, hitem⟩⟩
    · refine ⟨f, ?_, hname, hitem⟩
      simp only [List.mem_append, List.mem_cons] at hf ⊢
      exact hf.imp_right .inr
  · rintro ⟨f, hf, hname, hitem⟩
    have hf : f = (n, v) ∨ f ∈ before ++ after := by
      simpa [or_left_comm] using hf
    rcases hf with rfl | hf
    · obtain ⟨f, hf, hitem⟩ := (hlists token).mp hitem
      exact ⟨f, hperm.mem_iff.mpr (List.mem_append_left _ hf), hfields f hf, hitem⟩
    · exact ⟨f, hperm.mem_iff.mpr (List.mem_append_right _ hf), hname, hitem⟩

theorem Alike.replace (hname : name ∈ tokenNames) (hn : Text.equalIgnoringCase n name = true)
    (hfields : ∀ f ∈ fields, named name f = true)
    (hperm : h.headers.Perm (fields ++ (before ++ after)))
    (horder : (before ++ after).Sublist h.headers)
    (hlists : ∀ token, Lists v token ↔ ∃ f ∈ fields, Lists f.2 token) :
    Alike h { h with headers := before ++ (n, v) :: after } :=
  .of_tokens hname (fun _ => values_replace hn hfields hperm horder)
    (hasToken_replace hn hfields hperm hlists)

end Replace

theorem lists_intercalate {values : List String} (h : values ≠ []) (token : String) :
    Lists (",".intercalate values) token ↔ ∃ v ∈ values, Lists v token := by
  simp only [Lists, RequestHead.items_intercalate h, List.mem_flatMap]
  constructor
  · rintro ⟨item, ⟨v, hv, hitem⟩, htoken⟩
    exact ⟨v, hv, item, hitem, htoken⟩
  · rintro ⟨v, hv, item, hitem, htoken⟩
    exact ⟨item, ⟨v, hv, hitem⟩, htoken⟩

theorem lists_respaced {t t' token : String} (hcomma : ',' ∉ t.toList) (h : Text.Respaced t t') :
    Lists t' token ↔ Lists t token := by
  simp only [Lists, RequestHead.items_eq_singleton hcomma,
    RequestHead.items_eq_singleton (h.comma_not_mem hcomma), List.mem_singleton, exists_eq_left,
    Text.equalIgnoringCase_congr h.trim_eq]

theorem exists_lists_respaced {ts ts' : List String} (hcomma : ∀ t ∈ ts, ',' ∉ t.toList)
    (h : List.Forall₂ Text.Respaced ts ts') (token : String) :
    (∃ t ∈ ts', Lists t token) ↔ ∃ t ∈ ts, Lists t token := by
  induction h with
  | nil => simp
  | cons hhead _ ih =>
    rw [List.forall_mem_cons] at hcomma
    simp only [List.exists_mem_cons_iff, ih hcomma.2, lists_respaced hcomma.1 hhead]

theorem lists_intercalate_respaced {ts ts' : List String} (hcomma : ∀ t ∈ ts, ',' ∉ t.toList)
    (h : List.Forall₂ Text.Respaced ts ts') (token : String) :
    Lists (",".intercalate ts') token ↔ Lists (",".intercalate ts) token := by
  by_cases hne : ts = []
  · subst hne
    cases h
    rfl
  · have hne' : ts' ≠ [] := by
      rintro rfl
      cases h
      contradiction
    rw [lists_intercalate hne, lists_intercalate hne', exists_lists_respaced hcomma h]

namespace Rewording

variable {h h' : RequestHead}

/-- Two headers next to each other change places, if their names differ. -/
theorem swap {a b : String × String} {before after : List (String × String)}
    (hsplit : h.headers = before ++ a :: b :: after)
    (hnames : Text.equalIgnoringCase a.1 b.1 = false) :
    Rewording h { h with headers := before ++ b :: a :: after } := by
  refine .reorder fun name => ?_
  rw [hsplit, List.filter_append, List.filter_append]
  congr 1
  cases ha : named name a with
  | false => simp [List.filter_cons, ha]
  | true =>
    have hb : named name b = false := by
      rw [Text.equalIgnoringCase_congr ha b.1] at hnames
      by_contra hb
      rw [Bool.not_eq_false] at hb
      simp [Text.equalIgnoringCase_symm hb] at hnames
    simp [ha, hb]

/-- No step changes what an upgrade asks for. -/
theorem alike (hr : Rewording h h') : Alike h h' := by
  cases hr with
  | @recase n n' v before after hsplit hn =>
    refine .of_values fun name _ => ?_
    have hnamed : named name (n', v) = named name (n, v) :=
      Text.equalIgnoringCase_congr hn name
    rw [values_eq, values_eq, hsplit, List.filter_append, List.filter_append, List.filter_cons,
      List.filter_cons, hnamed]
    cases named name (n, v) <;> simp
  | reorder hsame =>
    refine .of_values fun name _ => ?_
    rw [values_eq, values_eq, ← hsame]
  | add hsplit hnew =>
    refine .of_values fun name hname => ?_
    rw [values_eq, values_eq, hsplit, List.filter_append, List.filter_append,
      List.filter_cons_of_neg (by simp [named, hnew name hname])]
  | join hname hn hne hfields hperm horder =>
    refine .replace hname hn hfields hperm horder fun token => ?_
    rw [lists_intercalate (by simpa using hne)]
    simp only [List.mem_map, exists_exists_and_eq_and]
  | @respace name n ts ts' before after hname hn hsplit hcomma hrespaced =>
    have hperm : h.headers.Perm ([(n, ",".intercalate ts)] ++ (before ++ after)) := by
      rw [hsplit]
      exact List.perm_middle
    have horder : (before ++ after).Sublist h.headers := by
      rw [hsplit]
      exact (List.sublist_cons_self _ _).append_left _
    refine .replace hname hn (by simpa using hn) hperm horder fun token => ?_
    rw [lists_intercalate_respaced hcomma hrespaced]
    simp
  | @query query htarget =>
    have hbefore : h.path = h.target := RequestHead.path_eq_iff.mpr ⟨htarget, .inl rfl⟩
    have hafter : { h with target := h.target ++ "?" ++ query }.path = h.target :=
      RequestHead.path_eq_iff.mpr ⟨htarget, .inr ⟨query, rfl⟩⟩
    exact ⟨rfl, rfl, hbefore.trans hafter.symm, fun _ _ _ => rfl, fun _ _ => rfl⟩

/-- Nor does any number of them, taken forwards or backwards. -/
theorem alike_of_eqvGen (hr : Relation.EqvGen Rewording h h') : Alike h h' := by
  induction hr with
  | rel _ _ hr => exact hr.alike
  | refl h => exact .refl h
  | symm _ _ _ ih => exact ih.symm
  | trans _ _ _ _ _ ih ih' => exact ih.trans ih'

end Rewording

end WebSocketHost.Upgrade
