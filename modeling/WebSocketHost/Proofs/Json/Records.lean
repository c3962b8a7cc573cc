import WebSocketHost.Json.Record
import WebSocketHost.Proofs.Json.Escaped

/-! A written record, read with any fields, gives for each field the member of that name: the
order of the fields does not matter, and members that are no fields are passed over. -/
namespace WebSocketHost.Json

open Text.Reader

/-- A place where a reader of blanks takes nothing. -/
abbrev Tight (cs : List Char) : Prop :=
  Stops (fun c => c = ' ' || c = '\n' || c = '\t' || c = '\r') cs

theorem blank_eq {cs : List Char} (h : Tight cs) : blank cs = some ((), cs) :=
  bind_of_some h.takeWhile_eq

theorem word_append (w : String) (rest : List Char) :
    word w (w.toList ++ rest) = some ((), rest) := by
  unfold word
  induction w.toList with
  | nil => rfl
  | cons c cs ih => exact (bind_of_some (char_cons c _)).trans ih

theorem word_cons_of_ne {w : String} {c d : Char} {cs rest : List Char} (hw : w.toList = c :: cs)
    (hne : d ≠ c) : word w (d :: rest) = none := by
  unfold word
  rw [hw]
  exact bind_of_none (if_neg hne)

section Skipping

variable {rest : List Char}

theorem skipCharacters_flatMap_escape (cs : List Char) {fuel : Nat}
    (hfuel : (cs.flatMap escape).length ≤ fuel) :
    skipCharacters fuel (cs.flatMap escape ++ '"' :: rest) = some ((), rest) := by
  induction cs generalizing fuel with
  | nil => simp [skipCharacters]
  | cons c cs ih =>
    obtain ⟨d, ds, heq, hd⟩ := head?_escape c
    rw [List.flatMap_cons, heq, List.cons_append, List.length_cons] at hfuel
    obtain ⟨fuel, rfl⟩ : ∃ n, fuel = n + 1 := ⟨fuel - 1, by omega⟩
    have hmore : skipCharacters fuel (cs.flatMap escape ++ '"' :: rest) = some ((), rest) :=
      ih (by rw [List.length_append] at hfuel; omega)
    rw [List.flatMap_cons, List.append_assoc]
    rcases escape_cases c with ⟨letter, heq, hletter, -, hmeans⟩ | ⟨hc, heq⟩ |
      ⟨hc, hquote, hbackslash, heq⟩
    · rw [heq, List.cons_append, List.cons_append, List.nil_append, skipCharacters, hmeans]
      · exact hmore
      · exact fun h => hletter h
    · rw [heq]
      show skipCharacters (fuel + 1)
        ('\\' :: 'u' :: ('0' :: '0' :: twoDigits c.toNat ++ _)) = _
      rw [skipCharacters, fourDigits?_control hc]
      exact hmore
    · have hplain : ¬(c.toNat < 0x20 ∨ c = '\\') := not_or.mpr ⟨hc, hbackslash⟩
      rw [heq, List.singleton_append, skipCharacters, if_neg hplain]
      · exact hmore
      all_goals simp_all

theorem skipText_encodeText (s : String) : skipText (encodeText s ++ rest) = some ((), rest) := by
  let inner : Text.Reader Unit := fun cs => skipCharacters cs.length cs
  have hinner : inner (s.toList.flatMap escape ++ '"' :: rest) = some ((), rest) :=
    skipCharacters_flatMap_escape s.toList (by simp)
  have hopen : encodeText s ++ rest = '"' :: (s.toList.flatMap escape ++ '"' :: rest) := by
    simp [encodeText]
  rw [hopen]
  exact (bind_of_some (char_cons '"' _)).trans hinner

end Skipping

namespace Scalar

/-- What a field must be for the value to be read. -/
def kind : Scalar → Kind
  | text _ => .text
  | flag _ => .flag

variable {rest : List Char}

theorem head?_encode (v : Scalar) : ∃ d ds, v.encode = d :: ds ∧ d ∈ ['"', 't', 'f'] := by
  cases v with
  | text s => exact ⟨_, _, rfl, by decide⟩
  | flag b => cases b <;> exact ⟨_, _, rfl, by decide⟩

theorem tight_encode (v : Scalar) : Tight (v.encode ++ rest) := by
  obtain ⟨d, ds, heq, hd⟩ := head?_encode v
  rw [heq]
  obtain rfl | rfl | rfl : d = '"' ∨ d = 't' ∨ d = 'f' := by simpa using hd
  all_goals exact stops_cons (by decide)

theorem read_encode (v : Scalar) : read v.kind (v.encode ++ rest) = some (v, rest) := by
  cases v with
  | text s => exact bind_of_some (text_encodeText s rest)
  | flag b =>
    cases b with
    | true => exact orElse_of_some (bind_of_some (word_append "true" rest))
    | false =>
      have htrue : word "true" ("false".toList ++ rest) = none :=
        word_cons_of_ne rfl (by decide)
      exact (orElse_of_none (bind_of_none htrue)).trans
        (bind_of_some (word_append "false" rest))

theorem skipValue_encode (v : Scalar) (size depth : Nat) :
    skipValue size (depth + 1) (v.encode ++ rest) = some ((), rest) := by
  have hnull : word "null" (v.encode ++ rest) = none := by
    obtain ⟨d, ds, heq, hd⟩ := head?_encode v
    rw [heq]
    exact word_cons_of_ne rfl (by rintro rfl; exact absurd hd (by decide))
  unfold skipValue
  refine (orElse_of_none hnull).trans ?_
  cases v with
  | text s =>
    have htrue : word "true" (encodeText s ++ rest) = none := word_cons_of_ne rfl (by decide)
    have hfalse : word "false" (encodeText s ++ rest) = none := word_cons_of_ne rfl (by decide)
    exact (orElse_of_none htrue).trans
      ((orElse_of_none hfalse).trans (orElse_of_some (skipText_encodeText s)))
  | flag b =>
    cases b with
    | true => exact orElse_of_some (word_append "true" rest)
    | false =>
      have htrue : word "true" ("false".toList ++ rest) = none :=
        word_cons_of_ne rfl (by decide)
      exact (orElse_of_none htrue).trans (orElse_of_some (word_append "false" rest))

end Scalar

section Members

variable {fields : Fields} {size : Nat} {known : List (String × Scalar)}

/-- One member as it is written. -/
def encodeMember (m : String × Scalar) : List Char := encodeText m.1 ++ ':' :: m.2.encode

/-- What is known once a member is read: one that is no field is forgotten. -/
def learn (fields : Fields) (known : List (String × Scalar)) (m : String × Scalar) :
    List (String × Scalar) :=
  if (fields.lookup m.1).isSome then m :: known else known

theorem member_encodeMember (hsize : 0 < size) {m : String × Scalar}
    (hkind : ∀ kind ∈ fields.lookup m.1, m.2.kind = kind) (hfresh : known.lookup m.1 = none)
    (rest : List Char) :
    member fields size known (encodeMember m ++ rest) = some (learn fields known m, rest) := by
  obtain ⟨name, v⟩ := m
  obtain ⟨depth, rfl⟩ : ∃ n, size = n + 1 := ⟨size - 1, by omega⟩
  have hopen : encodeMember (name, v) ++ rest = encodeText name ++ ':' :: (v.encode ++ rest) := by
    simp [encodeMember]
  have hcolon : Tight (':' :: (v.encode ++ rest)) := stops_cons (by decide)
  rw [hopen]
  refine (bind_of_some (text_encodeText name _)).trans ?_
  refine (bind_of_some (blank_eq hcolon)).trans ?_
  refine (bind_of_some (char_cons ':' _)).trans ?_
  refine (bind_of_some (blank_eq (Scalar.tight_encode v))).trans ?_
  unfold learn
  cases hfield : fields.lookup name with
  | some kind =>
    have hnew : ¬known.any (·.1 = name) := by
      rw [List.any_eq_true]
      rintro ⟨x, hx, heq⟩
      have hne := List.lookup_eq_none_iff.mp hfresh x hx
      exact bne_iff_ne.mp hne (of_decide_eq_true heq).symm
    rw [← hkind kind hfield]
    simp only [hnew]
    exact bind_of_some (Scalar.read_encode v)
  | none => exact bind_of_some (Scalar.skipValue_encode v (depth + 1) depth)

/-- The fields that are known once members are read: those that were, and the members. -/
theorem lookup_learn {m : String × Scalar} {name : String} (hname : (fields.lookup name).isSome) :
    (learn fields known m).lookup name = ([m].lookup name).or (known.lookup name) := by
  unfold learn
  split
  case isTrue =>
    show ([m] ++ known).lookup name = _
    exact List.lookup_append
  case isFalse hno =>
    have hne : name ≠ m.1 := fun h => hno (h ▸ hname)
    have hnone : [m].lookup name = none := List.lookup_eq_none_iff.mpr (by simpa using hne)
    rw [hnone, Option.none_or]

theorem lookup_learn_eq_none {m : String × Scalar} {name : String}
    (hname : known.lookup name = none) (hne : name ≠ m.1) :
    (learn fields known m).lookup name = none := by
  unfold learn
  split
  · rw [List.lookup_cons, beq_false_of_ne hne]
    exact hname
  · exact hname

/-- Members start with the mark of the first one's name. -/
theorem intercalate_eq_cons (m : String × Scalar) (ms : List (String × Scalar))
    (rest : List Char) :
    ∃ cs, [','].intercalate ((m :: ms).map encodeMember) ++ rest = '"' :: cs := by
  cases ms <;> simp [List.intercalate, encodeMember, encodeText]

/-- Members in a row, up to the closing bracket. -/
theorem members_encoded (hsize : 0 < size) {m : String × Scalar} {ms : List (String × Scalar)}
    {fuel : Nat} (hfuel : ms.length < fuel) (hnodup : ((m :: ms).map (·.1)).Nodup)
    (hkind : ∀ x ∈ m :: ms, ∀ kind ∈ fields.lookup x.1, x.2.kind = kind)
    (hfresh : ∀ x ∈ m :: ms, known.lookup x.1 = none) (rest : List Char) :
    ∃ known', members fields size fuel known
        ([','].intercalate ((m :: ms).map encodeMember) ++ '\x7d' :: rest) = some (known', rest) ∧
      ∀ name, (fields.lookup name).isSome →
        known'.lookup name = ((m :: ms).lookup name).or (known.lookup name) := by
  induction ms generalizing m known fuel with
  | nil =>
    obtain ⟨fuel, rfl⟩ : ∃ n, fuel = n + 1 := ⟨fuel - 1, by omega⟩
    refine ⟨learn fields known m, ?_, fun name hname => lookup_learn hname⟩
    have hm := member_encodeMember hsize (hkind m List.mem_cons_self)
      (hfresh m List.mem_cons_self) ('\x7d' :: rest)
    unfold members
    rw [List.map_cons, List.map_nil, List.intercalate_singleton]
    refine (bind_of_some hm).trans ?_
    refine (bind_of_some (blank_eq (stops_cons (by decide)))).trans ?_
    exact orElse_of_some (bind_of_some (char_cons '\x7d' rest))
  | cons n ms ih =>
    obtain ⟨fuel, rfl⟩ : ∃ n, fuel = n + 1 := ⟨fuel - 1, by omega⟩
    obtain ⟨hm, hlater⟩ := List.nodup_cons.mp hnodup
    have hnew : ∀ x ∈ n :: ms, (learn fields known m).lookup x.1 = none := fun x hx =>
      lookup_learn_eq_none (hfresh x (List.mem_cons_of_mem m hx))
        fun h => hm (List.mem_map.mpr ⟨x, hx, h⟩)
    obtain ⟨known', hread, hknown'⟩ := ih (Nat.lt_of_succ_lt_succ hfuel) hlater
      (fun x hx => hkind x (List.mem_cons_of_mem m hx)) hnew
    refine ⟨known', ?_, fun name hname => ?_⟩
    · have hrow : [','].intercalate ((m :: n :: ms).map encodeMember) ++ '\x7d' :: rest =
          encodeMember m ++ ',' :: ([','].intercalate ((n :: ms).map encodeMember) ++
            '\x7d' :: rest) := by
        simp [List.intercalate]
      have hfirst := member_encodeMember hsize (hkind m List.mem_cons_self)
        (hfresh m List.mem_cons_self)
        (',' :: ([','].intercalate ((n :: ms).map encodeMember) ++ '\x7d' :: rest))
      have htight : Tight ([','].intercalate ((n :: ms).map encodeMember) ++ '\x7d' :: rest) := by
        obtain ⟨cs, hcs⟩ := intercalate_eq_cons n ms ('\x7d' :: rest)
        rw [hcs]
        exact stops_cons (by decide)
      unfold members
      rw [hrow]
      refine (bind_of_some hfirst).trans ?_
      refine (bind_of_some (blank_eq (stops_cons (by decide)))).trans ?_
      refine (orElse_of_none (bind_of_none (char_of_head?_ne (by simp)))).trans ?_
      refine (bind_of_some (char_cons ',' _)).trans ?_
      exact (bind_of_some (blank_eq htight)).trans hread
    · have hsplit : (m :: n :: ms).lookup name =
          ([m].lookup name).or ((n :: ms).lookup name) := by
        show ([m] ++ n :: ms).lookup name = _
        exact List.lookup_append
      have hone : [m].lookup name = none ∨ (n :: ms).lookup name = none := by
        by_cases heq : name = m.1
        · refine .inr (List.lookup_eq_none_iff.mpr fun x hx => bne_iff_ne.mpr fun h => ?_)
          exact hm (List.mem_map.mpr ⟨x, hx, h.symm.trans heq⟩)
        · exact .inl (List.lookup_eq_none_iff.mpr (by simpa using heq))
      rw [hknown' name hname, lookup_learn hname, hsplit]
      rcases hone with h | h <;> simp [h]

end Members

section Whole

variable {fields : Fields} {members : List (String × Scalar)}

theorem toList_encodeRecord (members : List (String × Scalar)) :
    (encodeRecord members).toList =
      '\x7b' :: ([','].intercalate (members.map encodeMember) ++ ['\x7d']) :=
  String.toList_ofList

theorem length_intercalate (members : List (String × Scalar)) :
    members.length ≤ ([','].intercalate (members.map encodeMember)).length := by
  induction members with
  | nil => exact Nat.zero_le _
  | cons m ms ih =>
    have hne : 1 ≤ (encodeMember m).length := by
      rw [encodeMember, List.length_append, List.length_cons]
      omega
    cases ms with
    | nil => simpa using hne
    | cons n ms =>
      simp only [List.map_cons, List.intercalate_cons_cons, List.length_append,
        List.length_cons] at ih ⊢
      omega

theorem mem_intercalate {c : Char} {parts : List (List Char)} (h : c ∈ [','].intercalate parts) :
    c = ',' ∨ ∃ part ∈ parts, c ∈ part := by
  induction parts with
  | nil => cases h
  | cons part parts ih =>
    cases parts with
    | nil =>
      rw [List.intercalate_singleton] at h
      exact .inr ⟨part, List.mem_cons_self, h⟩
    | cons next parts =>
      rw [List.intercalate_cons_cons, List.mem_append, List.mem_append,
        List.mem_singleton] at h
      rcases h with (hpart | hcomma) | hmore
      · exact .inr ⟨part, List.mem_cons_self, hpart⟩
      · exact .inl hcomma
      · exact (ih hmore).imp_right fun ⟨p, hp, hc⟩ => ⟨p, List.mem_cons_of_mem part hp, hc⟩

theorem not_isControl_of_mem_encodeRecord {c : Char} (h : c ∈ (encodeRecord members).toList) :
    ¬IsControl c := by
  have hscalar (v : Scalar) (hc : c ∈ v.encode) : ¬IsControl c := by
    cases v with
    | text s => exact not_isControl_of_mem_encodeText hc
    | flag b =>
      have hall : ∀ b, (Scalar.flag b).encode.all (¬IsControl ·) := by decide
      exact of_decide_eq_true (List.all_eq_true.mp (hall b) c hc)
  rw [toList_encodeRecord, List.mem_cons, List.mem_append, List.mem_singleton] at h
  rcases h with rfl | hmembers | rfl
  · decide
  · rcases mem_intercalate hmembers with rfl | ⟨part, hpart, hc⟩
    · decide
    · obtain ⟨m, -, rfl⟩ := List.mem_map.mp hpart
      rw [encodeMember, List.mem_append, List.mem_cons] at hc
      rcases hc with hname | rfl | hvalue
      · exact not_isControl_of_mem_encodeText hname
      · decide
      · exact hscalar m.2 hvalue
  · decide

theorem mapM_lookup_congr {known : List (String × Scalar)}
    (h : ∀ name, (fields.lookup name).isSome → known.lookup name = members.lookup name) :
    (fields.mapM fun (name, _) => known.lookup name) =
      fields.mapM fun field => members.lookup field.1 := by
  have hall : fields.map (fun field => known.lookup field.1) =
      fields.map fun field => members.lookup field.1 :=
    List.map_congr_left fun field hfield =>
      h field.1 (List.lookup_isSome_iff.mpr ⟨field, hfield, beq_self_eq_true _⟩)
  have hmap := congrArg (List.mapM id) hall
  rwa [List.mapM_map, List.mapM_map] at hmap

theorem lift_eq_map {vs : Option (List Scalar)} {rest : List Char} :
    lift vs rest = vs.map (·, rest) := by
  cases vs <;> rfl

/-- The object as it is written, with nothing behind it. -/
theorem readObject_encoded {size : Nat} (hsize : members.length < size)
    (hnodup : (members.map (·.1)).Nodup)
    (hkind : ∀ m ∈ members, ∀ kind ∈ fields.lookup m.1, m.2.kind = kind) :
    readObject fields size ('\x7b' :: ([','].intercalate (members.map encodeMember) ++ ['\x7d'])) =
      (fields.mapM fun field => members.lookup field.1).map (·, []) := by
  unfold readObject
  refine (bind_of_some (char_cons '\x7b' _)).trans ?_
  cases members with
  | nil =>
    refine (bind_of_some (blank_eq (stops_cons (by decide)))).trans ?_
    refine (bind_of_some (orElse_of_some (bind_of_some (char_cons '\x7d' [])))).trans ?_
    exact lift_eq_map
  | cons m ms =>
    obtain ⟨cs, hcs⟩ := intercalate_eq_cons m ms ['\x7d']
    have hnone : ∀ x ∈ m :: ms, ([] : List (String × Scalar)).lookup x.1 = none := fun _ _ => rfl
    obtain ⟨known, hread, hknown⟩ := members_encoded (Nat.zero_lt_of_lt hsize)
      (Nat.lt_of_succ_lt hsize) hnodup hkind hnone []
    rw [hcs] at hread ⊢
    refine (bind_of_some (blank_eq (stops_cons (by decide)))).trans ?_
    have hopen : char '\x7d' ('"' :: cs) = none := char_of_head?_ne (by simp)
    refine (bind_of_some ((orElse_of_none (bind_of_none hopen)).trans hread)).trans ?_
    rw [lift_eq_map, mapM_lookup_congr fun name hname => (hknown name hname).trans ?_]
    exact Option.or_none

/-- The names and kinds of members. -/
def shape (members : List (String × Scalar)) : Fields := members.map fun m => (m.1, m.2.kind)

/-- What fields can be read from: no name is there twice, and a field is of its kind. -/
def Fits (fields shape : Fields) : Prop :=
  (shape.map (·.1)).Nodup ∧ ∀ m ∈ shape, ∀ kind ∈ fields.lookup m.1, m.2 = kind

instance (fields shape : Fields) : Decidable (Fits fields shape) := instDecidableAnd

/-- A record that is written and read again, with the same fields or others. -/
theorem record?_encodeRecord (h : Fits fields (shape members)) :
    record? fields (encodeRecord members) =
      fields.mapM fun field => members.lookup field.1 := by
  have hnodup : (members.map (·.1)).Nodup := by
    have hnames := h.1
    rwa [shape, List.map_map] at hnames
  have hkind : ∀ m ∈ members, ∀ kind ∈ fields.lookup m.1, m.2.kind = kind := fun m hm =>
    h.2 (m.1, m.2.kind) (List.mem_map_of_mem (f := fun m => (m.1, m.2.kind)) hm)
  have hsize : members.length < (encodeRecord members).length + 1 := by
    have hle := length_intercalate members
    rw [← String.length_toList, toList_encodeRecord]
    simp only [List.length_append, List.length_cons]
    omega
  have hobject := readObject_encoded hsize hnodup hkind
  have harray : char '[' ('\x7b' :: ([','].intercalate (members.map encodeMember) ++ ['\x7d'])) =
      none := char_of_head?_ne (by simp)
  unfold record? whole readRecord
  rw [toList_encodeRecord]
  cases hvalues : fields.mapM fun field => members.lookup field.1 with
  | none =>
    rw [hvalues] at hobject
    rw [bind_of_some (blank_eq (stops_cons (by decide))),
      bind_of_none ((orElse_of_none (bind_of_none harray)).trans hobject)]
  | some values =>
    rw [hvalues] at hobject
    rw [bind_of_some (blank_eq (stops_cons (by decide))),
      bind_of_some ((orElse_of_none (bind_of_none harray)).trans hobject),
      bind_of_some (blank_eq stops_nil)]
    rfl

end Whole

end WebSocketHost.Json
