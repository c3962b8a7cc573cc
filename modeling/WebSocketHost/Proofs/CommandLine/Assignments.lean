import WebSocketHost.CommandLine

/-! What a command line says, apart from how it is read: a list of flags with a value for each.
Reading goes from argument to argument with a value kept in hand; a reading that succeeds has set
the values of the list one after another. -/
namespace WebSocketHost.CommandLine

/-- The flag that an argument names, and its value if that stands in the same argument. -/
def flag? (a : String) : Option (Flag × Option String) :=
  match a.toList with
  | '-' :: '-' :: cs =>
    match Reading.name? (String.ofList (cs.takeWhile (· != '='))) with
    | some (.flag f) =>
      match cs.dropWhile (· != '=') with
      | _ :: value => some (f, some (String.ofList value))
      | [] => some (f, none)
    | _ => none
  | _ => none

/-- The flags in arguments, each with its value. -/
def assignments : List String → List (Flag × String)
  | [] => []
  | a :: rest =>
    match flag? a with
    | none => assignments rest
    | some (f, some v) => (f, v) :: assignments rest
    | some (f, none) =>
      if f.takesValue then
        match rest with
        | [] => []
        | v :: rest => (f, v) :: assignments rest
      else (f, "true") :: assignments rest

/-- The value that the environment has for a flag, unless that was given. -/
def standIn? (env : String → Option String) (given : List Flag) (f : Flag) :
    Option (Flag × String) :=
  if f ∈ given then none else (env f.environmentName).map (f, ·)

def standIns (env : String → Option String) (given : List Flag) : List (Flag × String) :=
  Flag.all.filterMap (standIn? env given)

/-- Flags that the arguments give a value, and then those to which the environment gives one. -/
def said (env : String → Option String) (args : List String) : List (Flag × String) :=
  assignments args ++ standIns env ((assignments args).map (·.1))

def setAll (c : CommandLine) (l : List (Flag × String)) : Except Refusal CommandLine :=
  l.foldlM (fun c p => c.set p.1 p.2) c

theorem setAll_cons (c : CommandLine) (p : Flag × String) (l : List (Flag × String)) :
    c.setAll (p :: l) = (c.set p.1 p.2).bind (·.setAll l) := rfl

theorem setAll_append (c : CommandLine) (l l' : List (Flag × String)) :
    c.setAll (l ++ l') = (c.setAll l).bind (·.setAll l') :=
  List.foldlM_append

theorem bind_eq_ok_iff {ε α β : Type} {x : Except ε α} {f : α → Except ε β} {b : β} :
    x.bind f = .ok b ↔ ∃ a, x = .ok a ∧ f a = .ok b := by
  cases x <;> simp [Except.bind]

namespace Reading

/-- What is still to be set, with the arguments that are to come. -/
def ahead (r : Reading) (args : List String) : List (Flag × String) :=
  match r.pending with
  | none => assignments args
  | some (f, some v) => (f, v) :: assignments args
  | some (f, none) =>
    match args with
    | [] => []
    | v :: rest => (f, v) :: assignments rest

def takeAll (r : Reading) (l : List (Flag × String)) : Except Refusal Reading :=
  l.foldlM (fun r p => r.take p.1 p.2) r

/-- With nothing in hand. -/
def cleared (r : Reading) : Reading := { r with pending := none }

theorem takeAll_cons (r : Reading) (p : Flag × String) (l : List (Flag × String)) :
    r.takeAll (p :: l) = (r.take p.1 p.2).bind (·.takeAll l) := rfl

section Take

variable {r r' : Reading} {f : Flag} {v : String} {l : List (Flag × String)}

theorem cleared_of_pending (h : r.pending = none) : r.cleared = r := by
  unfold cleared
  rw [← h]

theorem ahead_of_pending (h : r.pending = none) (args : List String) :
    r.ahead args = assignments args := by
  rw [ahead, h]

theorem take_eq_ok_iff : r.take f v = .ok r' ↔
    (f ∈ r.given → f.repeats = true) ∧
      ∃ line, r.line.set f v = .ok line ∧ { r with line, given := f :: r.given } = r' := by
  unfold take
  split
  · next hrepeated =>
    simp only [reduceCtorEq, false_iff]
    rintro ⟨honce, -⟩
    simp [honce hrepeated.1] at hrepeated
  · next hnew =>
    have honce : f ∈ r.given → f.repeats = true := by simpa using hnew
    cases r.line.set f v with
    | error e => simp [bind, Except.bind]
    | ok line =>
      simp only [bind, Except.bind, pure, Except.pure, Except.ok.injEq, exists_eq_left']
      exact ⟨fun h => ⟨honce, h⟩, And.right⟩

theorem take_pending (h : r.take f v = .ok r') : r'.pending = r.pending := by
  obtain ⟨-, line, -, rfl⟩ := take_eq_ok_iff.mp h
  rfl

/-- Every value that was taken was set, and a flag that may be given once was given once. -/
theorem takeAll_eq_ok (h : r.takeAll l = .ok r') :
    r.line.setAll l = .ok r'.line ∧ (∀ f, f ∈ r'.given ↔ f ∈ r.given ∨ f ∈ l.map (·.1)) ∧
      ∀ f, f.repeats = false → (l.map (·.1)).count f + (if f ∈ r.given then 1 else 0) ≤ 1 := by
  induction l generalizing r with
  | nil =>
    cases h
    refine ⟨rfl, by simp, fun f _ => ?_⟩
    split <;> simp
  | cons p l ih =>
    rw [takeAll_cons] at h
    obtain ⟨r₁, htake, h⟩ := bind_eq_ok_iff.mp h
    obtain ⟨hline, hgiven, honce⟩ := ih h
    obtain ⟨hnew, line, hset, rfl⟩ := take_eq_ok_iff.mp htake
    refine ⟨?_, fun f => ?_, fun f hf => ?_⟩
    · rw [setAll_cons, hset]
      exact hline
    · simp only [hgiven, List.map_cons, List.mem_cons, or_assoc, or_left_comm]
    · have hcount := honce f hf
      rw [List.map_cons, List.count_cons]
      by_cases hp : p.1 = f
      · subst hp
        have hfresh : p.1 ∉ r.given := fun hmem => by
          cases hf.symm.trans (hnew hmem)
        simpa [hfresh] using hcount
      · simpa [hp, Ne.symm hp] using hcount

end Take

section Arguments

variable {r r' : Reading} {a name : String} {value : Option String}

/-- A value that is not judged yet is the next to be taken. -/
theorem settle_eq_ok (h : r.settle = .ok r') : r'.pending = none ∧
    ∀ args, r.cleared.takeAll (r.ahead args) = r'.takeAll (assignments args) := by
  unfold settle at h
  split at h
  · next hnone =>
    cases h
    refine ⟨hnone, fun args => ?_⟩
    rw [cleared_of_pending hnone, ahead_of_pending hnone]
  · cases h
  · next f v hsome =>
    have htake : r.cleared.take f v = .ok r' := h
    refine ⟨take_pending htake, fun args => ?_⟩
    rw [ahead, hsome, takeAll_cons, htake]
    rfl

/-- Reading goes on after a flag only if all before it was taken, and then takes the flag with its
value, or has it in hand until that comes. -/
theorem long_eq_ok (h : r.long a name value = .ok r') :
    ∃ f r₀, name? name = some (.flag f) ∧ r.settle = .ok r₀ ∧
      ((∃ v, value = some v ∧ r₀.take f v = .ok r') ∨
        (value = none ∧ f.takesValue = true ∧ r' = { r₀ with pending := some (f, none) }) ∨
        (value = none ∧ f.takesValue = false ∧ r₀.take f "true" = .ok r')) := by
  unfold long at h
  cases hname : name? name with
  | none => simp [hname] at h
  | some what =>
    cases what with
    | stop s =>
      cases value with
      | some v => simp [hname] at h
      | none =>
        simp only [hname] at h
        obtain ⟨r₀, -, h⟩ := bind_eq_ok_iff.mp h
        cases h
    | flag f =>
      cases htakes : f.takesValue with
      | false =>
        cases value with
        | some v => simp [hname, htakes] at h
        | none =>
          simp only [hname, htakes] at h
          obtain ⟨r₀, hsettle, h⟩ := bind_eq_ok_iff.mp h
          exact ⟨f, r₀, rfl, hsettle, .inr (.inr ⟨rfl, htakes, h⟩)⟩
      | true =>
        simp only [hname, htakes, if_true] at h
        obtain ⟨r₀, hsettle, h⟩ := bind_eq_ok_iff.mp h
        cases value with
        | some v => exact ⟨f, r₀, rfl, hsettle, .inl ⟨v, rfl, h⟩⟩
        | none =>
          cases h
          exact ⟨f, r₀, rfl, hsettle, .inr (.inl ⟨rfl, htakes, rfl⟩)⟩

theorem takeAll_of_long (hflag : ∀ f, name? name = some (.flag f) → flag? a = some (f, value))
    (h : r.long a name value = .ok r') (args : List String) :
    r.cleared.takeAll (r.ahead (a :: args)) = r'.cleared.takeAll (r'.ahead args) := by
  obtain ⟨f, r₀, hname, hsettle, hgoes⟩ := long_eq_ok h
  obtain ⟨hpending, hahead⟩ := settle_eq_ok hsettle
  rw [hahead, assignments, hflag f hname]
  -- Once the flag is taken there is nothing in hand.
  have htaken : ∀ v, r₀.take f v = .ok r' →
      r₀.takeAll ((f, v) :: assignments args) = r'.cleared.takeAll (r'.ahead args) := by
    intro v htake
    have hnone : r'.pending = none := (take_pending htake).trans hpending
    rw [cleared_of_pending hnone, ahead_of_pending hnone, takeAll_cons, htake]
    rfl
  obtain ⟨v, rfl, htake⟩ | ⟨rfl, htakes, rfl⟩ | ⟨rfl, htakes, htake⟩ := hgoes
  · exact htaken v htake
  · have hcleared : cleared { r₀ with pending := some (f, none) } = r₀ :=
      cleared_of_pending hpending
    rw [hcleared]
    simp only [htakes, if_true, ahead]
  · simpa [htakes] using htaken "true" htake

theorem short_ne_ok {letter : Char} : r.short a letter ≠ .ok r' := by
  unfold short
  cases r.settle <;> split <;> simp [bind, Except.bind]

/-- Only a flag that waits for its value lets an argument be that. -/
theorem takeAll_of_plain (h : r.plain a = .ok r') (args : List String) :
    r.cleared.takeAll (r.ahead (a :: args)) = r'.cleared.takeAll (r'.ahead args) := by
  unfold plain at h
  split at h
  · next f hwaits =>
    cases h
    rw [ahead, hwaits]
    rfl
  · cases h

theorem takeAll_of_argument (h : r.argument a = .ok r') (args : List String) :
    r.cleared.takeAll (r.ahead (a :: args)) = r'.cleared.takeAll (r'.ahead args) := by
  unfold argument at h
  split at h
  · next cs hcs =>
    split at h
    · next sign vs hvs =>
      exact takeAll_of_long (fun f hname => by simp only [flag?, hcs, hname, hvs]) h args
    · next hvs =>
      exact takeAll_of_long (fun f hname => by simp only [flag?, hcs, hname, hvs]) h args
  · exact absurd h short_ne_ok
  · exact takeAll_of_plain h args

/-- Arguments that are read to the end are the values of their flags, taken in turn. -/
theorem takeAll_of_arguments {args : List String} (h : r.arguments args = .ok r') :
    r.cleared.takeAll (r.ahead args) = .ok r' := by
  fun_induction arguments r args with
  | case1 r =>
    obtain ⟨-, hahead⟩ := settle_eq_ok h
    rw [hahead]
    rfl
  | case2 r =>
    obtain ⟨-, hahead⟩ := settle_eq_ok h
    have hnone : assignments ["--"] = [] := by decide +kernel
    rw [hahead, hnone]
    rfl
  | case3 r a rest => cases h
  | case4 r a rest hdashes ih =>
    obtain ⟨r₁, hargument, h⟩ := bind_eq_ok_iff.mp h
    rw [takeAll_of_argument hargument]
    exact ih r₁ h

end Arguments

section Environment

variable {env : String → Option String} {r r' : Reading}

theorem fromEnvironment_eq_ok {f : Flag} (h : fromEnvironment env r f = .ok r') :
    r'.given = r.given ∧ r.line.setAll (standIn? env r.given f).toList = .ok r'.line := by
  unfold fromEnvironment at h
  unfold standIn?
  split at h
  · next hgiven =>
    cases h
    rw [if_pos hgiven]
    exact ⟨rfl, rfl⟩
  · next hleft =>
    rw [if_neg hleft]
    split at h
    · next v hv =>
      obtain ⟨line, hset, h⟩ := bind_eq_ok_iff.mp h
      cases h
      rw [hv]
      refine ⟨rfl, ?_⟩
      show (r.line.set f v).bind _ = _
      rw [hset]
      rfl
    · next hv =>
      cases h
      rw [hv]
      exact ⟨rfl, rfl⟩

/-- The environment stands in for the flags in turn. -/
theorem setAll_of_environment {fs : List Flag}
    (h : fs.foldlM (fromEnvironment env) r = .ok r') :
    r.line.setAll (fs.filterMap (standIn? env r.given)) = .ok r'.line := by
  induction fs generalizing r with
  | nil =>
    cases h
    rfl
  | cons f fs ih =>
    obtain ⟨r₁, hfirst, h⟩ := bind_eq_ok_iff.mp h
    obtain ⟨hgiven, hline⟩ := fromEnvironment_eq_ok hfirst
    have hrest := ih h
    rw [hgiven] at hrest
    have hsplit : (f :: fs).filterMap (standIn? env r.given) =
        (standIn? env r.given f).toList ++ fs.filterMap (standIn? env r.given) := by
      cases hf : standIn? env r.given f <;> simp [hf]
    rw [hsplit, setAll_append, hline]
    exact hrest

end Environment

end Reading

section Read

variable {env : String → Option String} {args : List String} {c c' : CommandLine}

theorem standIns_fst (given : List Flag) : (standIns env given).map (·.1) =
    Flag.all.filter fun f => decide (f ∉ given) && (env f.environmentName).isSome := by
  unfold standIns
  rw [List.map_filterMap, ← List.filterMap_eq_filter]
  refine congrArg (List.filterMap · _) (funext fun f => ?_)
  unfold standIn?
  by_cases hf : f ∈ given <;> cases henv : env f.environmentName <;> simp [hf, henv, Option.guard]

/-- The environment has at most one value for a flag, and none for one that was given. -/
theorem count_standIns (given : List Flag) (f : Flag) :
    ((standIns env given).map (·.1)).count f ≤ if f ∈ given then 0 else 1 := by
  rw [standIns_fst]
  split
  · next hgiven =>
    refine Nat.le_of_eq (List.count_eq_zero_of_not_mem fun hmem => ?_)
    simp [hgiven] at hmem
  · have hall : Flag.all.count f = 1 := by cases f <;> rfl
    exact hall ▸ List.filter_sublist.count_le f

/-- A command line that is read sets what is said, in that order, over nothing. What may be said
once is said once. -/
theorem setAll_of_read (h : read env args = .ok c) :
    setAll {} (said env args) = .ok c ∧
      ∀ f, f.repeats = false → ((said env args).map (·.1)).count f ≤ 1 := by
  obtain ⟨r, harguments, h⟩ := bind_eq_ok_iff.mp h
  obtain ⟨r', henvironment, h⟩ := bind_eq_ok_iff.mp h
  cases h
  have htaken : ({} : Reading).takeAll (assignments args) = .ok r :=
    Reading.takeAll_of_arguments harguments
  obtain ⟨hline, hgiven, honce⟩ := Reading.takeAll_eq_ok htaken
  have hgiven : ∀ f, f ∈ r.given ↔ f ∈ (assignments args).map (·.1) :=
    fun f => (hgiven f).trans (or_iff_right List.not_mem_nil)
  have hstand : standIns env ((assignments args).map (·.1)) = standIns env r.given := by
    unfold standIns
    refine congrArg (List.filterMap · _) (funext fun f => ?_)
    simp only [standIn?, hgiven]
  refine ⟨?_, fun f hf => ?_⟩
  · rw [said, setAll_append, hline, hstand]
    exact Reading.setAll_of_environment henvironment
  · have hfirst : ((assignments args).map (·.1)).count f ≤ 1 :=
      Nat.le_trans (Nat.le_add_right ..) (honce f hf)
    have hsecond : ((standIns env ((assignments args).map (·.1))).map (·.1)).count f ≤ _ :=
      count_standIns ((assignments args).map (·.1)) f
    rw [said, List.map_append, List.count_append]
    split at hsecond
    · omega
    · next hnew =>
      have hzero := List.count_eq_zero_of_not_mem hnew
      omega

end Read

/-! ### What comes of each flag -/

/-- The ports in a flag's value. -/
def portsOf? (v : String) : Option (List UInt16) :=
  (Text.split ',' v.toList).mapM fun p => port? (String.ofList p)

/-- What a flag's value does to a command line. Only ports come after those that are there; all
else takes the place of what is there. -/
inductive Sets (c : CommandLine) (v : String) : Flag → CommandLine → Prop
  | host {a : IpAddress} (h : IpAddress.ofText? v = some a) :
    Sets c v .host { c with host := some a }
  | port {ps : List UInt16} (h : portsOf? v = some ps) :
    Sets c v .port { c with ports := c.ports ++ ps }
  | maxFrameSize {n : Nat} (h : natural? v = some n) (hle : n ≤ maxSize) :
    Sets c v .maxFrameSize { c with maxFrameSize := some n }
  | certificate (h : v ≠ "") : Sets c v .certificate { c with certificate := some v }
  | passphrase : Sets c v .passphrase { c with passphrase := some v }
  | settings (h : v ≠ "") : Sets c v .settings { c with settings := some v }
  | echo {b : Bool} (h : v = if b then "true" else "false") : Sets c v .echo { c with echo := b }

/-- All ports that are said, in that order. -/
def portsSaid (l : List (Flag × String)) : List UInt16 :=
  l.flatMap fun p => if p.1 = .port then (portsOf? p.2).getD [] else []

def sizeSaid (l : List (Flag × String)) : Option Nat :=
  (l.lookup .maxFrameSize).bind natural?

section Fields

variable {c c' : CommandLine} {l : List (Flag × String)}

theorem sets_of_set {f : Flag} {v : String} (h : c.set f v = .ok c') : Sets c v f c' := by
  unfold set at h
  cases f <;> dsimp only at h
  case host =>
    split at h
    · next ha =>
      cases h
      exact .host ha
    · cases h
  case port =>
    split at h
    · next hps =>
      cases h
      exact .port hps
    · cases h
  case maxFrameSize =>
    split at h
    · next hn =>
      split at h
      · next hle =>
        cases h
        exact .maxFrameSize hn hle
      · cases h
    · cases h
  case certificate =>
    split at h
    · cases h
    · next hv =>
      cases h
      exact .certificate hv
  case passphrase =>
    cases h
    exact .passphrase
  case settings =>
    split at h
    · cases h
    · next hv =>
      cases h
      exact .settings hv
  case echo =>
    split at h
    · next hv =>
      cases h
      exact .echo hv
    · split at h
      · next hv =>
        cases h
        exact .echo hv
      · cases h

/-- Ports add up. -/
theorem ports_setAll (h : c.setAll l = .ok c') : c'.ports = c.ports ++ portsSaid l := by
  induction l generalizing c with
  | nil =>
    cases h
    exact (List.append_nil _).symm
  | cons p l ih =>
    obtain ⟨f, v⟩ := p
    rw [setAll_cons] at h
    obtain ⟨c₁, hset, h⟩ := bind_eq_ok_iff.mp h
    have hfirst : c₁.ports = c.ports ++ if f = .port then (portsOf? v).getD [] else [] := by
      cases sets_of_set hset with
      | port hps => simp [hps]
      | _ => exact (List.append_nil _).symm
    rw [ih h, hfirst, List.append_assoc]
    rfl

/-- A field with a flag of its own that is said once at most is as its flag says, or as it was. -/
theorem field_setAll {β : Type} (field : CommandLine → Option β) (g : Flag)
    (parse : String → Option β)
    (hown : ∀ {c c' : CommandLine} {v : String}, Sets c v g c' →
      (parse v).isSome ∧ field c' = parse v)
    (hother : ∀ {c c' : CommandLine} {f : Flag} {v : String}, Sets c v f c' → f ≠ g →
      field c' = field c)
    (h : c.setAll l = .ok c') (honce : (l.map (·.1)).count g ≤ 1) :
    field c' = ((l.lookup g).bind parse).or (field c) := by
  induction l generalizing c with
  | nil =>
    cases h
    rfl
  | cons p l ih =>
    obtain ⟨f, v⟩ := p
    rw [setAll_cons] at h
    obtain ⟨c₁, hset, h⟩ := bind_eq_ok_iff.mp h
    have hsets := sets_of_set hset
    rw [List.map_cons, List.count_cons] at honce
    by_cases hf : f = g
    · subst hf
      obtain ⟨hparses, hvalue⟩ := hown hsets
      have hlater : (l.map (·.1)).count f = 0 := by simpa using honce
      have hnone : l.lookup f = none := by
        refine List.lookup_eq_none_iff.mpr fun p hp => ?_
        have hmem := List.count_eq_zero.mp hlater
        simpa using fun heq : f = p.1 => hmem (heq ▸ List.mem_map_of_mem hp)
      rw [ih h (by omega), hnone, hvalue]
      obtain ⟨b, hb⟩ := Option.isSome_iff_exists.mp hparses
      simp [hb]
    · have hsame := hother hsets hf
      have hskip : ((f, v) :: l).lookup g = l.lookup g := by
        rw [List.lookup_cons, beq_false_of_ne (Ne.symm hf)]
      rw [ih h (by omega), hsame, hskip]

theorem maxFrameSize_setAll (h : c.setAll l = .ok c')
    (honce : (l.map (·.1)).count .maxFrameSize ≤ 1) :
    c'.maxFrameSize = (sizeSaid l).or c.maxFrameSize := by
  refine field_setAll maxFrameSize .maxFrameSize natural? (fun hsets => ?_) (fun hsets hf => ?_)
    h honce
  · cases hsets with
    | maxFrameSize hn => exact ⟨by rw [hn]; rfl, hn.symm⟩
  · cases hsets with
    | maxFrameSize => exact absurd rfl hf
    | _ => rfl

end Fields

end WebSocketHost.CommandLine
