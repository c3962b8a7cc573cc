import WebSocketHost.Proofs.Switchboard.Course

/-! Who is registered, when connections that come and go may have the same id. Who has an
id's place is told from what was done; the registry is the same at every point, and who was
put out of a place knows of it. -/
namespace WebSocketHost

namespace Registry

variable {H : Type} {r : Registry H}

theorem nodup_erase (h : (r.entries.map (·.1)).Nodup) (id : SessionId) :
    ((r.erase id).entries.map (·.1)).Nodup :=
  h.sublist (List.filter_sublist.map _)

theorem nodup_insert (h : (r.entries.map (·.1)).Nodup) (id : SessionId) (a : H) :
    ((r.insert id a).entries.map (·.1)).Nodup := by
  refine List.nodup_cons.mpr ⟨?_, nodup_erase h id⟩
  simp [erase]

theorem mem_entries_iff (h : (r.entries.map (·.1)).Nodup) {id : SessionId} {a : H} :
    (id, a) ∈ r.entries ↔ r.lookup id = some a := by
  obtain ⟨entries⟩ := r
  unfold lookup
  induction entries with
  | nil => simp
  | cons e entries ih =>
    obtain ⟨k, b⟩ := e
    obtain ⟨hk, hrest⟩ := List.nodup_cons.mp h
    by_cases hid : id = k
    · subst hid
      have hnot : (id, a) ∉ entries := fun hmem => hk (List.mem_map.mpr ⟨_, hmem, rfl⟩)
      simp [hnot, eq_comm]
    · simp [List.lookup_cons, hid, beq_eq_false_iff_ne.mpr hid, ih hrest]

/-- To unregister a handle is to take its own entry out and no other. -/
theorem entries_unregisterIf [DecidableEq H] (h : (r.entries.map (·.1)).Nodup) (id : SessionId)
    (a : H) :
    (r.unregisterIf id (· = a)).2.entries = r.entries.filter (· ≠ (id, a)) := by
  have hsame : r.lookup id ≠ some a → r.entries = r.entries.filter (· ≠ (id, a)) := by
    intro hnot
    refine (List.filter_eq_self.mpr fun e he => decide_eq_true ?_).symm
    rintro rfl
    exact hnot ((mem_entries_iff h).mp he)
  unfold unregisterIf
  cases hlookup : r.lookup id with
  | none => exact hsame (by rw [hlookup]; nofun)
  | some b =>
    by_cases hb : b = a
    · subst hb
      simp only [decide_true, if_true]
      refine List.filter_congr fun e he => ?_
      obtain ⟨k, c⟩ := e
      have hlast : k = id → c = b := by
        rintro rfl
        exact Option.some.inj (((mem_entries_iff h).mp he).symm.trans hlookup)
      by_cases hk : k = id
      · simp [hk, hlast hk]
      · simp [hk]
    · simp only [hb, decide_false, Bool.false_eq_true, if_false]
      exact hsame (by rw [hlookup]; exact fun hnot => hb (Option.some.inj hnot))

theorem lookup_unregisterIf [DecidableEq H] (r : Registry H) (k id : SessionId) (a : H) :
    (r.unregisterIf k (· = a)).2.lookup id =
      if k = id ∧ r.lookup id = some a then none else r.lookup id := by
  by_cases hk : k = id
  · subst hk
    unfold unregisterIf
    cases hlookup : r.lookup k with
    | none => simp [hlookup]
    | some b => by_cases hb : b = a <;> simp [hb, hlookup]
  · rw [if_neg fun h => hk h.1]
    unfold unregisterIf
    split
    · split
      · exact (r.lookup_erase k id).trans (if_neg (Ne.symm hk))
      · rfl
    · rfl

end Registry

/-- After this deed nobody has the id's place who had it before. -/
def Deed.Ousts (id : SessionId) : Deed → Prop
  | task _ k .register => k = id
  | task _ _ _ => False
  | cleared => True

instance (id : SessionId) : DecidablePred (Deed.Ousts id)
  | .task _ k .register => inferInstanceAs (Decidable (k = id))
  | .task _ _ .unregister | .task _ _ (.emit _) => isFalse not_false
  | .cleared => isTrue trivial

/-- Who has the place of an id after some deeds, the latest of them first. -/
def holder (id : SessionId) : List Deed → Option Nat
  | [] => none
  | .cleared :: _ => none
  | .task n k .register :: deeds => if k = id then some n else holder id deeds
  | .task n k .unregister :: deeds =>
    if k = id ∧ holder id deeds = some n then none else holder id deeds
  | .task _ _ (.emit _) :: deeds => holder id deeds

section Holder

variable {id : SessionId} {n : Nat} {deeds later before : List Deed}

/-- Who has the place took it, and since then nobody took it and it was not given up. -/
theorem holder_eq_some (h : holder id deeds = some n) :
    ∃ later before, deeds = later ++ .task n id .register :: before ∧
      (∀ d ∈ later, ¬ d.Ousts id) ∧ .task n id .unregister ∉ later := by
  fun_induction holder id deeds with
  | case1 => cases h
  | case2 => cases h
  | case3 k deeds =>
    cases h
    exact ⟨[], deeds, rfl, nofun, nofun⟩
  | case4 k i deeds hi ih =>
    obtain ⟨later, before, rfl, hlater, hnot⟩ := ih h
    refine ⟨_ :: later, before, rfl, List.forall_mem_cons.mpr ⟨hi, hlater⟩, ?_⟩
    simpa using hnot
  | case5 => cases h
  | case6 k i deeds hi ih =>
    obtain ⟨later, before, rfl, hlater, hnot⟩ := ih h
    refine ⟨_ :: later, before, rfl, List.forall_mem_cons.mpr ⟨not_false, hlater⟩, ?_⟩
    rintro (_ | _)
    · exact hi ⟨rfl, h⟩
    · contradiction
  | case7 k i e deeds ih =>
    obtain ⟨later, before, rfl, hlater, hnot⟩ := ih h
    refine ⟨_ :: later, before, rfl, List.forall_mem_cons.mpr ⟨not_false, hlater⟩, ?_⟩
    simpa using hnot

theorem holder_append (hlater : ∀ d ∈ later, ¬ d.Ousts id)
    (hnot : .task n id .unregister ∉ later) :
    holder id (later ++ .task n id .register :: before) = some n := by
  induction later with
  | nil => exact if_pos rfl
  | cons d later ih =>
    obtain ⟨hd, hlater⟩ := List.forall_mem_cons.mp hlater
    rw [List.mem_cons, not_or] at hnot
    have hstill := ih hlater hnot.2
    rw [List.cons_append]
    cases d with
    | cleared => exact absurd trivial hd
    | task k i effect =>
      cases effect with
      | register =>
        exact (if_neg hd).trans hstill
      | unregister =>
        rw [holder, if_neg, hstill]
        rintro ⟨rfl, hk⟩
        cases hstill.symm.trans hk
        exact hnot.1 rfl
      | emit e =>
        rw [holder]
        exact hstill

/-- Nobody but the last to take a place can have it. -/
theorem eq_of_holder_append {m : Nat} (hlater : ∀ d ∈ later, ¬ d.Ousts id)
    (h : holder id (later ++ .task n id .register :: before) = some m) : m = n := by
  induction later with
  | nil => exact (Option.some.inj ((if_pos rfl).symm.trans h)).symm
  | cons d later ih =>
    obtain ⟨hd, hrest⟩ := List.forall_mem_cons.mp hlater
    rw [List.cons_append] at h
    cases d with
    | cleared => exact absurd trivial hd
    | task k i effect =>
      cases effect with
      | register => exact ih hrest ((if_neg hd).symm.trans h)
      | unregister =>
        rw [holder] at h
        split at h
        · cases h
        · exact ih hrest h
      | emit e => exact ih hrest h

/-- The first of some deeds that put out whoever had the place, if any did. -/
theorem first_ousts (id : SessionId) (deeds : List Deed) :
    (∀ d ∈ deeds, ¬ d.Ousts id) ∨ ∃ later d before, deeds = later ++ d :: before ∧ d.Ousts id ∧
      ∀ d ∈ before, ¬ d.Ousts id := by
  induction deeds with
  | nil => exact .inl nofun
  | cons d deeds ih =>
    rcases ih with hnone | ⟨later, o, before, rfl, ho, hbefore⟩
    · by_cases hd : d.Ousts id
      · exact .inr ⟨[], d, deeds, rfl, hd, hnone⟩
      · exact .inl (List.forall_mem_cons.mpr ⟨hd, hnone⟩)
    · exact .inr ⟨d :: later, o, before, rfl, ho, hbefore⟩

end Holder

/-- A connection registers before all else. -/
theorem Phase.marks_split {phase : Phase} {later before : List Mark}
    (h : phase.marks = later ++ .registers :: before) : before = [] ∧ .registers ∉ later := by
  have hlife : phase.marks = [] ∨ ∃ rest, phase.marks = rest ++ [.registers] ∧
      .registers ∉ rest := by
    cases phase with
    | entering => exact .inl rfl
    | greeting => exact .inr ⟨[], rfl, nofun⟩
    | parting => exact .inr ⟨[.unregisters, .tells true], rfl, by decide⟩
    | finished => exact .inr ⟨[.tells false, .unregisters, .tells true], rfl, by decide⟩
    | _ => exact .inr ⟨[.tells true], rfl, by decide⟩
  rcases hlife with hnone | ⟨rest, hrest, hnot⟩
  · simp [hnone] at h
  · rw [hrest] at h
    rcases List.eq_nil_or_concat before with rfl | ⟨before, mark, rfl⟩
    · obtain ⟨rfl, -⟩ := List.append_inj' h rfl
      exact ⟨rfl, hnot⟩
    · have hlonger : rest ++ [.registers] = (later ++ .registers :: before) ++ [mark] := by
        simpa using h
      obtain ⟨rfl, -⟩ := List.append_inj' hlonger rfl
      exact absurd (List.mem_append_right _ List.mem_cons_self) hnot

namespace Course

def marks (t : Course) (k : Nat) : List Mark := t.deeds.filterMap (Deed.mark? k)

/-- A connection has registered under an id. -/
def Entered (t : Course) (n : Nat) (id : SessionId) : Prop := .task n id .register ∈ t.deeds

/-- A connection has unregistered. -/
def Exited (t : Course) (n : Nat) (id : SessionId) : Prop := .task n id .unregister ∈ t.deeds

/-- The registry and the connections are what the deeds have made of them. -/
structure Sound (t : Course) : Prop where
  nodup : (t.board.hub.registry.entries.map (·.1)).Nodup
  lookup : ∀ id, t.board.lookup id = holder id t.deeds
  marks : ∀ k c, t.board.connection? k = some c → t.marks k = c.phase.marks
  absent : ∀ k, t.board.connection? k = none → t.marks k = []
  owner : ∀ n id effect, .task n id effect ∈ t.deeds →
    ∃ c, t.board.connection? n = some c ∧ c.id = id
  session : ∀ n id e, .task n id (.emit e) ∈ t.deeds → e.sessionId = id
  cancelled : ∀ later n id before, t.deeds = later ++ .task n id .register :: before →
    ∀ k, holder id before = some k → t.board.IsCancelled k

namespace Sound

variable {t : Course}

theorem ofCapacity (capacity : Nat) (h : 0 < capacity) : Sound (.ofCapacity capacity h) where
  nodup := .nil
  lookup _ := rfl
  marks _ _ hc := by cases hc
  absent _ _ := rfl
  owner _ _ _ h := by cases h
  session _ _ _ h := by cases h
  cancelled later n id before h := by
    cases later <;> cases h

theorem lt_of_holder (h : Sound t) {id : SessionId} {n : Nat} (hn : holder id t.deeds = some n) :
    n < t.board.connections.length := by
  obtain ⟨later, before, hdeeds, -, -⟩ := holder_eq_some hn
  obtain ⟨c, hc, -⟩ := h.owner n id .register (by rw [hdeeds]; simp)
  exact (List.getElem?_eq_some_iff.mp hc).1

theorem marks_move (t : Course) (m : Switchboard.Move) (k : Nat) :
    (t.move m).marks k = ((t.board.deed? m).bind (Deed.mark? k)).toList ++ t.marks k := by
  unfold Course.marks Course.move
  cases t.board.deed? m with
  | none => rfl
  | some deed =>
    show (deed :: t.deeds).filterMap _ = _
    cases hmark : deed.mark? k with
    | none => rw [List.filterMap_cons_none hmark, Option.bind_some, hmark]; rfl
    | some mark => rw [List.filterMap_cons_some hmark, Option.bind_some, hmark]; rfl

theorem nodup_after (h : Sound t) (deed : Option Deed) :
    ((t.board.hub.after deed).registry.entries.map (·.1)).Nodup := by
  match deed with
  | none => exact h.nodup
  | some .cleared => exact .nil
  | some (.task n id .register) => exact Registry.nodup_insert h.nodup id n
  | some (.task n id .unregister) =>
    show (((t.board.hub.registry.unregisterIf id (· = n)).2).entries.map (·.1)).Nodup
    rw [Registry.entries_unregisterIf h.nodup]
    exact h.nodup.sublist (List.filter_sublist.map _)
  | some (.task n id (.emit e)) => exact h.nodup

theorem lookup_after (h : Sound t) (deed : Option Deed) (id : SessionId) :
    (t.board.hub.after deed).registry.lookup id = holder id (deed.toList ++ t.deeds) := by
  have hold := h.lookup
  match deed with
  | none => exact hold id
  | some .cleared => rfl
  | some (.task n k .register) =>
    show (t.board.hub.registry.insert k n).lookup id = if k = id then some n else holder id t.deeds
    rw [Registry.lookup_insert, ← hold id]
    simp only [eq_comm]
    rfl
  | some (.task n k .unregister) =>
    show (t.board.hub.registry.unregisterIf k (· = n)).2.lookup id =
      if k = id ∧ holder id t.deeds = some n then none else holder id t.deeds
    rw [Registry.lookup_unregisterIf, ← hold id]
    rfl
  | some (.task n k (.emit e)) => exact hold id

theorem marks_connection (h : Sound t) (m : Switchboard.Move) {k : Nat} {c : Connection}
    (hc : (t.move m).board.connection? k = some c) : (t.move m).marks k = c.phase.marks := by
  have o := Switchboard.outcome_move t.board m
  rw [marks_move]
  cases hbefore : t.board.connection? k with
  | none =>
    obtain ⟨hnone, hnew⟩ := o.connection?_of_none hbefore
    rw [hnone, h.absent k hbefore, hnew c hc]
    rfl
  | some d =>
    obtain ⟨e, he, -, hphase, -⟩ := o.connection? hbefore
    cases he.symm.trans hc
    rw [h.marks k d hbefore, hphase]

theorem marks_absent (h : Sound t) (m : Switchboard.Move) {k : Nat}
    (hk : (t.move m).board.connection? k = none) : (t.move m).marks k = [] := by
  have o := Switchboard.outcome_move t.board m
  rw [marks_move]
  cases hbefore : t.board.connection? k with
  | none =>
    rw [(o.connection?_of_none hbefore).1, h.absent k hbefore]
    rfl
  | some d =>
    obtain ⟨e, he, -⟩ := o.connection? hbefore
    cases he.symm.trans hk

theorem owner_move (h : Sound t) (m : Switchboard.Move) {n : Nat} {id : SessionId}
    {effect : Effect} (hmem : .task n id effect ∈ (t.move m).deeds) :
    ∃ c, (t.move m).board.connection? n = some c ∧ c.id = id := by
  have o := Switchboard.outcome_move t.board m
  have hbefore : ∃ c, t.board.connection? n = some c ∧ c.id = id := by
    rcases List.mem_append.mp hmem with hnew | hold
    · obtain ⟨c, hc, hid, -⟩ := (Option.mem_toList.mp hnew ▸ o).connection?_of_task
      exact ⟨c, hc, hid⟩
    · exact h.owner n id effect hold
  obtain ⟨c, hc, rfl⟩ := hbefore
  obtain ⟨d, hd, hid, -⟩ := o.connection? hc
  exact ⟨d, hd, hid⟩

theorem session_move (h : Sound t) (m : Switchboard.Move) {n : Nat} {id : SessionId} {e : Event}
    (hmem : .task n id (.emit e) ∈ (t.move m).deeds) : e.sessionId = id := by
  rcases List.mem_append.mp hmem with hnew | hold
  · have o := Switchboard.outcome_move t.board m
    obtain ⟨c, -, -, hsession⟩ := (Option.mem_toList.mp hnew ▸ o).connection?_of_task
    exact hsession e rfl
  · exact h.session n id e hold

/-- Only a deed done now can put out a connection that was not cancelled for it before. -/
theorem cancelled_move (h : Sound t) (m : Switchboard.Move) {later before : List Deed} {n : Nat}
    {id : SessionId} (hdeeds : (t.move m).deeds = later ++ .task n id .register :: before)
    {k : Nat} (hk : holder id before = some k) : (t.move m).board.IsCancelled k := by
  have o := Switchboard.outcome_move t.board m
  have hold : ∀ later, t.deeds = later ++ .task n id .register :: before →
      (t.move m).board.IsCancelled k :=
    fun later hdeeds => o.isCancelled (h.cancelled later n id before hdeeds k hk)
  have hdeeds : (t.board.deed? m).toList ++ t.deeds = later ++ .task n id .register :: before :=
    hdeeds
  cases hdeed : t.board.deed? m with
  | none =>
    rw [hdeed] at hdeeds
    exact hold later hdeeds
  | some deed =>
    rw [hdeed] at hdeeds
    cases later with
    | nil =>
      cases hdeeds
      exact (hdeed ▸ o).isCancelled_of_register ((h.lookup id).trans hk) (h.lt_of_holder hk)
    | cons _ later => exact hold later (List.cons.inj hdeeds).2

theorem move (h : Sound t) (m : Switchboard.Move) : Sound (t.move m) where
  nodup := by
    show ((t.board.move m).hub.registry.entries.map (·.1)).Nodup
    rw [(Switchboard.outcome_move t.board m).hub]
    exact h.nodup_after _
  lookup id := by
    show (t.board.move m).hub.registry.lookup id = _
    rw [(Switchboard.outcome_move t.board m).hub]
    exact h.lookup_after _ id
  marks _ _ hc := h.marks_connection m hc
  absent _ hk := h.marks_absent m hk
  owner _ _ _ hmem := h.owner_move m hmem
  session _ _ _ hmem := h.session_move m hmem
  cancelled _ _ _ _ hdeeds _ hk := h.cancelled_move m hdeeds hk

theorem run (h : Sound t) (moves : List Switchboard.Move) : Sound (t.run moves) := by
  induction moves generalizing t with
  | nil => exact h
  | cons m moves ih => exact ih (h.move m)

/-- A connection registers once, and before it does anything else. -/
theorem marks_split (h : Sound t) {later before : List Deed} {n : Nat} {id : SessionId}
    (hdeeds : t.deeds = later ++ .task n id .register :: before) :
    before.filterMap (Deed.mark? n) = [] ∧ .registers ∉ later.filterMap (Deed.mark? n) := by
  obtain ⟨c, hc, -⟩ := h.owner n id .register (by rw [hdeeds]; simp)
  refine @Phase.marks_split c.phase _ _ ?_
  rw [← h.marks n c hc, Course.marks, hdeeds, List.filterMap_append,
    List.filterMap_cons_some (Deed.mark?_self n id .register)]

/-- An entry belongs to the connection that registered last, and that is still there. -/
theorem of_mem_entries (h : Sound t) {id : SessionId} {n : Nat}
    (hmem : (id, n) ∈ t.board.hub.registry.entries) :
    ¬ t.Exited n id ∧ ∃ later before, t.deeds = later ++ .task n id .register :: before ∧
      ∀ d ∈ later, ¬ d.Ousts id := by
  have hholder : holder id t.deeds = some n :=
    (h.lookup id).symm.trans ((Registry.mem_entries_iff h.nodup).mp hmem)
  obtain ⟨later, before, hdeeds, hlater, hnot⟩ := holder_eq_some hholder
  refine ⟨fun hexit => ?_, later, before, hdeeds, hlater⟩
  rw [Exited, hdeeds, List.mem_append, List.mem_cons] at hexit
  rcases hexit with hexit | hexit | hexit
  · exact hnot hexit
  · cases hexit
  · have hmark : Mark.unregisters ∈ before.filterMap (Deed.mark? n) :=
      List.mem_filterMap.mpr ⟨_, hexit, if_pos rfl⟩
    rw [(h.marks_split hdeeds).1] at hmark
    cases hmark

/-- A connection that is still there and has no entry was put out of its place. -/
theorem of_not_mem_entries (h : Sound t) {id : SessionId} {n : Nat} (henter : t.Entered n id)
    (hexit : ¬ t.Exited n id) (hmem : (id, n) ∉ t.board.hub.registry.entries) :
    ∃ later d mid before, t.deeds = later ++ d :: (mid ++ .task n id .register :: before) ∧
      (∀ d ∈ mid, ¬ d.Ousts id) ∧
      (d = .cleared ∨ (∃ k, k ≠ n ∧ d = .task k id .register) ∧ t.board.IsCancelled n) := by
  obtain ⟨after, before, hdeeds⟩ := List.append_of_mem henter
  have hstays : ∀ mid, (∀ d ∈ mid, d ∈ after) → (∀ d ∈ mid, ¬ d.Ousts id) →
      holder id (mid ++ .task n id .register :: before) = some n := by
    intro mid hsub hmid
    refine holder_append hmid fun hgone => hexit ?_
    rw [Exited, hdeeds]
    exact List.mem_append_left _ (hsub _ hgone)
  rcases first_ousts id after with hnone | ⟨later, d, mid, rfl, hd, hmid⟩
  · refine absurd ((Registry.mem_entries_iff h.nodup).mpr ((h.lookup id).trans ?_)) hmem
    rw [hdeeds]
    exact hstays after (fun _ hd => hd) hnone
  · have hdeeds : t.deeds = later ++ d :: (mid ++ .task n id .register :: before) := by
      rw [hdeeds, List.append_assoc, List.cons_append]
    refine ⟨later, d, mid, before, hdeeds, hmid, ?_⟩
    cases d with
    | cleared => exact .inl rfl
    | task k i effect =>
      cases effect with
      | unregister => exact hd.elim
      | emit e => exact hd.elim
      | register =>
        cases hd
        have hmine := hstays mid (fun d hd => by simp [hd]) hmid
        refine .inr ⟨⟨k, ?_, rfl⟩, h.cancelled later k id _ hdeeds n hmine⟩
        rintro rfl
        have hmark := (h.marks_split hdeeds).1
        rw [List.filterMap_append, List.append_eq_nil_iff] at hmark
        simp [Deed.mark?, Effect.mark?] at hmark

end Sound

/-- However connections that may have the same id come, step, are cancelled and go, and
whenever the registry is emptied: an id has one entry at most; an entry belongs to a
connection with that id that has entered, last of all with it, and not exited; an exit takes
out its own entry and no other; who has entered and not exited is registered unless the
first deed to put it out was the emptying of the registry or another's entering, by which it
was cancelled; and when all have exited there is no entry. -/
theorem entries_run (capacity : Nat) (hcapacity : 0 < capacity) (moves : List Switchboard.Move) :
    let t := (ofCapacity capacity hcapacity).run moves
    let entries := t.board.hub.registry.entries
    (entries.map (·.1)).Nodup ∧
    (∀ id n, (id, n) ∈ entries →
      (∃ c, t.board.connection? n = some c ∧ c.id = id) ∧ t.Entered n id ∧ ¬ t.Exited n id) ∧
    (∀ m n id, t.board.deed? m = some (.task n id .unregister) →
      (t.move m).board.hub.registry.entries = entries.filter (· ≠ (id, n))) ∧
    (∀ id n, t.Entered n id → ¬ t.Exited n id → (id, n) ∉ entries →
      ∃ later d mid before, t.deeds = later ++ d :: (mid ++ .task n id .register :: before) ∧
        (∀ d ∈ mid, ¬ d.Ousts id) ∧
        (d = .cleared ∨ (∃ k, k ≠ n ∧ d = .task k id .register) ∧ t.board.IsCancelled n)) ∧
    (∀ id n, (id, n) ∈ entries →
      ∃ later before, t.deeds = later ++ .task n id .register :: before ∧
        ∀ k, .task k id .register ∉ later) ∧
    ((∀ n id, t.Entered n id → t.Exited n id) → entries = []) := by
  intro t entries
  have h : Sound t := (Sound.ofCapacity capacity hcapacity).run moves
  have hentered : ∀ id n, (id, n) ∈ entries → t.Entered n id := by
    intro id n hmem
    obtain ⟨-, later, before, hdeeds, -⟩ := h.of_mem_entries hmem
    rw [Entered, hdeeds]
    simp
  refine ⟨h.nodup, fun id n hmem => ?_, fun m n id hdeed => ?_,
    fun id n => h.of_not_mem_entries, fun id n hmem => ?_, fun hall => ?_⟩
  · have henter := hentered id n hmem
    exact ⟨h.owner n id .register henter, henter, (h.of_mem_entries hmem).1⟩
  · show (t.board.move m).hub.registry.entries = _
    rw [(Switchboard.outcome_move t.board m).hub, hdeed]
    exact Registry.entries_unregisterIf h.nodup id n
  · obtain ⟨-, later, before, hdeeds, hlater⟩ := h.of_mem_entries hmem
    exact ⟨later, before, hdeeds, fun k hk => hlater _ hk rfl⟩
  · refine List.eq_nil_iff_forall_not_mem.mpr fun ⟨id, n⟩ hmem => ?_
    exact (h.of_mem_entries hmem).1 (hall n id (hentered id n hmem))

/-- Two connections with one id: the second puts out the first, which exits late. -/
theorem entries_run_late_exit :
    let opening : Switchboard.Move := .openConnection "a:1" 125 (.ofSeconds 1) [] false
    let moves := [opening, opening] ++ List.replicate 3 (.step 0) ++ [.step 1] ++
      List.replicate 4 (.step 0)
    let t := (ofCapacity 1 Nat.one_pos).run moves
    t.board.deed? (.step 0) = some (.task 0 "a:1" .unregister) ∧
      (t.move (.step 0)).board.hub.registry.entries = [("a:1", 1)] ∧
      t.Entered 1 "a:1" ∧ ¬ t.Exited 1 "a:1" := by
  intro opening moves
  have hdeed : ((ofCapacity 1 Nat.one_pos).run moves).board.deed? (.step 0) =
      some (.task 0 "a:1" .unregister) := by decide +kernel
  have hentries : ((ofCapacity 1 Nat.one_pos).run moves).board.hub.registry.entries =
      [("a:1", 1)] := by decide +kernel
  have hall := entries_run 1 Nat.one_pos moves
  -- the rest does not look into the run
  generalize (ofCapacity 1 Nat.one_pos).run moves = t at hdeed hentries hall ⊢
  obtain ⟨-, howner, hexit, -⟩ := hall
  refine ⟨hdeed, (hexit (.step 0) 0 "a:1" hdeed).trans ?_, (howner "a:1" 1 ?_).2⟩
  · rw [hentries]
    decide
  · rw [hentries]
    simp

end Course

end WebSocketHost
