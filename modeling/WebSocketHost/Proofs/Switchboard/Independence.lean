import WebSocketHost.Proofs.Switchboard.Following

/-! Connections that share a hub do not influence each other. Each of two runs is compared
with a view of one connection, so no relation between the runs is needed. -/
namespace WebSocketHost

open Switchboard (Act Given Move Opening)

/-! ### What there is to see of a run -/

theorem destutter_cons {α : Type} [DecidableEq α] (a : α) (l : List α) :
    (a :: l).destutter (· ≠ ·) =
      if l.head? = some a then l.destutter (· ≠ ·) else a :: l.destutter (· ≠ ·) := by
  cases l with
  | nil => rfl
  | cons b l =>
    rw [List.destutter_cons_cons, List.destutter_cons']
    by_cases hab : a = b
    · subst hab
      simp
    · simp [hab, Ne.symm hab]

theorem Journal.head?_sights (id : SessionId) (j : Journal) (acts : List Act) :
    (j.sights id acts).head? = some (j.sight id) := by
  cases acts <;> rfl

theorem View.head?_sights (v : View) (gs : List Given) : (v.sights gs).head? = some v.sight := by
  cases gs <;> rfl

variable {id : SessionId}

/-- Apart from repetitions, there is the same to see in a run as in the view. -/
theorem View.Shows.sights {n start t : Nat} {v : View} {j : Journal}
    (h : Shows id n start v t j) {acts : List Act} (hacts : ∀ a ∈ acts, a.isOpeningOf id = false) :
    (j.sights id acts).destutter (· ≠ ·) =
      (v.sights (Switchboard.givenSince id n t acts)).destutter (· ≠ ·) := by
  induction acts generalizing v t j with
  | nil => exact congrArg (fun s => [s]) h.sight
  | cons a acts ih =>
    obtain ⟨ha, hacts⟩ := List.forall_mem_cons.mp hacts
    have hnext := h.act ha
    have hlater := ih hnext hacts
    unfold Journal.sights Switchboard.givenSince
    rw [destutter_cons, Journal.head?_sights, hlater, h.sight, hnext.sight]
    cases a.given? id n t with
    | none => exact if_pos rfl
    | some g =>
      show _ = (v.sight :: (v.give g).sights _).destutter _
      rw [destutter_cons, View.head?_sights]
      rfl

/-! ### Before the opening -/

/-- There are `k` connections, and none of them has the id. -/
structure Absent (id : SessionId) (k : Nat) (isStopping : Bool) (j : Journal) : Prop where
  owned : j.board.Owned
  openings : j.board.connections.length = k
  stopping : j.board.isStopping = isStopping
  outside : ∀ n ∈ j.board.outside, n < k
  absent : id ∉ j.board.ids
  told : toldAs id j.entries = []
  about : ∀ e ∈ j.entries, e.1 < k

namespace Absent

variable {k : Nat} {isStopping : Bool} {j : Journal} {m : Move}

theorem ofCapacity (capacity : Nat) (h : 0 < capacity) :
    Absent id 0 false (.ofCapacity capacity h) where
  owned := nofun
  openings := rfl
  stopping := rfl
  outside := nofun
  absent := nofun
  told := rfl
  about := nofun

theorem lookup (h : Absent id k isStopping j) : j.board.lookup id = none := by
  cases hlookup : j.board.lookup id with
  | none => rfl
  | some n => exact absurd (List.mem_of_getElem? (h.owned.lookup hlookup)) h.absent

theorem sight (h : Absent id k isStopping j) : j.sight id = {} := by
  have hlookup : j.board.hub.registry.lookup id = none := h.lookup
  have hof : j.ofId id = [] := by
    apply List.filterMap_eq_nil_iff.mpr
    intro e _
    apply if_neg
    intro hid
    exact h.absent (List.mem_of_getElem? hid)
  unfold Journal.sight Switchboard.isActive Registry.isActive Registry.contains
  rw [h.told, hof, hlookup]
  rfl

theorem move (h : Absent id k isStopping j) (hopens : m.opens? ≠ some id)
    (hhold : ∀ n, m = .hold n → n < k) :
    Absent id (k + m.opens?.toList.length) (m.stops isStopping) (j.move m) where
  owned := Switchboard.owned_move h.owned m
  openings := by
    have hlength := congrArg List.length (j.board.ids_move m)
    simp only [Switchboard.ids, List.length_append, List.length_map] at hlength
    rw [← h.openings]
    exact hlength
  stopping := by
    show (j.board.move m).isStopping = _
    rw [(j.board.kept_move m).isStopping, ← h.stopping]
  outside := by
    show ∀ n ∈ (j.board.move m).outside, _
    rw [(j.board.kept_move m).outside]
    intro n hn
    have hlt : n < k := by
      cases m with
      | hold k =>
        rcases List.mem_cons.mp hn with rfl | hn
        · exact hhold _ rfl
        · exact h.outside n hn
      | release k => exact h.outside n (List.mem_of_mem_erase hn)
      | _ => exact h.outside n hn
    omega
  absent := by
    show id ∉ (j.board.move m).ids
    rw [Switchboard.ids_move]
    intro hmem
    rcases List.mem_append.mp hmem with hmem | hmem
    · exact h.absent hmem
    · exact hopens (Option.mem_toList.mp hmem)
  told := by
    have hnew : toldAs id (j.board.entries m) = [] := by
      cases m with
      | step n =>
        apply Switchboard.toldAs_entries_of_ne
        rintro c hc rfl
        exact h.absent (List.mem_map.mpr ⟨c, List.mem_of_getElem? hc, rfl⟩)
      | _ =>
        apply Switchboard.toldAs_entries_of_no_step
        intro n hstep
        cases hstep
    show toldAs id (j.entries ++ _) = []
    unfold toldAs at hnew ⊢
    rw [List.filterMap_append, List.filter_append, hnew]
    exact (List.append_nil _).trans h.told
  about := by
    intro e he
    rcases List.mem_append.mp he with he | he
    · have := h.about e he
      omega
    · have := Switchboard.lt_of_mem_entries he
      have := h.openings
      omega

theorem act (h : Absent id k isStopping j) {a : Act} (hopen : ∀ i o, a ≠ .openConnection i o)
    (hshutdown : a ≠ .shutdown) : Absent id k isStopping (j.act a) := by
  unfold Journal.act
  cases hm : a.move? j.board with
  | none => exact h
  | some m =>
    have hplain : m.opens? = none ∧ m.stops isStopping = isStopping := by
      cases a with
      | openConnection i o => exact absurd rfl (hopen i o)
      | shutdown => exact absurd rfl hshutdown
      | touch n x =>
        cases hm
        cases x <;> exact ⟨rfl, rfl⟩
      | sendTo | keep =>
        obtain ⟨n, -, rfl⟩ := Option.map_eq_some_iff.mp hm
        exact ⟨rfl, rfl⟩
      | step | evict | advance =>
        cases hm
        exact ⟨rfl, rfl⟩
    have hhold : ∀ n, m = .hold n → n < k := by
      rintro n rfl
      cases a with
      | keep i =>
        obtain ⟨n, hn, heq⟩ := Option.map_eq_some_iff.mp hm
        cases heq
        have hlt := (List.getElem?_eq_some_iff.mp (h.owned.lookup hn)).1
        rw [← h.openings]
        rwa [Switchboard.ids, List.length_map] at hlt
      | touch n x => cases x <;> cases hm
      | sendTo =>
        obtain ⟨n, -, heq⟩ := Option.map_eq_some_iff.mp hm
        cases heq
      | _ => cases hm
    have hopens : m.opens? ≠ some id := by simp [hplain.1]
    have hnext := h.move hopens hhold
    rwa [hplain.1, hplain.2] at hnext

/-- The view of a connection begins with its opening. -/
theorem opening (h : Absent id k isStopping j) (o : Opening) :
    View.Shows id k j.board.now
      (.opened id { o with isCancelled := o.isCancelled || isStopping }) 0
      (j.act (.openConnection id o)) where
  owned := Switchboard.owned_move h.owned _
  sole := by
    have hlength : j.board.ids.length = k := by
      rw [Switchboard.ids, List.length_map, h.openings]
    have hids : (j.act (.openConnection id o)).board.ids = j.board.ids ++ [id] :=
      j.board.ids_move _
    constructor
    · rw [hids, ← hlength]
      exact List.getElem?_concat_length
    · intro n hn
      rw [hids] at hn
      have hlt := (List.getElem?_eq_some_iff.mp hn).1
      by_cases hbefore : n < j.board.ids.length
      · rw [List.getElem?_append_left hbefore] at hn
        exact absurd (List.mem_of_getElem? hn) h.absent
      · simp only [List.length_append, List.length_singleton] at hlt
        omega
  connection := by
    rw [← h.openings, ← h.stopping]
    exact (Switchboard.connection?_wake _ _ _).trans List.getElem?_concat_length
  clock := (j.board.kept_move _).now
  lookup := by
    have hlookup : (j.act (.openConnection id o)).board.lookup id = j.board.lookup id :=
      Switchboard.lookup_of_deed?_eq_none rfl
    exact hlookup.trans h.lookup
  handles := by
    have houtside := (j.board.kept_move
      (.openConnection id o.maxFrame o.closeTimeout o.leftover o.isCancelled)).outside
    show (j.board.move _).outside.count k = 0
    rw [houtside]
    apply List.count_eq_zero.mpr
    intro hk
    exact Nat.lt_irrefl k (h.outside k hk)
  told := by
    show toldAs id (j.entries ++ []) = []
    rw [List.append_nil, h.told]
  written := by
    have hof : (j.act (.openConnection id o)).of k = [] := by
      show aboutOf k (j.entries ++ []) = []
      rw [List.append_nil]
      apply List.filterMap_eq_nil_iff.mpr
      intro e he
      exact if_neg (Nat.ne_of_lt (h.about e he))
    rw [hof]
    rfl

end Absent

/-- What there is to see of a connection that is given so much and no more. -/
def View.seen (id : SessionId) : Option (Opening × List Given) → List Sight
  | none => [{}]
  | some (o, gs) => {} :: (View.opened id o).sights gs

theorem Absent.sights_cons {k k' : Nat} {isStopping isStopping' : Bool} {j : Journal} {a : Act}
    (h : Absent id k isStopping j) (h' : Absent id k' isStopping' (j.act a)) (acts : List Act) :
    (j.sights id (a :: acts)).destutter (· ≠ ·) =
      ((j.act a).sights id acts).destutter (· ≠ ·) := by
  rw [Journal.sights, destutter_cons, Journal.head?_sights, h.sight, h'.sight, if_pos rfl]

theorem givenBehind_cons (k : Nat) (isStopping : Bool) {a : Act}
    (hopen : ∀ i o, a ≠ .openConnection i o) (hshutdown : a ≠ .shutdown) (acts : List Act) :
    Switchboard.givenBehind id k isStopping (a :: acts) =
      Switchboard.givenBehind id k isStopping acts := by
  cases a with
  | openConnection i o => exact absurd rfl (hopen i o)
  | shutdown => exact absurd rfl hshutdown
  | _ => rfl

theorem Absent.sights {k : Nat} {isStopping : Bool} {j : Journal} (h : Absent id k isStopping j)
    {acts : List Act} (hone : acts.countP (·.isOpeningOf id) ≤ 1) :
    (j.sights id acts).destutter (· ≠ ·) =
      (View.seen id (Switchboard.givenBehind id k isStopping acts)).destutter (· ≠ ·) := by
  induction acts generalizing k isStopping j with
  | nil => exact congrArg (fun s => [s]) h.sight
  | cons a acts ih =>
    have hrest : acts.countP (·.isOpeningOf id) ≤ 1 :=
      Nat.le_trans (List.sublist_cons_self a acts).countP_le hone
    have hplain (hopen : ∀ i o, a ≠ .openConnection i o) (hshutdown : a ≠ .shutdown) :
        (j.sights id (a :: acts)).destutter (· ≠ ·) =
          (View.seen id (Switchboard.givenBehind id k isStopping (a :: acts))).destutter
            (· ≠ ·) := by
      have hnext := h.act hopen hshutdown
      rw [h.sights_cons hnext, ih hnext hrest, givenBehind_cons k isStopping hopen hshutdown]
    cases a with
    | openConnection i o =>
      by_cases hi : i = id
      · subst hi
        have hlast : acts.countP (·.isOpeningOf i) = 0 := by
          rw [List.countP_cons_of_pos (by simp [Act.isOpeningOf])] at hone
          omega
        have hacts : ∀ a ∈ acts, a.isOpeningOf i = false := by
          simpa [List.countP_eq_zero] using hlast
        have hshows := h.opening o
        simp only [Switchboard.givenBehind, if_pos, View.seen]
        rw [Journal.sights, destutter_cons, destutter_cons, Journal.head?_sights, View.head?_sights,
          hshows.sights hacts, hshows.sight, h.sight]
      · have hnext : Absent id (k + 1) isStopping (j.act (.openConnection i o)) :=
          h.move (m := .openConnection i o.maxFrame o.closeTimeout o.leftover o.isCancelled)
            (fun heq => hi (Option.some.inj heq)) (fun _ heq => by cases heq)
        rw [h.sights_cons hnext, ih hnext hrest]
        simp only [Switchboard.givenBehind, hi, if_false]
    | shutdown =>
      have hnext : Absent id k true (j.act .shutdown) :=
        h.move (m := .shutdown) (fun heq => by cases heq) (fun _ heq => by cases heq)
      rw [h.sights_cons hnext, ih hnext hrest]
      rfl
    | _ => exact hplain nofun nofun

theorem View.seen_of_givesAlike {acts acts' : List Act}
    (h : Switchboard.givesAlike id acts acts' = true) :
    View.seen id (Switchboard.given id acts) = View.seen id (Switchboard.given id acts') := by
  unfold Switchboard.givesAlike at h
  split at h
  · next hnone hnone' => rw [hnone, hnone']
  · next o gs o' gs' hsome hsome' =>
    obtain ⟨hsame, halike⟩ := Bool.and_eq_true_iff.mp h
    have hsame : o = o' := of_decide_eq_true hsame
    subst hsame
    rw [hsome, hsome']
    exact congrArg (List.cons {}) ((View.Matches.opened id o).sights halike)
  · cases h

namespace Journal

/-- Connections do not influence each other. Two runs, on hubs of any capacity, that give the
same to the one connection of an id have the same to see of it, one sight after another:
events with its id, bytes written to its transport, whether it is registered and active.
What is given to it is how it was opened, what its peer sends and takes, what is sent to its
id or through a handle, that it is cancelled or evicted, when it takes a step, and which of
its deadlines have passed by then; in between anything may happen to any other connection,
and take its time. -/
theorem sights_eq_of_givesAlike (id : SessionId) {capacity capacity' : Nat} (h : 0 < capacity)
    (h' : 0 < capacity') {acts acts' : List Act} (hone : acts.countP (·.isOpeningOf id) ≤ 1)
    (hone' : acts'.countP (·.isOpeningOf id) ≤ 1)
    (hgiven : Switchboard.givesAlike id acts acts' = true) :
    ((ofCapacity capacity h).sights id acts).destutter (· ≠ ·) =
      ((ofCapacity capacity' h').sights id acts').destutter (· ≠ ·) := by
  have hseen := View.seen_of_givesAlike hgiven
  rw [(Absent.ofCapacity capacity h).sights hone, (Absent.ofCapacity capacity' h').sights hone']
  exact congrArg (·.destutter (· ≠ ·)) hseen

/-- A connection, alone on its hub, whose peer says hi. -/
def undisturbed : List Act :=
  [.openConnection "a" ⟨1024, .ofSeconds 1, [], false⟩, .step 0, .step 0, .step 0,
    .touch 0 (.arrive [0x81, 0x82, 0, 0, 0, 0, 0x68, 0x69]), .step 0, .step 0, .step 0]

/-- The same, with delays, beside one whose peer uses an opcode that there is not. -/
def besideOffender : List Act :=
  [.openConnection "b" ⟨1024, .ofSeconds 1, [0x83, 0x80, 0, 0, 0, 0], false⟩, .step 0, .advance 5,
    .openConnection "a" ⟨1024, .ofSeconds 1, [], false⟩, .step 0, .step 1, .sendTo "b" (.text "?"),
    .advance 5, .step 1, .step 0, .step 1, .step 0, .keep "b",
    .touch 1 (.arrive [0x81, 0x82, 0, 0, 0, 0, 0x68, 0x69]),
    .step 1, .step 0, .step 1, .step 0, .step 0, .step 1]

theorem sights_beside_offender :
    ((ofCapacity 8 (by decide)).sights "a" undisturbed).destutter (· ≠ ·) =
      ((ofCapacity 1 (by decide)).sights "a" besideOffender).destutter (· ≠ ·) :=
  sights_eq_of_givesAlike "a" (by decide) (by decide) (by decide) (by decide) (by decide)

example : ((ofCapacity 1 (by decide)).sights "a" besideOffender).getLast? =
    some ⟨[.connected "a", .text "a" "hi"], [], true, true⟩ := by decide +kernel

example : (((ofCapacity 1 (by decide)).sights "b" besideOffender).getLast?.map (·.told)) =
    some [.connected "b", .closed "b" .protocol] := by decide +kernel

end Journal

end WebSocketHost
