import Mathlib.Data.List.Basic
import WebSocketHost.Proofs.Switchboard.Places

/-! What is told of who is connected, against who is registered. Connections with one id are
told of independently: one that was put out of its place tells its end behind the beginning
of the other. The registry goes with what its last connection has told, and with what was
told last of all wherever the connections do not overlap. -/
namespace WebSocketHost

/-- A status that comes with a deed. -/
def Deed.status? : Deed → Option Status
  | task _ _ (.emit e) => e.status?
  | _ => none

/-- A status that one connection tells. -/
def Deed.statusBy? (n : Nat) : Deed → Option Status
  | task k _ (.emit e) => if k = n then e.status? else none
  | _ => none

/-- Whether a connection is online, as it tells. -/
def Mark.tells? : Mark → Option Bool
  | tells isConnect => some isConnect
  | _ => none

/-- Between a change of the registry and the event that tells of it. -/
def Phase.isTurning : Phase → Bool
  | greeting | parting _ => true
  | _ => false

/-- At no turn, a connection has not begun, or has told its beginning, or its end. -/
theorem Phase.marks_of_isTurning {phase : Phase} (h : phase.isTurning = false) :
    phase.marks = [] ∨ phase.marks = [.tells true, .registers] ∨
      phase.marks = [.tells false, .unregisters, .tells true, .registers] := by
  cases phase with
  | entering => exact .inl rfl
  | greeting => cases h
  | parting => cases h
  | finished => exact .inr (.inr rfl)
  | _ => exact .inr (.inl rfl)

/-- With its end a connection has told all. -/
theorem Phase.marks_ended {phase : Phase} {later before : List Mark}
    (h : phase.marks = later ++ before) (hend : .tells false ∈ before) : later = [] := by
  cases later with
  | nil => rfl
  | cons mark later =>
    have hrest : phase.marks.tail = later ++ before := by rw [h]; rfl
    have hmem : Mark.tells false ∈ phase.marks.tail := hrest ▸ List.mem_append_right later hend
    cases phase <;> simp [Phase.marks] at hmem

theorem Phase.eq_finished {phase : Phase} (h : phase.marks = Phase.finished.marks) :
    phase = .finished := by
  cases phase with
  | finished => rfl
  | _ => cases h

theorem Phase.registers_mem_marks {phase : Phase} {mark : Mark} (h : mark ∈ phase.marks) :
    .registers ∈ phase.marks := by
  cases phase with
  | entering => cases h
  | _ => simp [Phase.marks]

namespace Effect

theorem eq_register {effect : Effect} (h : effect.mark? = some .registers) :
    effect = .register := by
  cases effect with
  | register => rfl
  | unregister => cases h
  | emit e => simp [mark?, Event.mark?] at h

theorem eq_unregister {effect : Effect} (h : effect.mark? = some .unregisters) :
    effect = .unregister := by
  cases effect with
  | register => cases h
  | unregister => rfl
  | emit e => simp [mark?, Event.mark?] at h

theorem exists_eq_emit {effect : Effect} {isConnect : Bool}
    (h : effect.mark? = some (.tells isConnect)) :
    ∃ e s, effect = .emit e ∧ e.status? = some s := by
  cases effect with
  | register => cases h
  | unregister => cases h
  | emit e =>
    obtain ⟨s, hs, -⟩ := Option.map_eq_some_iff.mp h
    exact ⟨e, s, rfl, hs⟩

end Effect

namespace Event

theorem sessionId_of_status? {e : Event} {s : Status} (h : e.status? = some s) :
    s.sessionId = e.sessionId := by
  cases e <;> cases h <;> rfl

theorem mark?_of_isTerminal {e : Event} (h : e.isTerminal = true) :
    e.mark? = some (.tells false) := by
  cases e with
  | disconnected | closed => rfl
  | _ => cases h

end Event

namespace Bus

theorem publish_of_status? {b : Bus} {e : Event} {s : Status} (h : e.status? = some s) :
    b.publish e =
      { b with latestStatus := b.latestStatus.replace (some s), statuses := b.statuses.send s } := by
  unfold publish
  rw [h]

theorem publish_of_status?_eq_none {b : Bus} {e : Event} (h : e.status? = none) :
    (b.publish e).statuses = b.statuses ∧ (b.publish e).latestStatus = b.latestStatus := by
  unfold publish
  rw [h]
  dsimp only
  split <;> exact ⟨rfl, rfl⟩

end Bus

namespace Course

/-- The statuses published, the latest first. -/
def published (t : Course) : List Status := t.deeds.filterMap Deed.status?

def publishedFor (t : Course) (id : SessionId) : List Status :=
  t.published.filter (·.sessionId = id)

def publishedBy (t : Course) (n : Nat) : List Status := t.deeds.filterMap (Deed.statusBy? n)

/-- No connection is at a turn. -/
def Quiet (t : Course) : Prop := ∀ c ∈ t.board.connections, c.phase.isTurning = false

/-- The last to register under an id, if the registry was not emptied since. -/
def IsLast (t : Course) (n : Nat) (id : SessionId) : Prop :=
  ∃ later before, t.deeds = later ++ .task n id .register :: before ∧ ∀ d ∈ later, ¬ d.Ousts id

/-- Who registered under an id so far has told its end. -/
def HaveEnded (id : SessionId) (deeds : List Deed) : Prop :=
  ∀ n, .task n id .register ∈ deeds → ∃ e, e.isTerminal = true ∧ .task n id (.emit e) ∈ deeds

instance (t : Course) : Decidable t.Quiet :=
  inferInstanceAs (Decidable (∀ c ∈ t.board.connections, c.phase.isTurning = false))

/-- What subscribers get of the statuses published. -/
structure Reported (t : Course) : Prop where
  sent : t.board.hub.bus.statuses.sent = t.published.length
  kept : t.board.hub.bus.statuses.kept =
    t.published.take t.board.hub.bus.statuses.capacity
  latest : t.board.hub.bus.latestStatus.value = t.published.head?

namespace Reported

variable {t : Course}

theorem ofCapacity (capacity : Nat) (h : 0 < capacity) : Reported (.ofCapacity capacity h) where
  sent := rfl
  kept := List.take_nil.symm
  latest := rfl

theorem emit (h : Reported t) {board : Switchboard} {n : Nat} {id : SessionId} {e : Event}
    (hhub : board.hub = t.board.hub.emit e) :
    Reported ⟨board, .task n id (.emit e) :: t.deeds⟩ := by
  obtain ⟨hsent, hkept, hlatest⟩ := h
  cases hstatus : e.status? with
  | none =>
    have hsame : published ⟨board, .task n id (.emit e) :: t.deeds⟩ = t.published :=
      List.filterMap_cons_none hstatus
    obtain ⟨hstatuses, hlast⟩ := Bus.publish_of_status?_eq_none (b := t.board.hub.bus) hstatus
    constructor
    all_goals
      rw [hsame, hhub, Hub.emit]
      simp only [hstatuses, hlast]
      assumption
  | some s =>
    have hmore : published ⟨board, .task n id (.emit e) :: t.deeds⟩ = s :: t.published :=
      List.filterMap_cons_some hstatus
    constructor
    all_goals rw [hmore, hhub, Hub.emit, Bus.publish_of_status? hstatus]
    · simp [Broadcast.send, hsent]
    · show (s :: t.board.hub.bus.statuses.kept).take t.board.hub.bus.statuses.capacity =
        (s :: t.published).take t.board.hub.bus.statuses.capacity
      rw [hkept]
      cases t.board.hub.bus.statuses.capacity with
      | zero => rfl
      | succ capacity => simp [List.take_take]
    · rfl

theorem move (h : Reported t) (m : Switchboard.Move) : Reported (t.move m) := by
  have hhub := (Switchboard.outcome_move t.board m).hub
  unfold Course.move
  generalize t.board.deed? m = deed at hhub ⊢
  have hold := h
  obtain ⟨hsent, hkept, hlatest⟩ := h
  match deed with
  | some (.task n id (.emit e)) => exact hold.emit hhub
  | none | some .cleared | some (.task n id .register) | some (.task n id .unregister) =>
    constructor <;> (rw [hhub]; assumption)

theorem run (h : Reported t) (moves : List Switchboard.Move) : Reported (t.run moves) := by
  induction moves generalizing t with
  | nil => exact h
  | cons m moves ih => exact ih (h.move m)

end Reported

namespace Sound

variable {t : Course}

/-- What a connection has told is told by its phase. -/
theorem publishedBy_eq (h : Sound t) {n : Nat} {c : Connection}
    (hc : t.board.connection? n = some c) :
    t.publishedBy n = (c.phase.marks.filterMap Mark.tells?).map (⟨c.id, ·⟩) := by
  rw [← h.marks n c hc, Course.marks, List.filterMap_filterMap, List.map_filterMap, publishedBy]
  refine List.filterMap_congr fun d hd => ?_
  cases d with
  | cleared => rfl
  | task k id effect =>
    by_cases hk : k = n
    · subst hk
      obtain ⟨c', hc', rfl⟩ := h.owner k id effect hd
      cases hc.symm.trans hc'
      cases effect with
      | register => simp [Deed.mark?, Effect.mark?, Mark.tells?, Deed.statusBy?]
      | unregister => simp [Deed.mark?, Effect.mark?, Mark.tells?, Deed.statusBy?]
      | emit e =>
        have hsession := h.session k c.id e hd
        cases hstatus : e.status? with
        | none => simp [Deed.mark?, Effect.mark?, Event.mark?, Deed.statusBy?, hstatus]
        | some s =>
          have hs : s.sessionId = c.id := (Event.sessionId_of_status? hstatus).trans hsession
          simp [Deed.mark?, Effect.mark?, Event.mark?, Mark.tells?, Deed.statusBy?, hstatus, ← hs]
    · cases effect <;> simp [Deed.mark?, Deed.statusBy?, hk]

/-- A mark is left by a deed that the connection did under its own id. -/
theorem exists_deed (h : Sound t) {n : Nat} {c : Connection} {mark : Mark} {deeds : List Deed}
    (hc : t.board.connection? n = some c) (hsub : ∀ d ∈ deeds, d ∈ t.deeds)
    (hmark : mark ∈ deeds.filterMap (Deed.mark? n)) :
    ∃ effect, effect.mark? = some mark ∧ .task n c.id effect ∈ deeds := by
  obtain ⟨d, hd, hmark⟩ := List.mem_filterMap.mp hmark
  cases d with
  | cleared => cases hmark
  | task k id effect =>
    by_cases hk : k = n
    · subst hk
      obtain ⟨c', hc', rfl⟩ := h.owner k id effect (hsub _ hd)
      cases hc.symm.trans hc'
      exact ⟨effect, (if_pos rfl).symm.trans hmark, hd⟩
    · cases (if_neg hk).symm.trans hmark

theorem entered_iff (h : Sound t) {n : Nat} {c : Connection}
    (hc : t.board.connection? n = some c) : .registers ∈ c.phase.marks ↔ t.Entered n c.id := by
  rw [← h.marks n c hc]
  refine ⟨fun hmark => ?_, fun henter => List.mem_filterMap.mpr ⟨_, henter, if_pos rfl⟩⟩
  obtain ⟨effect, heffect, hdeed⟩ := h.exists_deed hc (fun _ hd => hd) hmark
  cases Effect.eq_register heffect
  exact hdeed

theorem exited_iff (h : Sound t) {n : Nat} {c : Connection}
    (hc : t.board.connection? n = some c) : .unregisters ∈ c.phase.marks ↔ t.Exited n c.id := by
  rw [← h.marks n c hc]
  refine ⟨fun hmark => ?_, fun hexit => List.mem_filterMap.mpr ⟨_, hexit, if_pos rfl⟩⟩
  obtain ⟨effect, heffect, hdeed⟩ := h.exists_deed hc (fun _ hd => hd) hmark
  cases Effect.eq_unregister heffect
  exact hdeed

/-- Who tells of itself has registered. -/
theorem entered_of_status (h : Sound t) {n : Nat} {id : SessionId} {e : Event} {s : Status}
    (hmem : .task n id (.emit e) ∈ t.deeds) (hs : e.status? = some s) :
    s.sessionId = id ∧ t.Entered n id := by
  obtain ⟨c, hc, rfl⟩ := h.owner n id _ hmem
  refine ⟨(Event.sessionId_of_status? hs).trans (h.session n c.id e hmem), ?_⟩
  have hmark : .tells s.isConnect ∈ t.marks n :=
    List.mem_filterMap.mpr ⟨_, hmem, by simp [Deed.mark?, Effect.mark?, Event.mark?, hs]⟩
  rw [h.marks n c hc] at hmark
  exact (h.entered_iff hc).mp (Phase.registers_mem_marks hmark)

theorem contains_iff (h : Sound t) (id : SessionId) :
    t.board.hub.registry.contains id = true ↔ ∃ n, holder id t.deeds = some n := by
  rw [← h.lookup id]
  exact Option.isSome_iff_exists

/-- The last to register is registered as long as it has not told its end. -/
theorem contains_iff_of_last (h : Sound t) (hquiet : t.Quiet) {id : SessionId} {n : Nat}
    {later before : List Deed} (hdeeds : t.deeds = later ++ .task n id .register :: before)
    (hlater : ∀ d ∈ later, ¬ d.Ousts id) :
    t.board.hub.registry.contains id = true ↔ (t.publishedBy n).head? = some ⟨id, true⟩ := by
  have henter : t.Entered n id := by
    rw [Entered, hdeeds]
    simp
  obtain ⟨c, hc, rfl⟩ := h.owner n id _ henter
  have hcontains : t.board.hub.registry.contains c.id = true ↔ ¬ t.Exited n c.id := by
    rw [h.contains_iff]
    constructor
    · rintro ⟨m, hm⟩
      cases eq_of_holder_append hlater (hdeeds ▸ hm)
      exact (h.of_mem_entries ((Registry.mem_entries_iff h.nodup).mpr
        ((h.lookup c.id).trans hm))).1
    · intro hexit
      refine ⟨n, ?_⟩
      rw [hdeeds]
      refine holder_append hlater fun hgone => hexit ?_
      rw [Exited, hdeeds]
      exact List.mem_append_left _ hgone
  have hregisters := (h.entered_iff hc).mpr henter
  rw [hcontains, ← h.exited_iff hc, h.publishedBy_eq hc]
  rcases Phase.marks_of_isTurning (hquiet c (List.mem_of_getElem? hc)) with hp | hp | hp
  · rw [hp] at hregisters
    cases hregisters
  · rw [hp]
    simp [Mark.tells?]
  · rw [hp]
    simp [Mark.tells?]

/-- Behind a connection's end it does nothing that leaves a mark. -/
theorem mark?_eq_none_of_ended (h : Sound t) {id : SessionId} {n : Nat} {e : Event}
    {later before : List Deed} (hdeeds : t.deeds = later ++ before) (he : e.isTerminal = true)
    (hend : .task n id (.emit e) ∈ before) {d : Deed} (hd : d ∈ later) : d.mark? n = none := by
  obtain ⟨c, hc, -⟩ := h.owner n id (.emit e) (hdeeds ▸ List.mem_append_right later hend)
  have hmarks : c.phase.marks =
      later.filterMap (Deed.mark? n) ++ before.filterMap (Deed.mark? n) := by
    rw [← h.marks n c hc, Course.marks, hdeeds, List.filterMap_append]
  have hended : .tells false ∈ before.filterMap (Deed.mark? n) :=
    List.mem_filterMap.mpr ⟨_, hend, (if_pos rfl).trans (Event.mark?_of_isTerminal he)⟩
  exact List.filterMap_eq_nil_iff.mp (Phase.marks_ended hmarks hended) d hd

/-- What is told of an id since the last registered under it, that one tells, if all before it
have told their ends. -/
theorem status?_filter_eq (h : Sound t) {id : SessionId} {n : Nat} {later before : List Deed}
    (hdeeds : t.deeds = later ++ .task n id .register :: before)
    (hlast : ∀ k, .task k id .register ∉ later) (hended : HaveEnded id before) {d : Deed}
    (hd : d ∈ later) : d.status?.filter (·.sessionId = id) = d.statusBy? n := by
  have hmem : d ∈ t.deeds := hdeeds ▸ List.mem_append_left _ hd
  match d with
  | .cleared | .task _ _ .register | .task _ _ .unregister => rfl
  | .task k i (.emit e) =>
    cases hs : e.status? with
    | none => simp [Deed.status?, Deed.statusBy?, hs]
    | some s =>
      obtain ⟨rfl, henter⟩ := h.entered_of_status hmem hs
      simp only [Deed.status?, Deed.statusBy?, hs]
      by_cases hk : k = n
      · subst hk
        obtain ⟨c, hc, hid⟩ := h.owner k id .register (by rw [hdeeds]; simp)
        obtain ⟨c', hc', hid'⟩ := h.owner k _ _ hmem
        cases hc.symm.trans hc'
        simp [← hid, ← hid']
      · by_cases hid : s.sessionId = id
        · subst hid
          rw [Entered, hdeeds, List.mem_append, List.mem_cons] at henter
          rcases henter with henter | henter | henter
          · exact absurd henter (hlast k)
          · cases henter
            exact absurd rfl hk
          · -- it has told its end and cannot tell anything now
            obtain ⟨e', he', hend⟩ := hended k henter
            have hnone := h.mark?_eq_none_of_ended hdeeds he' (List.mem_cons_of_mem _ hend) hd
            simp [Deed.mark?, Effect.mark?, Event.mark?, hs] at hnone
        · simp [hid, hk]

/-- At no turn, who has registered has told of it since. -/
theorem filterMap_statusBy?_ne_nil (h : Sound t) (hquiet : t.Quiet) {id : SessionId} {n : Nat}
    {later before : List Deed} (hdeeds : t.deeds = later ++ .task n id .register :: before) :
    later.filterMap (Deed.statusBy? n) ≠ [] := by
  have henter : t.Entered n id := by
    rw [Entered, hdeeds]
    simp
  obtain ⟨c, hc, rfl⟩ := h.owner n id _ henter
  have hregisters := (h.entered_iff hc).mpr henter
  have htells : ∃ isConnect, .tells isConnect ∈ c.phase.marks := by
    rcases Phase.marks_of_isTurning (hquiet c (List.mem_of_getElem? hc)) with hp | hp | hp
    · rw [hp] at hregisters
      cases hregisters
    · exact ⟨true, by simp [hp]⟩
    · exact ⟨false, by simp [hp]⟩
  obtain ⟨isConnect, htells⟩ := htells
  have hmarks : later.filterMap (Deed.mark? n) ++ [.registers] = c.phase.marks := by
    rw [← h.marks n c hc, Course.marks, hdeeds, List.filterMap_append,
      List.filterMap_cons_some (Deed.mark?_self n c.id .register), (h.marks_split hdeeds).1]
  rw [← hmarks] at htells
  have htells : .tells isConnect ∈ later.filterMap (Deed.mark? n) := by simpa using htells
  obtain ⟨effect, heffect, hdeed⟩ :=
    h.exists_deed hc (fun d hd => hdeeds ▸ List.mem_append_left _ hd) htells
  obtain ⟨e, s, rfl, hs⟩ := Effect.exists_eq_emit heffect
  exact List.ne_nil_of_mem (List.mem_filterMap.mpr ⟨_, hdeed, (if_pos rfl).trans hs⟩)

theorem head?_publishedFor (h : Sound t) (hquiet : t.Quiet) {id : SessionId} {n : Nat}
    {later before : List Deed} (hdeeds : t.deeds = later ++ .task n id .register :: before)
    (hlast : ∀ k, .task k id .register ∉ later) (hended : HaveEnded id before) :
    (t.publishedFor id).head? = (t.publishedBy n).head? := by
  have hlater : later.filterMap (fun d => d.status?.filter (·.sessionId = id)) =
      later.filterMap (Deed.statusBy? n) :=
    List.filterMap_congr fun d hd => h.status?_filter_eq hdeeds hlast hended hd
  have hsome := h.filterMap_statusBy?_ne_nil hquiet hdeeds
  rw [publishedFor, published, List.filter_filterMap, publishedBy, hdeeds,
    List.filterMap_append, List.filterMap_append, hlater, List.head?_append_of_ne_nil _ hsome,
    List.head?_append_of_ne_nil _ hsome]

theorem publishedFor_eq_nil (h : Sound t) {id : SessionId} (hnone : ∀ n, ¬ t.Entered n id) :
    t.publishedFor id = [] := by
  refine List.filter_eq_nil_iff.mpr fun s hs hid => ?_
  cases of_decide_eq_true hid
  obtain ⟨d, hd, hs⟩ := List.mem_filterMap.mp hs
  match d with
  | .cleared | .task _ _ .register | .task _ _ .unregister => cases hs
  | .task n i (.emit e) =>
    obtain ⟨rfl, henter⟩ := h.entered_of_status hd hs
    exact hnone n henter

end Sound

/-- Subscribers get the statuses that connections tell. Whenever no connection is at a turn,
an id is registered if and only if the connection that registered under it last, and after
the registry was emptied, told last that it is connected. That is what was told last of the
id at all, if all before that connection had told their ends when it registered. -/
theorem contains_iff_told_connected (capacity : Nat) (hcapacity : 0 < capacity)
    (moves : List Switchboard.Move)
    (hquiet : ((ofCapacity capacity hcapacity).run moves).Quiet) (id : SessionId) :
    let t := (ofCapacity capacity hcapacity).run moves
    Reported t ∧
    (t.board.hub.registry.contains id = true ↔
      ∃ n, t.IsLast n id ∧ (t.publishedBy n).head? = some ⟨id, true⟩) ∧
    (∀ later n before, t.deeds = later ++ .task n id .register :: before →
      HaveEnded id before →
      ((∀ k, .task k id .register ∉ later) →
        (t.publishedFor id).head? = (t.publishedBy n).head?) ∧
      ((∀ d ∈ later, ¬ d.Ousts id) →
        (t.board.hub.registry.contains id = true ↔
          (t.publishedFor id).head? = some ⟨id, true⟩))) ∧
    ((∀ n, ¬ t.Entered n id) →
      t.board.hub.registry.contains id = false ∧ t.publishedFor id = []) := by
  intro t
  have h : Sound t := (Sound.ofCapacity capacity hcapacity).run moves
  refine ⟨(Reported.ofCapacity capacity hcapacity).run moves, ⟨fun hcontains => ?_, ?_⟩,
    fun later n before hdeeds hended => ⟨fun hlast => ?_, fun hlater => ?_⟩,
    fun hnone => ⟨?_, h.publishedFor_eq_nil hnone⟩⟩
  · obtain ⟨n, hn⟩ := (h.contains_iff id).mp hcontains
    obtain ⟨later, before, hdeeds, hlater, -⟩ := holder_eq_some hn
    exact ⟨n, ⟨later, before, hdeeds, hlater⟩,
      (h.contains_iff_of_last hquiet hdeeds hlater).mp hcontains⟩
  · rintro ⟨n, ⟨later, before, hdeeds, hlater⟩, hconnected⟩
    exact (h.contains_iff_of_last hquiet hdeeds hlater).mpr hconnected
  · exact h.head?_publishedFor hquiet hdeeds hlast hended
  · rw [h.head?_publishedFor hquiet hdeeds (fun k hk => hlater _ hk rfl) hended]
    exact h.contains_iff_of_last hquiet hdeeds hlater
  · refine Bool.eq_false_iff.mpr fun hcontains => ?_
    obtain ⟨n, hn⟩ := (h.contains_iff id).mp hcontains
    obtain ⟨later, before, hdeeds, -⟩ := holder_eq_some hn
    exact hnone n (by rw [Entered, hdeeds]; simp)

/-- The first of two connections with one id is put out by the second, and both come to rest:
the id is registered for the second. -/
theorem contains_iff_told_connected_overlapping :
    let opening : Switchboard.Move := .openConnection "a:1" 125 (.ofSeconds 1) [] false
    let moves := [opening] ++ List.replicate 3 (.step 0) ++ [opening] ++
      List.replicate 3 (.step 1) ++ List.replicate 6 (.step 0)
    let t := (ofCapacity 1 Nat.one_pos).run moves
    t.Quiet ∧ t.IsLast 1 "a:1" ∧ (t.publishedBy 1).head? = some ⟨"a:1", true⟩ ∧
      t.board.hub.registry.contains "a:1" = true := by
  intro opening moves
  have hquiet : ((ofCapacity 1 Nat.one_pos).run moves).Quiet := by decide +kernel
  have hdeeds : ((ofCapacity 1 Nat.one_pos).run moves).deeds =
      [.task 0 "a:1" (.emit (.disconnected "a:1")), .task 0 "a:1" .unregister,
        .task 1 "a:1" (.emit (.connected "a:1"))] ++ .task 1 "a:1" .register ::
      [.task 0 "a:1" (.emit (.connected "a:1")), .task 0 "a:1" .register] := by
    decide +kernel
  have hall := (contains_iff_told_connected 1 Nat.one_pos moves hquiet "a:1").2.1
  -- the rest does not look into the run
  generalize (ofCapacity 1 Nat.one_pos).run moves = t at hquiet hdeeds hall ⊢
  have hlast : t.IsLast 1 "a:1" := ⟨_, _, hdeeds, by decide⟩
  have hpublished : (t.publishedBy 1).head? = some ⟨"a:1", true⟩ := by
    rw [publishedBy, hdeeds]
    rfl
  exact ⟨hquiet, hlast, hpublished, hall.mpr ⟨1, hlast, hpublished⟩⟩

/-- With the same two connections, what was told of the id last of all is the end of the
first, behind the beginning of the second: the id is registered though told disconnected. -/
theorem registered_though_told_disconnected :
    let opening : Switchboard.Move := .openConnection "a:1" 125 (.ofSeconds 1) [] false
    let moves := [opening] ++ List.replicate 3 (.step 0) ++ [opening] ++
      List.replicate 3 (.step 1) ++ List.replicate 6 (.step 0)
    let t := (ofCapacity 1 Nat.one_pos).run moves
    t.Quiet ∧ t.board.hub.registry.contains "a:1" = true ∧
      (t.publishedFor "a:1").head? = some ⟨"a:1", false⟩ ∧
      t.board.hub.bus.latestStatus.value = some ⟨"a:1", false⟩ := by
  decide +kernel

end Course

end WebSocketHost
