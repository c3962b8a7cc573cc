import WebSocketHost.Proofs.Engine.Chronicle
import WebSocketHost.Proofs.Switchboard.Announcements

/-! What a clean stop leaves behind. Visitors may be accepted and connections may register while
a stop goes on; but the stop waits first for the accepting to end, so that from then on all who
will come have come, and every connection there is serves one of them. -/
namespace WebSocketHost

theorem Event.isTerminal_of_mark? {e : Event} (h : e.mark? = some (.tells false)) :
    e.isTerminal = true := by
  cases e with
  | disconnected | closed => rfl
  | _ => cases h

namespace Switchboard

/-- Who has finished remains so. -/
theorem finished_moves {b : Switchboard} {n : Nat} {c : Connection}
    (hc : b.connection? n = some c) (hfin : c.isFinished = true) (moves : List Move) :
    ∃ d, (moves.foldl move b).connection? n = some d ∧ d.isFinished = true := by
  induction moves generalizing b c with
  | nil => exact ⟨c, hc, hfin⟩
  | cons m moves ih =>
    obtain ⟨d, hd, -, hmarks, -⟩ := (outcome_move b m).connection? hc
    refine ih (b := b.move m) hd ?_
    rw [show c.phase = .finished from of_decide_eq_true hfin] at hmarks
    have hnone := Phase.marks_ended hmarks (by simp [Phase.marks])
    rw [hnone] at hmarks
    exact decide_eq_true (Phase.eq_finished hmarks)

end Switchboard

namespace Engine

/-! ### Instances -/

theorem Retains.act (s : Surroundings) (e : Engine) (a : Act) : Retains e (e.act s a) := by
  cases a with
  | turn t =>
    by_cases ht : t = .move .abandon
    · rw [ht]
      show Retains e (e.turn s (.move .abandon))
      rw [turn_abandon]
      exact of_eq rfl
    · exact of_shift (shift_turn s e ht)
  | enter restart =>
    unfold Engine.act
    dsimp only
    split <;> exact of_eq rfl
  | clear => exact of_eq rfl
  | cancel =>
    unfold Engine.act
    cases e.call with
    | none => exact of_eq rfl
    | some call => exact (Older.cancelInstance e call.running.place).instances

/-- What runs and what a call stops are instances, and a call waits for visitors only when
no more of them come. -/
structure Placed (e : Engine) : Prop where
  running : ∀ r, e.running = some r → ∃ i, e.instances[r.place]? = some i
  call : ∀ c, e.call = some c →
    ∃ i, e.instances[c.running.place]? = some i ∧ (c.wait = .accepting ∨ i.isAccepting = false)

namespace Placed

variable {s : Surroundings} {e e' : Engine}

theorem of_retains (h : e.Placed) (hret : Retains e e') (hrunning : e'.running = e.running)
    (hcall : e'.call = e.call) : e'.Placed where
  running r hr := hret.stays (h.running r (hrunning ▸ hr))
  call c hc := by
    obtain ⟨i, hi, hwait⟩ := h.call c (hcall ▸ hc)
    obtain ⟨j, hj, hages⟩ := hret _ i hi
    exact ⟨j, hj, hwait.imp_right hages.ceased⟩

/-- With no call in the way, all that matters is what runs. -/
theorem of_idle (hcall : e'.call = none)
    (hrunning : ∀ r, e'.running = some r → ∃ i, e'.instances[r.place]? = some i) : e'.Placed where
  running := hrunning
  call c hc := by cases hcall.symm.trans hc

theorem openOn (h : e.Placed) (config : Config) : (e.openOn s config).Placed := by
  have hret := Retains.openOn s config e
  have hopens := opens_openOn s config e
  generalize e.openOn s config = e' at hret hopens ⊢
  refine of_idle hopens.call_eq_none fun r hr => ?_
  cases hopens with
  | fails | overflows => exact hret.stays (h.running r hr)
  | listens =>
    cases hr
    exact ⟨_, List.getElem?_concat_length⟩

/-- A call has taken control of what runs. -/
theorem takes (h : e.Placed) {r : Running} {restart : Option Config} (hr : e.running = some r)
    (hret : Retains e e') (hrunning : e'.running = none)
    (hcall : e'.call = some ⟨r, .accepting, restart⟩) : e'.Placed where
  running r hr := by cases hrunning.symm.trans hr
  call c hc := by
    cases hcall.symm.trans hc
    obtain ⟨j, hj⟩ := hret.stays (h.running r hr)
    exact ⟨j, hj, .inl rfl⟩

theorem shift (h : e.Placed) {request : Option Request} (hs : Shift s e request e') :
    e'.Placed := by
  have hret := Retains.of_shift hs
  cases hs with
  | aside ha => exact h.of_retains hret ha.running ha.call
  | @waits call deadline hcall hwait hdone =>
    refine ⟨h.running, fun c hc => ?_⟩
    cases hc
    obtain ⟨i, hi, -⟩ := h.call call hcall
    rw [hi] at hdone
    exact ⟨i, hi, .inr hdone⟩
  | starts => exact h.openOn _
  | stopsNothing | ends => exact of_idle rfl h.running
  | stops _ hrunning => exact h.takes hrunning hret rfl rfl
  | @restarts _ _ config =>
    have hstopped : Placed { e with
      state := .idle, history := e.state :: e.history, endpoint := none } := ⟨h.running, h.call⟩
    exact hstopped.openOn config

theorem act (h : e.Placed) (s : Surroundings) (a : Act) : (e.act s a).Placed := by
  have hret := Retains.act s e a
  cases a with
  | turn t =>
    by_cases ht : t = .move .abandon
    · rw [ht]
      show (e.turn s (.move .abandon)).Placed
      rw [turn_abandon]
      exact of_idle rfl h.running
    · exact h.shift (shift_turn s e ht)
  | enter restart =>
    unfold Engine.act at hret ⊢
    dsimp only at hret ⊢
    split at hret
    · next hcall hrunning => exact h.takes hrunning hret rfl rfl
    · exact h
  | clear => exact h.of_retains hret rfl rfl
  | cancel =>
    unfold Engine.act at hret ⊢
    cases hcall : e.call with
    | none => exact h
    | some call =>
      rw [hcall] at hret
      exact h.of_retains hret rfl rfl

end Placed

/-- Every connection serves a visitor of some instance. -/
def Housed (e : Engine) : Prop :=
  ∀ n < e.board.connections.length, ∃ (place : Nat) (i : Instance),
    e.instances[place]? = some i ∧ .serving n ∈ i.visitors

/-- Nobody comes to an instance any more, and nobody is still there. -/
def Deserted (e : Engine) (place : Nat) : Prop :=
  ∃ i, e.instances[place]? = some i ∧ i.isAccepting = false ∧
    ∀ v ∈ i.visitors, e.hasLeft v = true

section Visitors

variable {e e' : Engine} {i j : Instance} {n place : Nat}

theorem Ages.serving (h : Ages i j) (hn : .serving n ∈ i.visitors) : .serving n ∈ j.visitors := by
  obtain ⟨k, hk⟩ := List.mem_iff_getElem?.mp hn
  obtain ⟨w, hw, rfl | ⟨id, hid⟩⟩ := h.visitor k _ hk
  · exact List.mem_of_getElem? hw
  · cases hid

theorem Housed.serving (h : e.Housed) (hret : Retains e e')
    (hn : n < e.board.connections.length) : ∃ (place : Nat) (i : Instance),
      e'.instances[place]? = some i ∧ .serving n ∈ i.visitors := by
  obtain ⟨place, i, hi, hserving⟩ := h n hn
  obtain ⟨j, hj, hages⟩ := hret place i hi
  exact ⟨place, j, hj, hages.serving hserving⟩

/-- The connection that comes by an upgrade serves the visitor who asked for it. -/
theorem Housed.upgrade (h : e.Housed) (hret : Retains e e') {visitor : Nat} {leftover : Octets}
    (hup : e.upgrade? place visitor leftover = some e') : e'.Housed := by
  intro n hn
  by_cases hold : n < e.board.connections.length
  · exact h.serving hret hold
  · unfold upgrade? at hup
    split at hup
    · next i id hvisitor =>
      cases hup
      obtain ⟨hi, hv⟩ := visitor?_eq_some hvisitor
      have hlength : (e.board.openConnection id i.maxFrame i.closeTimeout leftover
          i.isCancelled).connections.length = e.board.connections.length + 1 :=
        (Switchboard.Unmoved.wake _ _).length.trans List.length_append
      have hn : n = e.board.connections.length :=
        Nat.le_antisymm (Nat.le_of_lt_succ (Nat.lt_of_lt_of_eq hn hlength)) (Nat.le_of_not_lt hold)
      refine ⟨place, { i with visitors := i.visitors.set visitor (.serving n) }, ?_, ?_⟩
      · rw [hn]
        show (e.instances.modify place _)[place]? = _
        rw [List.getElem?_modify_eq, hi]
        rfl
      · exact List.mem_of_getElem? (List.getElem?_set_self (List.getElem?_eq_some_iff.mp hv).1)
    · cases hup

theorem Housed.act (h : e.Housed) (s : Surroundings) (a : Act) : (e.act s a).Housed := by
  have hret := Retains.act s e a
  rcases isOpening_actMoves e a with hnone | ⟨place, visitor, leftover, rfl⟩
  · intro n hn
    rw [board_act, e.board.length_moves hnone] at hn
    exact h.serving hret hn
  · have hact : e.act s (.turn (.move (.upgrade place visitor leftover))) =
        (e.upgrade? place visitor leftover).getD e := rfl
    rw [hact] at hret ⊢
    cases hup : e.upgrade? place visitor leftover with
    | none => exact h
    | some e' =>
      rw [hup] at hret
      exact h.upgrade hret hup

theorem hasLeft_act {v : Visitor} (h : e.hasLeft v = true) (s : Surroundings) (a : Act) :
    (e.act s a).hasLeft v = true := by
  cases v with
  | negotiating => cases h
  | gone => rfl
  | serving n =>
    obtain ⟨c, hc, hfin⟩ := (Option.any_eq_true _ _).mp h
    obtain ⟨d, hd, hfin⟩ := Switchboard.finished_moves hc hfin (e.actMoves a)
    refine (Option.any_eq_true _ _).mpr ⟨d, ?_, hfin⟩
    rw [board_act]
    exact hd

theorem present_eq_nil_iff (hi : e.instances[place]? = some i) :
    e.present place = [] ↔ ∀ v ∈ i.visitors, e.hasLeft v = true := by
  unfold present
  rw [hi]
  simp [List.filter_eq_nil_iff]

theorem Deserted.present (h : e.Deserted place) : e.present place = [] := by
  obtain ⟨i, hi, -, hleft⟩ := h
  exact (present_eq_nil_iff hi).mpr hleft

theorem Deserted.act (h : e.Deserted place) (s : Surroundings) (a : Act) :
    (e.act s a).Deserted place := by
  obtain ⟨i, hi, hclosed, hleft⟩ := h
  obtain ⟨j, hj, hages⟩ := Retains.act s e a place i hi
  refine ⟨j, hj, hages.ceased hclosed, fun w hw => ?_⟩
  obtain ⟨k, hk⟩ := List.mem_iff_getElem?.mp hw
  -- nobody has come since, so that this one was there and had left
  have hlt : k < i.visitors.length :=
    hages.closed hclosed ▸ (List.getElem?_eq_some_iff.mp hk).1
  obtain ⟨v, hv, hvw⟩ := hages.visitor k _ (List.getElem?_eq_getElem hlt)
  cases hk.symm.trans hv
  have hwas := hleft _ (List.getElem_mem hlt)
  rcases hvw with rfl | ⟨id, hid⟩
  · exact hasLeft_act hwas s a
  · rw [hid] at hwas
    cases hwas

end Visitors

/-- A call comes to a clean stop only when nobody is left of what it stops. -/
theorem Placed.deserted {s : Surroundings} {e e' : Engine} {request : Option Request}
    {call : Call} (h : e.Placed) (hcall : e.call = some call) (hs : Shift s e request e')
    (hclean : e'.answers = .stopped (.ok ()) :: e.answers) :
    e'.state = .idle ∧ e'.endpoint = none ∧ e'.Deserted call.running.place := by
  cases hs with
  | aside ha => exact absurd (ha.answers.symm.trans hclean) (List.cons_ne_self _ _).symm
  | waits => exact absurd hclean (List.cons_ne_self _ _).symm
  | starts hnone => cases hcall.symm.trans hnone
  | stopsNothing hnone => cases hcall.symm.trans hnone
  | stops hnone => cases hcall.symm.trans hnone
  | ends hcall' hwait _ hresult =>
    cases hcall.symm.trans hcall'
    obtain ⟨i, hi, haccepting | hclosed⟩ := h.call call hcall
    · cases hwait.symm.trans haccepting
    · cases hclean
      exact ⟨rfl, rfl, i, hi, hclosed, (present_eq_nil_iff hi).mp (hresult rfl)⟩
  | @restarts call' deadline config =>
    have hopens := opens_openOn s config { e with
      state := .idle, history := e.state :: e.history, endpoint := none }
    generalize Engine.openOn s config _ = e' at hopens hclean
    cases hopens <;> cases hclean

/-- Once nobody is left, a stop comes back clean. -/
theorem answers_proceed {s : Surroundings} {e : Engine} {call : Call} {deadline : Nat}
    (hcall : e.call = some call) (hwait : call.wait = .visitors deadline)
    (hrestart : call.restart = none) (hnone : e.present call.running.place = []) :
    (e.turn s (.move .proceed)).answers = .stopped (.ok ()) :: e.answers := by
  show ((e.proceed? s).getD e).answers = _
  unfold proceed?
  rw [hcall]
  dsimp only
  rw [hwait]
  dsimp only
  rw [hnone, hrestart]
  rfl

end Engine

namespace Chronicle

open Engine (Act Turn)

/-- A connection has no entry, and if it told that it is connected it has told its end. -/
structure IsOver (c : Chronicle) (n : Nat) : Prop where
  entry : ∀ id, (id, n) ∉ c.engine.board.hub.registry.entries
  told : ∀ id, .task n id (.emit (.connected id)) ∈ c.deeds →
    ∃ e : Event, e.isTerminal = true ∧ .task n id (.emit e) ∈ c.deeds

variable {c : Chronicle} {n : Nat}

/-- What every act preserves holds at the end of a run. -/
theorem run_preserves {P : Chronicle → Prop} (hact : ∀ c s a, P c → P (c.act s a)) (h : P c)
    (acts : List (Surroundings × Act)) : P (c.run acts) := by
  induction acts generalizing c with
  | nil => exact h
  | cons p acts ih => exact ih (hact c p.1 p.2 h)

theorem sound_run (acts : List (Surroundings × Act)) : (initial.run acts).course.Sound := by
  refine run_preserves (P := fun c => c.course.Sound) (fun c s a h => ?_) ?_ acts
  · rw [course_act]
    exact h.run _
  · exact .ofCapacity Engine.eventCapacity (by decide)

theorem placed_run (acts : List (Surroundings × Act)) : (initial.run acts).engine.Placed := by
  refine run_preserves (P := fun c => c.engine.Placed) (fun _ s a h => h.act s a) ?_ acts
  exact .of_idle rfl fun r hr => by cases hr

theorem housed_run (acts : List (Surroundings × Act)) : (initial.run acts).engine.Housed :=
  run_preserves (P := fun c => c.engine.Housed) (fun _ s a h => h.act s a)
    (fun _ hn => absurd hn (Nat.not_lt_zero _)) acts

theorem isOver_of_finished (h : c.course.Sound) {d : Connection}
    (hd : c.engine.board.connection? n = some d) (hfin : d.isFinished = true) : c.IsOver n where
  entry id hmem := by
    obtain ⟨hexit, later, before, hdeeds, -⟩ := h.of_mem_entries hmem
    obtain ⟨d', hd', rfl⟩ := h.owner n id .register (by rw [hdeeds]; simp)
    cases hd.symm.trans hd'
    refine hexit ((h.exited_iff hd).mp ?_)
    rw [show d.phase = .finished from of_decide_eq_true hfin]
    simp [Phase.marks]
  told id hmem := by
    obtain ⟨d', hd', rfl⟩ := h.owner n id _ hmem
    cases hd.symm.trans hd'
    have hmark : .tells false ∈ c.course.marks n := by
      rw [h.marks n d hd, show d.phase = .finished from of_decide_eq_true hfin]
      simp [Phase.marks]
    obtain ⟨effect, heffect, hdeed⟩ := h.exists_deed hd (fun _ hd => hd) hmark
    obtain ⟨e, s, rfl, -⟩ := Effect.exists_eq_emit heffect
    exact ⟨e, Event.isTerminal_of_mark? heffect, hdeed⟩

theorem isOver_of_none (h : c.course.Sound) (hn : c.engine.board.connection? n = none) :
    c.IsOver n where
  entry id hmem := by
    obtain ⟨-, later, before, hdeeds, -⟩ := h.of_mem_entries hmem
    obtain ⟨d, hd, -⟩ := h.owner n id .register (by rw [hdeeds]; simp)
    cases hn.symm.trans hd
  told id hmem := by
    obtain ⟨d, hd, -⟩ := h.owner n id _ hmem
    cases hn.symm.trans hd

/-- A connection is over, or serves a visitor who is still there. -/
theorem isOver_or_present (h : c.course.Sound) (hhoused : c.engine.Housed) (n : Nat) :
    c.IsOver n ∨ ∃ place, .serving n ∈ c.engine.present place := by
  cases hn : c.engine.board.connection? n with
  | none => exact .inl (isOver_of_none h hn)
  | some d =>
    cases hfin : d.isFinished with
    | true => exact .inl (isOver_of_finished h hn hfin)
    | false =>
      obtain ⟨place, i, hi, hserving⟩ := hhoused n (List.getElem?_eq_some_iff.mp hn).1
      refine .inr ⟨place, ?_⟩
      unfold Engine.present
      rw [hi]
      refine List.mem_filter.mpr ⟨hserving, ?_⟩
      simp [Engine.hasLeft, hn, hfin]

/-- Whatever happened before, and in whatever order visitors come, ask for an upgrade, are
served and leave while a stop takes its steps: when the stop comes back clean, the server is
idle and cannot be reached; nobody of the instance that was stopped is there, nor will be;
each of its connections has no entry and, if it told that it is connected, has told its end;
and if any connection at all is not over, it serves a visitor whom the stop of another instance
left behind, so that where there is none the registry is empty. -/
theorem clean_stop_leaves_nothing (acts : List (Surroundings × Act)) (s : Surroundings)
    (t : Turn) {call : Call} (hcall : (initial.run acts).engine.call = some call)
    (hclean : ((initial.run acts).act s (.turn t)).engine.answers =
      .stopped (.ok ()) :: (initial.run acts).engine.answers) :
    let c := (initial.run acts).act s (.turn t)
    let place := call.running.place
    c.engine.state = .idle ∧ c.engine.endpoint = none ∧
    (∀ later, (c.run later).engine.present place = []) ∧
    (∀ i, c.engine.instances[place]? = some i → ∀ n, .serving n ∈ i.visitors → c.IsOver n) ∧
    (∀ n, c.IsOver n ∨ ∃ other ≠ place, .serving n ∈ c.engine.present other) ∧
    ((∀ other ≠ place, c.engine.present other = []) →
      c.engine.board.hub.registry.entries = [] ∧ ∀ n, c.IsOver n) := by
  intro c place
  have hsound : c.course.Sound := by
    show ((initial.run acts).act s (.turn t)).course.Sound
    rw [course_act]
    exact (sound_run acts).run _
  have hhoused : c.engine.Housed := (housed_run acts).act s (.turn t)
  have ht : t ≠ .move .abandon := by
    rintro rfl
    have hsame : ((initial.run acts).engine.turn s (.move .abandon)).answers =
        (initial.run acts).engine.answers := by rw [Engine.turn_abandon]
    exact (List.cons_ne_self _ _).symm (hsame.symm.trans hclean)
  obtain ⟨hstate, hendpoint, hdeserted⟩ : c.engine.state = .idle ∧ c.engine.endpoint = none ∧
      c.engine.Deserted place :=
    (placed_run acts).deserted hcall (Engine.shift_turn s _ ht) hclean
  have hleft : ∀ n, c.IsOver n ∨ ∃ other ≠ place, .serving n ∈ c.engine.present other := by
    intro n
    refine (isOver_or_present hsound hhoused n).imp_right fun ⟨other, hother⟩ => ⟨other, ?_, hother⟩
    rintro rfl
    rw [hdeserted.present] at hother
    cases hother
  refine ⟨hstate, hendpoint, fun later => ?_, fun i hi n hn => ?_, hleft, fun hnone => ?_⟩
  · have hlater : (c.run later).engine.Deserted place :=
      run_preserves (P := fun c => c.engine.Deserted place) (fun _ s a h => h.act s a)
        hdeserted later
    exact hlater.present
  · obtain ⟨i', hi', -, hgone⟩ := hdeserted
    cases hi.symm.trans hi'
    obtain ⟨d, hd, hfin⟩ := (Option.any_eq_true _ _).mp (hgone _ hn)
    exact isOver_of_finished hsound hd hfin
  · have hover : ∀ n, c.IsOver n := fun n => (hleft n).resolve_right fun ⟨other, hne, hmem⟩ => by
      rw [hnone other hne] at hmem
      cases hmem
    exact ⟨List.eq_nil_iff_forall_not_mem.mpr fun ⟨id, n⟩ => (hover n).entry id, hover⟩

/-- A connection registers and tells that it is connected when the registry has been emptied,
before its instance is cancelled. -/
theorem clean_stop_leaves_nothing_late :
    let s : Surroundings :=
      { lan := .v4 ⟨127, 0, 0, 1⟩, isUsable := fun _ => false, bind := .bound }
    let step : Act := .turn (.move (.step 0))
    let acts : List Act := [.turn (.move (.start {})), .turn (.move (.accept 0 "a:1")), .enter none,
      .clear, .turn (.move (.upgrade 0 0 [])), step, step, .cancel,
      .turn (.move (.endAccepting 0)), .turn (.move .proceed)] ++ List.replicate 7 step
    let c := initial.run (acts.map (s, ·))
    let stopped := c.act s (.turn (.move .proceed))
    .task 0 "a:1" .register ∈ c.deeds ∧ .task 0 "a:1" (.emit (.connected "a:1")) ∈ c.deeds ∧
      stopped.engine.answers = .stopped (.ok ()) :: c.engine.answers ∧
      (∀ later, (stopped.run later).engine.present 0 = []) ∧
      stopped.engine.board.hub.registry.entries = [] ∧
      ∃ e : Event, e.isTerminal = true ∧ .task 0 "a:1" (.emit e) ∈ stopped.deeds := by
  intro s step acts
  have hcall : (initial.run (acts.map (s, ·))).engine.call.any (fun call =>
      call.running.place = 0 ∧ call.restart.isNone ∧ call.wait ≠ .accepting) := by
    decide +kernel
  have hregistered : .task 0 "a:1" .register ∈ (initial.run (acts.map (s, ·))).deeds := by
    decide +kernel
  have htold : .task 0 "a:1" (.emit (.connected "a:1")) ∈
      (initial.run (acts.map (s, ·))).deeds := by
    decide +kernel
  have hnone : (initial.run (acts.map (s, ·))).engine.present 0 = [] := by decide +kernel
  have hlength : ((initial.run (acts.map (s, ·))).act s
      (.turn (.move .proceed))).engine.instances.length = 1 := by
    decide +kernel
  have hall := @clean_stop_leaves_nothing (acts.map (s, ·)) s (.move .proceed)
  -- the rest does not look into the run
  generalize initial.run (acts.map (s, ·)) = c at hcall hregistered htold hnone hlength hall ⊢
  intro c' stopped
  obtain ⟨call, hcall, hgood⟩ := (Option.any_eq_true _ _).mp hcall
  obtain ⟨hplace, hrestart, hwait⟩ := of_decide_eq_true hgood
  have hclean : stopped.engine.answers = .stopped (.ok ()) :: c.engine.answers := by
    cases hw : call.wait with
    | accepting => exact absurd hw hwait
    | visitors deadline =>
      refine Engine.answers_proceed hcall hw (Option.isNone_iff_eq_none.mp hrestart) ?_
      rw [hplace]
      exact hnone
  obtain ⟨-, -, hgone, -, -, hempty⟩ := hall hcall hclean
  rw [hplace] at hgone hempty
  obtain ⟨hentries, hover⟩ := hempty fun other hother => by
    unfold Engine.present
    rw [List.getElem?_eq_none (hlength ▸ Nat.one_le_iff_ne_zero.mpr hother)]
  exact ⟨hregistered, htold, hclean, hgone, hentries, (hover 0).told "a:1" htold⟩

end Chronicle

end WebSocketHost
