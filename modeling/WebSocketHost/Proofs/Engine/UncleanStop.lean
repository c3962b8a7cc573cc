import WebSocketHost.Proofs.Engine.CleanStop

/-! What any stop leaves behind, clean or not. A stop empties the registry when it begins and not
again when it gives up waiting. A connection that registers in between and does not come to its
end in time keeps its entry: a server that is idle and cannot be reached may still have sessions. -/
namespace WebSocketHost

/-- Why a stop was not clean, if that is what a call came to. -/
def Answer.stopError? : Answer → Option StopError
  | stopped (.error err) => some err
  | _ => none

namespace Engine

variable {s : Surroundings} {e e' : Engine} {call : Call} {request : Option Request}

/-- A call that waits comes to a stop only when the server is idle and its place is taken back. -/
theorem Shift.idle_of_stopped {result : Except StopError Unit} (h : Shift s e request e')
    (hcall : e.call = some call) (hanswer : e'.answers = .stopped result :: e.answers) :
    e'.state = .idle ∧ e'.endpoint = none := by
  cases h with
  | aside ha => exact absurd (ha.answers.symm.trans hanswer) (List.cons_ne_self _ _).symm
  | waits => exact absurd hanswer (List.cons_ne_self _ _).symm
  | starts hnone => cases hcall.symm.trans hnone
  | stopsNothing hnone => cases hcall.symm.trans hnone
  | stops hnone => cases hcall.symm.trans hnone
  | ends => exact ⟨rfl, rfl⟩
  | @restarts _ _ config =>
    have hopens := opens_openOn s config { e with
      state := .idle, history := e.state :: e.history, endpoint := none }
    generalize Engine.openOn s config _ = e' at hopens hanswer
    cases hopens <;> cases hanswer

/-- When the time is up and somebody is left, a stop comes back and says how many. -/
theorem answers_proceed_late {deadline : Nat} (hcall : e.call = some call)
    (hwait : call.wait = .visitors deadline) (hrestart : call.restart = none)
    (hleft : e.present call.running.place ≠ []) (hlate : deadline ≤ e.board.now) :
    (e.turn s (.move .proceed)).answers =
      .stopped (.error ⟨(e.present call.running.place).length, call.running.drainTimeout⟩) ::
        e.answers := by
  show ((e.proceed? s).getD e).answers = _
  unfold proceed?
  rw [hcall]
  dsimp only
  rw [hwait]
  dsimp only
  rw [if_neg (mt List.eq_nil_of_length_eq_zero hleft), if_pos hlate, hrestart]
  rfl

end Engine

namespace Course

/-- The registry is empty just when everyone who could be in it has unregistered. -/
theorem Sound.entries_eq_nil_iff {t : Course} (h : t.Sound) :
    t.board.hub.registry.entries = [] ↔ ∀ id n, t.IsLast n id → t.Exited n id := by
  constructor
  · rintro hnone id n ⟨later, before, hdeeds, hlater⟩
    by_contra hexit
    have hholder : holder id t.deeds = some n := by
      rw [hdeeds]
      refine holder_append hlater fun hgone => hexit ?_
      rw [Exited, hdeeds]
      exact List.mem_append_left _ hgone
    have hmem := (Registry.mem_entries_iff h.nodup).mpr ((h.lookup id).trans hholder)
    simp [hnone] at hmem
  · intro hall
    rw [List.eq_nil_iff_forall_not_mem]
    intro entry hmem
    obtain ⟨hexit, hlast⟩ := h.of_mem_entries hmem
    exact hexit (hall _ _ hlast)

end Course

namespace Chronicle

open Engine (Act Turn)

/-- Whatever happened before, and in whatever order visitors come, ask for an upgrade, are served
and leave while a stop takes its steps: when the stop comes back, clean or not, the server is idle
and cannot be reached. An entry in the registry belongs to a connection that registered after the
registry was emptied, last of all under its id, has not unregistered, and serves a visitor who is
still there; and there is no entry if and only if all those who registered so have unregistered. -/
theorem stop_leaves_late_comers (acts : List (Surroundings × Act)) (s : Surroundings) (t : Turn)
    {call : Call} {result : Except StopError Unit}
    (hcall : (initial.run acts).engine.call = some call)
    (hanswer : ((initial.run acts).act s (.turn t)).engine.answers =
      .stopped result :: (initial.run acts).engine.answers) :
    let c := (initial.run acts).act s (.turn t)
    let entries := c.engine.board.hub.registry.entries
    c.engine.state = .idle ∧ c.engine.endpoint = none ∧
    (∀ id n, (id, n) ∈ entries → c.course.IsLast n id ∧ ¬ c.course.Exited n id ∧
      ∃ place, .serving n ∈ c.engine.present place) ∧
    (entries = [] ↔ ∀ id n, c.course.IsLast n id → c.course.Exited n id) := by
  intro c entries
  have hsound : c.course.Sound := by
    show ((initial.run acts).act s (.turn t)).course.Sound
    rw [course_act]
    exact (sound_run acts).run _
  have hhoused : c.engine.Housed := (housed_run acts).act s (.turn t)
  have ht : t ≠ .move .abandon := by
    rintro rfl
    have hsame : ((initial.run acts).engine.turn s (.move .abandon)).answers =
        (initial.run acts).engine.answers := by rw [Engine.turn_abandon]
    exact (List.cons_ne_self _ _).symm (hsame.symm.trans hanswer)
  obtain ⟨hstate, hendpoint⟩ : c.engine.state = .idle ∧ c.engine.endpoint = none :=
    (Engine.shift_turn s _ ht).idle_of_stopped hcall hanswer
  refine ⟨hstate, hendpoint, fun id n hmem => ?_, hsound.entries_eq_nil_iff⟩
  obtain ⟨hexit, hlast⟩ := hsound.of_mem_entries hmem
  refine ⟨hlast, hexit, ?_⟩
  exact (isOver_or_present hsound hhoused n).resolve_left fun hover => hover.entry id hmem

/-- Two connections register when the registry has been emptied. The peer of the one takes
nothing, so that it is stuck in its answer to a ping; the other comes to its end. -/
theorem stop_leaves_late_comers_stalled :
    let s : Surroundings :=
      { lan := .v4 ⟨127, 0, 0, 1⟩, isUsable := fun _ => false, bind := .bound }
    let acts : List Act := [.turn (.move (.start {})), .turn (.move (.accept 0 "a:1")),
      .turn (.move (.accept 0 "b:2")), .enter none, .clear,
      .turn (.move (.upgrade 0 0 [0x89, 0])), .turn (.move (.outlet 0 .stalled)),
      .turn (.move (.upgrade 0 1 []))] ++ List.replicate 3 (.turn (.move (.step 0))) ++
      [.cancel, .turn (.move (.endAccepting 0)), .turn (.move .proceed)] ++
      List.replicate 9 (.turn (.move (.step 1))) ++ [.turn (.move (.wait 11000000000))]
    let c := initial.run (acts.map (s, ·))
    let stopped := c.act s (.turn (.move .proceed))
    (∃ err, stopped.engine.answers = .stopped (.error err) :: c.engine.answers) ∧
      stopped.engine.state = .idle ∧ stopped.engine.endpoint = none ∧
      stopped.course.Exited 1 "b:2" ∧ stopped.course.IsLast 0 "a:1" ∧
      ¬ stopped.course.Exited 0 "a:1" ∧ ∃ place, .serving 0 ∈ stopped.engine.present place := by
  intro s acts
  have hcall : (initial.run (acts.map (s, ·))).engine.call.any (fun call =>
      call.running.place = 0 ∧ call.restart.isNone ∧ call.wait = .visitors 11000000000) := by
    decide +kernel
  have hnow : (initial.run (acts.map (s, ·))).engine.board.now = 11000000000 := by decide +kernel
  have hleft : (initial.run (acts.map (s, ·))).engine.present 0 = [.serving 0] := by
    decide +kernel
  have hmem : ("a:1", 0) ∈ ((initial.run (acts.map (s, ·))).act s
      (.turn (.move .proceed))).engine.board.hub.registry.entries := by
    decide +kernel
  have hexit : ((initial.run (acts.map (s, ·))).act s
      (.turn (.move .proceed))).course.Exited 1 "b:2" := by
    unfold Course.Exited
    decide +kernel
  have hall := @stop_leaves_late_comers (acts.map (s, ·)) s (.move .proceed)
  -- the rest does not look into the run
  generalize initial.run (acts.map (s, ·)) = c at hcall hnow hleft hmem hexit hall ⊢
  intro c' stopped
  obtain ⟨call, hcall, hgood⟩ := (Option.any_eq_true _ _).mp hcall
  obtain ⟨hplace, hrestart, hwait⟩ := of_decide_eq_true hgood
  have hanswer := Engine.answers_proceed_late (s := s) hcall hwait
    (Option.isNone_iff_eq_none.mp hrestart) (by simp [hplace, hleft]) (Nat.le_of_eq hnow.symm)
  obtain ⟨hstate, hendpoint, hentries, -⟩ := hall hcall hanswer
  exact ⟨⟨_, hanswer⟩, hstate, hendpoint, hexit, hentries "a:1" 0 hmem⟩

/-- A connection that registers when the registry has been emptied, and is stuck in a write, is
still registered when the stop has given up on it. -/
theorem late_comer_outlasts_stop :
    let s : Surroundings :=
      { lan := .v4 ⟨127, 0, 0, 1⟩, isUsable := fun _ => false, bind := .bound }
    let acts : List Act := [.turn (.move (.start {})), .turn (.move (.accept 0 "a:1")), .enter none,
      .clear, .turn (.move (.upgrade 0 0 [0x89, 0])), .turn (.move (.outlet 0 .stalled))] ++
      List.replicate 3 (.turn (.move (.step 0))) ++ [.cancel, .turn (.move (.endAccepting 0)),
      .turn (.move .proceed), .turn (.move (.wait 11000000000)), .turn (.move .proceed)]
    let c := initial.run (acts.map (s, ·))
    (c.engine.answers.head?.bind Answer.stopError?).map StopError.left = some 1 ∧
      c.engine.state = .idle ∧ c.engine.endpoint = none ∧
      c.engine.board.hub.registry.entries = [("a:1", 0)] := by
  decide +kernel

end Chronicle

end WebSocketHost
