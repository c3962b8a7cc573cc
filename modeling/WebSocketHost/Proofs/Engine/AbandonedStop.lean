import Mathlib.Data.List.Induction
import WebSocketHost.Proofs.Engine.CleanStop

/-! What a stop leaves behind when calls before it were abandoned. A call that is abandoned has
taken away what runs, but not the endpoint; a stop that finds nothing running takes no endpoint
back, so that one stays until a server listens again. -/
namespace WebSocketHost

namespace Engine

variable {s : Surroundings} {e e' : Engine} {a : Act}

/-- What an act does to what runs, to the call, to the endpoint and to the answers. -/
inductive Turnover (e e' : Engine) : Prop
  | stays (hrunning : e'.running = e.running) (hcall : e'.call.isSome = e.call.isSome)
    (hendpoint : e'.endpoint = e.endpoint) (hanswers : e'.answers = e.answers)
  /-- A call takes control of what runs. -/
  | takes (hbefore : e.running.isSome = true) (hfree : e.call = none) (hrunning : e'.running = none)
    (hcall : e'.call.isSome = true) (hanswers : e'.answers = e.answers)
  | listens {address : SocketAddress} (hrunning : e'.running.isSome = true)
    (hcall : e'.call = none) (hanswers : e'.answers = .started (.ok address) :: e.answers)
  /-- A call comes back at once, without a server that listens. -/
  | returns {answer : Answer} (hbefore : e.running = none) (hfree : e.call = none)
    (hrunning : e'.running = none) (hcall : e'.call = none) (hendpoint : e'.endpoint = e.endpoint)
    (hanswers : e'.answers = answer :: e.answers)
    (hanswer : ∀ address, answer ≠ .started (.ok address))
  /-- A call that waited comes back, without a server that listens. -/
  | ends {answer : Answer} (hbefore : e.call.isSome = true) (hrunning : e'.running = e.running)
    (hcall : e'.call = none) (hendpoint : e'.endpoint = none)
    (hanswers : e'.answers = answer :: e.answers)
    (hanswer : ∀ address, answer ≠ .started (.ok address))

theorem Passage.turnover {request : Option Request} (h : Passage s e request e') :
    Turnover e e' := by
  cases h with
  | aside ha => exact .stays ha.running (by rw [ha.call]) ha.endpoint ha.answers
  | waits hcall => exact .stays rfl (by rw [hcall]; rfl) rfl rfl
  | starts hcall hrunning h =>
    cases h with
    | fails | overflows => exact .returns hrunning hcall hrunning rfl rfl rfl nofun
    | listens => exact .listens rfl rfl rfl
  | stopsNothing hcall hrunning => exact .returns hrunning hcall hrunning rfl rfl rfl nofun
  | stops hcall hrunning => exact .takes (by rw [hrunning]; rfl) hcall rfl rfl rfl
  | ends hcall => exact .ends (by rw [hcall]; rfl) rfl rfl rfl rfl nofun
  | restarts hcall _ h =>
    cases h with
    | fails | overflows => exact .ends (by rw [hcall]; rfl) rfl rfl rfl rfl nofun
    | listens => exact .listens rfl rfl rfl

theorem turnover_act (s : Surroundings) (e : Engine) (ha : a ≠ .turn (.move .abandon)) :
    Turnover e (e.act s a) := by
  cases a with
  | turn t => exact (shift_turn s e fun ht => ha (congrArg Act.turn ht)).passage.turnover
  | enter restart =>
    unfold Engine.act
    dsimp only
    split
    · next hcall hrunning => exact .takes (by rw [hrunning]; rfl) hcall rfl rfl rfl
    · exact .stays rfl rfl rfl rfl
  | clear => exact .stays rfl rfl rfl rfl
  | cancel =>
    unfold Engine.act
    cases e.call with
    | none => exact .stays rfl rfl rfl rfl
    | some call => exact .stays rfl rfl rfl rfl

/-- A call has control of what there was to control. -/
def Exclusive (e : Engine) : Prop := e.running = none ∨ e.call = none

theorem Turnover.exclusive (h : e.Exclusive) (ht : Turnover e e') : e'.Exclusive := by
  cases ht with
  | stays hrunning hcall =>
    refine h.imp hrunning.trans fun hnone => ?_
    rw [hnone] at hcall
    exact Option.not_isSome_iff_eq_none.mp (by simp [hcall])
  | takes _ _ hrunning => exact .inl hrunning
  | listens _ hcall | returns _ _ _ hcall | ends _ _ hcall => exact .inr hcall

theorem Exclusive.act (h : e.Exclusive) (s : Surroundings) (a : Act) : (e.act s a).Exclusive := by
  by_cases ha : a = .turn (.move .abandon)
  · rw [ha]
    show (e.turn s (.move .abandon)).Exclusive
    rw [turn_abandon]
    exact .inr rfl
  · exact (turnover_act s e ha).exclusive h

/-- A call that comes to a stop leaves the server idle; one that did not wait found nothing
running. -/
theorem Shift.of_stopped {request : Option Request} {result : Except StopError Unit}
    (h : Shift s e request e') (hanswer : e'.answers = .stopped result :: e.answers) :
    e'.state = .idle ∧ e'.call = none ∧ e'.running = e.running ∧
      (e.call = none → e.running = none ∧ request = some .stop) := by
  have hopened : ∀ {config e}, (openOn s config e).answers ≠ .stopped result :: e.answers := by
    intro config e
    have hopens := opens_openOn s config e
    generalize Engine.openOn s config e = e' at hopens
    cases hopens <;> nofun
  cases h with
  | aside ha => exact absurd (ha.answers.symm.trans hanswer) (List.cons_ne_self _ _).symm
  | waits | stops => exact absurd hanswer (List.cons_ne_self _ _).symm
  | starts | restarts => exact absurd hanswer hopened
  | stopsNothing _ hrunning => exact ⟨rfl, rfl, rfl, fun _ => ⟨hrunning, rfl⟩⟩
  | ends hcall => exact ⟨rfl, rfl, rfl, fun hnone => by cases hcall.symm.trans hnone⟩

theorem eq_stop_of_request? {t : Turn} (h : e.request? t = some .stop) : t = .move .stop := by
  cases t with
  | quiesce => cases h
  | move m =>
    cases m with
    | stop => rfl
    | start =>
      unfold request? at h
      dsimp only at h
      split at h <;> cases h
    | _ => cases h

/-- A stop that finds nothing running empties the registry. -/
theorem entries_stop (s : Surroundings) (hcall : e.call = none) (hrunning : e.running = none) :
    (e.turn s (.move .stop)).board.hub.registry.entries = [] := by
  have hmoves : e.moves (.move .stop) = [.evict] := by
    unfold moves stopMoves
    rw [hcall, hrunning]
    rfl
  rw [board_turn, hmoves, List.foldl_cons, List.foldl_nil, (e.board.outcome_move .evict).hub]
  rfl

/-- No question is answered with an address. -/
def IsHidden (e : Engine) : Prop :=
  e.url = none ∧ e.baseUrl = none ∧ e.address = none ∧ e.isSecure = false

theorem isHidden_iff : e.IsHidden ↔ e.endpoint = none := by
  unfold IsHidden url baseUrl address isSecure
  cases e.endpoint <;> simp

end Engine

namespace Chronicle

open Engine (Act Turn Turnover)

/-- A call was abandoned while the server had an endpoint, and no start has come to listen
since. -/
def Abandoned (acts : List (Surroundings × Act)) (endpoint : Endpoint) : Prop :=
  ∃ before s after since, acts = before ++ (s, .turn (.move .abandon)) :: after ∧
    (initial.run before).engine.call.isSome = true ∧
    (initial.run before).engine.endpoint = some endpoint ∧
    (initial.run acts).engine.answers = since ++ (initial.run before).engine.answers ∧
    ∀ address, .started (.ok address) ∉ since

section Run

variable {acts : List (Surroundings × Act)} {p : Surroundings × Act} {endpoint : Endpoint}

theorem run_append (c : Chronicle) (first second : List (Surroundings × Act)) :
    c.run (first ++ second) = (c.run first).run second :=
  List.foldl_append

theorem engine_concat :
    (initial.run (acts ++ [p])).engine = (initial.run acts).engine.act p.1 p.2 := by
  rw [run_append]
  rfl

/-- What was answered remains. -/
theorem answers_act (c : Chronicle) (s : Surroundings) (a : Act) :
    ∃ new, (c.act s a).engine.answers = new ++ c.engine.answers := by
  by_cases ha : a = .turn (.move .abandon)
  · refine ⟨[], ?_⟩
    show (c.engine.act s a).answers = _
    rw [ha]
    show (c.engine.turn s (.move .abandon)).answers = _
    rw [Engine.turn_abandon]
    rfl
  · cases Engine.turnover_act s c.engine ha with
    | stays _ _ _ hanswers | takes _ _ _ _ hanswers => exact ⟨[], hanswers⟩
    | listens _ _ hanswers | returns _ _ _ _ _ hanswers | ends _ _ _ _ hanswers =>
      exact ⟨[_], hanswers⟩

theorem answers_run (c : Chronicle) (acts : List (Surroundings × Act)) :
    ∃ new, (c.run acts).engine.answers = new ++ c.engine.answers := by
  induction acts generalizing c with
  | nil => exact ⟨[], rfl⟩
  | cons p acts ih =>
    obtain ⟨new, hnew⟩ := answers_act c p.1 p.2
    obtain ⟨more, hmore⟩ := ih (c.act p.1 p.2)
    refine ⟨more ++ new, ?_⟩
    rw [List.append_assoc, ← hnew]
    exact hmore

/-- What one act adds to a run. -/
theorem abandoned_concat (new : List Answer)
    (hnew : (initial.run (acts ++ [p])).engine.answers =
      new ++ (initial.run acts).engine.answers) :
    Abandoned (acts ++ [p]) endpoint ↔
      (p.2 = .turn (.move .abandon) ∧ (initial.run acts).engine.call.isSome = true ∧
        (initial.run acts).engine.endpoint = some endpoint ∧
        ∀ address, .started (.ok address) ∉ new) ∨
      (Abandoned acts endpoint ∧ ∀ address, .started (.ok address) ∉ new) := by
  constructor
  · rintro ⟨before, s, after, since, hacts, hcall, hendpoint, hanswers, hsince⟩
    rcases List.eq_nil_or_concat after with rfl | ⟨after, q, rfl⟩
    · obtain ⟨rfl, hp⟩ := List.append_inj' hacts rfl
      cases hp
      rw [hnew] at hanswers
      cases List.append_cancel_right hanswers
      exact .inl ⟨rfl, hcall, hendpoint, hsince⟩
    · rw [List.concat_eq_append, ← List.cons_append, ← List.append_assoc] at hacts
      obtain ⟨rfl, hp⟩ := List.append_inj' hacts rfl
      obtain ⟨since', hsince'⟩ : ∃ since', (initial.run
          (before ++ (s, .turn (.move .abandon)) :: after)).engine.answers =
            since' ++ (initial.run before).engine.answers := by
        rw [run_append]
        exact answers_run (initial.run before) _
      rw [hnew, hsince', ← List.append_assoc] at hanswers
      cases List.append_cancel_right hanswers
      refine .inr ⟨⟨before, s, after, since', rfl, hcall, hendpoint, hsince', ?_⟩, ?_⟩
      · exact fun address hmem => hsince address (List.mem_append_right _ hmem)
      · exact fun address hmem => hsince address (List.mem_append_left _ hmem)
  · rintro (⟨hp, hcall, hendpoint, hfresh⟩ | ⟨⟨before, s, after, since, rfl, hcall, hendpoint,
      hanswers, hsince⟩, hfresh⟩)
    · exact ⟨acts, p.1, [], new, by rw [← hp], hcall, hendpoint, hnew, hfresh⟩
    · refine ⟨before, s, after ++ [p], new ++ since, ?_, hcall, hendpoint, ?_, ?_⟩
      · rw [List.append_assoc, List.cons_append]
      · rw [hnew, hanswers, List.append_assoc]
      · intro address hmem
        rcases List.mem_append.mp hmem with hmem | hmem
        · exact hfresh address hmem
        · exact hsince address hmem

/-- For an act that abandons nothing it is as before, unless a start has come to listen. -/
theorem abandoned_concat_of_ne (new : List Answer) (hp : p.2 ≠ .turn (.move .abandon))
    (hnew : (initial.run (acts ++ [p])).engine.answers =
      new ++ (initial.run acts).engine.answers) :
    Abandoned (acts ++ [p]) endpoint ↔
      Abandoned acts endpoint ∧ ∀ address, .started (.ok address) ∉ new := by
  rw [abandoned_concat new hnew]
  exact or_iff_right fun h => hp h.1

end Run

theorem exclusive_run (acts : List (Surroundings × Act)) : (initial.run acts).engine.Exclusive :=
  run_preserves (P := fun c => c.engine.Exclusive) (fun _ s a h => h.act s a) (.inl rfl) acts

/-- Between calls, with nothing that runs, the endpoint is that of an abandoned call, if there is
one. With a server that runs or a call that waits, none of those before matters. -/
structure Recalls (acts : List (Surroundings × Act)) : Prop where
  idle : (initial.run acts).engine.running = none → (initial.run acts).engine.call = none →
    ∀ endpoint, (initial.run acts).engine.endpoint = some endpoint ↔ Abandoned acts endpoint
  busy : (initial.run acts).engine.running.isSome = true ∨
    (initial.run acts).engine.call.isSome = true → ∀ endpoint, ¬ Abandoned acts endpoint

namespace Recalls

variable {acts : List (Surroundings × Act)} {p : Surroundings × Act}

theorem nil : Recalls [] := by
  have hnone : ∀ endpoint, ¬ Abandoned [] endpoint := by
    rintro endpoint ⟨before, s, after, since, hacts, -⟩
    simp at hacts
  exact ⟨fun _ _ endpoint => ⟨nofun, fun h => absurd h (hnone endpoint)⟩, fun _ => hnone⟩

/-- A call is abandoned, if there is one. -/
theorem abandon (h : Recalls acts) (hp : p.2 = .turn (.move .abandon)) :
    Recalls (acts ++ [p]) := by
  have hexclusive := exclusive_run acts
  have hengine : (initial.run (acts ++ [p])).engine =
      { (initial.run acts).engine with call := none } := by
    rw [engine_concat, hp]
    exact Engine.turn_abandon p.1 _
  have hconcat : ∀ endpoint, Abandoned (acts ++ [p]) endpoint ↔ _ :=
    fun endpoint => abandoned_concat [] (by rw [hengine]; rfl)
  simp only [hp, true_and, List.not_mem_nil, not_false_eq_true, implies_true, and_true] at hconcat
  refine ⟨fun hrunning _ endpoint => ?_, fun hbusy endpoint => ?_⟩
  · rw [hengine] at hrunning ⊢
    rw [hconcat]
    cases hcall : (initial.run acts).engine.call with
    | none =>
      rw [← h.idle hrunning hcall]
      simp
    | some call =>
      have hnone := h.busy (.inr (by rw [hcall]; rfl)) endpoint
      simp [hnone]
  · rw [hengine] at hbusy
    have hrunning : (initial.run acts).engine.running.isSome = true := by simpa using hbusy
    have hcall : (initial.run acts).engine.call = none := by
      refine hexclusive.resolve_left fun hnone => ?_
      rw [hnone] at hrunning
      cases hrunning
    rw [hconcat, hcall]
    simpa using h.busy (.inl hrunning) endpoint

/-- Behind a server that runs or a call that waits no abandoned call matters, unless this is it. -/
theorem not_abandoned_concat (h : Recalls acts) (hp : p.2 ≠ .turn (.move .abandon))
    (hbusy : (initial.run acts).engine.running.isSome = true ∨
      (initial.run acts).engine.call.isSome = true) (endpoint : Endpoint) :
    ¬ Abandoned (acts ++ [p]) endpoint := by
  obtain ⟨new, hnew⟩ := answers_act (initial.run acts) p.1 p.2
  rw [abandoned_concat_of_ne new hp (by rw [engine_concat]; exact hnew)]
  exact fun habandoned => h.busy hbusy endpoint habandoned.1

theorem turnover (h : Recalls acts) (hp : p.2 ≠ .turn (.move .abandon)) :
    Recalls (acts ++ [p]) := by
  have hexclusive := exclusive_run acts
  have hturnover := Engine.turnover_act p.1 (initial.run acts).engine hp
  rw [← engine_concat] at hturnover
  have hquiet : ∀ address, .started (.ok address) ∉ ([] : List Answer) := nofun
  cases hturnover with
  | stays hrunning hcall hendpoint hanswers =>
    refine ⟨fun hr hc endpoint => ?_, fun hbusy => ?_⟩
    · have hfree : (initial.run acts).engine.call = none := by
        rw [hc] at hcall
        exact Option.not_isSome_iff_eq_none.mp (by simp [← hcall])
      rw [hendpoint, h.idle (hrunning.symm.trans hr) hfree,
        abandoned_concat_of_ne [] hp hanswers]
      exact (and_iff_left hquiet).symm
    · rw [hrunning, hcall] at hbusy
      exact h.not_abandoned_concat hp hbusy
  | takes hbefore _ _ hcall =>
    refine ⟨fun _ hc => ?_, fun _ => h.not_abandoned_concat hp (.inl hbefore)⟩
    rw [hc] at hcall
    cases hcall
  | listens hrunning _ hanswers =>
    refine ⟨fun hr => ?_, fun _ endpoint => ?_⟩
    · rw [hr] at hrunning
      cases hrunning
    · rw [abandoned_concat_of_ne [_] hp hanswers]
      exact fun habandoned => habandoned.2 _ List.mem_cons_self
  | returns hbefore hfree hrunning hcall hendpoint hanswers hanswer =>
    refine ⟨fun _ _ endpoint => ?_, fun hbusy => ?_⟩
    · rw [hendpoint, h.idle hbefore hfree, abandoned_concat_of_ne [_] hp hanswers]
      refine (and_iff_left fun address hmem => ?_).symm
      exact hanswer address (List.mem_singleton.mp hmem).symm
    · rw [hrunning, hcall] at hbusy
      simp at hbusy
  | ends hbefore _ _ hendpoint =>
    have hnone := h.not_abandoned_concat hp (.inr hbefore)
    refine ⟨fun _ _ endpoint => ?_, fun _ => hnone⟩
    rw [hendpoint]
    exact ⟨nofun, fun habandoned => absurd habandoned (hnone endpoint)⟩

theorem run (acts : List (Surroundings × Act)) : Recalls acts := by
  induction acts using List.reverseRecOn with
  | nil => exact nil
  | append_singleton acts p ih =>
    by_cases hp : p.2 = .turn (.move .abandon)
    · exact ih.abandon hp
    · exact ih.turnover hp

end Recalls

/-- However calls were made and abandoned before, and whatever else happened: when a stop comes
back clean, the server is idle, and nothing runs or waits. But its endpoint is still that of a call
that was abandoned, if no start has come to listen since; only if there is no such call no question
is answered with an address. A stop that found nothing running leaves no entry in the registry; one
that waited leaves entries only to connections whose visitors came to another instance and are
still there. -/
theorem stop_recalls_abandoned_call (acts : List (Surroundings × Act)) (s : Surroundings) (t : Turn)
    (hclean : ((initial.run acts).act s (.turn t)).engine.answers =
      .stopped (.ok ()) :: (initial.run acts).engine.answers) :
    let c := initial.run acts
    let c' := c.act s (.turn t)
    let entries := c'.engine.board.hub.registry.entries
    c'.engine.state = .idle ∧ c'.engine.running = none ∧ c'.engine.call = none ∧
    (∀ endpoint, c'.engine.endpoint = some endpoint ↔ Abandoned acts endpoint) ∧
    (c'.engine.IsHidden ↔ ∀ endpoint, ¬ Abandoned acts endpoint) ∧
    (∀ call, c.engine.call = some call → ∀ id n, (id, n) ∈ entries →
      ∃ other ≠ call.running.place, .serving n ∈ c'.engine.present other) ∧
    (c.engine.call = none → entries = []) := by
  intro c c' entries
  have ht : t ≠ .move .abandon := by
    rintro rfl
    have hsame : (c.engine.turn s (.move .abandon)).answers = c.engine.answers := by
      rw [Engine.turn_abandon]
    exact (List.cons_ne_self _ _).symm (hsame.symm.trans hclean)
  have hshift := Engine.shift_turn s c.engine ht
  obtain ⟨hstate, hcall, hrunning, hat_once⟩ := hshift.of_stopped hclean
  have hrest : c'.engine.running = none := by
    rw [show c'.engine.running = c.engine.running from hrunning]
    rcases exclusive_run acts with hnone | hnone
    · exact hnone
    · exact (hat_once hnone).1
  have hendpoint : ∀ endpoint, c'.engine.endpoint = some endpoint ↔ Abandoned acts endpoint := by
    have hconcat : initial.run (acts ++ [(s, .turn t)]) = c' :=
      run_append initial acts [(s, .turn t)]
    have hidle := (Recalls.run (acts ++ [(s, .turn t)])).idle
    rw [hconcat] at hidle
    intro endpoint
    refine (hidle hrest hcall endpoint).trans ?_
    rw [abandoned_concat_of_ne [.stopped (.ok ())] (fun heq => ht (Act.turn.inj heq))
      (by rw [hconcat]; exact hclean)]
    exact and_iff_left (by simp)
  refine ⟨hstate, hrest, hcall, hendpoint, ?_, ?_, ?_⟩
  · rw [Engine.isHidden_iff, Option.eq_none_iff_forall_ne_some]
    exact forall_congr' fun endpoint => (hendpoint endpoint).not
  · intro call hwaits id n hmem
    have hsound : c'.course.Sound := by
      rw [course_act]
      exact (sound_run acts).run _
    have hhoused : c'.engine.Housed := (housed_run acts).act s (.turn t)
    obtain ⟨-, -, hdeserted⟩ : _ ∧ _ ∧ c'.engine.Deserted call.running.place :=
      (placed_run acts).deserted hwaits hshift hclean
    obtain ⟨other, hother⟩ :=
      (isOver_or_present hsound hhoused n).resolve_left fun hover => hover.entry id hmem
    refine ⟨other, ?_, hother⟩
    rintro rfl
    rw [hdeserted.present] at hother
    cases hother
  · intro hnone
    obtain ⟨hnothing, hrequest⟩ := hat_once hnone
    cases Engine.eq_stop_of_request? hrequest
    exact Engine.entries_stop s hnone hnothing

/-- A stop is abandoned, and another finds nothing running. -/
theorem stop_recalls_abandoned_call_next_stop :
    let s : Surroundings :=
      { lan := .v4 ⟨127, 0, 0, 1⟩, isUsable := fun _ => false, bind := .bound }
    let acts : List (Surroundings × Act) :=
      [(s, .turn (.move (.start {}))), (s, .turn (.move .stop)), (s, .turn (.move .abandon))]
    let c := initial.run acts
    let c' := c.act s (.turn (.move .stop))
    let endpoint := Endpoint.ofAddress (.ofIp s.lan 1024) s.lan false "/websocket"
    c'.engine.answers = .stopped (.ok ()) :: c.engine.answers ∧ Abandoned acts endpoint ∧
      c'.engine.endpoint = some endpoint ∧ c'.engine.board.hub.registry.entries = [] := by
  intro s acts c c' endpoint
  have hclean : c'.engine.answers = .stopped (.ok ()) :: c.engine.answers := rfl
  have habandoned : Abandoned acts endpoint :=
    ⟨[(s, .turn (.move (.start {}))), (s, .turn (.move .stop))], s, [], [], rfl, rfl,
      by decide +kernel, rfl, nofun⟩
  obtain ⟨-, -, -, hendpoint, -, -, hempty⟩ :=
    stop_recalls_abandoned_call acts s (.move .stop) hclean
  exact ⟨hclean, habandoned, (hendpoint endpoint).mpr habandoned, hempty rfl⟩

/-- When a stop was abandoned and another has come back clean, the server still tells of an
address; and a visitor of the instance that nobody waits for any more may still register. -/
theorem url_outlasts_clean_stop :
    let s : Surroundings :=
      { lan := .v4 ⟨127, 0, 0, 1⟩, isUsable := fun _ => false, bind := .bound }
    let acts : List Act := [.turn (.move (.start {})), .turn (.move (.accept 0 "a:1")),
      .turn (.move .stop), .turn (.move .abandon)]
    let later : List Act := [.turn (.move (.upgrade 0 0 [0x89, 0])),
      .turn (.move (.outlet 0 .stalled))] ++ List.replicate 3 (.turn (.move (.step 0)))
    let c := initial.run (acts.map (s, ·))
    let stopped := c.act s (.turn (.move .stop))
    let c' := stopped.run (later.map (s, ·))
    stopped.engine.answers = .stopped (.ok ()) :: c.engine.answers ∧
      stopped.engine.state = .idle ∧ stopped.engine.running = none ∧
      stopped.engine.url = some "ws://127.0.0.1:1024/websocket" ∧
      stopped.engine.address = some (.ofIp s.lan 1024) ∧
      c'.engine.state = .idle ∧ c'.engine.board.hub.registry.entries = [("a:1", 0)] :=
  ⟨rfl, by decide +kernel⟩

end Chronicle

end WebSocketHost
