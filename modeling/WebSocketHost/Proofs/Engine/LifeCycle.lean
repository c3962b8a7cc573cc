import Mathlib.Data.List.Chain
import WebSocketHost.Proofs.Engine.Completion

/-! A server's life, whatever calls are made of it and whatever else happens in between: no
call leaves it between two states, and each goes through the states there are in order. -/
namespace WebSocketHost

/-- The changes of state in a server's life. -/
def EngineState.leadsTo : EngineState → EngineState → Bool
  | idle, starting | starting, listening | starting, failed | listening, stopping
  | stopping, idle | failed, starting | failed, idle => true
  | _, _ => false

namespace Engine

/-- The states published so far, the latest first. -/
def states (e : Engine) : List EngineState := e.state :: e.history

/-- Each state is the one before or one that this leads to. -/
def Orderly (states : List EngineState) : Prop :=
  states.IsChain fun new old => new = old ∨ old.leadsTo new = true

theorem Orderly.cons {new old : EngineState} {states : List EngineState}
    (h : Orderly (old :: states)) (hnew : new = old ∨ old.leadsTo new = true) :
    Orderly (new :: old :: states) :=
  List.isChain_cons_cons.mpr ⟨hnew, h⟩

/-- There is an instance, which accepts visitors where the endpoint says, and as the
configuration and the surroundings at the start would have it. -/
def Serves (e : Engine) (s : Surroundings) (config : Config) : Prop :=
  ∃ running i, e.running = some running ∧ e.instances[running.place]? = some i ∧
    i.isCancelled = false ∧ i.isAccepting = true ∧
    e.endpoint =
      some (.ofAddress i.address s.lan (config.certificate.any s.isUsable) config.path)

/-- The server is not to be reached. -/
def IsDown (e : Engine) : Prop :=
  (e.state = .idle ∨ e.state = .failed) ∧ e.running = none ∧ e.address = none ∧ e.url = none ∧
    e.baseUrl = none ∧ e.isSecure = false

theorem Vacant.isDown {e : Engine} (h : e.Vacant) (hstate : e.state = .idle ∨ e.state = .failed) :
    e.IsDown := by
  refine ⟨hstate, h.running, ?_, ?_, ?_, ?_⟩
  all_goals
    simp only [address, url, baseUrl, isSecure, h.endpoint]
    rfl

theorem Serves.of_aside {e e' : Engine} {s : Surroundings} {config : Config}
    (h : e.Serves s config) (ha : Aside e e') : e'.Serves s config := by
  obtain ⟨running, i, hrunning, hi, hfree, haccepting, hendpoint⟩ := h
  obtain ⟨j, hj, hkept⟩ := ha.instances running.place i hi
  refine ⟨running, j, ha.running.trans hrunning, hj, hkept.isCancelled.trans hfree,
    (hkept.isAccepting hfree).trans haccepting, ?_⟩
  rw [ha.endpoint, hendpoint, hkept.address]

theorem states_of_aside {e e' : Engine} (ha : Aside e e') : e'.states = e.states := by
  rw [states, ha.state, ha.history, states]

/-- What a start comes to, if it does not break off. -/
theorem Opens.outcome {s : Surroundings} {config : Config} {e e' : Engine}
    (h : Opens s config e e') (hvacant : e.Vacant)
    (hcompleted : .started (.error .timeoutOverflow) ∉ e'.answers) :
    e'.call = none ∧ e'.answers.length = e.answers.length + 1 ∧
      ∃ final, e'.states = final :: .starting :: e.states ∧
        (final = .listening ∧ e'.Serves s config ∨ final = .failed ∧ e'.Vacant) := by
  cases h with
  | fails => exact ⟨rfl, rfl, .failed, rfl, .inr ⟨rfl, hvacant.running, hvacant.endpoint⟩⟩
  | overflows => exact absurd List.mem_cons_self hcompleted
  | listens =>
    exact ⟨rfl, rfl, .listening, rfl,
      .inl ⟨rfl, _, _, rfl, List.getElem?_concat_length, rfl, rfl, rfl⟩⟩

/-- A server, the last call that took control of it, as that call found it, and what was
around when the last call came to its end. -/
structure Ledger where
  engine : Engine
  last : Option (Request × Engine) := none
  met : Option Surroundings := none

namespace Ledger

def initial : Ledger := { engine := .initial }

/-- The server has come to be another, by a call if one took control. -/
def record (l : Ledger) (s : Surroundings) (request : Option Request) (e : Engine) : Ledger where
  engine := e
  last := match request with
    | some request => some (request, l.engine)
    | none => l.last
  met := if e.answers.length = l.engine.answers.length then l.met else some s

def turn (l : Ledger) (s : Surroundings) (t : Turn) : Ledger :=
  l.record s (l.engine.request? t) (l.engine.turn s t)

def run (l : Ledger) (turns : List (Surroundings × Turn)) : Ledger :=
  turns.foldl (fun l p => l.turn p.1 p.2) l

/-- What a call has come to that found another engine. A server that listens is stopped
before it starts again. -/
def CameTo (l : Ledger) (before : Engine) : Request → Prop
  | .stop =>
    l.engine.states = .idle ::
      ((if before.state = .listening then [.stopping] else []) ++ before.states) ∧
    l.engine.Vacant
  | .start config => ∃ final,
    l.engine.states = final :: .starting ::
      ((if before.state = .listening then [.idle, .stopping] else []) ++ before.states) ∧
    (final = .listening ∧ (∃ s, l.met = some s ∧ l.engine.Serves s config) ∨
      final = .failed ∧ l.engine.Vacant)

/-- How things stand while no call has control, going by the last that had. -/
def Rests (l : Ledger) : Prop :=
  match l.last with
  | none => l.engine.states = [.idle] ∧ l.engine.Vacant
  | some (request, before) => l.CameTo before request

/-- The server listens, and serves as the last start would have it. -/
def IsUp (l : Ledger) : Prop :=
  l.engine.state = .listening ∧ ∃ config before s, l.last = some (.start config, before) ∧
    l.met = some s ∧ l.engine.Serves s config

/-- How things stand while a call waits: it stops what was running. -/
def Waits (l : Ledger) (call : Call) : Prop :=
  ∃ request before, l.last = some (request, before) ∧ before.state = .listening ∧
    call.restart = request.restart ∧ l.engine.states = .stopping :: before.states ∧
    l.engine.running = none

structure Lived (l : Ledger) : Prop where
  orderly : Orderly l.engine.states
  rests : l.engine.call = none → l.Rests
  waits : ∀ call, l.engine.call = some call → l.Waits call

theorem Rests.of_last {l : Ledger} {request : Request} {before : Engine}
    (hlast : l.last = some (request, before)) (h : l.CameTo before request) : l.Rests := by
  unfold Rests
  rw [hlast]
  exact h

/-- A server at rest listens and serves, or is idle or failed and vacant. -/
theorem Rests.cases {l : Ledger} (h : l.Rests) :
    l.IsUp ∨ (l.engine.state = .idle ∨ l.engine.state = .failed) ∧ l.engine.Vacant := by
  unfold Rests at h
  split at h
  · exact .inr ⟨.inl (List.cons.inj h.1).1, h.2⟩
  next request before hlast =>
  cases request with
  | stop => exact .inr ⟨.inl (List.cons.inj h.1).1, h.2⟩
  | start config =>
    obtain ⟨final, hstates, ⟨rfl, s, hmet, hserves⟩ | ⟨rfl, hvacant⟩⟩ := h
    · exact .inl ⟨(List.cons.inj hstates).1, config, before, s, hlast, hmet, hserves⟩
    · exact .inr ⟨.inr (List.cons.inj hstates).1, hvacant⟩

theorem Rests.vacant {l : Ledger} (h : l.Rests) (hrunning : l.engine.running = none) :
    (l.engine.state = .idle ∨ l.engine.state = .failed) ∧ l.engine.state ≠ .listening ∧
      l.engine.Vacant := by
  rcases h.cases with ⟨-, config, before, s, -, -, running, i, hsome, -⟩ | ⟨hstate, hvacant⟩
  · cases hrunning.symm.trans hsome
  · refine ⟨hstate, ?_, hvacant⟩
    rcases hstate with hstate | hstate <;> rw [hstate] <;> nofun

theorem Rests.listening {l : Ledger} (h : l.Rests) {running : Running}
    (hrunning : l.engine.running = some running) : l.engine.state = .listening := by
  rcases h.cases with ⟨hstate, -⟩ | ⟨-, hvacant⟩
  · exact hstate
  · cases hvacant.running.symm.trans hrunning

theorem lived_initial : Lived initial where
  orderly := .singleton _
  rests _ := ⟨rfl, rfl, rfl⟩
  waits _ h := by cases h

section Record

variable {l : Ledger} {s : Surroundings} {e : Engine}

theorem CameTo.of_aside {request : Request} {before : Engine} (h : l.CameTo before request)
    (ha : Aside l.engine e) : (l.record s none e).CameTo before request := by
  have hstates := states_of_aside ha
  have hmet : (l.record s none e).met = l.met := if_pos (by rw [ha.answers])
  cases request with
  | stop => exact ⟨hstates.trans h.1, h.2.of_aside ha⟩
  | start config =>
    obtain ⟨final, hfinal, ⟨rfl, s', hs', hserves⟩ | ⟨rfl, hvacant⟩⟩ := h
    · exact ⟨.listening, hstates.trans hfinal,
        .inl ⟨rfl, s', hmet.trans hs', hserves.of_aside ha⟩⟩
    · exact ⟨.failed, hstates.trans hfinal, .inr ⟨rfl, hvacant.of_aside ha⟩⟩

theorem Rests.of_aside (h : l.Rests) (ha : Aside l.engine e) : (l.record s none e).Rests := by
  unfold Rests at h ⊢
  show match l.last with
    | none => e.states = [.idle] ∧ e.Vacant
    | some (request, before) => (l.record s none e).CameTo before request
  split at h
  · exact ⟨(states_of_aside ha).trans h.1, h.2.of_aside ha⟩
  · exact CameTo.of_aside h ha

/-- A start opens an instance or fails, and its states are in order. -/
theorem cameTo_start {config : Config} {request : Option Request} {before found : Engine}
    (hopens : Opens s config found e) (hanswers : found.answers = l.engine.answers)
    (hstates : found.states =
      (if before.state = .listening then [.idle, .stopping] else []) ++ before.states)
    (hvacant : found.Vacant)
    (hcompleted : .started (.error .timeoutOverflow) ∉ e.answers) :
    (l.record s request e).CameTo before (.start config) := by
  obtain ⟨-, hlength, final, hfinal, hend⟩ := hopens.outcome hvacant hcompleted
  have hmet : (l.record s request e).met = some s := if_neg (by rw [hlength, hanswers]; omega)
  refine ⟨final, hstates ▸ hfinal, ?_⟩
  exact hend.imp_left fun ⟨hup, hserves⟩ => ⟨hup, s, hmet, hserves⟩

theorem orderly_start {config : Config} {found : Engine} (hopens : Opens s config found e)
    (h : Orderly found.states) (hstate : found.state = .idle ∨ found.state = .failed)
    (hvacant : found.Vacant)
    (hcompleted : .started (.error .timeoutOverflow) ∉ e.answers) : Orderly e.states := by
  obtain ⟨-, -, final, hfinal, hend⟩ := hopens.outcome hvacant hcompleted
  rw [hfinal]
  refine (h.cons (.inr ?_)).cons (.inr ?_)
  · rcases hstate with hstate | hstate <;> rw [hstate] <;> rfl
  · rcases hend with ⟨rfl, -⟩ | ⟨rfl, -⟩ <;> rfl

end Record

theorem answers_run (l : Ledger) {turns : List (Surroundings × Turn)}
    (hkept : ∀ s, (s, .move .abandon) ∉ turns) :
    l.engine.answers <:+ (l.run turns).engine.answers := by
  induction turns generalizing l with
  | nil => exact List.suffix_rfl
  | cons p turns ih =>
    have ht : p.2 ≠ .move .abandon := fun ht => hkept p.1 (ht ▸ List.mem_cons_self)
    have hstep := (shift_turn p.1 l.engine ht).passage.answers_suffix
    exact hstep.trans (ih (l.turn p.1 p.2) fun s hmem => hkept s (List.mem_cons_of_mem _ hmem))

namespace Lived

variable {l : Ledger} {s : Surroundings} {e : Engine} {request : Option Request}

/-- A server that is left at rest. -/
theorem of_rests (hcall : e.call = none) (horderly : Orderly e.states)
    (hrests : (l.record s request e).Rests) : Lived (l.record s request e) where
  orderly := horderly
  rests _ := hrests
  waits call h := by cases hcall.symm.trans h

/-- A server that is left waiting. -/
theorem of_waits {call : Call} (hcall : e.call = some call) (horderly : Orderly e.states)
    (hwaits : (l.record s request e).Waits call) : Lived (l.record s request e) where
  orderly := horderly
  rests h := by cases hcall.symm.trans h
  waits call' h := by
    cases hcall.symm.trans h
    exact hwaits

theorem aside (h : Lived l) (ha : Aside l.engine e) : Lived (l.record s none e) where
  orderly := by
    show Orderly e.states
    rw [states_of_aside ha]
    exact h.orderly
  rests hcall := (h.rests (ha.call.symm.trans hcall)).of_aside ha
  waits call hcall := by
    obtain ⟨request, before, hlast, hbefore, hrestart, hstates, hrunning⟩ :=
      h.waits call (ha.call.symm.trans hcall)
    exact ⟨request, before, hlast, hbefore, hrestart, (states_of_aside ha).trans hstates,
      ha.running.trans hrunning⟩

theorem waits_on {call : Call} {wait : StopWait} (h : Lived l)
    (hcall : l.engine.call = some call) :
    Lived (l.record s none { l.engine with call := some { call with wait } }) :=
  of_waits rfl h.orderly (h.waits call hcall)

theorem starts {config : Config} (h : Lived l) (hcall : l.engine.call = none)
    (hrunning : l.engine.running = none) (hopens : Opens s config l.engine e)
    (hcompleted : .started (.error .timeoutOverflow) ∉ e.answers) :
    Lived (l.record s (some (.start config)) e) := by
  obtain ⟨hstate, hnot, hvacant⟩ := (h.rests hcall).vacant hrunning
  refine of_rests (hopens.outcome hvacant hcompleted).1
    (orderly_start hopens h.orderly hstate hvacant hcompleted) (.of_last rfl ?_)
  refine cameTo_start hopens rfl ?_ hvacant hcompleted
  rw [if_neg hnot]
  rfl

theorem stopsNothing (h : Lived l) (hcall : l.engine.call = none)
    (hrunning : l.engine.running = none) (hdone : e.call = none)
    (hstates : e.states = .idle :: l.engine.states) (hvacant : e.Vacant) :
    Lived (l.record s (some .stop) e) := by
  obtain ⟨hstate, hnot, -⟩ := (h.rests hcall).vacant hrunning
  have horderly : Orderly (.idle :: l.engine.states) := by
    refine h.orderly.cons ?_
    rcases hstate with hstate | hstate <;> rw [hstate]
    · exact .inl rfl
    · exact .inr rfl
  refine of_rests hdone (hstates ▸ horderly) (.of_last rfl ⟨?_, hvacant⟩)
  rw [if_neg hnot]
  exact hstates

theorem stops {request : Request} {running : Running} (h : Lived l)
    (hcall : l.engine.call = none) (hrunning : l.engine.running = some running)
    (hwaiting : e.call = some ⟨running, .accepting, request.restart⟩)
    (hstates : e.states = .stopping :: l.engine.states) (hnone : e.running = none) :
    Lived (l.record s (some request) e) := by
  have hstate := (h.rests hcall).listening hrunning
  have horderly : Orderly (.stopping :: l.engine.states) :=
    h.orderly.cons (.inr (by rw [hstate]; rfl))
  exact of_waits hwaiting (hstates ▸ horderly)
    ⟨request, l.engine, rfl, hstate, rfl, hstates, hnone⟩

/-- What a call stopped is stopped; it has only to say so, or to start again. -/
theorem stopped {call : Call} (h : Lived l) (hcall : l.engine.call = some call) :
    ∃ request before, l.last = some (request, before) ∧ call.restart = request.restart ∧
      before.state = .listening ∧ Orderly (.idle :: l.engine.states) ∧
      .idle :: l.engine.states = [.idle, .stopping] ++ before.states ∧
      l.engine.running = none := by
  obtain ⟨request, before, hlast, hbefore, hrestart, hstates, hrunning⟩ := h.waits call hcall
  have horderly := h.orderly
  rw [hstates] at horderly
  refine ⟨request, before, hlast, hrestart, hbefore, ?_, congrArg _ hstates, hrunning⟩
  rw [hstates]
  exact horderly.cons (.inr rfl)

theorem ends {call : Call} (h : Lived l) (hcall : l.engine.call = some call)
    (hrestart : call.restart = none) (hdone : e.call = none)
    (hstates : e.states = .idle :: l.engine.states) (hsame : e.running = l.engine.running)
    (hendpoint : e.endpoint = none) : Lived (l.record s none e) := by
  obtain ⟨request, before, hlast, hrequest, hbefore, horderly, hall, hrunning⟩ := h.stopped hcall
  refine of_rests hdone (hstates ▸ horderly) (.of_last hlast ?_)
  cases request with
  | start config => cases hrestart.symm.trans hrequest
  | stop =>
    refine ⟨?_, hsame.trans hrunning, hendpoint⟩
    rw [if_pos hbefore]
    exact hstates.trans hall

theorem restarts {call : Call} {config : Config} (h : Lived l)
    (hcall : l.engine.call = some call) (hrestart : call.restart = some config)
    (hopens : Opens s config { l.engine with
      state := .idle, history := l.engine.state :: l.engine.history, endpoint := none } e)
    (hcompleted : .started (.error .timeoutOverflow) ∉ e.answers) :
    Lived (l.record s none e) := by
  obtain ⟨request, before, hlast, hrequest, hbefore, horderly, hall, hrunning⟩ := h.stopped hcall
  refine of_rests (hopens.outcome ⟨hrunning, rfl⟩ hcompleted).1
    (orderly_start hopens horderly (.inl rfl) ⟨hrunning, rfl⟩ hcompleted) (.of_last hlast ?_)
  cases request with
  | stop => cases hrestart.symm.trans hrequest
  | start config' =>
    cases hrestart.symm.trans hrequest
    refine cameTo_start hopens rfl ?_ ⟨hrunning, rfl⟩ hcompleted
    rw [if_pos hbefore]
    exact hall

/-- A passage leaves a server lived, unless a call breaks off. -/
theorem record (h : Lived l) (hp : Passage s l.engine request e)
    (hcompleted : .started (.error .timeoutOverflow) ∉ e.answers) :
    Lived (l.record s request e) := by
  cases hp with
  | aside ha => exact h.aside ha
  | waits hcall => exact h.waits_on hcall
  | starts hcall hrunning hopens => exact h.starts hcall hrunning hopens hcompleted
  | stopsNothing hcall hrunning =>
    exact h.stopsNothing hcall hrunning rfl rfl
      ⟨hrunning, ((h.rests hcall).vacant hrunning).2.2.endpoint⟩
  | stops hcall hrunning => exact h.stops hcall hrunning rfl rfl rfl
  | ends hcall hrestart => exact h.ends hcall hrestart rfl rfl rfl rfl
  | restarts hcall hrestart hopens => exact h.restarts hcall hrestart hopens hcompleted

theorem run (h : Lived l) {turns : List (Surroundings × Turn)}
    (hkept : ∀ s, (s, .move .abandon) ∉ turns)
    (hcompleted : .started (.error .timeoutOverflow) ∉ (l.run turns).engine.answers) :
    Lived (l.run turns) := by
  induction turns generalizing l with
  | nil => exact h
  | cons p turns ih =>
    have ht : p.2 ≠ .move .abandon := fun ht => hkept p.1 (ht ▸ List.mem_cons_self)
    have hrest : ∀ s, (s, .move .abandon) ∉ turns :=
      fun s hmem => hkept s (List.mem_cons_of_mem _ hmem)
    have hsofar : .started (.error .timeoutOverflow) ∉ (l.turn p.1 p.2).engine.answers :=
      fun hmem => hcompleted ((answers_run _ hrest).mem hmem)
    exact ih (h.record (shift_turn p.1 l.engine ht).passage hsofar) hrest hcompleted

end Lived

theorem isUp_or_isDown {l : Ledger} (h : l.Rests) :
    (l.IsUp ∨ l.engine.IsDown) ∧ ¬ (l.IsUp ∧ l.engine.IsDown) := by
  constructor
  · rcases h.cases with hup | ⟨hstate, hvacant⟩
    · exact .inl hup
    · exact .inr (hvacant.isDown hstate)
  · rintro ⟨⟨hup, -⟩, ⟨hdown, -⟩⟩
    rw [hup] at hdown
    rcases hdown with hdown | hdown <;> cases hdown

/-- Whatever calls take control of a server and give it back, and whatever else happens to it
meanwhile and in between, unless a call is abandoned or breaks off: its states come in order;
while no call has control, it either listens and serves as the last start would have it, or
is idle or failed and not to be reached; a start has led from the state it found, by way of
stopping and idle if that was listening, to starting and then to listening or failed; a stop
has led to idle, whatever its answer; and a stop would come to its end by itself. -/
theorem life_cycle (turns : List (Surroundings × Turn))
    (hkept : ∀ s, (s, .move .abandon) ∉ turns)
    (hcompleted : .started (.error .timeoutOverflow) ∉ (initial.run turns).engine.answers) :
    let l := initial.run turns
    Orderly l.engine.states ∧ (l.engine.call = none →
      ((l.IsUp ∨ l.engine.IsDown) ∧ ¬ (l.IsUp ∧ l.engine.IsDown)) ∧
      (∀ request before, l.last = some (request, before) → l.CameTo before request) ∧
      ∀ s, (l.engine.stop s).Stopped) := by
  intro l
  have h : Lived l := lived_initial.run hkept hcompleted
  refine ⟨h.orderly, fun hcall => ⟨isUp_or_isDown (h.rests hcall), ?_, fun s => ?_⟩⟩
  · intro request before hlast
    have hrests := h.rests hcall
    unfold Rests at hrests
    rw [hlast] at hrests
    exact hrests
  · exact stopped_stop s l.engine fun hrunning => ((h.rests hcall).vacant hrunning).2.2.endpoint

/-- A start on a port that is in use, one that succeeds, and one that takes the place of the
second, in surroundings where its certificate can be used. -/
theorem life_cycle_restart :
    let lan : IpAddress := .v4 ⟨127, 0, 0, 1⟩
    let busy : Surroundings := { lan, isUsable := fun _ => false, bind := fun _ => .inUse }
    let free : Surroundings := { lan, isUsable := fun _ => true, bind := .bound }
    let secured : Config := { certificate := some (.bytes [] "secret"), path := "/other" }
    let turns : List (Surroundings × Turn) :=
      [(busy, .move (.start {})), (free, .move (.start {})), (busy, .move (.start secured)),
        (busy, .quiesce), (busy, .move .proceed), (free, .move .proceed)]
    let l := initial.run turns
    l.engine.states = [.listening, .starting, .idle, .stopping, .listening, .starting, .failed,
      .starting, .idle] ∧ l.IsUp ∧ l.engine.url = some "wss://127.0.0.1:1024/other" ∧
      ∀ s, (l.engine.stop s).Stopped := by
  intro lan busy free secured turns
  have hkept : ∀ s, (s, .move .abandon) ∉ turns := by
    intro s hmem
    simp [turns] at hmem
  have hcompleted : .started (.error .timeoutOverflow) ∉ (initial.run turns).engine.answers := by
    have hall : (initial.run turns).engine.answers.all fun
        | .started (.error .timeoutOverflow) => false
        | _ => true := by
      decide +kernel
    intro hmem
    cases List.all_eq_true.mp hall _ hmem
  have hstates : (initial.run turns).engine.states = [.listening, .starting, .idle, .stopping,
      .listening, .starting, .failed, .starting, .idle] := by
    decide +kernel
  have hcall : (initial.run turns).engine.call = none :=
    Option.isNone_iff_eq_none.mp (by decide +kernel)
  have hurl : (initial.run turns).engine.url = some "wss://127.0.0.1:1024/other" := by
    decide +kernel
  have hall := life_cycle turns hkept hcompleted
  -- the rest does not look into the run
  generalize initial.run turns = l at hstates hcall hurl hall ⊢
  obtain ⟨-, hall⟩ := hall
  obtain ⟨⟨hup | hdown, -⟩, -, hstop⟩ := hall hcall
  · exact ⟨hstates, hup, hurl, hstop⟩
  · have hstate : l.engine.state = .listening := (List.cons.inj hstates).1
    obtain ⟨hnot, -⟩ := hdown
    rw [hstate] at hnot
    rcases hnot with hnot | hnot <;> cases hnot

end Ledger

end Engine

end WebSocketHost
