import WebSocketHost.Engine

/-! What each thing that happens does to a server's life: most leave it as it is, and a call
goes from its request over its waiting to its answer. Later proofs split on `Passage` and do
not open the moves. -/
namespace WebSocketHost

namespace Engine

/-- A call, as it is asked for. -/
inductive Request
  | start (config : Config)
  | stop

/-- With what a call starts a server, once that which runs is stopped. -/
def Request.restart : Request → Option Config
  | start config => some config
  | stop => none

/-- What happens to a server: a move, or all that a cancellation brings about by itself. -/
inductive Turn
  | move (m : Move)
  | quiesce

/-- A turn that asks for a call, or gives one up. -/
def Turn.isCall : Turn → Bool
  | .move (.start _) | .move .stop | .move .abandon => true
  | _ => false

def turn (s : Surroundings) (e : Engine) : Turn → Engine
  | .move m => (e.step? s m).getD e
  | .quiesce => e.quiesce

/-- The call that takes control by a turn. -/
def request? (e : Engine) : Turn → Option Request
  | .move (.start config) => if e.call.isNone then some (.start config) else none
  | .move .stop => if e.call.isNone then some .stop else none
  | _ => none

/-- An instance to which at most visitors have come, or that was cancelled. -/
structure Kept (i j : Instance) : Prop where
  address : j.address = i.address
  isCancelled : j.isCancelled = i.isCancelled
  isAccepting : i.isCancelled = false → j.isAccepting = i.isAccepting

/-- Between two engines no call has done anything. -/
structure Aside (e e' : Engine) : Prop where
  state : e'.state = e.state
  history : e'.history = e.history
  endpoint : e'.endpoint = e.endpoint
  running : e'.running = e.running
  call : e'.call = e.call
  answers : e'.answers = e.answers
  instances : ∀ (place : Nat) (i : Instance), e.instances[place]? = some i →
    ∃ j, e'.instances[place]? = some j ∧ Kept i j

/-- There is neither an instance nor a place to reach one. -/
structure Vacant (e : Engine) : Prop where
  running : e.running = none
  endpoint : e.endpoint = none

/-- What comes of opening an instance. -/
inductive Opens (s : Surroundings) (config : Config) (e : Engine) : Engine → Prop
  | fails {err : StartError} : Opens s config e { e with
      state := .failed
      history := .starting :: e.state :: e.history
      call := none
      answers := .started (.error err) :: e.answers }
  /-- The call breaks off. -/
  | overflows {instances : List Instance} : Opens s config e { e with
      state := .starting
      history := e.state :: e.history
      instances
      call := none
      answers := .started (.error .timeoutOverflow) :: e.answers }
  | listens {address : SocketAddress} {drainTimeout : Duration} : Opens s config e { e with
      state := .listening
      history := .starting :: e.state :: e.history
      endpoint := some (.ofAddress address s.lan (config.certificate.any s.isUsable) config.path)
      instances := e.instances ++
        [{ address, maxFrame := config.maxFrameSize, closeTimeout := config.closeTimeout }]
      running := some ⟨e.instances.length, drainTimeout⟩
      call := none
      answers := .started (.ok address) :: e.answers }

/-- What a turn does to a server's life. -/
inductive Passage (s : Surroundings) (e : Engine) : Option Request → Engine → Prop
  | aside {e' : Engine} (h : Aside e e') : Passage s e none e'
  | waits {call : Call} {wait : StopWait} (hcall : e.call = some call) :
    Passage s e none { e with call := some { call with wait } }
  | starts {config : Config} {e' : Engine} (hcall : e.call = none) (hrunning : e.running = none)
    (h : Opens s config e e') : Passage s e (some (.start config)) e'
  | stopsNothing {board : Switchboard} (hcall : e.call = none) (hrunning : e.running = none) :
    Passage s e (some .stop) { e with
      state := .idle
      history := e.state :: e.history
      call := none
      answers := .stopped (.ok ()) :: e.answers
      board }
  | stops {request : Request} {running : Running} {instances : List Instance}
    {board : Switchboard} (hcall : e.call = none) (hrunning : e.running = some running) :
    Passage s e (some request) { e with
      state := .stopping
      history := e.state :: e.history
      running := none
      call := some ⟨running, .accepting, request.restart⟩
      instances
      board }
  | ends {call : Call} {result : Except StopError Unit} (hcall : e.call = some call)
    (hrestart : call.restart = none) :
    Passage s e none { e with
      state := .idle
      history := e.state :: e.history
      endpoint := none
      call := none
      answers := .stopped result :: e.answers }
  | restarts {call : Call} {config : Config} {e' : Engine} (hcall : e.call = some call)
    (hrestart : call.restart = some config)
    (h : Opens s config { e with
      state := .idle, history := e.state :: e.history, endpoint := none } e') :
    Passage s e none e'

/-! ### Asides -/

namespace Kept

variable {i : Instance}

theorem refl (i : Instance) : Kept i i := ⟨rfl, rfl, fun _ => rfl⟩

theorem visitors (i : Instance) (visitors : List Visitor) : Kept i { i with visitors } :=
  ⟨rfl, rfl, fun _ => rfl⟩

end Kept

namespace Aside

variable {e : Engine}

theorem refl (e : Engine) : Aside e e :=
  ⟨rfl, rfl, rfl, rfl, rfl, rfl, fun _ i hi => ⟨i, hi, .refl i⟩⟩

theorem board (e : Engine) (board : Switchboard) : Aside e { e with board } :=
  ⟨rfl, rfl, rfl, rfl, rfl, rfl, fun _ i hi => ⟨i, hi, .refl i⟩⟩

theorem onInstance (e : Engine) (place : Nat) {f : Instance → Instance}
    (hf : ∀ i, e.instances[place]? = some i → Kept i (f i)) : Aside e (e.onInstance place f) := by
  refine ⟨rfl, rfl, rfl, rfl, rfl, rfl, fun k i hi => ?_⟩
  have hmodify : (e.instances.modify place f)[k]? = some (if place = k then f i else i) := by
    rw [List.getElem?_modify]
    split <;> exact congrArg _ hi
  refine ⟨_, hmodify, ?_⟩
  split
  · next hk =>
    subst hk
    exact hf i hi
  · exact .refl i

theorem trans {e' e'' : Engine} (h : Aside e e') (h' : Aside e' e'') : Aside e e'' := by
  refine ⟨h'.state.trans h.state, h'.history.trans h.history, h'.endpoint.trans h.endpoint,
    h'.running.trans h.running, h'.call.trans h.call, h'.answers.trans h.answers, ?_⟩
  intro place i hi
  obtain ⟨j, hj, hij⟩ := h.instances place i hi
  obtain ⟨k, hk, hjk⟩ := h'.instances place j hj
  refine ⟨k, hk, hjk.address.trans hij.address, hjk.isCancelled.trans hij.isCancelled, ?_⟩
  intro hfree
  exact (hjk.isAccepting (hij.isCancelled.trans hfree)).trans (hij.isAccepting hfree)

theorem quiesce (e : Engine) : Aside e e.quiesce := by
  refine ⟨rfl, rfl, rfl, rfl, rfl, rfl, fun place i hi => ?_⟩
  unfold Engine.quiesce
  rw [List.getElem?_map, hi]
  refine ⟨_, rfl, ?_⟩
  dsimp only
  split
  · next hcancelled => exact ⟨rfl, rfl, fun hfree => by simp [hfree] at hcancelled⟩
  · exact .refl i

end Aside

theorem Vacant.of_aside {e e' : Engine} (h : e.Vacant) (ha : Aside e e') : e'.Vacant :=
  ⟨ha.running.trans h.running, ha.endpoint.trans h.endpoint⟩

/-! ### Calls -/

theorem opens_openOn (s : Surroundings) (config : Config) (e : Engine) :
    Opens s config e (e.openOn s config) := by
  unfold openOn launch
  dsimp only
  split
  · exact .fails
  · split
    · exact .overflows
    · exact .listens

theorem Opens.call_eq_none {s : Surroundings} {config : Config} {e e' : Engine}
    (h : Opens s config e e') : e'.call = none := by
  cases h <;> rfl

theorem request?_of_step?_eq_none {s : Surroundings} {e : Engine} {m : Move}
    (h : e.step? s m = none) : e.request? (.move m) = none := by
  cases m with
  | start | stop =>
    unfold step? at h
    dsimp only at h
    split at h
    · cases h
    · next hcall => exact if_neg hcall
  | _ => rfl

/-- Only a turn that asks for a start makes one take control. -/
theorem eq_start_of_request? {e : Engine} {t : Turn} {config : Config}
    (h : e.request? t = some (.start config)) : t = .move (.start config) := by
  unfold request? at h
  split at h
  · split at h <;> cases h
    rfl
  · split at h <;> cases h
  · cases h

theorem Opens.answers_suffix {s : Surroundings} {config : Config} {e e' : Engine}
    (h : Opens s config e e') : e.answers <:+ e'.answers := by
  cases h <;> exact List.suffix_cons _ _

/-- What calls came to remains. -/
theorem Passage.answers_suffix {s : Surroundings} {e e' : Engine} {request : Option Request}
    (h : Passage s e request e') : e.answers <:+ e'.answers := by
  cases h with
  | aside ha => exact ⟨[], ha.answers.symm⟩
  | waits | stops => exact List.suffix_rfl
  | stopsNothing | ends => exact List.suffix_cons _ _
  | starts _ _ h => exact h.answers_suffix
  | restarts _ _ h => exact h.answers_suffix

end Engine

end WebSocketHost
