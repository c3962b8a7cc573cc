import WebSocketHost.Proofs.CommandLine.Layers
import WebSocketHost.Proofs.Engine.AbandonedStop
import WebSocketHost.Proofs.Toml.Range

/-! Starts whose close timeout is too long. The time that a stop would wait is worked out when the
port is bound and visitors are accepted already; if it has no representation, the start breaks off
there, and nobody is left who could stop what it has opened. A close timeout from a file of settings
always leaves room, by the range of the integers there. -/
namespace WebSocketHost

open Toml (Members Value)

namespace Config

/-- What a stop waits at most, in nanoseconds, if that can be said. -/
def drainNanos (c : Config) : Nat := 2 * c.closeTimeout.nanos + 1000000000

theorem drainTimeout?_eq (c : Config) : c.drainTimeout? = Duration.ofNanos? c.drainNanos := by
  have hsecond : (Duration.ofSeconds 1).nanos = 1000000000 := rfl
  unfold drainTimeout? drainNanos Duration.add?
  rw [hsecond, ← Nat.two_mul]
  cases htwice : Duration.ofNanos? (2 * c.closeTimeout.nanos) with
  | some twice =>
    rw [Option.bind_eq_bind, Option.bind_some, Duration.nanos_of_ofNanos? htwice]
  | none =>
    have hlong := Duration.ofNanos?_eq_none_iff.mp htwice
    rw [Option.bind_eq_bind, Option.bind_none, Duration.ofNanos?_eq_none_iff.mpr (by omega)]

theorem drainTimeout?_eq_none_iff (c : Config) :
    c.drainTimeout? = none ↔ UInt64.size * 1000000000 ≤ c.drainNanos := by
  rw [drainTimeout?_eq, Duration.ofNanos?_eq_none_iff]

theorem nanos_of_drainTimeout? {c : Config} {d : Duration} (h : c.drainTimeout? = some d) :
    d.nanos = c.drainNanos := by
  rw [drainTimeout?_eq] at h
  exact Duration.nanos_of_ofNanos? h

end Config

/-! ### Close timeouts of files -/

namespace Toml.Value.InRange

variable {v w : Value}

theorem field? {name : String} {place : Nat} (h : v.InRange)
    (hfield : v.field? name place = some w) : w.InRange := by
  have hitem {items : List Value} (hitems : ∀ v ∈ items, v.InRange) (hw : items[place]? = some w) :
      w.InRange := hitems w (List.mem_of_getElem? hw)
  cases h with
  | table hmembers => exact Members.InRange.get? hmembers hfield
  | array hitems => exact hitem hitems hfield
  | tables htables =>
    refine hitem (fun v hv => ?_) hfield
    obtain ⟨ms, hms, rfl⟩ := List.mem_map.mp hv
    exact .table (htables ms (List.mem_reverse.mp hms))
  | _ => cases hfield

theorem natural?_le {max n : Nat} (h : v.InRange) (hn : v.natural? max = some n) :
    n ≤ 2 ^ 63 - 1 := by
  unfold natural? at hn
  split at hn
  · split at hn
    · cases hn
      cases h with
      | integer _ hhigh => exact Int.ofNat_le.mp hhigh
    · cases hn
  · cases hn

end Toml.Value.InRange

namespace Settings

variable {ms : Members} {s : Settings}

theorem closeSeconds_le (h : OfDocument ms s) (hrange : ms.InRange) :
    s.closeSeconds.toNat ≤ 2 ^ 63 - 1 := by
  have hclose := h.closeSeconds
  unfold Field.value? at hclose
  split at hclose
  · next v hsaid =>
    obtain ⟨table, htable, hv⟩ := Option.bind_eq_some_iff.mp hsaid
    obtain ⟨n, hn, heq⟩ := Option.map_eq_some_iff.mp hclose
    have hle := ((hrange.get? htable).field? hv).natural?_le hn
    have hsize : UInt64.size = 2 ^ 64 := rfl
    rw [← heq, UInt64.toNat_ofNat_of_lt' (by omega)]
    exact hle
  · rw [← Option.some.inj hclose]
    decide

/-- A close timeout from a file, or the standard one, leaves room for what a stop waits. -/
theorem drainNanos_lt {readFile : String → Option Octets} {c : CommandLine}
    (h : c.loadSettings readFile = .ok s) :
    s.toConfig.drainNanos < UInt64.size * 1000000000 := by
  obtain ⟨ms, hms, hfields⟩ := CommandLine.ofDocument_of_loadSettings h
  have hrange : ms.InRange := by
    unfold CommandLine.document? at hms
    split at hms
    · cases hms
      exact Members.inRange_nil
    · obtain ⟨bytes, -, hms⟩ := Option.bind_eq_some_iff.mp hms
      obtain ⟨text, -, hms⟩ := Option.bind_eq_some_iff.mp hms
      exact Toml.inRange_read hms
  have hle := closeSeconds_le hfields hrange
  show 2 * (s.closeSeconds.toNat * 1000000000) + 1000000000 < UInt64.size * 1000000000
  have hsize : UInt64.size = 2 ^ 64 := rfl
  omega

end Settings

namespace Engine

/-! ### Instances that nobody stops -/

/-- An instance accepts visitors on an address, and it is not what runs: no stop will cancel it. -/
structure Detached (place : Nat) (address : SocketAddress) (e : Engine) : Prop where
  accepting : ∃ i, e.instances[place]? = some i ∧ i.address = address ∧ i.isCancelled = false ∧
    i.isAccepting = true
  running : ∀ running, e.running = some running → running.place ≠ place

namespace Detached

variable {s : Surroundings} {e e' : Engine} {place : Nat} {address : SocketAddress}

theorem holds (h : Detached place address e) : e.holds address.port = true := by
  obtain ⟨i, hi, rfl, -, haccepting⟩ := h.accepting
  unfold Engine.holds
  rw [List.any_eq_true]
  exact ⟨i, List.mem_of_getElem? hi, by simp [haccepting]⟩

theorem of_eq (h : Detached place address e) (hinstances : e'.instances = e.instances)
    (hrunning : e'.running = e.running ∨ e'.running = none) : Detached place address e' := by
  refine ⟨hinstances ▸ h.accepting, fun running hsome => ?_⟩
  rcases hrunning with heq | hnone
  · exact h.running running (heq ▸ hsome)
  · cases hnone.symm.trans hsome

theorem aside (h : Detached place address e) (ha : Aside e e') : Detached place address e' := by
  obtain ⟨i, hi, rfl, hfree, haccepting⟩ := h.accepting
  obtain ⟨j, hj, hkept⟩ := ha.instances place i hi
  refine ⟨⟨j, hj, hkept.address, hkept.isCancelled.trans hfree,
    (hkept.isAccepting hfree).trans haccepting⟩, fun running hsome => ?_⟩
  exact h.running running (ha.running.symm.trans hsome)

/-- A new instance takes a place of its own. -/
theorem openOn (h : Detached place address e) (s : Surroundings) (config : Config) :
    Detached place address (e.openOn s config) := by
  obtain ⟨i, hi, hrest⟩ := h.accepting
  have hlt := (List.getElem?_eq_some_iff.mp hi).1
  refine ⟨⟨i, ?_, hrest⟩, ?_⟩
  · unfold Engine.openOn
    dsimp only
    rw [instances_launch, List.getElem?_append_left hlt]
    exact hi
  · have hopens := opens_openOn s config e
    generalize e.openOn s config = e' at hopens
    intro running hrunning
    cases hopens with
    | fails | overflows => exact h.running running hrunning
    | listens =>
      cases hrunning
      exact (Nat.ne_of_lt hlt).symm

/-- A stop cancels what runs. -/
theorem beginStop {running : Running} (h : Detached place address e)
    (hrunning : e.running = some running) (restart : Option Config) :
    Detached place address (e.beginStop s restart) := by
  obtain ⟨i, hi, hrest⟩ := h.accepting
  unfold Engine.beginStop
  rw [hrunning]
  refine ⟨⟨i, ?_, hrest⟩, nofun⟩
  show (e.instances.modify running.place _)[place]? = some i
  rw [List.getElem?_modify_ne _ _ (h.running running hrunning)]
  exact hi

end Detached

section Turn

variable {s : Surroundings} {e : Engine} {t : Turn} {place : Nat} {address : SocketAddress}

/-- A call that finds a server running begins with its stop. -/
theorem turn_of_request? {request : Request} {running : Running}
    (hrequest : e.request? t = some request) (hrunning : e.running = some running) :
    e.turn s t = e.beginStop s request.restart := by
  cases t with
  | quiesce => cases hrequest
  | move m =>
    cases m with
    | start config =>
      obtain ⟨hcall, heq⟩ := Option.ite_none_right_eq_some.mp hrequest
      cases heq
      rw [turn_start s config (Option.isNone_iff_eq_none.mp hcall)]
      exact if_pos (by rw [hrunning]; rfl)
    | stop =>
      obtain ⟨hcall, heq⟩ := Option.ite_none_right_eq_some.mp hrequest
      cases heq
      exact turn_stop s (Option.isNone_iff_eq_none.mp hcall)
    | _ => cases hrequest

theorem Detached.turn (h : Detached place address e) (s : Surroundings) (t : Turn) :
    Detached place address (e.turn s t) := by
  by_cases ht : t = .move .abandon
  · rw [ht, turn_abandon]
    exact h.of_eq rfl (.inl rfl)
  have hshift := shift_turn s e ht
  -- `Shift` does not say which instance a stop cancels, so that case is opened by itself
  cases hrequest : e.request? t with
  | some request =>
    cases hrunning : e.running with
    | some running =>
      rw [turn_of_request? hrequest hrunning]
      exact h.beginStop hrunning _
    | none =>
      rw [hrequest] at hshift
      generalize e.turn s t = e' at hshift
      cases hshift with
      | starts => exact h.openOn s _
      | stopsNothing => exact h.of_eq rfl (.inl rfl)
      | stops _ hsome => cases hrunning.symm.trans hsome
  | none =>
    rw [hrequest] at hshift
    generalize e.turn s t = e' at hshift
    cases hshift with
    | aside ha => exact h.aside ha
    | waits | ends => exact h.of_eq rfl (.inl rfl)
    | @restarts _ _ config =>
      have hidle : Detached place address
          { e with state := .idle, history := e.state :: e.history, endpoint := none } :=
        h.of_eq rfl (.inl rfl)
      exact hidle.openOn s config

theorem Detached.run (h : Detached place address e) (turns : List (Surroundings × Turn)) :
    Detached place address (e.run turns) :=
  run_preserves (fun p _ _ h => h.turn p.1 p.2) h

/-- Its port is held for good. -/
theorem Detached.forever (h : Detached place address e) (turns : List (Surroundings × Turn)) :
    Detached place address (e.run turns) ∧ (e.run turns).holds address.port = true :=
  ⟨h.run turns, (h.run turns).holds⟩

end Turn

/-! ### What a start comes to -/

/-- What a start comes to, by its configuration and the instances that were there. -/
inductive Outcome (config : Config) (instances : List Instance) (e : Engine) :
    Except StartError SocketAddress → Prop
  /-- No port is bound. -/
  | fails {err : StartError} (herr : err ≠ .timeoutOverflow) (hstate : e.state = .failed)
    (hinstances : e.instances = instances) : Outcome config instances e (.error err)
  /-- What a stop will wait can be said, and the instance runs. -/
  | listens {i : Instance} {drainTimeout : Duration} (hinstances : e.instances = instances ++ [i])
    (hstate : e.state = .listening) (hnanos : drainTimeout.nanos = config.drainNanos)
    (hrunning : e.running = some ⟨instances.length, drainTimeout⟩) :
    Outcome config instances e (.ok i.address)
  /-- It cannot be said. The instance is there and does not run. -/
  | breaksOff {i : Instance} (hinstances : e.instances = instances ++ [i])
    (hstate : e.state = .starting) (hnanos : UInt64.size * 1000000000 ≤ config.drainNanos)
    (hrunning : e.running = none)
    (hlater : ∀ later, Detached instances.length i.address (e.run later) ∧
      (e.run later).holds i.address.port = true) :
    Outcome config instances e (.error .timeoutOverflow)

/-- The binding is not what breaks off. -/
theorem bindFirst_ne {bind : SocketAddress → BindOutcome} {host : IpAddress} {ports : List UInt16} :
    Id.run (bindFirst (fun a => pure (bind a)) host ports) ≠ .error .timeoutOverflow := by
  have hfrom (rest : List UInt16) :
      Id.run (bindFrom (fun a => pure (bind a)) host ports rest) ≠ .error .timeoutOverflow := by
    induction rest with
    | nil => nofun
    | cons port rest ih =>
      unfold bindFrom
      rw [pure_bind]
      split
      · nofun
      · exact ih
      · nofun
  unfold bindFirst
  split
  · nofun
  · exact hfrom ports

theorem outcome_openOn (s : Surroundings) (config : Config) {e : Engine}
    (hrunning : e.running = none) :
    ∃ result, (e.openOn s config).answers = .started result :: e.answers ∧
      Outcome config e.instances (e.openOn s config) result := by
  unfold openOn
  dsimp only
  generalize hbound : Id.run _ = bound
  have hne : bound ≠ .error .timeoutOverflow := hbound ▸ bindFirst_ne
  unfold launch
  cases bound with
  | error err => exact ⟨_, rfl, .fails (fun herr => hne (congrArg _ herr)) rfl rfl⟩
  | ok address =>
    let i : Instance :=
      { address, maxFrame := config.maxFrameSize, closeTimeout := config.closeTimeout }
    dsimp only
    cases hdrain : config.drainTimeout? with
    | none =>
      refine ⟨_, rfl, .breaksOff (i := i) rfl rfl (config.drainTimeout?_eq_none_iff.mp hdrain)
        hrunning (Detached.forever
          ⟨⟨i, List.getElem?_concat_length, rfl, rfl, rfl⟩, fun running hsome => ?_⟩)⟩
      cases hrunning.symm.trans hsome
    | some drainTimeout =>
      exact ⟨_, rfl, .listens (i := i) rfl rfl (Config.nanos_of_drainTimeout? hdrain) rfl⟩

/-- A start that finds nothing running opens an instance at once. -/
theorem openOn_of_start (s : Surroundings) (config : Config) {e : Engine} (hcall : e.call = none)
    (hrunning : e.running = none) :
    e.turn s (.move (.start config)) = e.openOn s config := by
  rw [turn_start s config hcall]
  exact if_neg (by rw [hrunning]; exact Bool.false_ne_true)

/-- A call that waits will start the server with a configuration that was asked for. -/
def Asks (asked : Config → Prop) (e : Engine) : Prop :=
  ∀ call config, e.call = some call → call.restart = some config → asked config

section Run

variable {asked : Config → Prop} {s : Surroundings} {e : Engine} {t : Turn}

theorem Asks.of_no_call (hcall : e.call = none) : e.Asks asked :=
  fun _ _ hsome => by cases hcall.symm.trans hsome

theorem Asks.turn (h : e.Asks asked) (s : Surroundings)
    (ht : ∀ config, t = .move (.start config) → asked config) : (e.turn s t).Asks asked := by
  by_cases habandon : t = .move .abandon
  · rw [habandon, turn_abandon]
    exact .of_no_call rfl
  have hshift := shift_turn s e habandon
  have hrequest {config : Config} (hstart : e.request? t = some (.start config)) : asked config :=
    ht config (eq_start_of_request? hstart)
  generalize e.request? t = request, e.turn s t = e' at hshift hrequest
  cases hshift with
  | aside ha => exact fun call config hsome => h call config (ha.call.symm.trans hsome)
  | waits hcall =>
    intro call config hsome hrestart
    cases hsome
    exact h _ config hcall hrestart
  | starts | restarts => exact .of_no_call (opens_openOn ..).call_eq_none
  | stopsNothing | ends => exact .of_no_call rfl
  | @stops request =>
    intro call config hsome hrestart
    cases hsome
    cases request with
    | start =>
      cases hrestart
      exact hrequest rfl
    | stop => cases hrestart

/-- A start that comes to its end was asked for, and comes to what its configuration makes of it. -/
theorem outcome_turn {result : Except StartError SocketAddress} (hexclusive : e.Exclusive)
    (hasks : e.Asks asked) (ht : ∀ config, t = .move (.start config) → asked config)
    (h : (e.turn s t).answers = .started result :: e.answers) :
    ∃ config, asked config ∧ Outcome config e.instances (e.turn s t) result := by
  have habandon : t ≠ .move .abandon := by
    rintro rfl
    rw [turn_abandon] at h
    exact List.cons_ne_self _ _ h.symm
  have hshift := shift_turn s e habandon
  have hrequest {config : Config} (hstart : e.request? t = some (.start config)) : asked config :=
    ht config (eq_start_of_request? hstart)
  generalize e.request? t = request, e.turn s t = e' at hshift hrequest h
  cases hshift with
  | aside ha => exact absurd (ha.answers.symm.trans h) (List.cons_ne_self _ _).symm
  | waits | stops => exact absurd h (List.cons_ne_self _ _).symm
  | stopsNothing | ends => cases h
  | @starts config _ hrunning =>
    obtain ⟨result', hanswer, houtcome⟩ := outcome_openOn s config hrunning
    cases hanswer.symm.trans h
    exact ⟨config, hrequest rfl, houtcome⟩
  | @restarts call _ config hcall _ hrestart =>
    -- the call that waited has taken away what ran before
    have hrunning : e.running = none := hexclusive.resolve_right (by rw [hcall]; nofun)
    obtain ⟨result', hanswer, houtcome⟩ := outcome_openOn s config
      (e := { e with state := .idle, history := e.state :: e.history, endpoint := none }) hrunning
    cases hanswer.symm.trans h
    exact ⟨config, hasks call config hcall hrestart, houtcome⟩

theorem exclusive_asks_run {turns : List (Surroundings × Turn)} (hexclusive : e.Exclusive)
    (hasks : e.Asks asked)
    (hturns : ∀ p ∈ turns, ∀ config, p.2 = .move (.start config) → asked config) :
    (e.run turns).Exclusive ∧ (e.run turns).Asks asked :=
  run_preserves (P := fun e => e.Exclusive ∧ e.Asks asked)
    (fun p hp _ h => ⟨h.1.act p.1 (.turn p.2), h.2.turn p.1 (hturns p hp)⟩) ⟨hexclusive, hasks⟩

/-- Whatever happened to a server: a start that finds nothing running is answered at once. Each
start that is answered was asked for with some configuration, and unless no port could be bound, its
close timeout decides. If twice that and a second more has a representation, the server listens,
and a stop will wait so long; if not, the start breaks off with the port bound. Then the server
stays between two states with nothing that runs, and the instance accepts visitors and holds its
port for good, whatever is started or stopped later. With the settings of a file, or a command line
over them, no start breaks off. -/
theorem start_breaks_off_without_room (turns : List (Surroundings × Turn)) (s : Surroundings)
    (t : Turn) :
    let e := initial.run turns
    let e' := e.turn s t
    (∀ config, t = .move (.start config) → e.call = none → e.running = none →
      ∃ result, e'.answers = .started result :: e.answers) ∧
    ∀ result, e'.answers = .started result :: e.answers →
      ∃ config, (∃ s', (s', .move (.start config)) ∈ turns ++ [(s, t)]) ∧
        Outcome config e.instances e' result ∧
        ∀ (readFile : String → Option Octets) (c : CommandLine) (settings : Settings),
          c.loadSettings readFile = .ok settings →
          config = settings.toConfig ∨ config = c.toConfig settings →
          result ≠ .error .timeoutOverflow := by
  intro e e'
  let asked (config : Config) : Prop := ∃ s', (s', .move (.start config)) ∈ turns ++ [(s, t)]
  have hasked (p : Surroundings × Turn) (hp : p ∈ turns ++ [(s, t)]) (config : Config)
      (hstart : p.2 = .move (.start config)) : asked config := ⟨p.1, hstart ▸ hp⟩
  have hinitial : initial.Asks asked := .of_no_call rfl
  obtain ⟨hexclusive, hasks⟩ := exclusive_asks_run (.inl rfl) hinitial fun p hp =>
    hasked p (List.mem_append_left _ hp)
  refine ⟨fun config ht hcall hrunning => ?_, fun result h => ?_⟩
  · obtain ⟨result, hanswer, -⟩ := outcome_openOn s config hrunning
    refine ⟨result, ?_⟩
    rw [← hanswer, ← openOn_of_start s config hcall hrunning]
    exact congrArg (fun t => (e.turn s t).answers) ht
  obtain ⟨config, hconfig, houtcome⟩ := outcome_turn hexclusive hasks
    (hasked (s, t) (List.mem_append_right _ List.mem_cons_self)) h
  refine ⟨config, hconfig, houtcome, fun readFile c settings hload hfrom => ?_⟩
  have hroom : config.drainNanos < UInt64.size * 1000000000 := by
    have hsettings := Settings.drainNanos_lt hload
    rcases hfrom with rfl | rfl <;> exact hsettings
  cases houtcome with
  | fails herr => exact fun heq => herr (Except.error.inj heq)
  | listens => nofun
  | breaksOff _ _ hnanos => exact absurd hroom (Nat.not_lt_of_le hnanos)

/-- The longest close timeout that a file can have just leaves room. -/
theorem start_breaks_off_without_room_longest_of_files :
    let s : Surroundings :=
      { lan := .v4 ⟨127, 0, 0, 1⟩, isUsable := fun _ => false, bind := .bound }
    let file := "[server]\nclose_timeout_secs = 9223372036854775807\n"
    let readFile (path : String) := if path = "a.toml" then some (Text.utf8 file) else none
    let c : CommandLine := { settings := some "a.toml" }
    let settings : Settings := { closeSeconds := 9223372036854775807 }
    let e := initial.turn s (.move (.start (c.toConfig settings)))
    c.loadSettings readFile = .ok settings ∧ e.state = .listening ∧
      e.address = some (.ofIp s.lan 1024) ∧
      ∃ drainTimeout, e.running = some ⟨0, drainTimeout⟩ ∧
        drainTimeout.nanos = 18446744073709551615 * 1000000000 := by
  intro s file readFile c settings e
  have hload : c.loadSettings readFile = .ok settings := by decide +kernel
  have hlistening : e.state = .listening := by decide +kernel
  obtain ⟨hanswered, houtcome⟩ :=
    start_breaks_off_without_room [] s (.move (.start (c.toConfig settings)))
  obtain ⟨result, hanswer⟩ := hanswered _ rfl rfl rfl
  obtain ⟨config, ⟨s', hasked⟩, houtcome, -⟩ := houtcome result hanswer
  cases List.mem_singleton.mp hasked
  cases houtcome with
  | fails _ hstate | breaksOff _ hstate => cases hlistening.symm.trans hstate
  | listens _ _ hnanos hrunning =>
    exact ⟨hload, hlistening, by decide +kernel, _, hrunning, hnanos.trans (by decide +kernel)⟩

/-- One second more, and the start breaks off. A stop comes back at once, and the server is idle;
but its port is held, and a visitor that comes now is registered. -/
theorem stop_leaves_what_broke_off :
    let s : Surroundings :=
      { lan := .v4 ⟨127, 0, 0, 1⟩, isUsable := fun _ => false, bind := .bound }
    let config : Config := { closeTimeout := .ofSeconds 9223372036854775808 }
    let e := initial.start s config
    let stopped := e.stop s
    let later : List Turn := [.move (.accept 0 "a:1"), .move (.upgrade 0 0 []), .move (.step 0)]
    let e' := stopped.run (later.map (s, ·))
    config.drainTimeout? = none ∧
      e.answers = [.started (.error .timeoutOverflow)] ∧ e.state = .starting ∧ e.running = none ∧
      e.holds 1024 = true ∧
      stopped.answers = .stopped (.ok ()) :: e.answers ∧ stopped.state = .idle ∧
      stopped.holds 1024 = true ∧
      e'.state = .idle ∧ e'.sessions = ["a:1"] ∧ e'.isActive "a:1" = true := by
  refine ⟨rfl, rfl, rfl, rfl, rfl, rfl, rfl, rfl, ?_⟩
  decide +kernel

end Run

end Engine

end WebSocketHost
