import WebSocketHost.Proofs.Engine.Completion
import WebSocketHost.Proofs.Engine.Instances

/-! Which port a start comes to. Before it tries the first, nothing that this server listened
on before is held any more; so what it comes to is up to the configuration and to the other
programs on the machine, and to nothing that happened to the server. -/
namespace WebSocketHost

/-- The other programs on a machine, and what else keeps a server from listening there. -/
structure System where
  /-- Another program listens on this port. -/
  isHeld : UInt16 → Bool
  refusal? : SocketAddress → Option String

namespace System

/-- The answer to an attempt to listen on an address with a port. -/
def answer (w : System) (a : SocketAddress) : BindOutcome :=
  if w.isHeld a.port then .inUse
  else match w.refusal? a with
    | some reason => .failed reason
    | none => .bound a

/-- What comes of ports that are tried in order: the first that no other program holds is
listened on, or it is refused. -/
def listen (w : System) (host : IpAddress) (ports : List UInt16) :
    Except StartError SocketAddress :=
  if ports = [] then .error .noPorts
  else match ports.find? (!w.isHeld ·) with
    | none => .error (.portsExhausted ports)
    | some port =>
      match w.refusal? (.ofIp host port) with
      | some reason => .error (.bind (.ofIp host port) reason)
      | none => .ok (.ofIp host port)

/-- A start that listens breaks off if its stop would have to wait longer than can be said. -/
def outcome (w : System) (config : Config) (host : IpAddress) : Except StartError SocketAddress :=
  match w.listen host config.ports with
  | .error err => .error err
  | .ok address =>
    match config.drainTimeout? with
    | some _ => .ok address
    | none => .error .timeoutOverflow

end System

/-- A server finds itself on a machine. Only for port zero the answer is the machine's choice. -/
def Surroundings.IsOn (s : Surroundings) (w : System) : Prop :=
  ∀ a, a.port ≠ 0 → s.bind a = w.answer a

theorem SocketAddress.port_ofIp (ip : IpAddress) (port : UInt16) :
    (SocketAddress.ofIp ip port).port = port := by
  cases ip <;> rfl

section Bind

variable {w : System} {host : IpAddress} {ports rest : List UInt16}
  {bind : SocketAddress → BindOutcome}

theorem bindFrom_eq (hbind : ∀ port ∈ rest, bind (.ofIp host port) = w.answer (.ofIp host port)) :
    Id.run (bindFrom (fun a => pure (bind a)) host ports rest) =
      match rest.find? (!w.isHeld ·) with
      | none => .error (.portsExhausted ports)
      | some port =>
        match w.refusal? (.ofIp host port) with
        | some reason => .error (.bind (.ofIp host port) reason)
        | none => .ok (.ofIp host port) := by
  induction rest with
  | nil => rfl
  | cons port rest ih =>
    obtain ⟨hfirst, hrest⟩ := List.forall_mem_cons.mp hbind
    unfold bindFrom
    rw [List.find?_cons, hfirst, System.answer, SocketAddress.port_ofIp]
    cases hheld : w.isHeld port with
    | true => exact ih hrest
    | false => cases hrefusal : w.refusal? (.ofIp host port) <;> simp [hrefusal]

theorem bindFirst_eq (hbind : ∀ port ∈ ports, bind (.ofIp host port) = w.answer (.ofIp host port)) :
    Id.run (bindFirst (fun a => pure (bind a)) host ports) = w.listen host ports := by
  unfold bindFirst System.listen
  split
  · rfl
  · exact bindFrom_eq hbind

/-- A server listens on one of the ports it was given. -/
theorem System.port_mem_of_listen {a : SocketAddress} (h : w.listen host ports = .ok a) :
    a.port ∈ ports := by
  unfold listen at h
  split at h
  · cases h
  · split at h
    · cases h
    · next port hport =>
      split at h
      · cases h
      · cases h
        rw [SocketAddress.port_ofIp]
        exact List.mem_of_find?_eq_some hport

end Bind

namespace Engine

def run (e : Engine) (turns : List (Surroundings × Turn)) : Engine :=
  turns.foldl (fun e p => e.turn p.1 p.2) e

/-- A server behind calls that were waited for, and none of which broke off. -/
structure Rested (e : Engine) : Prop where
  reached : ∃ turns, (∀ s, (s, .move .abandon) ∉ turns) ∧ initial.run turns = e
  completed : .started (.error .timeoutOverflow) ∉ e.answers
  rests : e.call = none

/-- From the request of a start to its answer or beyond, on one machine and without another
call. -/
def Starts (w : System) (config : Config) (e e' : Engine) : Prop :=
  ∃ first turns, first.IsOn w ∧ (∀ p ∈ turns, p.1.IsOn w ∧ p.2.isCall = false) ∧
    (e.turn first (.move (.start config))).run turns = e' ∧ e'.call = none

/-! ### Who holds a port -/

/-- Only the instance that runs accepts visitors, and one whose stop has just begun. -/
structure Tidy (e : Engine) : Prop where
  accepting : ∀ (place : Nat) (i : Instance), e.instances[place]? = some i →
    i.isAccepting = true → (∃ running, e.running = some running ∧ running.place = place) ∨
      ∃ call, e.call = some call ∧ call.wait = .accepting ∧ call.running.place = place
  running : e.running.isSome = true → e.call = none ∧ e.state = .listening

section Tidy

variable {s : Surroundings} {e e' : Engine} {config : Config}

/-- No instance accepts visitors. -/
def Free (e : Engine) : Prop :=
  ∀ (place : Nat) (i : Instance), e.instances[place]? = some i → i.isAccepting = false

theorem Tidy.free (h : e.Tidy) (hrunning : e.running = none)
    (hcall : ∀ call, e.call = some call → call.wait ≠ .accepting) : e.Free := by
  intro place i hi
  refine Bool.eq_false_iff.mpr fun haccepting => ?_
  rcases h.accepting place i hi haccepting with ⟨running, hsome, -⟩ | ⟨call, hsome, hwait, -⟩
  · cases hrunning.symm.trans hsome
  · exact hcall call hsome hwait

theorem Tidy.running_of_call (h : e.Tidy) {call : Call} (hcall : e.call = some call) :
    e.running = none := by
  cases hrunning : e.running with
  | none => rfl
  | some running => cases hcall.symm.trans (h.running (by rw [hrunning]; rfl)).1

theorem Free.holds (h : e.Free) (port : UInt16) : e.holds port = false := by
  refine List.any_eq_false.mpr fun i hi hholds => ?_
  obtain ⟨place, hplace⟩ := List.mem_iff_getElem?.mp hi
  rw [h place i hplace] at hholds
  cases hholds

theorem Opens.tidy (h : Opens s config e e') (hfree : e.Free) (hrunning : e.running = none)
    (hcompleted : .started (.error .timeoutOverflow) ∉ e'.answers) : e'.Tidy := by
  have hnone : ∀ (place : Nat) (i : Instance), e.instances[place]? = some i →
      i.isAccepting ≠ true :=
    fun place i hi => Bool.eq_false_iff.mp (hfree place i hi)
  cases h with
  | fails =>
    refine ⟨fun place i hi haccepting => absurd haccepting (hnone place i hi), fun hsome => ?_⟩
    cases (congrArg Option.isSome hrunning).symm.trans hsome
  | overflows => exact absurd List.mem_cons_self hcompleted
  | listens =>
    refine ⟨fun place i hi haccepting => ?_, fun _ => ⟨rfl, rfl⟩⟩
    by_cases hplace : place < e.instances.length
    · exact absurd haccepting (hnone place i ((List.getElem?_append_left hplace).symm.trans hi))
    · have hlt := (List.getElem?_eq_some_iff.mp hi).1
      rw [List.length_append, List.length_singleton] at hlt
      exact .inl ⟨_, rfl, by dsimp only; omega⟩

theorem Tidy.of_older (h : e.Tidy) (ho : Older e e') (hcall : e'.call = e.call)
    (hrunning : e'.running = e.running) (hstate : e'.state = e.state) : e'.Tidy where
  accepting place j hj haccepting := by
    obtain ⟨i, hi, hages⟩ := ho.of_getElem? hj
    rw [hcall, hrunning]
    exact h.accepting place i hi (hages.isAccepting haccepting)
  running hsome := by
    rw [hcall, hstate]
    rw [hrunning] at hsome
    exact h.running hsome

theorem Tidy.shift {request : Option Request} (h : e.Tidy) (hs : Shift s e request e')
    (hcompleted : .started (.error .timeoutOverflow) ∉ e'.answers) : e'.Tidy := by
  cases hs with
  | aside ha ho => exact h.of_older ho ha.call ha.running ha.state
  | @waits call deadline hcall hwait hdone =>
    have hrunning := h.running_of_call hcall
    refine ⟨fun place i hi haccepting => ?_, fun hsome => ?_⟩
    · rcases h.accepting place i hi haccepting with hup | ⟨call', hcall', -, rfl⟩
      · exact .inl hup
      · cases hcall.symm.trans hcall'
        rw [hi] at hdone
        cases haccepting.symm.trans hdone
    · cases (congrArg Option.isSome hrunning).symm.trans hsome
  | starts hcall hrunning =>
    exact (opens_openOn ..).tidy (h.free hrunning fun call hsome => by cases hcall.symm.trans hsome)
      hrunning hcompleted
  | stopsNothing hcall hrunning =>
    have hfree := h.free hrunning fun call hsome => by cases hcall.symm.trans hsome
    refine ⟨fun place i hi haccepting => ?_, fun hsome => ?_⟩
    · cases haccepting.symm.trans (hfree place i hi)
    · cases (congrArg Option.isSome hrunning).symm.trans hsome
  | @stops request running instances board hcall hrunning ho =>
    refine ⟨fun place j hj haccepting => ?_, nofun⟩
    obtain ⟨i, hi, hages⟩ := ho.of_getElem? hj
    rcases h.accepting place i hi (hages.isAccepting haccepting) with
      ⟨running', hsome, hplace⟩ | ⟨call, hsome, -⟩
    · cases hrunning.symm.trans hsome
      exact .inr ⟨_, rfl, rfl, hplace⟩
    · cases hcall.symm.trans hsome
  | @ends call deadline result hcall hwait =>
    have hrunning := h.running_of_call hcall
    have hfree : e.Free := h.free hrunning fun call' hsome => by
      cases hcall.symm.trans hsome
      rw [hwait]
      nofun
    refine ⟨fun place i hi haccepting => ?_, fun hsome => ?_⟩
    · cases haccepting.symm.trans (hfree place i hi)
    · cases (congrArg Option.isSome hrunning).symm.trans hsome
  | @restarts call deadline config hcall hwait =>
    have hrunning := h.running_of_call hcall
    have hfree : e.Free := h.free hrunning fun call' hsome => by
      cases hcall.symm.trans hsome
      rw [hwait]
      nofun
    exact (opens_openOn s config _).tidy hfree hrunning hcompleted

theorem tidy_initial : initial.Tidy where
  accepting place i hi := by cases hi
  running h := by cases h

end Tidy

section Run

variable {e : Engine} {turns : List (Surroundings × Turn)}

theorem run_append (e : Engine) (first second : List (Surroundings × Turn)) :
    e.run (first ++ second) = (e.run first).run second :=
  List.foldl_append

/-- What each turn of a run preserves, the run preserves. -/
theorem run_preserves {P : Engine → Prop}
    (hturn : ∀ p ∈ turns, ∀ e : Engine, P e → P (e.turn p.1 p.2)) (h : P e) : P (e.run turns) := by
  induction turns generalizing e with
  | nil => exact h
  | cons p turns ih =>
    obtain ⟨hfirst, hrest⟩ := List.forall_mem_cons.mp hturn
    exact ih hrest (hfirst e h)

theorem answers_run (e : Engine) (hkept : ∀ s, (s, .move .abandon) ∉ turns) :
    e.answers <:+ (e.run turns).answers := by
  induction turns generalizing e with
  | nil => exact List.suffix_rfl
  | cons p turns ih =>
    have ht : p.2 ≠ .move .abandon := fun ht => hkept p.1 (ht ▸ List.mem_cons_self)
    have hstep := (shift_turn p.1 e ht).passage.answers_suffix
    exact hstep.trans (ih (e.turn p.1 p.2) fun s hmem => hkept s (List.mem_cons_of_mem _ hmem))

theorem Tidy.run (h : e.Tidy) (hkept : ∀ s, (s, .move .abandon) ∉ turns)
    (hcompleted : .started (.error .timeoutOverflow) ∉ (e.run turns).answers) :
    (e.run turns).Tidy := by
  induction turns generalizing e with
  | nil => exact h
  | cons p turns ih =>
    have ht : p.2 ≠ .move .abandon := fun ht => hkept p.1 (ht ▸ List.mem_cons_self)
    have hkept : ∀ s, (s, .move .abandon) ∉ turns :=
      fun s hmem => hkept s (List.mem_cons_of_mem _ hmem)
    have hlater := answers_run (e.turn p.1 p.2) hkept
    exact ih (h.shift (shift_turn p.1 e ht) fun hmem => hcompleted (hlater.subset hmem))
      hkept hcompleted

theorem Rested.tidy (h : e.Rested) : e.Tidy := by
  obtain ⟨⟨turns, hkept, rfl⟩, hcompleted, -⟩ := h
  exact tidy_initial.run hkept hcompleted

/-- A port is held only by a server that listens. -/
theorem Rested.listening (h : e.Rested) {port : UInt16} (hholds : e.holds port = true) :
    e.state = .listening := by
  cases hrunning : e.running with
  | some running => exact (h.tidy.running (by rw [hrunning]; rfl)).2
  | none =>
    have hfree := h.tidy.free hrunning fun call hcall => by cases h.rests.symm.trans hcall
    cases (hfree.holds port).symm.trans hholds

end Run

/-! ### A start -/

section Start

variable {w : System} {config : Config} {host : IpAddress} {s : Surroundings}
  {found e : Engine} {t : Turn}

theorem openOn_eq (hs : s.IsOn w) (hhost : config.host = some host) (hports : 0 ∉ config.ports)
    (hfree : e.Free) :
    e.openOn s config =
      e.launch config s.lan (config.certificate.any s.isUsable) (w.listen host config.ports) := by
  unfold openOn
  rw [hhost, Option.getD_some, bindFirst_eq (w := w)]
  intro port hport
  unfold bind
  rw [hfree.holds, if_neg Bool.false_ne_true]
  refine hs _ ?_
  rw [SocketAddress.port_ofIp]
  rintro rfl
  exact hports hport

theorem answers_launch (w : System) (config : Config) (host lan : IpAddress) (isSecure : Bool)
    (e : Engine) :
    (e.launch config lan isSecure (w.listen host config.ports)).answers =
      .started (w.outcome config host) :: e.answers := by
  unfold launch System.outcome
  dsimp only
  cases w.listen host config.ports with
  | error err => rfl
  | ok address => cases config.drainTimeout? <;> rfl

/-- An instance that is new is on the address that was bound. -/
theorem eq_ok_of_launch {lan : IpAddress} {isSecure : Bool}
    {bound : Except StartError SocketAddress} {place : Nat} {i : Instance}
    (hi : (e.launch config lan isSecure bound).instances[place]? = some i)
    (hplace : e.instances.length ≤ place) : bound = .ok i.address := by
  unfold launch at hi
  dsimp only at hi
  cases bound with
  | error err =>
    have hlt := (List.getElem?_eq_some_iff.mp hi).1
    exact absurd hplace (Nat.not_le_of_lt hlt)
  | ok address =>
    dsimp only at hi
    obtain ⟨opened, haddress, hnew⟩ : ∃ opened : Instance, opened.address = address ∧
        (e.instances ++ [opened])[place]? = some i := by
      split at hi <;> exact ⟨_, rfl, hi⟩
    rw [List.getElem?_append_right hplace, List.getElem?_singleton] at hnew
    split at hnew
    · cases hnew
      rw [haddress]
    · cases hnew

/-- A start waits for the end of what it stops. -/
structure Awaits (config : Config) (found e : Engine) : Prop where
  tidy : e.Tidy
  call : ∃ call, e.call = some call ∧ call.restart = some config
  answers : e.answers = found.answers
  length : e.instances.length = found.instances.length

/-- A start has come to its end. -/
structure Answered (w : System) (config : Config) (host : IpAddress) (found e : Engine) :
    Prop where
  call : e.call = none
  answers : e.answers = .started (w.outcome config host) :: found.answers
  ports : ∀ (place : Nat) (i : Instance), found.instances.length ≤ place →
    e.instances[place]? = some i → i.address.port ∈ config.ports

theorem request?_of_isCall (ht : t.isCall = false) : e.request? t = none := by
  cases t with
  | quiesce => rfl
  | move m => cases m <;> first | rfl | cases ht

theorem ne_abandon_of_isCall (ht : t.isCall = false) : t ≠ .move .abandon := by
  rintro rfl
  cases ht

section Machine

variable (hs : s.IsOn w) (hhost : config.host = some host) (hports : 0 ∉ config.ports)

include hs hhost hports

theorem answered_openOn (hfree : e.Free) (hanswers : e.answers = found.answers)
    (hlength : e.instances.length = found.instances.length) :
    Answered w config host found (e.openOn s config) where
  call := (opens_openOn ..).call_eq_none
  answers := by rw [openOn_eq hs hhost hports hfree, answers_launch, hanswers]
  ports place i hplace hi := by
    rw [openOn_eq hs hhost hports hfree] at hi
    exact System.port_mem_of_listen (eq_ok_of_launch hi (hlength ▸ hplace))

theorem Awaits.turn (h : Awaits config found e)
    (hcompleted : .started (.error .timeoutOverflow) ∉ found.answers) (ht : t.isCall = false) :
    Awaits config found (e.turn s t) ∨ Answered w config host found (e.turn s t) := by
  have hshift := shift_turn s e (ne_abandon_of_isCall ht)
  have htidy := h.tidy.shift hshift
  obtain ⟨call, hcall, hrestart⟩ := h.call
  rw [request?_of_isCall ht] at hshift
  generalize e.turn s t = e' at hshift htidy ⊢
  cases hshift with
  | aside ha ho =>
    have hanswers := ha.answers.trans h.answers
    exact .inl ⟨htidy (hanswers ▸ hcompleted), ⟨call, ha.call.trans hcall, hrestart⟩, hanswers,
      ho.length.trans h.length⟩
  | waits hcall' =>
    cases hcall.symm.trans hcall'
    exact .inl ⟨htidy (h.answers ▸ hcompleted), ⟨_, rfl, hrestart⟩, h.answers, h.length⟩
  | ends hcall' _ hnone =>
    cases hcall.symm.trans hcall'
    cases hrestart.symm.trans hnone
  | restarts hcall' hwait hsome =>
    cases hcall.symm.trans hcall'
    cases hrestart.symm.trans hsome
    have hfree : e.Free := h.tidy.free (h.tidy.running_of_call hcall) fun call' hcall' => by
      cases hcall.symm.trans hcall'
      rw [hwait]
      nofun
    exact .inr (answered_openOn hs hhost hports hfree h.answers h.length)

omit hs hhost hports in
/-- With no call to wait for, what a start came to remains. -/
theorem Answered.turn (h : Answered w config host found e) (ht : t.isCall = false) :
    Answered w config host found (e.turn s t) := by
  have hshift := shift_turn s e (ne_abandon_of_isCall ht)
  rw [request?_of_isCall ht] at hshift
  generalize e.turn s t = e' at hshift ⊢
  cases hshift with
  | aside ha ho =>
    refine ⟨ha.call.trans h.call, ha.answers.trans h.answers, fun place j hplace hj => ?_⟩
    obtain ⟨i, hi, hages⟩ := ho.of_getElem? hj
    rw [hages.address]
    exact h.ports place i hplace hi
  | waits hcall => cases h.call.symm.trans hcall
  | ends hcall => cases h.call.symm.trans hcall
  | restarts hcall => cases h.call.symm.trans hcall

theorem awaits_or_answered (h : found.Rested) :
    Awaits config found (found.turn s (.move (.start config))) ∨
      Answered w config host found (found.turn s (.move (.start config))) := by
  have hshift := shift_turn s found (t := .move (.start config)) nofun
  have htidy := h.tidy.shift hshift
  rw [show found.request? (.move (.start config)) = some (.start config) by
    simp [request?, h.rests]] at hshift
  generalize found.turn s (.move (.start config)) = e at hshift htidy ⊢
  cases hshift with
  | starts hcall hrunning =>
    refine .inr (answered_openOn hs hhost hports (h.tidy.free hrunning fun call hsome => ?_)
      rfl rfl)
    cases hcall.symm.trans hsome
  | stops hcall hrunning ho =>
    exact .inl ⟨htidy h.completed, ⟨_, rfl, rfl⟩, rfl, ho.length⟩

end Machine

/-- A start that has come to its end came to what the machine makes of its configuration. -/
theorem Starts.answered (hhost : config.host = some host) (hports : 0 ∉ config.ports)
    (h : found.Rested) (hstarts : Starts w config found e) :
    Answered w config host found e := by
  obtain ⟨first, turns, hfirst, hturns, rfl, hcall⟩ := hstarts
  have hbegun := awaits_or_answered hfirst hhost hports h
  generalize found.turn first (.move (.start config)) = e at hbegun hcall ⊢
  induction turns generalizing e with
  | nil =>
    rcases hbegun with hawaits | hanswered
    · obtain ⟨call, hsome, -⟩ := hawaits.call
      cases hcall.symm.trans hsome
    · exact hanswered
  | cons p turns ih =>
    obtain ⟨⟨hp, hquiet⟩, hturns⟩ := List.forall_mem_cons.mp hturns
    refine ih hturns (e.turn p.1 p.2) ?_ hcall
    rcases hbegun with hawaits | hanswered
    · exact hawaits.turn hp hhost hports h.completed hquiet
    · exact .inr (hanswered.turn hquiet)

end Start

end Engine

end WebSocketHost
