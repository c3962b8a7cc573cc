import Mathlib.Algebra.GroupWithZero.Nat
import WebSocketHost.Proofs.Engine.Instances
import WebSocketHost.Proofs.Switchboard.Course

/-! Calls come to their ends. The accepting of a cancelled instance ends by itself, and for
visitors a stop waits only so long; so to let time pass is enough. -/
namespace WebSocketHost

namespace Switchboard

theorem now_advance (b : Switchboard) (nanos : Nat) : (b.advance nanos).now = b.now + nanos :=
  (b.kept_move (.advance nanos)).now

theorem now_settle (b : Switchboard) : b.settle.now = b.now := by
  fun_induction settle b with
  | case1 => rfl
  | case2 b n rest hready c hstep ih =>
    have hkept := Kept.step b n
    rw [hstep] at hkept
    exact ih.trans hkept.now
  | case3 b n rest hready hstep ih => exact ih

end Switchboard

namespace Engine

variable {s : Surroundings} {e : Engine} {call : Call}

/-- The engine after some time, as a call in progress finds it. -/
def pause (e : Engine) (nanos : Nat) : Engine :=
  { e with board := e.board.advance nanos }.quiesce

theorem aside_pause (e : Engine) (nanos : Nat) : Aside e (e.pause nanos) :=
  (Aside.board e _).trans (.quiesce _)

theorem now_pause (e : Engine) (nanos : Nat) :
    (e.pause nanos).board.now = e.board.now + nanos :=
  (Switchboard.now_settle _).trans (Switchboard.now_advance _ _)

theorem attend_of_call (hcall : e.call = some call) (nanos : Nat) :
    e.attend s nanos = ((e.pause nanos).proceed? s).getD (e.pause nanos) := by
  unfold attend
  split
  · next hnone => cases hcall.symm.trans hnone
  · rfl

theorem attend_of_none (hcall : e.call = none) (nanos : Nat) : e.attend s nanos = e := by
  unfold attend
  rw [hcall]

theorem foldl_attend_of_none (hcall : e.call = none) (waits : List Nat) :
    waits.foldl (attend s) e = e := by
  induction waits with
  | nil => rfl
  | cons nanos waits ih => rw [List.foldl_cons, attend_of_none hcall, ih]

theorem call_endStop (s : Surroundings) (restart : Option Config) (result : Except StopError Unit)
    (e : Engine) : (e.endStop s restart result).call = none := by
  unfold endStop afterStop
  split
  · rfl
  · exact (opens_openOn ..).call_eq_none

/-- A cancelled instance accepts nobody once all that comes of it has come. -/
theorem isAccepting_pause {place : Nat}
    (hcancelled : ∀ i, e.instances[place]? = some i → i.isCancelled = true) (nanos : Nat) :
    ((e.pause nanos).instances[place]?).any Instance.isAccepting = false := by
  unfold pause quiesce
  rw [List.getElem?_map]
  cases hi : e.instances[place]? with
  | none => rfl
  | some i =>
    rw [Option.map_some, Option.any_some, if_pos (hcancelled i hi)]

/-- The accepting has ended: the call waits for visitors from now on. -/
theorem attend_accepting (hcall : e.call = some call) (hwait : call.wait = .accepting)
    (hcancelled : ∀ i, e.instances[call.running.place]? = some i → i.isCancelled = true)
    (nanos : Nat) :
    (e.attend s nanos).call = some { call with
      wait := .visitors (e.board.now + nanos + call.running.drainTimeout.nanos) } ∧
      (e.attend s nanos).board.now = e.board.now + nanos := by
  rw [attend_of_call hcall]
  unfold proceed?
  rw [(aside_pause e nanos).call, hcall]
  dsimp only
  rw [hwait]
  dsimp only
  rw [isAccepting_pause hcancelled]
  exact ⟨by rw [now_pause]; rfl, now_pause e nanos⟩

/-- Visitors are waited for until the time is up. -/
theorem attend_visitors {deadline : Nat} (hcall : e.call = some call)
    (hwait : call.wait = .visitors deadline) (nanos : Nat) :
    (e.attend s nanos).call = none ∨
      (e.attend s nanos).call = some call ∧
        (e.attend s nanos).board.now = e.board.now + nanos ∧ e.board.now + nanos < deadline := by
  rw [attend_of_call hcall]
  unfold proceed?
  rw [(aside_pause e nanos).call, hcall]
  dsimp only
  rw [hwait]
  dsimp only
  rw [now_pause]
  split
  · exact .inl (call_endStop ..)
  · split
    · exact .inl (call_endStop ..)
    · next hearly =>
      exact .inr ⟨(aside_pause e nanos).call.trans hcall, now_pause e nanos, by omega⟩

theorem foldl_attend_visitors {deadline : Nat} (hcall : e.call = some call)
    (hwait : call.wait = .visitors deadline) (hearly : e.board.now ≤ deadline)
    (waits : List Nat) :
    (waits.foldl (attend s) e).call = none ∨
      (waits.foldl (attend s) e).call = some call ∧
        (waits.foldl (attend s) e).board.now = e.board.now + waits.sum := by
  induction waits generalizing e with
  | nil => exact .inr ⟨hcall, rfl⟩
  | cons nanos waits ih =>
    rw [List.foldl_cons, List.sum_cons, ← Nat.add_assoc]
    rcases attend_visitors hcall hwait nanos with hnone | ⟨hstill, hnow, hlater⟩
    · rw [foldl_attend_of_none hnone]
      exact .inl hnone
    · rw [← hnow]
      exact ih hstill (hnow ▸ Nat.le_of_lt hlater)

/-- To complete a call is to wait for it, at last for as long as it waits for visitors. -/
theorem exists_complete_eq (s : Surroundings) (hcall : e.call = some call) :
    ∃ close, e.complete s =
      attend s ([0, close, close].foldl (attend s) (e.attend s 0))
        call.running.drainTimeout.nanos := by
  unfold complete
  split
  · next hnone => cases hcall.symm.trans hnone
  · next hcall' =>
    cases hcall.symm.trans hcall'
    exact ⟨_, rfl⟩

/-- A call that waits comes to its end. -/
theorem call_complete (hcall : e.call = some call) (hwait : call.wait = .accepting)
    (hcancelled : ∀ i, e.instances[call.running.place]? = some i → i.isCancelled = true) :
    (e.complete s).call = none := by
  obtain ⟨close, hcomplete⟩ := exists_complete_eq s hcall
  obtain ⟨hwaiting, hnow⟩ := attend_accepting (s := s) hcall hwait hcancelled 0
  rw [hcomplete]
  rcases foldl_attend_visitors (s := s) hwaiting rfl (by omega) [0, close, close] with
    hnone | ⟨hstill, hlater⟩
  · rw [attend_of_none hnone]
    exact hnone
  · rcases attend_visitors (s := s) hstill rfl call.running.drainTimeout.nanos with
      hnone | ⟨-, -, hearly⟩
    · exact hnone
    · -- by the last wait alone the time is up
      omega

/-- The instance to stop is cancelled as the stop begins. -/
theorem isCancelled_beginStop {running : Running} (restart : Option Config)
    (hrunning : e.running = some running) :
    (e.beginStop s restart).call = some ⟨running, .accepting, restart⟩ ∧
      ∀ i, (e.beginStop s restart).instances[running.place]? = some i → i.isCancelled = true := by
  unfold beginStop
  split
  · next hnone => cases hrunning.symm.trans hnone
  next running' hsome =>
  cases hrunning.symm.trans hsome
  refine ⟨rfl, fun i hi => ?_⟩
  have hi : (e.instances.modify running.place ({ · with isCancelled := true }))[running.place]? =
      some i := hi
  rw [List.getElem?_modify] at hi
  obtain ⟨j, -, hj⟩ := Option.map_eq_some_iff.mp hi
  rw [if_pos rfl] at hj
  cases hj
  rfl

theorem complete_of_none (hcall : e.call = none) : e.complete s = e := by
  unfold complete
  rw [hcall]

/-- A call waits that is to start nothing. -/
def Stopping (e : Engine) : Prop :=
  (∃ call, e.call = some call ∧ call.restart = none) ∧ e.running = none

/-- A stop has come to its end. -/
structure Stopped (e : Engine) : Prop where
  call : e.call = none
  state : e.state = .idle
  vacant : e.Vacant

theorem Stopping.passage {e' : Engine} (h : e.Stopping) (hp : Passage s e none e') :
    e'.Stopping ∨ e'.Stopped := by
  obtain ⟨⟨call, hcall, hrestart⟩, hrunning⟩ := h
  cases hp with
  | aside ha => exact .inl ⟨⟨call, ha.call.trans hcall, hrestart⟩, ha.running.trans hrunning⟩
  | waits hcall' =>
    cases hcall.symm.trans hcall'
    exact .inl ⟨⟨_, rfl, hrestart⟩, hrunning⟩
  | ends => exact .inr ⟨rfl, rfl, hrunning, rfl⟩
  | restarts hcall' hsome =>
    cases hcall.symm.trans hcall'
    cases hrestart.symm.trans hsome

theorem Stopping.attend (h : e.Stopping) (nanos : Nat) :
    (e.attend s nanos).Stopping ∨ (e.attend s nanos).Stopped := by
  obtain ⟨call, hcall, hrestart⟩ := h.1
  have hpause : (e.pause nanos).Stopping :=
    ⟨⟨call, (aside_pause e nanos).call.trans hcall, hrestart⟩,
      (aside_pause e nanos).running.trans h.2⟩
  rw [attend_of_call hcall]
  cases hproceed : (e.pause nanos).proceed? s with
  | none => exact .inl hpause
  | some e' => exact hpause.passage (shift_proceed hproceed).passage

theorem Stopping.foldl_attend (h : e.Stopping) (waits : List Nat) :
    (waits.foldl (Engine.attend s) e).Stopping ∨ (waits.foldl (Engine.attend s) e).Stopped := by
  induction waits generalizing e with
  | nil => exact .inl h
  | cons nanos waits ih =>
    rw [List.foldl_cons]
    rcases h.attend nanos with hstill | hstopped
    · exact ih hstill
    · rw [foldl_attend_of_none hstopped.call]
      exact .inr hstopped

/-- A stop comes to its end by itself and leaves nothing, clean or not, if there was no more
than what it stops. -/
theorem stopped_stop (s : Surroundings) (e : Engine)
    (hvacant : e.running = none → e.endpoint = none) : (e.stop s).Stopped := by
  unfold stop
  cases hrunning : e.running with
  | none =>
    have hnothing : Stopped (e.requestStop s) := by
      unfold requestStop beginStop
      split
      · exact ⟨rfl, rfl, hrunning, hvacant hrunning⟩
      · next hsome => cases hrunning.symm.trans hsome
    rw [complete_of_none hnothing.call]
    exact hnothing
  | some running =>
    obtain ⟨hcall, hcancelled⟩ := isCancelled_beginStop (s := s) none hrunning
    have hstopping : Stopping (e.requestStop s) := by
      refine ⟨⟨_, hcall, rfl⟩, ?_⟩
      unfold requestStop beginStop
      split
      · next hnone => exact hnone
      · rfl
    have hdone : ((e.requestStop s).complete s).call = none := call_complete hcall rfl hcancelled
    obtain ⟨close, hcomplete⟩ := exists_complete_eq s hcall
    rw [show (e.requestStop s).complete s = _ from hcomplete] at hdone ⊢
    rcases hstopping.foldl_attend [0, 0, close, close, running.drainTimeout.nanos] with
      ⟨⟨call, hcall', -⟩, -⟩ | hstopped
    · cases hdone.symm.trans hcall'
    · exact hstopped

/-! ### Calls as turns -/

theorem exists_turns_attend (s : Surroundings) (e : Engine) (waits : List Nat) :
    ∃ turns : List Turn, (∀ t ∈ turns, t.isCall = false) ∧
      waits.foldl (attend s) e = turns.foldl (turn s) e := by
  induction waits generalizing e with
  | nil => exact ⟨[], nofun, rfl⟩
  | cons nanos waits ih =>
    cases hcall : e.call with
    | none => exact ⟨[], nofun, foldl_attend_of_none hcall _⟩
    | some call =>
      obtain ⟨turns, hquiet, hturns⟩ := ih (e.attend s nanos)
      refine ⟨[.move (.wait nanos), .quiesce, .move .proceed] ++ turns,
        by simpa [Turn.isCall] using hquiet, ?_⟩
      rw [List.foldl_cons, hturns, List.foldl_append, attend_of_call hcall]
      rfl

theorem exists_turns_complete (s : Surroundings) (e : Engine) :
    ∃ turns : List Turn, (∀ t ∈ turns, t.isCall = false) ∧
      e.complete s = turns.foldl (turn s) e := by
  unfold complete
  split
  · exact ⟨[], nofun, rfl⟩
  · exact exists_turns_attend s e _

theorem turn_start (s : Surroundings) (config : Config) (hcall : e.call = none) :
    e.turn s (.move (.start config)) = e.requestStart s config := by
  show (if e.call.isNone then some (e.requestStart s config) else none).getD e = _
  rw [hcall]
  rfl

theorem turn_stop (s : Surroundings) (hcall : e.call = none) :
    e.turn s (.move .stop) = e.requestStop s := by
  show (if e.call.isNone then some (e.requestStop s) else none).getD e = _
  rw [hcall]
  rfl

theorem abandon_not_mem {turns : List Turn} (hquiet : ∀ t ∈ turns, t.isCall = false) :
    .move .abandon ∉ turns := by
  intro hmem
  cases hquiet _ hmem

/-- A start is a run of turns, none of which abandons it. -/
theorem exists_turns_start (s : Surroundings) (config : Config) (hcall : e.call = none) :
    ∃ turns : List Turn, .move .abandon ∉ turns ∧ e.start s config = turns.foldl (turn s) e := by
  obtain ⟨turns, hquiet, hturns⟩ := exists_turns_complete s (e.requestStart s config)
  refine ⟨.move (.start config) :: turns, by simp [abandon_not_mem hquiet], ?_⟩
  rw [List.foldl_cons, turn_start s config hcall]
  exact hturns

theorem exists_turns_stop (s : Surroundings) (hcall : e.call = none) :
    ∃ turns : List Turn, .move .abandon ∉ turns ∧ e.stop s = turns.foldl (turn s) e := by
  obtain ⟨turns, hquiet, hturns⟩ := exists_turns_complete s (e.requestStop s)
  refine ⟨.move .stop :: turns, by simp [abandon_not_mem hquiet], ?_⟩
  rw [List.foldl_cons, turn_stop s hcall]
  exact hturns

end Engine

end WebSocketHost
