import WebSocketHost.Proofs.Engine.Instances
import WebSocketHost.Proofs.Switchboard.Places

/-! All that can happen to a server, where a stop takes its first part in steps and anything may
come in between, with a record of what the connections did. To the switchboard all of it is a
course of moves, so that what holds of every course holds here. -/
namespace WebSocketHost

/-- What is sent to an id is sent to the connection that is registered under it. -/
theorem Switchboard.sendTo_eq (b : Switchboard) (id : SessionId) (m : Message) :
    b.sendTo id m = ((b.lookup id).map (Move.send · m)).toList.foldl move b := by
  unfold sendTo
  cases b.lookup id <;> rfl

namespace Engine

/-- Something happens, or a stop takes one of its first steps. The registry may be emptied at
any time. -/
inductive Act
  | turn (t : Turn)
  /-- A call takes control, to stop what runs. -/
  | enter (restart : Option Config)
  | clear
  /-- The instance that is to stop is cancelled. -/
  | cancel

def act (s : Surroundings) (e : Engine) : Act → Engine
  | .turn t => e.turn s t
  | .enter restart =>
    match e.call, e.running with
    | none, some running =>
      { e.publish .stopping with
        running := none, call := some ⟨running, .accepting, restart⟩ }
    | _, _ => e
  | .clear => { e with board := e.board.evict.2 }
  | .cancel => e.call.elim e fun call => e.cancelInstance call.running.place

/-- A stop begins with its first steps, and nothing in between. -/
theorem beginStop_eq (s : Surroundings) (restart : Option Config) {e : Engine} {running : Running}
    (hcall : e.call = none) (hrunning : e.running = some running) :
    e.beginStop s restart = [.enter restart, .clear, .cancel].foldl (act s) e := by
  have henter : e.act s (.enter restart) = { e.publish .stopping with
      running := none, call := some ⟨running, .accepting, restart⟩ } := by
    unfold act
    rw [hcall, hrunning]
  unfold beginStop
  rw [hrunning, List.foldl_cons, henter]
  rfl

/-! ### The switchboard -/

/-- The moves that cancel an instance. -/
def cancels (e : Engine) (place : Nat) : List Switchboard.Move :=
  (e.instances[place]?.elim [] connectionsOf).map .cancel

/-- The moves with which a stop begins. -/
def stopMoves (e : Engine) : List Switchboard.Move :=
  .evict :: e.running.elim [] (e.cancels ·.place)

/-- What a turn is to the switchboard. -/
def moves (e : Engine) : Turn → List Switchboard.Move
  | .quiesce => e.board.settleMoves
  | .move (.start _) => if e.call.isNone && e.running.isSome then e.stopMoves else []
  | .move .stop => if e.call.isNone then e.stopMoves else []
  | .move (.upgrade place visitor leftover) =>
    match e.visitor? place visitor with
    | some (i, .negotiating id) =>
      [.openConnection id i.maxFrame i.closeTimeout leftover i.isCancelled]
    | _ => []
  | .move (.step n) => [.step n]
  | .move (.arrive n chunk) => [.arrive n chunk]
  | .move (.horizon n h) => [.horizon n h]
  | .move (.outlet n o) => [.outlet n o]
  | .move (.send (.text id content)) =>
    ((e.board.lookup id).map (.send · (.text content))).toList
  | .move (.send (.binary id data)) =>
    ((e.board.lookup id).map (.send · (.binary data))).toList
  | .move (.wait nanos) => [.advance nanos]
  | .move .proceed | .move .abandon | .move (.accept ..) | .move (.endAccepting _)
  | .move (.dismiss ..) => []

/-- What an act is to the switchboard. -/
def actMoves (e : Engine) : Act → List Switchboard.Move
  | .turn t => e.moves t
  | .enter _ => []
  | .clear => [.evict]
  | .cancel => e.call.elim [] (e.cancels ·.running.place)

theorem board_cancelInstance (e : Engine) (place : Nat) :
    (e.cancelInstance place).board = (e.cancels place).foldl Switchboard.move e.board := by
  unfold cancelInstance cancels
  dsimp only
  split
  · next i hi =>
    rw [hi, List.foldl_map]
    rfl
  · next hnone =>
    rw [hnone]
    rfl

theorem board_openOn (s : Surroundings) (config : Config) (e : Engine) :
    (e.openOn s config).board = e.board := by
  have h := opens_openOn s config e
  generalize e.openOn s config = e' at h ⊢
  cases h <;> rfl

theorem board_afterStop (s : Surroundings) (restart : Option Config)
    (result : Except StopError Unit) (e : Engine) :
    (e.afterStop s restart result).board = e.board := by
  cases restart with
  | none => rfl
  | some config => exact board_openOn s config e

theorem board_beginStop (s : Surroundings) (restart : Option Config) (e : Engine) :
    (e.beginStop s restart).board = e.stopMoves.foldl Switchboard.move e.board := by
  unfold beginStop stopMoves
  cases hrunning : e.running with
  | none => exact board_afterStop ..
  | some running => exact board_cancelInstance { e with board := e.board.evict.2 } running.place

theorem board_proceed {s : Surroundings} {e e' : Engine} (h : e.proceed? s = some e') :
    e'.board = e.board := by
  unfold proceed? at h
  split at h
  · cases h
  · split at h
    · split at h <;> cases h
      rfl
    · dsimp only at h
      split at h
      · cases h
        exact board_afterStop ..
      · split at h <;> cases h
        exact board_afterStop ..

theorem board_turn (s : Surroundings) (e : Engine) (t : Turn) :
    (e.turn s t).board = (e.moves t).foldl Switchboard.move e.board := by
  cases t with
  | quiesce => exact e.board.settle_eq
  | move m =>
    show ((e.step? s m).getD e).board = _
    cases m with
    | start config =>
      unfold step? requestStart moves
      dsimp only
      cases e.call.isNone with
      | false => rfl
      | true =>
        cases e.running.isSome with
        | false => exact board_openOn s config e
        | true => exact board_beginStop s (some config) e
    | stop =>
      unfold step? requestStop moves
      dsimp only
      cases e.call.isNone with
      | false => rfl
      | true => exact board_beginStop s none e
    | proceed =>
      show ((e.proceed? s).getD e).board = e.board
      cases hproceed : e.proceed? s with
      | none => rfl
      | some e' => exact board_proceed hproceed
    | abandon | accept | endAccepting =>
      unfold step?
      dsimp only
      split <;> rfl
    | upgrade place visitor leftover =>
      unfold step? upgrade? moves
      dsimp only
      rcases e.visitor? place visitor with _ | ⟨i, _ | _ | _⟩ <;> rfl
    | dismiss =>
      unfold step?
      dsimp only
      split <;> rfl
    | step n =>
      show (((e.board.stepAt n).bind fun board => some { e with board }).getD e).board =
        (e.board.stepAt n).getD e.board
      cases e.board.stepAt n <;> rfl
    | arrive | horizon | outlet | wait => rfl
    | send o =>
      cases o with
      | text id content | binary id data => exact e.board.sendTo_eq ..

theorem board_act (s : Surroundings) (e : Engine) (a : Act) :
    (e.act s a).board = (e.actMoves a).foldl Switchboard.move e.board := by
  cases a with
  | turn t => exact board_turn s e t
  | enter restart =>
    unfold act
    dsimp only
    split <;> rfl
  | clear => rfl
  | cancel =>
    unfold act actMoves
    cases e.call with
    | none => rfl
    | some call => exact board_cancelInstance e call.running.place

/-- Only by an upgrade there is one connection more. -/
theorem isOpening_actMoves (e : Engine) (a : Act) :
    (∀ m ∈ e.actMoves a, m.isOpening = false) ∨
      ∃ place visitor leftover, a = .turn (.move (.upgrade place visitor leftover)) := by
  have hcancels : ∀ place, ∀ m ∈ e.cancels place, m.isOpening = false := by
    intro place m hm
    obtain ⟨n, -, rfl⟩ := List.mem_map.mp hm
    rfl
  have hstop : ∀ m ∈ e.stopMoves, m.isOpening = false := by
    refine List.forall_mem_cons.mpr ⟨rfl, ?_⟩
    cases e.running with
    | none => nofun
    | some running => exact hcancels running.place
  cases a with
  | enter => exact .inl nofun
  | clear => exact .inl (List.forall_mem_cons.mpr ⟨rfl, nofun⟩)
  | cancel =>
    refine .inl ?_
    unfold actMoves
    cases e.call with
    | none => nofun
    | some call => exact hcancels call.running.place
  | turn t =>
    cases t with
    | quiesce => exact .inl e.board.isOpening_settleMoves
    | move m =>
      cases m with
      | upgrade place visitor leftover => exact .inr ⟨place, visitor, leftover, rfl⟩
      | proceed | abandon | accept | endAccepting | dismiss => exact .inl nofun
      | step | arrive | horizon | outlet | wait =>
        exact .inl (List.forall_mem_cons.mpr ⟨rfl, nofun⟩)
      | start | stop =>
        refine .inl ?_
        unfold actMoves moves
        dsimp only
        split
        · exact hstop
        · nofun
      | send o =>
        refine .inl ?_
        unfold actMoves moves
        cases o with
        | text id content | binary id data =>
          dsimp only
          cases e.board.lookup id with
          | none => nofun
          | some n => exact List.forall_mem_cons.mpr ⟨rfl, nofun⟩

end Engine

/-- A server, and what its connections did up to here, the latest first. -/
structure Chronicle where
  engine : Engine
  deeds : List Deed := []

namespace Chronicle

def initial : Chronicle := { engine := .initial }

def course (c : Chronicle) : Course := ⟨c.engine.board, c.deeds⟩

def act (c : Chronicle) (s : Surroundings) (a : Engine.Act) : Chronicle where
  engine := c.engine.act s a
  deeds := (c.course.run (c.engine.actMoves a)).deeds

def run (c : Chronicle) (acts : List (Surroundings × Engine.Act)) : Chronicle :=
  acts.foldl (fun c p => c.act p.1 p.2) c

/-- An act is a course of moves. -/
theorem course_act (c : Chronicle) (s : Surroundings) (a : Engine.Act) :
    (c.act s a).course = c.course.run (c.engine.actMoves a) := by
  have hboard : (c.course.run (c.engine.actMoves a)).board = (c.engine.act s a).board := by
    rw [Engine.board_act]
    exact Course.board_run c.course _
  show (⟨(c.engine.act s a).board, (c.course.run (c.engine.actMoves a)).deeds⟩ : Course) = _
  rw [← hboard]

end Chronicle

end WebSocketHost
