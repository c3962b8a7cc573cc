import WebSocketHost.Proofs.Connection.Transition
import WebSocketHost.Switchboard

/-! All that can happen to a switchboard, in whatever order, with a record of what its
connections did to others. Later modules use what `Course.move` does to the hub and to each
connection's marks, and do not open the moves. -/
namespace WebSocketHost

/-- Something done to those who share a hub. -/
inductive Deed
  | task (n : Nat) (id : SessionId) (effect : Effect)
  /-- The registry was emptied. -/
  | cleared
deriving DecidableEq

/-- What a connection does to others once in its life. -/
inductive Mark
  | registers
  | tells (isConnect : Bool)
  | unregisters
deriving DecidableEq

def Event.mark? (e : Event) : Option Mark := e.status?.map fun s => .tells s.isConnect

def Effect.mark? : Effect → Option Mark
  | register => some .registers
  | unregister => some .unregisters
  | emit e => e.mark?

/-- The mark that a deed leaves on a connection. -/
def Deed.mark? (k : Nat) : Deed → Option Mark
  | task n _ effect => if n = k then effect.mark? else none
  | cleared => none

@[simp] theorem Deed.mark?_self (n : Nat) (id : SessionId) (effect : Effect) :
    (Deed.task n id effect).mark? n = effect.mark? :=
  if_pos rfl

/-- The marks of a connection's life up to a phase, the latest first. -/
def Phase.marks : Phase → List Mark
  | entering => []
  | greeting => [.registers]
  | parting _ => [.unregisters, .tells true, .registers]
  | finished => [.tells false, .unregisters, .tells true, .registers]
  | acting | writing _ _ | waiting | draining | farewell _ _ _ | shutting _ _ | leaving _ =>
    [.tells true, .registers]

theorem Resume.marks_phase (resume : Resume) : resume.phase.marks = [.tells true, .registers] := by
  cases resume <;> rfl

theorem Ending.mark?_event (ending : Ending) (id : SessionId) :
    (ending.event id).mark? = some (.tells false) := by
  cases ending <;> rfl

theorem Ending.sessionId_event (ending : Ending) (id : SessionId) :
    (ending.event id).sessionId = id := by
  cases ending <;> rfl

theorem Message.mark?_event (m : Message) (id : SessionId) : (m.event id).mark? = none := by
  cases m <;> rfl

theorem Message.sessionId_event (m : Message) (id : SessionId) : (m.event id).sessionId = id := by
  cases m <;> rfl

namespace Connection

variable {c d : Connection} {now : Nat} {isHeld : Bool} {effect : Option Effect}

theorem marks_sendMessage (c : Connection) (m : Message) (resume : Resume) :
    (c.sendMessage m resume).phase.marks = [.tells true, .registers] := by
  unfold sendMessage
  split
  · rfl
  · exact resume.marks_phase

theorem Transition.marks (h : Transition c now isHeld effect d) :
    d.phase.marks = (effect.bind Effect.mark?).toList ++ c.phase.marks := by
  cases h with
  | enter hp | greet hp | leave hp =>
    rw [hp]
    rfl
  | part hp =>
    rw [hp]
    simp [Effect.mark?, Ending.mark?_event, Phase.marks]
  | deliver hp =>
    rw [hp]
    simp [Effect.mark?, Message.mark?_event]
  | take hp | flush hp =>
    rw [hp, marks_sendMessage]
    rfl
  | write hp =>
    rw [hp]
    exact Resume.marks_phase _
  | _ hp =>
    rw [hp]
    rfl

/-- A connection keeps its id, tells of no other, and is not cancelled by itself. -/
theorem Transition.id_eq (h : Transition c now isHeld effect d) :
    d.id = c.id ∧ d.isCancelled = c.isCancelled ∧
      ∀ e, effect = some (.emit e) → e.sessionId = c.id := by
  cases h with
  | greet =>
    refine ⟨rfl, rfl, fun e he => ?_⟩
    cases he
    rfl
  | deliver =>
    refine ⟨rfl, rfl, fun e he => ?_⟩
    cases he
    exact Message.sessionId_event _ _
  | part =>
    refine ⟨rfl, rfl, fun e he => ?_⟩
    cases he
    exact Ending.sessionId_event _ _
  | take | flush =>
    rw [sendMessage_eq]
    exact ⟨rfl, rfl, nofun⟩
  | _ => exact ⟨rfl, rfl, nofun⟩

end Connection

/-- The hub after a deed. -/
def Hub.after (h : Hub) : Option Deed → Hub
  | none => h
  | some .cleared => { h with registry := .empty }
  | some (.task n id .register) => { h with registry := h.registry.insert id n }
  | some (.task n id .unregister) => { h with registry := (h.registry.unregisterIf id (· = n)).2 }
  | some (.task _ _ (.emit e)) => h.emit e

namespace Switchboard

/-- What can happen to a switchboard. What is sent to an id is sent to the connection that is
registered under it. -/
inductive Move
  /-- One step of one connection. -/
  | step (n : Nat)
  /-- The connection that is to run next has nothing to do. -/
  | skip
  | openConnection (id : SessionId) (maxFrame : Nat) (closeTimeout : Duration) (leftover : Octets)
    (isCancelled : Bool)
  | arrive (n : Nat) (chunk : Octets)
  | horizon (n : Nat) (h : Horizon)
  | outlet (n : Nat) (o : Outlet)
  | collect (n : Nat)
  | send (n : Nat) (m : Message)
  | cancel (n : Nat)
  | evict
  | shutdown
  | hold (n : Nat)
  | release (n : Nat)
  | advance (nanos : Nat)

def move (b : Switchboard) : Move → Switchboard
  | .step n => (b.stepAt n).getD b
  | .skip => { b with ready := b.ready.tail }
  | .openConnection id maxFrame closeTimeout leftover isCancelled =>
    b.openConnection id maxFrame closeTimeout leftover isCancelled
  | .arrive n chunk => b.arrive n chunk
  | .horizon n h => b.setHorizon n h
  | .outlet n o => b.setOutlet n o
  | .collect n => (b.takeWritten n).2
  | .send n m => (b.send n m).2
  | .cancel n => b.cancel n
  | .evict => b.evict.2
  | .shutdown => b.shutdown
  | .hold n => b.hold n
  | .release n => b.release n
  | .advance nanos => b.advance nanos

/-- What a connection's next step does to others. -/
def effect? (b : Switchboard) (n : Nat) : Option Deed := do
  let c ← b.connection? n
  let (effect, _) ← c.step b.now (b.isHeld n)
  effect.map (.task n c.id)

def deed? (b : Switchboard) : Move → Option Deed
  | .step n => b.effect? n
  | .evict => some .cleared
  | _ => none

def IsCancelled (b : Switchboard) (k : Nat) : Prop :=
  ∃ c, b.connection? k = some c ∧ c.isCancelled = true

/-! ### What comes from outside -/

/-- Between two boards no connection has moved, though some may have been cancelled. -/
structure Unmoved (b c : Switchboard) : Prop where
  hub : c.hub = b.hub
  length : c.connections.length = b.connections.length
  connection : ∀ k d, b.connection? k = some d → ∃ e, c.connection? k = some e ∧
    e.id = d.id ∧ e.phase = d.phase ∧ (d.isCancelled = true → e.isCancelled = true)

namespace Unmoved

variable {b c d : Switchboard}

theorem of_eq (hhub : c.hub = b.hub) (h : c.connections = b.connections) : Unmoved b c where
  hub := hhub
  length := by rw [h]
  connection k d hd := ⟨d, by rw [connection?, h]; exact hd, rfl, rfl, id⟩

theorem trans (h : Unmoved b c) (h' : Unmoved c d) : Unmoved b d where
  hub := h'.hub.trans h.hub
  length := h'.length.trans h.length
  connection k x hx := by
    obtain ⟨y, hy, hid, hphase, hcancelled⟩ := h.connection k x hx
    obtain ⟨z, hz, hid', hphase', hcancelled'⟩ := h'.connection k y hy
    exact ⟨z, hz, hid'.trans hid, hphase'.trans hphase, hcancelled' ∘ hcancelled⟩

theorem wake (b : Switchboard) (n : Nat) : Unmoved b (b.wake n) := by
  unfold Switchboard.wake
  split <;> exact of_eq rfl rfl

theorem set {n : Nat} {c d : Connection} (hc : b.connection? n = some c) (hid : d.id = c.id)
    (hphase : d.phase = c.phase) (hcancelled : c.isCancelled = true → d.isCancelled = true) :
    Unmoved b { b with connections := b.connections.set n d } where
  hub := rfl
  length := List.length_set
  connection k x hx := by
    have hn : n < b.connections.length := (List.getElem?_eq_some_iff.mp hc).1
    by_cases hk : n = k
    · subst hk
      cases hc.symm.trans hx
      exact ⟨d, List.getElem?_set_self hn, hid, hphase, hcancelled⟩
    · exact ⟨x, (List.getElem?_set_ne hk).trans hx, rfl, rfl, id⟩

theorem touch {f : Connection → Connection} (b : Switchboard) (n : Nat)
    (hf : ∀ c, (f c).id = c.id ∧ (f c).phase = c.phase ∧
      (c.isCancelled = true → (f c).isCancelled = true)) : Unmoved b (b.touch n f) := by
  refine trans ?_ (wake _ n)
  refine ⟨rfl, List.length_modify .., fun k c hc => ?_⟩
  have hmodify : (b.connections.modify n f)[k]? = some (if n = k then f c else c) := by
    rw [List.getElem?_modify]
    split <;> exact congrArg _ hc
  refine ⟨_, hmodify, ?_⟩
  split
  · exact hf c
  · exact ⟨rfl, rfl, id⟩

theorem onTransport (b : Switchboard) (n : Nat) (f : Transport → Transport) :
    Unmoved b (b.touch n (Switchboard.onTransport f)) :=
  touch b n fun _ => ⟨rfl, rfl, id⟩

theorem cancel (b : Switchboard) (n : Nat) : Unmoved b (b.cancel n) :=
  touch b n fun _ => ⟨rfl, rfl, fun _ => rfl⟩

theorem foldl {f : Switchboard → Nat → Switchboard} (hf : ∀ b n, Unmoved b (f b n))
    (b : Switchboard) (ns : List Nat) : Unmoved b (ns.foldl f b) := by
  induction ns generalizing b with
  | nil => exact of_eq rfl rfl
  | cons n ns ih => exact (hf b n).trans (ih (f b n))

theorem collect (b : Switchboard) (n : Nat) : Unmoved b (b.takeWritten n).2 := by
  unfold takeWritten
  split
  · exact of_eq rfl rfl
  · next c hc =>
    dsimp only
    split
    · exact of_eq rfl rfl
    · exact set hc rfl rfl id

theorem send (b : Switchboard) (n : Nat) (m : Message) : Unmoved b (b.send n m).2 := by
  unfold Switchboard.send
  split
  · next d hd =>
    obtain ⟨c, hc, hq⟩ := Option.bind_eq_some_iff.mp hd
    unfold Connection.enqueue? at hq
    split at hq
    · cases hq
      refine trans (set hc ?_ ?_ ?_) (wake _ n)
      · rfl
      · rfl
      · exact id
    · cases hq
  · exact of_eq rfl rfl

theorem isCancelled {k : Nat} (h : Unmoved b c) (hk : b.IsCancelled k) : c.IsCancelled k := by
  obtain ⟨d, hd, hcancelled⟩ := hk
  obtain ⟨e, he, -, -, hstill⟩ := h.connection k d hd
  exact ⟨e, he, hstill hcancelled⟩

end Unmoved

theorem isCancelled_cancel {b : Switchboard} {k : Nat} (h : k < b.connections.length) :
    (b.cancel k).IsCancelled k := by
  have hwake := Unmoved.wake { b with connections := b.connections.modify k Connection.cancel } k
  refine hwake.isCancelled ⟨b.connections[k].cancel, ?_, rfl⟩
  show (b.connections.modify k Connection.cancel)[k]? = _
  rw [List.getElem?_modify, List.getElem?_eq_getElem h]
  exact congrArg some (if_pos rfl)

/-! ### A move -/

variable {b : Switchboard} {n k : Nat} {m : Move}

/-- What a move does, and what becomes of the board. -/
inductive Outcome (b : Switchboard) : Option Deed → Switchboard → Prop
  /-- No connection moves, and the hub is touched only to empty the registry. -/
  | still {deed : Option Deed} {b' : Switchboard} (hdeed : deed = none ∨ deed = some .cleared)
    (h : Unmoved { b with hub := b.hub.after deed } b') : Outcome b deed b'
  | opened {c : Connection} {b' : Switchboard} (hc : c.phase = .entering)
    (h : Unmoved { b with connections := b.connections ++ [c] } b') : Outcome b none b'
  /-- A step moves one connection, and cancels who was registered where it registers. -/
  | stepped {n : Nat} {c d : Connection} {effect : Option Effect} {b' : Switchboard}
    (hc : b.connection? n = some c) (hd : c.Transition b.now (b.isHeld n) effect d)
    (h : Unmoved { b with
      connections := b.connections.set n d, hub := b.hub.after (effect.map (.task n c.id)) } b')
    (hcancel : effect = some .register → ∀ k < b.connections.length, b.lookup c.id = some k →
      b'.IsCancelled k) : Outcome b (effect.map (.task n c.id)) b'

theorem outcome_apply {c d : Connection} {effect : Effect} (hc : b.connection? n = some c)
    (hd : c.Transition b.now (b.isHeld n) (some effect) d) :
    Outcome b (some (.task n c.id effect))
      (apply { b with connections := b.connections.set n d } n c.id effect) := by
  refine @Outcome.stepped b n c d (some effect) _ hc hd ?_ ?_
  · cases effect with
    | emit e => exact .of_eq rfl rfl
    | unregister => exact .of_eq rfl rfl
    | register =>
      unfold apply Registry.register
      dsimp only
      split
      · exact .cancel _ _
      · exact .of_eq rfl rfl
  · intro heffect k hk hstale
    cases heffect
    unfold apply Registry.register
    dsimp only
    rw [show b.hub.registry.lookup c.id = some k from hstale]
    exact isCancelled_cancel (List.length_set.symm ▸ hk)

theorem outcome_step (b : Switchboard) (n : Nat) :
    Outcome b (b.effect? n) ((b.stepAt n).getD b) := by
  unfold effect? stepAt
  cases hc : b.connection? n with
  | none => exact .still (.inl rfl) (.of_eq rfl rfl)
  | some c =>
    dsimp only [bind, Option.bind]
    cases hd : c.step b.now (b.isHeld n) with
    | none => exact .still (.inl rfl) (.of_eq rfl rfl)
    | some p =>
      obtain ⟨effect, d⟩ := p
      have hd := Connection.transition_of_step hd
      cases effect with
      | none => exact @Outcome.stepped b n c d none _ hc hd (.of_eq rfl rfl) nofun
      | some effect => exact outcome_apply hc hd

theorem outcome_move (b : Switchboard) (m : Move) : Outcome b (b.deed? m) (b.move m) := by
  have hstill : ∀ {b'}, Unmoved b b' → Outcome b none b' := .still (.inl rfl)
  cases m with
  | step n => exact outcome_step b n
  | openConnection id max timeout leftover isCancelled => exact .opened rfl (.wake _ _)
  | skip => exact hstill (.of_eq rfl rfl)
  | hold n => exact hstill (.of_eq rfl rfl)
  | arrive n chunk => exact hstill (.onTransport b n _)
  | horizon n h => exact hstill (.onTransport b n _)
  | outlet n o => exact hstill (.onTransport b n _)
  | cancel n => exact hstill (.cancel b n)
  | collect n => exact hstill (.collect b n)
  | send n m => exact hstill (.send b n m)
  | evict => exact .still (.inr rfl) (.foldl Unmoved.wake _ _)
  | shutdown =>
    refine hstill (.trans ?_ (.foldl Unmoved.cancel { b with isStopping := true } _))
    exact .of_eq rfl rfl
  | release n =>
    refine hstill (.trans ?_ (.wake { b with outside := b.outside.erase n } n))
    exact .of_eq rfl rfl
  | advance nanos =>
    refine hstill (.trans ?_ (.foldl Unmoved.wake { b with now := b.now + nanos } _))
    exact .of_eq rfl rfl

/-- A move by which there is one connection more. -/
def Move.isOpening : Move → Bool
  | .openConnection .. => true
  | _ => false

theorem length_apply (b : Switchboard) (n : Nat) (id : SessionId) (e : Effect) :
    (b.apply n id e).connections.length = b.connections.length := by
  cases e with
  | emit | unregister => rfl
  | register =>
    unfold apply Registry.register
    dsimp only
    split
    · exact (Unmoved.cancel _ _).length
    · rfl

theorem length_stepAt {c : Switchboard} (h : b.stepAt n = some c) :
    c.connections.length = b.connections.length := by
  unfold stepAt at h
  split at h
  · cases h
  · split at h
    · cases h
    · dsimp only at h
      split at h <;> cases h
      · exact (length_apply ..).trans List.length_set
      · exact List.length_set

theorem length_move (b : Switchboard) {m : Move} (hm : m.isOpening = false) :
    (b.move m).connections.length = b.connections.length := by
  cases m with
  | openConnection => cases hm
  | skip | hold => rfl
  | step n =>
    show ((b.stepAt n).getD b).connections.length = _
    cases hstep : b.stepAt n with
    | none => rfl
    | some c => exact length_stepAt hstep
  | arrive n chunk => exact (Unmoved.onTransport b n _).length
  | horizon n h => exact (Unmoved.onTransport b n _).length
  | outlet n o => exact (Unmoved.onTransport b n _).length
  | cancel n => exact (Unmoved.cancel b n).length
  | collect n => exact (Unmoved.collect b n).length
  | send n m => exact (Unmoved.send b n m).length
  | evict => exact (Unmoved.foldl Unmoved.wake _ _).length
  | shutdown => exact (Unmoved.foldl Unmoved.cancel { b with isStopping := true } _).length
  | release n => exact (Unmoved.wake { b with outside := b.outside.erase n } n).length
  | advance nanos => exact (Unmoved.foldl Unmoved.wake { b with now := b.now + nanos } _).length

/-! ### Handles outside, the time, and whether all is to end -/

def Move.outside (held : List Nat) : Move → List Nat
  | hold n => n :: held
  | release n => held.erase n
  | _ => held

def Move.clock (now : Nat) : Move → Nat
  | advance nanos => now + nanos
  | _ => now

def Move.stops (isStopping : Bool) : Move → Bool
  | shutdown => true
  | _ => isStopping

/-- What no connection has a part in is the same. -/
structure Kept (b c : Switchboard) : Prop where
  outside : c.outside = b.outside
  now : c.now = b.now
  isStopping : c.isStopping = b.isStopping

namespace Kept

variable {c : Switchboard}

theorem refl (b : Switchboard) : Kept b b := ⟨rfl, rfl, rfl⟩

theorem trans {d : Switchboard} (h : Kept b c) (h' : Kept c d) : Kept b d where
  outside := h'.outside.trans h.outside
  now := h'.now.trans h.now
  isStopping := h'.isStopping.trans h.isStopping

theorem wake (b : Switchboard) (n : Nat) : Kept b (b.wake n) := by
  unfold Switchboard.wake
  split <;> exact ⟨rfl, rfl, rfl⟩

theorem touch (b : Switchboard) (n : Nat) (f : Connection → Connection) : Kept b (b.touch n f) := by
  refine trans ?_ (wake _ n)
  exact ⟨rfl, rfl, rfl⟩

theorem foldl {f : Switchboard → Nat → Switchboard} (hf : ∀ b n, Kept b (f b n))
    (b : Switchboard) (ns : List Nat) : Kept b (ns.foldl f b) := by
  induction ns generalizing b with
  | nil => exact refl b
  | cons n ns ih => exact (hf b n).trans (ih (f b n))

theorem apply (b : Switchboard) (n : Nat) (id : SessionId) (effect : Effect) :
    Kept b (b.apply n id effect) := by
  cases effect with
  | emit | unregister => exact ⟨rfl, rfl, rfl⟩
  | register =>
    unfold Switchboard.apply Registry.register
    dsimp only
    split
    · refine trans ?_ (touch _ _ _)
      exact ⟨rfl, rfl, rfl⟩
    · exact ⟨rfl, rfl, rfl⟩

theorem step (b : Switchboard) (n : Nat) : Kept b ((b.stepAt n).getD b) := by
  unfold stepAt
  split
  · exact refl b
  · split
    · exact refl b
    · dsimp only
      split
      · refine trans ?_ (apply _ n _ _)
        exact ⟨rfl, rfl, rfl⟩
      · exact ⟨rfl, rfl, rfl⟩

theorem send (b : Switchboard) (n : Nat) (m : Message) : Kept b (b.send n m).2 := by
  unfold Switchboard.send
  split
  · refine trans ?_ (wake _ n)
    exact ⟨rfl, rfl, rfl⟩
  · exact refl b

theorem collect (b : Switchboard) (n : Nat) : Kept b (b.takeWritten n).2 := by
  unfold takeWritten
  split
  · exact refl b
  · dsimp only
    split <;> exact ⟨rfl, rfl, rfl⟩

end Kept

theorem kept_move (b : Switchboard) (m : Move) :
    Kept { b with outside := m.outside b.outside, now := m.clock b.now,
                  isStopping := m.stops b.isStopping } (b.move m) := by
  cases m with
  | step n => exact .step b n
  | skip | hold => exact ⟨rfl, rfl, rfl⟩
  | openConnection =>
    refine .trans ?_ (.wake _ _)
    exact ⟨rfl, rfl, rfl⟩
  | arrive n | horizon n | outlet n | cancel n => exact .touch b n _
  | collect n => exact .collect b n
  | send n m => exact .send b n m
  | evict =>
    refine .trans ?_ (.foldl .wake _ _)
    exact ⟨rfl, rfl, rfl⟩
  | shutdown =>
    refine .trans ?_ (.foldl (fun b n => .touch b n _) { b with isStopping := true } _)
    exact ⟨rfl, rfl, rfl⟩
  | release n => exact .wake { b with outside := b.outside.erase n } n
  | advance nanos => exact .foldl .wake { b with now := b.now + nanos } _

/-- The moves that settle a board, steps for the most part. -/
def settleMoves (b : Switchboard) : List Move :=
  match _hr : b.ready with
  | [] => []
  | n :: rest =>
    match _h : b.stepAt n with
    | some c => .step n :: c.settleMoves
    | none => .skip :: { b with ready := rest }.settleMoves
termination_by (b.work, b.ready.length)
decreasing_by
  · exact Prod.Lex.left _ _ (work_stepAt_lt _h)
  · refine Prod.Lex.right _ ?_
    simp [_hr]

theorem settle_eq (b : Switchboard) : b.settle = b.settleMoves.foldl move b := by
  fun_induction settle b with
  | case1 b hready =>
    rw [settleMoves.eq_def]
    grind
  | case2 b n rest hready c hstep ih =>
    rw [settleMoves.eq_def]
    grind [move]
  | case3 b n rest hready hstep ih =>
    rw [settleMoves.eq_def]
    grind [move]

theorem isOpening_settleMoves (b : Switchboard) : ∀ m ∈ b.settleMoves, m.isOpening = false := by
  fun_induction settleMoves b with
  | case1 => nofun
  | case2 b n rest hready c hstep ih => exact List.forall_mem_cons.mpr ⟨rfl, ih⟩
  | case3 b n rest hready hstep ih => exact List.forall_mem_cons.mpr ⟨rfl, ih⟩

theorem length_moves (b : Switchboard) {moves : List Move}
    (h : ∀ m ∈ moves, m.isOpening = false) :
    (moves.foldl move b).connections.length = b.connections.length := by
  induction moves generalizing b with
  | nil => rfl
  | cons m moves ih =>
    obtain ⟨hm, hmoves⟩ := List.forall_mem_cons.mp h
    exact (ih (b.move m) hmoves).trans (b.length_move hm)

namespace Outcome

variable {b' : Switchboard} {deed : Option Deed} {k : Nat}

theorem hub (h : Outcome b deed b') : b'.hub = b.hub.after deed := by
  cases h with
  | still _ h => exact h.hub
  | opened _ h => exact h.hub
  | stepped _ _ h => exact h.hub

/-- What becomes of one connection. -/
theorem connection? {c : Connection} (h : Outcome b deed b') (hc : b.connection? k = some c) :
    ∃ d, b'.connection? k = some d ∧ d.id = c.id ∧
      d.phase.marks = (deed.bind (Deed.mark? k)).toList ++ c.phase.marks ∧
      (c.isCancelled = true → d.isCancelled = true) := by
  have hlt : k < b.connections.length := (List.getElem?_eq_some_iff.mp hc).1
  cases h with
  | still hdeed h =>
    obtain ⟨d, hd, hid, hphase, hcancelled⟩ := h.connection k c hc
    refine ⟨d, hd, hid, ?_, hcancelled⟩
    rw [hphase]
    rcases hdeed with rfl | rfl <;> rfl
  | opened _ h =>
    obtain ⟨d, hd, hid, hphase, hcancelled⟩ :=
      h.connection k c ((List.getElem?_append_left hlt).trans hc)
    exact ⟨d, hd, hid, by rw [hphase]; rfl, hcancelled⟩
  | @stepped n c' d' effect _ hc' hd' h =>
    by_cases hk : n = k
    · subst hk
      cases hc.symm.trans hc'
      obtain ⟨e, he, hid, hphase, hcancelled⟩ := h.connection n d' (List.getElem?_set_self hlt)
      obtain ⟨hid', hcancelled', -⟩ := hd'.id_eq
      refine ⟨e, he, hid.trans hid', ?_, hcancelled ∘ hcancelled'.trans⟩
      rw [hphase, hd'.marks]
      cases effect with
      | none => rfl
      | some effect => simp
    · obtain ⟨e, he, hid, hphase, hcancelled⟩ :=
        h.connection k c ((List.getElem?_set_ne hk).trans hc)
      refine ⟨e, he, hid, ?_, hcancelled⟩
      rw [hphase]
      cases effect with
      | none => rfl
      | some effect => simp [Deed.mark?, hk]

/-- A connection that comes has done nothing yet. -/
theorem connection?_of_none (h : Outcome b deed b') (hk : b.connection? k = none) :
    deed.bind (Deed.mark? k) = none ∧ ∀ d, b'.connection? k = some d → d.phase = .entering := by
  have hge : b.connections.length ≤ k := List.getElem?_eq_none_iff.mp hk
  have hmoved : ∀ {a : Switchboard}, Unmoved a b' →
      a.connections.length = b.connections.length → ∀ d, b'.connection? k ≠ some d := by
    intro a h ha d hd
    have := (List.getElem?_eq_some_iff.mp hd).1
    have := h.length
    omega
  cases h with
  | still hdeed h =>
    refine ⟨?_, fun d hd => absurd hd (hmoved h rfl d)⟩
    rcases hdeed with rfl | rfl <;> rfl
  | @opened c _ hc h =>
    refine ⟨rfl, fun d hd => ?_⟩
    have hlength := h.length
    have hlt : k < b'.connections.length := (List.getElem?_eq_some_iff.mp hd).1
    have hk : k = b.connections.length := by
      simp only [List.length_append, List.length_cons, List.length_nil] at hlength
      omega
    obtain ⟨e, he, -, hphase, -⟩ := h.connection k c (by rw [hk]; exact List.getElem?_concat_length)
    cases he.symm.trans hd
    exact hphase.trans hc
  | @stepped n c d effect _ hc hd h =>
    refine ⟨?_, fun d hd => absurd hd (hmoved h List.length_set d)⟩
    cases effect with
    | none => rfl
    | some effect =>
      refine if_neg fun hn => ?_
      subst hn
      cases hk.symm.trans hc

/-- A deed is done by a connection that there is, under its own id. -/
theorem connection?_of_task {n : Nat} {id : SessionId} {effect : Effect}
    (h : Outcome b (some (.task n id effect)) b') :
    ∃ c, b.connection? n = some c ∧ c.id = id ∧ ∀ e, effect = .emit e → e.sessionId = id := by
  generalize hdeed : some (Deed.task n id effect) = deed at h
  cases h with
  | still h => rcases h with rfl | rfl <;> cases hdeed
  | opened => cases hdeed
  | @stepped n' c d effect' _ hc hd =>
    obtain ⟨effect, rfl, he⟩ := Option.map_eq_some_iff.mp hdeed.symm
    cases he
    exact ⟨c, hc, rfl, fun e he => hd.id_eq.2.2 e (congrArg some he)⟩

/-- Who is registered under an id is cancelled when another registers under it. -/
theorem isCancelled_of_register {n : Nat} {id : SessionId}
    (h : Outcome b (some (.task n id .register)) b') (hk : b.lookup id = some k)
    (hlt : k < b.connections.length) : b'.IsCancelled k := by
  generalize hdeed : some (Deed.task n id .register) = deed at h
  cases h with
  | still h => rcases h with rfl | rfl <;> cases hdeed
  | opened => cases hdeed
  | stepped _ _ _ hcancel =>
    obtain ⟨effect, rfl, he⟩ := Option.map_eq_some_iff.mp hdeed.symm
    cases he
    exact hcancel rfl k hlt hk

theorem isCancelled (h : Outcome b deed b') (hk : b.IsCancelled k) : b'.IsCancelled k := by
  obtain ⟨c, hc, hcancelled⟩ := hk
  obtain ⟨d, hd, -, -, hstill⟩ := h.connection? hc
  exact ⟨d, hd, hstill hcancelled⟩

end Outcome

end Switchboard

/-- A switchboard, and what was done up to here, the latest first. -/
structure Course where
  board : Switchboard
  deeds : List Deed := []

namespace Course

def ofCapacity (capacity : Nat) (h : 0 < capacity) : Course := { board := .ofCapacity capacity h }

def move (t : Course) (m : Switchboard.Move) : Course where
  board := t.board.move m
  deeds := (t.board.deed? m).toList ++ t.deeds

def run (t : Course) (moves : List Switchboard.Move) : Course := moves.foldl move t

theorem board_run (t : Course) (moves : List Switchboard.Move) :
    (t.run moves).board = moves.foldl Switchboard.move t.board := by
  induction moves generalizing t with
  | nil => rfl
  | cons m moves ih => exact ih (t.move m)

end Course

end WebSocketHost
