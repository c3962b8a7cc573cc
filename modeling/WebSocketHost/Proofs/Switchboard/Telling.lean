import WebSocketHost.Proofs.Switchboard.Announcements
import WebSocketHost.Proofs.Switchboard.Journal

/-! The whole life of a connection in what it does to others: it registers, tells that it is
connected, tells its messages, unregisters and tells its end. Every way out of a task comes
through the same phases, so one case for each transition is enough. -/
namespace WebSocketHost

/-- All that a connection does to others in its life. -/
def life (id : SessionId) (messages : List Message) (ending : Ending) : List Effect :=
  .register :: .emit (.connected id) :: messages.map (fun m => .emit (m.event id)) ++
    [.unregister, .emit (ending.event id)]

/-- As much of a life as comes before a phase. -/
def Phase.life (id : SessionId) (messages : List Message) (ending : Ending) :
    Phase → List Effect
  | entering => []
  | greeting => [.register]
  | parting _ =>
    .register :: .emit (.connected id) :: messages.map (fun m => .emit (m.event id)) ++
      [.unregister]
  | finished => WebSocketHost.life id messages ending
  | acting | writing _ _ | waiting | draining | farewell _ _ _ | shutting _ _ | leaving _ =>
    .register :: .emit (.connected id) :: messages.map (fun m => .emit (m.event id))

/-- The ending that a phase will come to. -/
def Phase.ending? : Phase → Option Ending
  | farewell _ _ ending | shutting _ ending | leaving ending | parting ending => some ending
  | _ => none

theorem Phase.life_prefix (id : SessionId) (messages : List Message) (ending : Ending)
    (phase : Phase) : phase.life id messages ending <+: WebSocketHost.life id messages ending := by
  cases phase with
  | entering => exact List.nil_prefix
  | greeting => exact ⟨_, rfl⟩
  | parting => exact ⟨[.emit (ending.event id)], by simp [Phase.life, WebSocketHost.life]⟩
  | finished => exact List.prefix_rfl
  | _ => exact ⟨_, rfl⟩

theorem Phase.eq_greeting {phase : Phase} (h : phase.marks = [.registers]) :
    phase = .greeting := by
  cases phase with
  | greeting => rfl
  | _ => simp [Phase.marks] at h

theorem Message.event_ne_closed (m : Message) (id : SessionId) (code : CloseCode) :
    m.event id ≠ .closed id code := by
  cases m <;> nofun

theorem life_told (id : SessionId) (messages : List Message) (ending : Ending) :
    (life id messages ending).filterMap Effect.event? =
      .connected id :: messages.map (·.event id) ++ [ending.event id] := by
  simp [life, List.filterMap_cons, Effect.event?, List.filterMap_map, Function.comp_def]

/-- What a connection has done to others goes with its phase, and an end with a code is one
that its session called for. -/
structure Tells (c : Connection) (log : Log) (messages : List Message) (ending : Ending) :
    Prop where
  effects : log.effects = c.phase.life c.id messages ending
  comes : ∀ e, c.phase.ending? = some e → e = ending
  reason : ∀ code, ending = .closed code →
    ∃ reply, log.actions.getLast? = some (.close reply (.violation code))

namespace Tells

open Connection

variable {c d : Connection} {log : Log} {now : Nat} {isHeld : Bool} {effect : Option Effect}
  {messages : List Message} {ending : Ending}

/-- A change around the task. -/
theorem of_same (h : Tells c log messages ending) (hid : d.id = c.id) (hphase : d.phase = c.phase)
    {more : Log} (heffects : more.effects = []) (hactions : more.actions = []) :
    Tells d (log ++ more) messages ending where
  effects := by
    rw [Log.effects_append, heffects, List.append_nil, hid, hphase]
    exact h.effects
  comes := by
    rw [hphase]
    exact h.comes
  reason := by
    rw [Log.actions_append, hactions, List.append_nil]
    exact h.reason

/-- A step that calls for no action, and after which the same ending is to come. -/
theorem stay (h : Tells c log messages ending) (hc : c.phase ≠ .acting)
    (heffects : c.phase.life c.id messages ending ++ effect.toList =
      d.phase.life d.id messages ending)
    (hcomes : ∀ e, d.phase.ending? = some e → e = ending) :
    Tells d (log ++ c.account now effect d) messages ending where
  effects := by
    rw [Log.effects_append, effects_account, h.effects]
    exact heffects
  comes := hcomes
  reason := by
    rw [Log.actions_append, actions_account, action?_of_ne_acting hc, Option.toList_none,
      List.append_nil]
    exact h.reason

/-- A step behind which a connection ends without a code, if it does. -/
theorem plain (h : Tells c log messages ending) {messages' : List Message}
    (heffects : c.phase.life c.id messages ending ++ effect.toList =
      d.phase.life d.id messages' .disconnected)
    (hcomes : ∀ e, d.phase.ending? = some e → e = .disconnected) :
    Tells d (log ++ c.account now effect d) messages' .disconnected where
  effects := by
    rw [Log.effects_append, effects_account, h.effects]
    exact heffects
  comes := hcomes
  reason := nofun

/-- The session closes. -/
theorem close (h : Tells c log messages ending) (hc : c.phase = .acting) {session : Session}
    {reply : Option Octets} {reason : SessionEnd}
    (hn : c.session.next = (some (.close reply reason), session)) (hid : d.id = c.id)
    (hlife : ∀ e, d.phase.life c.id messages e = c.phase.life c.id messages e)
    (hcomes : d.phase.ending? = some reason.ending) :
    Tells d (log ++ c.account now none d) messages reason.ending where
  effects := by
    rw [Log.effects_append, effects_account, h.effects, hid, hlife, hc]
    exact List.append_nil _
  comes e he := Option.some.inj (he.symm.trans hcomes)
  reason code hcode := by
    rw [Log.actions_append, actions_account, action?_of_acting hc, hn, Option.toList_some,
      List.getLast?_concat]
    cases reason with
    | violation => cases hcode; exact ⟨reply, rfl⟩
    | peerClosed | acknowledged => cases hcode

theorem step (h : Tells c log messages ending) (ht : c.Transition now isHeld effect d) :
    ∃ messages ending, Tells d (log ++ c.account now effect d) messages ending := by
  have hcomes := h.comes
  cases ht with
  | enter hp => exact ⟨[], .disconnected, h.plain (by rw [hp]; rfl) nofun⟩
  | greet hp => exact ⟨[], .disconnected, h.plain (by rw [hp]; rfl) nofun⟩
  | @deliver hp session m hn =>
    refine ⟨messages ++ [m], .disconnected, h.plain ?_ ?_⟩
    · simp [hp, Phase.life]
    · simp [hp, Phase.ending?]
  | close hp hn => exact ⟨messages, _, h.close hp hn rfl (by rw [hp]; exact fun _ => rfl) rfl⟩
  | acknowledge hp hn =>
    exact ⟨messages, _, h.close hp hn rfl (by rw [hp]; exact fun _ => rfl) rfl⟩
  | rest hp | reply hp | hear hp | heed hp =>
    exact ⟨messages, .disconnected, h.plain (by rw [hp]; exact List.append_nil _) nofun⟩
  | writeFails hp | hangUp hp | goAway hp | fallSilent hp =>
    refine ⟨messages, .disconnected, h.plain (by rw [hp]; exact List.append_nil _) ?_⟩
    rintro e ⟨rfl⟩
    rfl
  | @write bytes resume hp =>
    refine ⟨messages, .disconnected, h.plain ?_ ?_⟩
    · rw [hp]
      cases resume <;> exact List.append_nil _
    · cases resume <;> exact nofun
  | @take hp _ m queue | @flush hp m queue =>
    rw [sendMessage_eq]
    refine ⟨messages, .disconnected, h.plain ?_ ?_⟩
    · rw [hp]
      unfold sendMessage
      split <;> exact List.append_nil _
    · unfold sendMessage
      split <;> exact nofun
  | farewell hp | forgo hp | shutDown hp | abandon hp =>
    rw [hp] at hcomes
    exact ⟨messages, ending,
      h.stay (by rw [hp]; nofun) (by rw [hp]; exact List.append_nil _) hcomes⟩
  | leave hp =>
    rw [hp] at hcomes
    exact ⟨messages, ending, h.stay (by rw [hp]; nofun) (by rw [hp]; rfl) hcomes⟩
  | part hp =>
    rw [hp] at hcomes
    cases hcomes _ rfl
    exact ⟨messages, ending, h.stay (by rw [hp]; nofun)
      (by simp [hp, Phase.life, WebSocketHost.life]) nofun⟩

theorem fate (h : Tells c log messages ending) {more : Log} (hfate : c.Fate now isHeld more d) :
    ∃ messages ending, Tells d (log ++ more) messages ending := by
  cases hfate with
  | step ht => exact h.step ht
  | cancel | transport | refuse =>
    refine ⟨messages, ending, h.of_same ?_ ?_ ?_ ?_⟩ <;> rfl
  | accept m hd =>
    obtain ⟨-, rfl⟩ := eq_of_enqueue? hd
    refine ⟨messages, ending, h.of_same ?_ ?_ ?_ ?_⟩ <;> rfl

theorem lasting : Journal.Lasting fun c log => ∃ messages ending, Tells c log messages ending where
  opened id maxFrame closeTimeout leftover isCancelled := ⟨[], .disconnected, rfl, nofun, nofun⟩
  stable c log h now isHeld more d hfate := by
    obtain ⟨messages, ending, h⟩ := h
    exact h.fate hfate

theorem closed (h : Tells c log messages ending) {code : CloseCode}
    (htold : .closed c.id code ∈ log.told) :
    ∃ reply, log.actions.getLast? = some (.close reply (.violation code)) := by
  refine h.reason code ?_
  obtain ⟨effect, heffect, hevent⟩ := List.mem_filterMap.mp htold
  rw [h.effects] at heffect
  have hmem : .closed c.id code ∈ (life c.id messages ending).filterMap Effect.event? :=
    List.mem_filterMap.mpr ⟨effect, (c.phase.life_prefix ..).subset heffect, hevent⟩
  rw [life_told] at hmem
  cases ending with
  | closed code' =>
    have hcode : code = code' := by simpa [Ending.event, Message.event_ne_closed] using hmem
    rw [hcode]
  | disconnected => simp [Ending.event, Message.event_ne_closed] at hmem

/-- Who has unregistered has told all but its end, or all. -/
theorem unregistered (h : Tells c log messages ending) (hmem : .unregister ∈ log.effects) :
    c.isOpen = false ∧ .unregisters ∈ c.phase.marks := by
  rw [h.effects] at hmem
  unfold isOpen
  cases hp : c.phase with
  | parting | finished => simp [Phase.marks]
  | _ => simp [hp, Phase.life] at hmem

end Tells

namespace Connection.Transition

variable {c d : Connection} {now : Nat} {isHeld : Bool} {effect : Option Effect}

theorem phase_ne_finished (h : c.Transition now isHeld effect d) : c.phase ≠ .finished := by
  cases h with
  | _ hp =>
    rw [hp]
    nofun

/-- A last event comes from a task that has unregistered. -/
theorem parting {e : Event} (h : c.Transition now isHeld (some (.emit e)) d)
    (he : e.isTerminal = true) : ∃ ending, c.phase = .parting ending := by
  cases h with
  | greet => cases he
  | @deliver _ _ m => cases m <;> cases he
  | part hp => exact ⟨_, hp⟩

end Connection.Transition

namespace Journal

open Connection (Fate)

/-- Behind its end nothing is written of a connection but that messages are refused. -/
theorem stable_finished (base : Log) : Stable fun c log => c.phase = .finished ∧
    ∃ refused : List Message, log = base ++ refused.map (.offer · false) := by
  rintro c log ⟨hp, refused, rfl⟩ now isHeld more d hfate
  cases hfate with
  | step ht =>
    exact absurd hp ht.phase_ne_finished
  | cancel | transport => exact ⟨hp, refused, List.append_nil _⟩
  | accept m hd =>
    have hopen := (Connection.eq_of_enqueue? hd).1
    simp [Connection.isOpen, hp] at hopen
  | refuse m => exact ⟨hp, refused ++ [m], by simp⟩

section Run

variable (capacity : Nat) (hcapacity : 0 < capacity) (moves : List Switchboard.Move)

/-- Who has unregistered is not open and has no entry. -/
theorem gone_of_unregister {n : Nat} {c : Connection}
    (hc : ((ofCapacity capacity hcapacity).run moves).board.connection? n = some c)
    (hmem : .unregister ∈ (((ofCapacity capacity hcapacity).run moves).of n).effects) :
    ((ofCapacity capacity hcapacity).run moves).board.isOpen n = false ∧ ∀ id,
      (id, n) ∉ ((ofCapacity capacity hcapacity).run moves).board.hub.registry.entries := by
  obtain ⟨messages, ending, htells⟩ := Tells.lasting.run capacity hcapacity moves hc
  obtain ⟨hopen, hmark⟩ := htells.unregistered hmem
  refine ⟨?_, fun id hentry => ?_⟩
  · rw [Switchboard.isOpen, hc]
    exact hopen
  · have hsound := (Course.Sound.ofCapacity capacity hcapacity).run moves
    rw [← board_course] at hc hentry
    obtain ⟨hexit, later, before, hdeeds, -⟩ := hsound.of_mem_entries hentry
    obtain ⟨c', hc', rfl⟩ := hsound.owner n id .register (by rw [hdeeds]; simp)
    cases hc.symm.trans hc'
    exact hexit ((hsound.exited_iff hc).mp hmark)

/-- Who registers is registered and open. -/
theorem registered_of_register (b : Switchboard) {m : Switchboard.Move} {n : Nat}
    (hmem : (n, .effect .register) ∈ b.entries m) {c : Connection}
    (hc : b.connection? n = some c) :
    (b.move m).lookup c.id = some n ∧ (b.move m).isOpen n = true := by
  obtain ⟨rfl, c', d, hc', hstep⟩ := Switchboard.eq_step_of_effect hmem
  cases hc.symm.trans hc'
  have hdeed : b.deed? (.step n) = some (.task n c.id .register) := by
    simp [Switchboard.deed?, Switchboard.effect?, hc, hstep]
  have houtcome := b.outcome_move (.step n)
  rw [hdeed] at houtcome
  constructor
  · show (b.move (.step n)).hub.registry.lookup c.id = some n
    rw [houtcome.hub]
    simp [Hub.after]
  · cases Connection.transition_of_step hstep with
    | enter hp =>
      obtain ⟨d, hd, -, hmarks, -⟩ := houtcome.connection? hc
      have hgreeting : d.phase = .greeting := by
        refine Phase.eq_greeting (hmarks.trans ?_)
        rw [hp, Option.bind_some, Deed.mark?_self]
        rfl
      rw [Switchboard.isOpen, hd]
      show d.isOpen = true
      rw [Connection.isOpen, hgreeting]

/-- However a connection comes to its end, what it does to others is: it registers, tells
that it is connected, tells messages, unregisters, and tells one end; all under its own id.
As it registers it is open; as it tells its end it is not, and it has no entry. Its end comes
with a code only if the last thing that its session called for was to close with this code
for a violation. After its end it does nothing. -/
theorem run_lives (n : Nat) (c : Connection)
    (hc : ((ofCapacity capacity hcapacity).run moves).board.connection? n = some c) :
    let j := (ofCapacity capacity hcapacity).run moves
    (∃ messages ending, (j.of n).effects <+: life c.id messages ending ∧
      (c.isFinished = true → (j.of n).effects = life c.id messages ending ∧
        (j.of n).told =
          .connected c.id :: messages.map (·.event c.id) ++ [ending.event c.id])) ∧
    (∀ m, (n, .effect .register) ∈ j.board.entries m →
      (j.move m).board.lookup c.id = some n ∧ (j.move m).board.isOpen n = true) ∧
    (∀ m e, (n, .effect (.emit e)) ∈ j.board.entries m → e.isTerminal = true →
      .unregister ∈ (j.of n).effects) ∧
    (.unregister ∈ (j.of n).effects →
      j.board.isOpen n = false ∧ ∀ id, (id, n) ∉ j.board.hub.registry.entries) ∧
    (∀ code, .closed c.id code ∈ (j.of n).told →
      ∃ reply, (j.of n).actions.getLast? = some (.close reply (.violation code))) ∧
    (c.isFinished = true → ∀ more, ∃ refused : List Message,
      (j.run more).of n = j.of n ++ refused.map (.offer · false)) := by
  intro j
  obtain ⟨messages, ending, htells⟩ := Tells.lasting.run capacity hcapacity moves hc
  refine ⟨⟨messages, ending, ?_, fun hfin => ?_⟩, fun m hmem => registered_of_register _ hmem hc,
    fun m e hmem he => ?_, gone_of_unregister capacity hcapacity moves hc,
    fun code => htells.closed, fun hfin more => ?_⟩
  · rw [htells.effects]
    exact c.phase.life_prefix ..
  · have heffects : (j.of n).effects = life c.id messages ending := by
      rw [htells.effects, show c.phase = .finished from of_decide_eq_true hfin]
      rfl
    exact ⟨heffects, by rw [Log.told, heffects, life_told]⟩
  · obtain ⟨-, c', d, hc', hstep⟩ := Switchboard.eq_step_of_effect hmem
    cases hc.symm.trans hc'
    obtain ⟨ending', hp⟩ := (Connection.transition_of_step hstep).parting he
    rw [htells.effects, hp]
    simp [Phase.life]
  · obtain ⟨-, -, -, hrefused⟩ := (stable_finished (j.of n)).run hc
      ⟨of_decide_eq_true hfin, [], (List.append_nil _).symm⟩ more
    exact hrefused

/-- Behind a message there is an opcode that means nothing. -/
theorem run_lives_unknown_opcode :
    let moves := .openConnection "a:1" 125 (.ofSeconds 1) [0x81, 2, 0x68, 0x69, 0x83, 0] false ::
      List.replicate 8 (.step 0)
    let j := (ofCapacity 1 Nat.one_pos).run moves
    (j.of 0).told = [.connected "a:1", .text "a:1" "hi", .closed "a:1" .protocol] ∧
      (∃ reply, (j.of 0).actions.getLast? = some (.close reply (.violation .protocol))) ∧
      (j.board.isOpen 0 = false ∧ ∀ id, (id, 0) ∉ j.board.hub.registry.entries) ∧
      ∀ more, ∃ refused : List Message,
        (j.run more).of 0 = j.of 0 ++ refused.map (.offer · false) := by
  intro moves j
  have hconnection : (j.board.connection? 0).any (fun c => c.isFinished ∧ c.id = "a:1") := by
    decide +kernel
  have htold : (j.of 0).told = [.connected "a:1", .text "a:1" "hi", .closed "a:1" .protocol] := by
    decide +kernel
  have hgone : .unregister ∈ (j.of 0).effects := by decide +kernel
  obtain ⟨c, hc, hgood⟩ := (Option.any_eq_true _ _).mp hconnection
  obtain ⟨hfin, hid⟩ := of_decide_eq_true hgood
  obtain ⟨-, -, -, hleft, hclosed, hsilent⟩ := run_lives 1 Nat.one_pos moves 0 c hc
  refine ⟨htold, hclosed .protocol ?_, hleft hgone, hsilent hfin⟩
  rw [hid]
  show _ ∈ (j.of 0).told
  rw [htold]
  simp

end Run

end Journal

end WebSocketHost
