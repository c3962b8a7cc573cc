import WebSocketHost.Proofs.Switchboard.Journal

/-! A connection's task reads the time only to see whether its deadline has passed. Under
another clock it takes the same steps, as long as the deadlines pass under both. -/
namespace WebSocketHost

/-- What a task is at, with its deadline at another time. -/
def Phase.retimed (f : Nat → Nat) : Phase → Phase
  | farewell bytes deadline ending => farewell bytes (f deadline) ending
  | shutting deadline ending => shutting (f deadline) ending
  | phase => phase

namespace Connection

def retimed (f : Nat → Nat) (c : Connection) : Connection := { c with phase := c.phase.retimed f }

variable (c : Connection) {f g : Nat → Nat} {now now' : Nat} (isHeld : Bool)

@[simp] theorem retimed_id (f : Nat → Nat) : (c.retimed f).id = c.id := rfl

@[simp] theorem isOpen_retimed (f : Nat → Nat) : (c.retimed f).isOpen = c.isOpen := by
  unfold isOpen retimed
  cases c.phase <;> rfl

theorem sendMessage_retimed (f g : Nat → Nat) (m : Message) (resume : Resume) :
    (c.retimed f).sendMessage m resume = (c.sendMessage m resume).retimed g := by
  unfold sendMessage
  rw [show (c.retimed f).session = c.session from rfl]
  cases c.session.encode? m with
  | some => rfl
  | none => cases resume <;> rfl

theorem enqueue?_retimed (f : Nat → Nat) (m : Message) :
    (c.retimed f).enqueue? m = (c.enqueue? m).map (·.retimed f) := by
  unfold enqueue?
  rw [isOpen_retimed, show (c.retimed f).queue = c.queue from rfl]
  by_cases hroom : c.isOpen = true ∧ c.queue.length < maxQueue
  · rw [if_pos hroom, if_pos hroom]
    rfl
  · rw [if_neg hroom, if_neg hroom]
    rfl

section Step

variable (hset : g (now + c.closeTimeout.nanos) = now' + c.closeTimeout.nanos)

include hset

theorem shut_retimed (f : Nat → Nat) (ending : Ending) :
    (c.retimed f).shut now' ending = (c.shut now ending).retimed g := by
  simp [shut, retimed, Phase.retimed, hset]

theorem sayFarewell_retimed (f : Nat → Nat) (bytes : Octets) (ending : Ending) :
    (c.retimed f).sayFarewell now' bytes ending = (c.sayFarewell now bytes ending).retimed g := by
  simp [sayFarewell, retimed, Phase.retimed, hset]

theorem act_retimed (f : Nat → Nat) (hp : c.phase = .acting) :
    (c.retimed f).act now' = ((c.act now).1, (c.act now).2.retimed g) := by
  have hsame (session : Session) :
      { c.retimed f with session } = { c with session }.retimed g := by
    simp [retimed, hp, Phase.retimed]
  unfold act
  rw [show (c.retimed f).session = c.session from rfl]
  rcases c.session.next with ⟨_ | action, session⟩
  · rfl
  cases action with
  | deliver => exact congrArg (Prod.mk _) (hsame session)
  | reply => rfl
  | close reply reason =>
    cases reply with
    | some bytes => exact congrArg _ (sayFarewell_retimed { c with session } hset f _ _)
    | none => exact congrArg _ (shut_retimed { c with session } hset f _)

theorem listen_retimed (f : Nat → Nat) :
    (c.retimed f).listen now' = (c.listen now).map (·.retimed g) := by
  unfold listen
  rw [show (c.retimed f).transport = c.transport from rfl]
  rcases c.transport.read with _ | ⟨reading, transport⟩
  · rfl
  cases reading with
  | bytes => rfl
  | ended | failed => exact congrArg some (shut_retimed { c with transport } hset f _)

theorem wait_retimed (f : Nat → Nat) :
    (c.retimed f).wait now' isHeld = (c.wait now isHeld).map (·.retimed g) := by
  obtain ⟨id, session, closeTimeout, transport, queue, isCancelled, phase⟩ := c
  cases isCancelled with
  | true => rfl
  | false =>
    cases queue with
    | cons m queue =>
      exact congrArg some
        (sendMessage_retimed ⟨id, session, closeTimeout, transport, queue, false, phase⟩ f g m _)
    | nil =>
      cases isHeld with
      | true => exact listen_retimed _ hset f
      | false => rfl

theorem drainQueue_retimed (f : Nat → Nat) :
    (c.retimed f).drainQueue now' = (c.drainQueue now).retimed g := by
  obtain ⟨id, session, closeTimeout, transport, queue, isCancelled, phase⟩ := c
  cases queue with
  | cons m queue =>
    exact sendMessage_retimed ⟨id, session, closeTimeout, transport, queue, isCancelled, phase⟩
      f g m _
  | nil =>
    unfold drainQueue retimed
    dsimp only
    rcases session.initiateClose .away shutdownReason with ⟨_ | bytes, session⟩
    · exact shut_retimed ⟨id, session, closeTimeout, transport, [], isCancelled, phase⟩ hset f _
    · exact sayFarewell_retimed ⟨id, session, closeTimeout, transport, [], isCancelled, phase⟩
        hset f bytes _

/-- `f` tells where the deadline is that a task has, `g` where the one is that it sets. -/
theorem step_retimed (hdue : ∀ d, c.deadline? = some d → (f d ≤ now' ↔ d ≤ now)) :
    (c.retimed f).step now' isHeld =
      (c.step now isHeld).map fun p => (p.1, p.2.retimed g) := by
  have hact := act_retimed c hset f
  have hwait := wait_retimed c isHeld hset f
  have hdrain := drainQueue_retimed c hset f
  have hshut := shut_retimed c hset f
  obtain ⟨id, session, closeTimeout, transport, queue, isCancelled, phase⟩ := c
  cases phase with
  | entering | greeting | leaving | parting | finished => rfl
  | acting => exact congrArg some (hact rfl)
  | draining => exact congrArg some (congrArg (Prod.mk none) hdrain)
  | waiting =>
    have hstep := congrArg (Option.map (Prod.mk (none : Option Effect))) hwait
    rw [Option.map_map] at hstep
    refine hstep.trans ?_
    unfold step
    rw [Option.map_map]
    rfl
  | writing bytes resume =>
    simp only [step, retimed, Phase.retimed]
    cases transport.write bytes with
    | done transport => cases resume <;> rfl
    | failed => exact congrArg some (congrArg (Prod.mk none) (hshut _))
    | pending => rfl
  | farewell bytes deadline ending =>
    simp only [step, retimed, Phase.retimed, hdue deadline rfl]
    cases transport.write bytes with
    | done transport =>
      have hshut := shut_retimed ⟨id, session, closeTimeout, transport, queue, isCancelled,
        .farewell bytes deadline ending⟩ hset f ending
      exact congrArg some (congrArg (Prod.mk none) hshut)
    | failed => exact congrArg some (congrArg (Prod.mk none) (hshut _))
    | pending =>
      by_cases hlate : deadline ≤ now
      · simp only [hlate, if_true]
        exact congrArg some (congrArg (Prod.mk none) (hshut _))
      · simp only [hlate, if_false]
        rfl
  | shutting deadline ending =>
    simp only [step, retimed, Phase.retimed, hdue deadline rfl]
    cases transport.shut with
    | done transport => rfl
    | failed => rfl
    | pending => by_cases hlate : deadline ≤ now <;> simp [hlate]

end Step

theorem write?_retimed (hdue : ∀ d, c.deadline? = some d → (f d ≤ now' ↔ d ≤ now)) :
    (c.retimed f).write? now' = c.write? now := by
  obtain ⟨id, session, closeTimeout, transport, queue, isCancelled, phase⟩ := c
  cases phase with
  | farewell bytes deadline ending =>
    simp only [write?, retimed, Phase.retimed, hdue deadline rfl]
  | _ => rfl

theorem deadline?_sendMessage (m : Message) (resume : Resume) :
    (c.sendMessage m resume).deadline? = none := by
  unfold sendMessage
  cases c.session.encode? m with
  | some => rfl
  | none => cases resume <;> rfl

section Transition

variable {c : Connection} {d : Connection} {isHeld : Bool} {effect : Option Effect}

theorem Transition.closeTimeout_eq (h : c.Transition now isHeld effect d) :
    d.closeTimeout = c.closeTimeout := by
  cases h with
  | take | flush => rw [sendMessage_eq]
  | _ => rfl

/-- A deadline that there is after a step was set by it. -/
theorem Transition.deadline (h : c.Transition now isHeld effect d) :
    ∀ deadline, d.deadline? = some deadline → deadline = now + c.closeTimeout.nanos := by
  have hnone : d.deadline? = none ∨ d.deadline? = some (now + c.closeTimeout.nanos) := by
    cases h with
    | deliver hp => exact .inl (by simp [deadline?, hp])
    | take | flush => exact .inl (deadline?_sendMessage ..)
    | @write bytes resume => exact .inl (by cases resume <;> rfl)
    | close | acknowledge | writeFails | hangUp | goAway | fallSilent | farewell | forgo =>
      exact .inr rfl
    | _ => exact .inl rfl
  intro deadline hd
  rcases hnone with hnone | hsome
  · cases hnone.symm.trans hd
  · exact Option.some.inj (hd.symm.trans hsome)

end Transition

end Connection

end WebSocketHost
