import WebSocketHost.Connection

/-! All that a connection's task can do in one step. Later proofs split on `Transition`
and do not open `step`. -/
namespace WebSocketHost

namespace Transport

variable {t u : Transport} {b : Octets}

theorem eq_of_write_done (h : t.write b = .done u) : u = { t with written := b :: t.written } := by
  unfold write at h
  split at h <;> cases h
  rfl

theorem eq_of_shut_done (h : t.shut = .done u) : u = { t with isShut := true } := by
  unfold shut at h
  split at h <;> cases h
  rfl

theorem flatten_incoming_arrive (t : Transport) (chunk : Octets) :
    (t.arrive chunk).incoming.flatten = t.incoming.flatten ++ chunk := by
  unfold arrive
  split
  · next h => rw [h, List.append_nil]
  · simp

/-- A reading takes bytes from the front and changes nothing else. -/
theorem eq_of_read_bytes {chunk : Octets} (h : t.read = some (.bytes chunk, u)) :
    t.incoming.flatten = chunk ++ u.incoming.flatten ∧ u.written = t.written ∧
      u.horizon = t.horizon ∧ u.outlet = t.outlet := by
  unfold read at h
  split at h
  · next front rest hincoming =>
    have hfront := List.take_append_drop maxRead front
    split at h <;> cases h
    · next hdrop =>
      rw [hdrop, List.append_nil] at hfront
      refine ⟨?_, rfl, rfl, rfl⟩
      dsimp only
      rw [hincoming, List.flatten_cons, hfront]
    · refine ⟨?_, rfl, rfl, rfl⟩
      dsimp only
      rw [hincoming, List.flatten_cons, List.flatten_cons, ← List.append_assoc, hfront]
  · split at h <;> cases h

/-- The end of a stream comes behind all its bytes. -/
theorem eq_of_read_end (h : t.read = some (.ended, u) ∨ t.read = some (.failed, u)) :
    u = t ∧ t.incoming = [] ∧ t.horizon ≠ .more := by
  unfold read at h
  split at h
  · split at h <;> rcases h with h | h <;> cases h
  · next hincoming =>
    split at h
    · rcases h with h | h <;> cases h
    · next hhorizon =>
      rcases h with h | h <;> cases h
      exact ⟨rfl, hincoming, by simp [hhorizon]⟩
    · next hhorizon =>
      rcases h with h | h <;> cases h
      exact ⟨rfl, hincoming, by simp [hhorizon]⟩

theorem read_eq_none_iff : t.read = none ↔ t.incoming = [] ∧ t.horizon = .more := by
  unfold read
  split
  · next hincoming => split <;> simp [hincoming]
  · next hincoming => split <;> simp [*]

end Transport

namespace Connection

/-- To start writing a message is to be at something else. -/
theorem sendMessage_eq (c : Connection) (m : Message) (resume : Resume) :
    c.sendMessage m resume = { c with phase := (c.sendMessage m resume).phase } := by
  unfold sendMessage
  split <;> rfl

/-- One step at a time `now`: what it does to others and what becomes of the task. -/
inductive Transition (c : Connection) (now : Nat) (isHeld : Bool) :
    Option Effect → Connection → Prop
  | enter (hp : c.phase = .entering) :
    Transition c now isHeld (some .register) { c with phase := .greeting }
  | greet (hp : c.phase = .greeting) :
    Transition c now isHeld (some (.emit (.connected c.id))) { c with phase := .acting }
  /-- Nothing more to do for the bytes read so far. -/
  | rest (hp : c.phase = .acting) {session : Session} (hn : c.session.next = (none, session)) :
    Transition c now isHeld none { c with session, phase := .waiting }
  | deliver (hp : c.phase = .acting) {session : Session} {m : Message}
    (hn : c.session.next = (some (.deliver m), session)) :
    Transition c now isHeld (some (.emit (m.event c.id))) { c with session }
  | reply (hp : c.phase = .acting) {session : Session} {bytes : Octets}
    (hn : c.session.next = (some (.reply bytes), session)) :
    Transition c now isHeld none { c with session, phase := .writing bytes .acting }
  | close (hp : c.phase = .acting) {session : Session} {bytes : Octets} {reason : SessionEnd}
    (hn : c.session.next = (some (.close (some bytes) reason), session)) :
    Transition c now isHeld none ({ c with session }.sayFarewell now bytes reason.ending)
  /-- The peer answered a close frame that was out before. -/
  | acknowledge (hp : c.phase = .acting) {session : Session} {reason : SessionEnd}
    (hn : c.session.next = (some (.close none reason), session)) :
    Transition c now isHeld none ({ c with session }.shut now reason.ending)
  | write {bytes : Octets} {resume : Resume} (hp : c.phase = .writing bytes resume)
    {transport : Transport} (hw : c.transport.write bytes = .done transport) :
    Transition c now isHeld none { c with transport, phase := resume.phase }
  | writeFails {bytes : Octets} {resume : Resume} (hp : c.phase = .writing bytes resume)
    (hw : c.transport.write bytes = .failed) :
    Transition c now isHeld none (c.shut now .disconnected)
  /-- It was cancelled, or nobody can send to it any more. -/
  | heed (hp : c.phase = .waiting) (hwhy : c.isCancelled = true ∨ isHeld = false) :
    Transition c now isHeld none { c with phase := .draining }
  | take (hp : c.phase = .waiting) (hc : c.isCancelled = false) {m : Message}
    {queue : List Message} (hq : c.queue = m :: queue) :
    Transition c now isHeld none ({ c with queue }.sendMessage m .waiting)
  | hear (hp : c.phase = .waiting) (hc : c.isCancelled = false) (hq : c.queue = [])
    {chunk : Octets} {transport : Transport}
    (hr : c.transport.read = some (.bytes chunk, transport)) :
    Transition c now isHeld none
      { c with transport, session := c.session.receive chunk, phase := .acting }
  | hangUp (hp : c.phase = .waiting) (hc : c.isCancelled = false) (hq : c.queue = [])
    {transport : Transport}
    (hr : c.transport.read = some (.ended, transport) ∨
      c.transport.read = some (.failed, transport)) :
    Transition c now isHeld none ({ c with transport }.shut now .disconnected)
  | flush (hp : c.phase = .draining) {m : Message} {queue : List Message}
    (hq : c.queue = m :: queue) :
    Transition c now isHeld none ({ c with queue }.sendMessage m .draining)
  | goAway (hp : c.phase = .draining) (hq : c.queue = []) {session : Session} {bytes : Octets}
    (hs : c.session.initiateClose .away shutdownReason = (some bytes, session)) :
    Transition c now isHeld none ({ c with session }.sayFarewell now bytes .disconnected)
  /-- A close frame was out before. -/
  | fallSilent (hp : c.phase = .draining) (hq : c.queue = []) {session : Session}
    (hs : c.session.initiateClose .away shutdownReason = (none, session)) :
    Transition c now isHeld none ({ c with session }.shut now .disconnected)
  | farewell {bytes : Octets} {deadline : Nat} {ending : Ending}
    (hp : c.phase = .farewell bytes deadline ending) {transport : Transport}
    (hw : c.transport.write bytes = .done transport) :
    Transition c now isHeld none ({ c with transport }.shut now ending)
  /-- The close frame cannot be written, or not in time. -/
  | forgo {bytes : Octets} {deadline : Nat} {ending : Ending}
    (hp : c.phase = .farewell bytes deadline ending)
    (hw : c.transport.write bytes = .failed ∨
      c.transport.write bytes = .pending ∧ deadline ≤ now) :
    Transition c now isHeld none (c.shut now ending)
  | shutDown {deadline : Nat} {ending : Ending} (hp : c.phase = .shutting deadline ending)
    {transport : Transport} (hw : c.transport.shut = .done transport) :
    Transition c now isHeld none { c with transport, phase := .leaving ending }
  /-- The transport cannot be shut down, or not in time. -/
  | abandon {deadline : Nat} {ending : Ending} (hp : c.phase = .shutting deadline ending)
    (hw : c.transport.shut = .failed ∨ c.transport.shut = .pending ∧ deadline ≤ now) :
    Transition c now isHeld none { c with phase := .leaving ending }
  | leave {ending : Ending} (hp : c.phase = .leaving ending) :
    Transition c now isHeld (some .unregister) { c with phase := .parting ending }
  | part {ending : Ending} (hp : c.phase = .parting ending) :
    Transition c now isHeld (some (.emit (ending.event c.id))) { c with phase := .finished }

section Step

variable {c d : Connection} {now : Nat} {isHeld : Bool} {effect : Option Effect}

theorem transition_act (hp : c.phase = .acting) :
    Transition c now isHeld (c.act now).1 (c.act now).2 := by
  unfold act
  split
  · next hn => exact .rest hp hn
  · next hn => exact .deliver hp hn
  · next hn => exact .reply hp hn
  · next hn =>
    split
    · exact .close hp hn
    · exact .acknowledge hp hn

theorem transition_wait (hp : c.phase = .waiting) (h : c.wait now isHeld = some d) :
    Transition c now isHeld none d := by
  unfold wait at h
  split at h
  · next hc =>
    cases h
    exact .heed hp (.inl hc)
  next hc =>
  have hc : c.isCancelled = false := Bool.eq_false_iff.mpr hc
  split at h
  · next hq =>
    cases h
    exact .take hp hc hq
  next hq =>
  split at h
  · unfold listen at h
    split at h
    · cases h
    · next hr =>
      cases h
      exact .hear hp hc hq hr
    · next hr =>
      cases h
      exact .hangUp hp hc hq (.inl hr)
    · next hr =>
      cases h
      exact .hangUp hp hc hq (.inr hr)
  · next hheld =>
    cases h
    exact .heed hp (.inr (Bool.eq_false_iff.mpr hheld))

theorem transition_drainQueue (hp : c.phase = .draining) :
    Transition c now isHeld none (c.drainQueue now) := by
  unfold drainQueue
  split
  · next hq => exact .flush hp hq
  · next hq =>
    split
    · next hs => exact .goAway hp hq hs
    · next hs => exact .fallSilent hp hq hs

/-- A step is one of the transitions. -/
theorem transition_of_step (h : c.step now isHeld = some (effect, d)) :
    Transition c now isHeld effect d := by
  unfold step at h
  split at h
  · next hp =>
    cases h
    exact .enter hp
  · next hp =>
    cases h
    exact .greet hp
  · next hp =>
    have hact : Transition c now isHeld (c.act now).1 (c.act now).2 := transition_act hp
    rwa [Option.some.inj h] at hact
  · next hp =>
    split at h
    · next hw =>
      cases h
      exact .write hp hw
    · next hw =>
      cases h
      exact .writeFails hp hw
    · cases h
  · next hp =>
    obtain ⟨d', hwait, hd⟩ := Option.map_eq_some_iff.mp h
    cases hd
    exact transition_wait hp hwait
  · next hp =>
    cases h
    exact transition_drainQueue hp
  · next hp =>
    split at h
    · next hw =>
      cases h
      exact .farewell hp hw
    · next hw =>
      cases h
      exact .forgo hp (.inl hw)
    · next hw =>
      split at h
      · next hlate =>
        cases h
        exact .forgo hp (.inr ⟨hw, hlate⟩)
      · cases h
  · next hp =>
    dsimp only at h
    split at h
    · next hw =>
      cases h
      exact .shutDown hp hw
    · next hw =>
      cases h
      exact .abandon hp (.inl hw)
    · next hw =>
      split at h
      · next hlate =>
        cases h
        exact .abandon hp (.inr ⟨hw, hlate⟩)
      · cases h
  · next hp =>
    cases h
    exact .leave hp
  · next hp =>
    cases h
    exact .part hp
  · cases h

end Step

end Connection

end WebSocketHost
