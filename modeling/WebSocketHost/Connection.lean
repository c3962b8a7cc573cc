import WebSocketHost.Duration
import WebSocketHost.Event
import WebSocketHost.Session
import WebSocketHost.Transport

/-!
One connection from its upgrade to its end, as a task that takes small steps.
A step uses nothing but the task's own state, the time, and whether anybody
still holds a handle to it; what it does to others is an effect. A task first
heeds a cancellation, then the messages queued for it, then its peer.

Every step leaves less work to do, so a task that is stepped comes to wait.
-/
namespace WebSocketHost

/-- How a connection ended, as others are told. -/
inductive Ending
  | disconnected
  | closed (code : CloseCode)
deriving DecidableEq

def Ending.event (id : SessionId) : Ending → Event
  | disconnected => .disconnected id
  | closed code => .closed id code

/-- Only a rule that the peer broke is told with its code. -/
def SessionEnd.ending : SessionEnd → Ending
  | violation code => .closed code
  | peerClosed _ | acknowledged => .disconnected

def Message.event (id : SessionId) : Message → Event
  | text s => .text id s
  | binary data => .binary id data

/-- Where a task goes on once a write is through. -/
inductive Resume
  | acting
  | waiting
  | draining
deriving DecidableEq

/-- What a task is at. Deadlines are points in time, in nanoseconds. -/
inductive Phase
  /-- Not registered yet. -/
  | entering
  /-- Registered; nobody is told yet. -/
  | greeting
  /-- Doing what the bytes received call for. -/
  | acting
  /-- Writing, for as long as it takes. -/
  | writing (bytes : Octets) (resume : Resume)
  /-- Waiting for a cancellation, a message or the peer. -/
  | waiting
  /-- Writing what is queued before the connection is closed from this side. -/
  | draining
  /-- Writing the close frame. -/
  | farewell (bytes : Octets) (deadline : Nat) (ending : Ending)
  /-- Shutting the transport down. -/
  | shutting (deadline : Nat) (ending : Ending)
  /-- No longer open; still registered, unless another has taken its place. -/
  | leaving (ending : Ending)
  /-- No longer registered; nobody is told yet. -/
  | parting (ending : Ending)
  | finished
deriving DecidableEq

def Resume.phase : Resume → Phase
  | acting => .acting
  | waiting => .waiting
  | draining => .draining

structure Connection where
  id : SessionId
  session : Session
  /-- How long the close frame may take, and then the shutting down. -/
  closeTimeout : Duration
  transport : Transport := {}
  /-- Messages accepted and not yet written, the oldest first. -/
  queue : List Message := []
  isCancelled : Bool := false
  phase : Phase := .entering

/-- What a step does to others. -/
inductive Effect
  /-- Takes the id's place in the registry; one that had it is cancelled. -/
  | register
  /-- Gives up the place in the registry, if it is still its own. -/
  | unregister
  | emit (e : Event)
deriving DecidableEq

namespace Connection

/-- A connection whose peer sent bytes behind its request. -/
def opened (id : SessionId) (maxFrame : Nat) (closeTimeout : Duration) (leftover : Octets)
    (isCancelled : Bool) : Connection :=
  { id, session := (Session.ofMaxFrame maxFrame).receive leftover, closeTimeout, isCancelled }

/-- Whether messages may still get through. -/
def isOpen (c : Connection) : Bool :=
  match c.phase with
  | .leaving _ | .parting _ | .finished => false
  | _ => true

def isFinished (c : Connection) : Bool := c.phase = .finished

/-- Messages that may be queued. -/
def maxQueue : Nat := 1024

/-- Queues a message, unless the queue is full or the connection is no longer open. -/
def enqueue? (c : Connection) (m : Message) : Option Connection :=
  if c.isOpen ∧ c.queue.length < maxQueue then some { c with queue := c.queue ++ [m] } else none

def cancel (c : Connection) : Connection := { c with isCancelled := true }

/-- What the peer is told when the connection is closed from this side. -/
def shutdownReason : String := "server stopping"

def shut (c : Connection) (now : Nat) (ending : Ending) : Connection :=
  { c with phase := .shutting (now + c.closeTimeout.nanos) ending }

def sayFarewell (c : Connection) (now : Nat) (bytes : Octets) (ending : Ending) : Connection :=
  { c with phase := .farewell bytes (now + c.closeTimeout.nanos) ending }

/-- Starts to write a message. After a close frame there is no form it could be written in. -/
def sendMessage (c : Connection) (m : Message) (resume : Resume) : Connection :=
  match c.session.encode? m with
  | some bytes => { c with phase := .writing bytes resume }
  | none => { c with phase := resume.phase }

def act (c : Connection) (now : Nat) : Option Effect × Connection :=
  match c.session.next with
  | (none, session) => (none, { c with session, phase := .waiting })
  | (some (.deliver m), session) => (some (.emit (m.event c.id)), { c with session })
  | (some (.reply bytes), session) => (none, { c with session, phase := .writing bytes .acting })
  | (some (.close reply reason), session) =>
    let c := { c with session }
    match reply with
    | some bytes => (none, c.sayFarewell now bytes reason.ending)
    | none => (none, c.shut now reason.ending)

def listen (c : Connection) (now : Nat) : Option Connection :=
  match c.transport.read with
  | none => none
  | some (.bytes chunk, transport) =>
    some { c with transport, session := c.session.receive chunk, phase := .acting }
  | some (.ended, transport) | some (.failed, transport) =>
    some ({ c with transport }.shut now .disconnected)

/-- `isHeld` tells whether there is a handle to the connection anywhere. -/
def wait (c : Connection) (now : Nat) (isHeld : Bool) : Option Connection :=
  if c.isCancelled then some { c with phase := .draining }
  else match c.queue with
    | m :: queue => some ({ c with queue }.sendMessage m .waiting)
    | [] => if isHeld then c.listen now else some { c with phase := .draining }

def drainQueue (c : Connection) (now : Nat) : Connection :=
  match c.queue with
  | m :: queue => { c with queue }.sendMessage m .draining
  | [] =>
    match c.session.initiateClose .away shutdownReason with
    | (some bytes, session) => { c with session }.sayFarewell now bytes .disconnected
    | (none, session) => { c with session }.shut now .disconnected

/-- The next step, unless the task has to wait for something or has finished. -/
def step (c : Connection) (now : Nat) (isHeld : Bool) : Option (Option Effect × Connection) :=
  match c.phase with
  | .entering => some (some .register, { c with phase := .greeting })
  | .greeting => some (some (.emit (.connected c.id)), { c with phase := .acting })
  | .acting => some (c.act now)
  | .writing bytes resume =>
    match c.transport.write bytes with
    | .done transport => some (none, { c with transport, phase := resume.phase })
    | .failed => some (none, c.shut now .disconnected)
    | .pending => none
  | .waiting => (c.wait now isHeld).map (none, ·)
  | .draining => some (none, c.drainQueue now)
  | .farewell bytes deadline ending =>
    match c.transport.write bytes with
    | .done transport => some (none, { c with transport }.shut now ending)
    | .failed => some (none, c.shut now ending)
    | .pending => if deadline ≤ now then some (none, c.shut now ending) else none
  | .shutting deadline ending =>
    let left := { c with phase := .leaving ending }
    match c.transport.shut with
    | .done transport => some (none, { left with transport })
    | .failed => some (none, left)
    | .pending => if deadline ≤ now then some (none, left) else none
  | .leaving ending => some (some .unregister, { c with phase := .parting ending })
  | .parting ending => some (some (.emit (ending.event c.id)), { c with phase := .finished })
  | .finished => none

/-- When a task that waits for its transport gives up on it. -/
def deadline? (c : Connection) : Option Nat :=
  match c.phase with
  | .farewell _ deadline _ | .shutting deadline _ => some deadline
  | _ => none

/-! ### Work -/

end Connection

/-- Steps still to come after a phase, if nothing arrives. -/
def Phase.rank : Phase → Nat
  | entering => 12
  | greeting => 11
  | acting => 9
  | writing _ .acting => 10
  | writing _ .waiting => 8
  | writing _ .draining => 6
  | waiting => 7
  | draining => 5
  | farewell _ _ _ => 4
  | shutting _ _ => 3
  | leaving _ => 2
  | parting _ => 1
  | finished => 0

namespace Connection

/-- Bounds the steps that a task can take before something new happens. A byte
read may become a byte to act on, so it counts more. -/
def work (c : Connection) : Nat :=
  8 * c.transport.unread + 4 * c.session.room + 4 * c.queue.length + c.phase.rank

theorem work_sendMessage_le (c : Connection) (m : Message) (resume : Resume) :
    (c.sendMessage m resume).work ≤
      8 * c.transport.unread + 4 * c.session.room + 4 * c.queue.length + resume.phase.rank + 1 := by
  unfold sendMessage
  split <;> cases resume <;> simp [work, Resume.phase, Phase.rank]

theorem work_act_lt {c : Connection} (now : Nat) (h : c.phase = .acting) :
    (c.act now).2.work < c.work := by
  unfold act
  split
  · next s hs =>
    have := Session.room_next_le hs
    simp only [work, h, Phase.rank]
    omega
  · next m s hs =>
    have := Session.room_next_lt hs
    simp only [work]
    omega
  · next b s hs =>
    have := Session.room_next_lt hs
    simp only [work, h, Phase.rank]
    omega
  · next r e s hs =>
    have := Session.room_next_lt hs
    cases r <;> (simp only [work, h, Phase.rank, sayFarewell, shut]; omega)

theorem work_wait_lt {c d : Connection} {now : Nat} {isHeld : Bool} (hp : c.phase = .waiting)
    (h : c.wait now isHeld = some d) : d.work < c.work := by
  unfold wait at h
  split at h
  · simp at h
    subst h
    simp only [work, hp, Phase.rank]
    omega
  split at h
  · next m queue hq =>
    simp at h
    subst h
    have := work_sendMessage_le { c with queue } m .waiting
    simp only [Resume.phase, Phase.rank] at this
    simp only [work, hp, Phase.rank, hq, List.length_cons] at this ⊢
    omega
  split at h
  · unfold listen at h
    split at h
    · simp at h
    · next chunk t hr =>
      obtain ⟨hu, hne⟩ := Transport.unread_read hr
      have : 0 < chunk.length := List.length_pos_iff.mpr hne
      simp at h
      subst h
      simp only [work, hp, Phase.rank, Session.room_receive]
      omega
    all_goals
      next t hr =>
      have ht : t = c.transport := by
        unfold Transport.read at hr
        split at hr
        · split at hr <;> simp at hr
        · split at hr <;> simp at hr
          exact hr.symm
      simp at h
      subst h ht
      simp only [shut, work, hp, Phase.rank]
      omega
  · simp at h
    subst h
    simp only [work, hp, Phase.rank]
    omega

theorem work_drainQueue_lt {c : Connection} (now : Nat) (hp : c.phase = .draining) :
    (c.drainQueue now).work < c.work := by
  unfold drainQueue
  split
  · next m queue hq =>
    have := work_sendMessage_le { c with queue } m .draining
    simp only [Resume.phase, Phase.rank] at this
    simp only [work, hp, Phase.rank, hq, List.length_cons] at this ⊢
    omega
  · have hr := Session.room_initiateClose c.session .away shutdownReason
    split <;>
      (next b s hs =>
        simp only [hs] at hr
        simp only [sayFarewell, shut, work, hp, Phase.rank, hr]
        omega)

/-- Each step leaves less to do. -/
theorem work_step_lt {c d : Connection} {now : Nat} {isHeld : Bool} {e : Option Effect}
    (h : c.step now isHeld = some (e, d)) : d.work < c.work := by
  unfold step at h
  split at h
  · next hp => simp at h; obtain ⟨_, rfl⟩ := h; simp [work, hp, Phase.rank]
  · next hp => simp at h; obtain ⟨_, rfl⟩ := h; simp [work, hp, Phase.rank]
  · next hp =>
    have := work_act_lt now hp
    simp at h
    simp_all
  · next bytes resume hp =>
    split at h
    · next t ht =>
      simp at h
      obtain ⟨_, rfl⟩ := h
      have := Transport.unread_write ht
      cases resume <;> simp [work, hp, Phase.rank, Resume.phase, this]
    · simp at h
      obtain ⟨_, rfl⟩ := h
      cases resume <;> simp [work, shut, hp, Phase.rank]
    · simp at h
  · next hp =>
    obtain ⟨d', hw, hd⟩ := Option.map_eq_some_iff.mp h
    cases hd
    exact work_wait_lt hp hw
  · next hp =>
    have := work_drainQueue_lt now hp
    simp at h
    simp_all
  · next hp =>
    split at h
    · next t ht =>
      simp at h
      obtain ⟨_, rfl⟩ := h
      have := Transport.unread_write ht
      simp [work, shut, hp, Phase.rank, this]
    · simp at h
      obtain ⟨_, rfl⟩ := h
      simp [work, shut, hp, Phase.rank]
    · split at h <;> simp at h
      obtain ⟨_, rfl⟩ := h
      simp [work, shut, hp, Phase.rank]
  · next hp =>
    simp only at h
    split at h
    · next t ht =>
      simp at h
      obtain ⟨_, rfl⟩ := h
      have := Transport.unread_shut ht
      simp [work, hp, Phase.rank, this]
    · simp at h
      obtain ⟨_, rfl⟩ := h
      simp [work, hp, Phase.rank]
    · split at h <;> simp at h
      obtain ⟨_, rfl⟩ := h
      simp [work, hp, Phase.rank]
  · next hp => simp at h; obtain ⟨_, rfl⟩ := h; simp [work, hp, Phase.rank]
  · next hp => simp at h; obtain ⟨_, rfl⟩ := h; simp [work, hp, Phase.rank]
  · simp at h

end Connection

end WebSocketHost
