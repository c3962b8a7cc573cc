import WebSocketHost.Connection
import WebSocketHost.Hub

/-!
All connections together, with the hub they share and the time. `stepAt` lets
one connection take one step, in whatever order; `settle` runs those that have
something to do in the order in which it came to them, until all wait.
-/
namespace WebSocketHost

structure Switchboard where
  hub : Hub
  /-- In the order they were opened; the place of a connection is its number. -/
  connections : List Connection := []
  /-- Connections to which there is a handle outside of the registry. -/
  outside : List Nat := []
  /-- No connection stays open from now on. -/
  isStopping : Bool := false
  /-- In nanoseconds. -/
  now : Nat := 0
  /-- Connections that may have something to do. -/
  ready : List Nat := []

namespace Switchboard

def ofCapacity (capacity : Nat) (h : 0 < capacity) : Switchboard where
  hub := .ofCapacity capacity h

def connection? (b : Switchboard) (n : Nat) : Option Connection := b.connections[n]?

/-- The connection that is registered under an id. -/
def lookup (b : Switchboard) (id : SessionId) : Option Nat := b.hub.registry.lookup id

def isOpen (b : Switchboard) (n : Nat) : Bool := (b.connection? n).any Connection.isOpen

def isActive (b : Switchboard) (id : SessionId) : Bool := b.hub.registry.isActive b.isOpen id

/-- Whether there is a handle to a connection. -/
def isHeld (b : Switchboard) (n : Nat) : Bool :=
  b.hub.registry.entries.any (·.2 = n) || b.outside.contains n

def wake (b : Switchboard) (n : Nat) : Switchboard :=
  if n ∈ b.ready then b else { b with ready := b.ready ++ [n] }

/-- Changes a connection from outside, which may give it something to do. -/
def touch (b : Switchboard) (n : Nat) (f : Connection → Connection) : Switchboard :=
  { b with connections := b.connections.modify n f }.wake n

def cancel (b : Switchboard) (n : Nat) : Switchboard := b.touch n Connection.cancel

/-! ### Steps -/

/-- What an effect of a connection's step does. -/
def apply (b : Switchboard) (n : Nat) (id : SessionId) : Effect → Switchboard
  | .emit e => { b with hub := b.hub.emit e }
  | .unregister =>
    { b with hub := { b.hub with registry := (b.hub.registry.unregisterIf id (· = n)).2 } }
  | .register =>
    let (replaced, registry) := b.hub.registry.register id n
    let b := { b with hub := { b.hub with registry } }
    match replaced with
    | some stale => b.cancel stale
    | none => b

/-- One step of one connection. -/
def stepAt (b : Switchboard) (n : Nat) : Option Switchboard :=
  match b.connection? n with
  | none => none
  | some c =>
    match c.step b.now (b.isHeld n) with
    | none => none
    | some (effect, d) =>
      let b := { b with connections := b.connections.set n d }
      match effect with
      | some e => some (b.apply n c.id e)
      | none => some b

def total {α : Type} (f : α → Nat) : List α → Nat
  | [] => 0
  | a :: l => f a + total f l

/-- Steps that all connections together can still take are no more than this. -/
def work (b : Switchboard) : Nat := total Connection.work b.connections

theorem total_modify {α : Type} (f : α → Nat) (g : α → α) (h : ∀ a, f (g a) = f a)
    (l : List α) (n : Nat) : total f (l.modify n g) = total f l := by
  induction l generalizing n with
  | nil => cases n <;> simp
  | cons a l ih => cases n <;> simp_all [total]

theorem total_set_lt {α : Type} (f : α → Nat) {l : List α} {n : Nat} {a b : α}
    (ha : l[n]? = some a) (h : f b < f a) : total f (l.set n b) < total f l := by
  induction l generalizing n with
  | nil => simp at ha
  | cons c l ih =>
    cases n with
    | zero => simp_all [total]
    | succ n => simpa [total] using ih (by simpa using ha)

theorem work_wake (b : Switchboard) (n : Nat) : (b.wake n).work = b.work := by
  unfold wake
  split <;> rfl

theorem work_cancel (b : Switchboard) (n : Nat) : (b.cancel n).work = b.work := by
  unfold cancel touch
  rw [work_wake]
  exact total_modify Connection.work Connection.cancel (fun _ => rfl) b.connections n

theorem work_apply (b : Switchboard) (n : Nat) (id : SessionId) (e : Effect) :
    (b.apply n id e).work = b.work := by
  cases e with
  | emit => rfl
  | unregister => rfl
  | register =>
    simp only [apply]
    split
    · rw [work_cancel]; rfl
    · rfl

theorem work_stepAt_lt {b c : Switchboard} {n : Nat} (h : b.stepAt n = some c) :
    c.work < b.work := by
  unfold stepAt at h
  split at h
  · simp at h
  next d hd =>
  split at h
  · simp at h
  next effect d' hs =>
  have lt : total Connection.work (b.connections.set n d') < b.work :=
    total_set_lt Connection.work hd (Connection.work_step_lt hs)
  simp only at h
  split at h
  · cases h
    rw [work_apply]
    exact lt
  · cases h
    exact lt

/-- Runs connections until all of them wait. Each runs for as long as it can;
those that it wakes come after all that were ready before. -/
def settle (b : Switchboard) : Switchboard :=
  match _hr : b.ready with
  | [] => b
  | n :: rest =>
    match _h : b.stepAt n with
    | some c => c.settle
    | none => { b with ready := rest }.settle
termination_by (b.work, b.ready.length)
decreasing_by
  · exact Prod.Lex.left _ _ (work_stepAt_lt _h)
  · refine Prod.Lex.right _ ?_
    simp [_hr]

/-! ### What comes from outside -/

/-- Opens a connection; its number is the count of those before it. -/
def openConnection (b : Switchboard) (id : SessionId) (maxFrame : Nat) (closeTimeout : Duration)
    (leftover : Octets) (isCancelled : Bool) : Switchboard :=
  let c := Connection.opened id maxFrame closeTimeout leftover (isCancelled || b.isStopping)
  { b with connections := b.connections ++ [c] }.wake b.connections.length

def onTransport (f : Transport → Transport) (c : Connection) : Connection :=
  { c with transport := f c.transport }

/-- A chunk from a connection's peer. -/
def arrive (b : Switchboard) (n : Nat) (chunk : Octets) : Switchboard :=
  b.touch n (onTransport (·.arrive chunk))

def setHorizon (b : Switchboard) (n : Nat) (h : Horizon) : Switchboard :=
  b.touch n (onTransport (·.withHorizon h))

def setOutlet (b : Switchboard) (n : Nat) (o : Outlet) : Switchboard :=
  b.touch n (onTransport (·.withOutlet o))

/-- Hands on what a connection has written, and lets it write no more meanwhile. -/
def takeWritten (b : Switchboard) (n : Nat) : Octets × Switchboard :=
  match b.connection? n with
  | none => ([], b)
  | some c =>
    let (bytes, transport) := c.transport.takeWritten
    if bytes = [] then ([], b)
    else
      let c := { c with transport := transport.withOutlet .stalled }
      (bytes, { b with connections := b.connections.set n c })

/-- Queues a message for a connection; tells whether it was accepted. -/
def send (b : Switchboard) (n : Nat) (m : Message) : Bool × Switchboard :=
  match (b.connection? n).bind (·.enqueue? m) with
  | some c => (true, { b with connections := b.connections.set n c }.wake n)
  | none => (false, b)

/-- Sends to whoever is registered under an id. -/
def sendTo (b : Switchboard) (id : SessionId) (m : Message) : Switchboard :=
  match b.lookup id with
  | some n => (b.send n m).2
  | none => b

/-- Empties the registry, and tells how many were in it. Connections without
another handle come to their end. -/
def evict (b : Switchboard) : Nat × Switchboard :=
  let (evicted, registry) := b.hub.registry.clear
  (evicted.length, evicted.foldl wake { b with hub := { b.hub with registry } })

/-- Cancels every connection there is and every one to come. -/
def shutdown (b : Switchboard) : Switchboard :=
  (List.range b.connections.length).foldl cancel { b with isStopping := true }

/-- Keeps a handle outside of the registry. -/
def hold (b : Switchboard) (n : Nat) : Switchboard := { b with outside := n :: b.outside }

/-- Gives up a handle that was kept. -/
def release (b : Switchboard) (n : Nat) : Switchboard :=
  { b with outside := b.outside.erase n }.wake n

/-- Lets time pass. Connections whose time is up are woken, the earliest first. -/
def advance (b : Switchboard) (nanos : Nat) : Switchboard :=
  let now := b.now + nanos
  let due := (List.range b.connections.length).filterMap fun n => do
    let deadline ← (← b.connection? n).deadline?
    if deadline ≤ now then some (deadline, n) else none
  let due := due.mergeSort fun p q => p.1 ≤ q.1
  (due.map (·.2)).foldl wake { b with now }

end Switchboard

end WebSocketHost
