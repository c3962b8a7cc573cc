import WebSocketHost.Proofs.Connection.Service
import WebSocketHost.Proofs.Switchboard.Course

/-! A switchboard with a journal of each connection: what its session called for, what it did
to others, what it wrote or failed to write, what was offered to it. `Fate` lists all that can
happen to one connection, whatever the others do; what holds of a connection as it is opened,
and in all its fates, holds in every run. -/
namespace WebSocketHost

/-- What a journal says of a connection. -/
inductive Entry
  /-- The session called for this. -/
  | action (a : Action)
  | effect (e : Effect)
  /-- A write was through, or was given up. -/
  | write (bytes : Octets) (isThrough : Bool)
  /-- It heeds that it was cancelled, or that nobody can send to it any more. -/
  | flush
  /-- A message was offered to it. -/
  | offer (m : Message) (isAccepted : Bool)
deriving DecidableEq

namespace Entry

def action? : Entry → Option Action
  | action a => some a
  | _ => none

def effect? : Entry → Option Effect
  | effect e => some e
  | _ => none

def begun? : Entry → Option Octets
  | write bytes _ => some bytes
  | _ => none

def written? : Entry → Option Octets
  | write bytes true => some bytes
  | _ => none

def lost? : Entry → Option Octets
  | write bytes false => some bytes
  | _ => none

def accepted? : Entry → Option Message
  | offer m true => some m
  | _ => none

end Entry

/-- What a journal says of one connection, in order. -/
abbrev Log := List Entry

namespace Log

def actions (log : Log) : List Action := log.filterMap Entry.action?

def effects (log : Log) : List Effect := log.filterMap Entry.effect?

/-- The events that were emitted. -/
def told (log : Log) : List Event := log.effects.filterMap Effect.event?

/-- What went to the transport, be it through or not. -/
def begun (log : Log) : List Octets := log.filterMap Entry.begun?

def written (log : Log) : List Octets := log.filterMap Entry.written?

/-- Writes that were refused, or not taken in time. -/
def lost (log : Log) : List Octets := log.filterMap Entry.lost?

/-- The messages for which sending was answered with success. -/
def accepted (log : Log) : List Message := log.filterMap Entry.accepted?

/-- All up to where the connection begins to flush its queue, if it does. -/
def early (log : Log) : Log := log.takeWhile (· ≠ .flush)

end Log

namespace Connection

/-- What the session calls for, if the next step is to ask it. -/
def action? (c : Connection) : Option Action :=
  match c.phase with
  | .acting => c.session.next.1
  | _ => none

/-- A write that the next step brings to its end, and whether it is through. -/
def write? (c : Connection) (now : Nat) : Option (Octets × Bool) :=
  match c.phase with
  | .writing bytes _ =>
    match c.transport.write bytes with
    | .done _ => some (bytes, true)
    | .failed => some (bytes, false)
    | .pending => none
  | .farewell bytes deadline _ =>
    match c.transport.write bytes with
    | .done _ => some (bytes, true)
    | .failed => some (bytes, false)
    | .pending => if deadline ≤ now then some (bytes, false) else none
  | _ => none

/-- The entries for a step with an effect that leads to `d`. -/
def account (c : Connection) (now : Nat) (effect : Option Effect) (d : Connection) : Log :=
  (c.action?.map .action).toList ++ (effect.map .effect).toList ++
    ((c.write? now).map fun w => .write w.1 w.2).toList ++
    if c.phase = .waiting ∧ d.phase = .draining then [.flush] else []

/-- All that can happen to a connection at a time, and what is written of it. -/
inductive Fate (c : Connection) (now : Nat) (isHeld : Bool) : Log → Connection → Prop
  | step {effect : Option Effect} {d : Connection} (h : c.Transition now isHeld effect d) :
    Fate c now isHeld (c.account now effect d) d
  | cancel : Fate c now isHeld [] c.cancel
  /-- The peer sends or takes bytes, or stops to. What was written may be collected. -/
  | transport (t : Transport) (ht : t.written = c.transport.written ∨ t.written = []) :
    Fate c now isHeld [] { c with transport := t }
  | accept (m : Message) {d : Connection} (h : c.enqueue? m = some d) :
    Fate c now isHeld [.offer m true] d
  | refuse (m : Message) (h : c.enqueue? m = none) : Fate c now isHeld [.offer m false] c

/-- Any number of fates, one after another. -/
inductive Fates (now : Nat) (isHeld : Bool) : Connection → Log → Connection → Prop
  | refl (c : Connection) : Fates now isHeld c [] c
  | cons {c d e : Connection} {log later : Log} (h : c.Fate now isHeld log d)
    (hs : Fates now isHeld d later e) : Fates now isHeld c (log ++ later) e

end Connection

namespace Switchboard

/-- The entries for a move. -/
def entries (b : Switchboard) : Move → List (Nat × Entry)
  | .step n =>
    match b.connection? n with
    | none => []
    | some c =>
      match c.step b.now (b.isHeld n) with
      | none => []
      | some (effect, d) => (c.account b.now effect d).map (n, ·)
  | .send n m =>
    match b.connection? n with
    | none => []
    | some c => [(n, .offer m (c.enqueue? m).isSome)]
  | _ => []

end Switchboard

/-- Entries about one connection. -/
def aboutOf (n : Nat) (entries : List (Nat × Entry)) : Log :=
  entries.filterMap fun e => if e.1 = n then some e.2 else none

structure Journal where
  board : Switchboard
  /-- In order, each with the connection it is about. -/
  entries : List (Nat × Entry) := []

namespace Journal

def ofCapacity (capacity : Nat) (h : 0 < capacity) : Journal := { board := .ofCapacity capacity h }

def move (j : Journal) (m : Switchboard.Move) : Journal where
  board := j.board.move m
  entries := j.entries ++ j.board.entries m

def run (j : Journal) (moves : List Switchboard.Move) : Journal := moves.foldl move j

/-- What is written of one connection. -/
def of (j : Journal) (n : Nat) : Log := aboutOf n j.entries

end Journal

/-! ### Logs -/

namespace Log

variable (log more : Log)

@[simp] theorem actions_append : (log ++ more).actions = log.actions ++ more.actions :=
  List.filterMap_append

@[simp] theorem effects_append : (log ++ more).effects = log.effects ++ more.effects :=
  List.filterMap_append

@[simp] theorem begun_append : (log ++ more).begun = log.begun ++ more.begun :=
  List.filterMap_append

@[simp] theorem written_append : (log ++ more).written = log.written ++ more.written :=
  List.filterMap_append

@[simp] theorem lost_append : (log ++ more).lost = log.lost ++ more.lost :=
  List.filterMap_append

@[simp] theorem accepted_append : (log ++ more).accepted = log.accepted ++ more.accepted :=
  List.filterMap_append

/-- What comes behind the beginning of the flush is late. -/
theorem early_append {log : Log} (h : .flush ∈ log) (more : Log) :
    (log ++ more).early = log.early := by
  induction log with
  | nil => cases h
  | cons e log ih =>
    unfold early at ih ⊢
    rw [List.cons_append, List.takeWhile_cons, List.takeWhile_cons]
    split
    · next he =>
      rw [ih ((List.mem_cons.mp h).resolve_left fun heq => of_decide_eq_true he heq.symm)]
    · rfl

theorem accepted_early (log : Log) : log.early.accepted <+: log.accepted :=
  (List.takeWhile_prefix _).filterMap _

end Log

namespace Connection

variable {c : Connection}

theorem action?_of_acting (h : c.phase = .acting) : c.action? = c.session.next.1 := by
  rw [action?, h]

theorem action?_of_ne_acting (h : c.phase ≠ .acting) : c.action? = none := by
  unfold action?
  split
  · contradiction
  · rfl

section Account

variable (c) (now : Nat) (effect : Option Effect) (d : Connection)

theorem actions_account : (c.account now effect d).actions = c.action?.toList := by
  unfold account Log.actions
  cases c.action? <;> cases effect <;> cases c.write? now <;> split <;> rfl

theorem effects_account : (c.account now effect d).effects = effect.toList := by
  unfold account Log.effects
  cases c.action? <;> cases effect <;> cases c.write? now <;> split <;> rfl

theorem accepted_account : (c.account now effect d).accepted = [] := by
  unfold account Log.accepted
  cases c.action? <;> cases effect <;> cases c.write? now <;> split <;> rfl

theorem begun_account : (c.account now effect d).begun = ((c.write? now).map (·.1)).toList := by
  unfold account Log.begun
  cases c.action? <;> cases effect <;> cases c.write? now <;> split <;> rfl

theorem written_account : (c.account now effect d).written =
    match c.write? now with
    | some (bytes, true) => [bytes]
    | _ => [] := by
  unfold account Log.written
  rcases c.write? now with - | ⟨bytes, isThrough⟩
  · cases c.action? <;> cases effect <;> split <;> rfl
  · cases isThrough <;> cases c.action? <;> cases effect <;> split <;> rfl

theorem lost_account : (c.account now effect d).lost =
    match c.write? now with
    | some (bytes, false) => [bytes]
    | _ => [] := by
  unfold account Log.lost
  rcases c.write? now with - | ⟨bytes, isThrough⟩
  · cases c.action? <;> cases effect <;> split <;> rfl
  · cases isThrough <;> cases c.action? <;> cases effect <;> split <;> rfl

theorem flush_mem_account :
    .flush ∈ c.account now effect d ↔ c.phase = .waiting ∧ d.phase = .draining := by
  unfold account
  split <;> simp_all

end Account

end Connection

/-! ### Fates -/

theorem Transport.written_arrive (t : Transport) (chunk : Octets) :
    (t.arrive chunk).written = t.written := by
  unfold arrive
  split <;> rfl

theorem Connection.eq_of_enqueue? {c d : Connection} {m : Message} (h : c.enqueue? m = some d) :
    c.isOpen = true ∧ d = { c with queue := c.queue ++ [m] } := by
  unfold enqueue? at h
  split at h
  · next hroom =>
    cases h
    exact ⟨hroom.1, rfl⟩
  · cases h

namespace Connection.Fates

variable {c d e : Connection} {now : Nat} {isHeld : Bool} {log later : Log}

theorem single (h : c.Fate now isHeld log d) : Fates now isHeld c log d := by
  have hfates : Fates now isHeld c (log ++ []) d := .cons h (.refl d)
  rwa [List.append_nil] at hfates

theorem trans (h : Fates now isHeld c log d) (h' : Fates now isHeld d later e) :
    Fates now isHeld c (log ++ later) e := by
  induction h with
  | refl c => exact h'
  | cons hfate _ ih =>
    rw [List.append_assoc]
    exact .cons hfate (ih h')

end Connection.Fates

theorem aboutOf_append (n : Nat) (first second : List (Nat × Entry)) :
    aboutOf n (first ++ second) = aboutOf n first ++ aboutOf n second :=
  List.filterMap_append

theorem aboutOf_map (n k : Nat) (log : Log) :
    aboutOf k (log.map (n, ·)) = if n = k then log else [] := by
  have hentry : (fun e : Nat × Entry => if e.1 = k then some e.2 else none) ∘ (n, ·) =
      fun entry => if n = k then some entry else none := rfl
  unfold aboutOf
  rw [List.filterMap_map, hentry]
  by_cases hk : n = k <;> simp [hk]

namespace Switchboard

open Connection (Fate Fates)

variable {b b' b'' : Switchboard} {n k : Nat} {now : Nat} {isHeld : Bool}

theorem connection?_wake (b : Switchboard) (n k : Nat) :
    (b.wake n).connection? k = b.connection? k := by
  unfold wake
  split <;> rfl

theorem connection?_touch (b : Switchboard) (n : Nat) (f : Connection → Connection) (k : Nat) :
    (b.touch n f).connection? k = (b.connection? k).map fun c => if n = k then f c else c := by
  unfold touch
  rw [connection?_wake]
  show (b.connections.modify n f)[k]? = _
  rw [List.getElem?_modify]
  by_cases hk : n = k <;> simp [hk, connection?]

theorem connection?_set {c d : Connection} (hc : b.connection? n = some c) (k : Nat) :
    connection? { b with connections := b.connections.set n d } k =
      if n = k then some d else b.connection? k := by
  have hn : n < b.connections.length := (List.getElem?_eq_some_iff.mp hc).1
  by_cases hk : n = k
  · subst hk
    rw [if_pos rfl]
    exact List.getElem?_set_self hn
  · rw [if_neg hk]
    exact List.getElem?_set_ne hk

/-- Who is there now was there before, and this has happened to it. -/
def Follows (b : Switchboard) (now : Nat) (isHeld : Bool) (k : Nat) (log : Log)
    (b' : Switchboard) : Prop :=
  ∀ d, b'.connection? k = some d → ∃ c, b.connection? k = some c ∧ Fates now isHeld c log d

namespace Follows

theorem of_eq (h : b'.connection? k = b.connection? k) : Follows b now isHeld k [] b' :=
  fun d hd => ⟨d, h ▸ hd, .refl d⟩

theorem trans {log later : Log} (h : Follows b now isHeld k log b')
    (h' : Follows b' now isHeld k later b'') : Follows b now isHeld k (log ++ later) b'' := by
  intro e he
  obtain ⟨d, hd, hlater⟩ := h' e he
  obtain ⟨c, hc, hlog⟩ := h d hd
  exact ⟨c, hc, hlog.trans hlater⟩

theorem touch {f : Connection → Connection} (b : Switchboard) (n : Nat)
    (hf : ∀ c, Fate c now isHeld [] (f c)) : Follows b now isHeld k [] (b.touch n f) := by
  intro d hd
  rw [connection?_touch] at hd
  obtain ⟨c, hc, rfl⟩ := Option.map_eq_some_iff.mp hd
  refine ⟨c, hc, ?_⟩
  split
  · exact .single (hf c)
  · exact .refl c

theorem onTransport {f : Transport → Transport} (hf : ∀ t, (f t).written = t.written)
    (b : Switchboard) (n : Nat) :
    Follows b now isHeld k [] (b.touch n (Switchboard.onTransport f)) :=
  touch b n fun c => .transport _ (.inl (hf c.transport))

theorem foldl {f : Switchboard → Nat → Switchboard} (hf : ∀ b n, Follows b now isHeld k [] (f b n))
    (b : Switchboard) (ns : List Nat) : Follows b now isHeld k [] (ns.foldl f b) := by
  induction ns generalizing b with
  | nil => exact of_eq rfl
  | cons n ns ih => exact (hf b n).trans (ih (f b n))

theorem wake (b : Switchboard) (n : Nat) : Follows b now isHeld k [] (b.wake n) :=
  of_eq (connection?_wake b n k)

theorem cancel (b : Switchboard) (n : Nat) : Follows b now isHeld k [] (b.cancel n) :=
  touch b n fun _ => .cancel

theorem set {c d : Connection} {log : Log} (hc : b.connection? n = some c)
    (h : n = k → Fate c now isHeld log d) :
    Follows b now isHeld k (if n = k then log else [])
      { b with connections := b.connections.set n d } := by
  intro e he
  rw [connection?_set hc] at he
  by_cases hk : n = k
  · rw [if_pos hk] at he ⊢
    cases he
    exact ⟨c, hk ▸ hc, .single (h hk)⟩
  · rw [if_neg hk] at he ⊢
    exact ⟨e, he, .refl e⟩

/-- An effect of one connection does nothing to another but cancel it. -/
theorem apply (b : Switchboard) (n : Nat) (id : SessionId) (effect : Effect) :
    Follows b now isHeld k [] (b.apply n id effect) := by
  cases effect with
  | emit | unregister => exact of_eq rfl
  | register =>
    unfold Switchboard.apply Registry.register
    dsimp only
    split
    · have hinserted : Follows b now isHeld k []
          { b with hub := { b.hub with registry := b.hub.registry.insert id n } } := of_eq rfl
      exact hinserted.trans (cancel _ _)
    · exact of_eq rfl

end Follows

theorem follows_step (b : Switchboard) (n k : Nat) :
    Follows b b.now (b.isHeld k) k (aboutOf k (b.entries (.step n))) (b.move (.step n)) := by
  unfold entries move stepAt
  dsimp only
  cases hc : b.connection? n with
  | none => exact .of_eq rfl
  | some c =>
    dsimp only
    cases hstep : c.step b.now (b.isHeld n) with
    | none => exact .of_eq rfl
    | some p =>
      obtain ⟨effect, d⟩ := p
      have hfate : n = k → Fate c b.now (b.isHeld k) (c.account b.now effect d) d := by
        rintro rfl
        exact .step (Connection.transition_of_step hstep)
      dsimp only
      rw [aboutOf_map]
      cases effect with
      | none => exact .set hc hfate
      | some effect =>
        have happly : Follows b b.now (b.isHeld k) k (_ ++ []) _ :=
          (Follows.set hc hfate).trans (.apply _ n c.id effect)
        rwa [List.append_nil] at happly

theorem follows_send (b : Switchboard) (n k : Nat) (m : Message) :
    Follows b b.now (b.isHeld k) k (aboutOf k (b.entries (.send n m))) (b.move (.send n m)) := by
  unfold entries move send
  dsimp only
  cases hc : b.connection? n with
  | none => exact .of_eq rfl
  | some c =>
    dsimp only [Option.bind_some]
    rw [show [(n, Entry.offer m (c.enqueue? m).isSome)] =
      [Entry.offer m (c.enqueue? m).isSome].map (n, ·) from rfl, aboutOf_map]
    cases hd : c.enqueue? m with
    | none =>
      intro e he
      refine ⟨e, he, ?_⟩
      split
      · next hk =>
        subst hk
        cases hc.symm.trans he
        exact .single (.refuse m hd)
      · exact .refl e
    | some d =>
      have hset : Follows b b.now (b.isHeld k) k (_ ++ []) _ :=
        (Follows.set hc fun _ => .accept m hd).trans (.wake _ n)
      rwa [List.append_nil] at hset

theorem follows_collect (b : Switchboard) (n k : Nat) :
    Follows b b.now (b.isHeld k) k [] (b.move (.collect n)) := by
  unfold move takeWritten
  dsimp only
  split
  · exact .of_eq rfl
  next c hc =>
  split
  · exact .of_eq rfl
  · have hset : Follows b b.now (b.isHeld k) k (if n = k then [] else []) _ :=
      .set hc fun _ => .transport (c.transport.takeWritten.2.withOutlet .stalled) (.inr rfl)
    rwa [ite_self] at hset

/-- Only its own step lets a connection do something to others. -/
theorem eq_step_of_effect {m : Move} {effect : Effect}
    (h : (n, .effect effect) ∈ b.entries m) :
    m = .step n ∧ ∃ c d, b.connection? n = some c ∧
      c.step b.now (b.isHeld n) = some (some effect, d) := by
  cases m with
  | step k =>
    unfold entries at h
    dsimp only at h
    split at h
    · cases h
    next c hc =>
    split at h
    · cases h
    next effect' d hd =>
    obtain ⟨entry, hentry, he⟩ := List.mem_map.mp h
    cases he
    refine ⟨rfl, c, d, hc, ?_⟩
    rw [hd]
    simpa [Connection.account] using hentry
  | send k m =>
    unfold entries at h
    dsimp only at h
    split at h
    · cases h
    · simp at h
  | _ => cases h

theorem aboutOf_entries_of_none (hk : b.connection? k = none) (m : Move) :
    aboutOf k (b.entries m) = [] := by
  have hother : ∀ {n c}, b.connection? n = some c → n ≠ k := by
    rintro n c hc rfl
    cases hc.symm.trans hk
  cases m with
  | step n =>
    unfold entries
    dsimp only
    split
    · rfl
    next c hc =>
    split
    · rfl
    · rw [aboutOf_map, if_neg (hother hc)]
  | send n m =>
    unfold entries
    dsimp only
    split
    · rfl
    next c hc =>
    exact (aboutOf_map n k [.offer m (c.enqueue? m).isSome]).trans (if_neg (hother hc))
  | _ => rfl

/-- A connection that is there after a move was there before, or is opened by it. -/
theorem fates_move (b : Switchboard) (m : Move) {d : Connection}
    (hd : (b.move m).connection? k = some d) :
    (∃ c, b.connection? k = some c ∧
      Fates b.now (b.isHeld k) c (aboutOf k (b.entries m)) d) ∨
    b.connection? k = none ∧ aboutOf k (b.entries m) = [] ∧
      ∃ id maxFrame closeTimeout leftover isCancelled,
        d = .opened id maxFrame closeTimeout leftover isCancelled := by
  cases m with
  | step n => exact .inl (follows_step b n k d hd)
  | send n m => exact .inl (follows_send b n k m d hd)
  | openConnection id maxFrame closeTimeout leftover isCancelled =>
    have hd : (b.connections ++ [Connection.opened id maxFrame closeTimeout leftover
        (isCancelled || b.isStopping)])[k]? = some d :=
      (connection?_wake _ _ k).symm.trans hd
    by_cases hk : k < b.connections.length
    · rw [List.getElem?_append_left hk] at hd
      exact .inl ⟨d, hd, .refl d⟩
    · have hk := Nat.le_of_not_lt hk
      rw [List.getElem?_append_right hk, List.getElem?_singleton] at hd
      split at hd
      · cases hd
        exact .inr ⟨List.getElem?_eq_none hk, rfl, _, _, _, _, _, rfl⟩
      · cases hd
  | skip | hold => exact .inl (Follows.of_eq rfl d hd)
  | cancel n => exact .inl (Follows.cancel b n d hd)
  | arrive n chunk =>
    exact .inl (Follows.onTransport (fun t => t.written_arrive chunk) b n d hd)
  | horizon n h =>
    exact .inl (Follows.onTransport (f := (·.withHorizon h)) (fun _ => rfl) b n d hd)
  | outlet n o =>
    exact .inl (Follows.onTransport (f := (·.withOutlet o)) (fun _ => rfl) b n d hd)
  | collect n => exact .inl (follows_collect b n k d hd)
  | evict =>
    exact .inl (Follows.foldl Follows.wake
      { b with hub := { b.hub with registry := b.hub.registry.clear.2 } } _ d hd)
  | shutdown => exact .inl (Follows.foldl Follows.cancel { b with isStopping := true } _ d hd)
  | release n => exact .inl (Follows.wake { b with outside := b.outside.erase n } n d hd)
  | advance nanos => exact .inl (Follows.foldl Follows.wake { b with now := b.now + nanos } _ d hd)

end Switchboard

namespace Journal

open Connection (Fate Fates)

variable {j : Journal} {P : Connection → Log → Prop}

/-- What holds of a connection and its log whatever happens to it, once it holds. -/
def Stable (P : Connection → Log → Prop) : Prop :=
  ∀ c log, P c log → ∀ now isHeld more d, c.Fate now isHeld more d → P d (log ++ more)

/-- What holds of a connection and its log as it is opened, and from then on. -/
structure Lasting (P : Connection → Log → Prop) : Prop where
  opened : ∀ id maxFrame closeTimeout leftover isCancelled,
    P (.opened id maxFrame closeTimeout leftover isCancelled) []
  stable : Stable P

theorem Stable.fates (h : Stable P) {c d : Connection} {now : Nat} {isHeld : Bool}
    {log more : Log} (hc : P c log) (hs : Fates now isHeld c more d) : P d (log ++ more) := by
  induction hs generalizing log with
  | refl c => rwa [List.append_nil]
  | cons hfate _ ih =>
    rw [← List.append_assoc]
    exact ih (h _ _ hc _ _ _ _ hfate)

theorem of_move (j : Journal) (m : Switchboard.Move) (n : Nat) :
    (j.move m).of n = j.of n ++ aboutOf n (j.board.entries m) :=
  aboutOf_append n j.entries _

/-- A journal says nothing of connections that are not there, and of the others what lasts. -/
structure Keeps (P : Connection → Log → Prop) (j : Journal) : Prop where
  absent : ∀ n, j.board.connection? n = none → j.of n = []
  present : ∀ n c, j.board.connection? n = some c → P c (j.of n)

theorem Keeps.move (hP : Lasting P) (h : Keeps P j) (m : Switchboard.Move) :
    Keeps P (j.move m) where
  absent n hn := by
    have hbefore : j.board.connection? n = none := by
      cases hc : j.board.connection? n with
      | none => rfl
      | some c =>
        obtain ⟨d, hd, -⟩ := (Switchboard.outcome_move j.board m).connection? hc
        cases hd.symm.trans hn
    rw [of_move, h.absent n hbefore, Switchboard.aboutOf_entries_of_none hbefore]
    rfl
  present n d hd := by
    rw [of_move]
    rcases j.board.fates_move m hd with ⟨c, hc, hfates⟩ | ⟨hnone, hempty, _, _, _, _, _, rfl⟩
    · exact hP.stable.fates (h.present n c hc) hfates
    · rw [h.absent n hnone, hempty]
      exact hP.opened ..

theorem Keeps.run (hP : Lasting P) (h : Keeps P j) (moves : List Switchboard.Move) :
    Keeps P (j.run moves) := by
  induction moves generalizing j with
  | nil => exact h
  | cons m moves ih => exact ih (h.move hP m)

/-- Nobody goes from a switchboard, and what is stable stays. -/
theorem Stable.run (hP : Stable P) {n : Nat} {c : Connection}
    (hc : j.board.connection? n = some c) (h : P c (j.of n)) (moves : List Switchboard.Move) :
    ∃ d, (j.run moves).board.connection? n = some d ∧ P d ((j.run moves).of n) := by
  induction moves generalizing j c with
  | nil => exact ⟨c, hc, h⟩
  | cons m moves ih =>
    obtain ⟨d, hd, -⟩ := (Switchboard.outcome_move j.board m).connection? hc
    refine ih (j := j.move m) hd ?_
    rw [of_move]
    rcases j.board.fates_move m hd with ⟨c', hc', hfates⟩ | ⟨hnone, -⟩
    · cases hc.symm.trans hc'
      exact hP.fates h hfates
    · cases hnone.symm.trans hc

/-- What lasts holds in every run. -/
theorem Lasting.run (hP : Lasting P) (capacity : Nat) (hcapacity : 0 < capacity)
    (moves : List Switchboard.Move) {n : Nat} {c : Connection}
    (hc : ((ofCapacity capacity hcapacity).run moves).board.connection? n = some c) :
    P c (((ofCapacity capacity hcapacity).run moves).of n) := by
  have hinitial : Keeps P (ofCapacity capacity hcapacity) :=
    ⟨fun _ _ => rfl, fun n c hc => by cases hc⟩
  exact (hinitial.run hP moves).present n c hc

/-- The journal leaves the switchboard as it is. -/
theorem board_run (j : Journal) (moves : List Switchboard.Move) :
    (j.run moves).board = moves.foldl Switchboard.move j.board := by
  induction moves generalizing j with
  | nil => rfl
  | cons m moves ih => exact ih (j.move m)

/-- Nor does a course. -/
theorem board_course (capacity : Nat) (h : 0 < capacity) (moves : List Switchboard.Move) :
    ((Course.ofCapacity capacity h).run moves).board =
      ((ofCapacity capacity h).run moves).board := by
  rw [board_run, Course.board_run]
  rfl

end Journal

end WebSocketHost
