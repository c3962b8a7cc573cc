import WebSocketHost.Proofs.Frame.RoundTrip
import WebSocketHost.Proofs.Switchboard.Outbound

/-! A connection closes once. Its task and its session each keep in mind whether a close frame
is out, the one by what it is at and the other by a flag; that the two never differ is why the
task never asks its session for anything that would be refused. -/
namespace WebSocketHost

def Action.isClosing : Action → Bool
  | close _ _ => true
  | _ => false

/-- A task that may still ask its session for something to do, for the form of a message, or
to close. -/
def Phase.isServing : Phase → Bool
  | farewell _ _ _ | shutting _ _ | leaving _ | parting _ | finished => false
  | _ => true

/-- Byte strings none of which is a close frame. -/
def CloseFree (out : List Octets) : Prop := ∀ f : Frame, f.encode ∈ out → f.opcode ≠ .close

theorem CloseFree.concat {out : List Octets} (h : CloseFree out) {f : Frame}
    (hf : f.opcode ≠ .close) : CloseFree (out ++ [f.encode]) := by
  intro g hg
  rcases List.mem_append.mp hg with hg | hg
  · exact h g hg
  · rwa [Frame.opcode_eq_of_encode (List.mem_singleton.mp hg)]

/-- The closing a session calls for comes with a close frame, and answers none. -/
def Action.ClosesProperly (a : Action) : Prop :=
  ∃ (f : Frame) (reason : SessionEnd), f.opcode = .close ∧ reason ≠ .acknowledged ∧
    a = .close (some f.encode) reason

/-- All byte strings that went to the transport or are going there. -/
def Connection.out (c : Connection) (log : Log) : List Octets := log.begun ++ c.phase.pending

/-- What is out, and what the session called for, in agreement with what the task is at. -/
structure ClosesOnce (c : Connection) (log : Log) : Prop where
  serving : c.phase.isServing = true → c.session.flags = (false, false) ∧
    CloseFree (c.out log) ∧ ∀ a ∈ log.actions, a.isClosing = false
  executed : ∀ a ∈ log.actions, a.isClosing = true → a.ClosesProperly
  once : log.actions.countP Action.isClosing ≤ 1
  last : CloseFree (c.out log).dropLast

namespace Connection

variable {c d : Connection} {now : Nat} {effect : Option Effect} {log : Log}

theorem out_of_quiet (hc : c.phase.pending = []) :
    d.out (log ++ c.account now effect d) = c.out log ++ d.phase.pending := by
  have hwrite : c.write? now = none := write?_of_pending hc
  simp [out, begun_account, hwrite, hc]

theorem out_of_written {bytes : Octets} {isThrough : Bool} (hc : c.phase.pending = [bytes])
    (hwrite : c.write? now = some (bytes, isThrough)) (hd : d.phase.pending = []) :
    d.out (log ++ c.account now effect d) = c.out log := by
  simp [out, begun_account, hwrite, hc, hd]

end Connection

namespace ClosesOnce

open Connection

variable {c d : Connection} {log more : Log} {now : Nat} {isHeld : Bool} {effect : Option Effect}

/-- What is called for closes nothing, or it is the first to close. -/
theorem extend (h : ClosesOnce c log)
    (hactions : (∀ a ∈ more.actions, a.isClosing = false) ∨
      c.phase.isServing = true ∧ ∃ a, more.actions = [a] ∧ a.ClosesProperly)
    (hlast : CloseFree (d.out (log ++ more)).dropLast)
    (hserving : d.phase.isServing = true →
      c.phase.isServing = true ∧ (∀ a ∈ more.actions, a.isClosing = false) ∧
        d.session.flags = c.session.flags ∧ CloseFree (d.out (log ++ more))) :
    ClosesOnce d (log ++ more) where
  serving hd := by
    obtain ⟨hc, hquiet, hflags, hfree⟩ := hserving hd
    obtain ⟨hopen, -, hpast⟩ := h.serving hc
    rw [hflags, Log.actions_append]
    exact ⟨hopen, hfree, List.forall_mem_append.mpr ⟨hpast, hquiet⟩⟩
  executed a ha hclosing := by
    rw [Log.actions_append] at ha
    rcases List.mem_append.mp ha with ha | ha
    · exact h.executed a ha hclosing
    · rcases hactions with hquiet | ⟨-, b, hb, hproper⟩
      · exact absurd (hquiet a ha) (by simp [hclosing])
      · rw [hb, List.mem_singleton] at ha
        rwa [ha]
  once := by
    rw [Log.actions_append, List.countP_append]
    rcases hactions with hquiet | ⟨hc, b, hb, -⟩
    · have hnone : more.actions.countP Action.isClosing = 0 :=
        List.countP_eq_zero.mpr fun a ha => by simp [hquiet a ha]
      rw [hnone]
      exact h.once
    · have hnone : log.actions.countP Action.isClosing = 0 :=
        List.countP_eq_zero.mpr fun a ha => by simp [(h.serving hc).2.2 a ha]
      rw [hnone, hb, Nat.zero_add]
      exact List.countP_le_length
  last := hlast

/-- Nothing is begun, and nothing that closes is called for. -/
theorem quiet (h : ClosesOnce c log) (hout : d.out (log ++ more) = c.out log)
    (hactions : ∀ a ∈ more.actions, a.isClosing = false)
    (hserving : d.phase.isServing = true →
      c.phase.isServing = true ∧ d.session.flags = c.session.flags) :
    ClosesOnce d (log ++ more) := by
  refine h.extend (.inl hactions) (hout ▸ h.last) fun hd => ?_
  obtain ⟨hc, hflags⟩ := hserving hd
  exact ⟨hc, hactions, hflags, hout ▸ (h.serving hc).2.1⟩

/-- A frame that is no close frame is begun by a task that goes on to serve. -/
theorem utters (h : ClosesOnce c log) (hc : c.phase.isServing = true) {f : Frame}
    (hf : f.opcode ≠ .close) (hout : d.out (log ++ more) = c.out log ++ [f.encode])
    (hactions : ∀ a ∈ more.actions, a.isClosing = false)
    (hflags : d.session.flags = c.session.flags) : ClosesOnce d (log ++ more) := by
  have hfree := (h.serving hc).2.1
  refine h.extend (.inl hactions) ?_ fun _ => ⟨hc, hactions, hflags, hout ▸ hfree.concat hf⟩
  rwa [hout, List.dropLast_concat]

/-- A close frame is begun, and the task no longer serves. -/
theorem closes (h : ClosesOnce c log) (hc : c.phase.isServing = true) {f : Frame}
    (hout : d.out (log ++ more) = c.out log ++ [f.encode])
    (hactions : more.actions = [] ∨ ∃ a, more.actions = [a] ∧ a.ClosesProperly)
    (hd : d.phase.isServing = false) : ClosesOnce d (log ++ more) := by
  have hfree := (h.serving hc).2.1
  refine h.extend ?_ ?_ fun hserving => by rw [hd] at hserving; cases hserving
  · rcases hactions with hnone | hproper
    · exact .inl (by simp [hnone])
    · exact .inr ⟨hc, hproper⟩
  · rwa [hout, List.dropLast_concat]

theorem actions_of_acting (hp : c.phase = .acting) {a : Action} {session : Session}
    (hn : c.session.next = (some a, session)) : (c.account now effect d).actions = [a] := by
  rw [actions_account, action?_of_acting hp, hn]
  rfl

section Step

variable (h : ClosesOnce c log)

include h

/-- A step that writes nothing and calls for nothing. -/
theorem pass (hc : c.phase.pending = []) (hd : d.phase.pending = []) (haction : c.action? = none)
    (hserving : d.phase.isServing = true →
      c.phase.isServing = true ∧ d.session.flags = c.session.flags) :
    ClosesOnce d (log ++ c.account now effect d) := by
  refine h.quiet ?_ ?_ hserving
  · rw [out_of_quiet hc, hd, List.append_nil]
  · simp [actions_account, haction]

/-- A write comes to its end, be it through or not. -/
theorem settle {bytes : Octets} {isThrough : Bool} (hc : c.phase.pending = [bytes])
    (hwrite : c.write? now = some (bytes, isThrough)) (hd : d.phase.pending = [])
    (hserving : d.phase.isServing = true →
      c.phase.isServing = true ∧ d.session.flags = c.session.flags) :
    ClosesOnce d (log ++ c.account now effect d) := by
  have hacting : c.phase ≠ .acting := fun hp => by rw [hp] at hc; cases hc
  refine h.quiet (out_of_written hc hwrite hd) ?_ hserving
  simp [actions_account, action?_of_ne_acting hacting]

/-- A message is taken from the queue, and begun. -/
theorem takes {r : Resume} (hp : c.phase = r.phase) (hr : r ≠ .acting) {m : Message}
    {queue : List Message} :
    ClosesOnce ({ c with queue }.sendMessage m r)
      (log ++ c.account now effect ({ c with queue }.sendMessage m r)) := by
  have hc : c.phase.isServing = true := by rw [hp]; cases r <;> rfl
  have hpending : c.phase.pending = [] := by rw [hp]; cases r <;> rfl
  have hacting : c.phase ≠ .acting := by rw [hp]; cases r <;> simp_all [Resume.phase]
  have hopen : c.session.awaitingClose = false := congrArg Prod.fst (h.serving hc).1
  rw [sendMessage_of_open (c := { c with queue }) hopen]
  refine h.utters hc m.frame_ne_close (out_of_quiet hpending) ?_ rfl
  simp [actions_account, action?_of_ne_acting hacting]

/-- What the session calls for while its task serves. -/
theorem acts (hp : c.phase = .acting) {a : Action} {session : Session}
    (hn : c.session.next = (some a, session)) :
    session.flags = c.session.flags ∧
      ((∃ m, a = .deliver m) ∨ ∃ f : Frame, f.opcode ≠ .close ∧ a = .reply f.encode) ∨
      a.ClosesProperly := by
  have hopen : c.session.awaitingClose = false :=
    congrArg Prod.fst (h.serving (by rw [hp]; rfl)).1
  rcases Session.next_of_open hopen hn with hgoes | ⟨-, f, reason, hf, rfl⟩
  · exact .inl hgoes
  · exact .inr ⟨f, reason, hf, Session.next_reason hopen hn, rfl⟩

theorem deliver (hp : c.phase = .acting) {m : Message} {session : Session}
    (hn : c.session.next = (some (.deliver m), session)) :
    ClosesOnce { c with session } (log ++ c.account now effect { c with session }) := by
  obtain ⟨hflags, -⟩ | ⟨f, reason, -, -, hclose⟩ := h.acts hp hn
  · refine h.quiet ?_ ?_ fun hc => ⟨hc, hflags⟩
    · rw [out_of_quiet (by rw [hp]; rfl)]
      simp [hp, Phase.pending]
    · simp [actions_of_acting hp hn, Action.isClosing]
  · cases hclose

theorem reply (hp : c.phase = .acting) {bytes : Octets} {session : Session}
    (hn : c.session.next = (some (.reply bytes), session)) :
    ClosesOnce { c with session, phase := .writing bytes .acting }
      (log ++ c.account now effect { c with session, phase := .writing bytes .acting }) := by
  obtain ⟨hflags, ⟨m, hm⟩ | ⟨f, hf, hreply⟩⟩ | ⟨f, reason, -, -, hclose⟩ := h.acts hp hn
  · cases hm
  · cases hreply
    refine h.utters (by rw [hp]; rfl) hf (out_of_quiet (by rw [hp]; rfl)) ?_ hflags
    simp [actions_of_acting hp hn, Action.isClosing]
  · cases hclose

theorem close (hp : c.phase = .acting) {bytes : Octets} {reason : SessionEnd} {session : Session}
    (hn : c.session.next = (some (.close (some bytes) reason), session)) :
    ClosesOnce ({ c with session }.sayFarewell now bytes reason.ending)
      (log ++ c.account now effect ({ c with session }.sayFarewell now bytes reason.ending)) := by
  obtain ⟨-, ⟨m, hm⟩ | ⟨f, -, hreply⟩⟩ | hproper := h.acts hp hn
  · cases hm
  · cases hreply
  · have hactions : (c.account now effect
        ({ c with session }.sayFarewell now bytes reason.ending)).actions = _ :=
      actions_of_acting hp hn
    obtain ⟨f, reason', hf, hreason, hclose⟩ := hproper
    cases hclose
    exact h.closes (by rw [hp]; rfl) (out_of_quiet (by rw [hp]; rfl))
      (.inr ⟨_, hactions, f, reason, hf, hreason, rfl⟩) rfl

/-- No close frame is out that could have been answered. -/
theorem not_acknowledged (hp : c.phase = .acting) {reason : SessionEnd} {session : Session}
    (hn : c.session.next = (some (.close none reason), session)) : False := by
  obtain ⟨-, ⟨m, hm⟩ | ⟨f, -, hreply⟩⟩ | ⟨f, reason, -, -, hclose⟩ := h.acts hp hn
  · cases hm
  · cases hreply
  · cases hclose

theorem step (ht : c.Transition now isHeld effect d) :
    ClosesOnce d (log ++ c.account now effect d) := by
  have hopen (hc : c.phase.isServing = true) : c.session.awaitingClose = false :=
    congrArg Prod.fst (h.serving hc).1
  cases ht with
  | enter hp | greet hp | heed hp =>
    exact h.pass (by rw [hp]; rfl) rfl (by rw [action?, hp]) fun _ => ⟨by rw [hp]; rfl, rfl⟩
  | rest hp hn =>
    have hc : c.phase.isServing = true := by rw [hp]; rfl
    refine h.quiet ?_ ?_ fun _ => ⟨hc, Session.next_silent hn⟩
    · rw [out_of_quiet (by rw [hp]; rfl)]
      exact List.append_nil _
    · simp [actions_account, action?_of_acting hp, hn]
  | deliver hp hn => exact h.deliver hp hn
  | reply hp hn => exact h.reply hp hn
  | close hp hn => exact h.close hp hn
  | acknowledge hp hn => exact (h.not_acknowledged hp hn).elim
  | @write bytes resume hp transport hw =>
    have hwrite : c.write? now = some (bytes, true) := by simp [write?, hp, hw]
    refine h.settle (by rw [hp]; rfl) hwrite (by cases resume <;> rfl) fun _ => ⟨?_, rfl⟩
    rw [hp]
    rfl
  | @writeFails bytes resume hp hw =>
    have hwrite : c.write? now = some (bytes, false) := by simp [write?, hp, hw]
    exact h.settle (by rw [hp]; rfl) hwrite rfl (absurd · Bool.false_ne_true)
  | take hp => exact h.takes (r := .waiting) hp (by decide)
  | hear hp =>
    exact h.pass (by rw [hp]; rfl) rfl (by rw [action?, hp]) fun _ => ⟨by rw [hp]; rfl, rfl⟩
  | flush hp => exact h.takes (r := .draining) hp (by decide)
  | goAway hp hq hs =>
    have hc : c.phase.isServing = true := by rw [hp]; rfl
    rw [initiateClose_of_open (hopen hc)] at hs
    cases hs
    refine h.closes hc (f := away) (out_of_quiet (by rw [hp]; rfl)) (.inl ?_) rfl
    simp [actions_account, action?_of_ne_acting, hp]
  | fallSilent hp hq hs =>
    rw [initiateClose_of_open (hopen (by rw [hp]; rfl))] at hs
    cases hs
  | @farewell bytes deadline ending hp transport hw =>
    have hwrite : c.write? now = some (bytes, true) := by simp [write?, hp, hw]
    exact h.settle (by rw [hp]; rfl) hwrite rfl (absurd · Bool.false_ne_true)
  | @forgo bytes deadline ending hp hw =>
    have hwrite : c.write? now = some (bytes, false) := by
      rcases hw with hw | ⟨hw, hlate⟩ <;> simp [write?, *]
    exact h.settle (by rw [hp]; rfl) hwrite rfl (absurd · Bool.false_ne_true)
  | hangUp hp | shutDown hp | abandon hp | leave hp | part hp =>
    exact h.pass (by rw [hp]; rfl) rfl (by rw [action?, hp]) (absurd · Bool.false_ne_true)

end Step

/-- What happens around the task and leaves its session and its phase as they are. -/
theorem aside (h : ClosesOnce c log) (hphase : d.phase = c.phase) (hsession : d.session = c.session)
    (hbegun : more.begun = []) (hactions : more.actions = []) : ClosesOnce d (log ++ more) := by
  refine h.quiet ?_ (by simp [hactions]) fun hd => ⟨hphase ▸ hd, by rw [hsession]⟩
  rw [out, Log.begun_append, hbegun, List.append_nil, hphase, out]

theorem fate (h : ClosesOnce c log) (hfate : c.Fate now isHeld more d) :
    ClosesOnce d (log ++ more) := by
  cases hfate with
  | step ht => exact h.step ht
  | cancel => exact h.aside (d := c.cancel) rfl rfl rfl rfl
  | transport t _ => exact h.aside (d := { c with transport := t }) rfl rfl rfl rfl
  | accept m hd =>
    obtain ⟨-, rfl⟩ := eq_of_enqueue? hd
    exact h.aside (d := { c with queue := c.queue ++ [m] }) rfl rfl rfl rfl
  | refuse m => exact h.aside rfl rfl rfl rfl

theorem lasting : Journal.Lasting ClosesOnce where
  opened id maxFrame closeTimeout leftover isCancelled := by
    refine ⟨fun _ => ⟨rfl, nofun, nofun⟩, nofun, Nat.zero_le _, nofun⟩
  stable c log h now isHeld more d hfate := h.fate hfate

end ClosesOnce

namespace Journal

/-- In every state that a connection can come to, whatever was left over, read, sent, refused or
cancelled before: as long as its task may still ask its session for anything, the session has
sent no close frame and is not finished. So a closing that the session calls for comes with a
close frame, is never the answer to one, and comes once; a message taken from the queue is
always written; the flush ends in a close frame. And among all that the task ever begins to
write, in which the messages are those it took from its queue, only the last is a close frame. -/
theorem run_closes_once (capacity : Nat) (hcapacity : 0 < capacity)
    (moves : List Switchboard.Move) (n : Nat) (c : Connection)
    (hc : ((ofCapacity capacity hcapacity).run moves).board.connection? n = some c) :
    let log := ((ofCapacity capacity hcapacity).run moves).of n
    (c.phase.isServing = true → c.session.awaitingClose = false ∧ c.session.finished = false) ∧
    (∀ reply reason, .close reply reason ∈ log.actions →
      reason ≠ .acknowledged ∧ ∃ f : Frame, f.opcode = .close ∧ reply = some f.encode) ∧
    log.actions.countP Action.isClosing ≤ 1 ∧
    (∀ m resume, c.phase = resume.phase →
      (c.sendMessage m resume).phase = .writing m.frame.encode resume) ∧
    (c.phase = .draining → (c.session.initiateClose .away Connection.shutdownReason).1 =
      some Connection.away.encode) ∧
    ∃ (frames : List Frame) (taken : List Message),
      log.begun ++ c.phase.pending = frames.map Frame.encode ∧
      (∀ f ∈ frames.dropLast, f.opcode ≠ .close) ∧
      frames.filter (·.opcode.isMessage) = taken.map Message.frame ∧
      taken ++ c.queue = log.accepted := by
  intro log
  have h : ClosesOnce c log := ClosesOnce.lasting.run capacity hcapacity moves hc
  obtain ⟨frames, taken, hsends⟩ := Sends.lasting.run capacity hcapacity moves hc
  have hserving (hp : c.phase.isServing = true) := Prod.mk.inj (h.serving hp).1
  refine ⟨hserving, fun reply reason ha => ?_, h.once, fun m resume hp => ?_, fun hp => ?_,
    frames, taken, hsends.begun, fun f hf => ?_, hsends.messages, hsends.queued⟩
  · obtain ⟨f, reason, hf, hreason, ha⟩ := h.executed _ ha rfl
    cases ha
    exact ⟨hreason, f, hf, rfl⟩
  · have hopen := (hserving (by rw [hp]; cases resume <;> rfl)).1
    rw [Connection.sendMessage_of_open hopen]
  · have hopen := (hserving (by rw [hp]; rfl)).1
    rw [Connection.initiateClose_of_open hopen]
  · refine h.last f ?_
    rw [Connection.out, hsends.begun, ← List.map_dropLast]
    exact List.mem_map_of_mem hf

/-- A connection is cancelled when its peer's close frame has come but is not read yet, and
flushes a message first. -/
theorem run_closes_once_crossing :
    let moves := .openConnection "a:1" 125 (.ofSeconds 1) [] false :: List.replicate 3 (.step 0) ++
      [.send 0 (.text "hi"), .arrive 0 [0x88, 0], .cancel 0] ++ List.replicate 3 (.step 0)
    ∃ c, ((ofCapacity 1 Nat.one_pos).run moves).board.connection? 0 = some c ∧
      c.phase = .draining ∧ c.transport.written = [(Message.text "hi").frame.encode] ∧
      c.transport.incoming = [[0x88, 0]] ∧ c.session.awaitingClose = false ∧
      (c.session.initiateClose .away Connection.shutdownReason).1 =
        some Connection.away.encode := by
  intro moves
  have hconnection : (((ofCapacity 1 Nat.one_pos).run moves).board.connection? 0).any fun c =>
      c.phase = .draining ∧ c.transport.written = [(Message.text "hi").frame.encode] ∧
        c.transport.incoming = [[0x88, 0]] := by decide +kernel
  obtain ⟨c, hc, hstate⟩ := (Option.any_eq_true _ _).mp hconnection
  obtain ⟨hphase, hwritten, hincoming⟩ := of_decide_eq_true hstate
  obtain ⟨hserving, -, -, -, haway, -⟩ := run_closes_once 1 Nat.one_pos moves 0 c hc
  exact ⟨c, hc, hphase, hwritten, hincoming, (hserving (by rw [hphase]; rfl)).1, haway hphase⟩

end Journal

end WebSocketHost
