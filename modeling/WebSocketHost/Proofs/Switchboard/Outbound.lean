import WebSocketHost.Proofs.Connection.Faithful
import WebSocketHost.Proofs.Switchboard.Telling

/-! What a connection writes, against what it was offered. Messages leave its queue at two
places, while it waits and while it flushes, and both put one frame behind those before. So
the frames written and being written, together with the queue, are what was accepted. -/
namespace WebSocketHost

/-- What a message comes in, whole. -/
def Opcode.isMessage : Opcode → Bool
  | text | binary => true
  | _ => false

/-- The close frame of a connection that is closed from this side. -/
def Connection.away : Frame := (CloseNotice.ofReason .away shutdownReason).frame

theorem Message.isMessage_frame (m : Message) : m.frame.opcode.isMessage = true := by
  cases m <;> rfl

theorem Message.frame_ne_close (m : Message) : m.frame.opcode ≠ .close := by
  cases m <;> nofun

/-- No close frame is out, and nothing was lost. -/
structure Writable (session : Session) (log : Log) (frames : List Frame) : Prop where
  session : session.awaitingClose = false
  frames : ∀ f ∈ frames, f.opcode ≠ .close
  lost : log.lost = []

/-- The close frame is behind all that was accepted before the flush began. -/
def SaysAway (log : Log) (frames : List Frame) (taken : List Message) : Prop :=
  ∃ sent, frames = sent ++ [Connection.away] ∧ (∀ f ∈ sent, f.opcode ≠ .close) ∧
    log.early.accepted <+: taken

/-- What is known in a phase. A task that flushes has begun to, and goes on to the close frame
unless a write is lost. -/
def Phase.Sent (session : Session) (log : Log) (frames : List Frame) (taken : List Message) :
    Phase → Prop
  | .draining | .writing _ .draining => Writable session log frames ∧ .flush ∈ log
  | .farewell _ _ _ => log.lost = [] ∧ (.flush ∈ log → SaysAway log frames taken)
  | .shutting _ _ | .leaving _ | .parting _ | .finished =>
    .flush ∈ log → log.lost = [] → SaysAway log frames taken
  | .entering | .greeting | .acting | .writing _ .acting | .writing _ .waiting | .waiting =>
    Writable session log frames ∧ .flush ∉ log

/-- The frames handed to the transport and the messages taken from the queue account for
all that was accepted. -/
structure Sends (c : Connection) (log : Log) (frames : List Frame) (taken : List Message) :
    Prop where
  begun : log.begun ++ c.phase.pending = frames.map Frame.encode
  split : log.begun = log.written ++ log.lost
  messages : frames.filter (·.opcode.isMessage) = taken.map Message.frame
  queued : taken ++ c.queue = log.accepted
  transport : c.transport.written.reverse <:+ log.written
  sent : c.phase.Sent c.session log frames taken

section Stages

variable {session next : Session} {log more : Log} {frames : List Frame} {taken : List Message}
  {f : Frame}

theorem Writable.append (h : Writable session log frames) (hlost : more.lost = []) :
    Writable session (log ++ more) frames where
  session := h.session
  frames := h.frames
  lost := by rw [Log.lost_append, h.lost, hlost, List.append_nil]

theorem Writable.concat (h : Writable session log frames) (hf : f.opcode ≠ .close) :
    Writable session log (frames ++ [f]) where
  session := h.session
  frames := by
    intro g hg
    rcases List.mem_append.mp hg with hg | hg
    · exact h.frames g hg
    · rwa [List.mem_singleton.mp hg]
  lost := h.lost

theorem Writable.withSession (h : Writable session log frames)
    (hnext : next.awaitingClose = session.awaitingClose) : Writable next log frames :=
  ⟨hnext.trans h.session, h.frames, h.lost⟩

theorem SaysAway.append (h : SaysAway log frames taken) (hflush : .flush ∈ log) :
    SaysAway (log ++ more) frames taken := by
  rwa [SaysAway, Log.early_append hflush]

/-- What is written behind leaves a phase's knowledge as it is, if nothing is lost in it. -/
theorem Phase.Sent.append {phase : Phase} (h : phase.Sent session log frames taken)
    (hlost : more.lost = []) (hflush : .flush ∉ more) :
    phase.Sent session (log ++ more) frames taken := by
  have hmem : .flush ∈ log ++ more ↔ .flush ∈ log := by simp [hflush]
  have hsame : (log ++ more).lost = log.lost := by rw [Log.lost_append, hlost, List.append_nil]
  cases phase with
  | draining => exact ⟨h.1.append hlost, hmem.mpr h.2⟩
  | entering | greeting | acting | waiting => exact ⟨h.1.append hlost, hmem.not.mpr h.2⟩
  | writing bytes resume =>
    cases resume with
    | draining => exact ⟨h.1.append hlost, hmem.mpr h.2⟩
    | acting | waiting => exact ⟨h.1.append hlost, hmem.not.mpr h.2⟩
  | farewell =>
    exact ⟨hsame.trans h.1, fun hf => (h.2 (hmem.mp hf)).append (hmem.mp hf)⟩
  | shutting | leaving | parting | finished =>
    exact fun hf hl => (h (hmem.mp hf) (hsame.symm.trans hl)).append (hmem.mp hf)

end Stages

namespace Connection

variable {c : Connection} {now : Nat}

theorem sendMessage_of_open (h : c.session.awaitingClose = false) (m : Message)
    (resume : Resume) :
    c.sendMessage m resume = { c with phase := .writing m.frame.encode resume } := by
  simp [sendMessage, Session.encode?, h]

theorem initiateClose_of_open (h : c.session.awaitingClose = false) :
    c.session.initiateClose .away shutdownReason =
      (some away.encode, { c.session with awaitingClose := true }) := by
  rw [Session.initiateClose, h]
  rfl

theorem write?_of_pending (h : c.phase.pending = []) : c.write? now = none := by
  unfold write?
  split
  · next hp =>
    rw [hp] at h
    cases h
  · next hp =>
    rw [hp] at h
    cases h
  · rfl

end Connection

namespace Sends

open Connection

variable {c d : Connection} {log : Log} {now : Nat} {isHeld : Bool} {effect : Option Effect}
  {frames : List Frame} {taken : List Message}

/-- Whatever is added to the log, the frames and the messages taken is to balance. -/
theorem extend (h : Sends c log frames taken) {more : Log} {extra : List Frame}
    {took : List Message}
    (hbegun : more.begun ++ d.phase.pending = c.phase.pending ++ extra.map Frame.encode)
    (hsplit : log.begun ++ more.begun = log.written ++ more.written ++ (log.lost ++ more.lost))
    (hmessages : extra.filter (·.opcode.isMessage) = took.map Message.frame)
    (hqueued : took ++ d.queue = c.queue ++ more.accepted)
    (htransport : d.transport.written = more.written.reverse ++ c.transport.written ∨
      d.transport.written = [])
    (hsent : d.phase.Sent d.session (log ++ more) (frames ++ extra) (taken ++ took)) :
    Sends d (log ++ more) (frames ++ extra) (taken ++ took) where
  begun := by
    rw [Log.begun_append, List.append_assoc, hbegun, ← List.append_assoc, h.begun,
      List.map_append]
  split := by rw [Log.begun_append, Log.written_append, Log.lost_append, hsplit]
  messages := by rw [List.filter_append, h.messages, hmessages, List.map_append]
  queued := by rw [List.append_assoc, hqueued, ← List.append_assoc, h.queued, Log.accepted_append]
  transport := by
    obtain ⟨past, hpast⟩ := h.transport
    rcases htransport with ht | ht
    · refine ⟨past, ?_⟩
      rw [ht, List.reverse_append, List.reverse_reverse, ← List.append_assoc, hpast,
        Log.written_append]
    · rw [ht]
      exact List.nil_suffix
  sent := hsent

/-- No frame is begun. -/
theorem carry (h : Sends c log frames taken) {more : Log}
    (hbegun : more.begun ++ d.phase.pending = c.phase.pending)
    (hsplit : log.begun ++ more.begun = log.written ++ more.written ++ (log.lost ++ more.lost))
    (hqueued : d.queue = c.queue ++ more.accepted)
    (htransport : d.transport.written = more.written.reverse ++ c.transport.written ∨
      d.transport.written = [])
    (hsent : d.phase.Sent d.session (log ++ more) frames taken) :
    Sends d (log ++ more) frames taken := by
  have hsends : Sends d (log ++ more) (frames ++ []) (taken ++ []) := by
    refine h.extend ?_ hsplit rfl hqueued htransport ?_
    · rw [hbegun]
      exact (List.append_nil _).symm
    · rwa [List.append_nil, List.append_nil]
  rwa [List.append_nil, List.append_nil] at hsends

/-- A change around the task that leaves its session and its phase as they are. -/
theorem of_same (h : Sends c log frames taken) {more : Log} (hphase : d.phase = c.phase)
    (hsession : d.session = c.session) (hbegun : more.begun = [])
    (hwritten : more.written = []) (hlost : more.lost = []) (hflush : .flush ∉ more)
    (hqueued : d.queue = c.queue ++ more.accepted)
    (htransport : d.transport.written = c.transport.written ∨ d.transport.written = []) :
    Sends d (log ++ more) frames taken := by
  refine h.carry ?_ ?_ hqueued ?_ ?_
  · rw [hbegun, hphase]
    rfl
  · rw [hbegun, hwritten, hlost]
    simpa using h.split
  · rwa [hwritten]
  · rw [hphase, hsession]
    exact h.sent.append hlost hflush

section Step

variable (h : Sends c log frames taken)

include h

/-- A step that neither begins to write nor ends it, nor begins the flush. -/
theorem silent (hc : c.phase.pending = []) (hd : d.phase.pending = []) (hqueue : d.queue = c.queue)
    (htransport : d.transport.written = c.transport.written)
    (hflush : ¬ (c.phase = .waiting ∧ d.phase = .draining))
    (hsent : ∀ log, c.phase.Sent c.session log frames taken →
      d.phase.Sent d.session log frames taken) :
    Sends d (log ++ c.account now effect d) frames taken := by
  have hwrite : c.write? now = none := write?_of_pending hc
  have hlost : (c.account now effect d).lost = [] := by rw [lost_account, hwrite]
  have hnow := hsent _ (h.sent.append hlost ((flush_mem_account c now effect d).not.mpr hflush))
  refine h.carry ?_ ?_ ?_ (.inl ?_) hnow
  · simp [begun_account, hwrite, hc, hd]
  · simp [begun_account, written_account, lost_account, hwrite, h.split]
  · simp [accepted_account, hqueue]
  · simp [written_account, hwrite, htransport]

/-- A step that begins to write a frame, which may be a message taken from the queue. -/
theorem begins {f : Frame} {took : List Message} (hc : c.phase.pending = [])
    (hd : d.phase.pending = [f.encode])
    (hmessages : [f].filter (·.opcode.isMessage) = took.map Message.frame)
    (hqueue : c.queue = took ++ d.queue) (htransport : d.transport.written = c.transport.written)
    (hsent : ∀ later, later.accepted = log.accepted → c.phase.Sent c.session later frames taken →
      d.phase.Sent d.session later (frames ++ [f]) (taken ++ took)) :
    Sends d (log ++ c.account now effect d) (frames ++ [f]) (taken ++ took) := by
  have hwrite : c.write? now = none := write?_of_pending hc
  have hlost : (c.account now effect d).lost = [] := by rw [lost_account, hwrite]
  have haccepted : (log ++ c.account now effect d).accepted = log.accepted := by
    rw [Log.accepted_append, accepted_account, List.append_nil]
  have hflush : .flush ∉ c.account now effect d := by
    rw [flush_mem_account]
    rintro ⟨-, hdraining⟩
    rw [hdraining] at hd
    cases hd
  refine h.extend ?_ ?_ hmessages ?_ (.inl ?_) (hsent _ haccepted (h.sent.append hlost hflush))
  · simp [begun_account, hwrite, hc, hd]
  · simp [begun_account, written_account, lost_account, hwrite, h.split]
  · simp [accepted_account, hqueue]
  · simp [written_account, hwrite, htransport]

/-- A step that begins to write a frame of the session's own. -/
theorem utters {f : Frame} (hc : c.phase.pending = []) (hd : d.phase.pending = [f.encode])
    (hf : f.opcode.isMessage = false) (hqueue : d.queue = c.queue)
    (htransport : d.transport.written = c.transport.written)
    (hsent : ∀ later, later.accepted = log.accepted → c.phase.Sent c.session later frames taken →
      d.phase.Sent d.session later (frames ++ [f]) taken) :
    Sends d (log ++ c.account now effect d) (frames ++ [f]) taken := by
  have hsends : Sends d (log ++ c.account now effect d) (frames ++ [f]) (taken ++ []) := by
    refine h.begins hc hd (by simp [hf]) hqueue.symm htransport ?_
    rwa [List.append_nil]
  rwa [List.append_nil] at hsends

/-- A write is through. -/
theorem through {bytes : Octets} (hwrite : c.write? now = some (bytes, true))
    (hc : c.phase.pending = [bytes]) (hd : d.phase.pending = []) (hqueue : d.queue = c.queue)
    (htransport : d.transport.written = bytes :: c.transport.written) (hnone : log.lost = [])
    (hsent : ∀ log, c.phase.Sent c.session log frames taken →
      d.phase.Sent d.session log frames taken) :
    Sends d (log ++ c.account now effect d) frames taken := by
  have hlost : (c.account now effect d).lost = [] := by rw [lost_account, hwrite]
  have hflush : .flush ∉ c.account now effect d := by
    rw [flush_mem_account]
    rintro ⟨hwaiting, -⟩
    rw [hwaiting] at hc
    cases hc
  have hnow := hsent _ (h.sent.append hlost hflush)
  refine h.carry ?_ ?_ ?_ (.inl ?_) hnow
  · simp [begun_account, hwrite, hc, hd]
  · simp [begun_account, written_account, lost_account, hwrite, h.split, hnone]
  · simp [accepted_account, hqueue]
  · simp [written_account, hwrite, htransport]

/-- A write is given up, which is the end of all writing. -/
theorem loses {bytes : Octets} (hwrite : c.write? now = some (bytes, false))
    (hc : c.phase.pending = [bytes]) (ending : Ending) :
    Sends (c.shut now ending) (log ++ c.account now effect (c.shut now ending)) frames taken := by
  have hd : (c.shut now ending).phase.pending = [] := rfl
  refine h.carry ?_ ?_ ?_ (.inl ?_) fun _ hnone => ?_
  · simp [begun_account, hwrite, hc, hd]
  · simp [begun_account, written_account, lost_account, hwrite, h.split]
  · simp [accepted_account, shut]
  · simp [written_account, hwrite, shut]
  · simp [lost_account, hwrite] at hnone

/-- The task begins to flush its queue. -/
theorem heeds (hp : c.phase = .waiting) :
    Sends { c with phase := .draining } (log ++ c.account now none { c with phase := .draining })
      frames taken := by
  have hsent := h.sent
  rw [hp] at hsent
  have hwrite : c.write? now = none := write?_of_pending (by rw [hp]; rfl)
  have hlost : (c.account now none { c with phase := .draining }).lost = [] := by
    rw [lost_account, hwrite]
  have hflush : .flush ∈ log ++ c.account now none { c with phase := .draining } :=
    List.mem_append_right _ ((flush_mem_account ..).mpr ⟨hp, rfl⟩)
  refine h.carry ?_ ?_ ?_ (.inl ?_) ⟨hsent.1.append hlost, hflush⟩
  · simp [begun_account, hwrite, hp, Phase.pending]
  · simp [begun_account, written_account, lost_account, hwrite, h.split]
  · simp [accepted_account]
  · simp [written_account, hwrite]

end Step

section Acting

variable {session : Session} (h : Sends c log frames taken) (hp : c.phase = .acting)

include h hp

theorem writable_acting : Writable c.session log frames := by
  have hsent := h.sent
  rw [hp] at hsent
  exact hsent.1

theorem rest (hn : c.session.next = (none, session)) :
    Sends { c with session, phase := .waiting }
      (log ++ c.account now none { c with session, phase := .waiting }) frames taken := by
  have hflags := congrArg Prod.fst (Session.next_silent hn)
  refine h.silent (by rw [hp]; rfl) rfl rfl rfl (by rw [hp]; nofun) ?_
  rw [hp]
  exact fun _ h => ⟨h.1.withSession hflags, h.2⟩

theorem deliver {m : Message} (hn : c.session.next = (some (.deliver m), session)) :
    Sends { c with session } (log ++ c.account now effect { c with session }) frames taken := by
  obtain ⟨hflags, -⟩ | ⟨-, f, reason, -, hclose⟩ :=
    Session.next_of_open (h.writable_acting hp).session hn
  · refine h.silent (by rw [hp]; rfl) (by rw [hp]; rfl) rfl rfl (by rw [hp]; nofun) ?_
    rw [hp]
    exact fun _ h => ⟨h.1.withSession (congrArg Prod.fst hflags), h.2⟩
  · cases hclose

theorem reply {bytes : Octets} (hn : c.session.next = (some (.reply bytes), session)) :
    ∃ frames, Sends { c with session, phase := .writing bytes .acting }
      (log ++ c.account now none { c with session, phase := .writing bytes .acting })
      frames taken := by
  obtain ⟨payload, rfl⟩ := Session.next_reply hn
  obtain ⟨hflags, -⟩ | ⟨-, f, reason, -, hclose⟩ :=
    Session.next_of_open (h.writable_acting hp).session hn
  · refine ⟨frames ++ [.whole .pong payload], ?_⟩
    refine h.utters (by rw [hp]; rfl) rfl rfl rfl rfl fun _ _ hs => ?_
    rw [hp] at hs
    exact ⟨(hs.1.concat (fun h => by cases h)).withSession (congrArg Prod.fst hflags), hs.2⟩
  · cases hclose

/-- A session closes with a close frame, since none is out. -/
theorem close {answer : Option Octets} {reason : SessionEnd}
    (hn : c.session.next = (some (.close answer reason), session)) :
    ∃ f : Frame, answer = some f.encode ∧
      Sends ({ c with session }.sayFarewell now f.encode reason.ending)
        (log ++ c.account now none ({ c with session }.sayFarewell now f.encode reason.ending))
        (frames ++ [f]) taken := by
  obtain ⟨-, ⟨m, hm⟩ | ⟨f, -, hreply⟩⟩ | ⟨-, f, reason, hf, hclose⟩ :=
    Session.next_of_open (h.writable_acting hp).session hn
  · cases hm
  · cases hreply
  · cases hclose
    refine ⟨f, rfl, h.utters (by rw [hp]; rfl) rfl (by simp [Opcode.isMessage, hf]) rfl rfl ?_⟩
    intro _ _ hs
    rw [hp] at hs
    exact ⟨hs.1.lost, fun hflush => absurd hflush hs.2⟩

end Acting

/-- A message is taken from the queue to be written. -/
theorem takes (h : Sends c log frames taken) {r : Resume} (hp : c.phase = r.phase)
    (hr : r ≠ .acting) {m : Message} {queue : List Message} (hq : c.queue = m :: queue) :
    Sends ({ c with queue }.sendMessage m r)
      (log ++ c.account now none ({ c with queue }.sendMessage m r))
      (frames ++ [m.frame]) (taken ++ [m]) := by
  have hpending : c.phase.pending = [] := by rw [hp]; cases r <;> rfl
  have hwritable : Writable c.session log frames := by
    have hsent := h.sent
    rw [hp] at hsent
    cases r <;> exact hsent.1
  rw [sendMessage_of_open (c := { c with queue }) hwritable.session]
  refine h.begins hpending rfl (by simp [m.isMessage_frame]) hq rfl fun later _ hs => ?_
  rw [hp] at hs
  cases r with
  | acting => exact absurd rfl hr
  | waiting | draining => exact ⟨hs.1.concat m.frame_ne_close, hs.2⟩

/-- All that was accepted is taken as the close frame begins to be written. -/
theorem goesAway (h : Sends c log frames taken) (hp : c.phase = .draining) (hq : c.queue = [])
    {session : Session} :
    Sends ({ c with session }.sayFarewell now away.encode .disconnected)
      (log ++ c.account now none ({ c with session }.sayFarewell now away.encode .disconnected))
      (frames ++ [away]) taken := by
  have htaken : taken = log.accepted := by rw [← h.queued, hq, List.append_nil]
  refine h.utters (by rw [hp]; rfl) rfl rfl rfl rfl fun later hlater hs => ?_
  rw [hp] at hs
  refine ⟨hs.1.lost, fun _ => ⟨frames, rfl, hs.1.frames, ?_⟩⟩
  rw [htaken, ← hlater]
  exact later.accepted_early

theorem write (h : Sends c log frames taken) {bytes : Octets} {resume : Resume}
    (hp : c.phase = .writing bytes resume) {transport : Transport}
    (hw : c.transport.write bytes = .done transport) :
    Sends { c with transport, phase := resume.phase }
      (log ++ c.account now none { c with transport, phase := resume.phase }) frames taken := by
  have hwrite : c.write? now = some (bytes, true) := by simp [write?, hp, hw]
  have hsent := h.sent
  rw [hp] at hsent
  cases Transport.eq_of_write_done hw
  cases resume
  all_goals
    refine h.through hwrite (by rw [hp]; rfl) rfl rfl rfl hsent.1.lost ?_
    rw [hp]
    exact fun _ => id

theorem farewell (h : Sends c log frames taken) {bytes : Octets} {deadline : Nat}
    {ending : Ending} (hp : c.phase = .farewell bytes deadline ending) {transport : Transport}
    (hw : c.transport.write bytes = .done transport) :
    Sends ({ c with transport }.shut now ending)
      (log ++ c.account now none ({ c with transport }.shut now ending)) frames taken := by
  have hwrite : c.write? now = some (bytes, true) := by simp [write?, hp, hw]
  have hsent := h.sent
  rw [hp] at hsent
  cases Transport.eq_of_write_done hw
  refine h.through hwrite (by rw [hp]; rfl) rfl rfl rfl hsent.1 ?_
  rw [hp]
  exact fun _ hs hflush _ => hs.2 hflush

theorem step (h : Sends c log frames taken) (ht : c.Transition now isHeld effect d) :
    ∃ frames taken, Sends d (log ++ c.account now effect d) frames taken := by
  cases ht with
  | enter hp | greet hp =>
    refine ⟨frames, taken, h.silent (by rw [hp]; rfl) rfl rfl rfl (by rw [hp]; nofun) ?_⟩
    rw [hp]
    exact fun _ => id
  | rest hp hn => exact ⟨frames, taken, h.rest hp hn⟩
  | deliver hp hn => exact ⟨frames, taken, h.deliver hp hn⟩
  | reply hp hn =>
    obtain ⟨frames, h⟩ := h.reply hp hn
    exact ⟨frames, taken, h⟩
  | close hp hn =>
    obtain ⟨f, hanswer, h⟩ := h.close hp hn
    cases hanswer
    exact ⟨_, taken, h⟩
  | acknowledge hp hn =>
    obtain ⟨-, ⟨m, hm⟩ | ⟨f, -, hreply⟩⟩ | ⟨-, f, reason, -, hclose⟩ :=
      Session.next_of_open (h.writable_acting hp).session hn
    · cases hm
    · cases hreply
    · cases hclose
  | write hp hw => exact ⟨frames, taken, h.write hp hw⟩
  | @writeFails bytes resume hp hw =>
    have hwrite : c.write? now = some (bytes, false) := by simp [write?, hp, hw]
    exact ⟨frames, taken, h.loses hwrite (by rw [hp]; rfl) _⟩
  | heed hp => exact ⟨frames, taken, h.heeds hp⟩
  | take hp _ hq => exact ⟨_, _, h.takes (r := .waiting) hp nofun hq⟩
  | hear hp _ _ hr =>
    obtain ⟨-, hwritten, -, -⟩ := Transport.eq_of_read_bytes hr
    refine ⟨frames, taken, h.silent (by rw [hp]; rfl) rfl rfl hwritten nofun ?_⟩
    rw [hp]
    exact fun _ hs => ⟨hs.1.withSession rfl, hs.2⟩
  | hangUp hp _ _ hr =>
    obtain ⟨rfl, -, -⟩ := Transport.eq_of_read_end hr
    refine ⟨frames, taken, h.silent (by rw [hp]; rfl) rfl rfl rfl nofun ?_⟩
    rw [hp]
    exact fun _ hs hflush => absurd hflush hs.2
  | flush hp hq => exact ⟨_, _, h.takes (r := .draining) hp nofun hq⟩
  | goAway hp hq hs =>
    have hsent := h.sent
    rw [hp] at hsent
    rw [initiateClose_of_open hsent.1.session] at hs
    cases hs
    exact ⟨_, taken, h.goesAway hp hq⟩
  | fallSilent hp _ hs =>
    have hsent := h.sent
    rw [hp] at hsent
    rw [initiateClose_of_open hsent.1.session] at hs
    cases hs
  | farewell hp hw => exact ⟨frames, taken, h.farewell hp hw⟩
  | @forgo bytes deadline ending hp hw =>
    have hwrite : c.write? now = some (bytes, false) := by
      rcases hw with hw | ⟨hw, hlate⟩ <;> simp [write?, *]
    exact ⟨frames, taken, h.loses hwrite (by rw [hp]; rfl) _⟩
  | shutDown hp hw =>
    cases Transport.eq_of_shut_done hw
    refine ⟨frames, taken, h.silent (by rw [hp]; rfl) rfl rfl rfl (by rw [hp]; nofun) ?_⟩
    rw [hp]
    exact fun _ => id
  | abandon hp | leave hp | part hp =>
    refine ⟨frames, taken, h.silent (by rw [hp]; rfl) rfl rfl rfl (by rw [hp]; nofun) ?_⟩
    rw [hp]
    exact fun _ => id

theorem fate (h : Sends c log frames taken) {more : Log} (hfate : c.Fate now isHeld more d) :
    ∃ frames taken, Sends d (log ++ more) frames taken := by
  cases hfate with
  | step ht => exact h.step ht
  | cancel =>
    exact ⟨frames, taken, h.of_same (d := c.cancel) rfl rfl rfl rfl rfl nofun
      (List.append_nil _).symm (.inl rfl)⟩
  | transport t ht =>
    exact ⟨frames, taken, h.of_same (d := { c with transport := t }) rfl rfl rfl rfl rfl nofun
      (List.append_nil _).symm ht⟩
  | accept m hd =>
    obtain ⟨-, rfl⟩ := eq_of_enqueue? hd
    exact ⟨frames, taken, h.of_same (d := { c with queue := c.queue ++ [m] }) rfl rfl rfl rfl rfl
      (by simp) rfl (.inl rfl)⟩
  | refuse m =>
    exact ⟨frames, taken, h.of_same rfl rfl rfl rfl rfl (by simp) (List.append_nil _).symm
      (.inl rfl)⟩

theorem opened (id : SessionId) (maxFrame : Nat) (closeTimeout : Duration) (leftover : Octets)
    (isCancelled : Bool) :
    Sends (.opened id maxFrame closeTimeout leftover isCancelled) [] [] [] where
  begun := rfl
  split := rfl
  messages := rfl
  queued := rfl
  transport := List.suffix_rfl
  sent := ⟨⟨rfl, nofun, rfl⟩, nofun⟩

theorem lasting : Journal.Lasting fun c log => ∃ frames taken, Sends c log frames taken where
  opened id maxFrame closeTimeout leftover isCancelled :=
    ⟨[], [], opened id maxFrame closeTimeout leftover isCancelled⟩
  stable c log h now isHeld more d hfate := by
    obtain ⟨frames, taken, h⟩ := h
    exact h.fate hfate

theorem taken_prefix (h : Sends c log frames taken) : taken <+: log.accepted := by
  rw [← h.queued]
  exact List.prefix_append _ _

/-- What was written is whole frames, with messages among them as they were accepted. -/
theorem written (h : Sends c log frames taken) :
    ∃ (frames : List Frame) (sent : List Message), log.written = frames.map Frame.encode ∧
      frames.filter (·.opcode.isMessage) = sent.map Message.frame ∧ sent <+: log.accepted := by
  have hwritten : log.written <+: frames.map Frame.encode := by
    rw [← h.begun, h.split, List.append_assoc]
    exact List.prefix_append _ _
  obtain ⟨frames', hframes, hwritten⟩ := List.prefix_map_iff.mp hwritten
  have hmessages := hframes.filter (·.opcode.isMessage)
  rw [h.messages] at hmessages
  obtain ⟨sent, hsent, hmessages⟩ := List.prefix_map_iff.mp hmessages
  exact ⟨frames', sent, hwritten, hmessages, hsent.trans h.taken_prefix⟩

/-- Behind a flush in which no write was lost, all that was accepted before it is out, and
then the close frame. -/
theorem flushed (h : Sends c log frames taken) (hflush : .flush ∈ log) (hp : c.phase = .finished)
    (hlost : log.lost = []) :
    ∃ (frames : List Frame) (sent : List Message),
      log.written = (frames ++ [Connection.away]).map Frame.encode ∧
      (∀ f ∈ frames, f.opcode ≠ .close) ∧
      frames.filter (·.opcode.isMessage) = sent.map Message.frame ∧
      log.early.accepted <+: sent ∧ sent <+: log.accepted := by
  have hsent := h.sent
  have hbegun := h.begun
  rw [hp] at hsent hbegun
  obtain ⟨sent, rfl, hframes, hearly⟩ := hsent hflush hlost
  have hmessages := h.messages
  rw [List.filter_append] at hmessages
  refine ⟨sent, taken, ?_, hframes, ?_, hearly, h.taken_prefix⟩
  · rw [← hbegun, h.split, hlost]
    simp [Phase.pending]
  · rw [← hmessages]
    exact (List.append_nil _).symm

end Sends

namespace Journal

/-- What is written of an offer is what the sender is told. -/
theorem of_send {j : Journal} {n : Nat} {c : Connection} (hc : j.board.connection? n = some c)
    (m : Message) : (j.move (.send n m)).of n = j.of n ++ [.offer m (j.board.send n m).1] := by
  rw [of_move]
  unfold Switchboard.entries Switchboard.send
  dsimp only
  rw [hc, Option.bind_some]
  cases hq : c.enqueue? m <;> simp [aboutOf, hq]

/-- However messages are offered while a connection's task goes on: the text and binary
frames that it writes are messages that were accepted, from the first on, in their order and
each once. A task that has come to its end through the flush, with no write lost, has written
all that was accepted before the flush began, then one close frame, and writes no more. -/
theorem run_sends (capacity : Nat) (hcapacity : 0 < capacity) (moves : List Switchboard.Move)
    (n : Nat) (c : Connection)
    (hc : ((ofCapacity capacity hcapacity).run moves).board.connection? n = some c) :
    let j := (ofCapacity capacity hcapacity).run moves
    let log := j.of n
    (∀ m, (j.move (.send n m)).of n = log ++ [.offer m (j.board.send n m).1]) ∧
    c.transport.written.reverse <:+ log.written ∧
    (∃ (frames : List Frame) (sent : List Message), log.written = frames.map Frame.encode ∧
      frames.filter (·.opcode.isMessage) = sent.map Message.frame ∧ sent <+: log.accepted) ∧
    (.flush ∈ log → c.isFinished = true → log.lost = [] →
      (∃ (frames : List Frame) (sent : List Message),
        log.written = (frames ++ [Connection.away]).map Frame.encode ∧
        (∀ f ∈ frames, f.opcode ≠ .close) ∧
        frames.filter (·.opcode.isMessage) = sent.map Message.frame ∧
        log.early.accepted <+: sent ∧ sent <+: log.accepted) ∧
      ∀ more, ((j.run more).of n).begun = log.begun) := by
  intro j log
  obtain ⟨frames, taken, hsends⟩ := Sends.lasting.run capacity hcapacity moves hc
  refine ⟨fun m => ?_, hsends.transport, hsends.written, fun hflush hfin hlost =>
    ⟨hsends.flushed hflush (of_decide_eq_true hfin) hlost, fun more => ?_⟩⟩
  · exact of_send hc m
  · obtain ⟨-, -, -, refused, hrefused⟩ := (stable_finished log).run hc
      ⟨of_decide_eq_true hfin, [], (List.append_nil _).symm⟩ more
    have hnone : Log.begun (refused.map (.offer · false)) = [] := by
      simp [Log.begun, Entry.begun?]
    rw [hrefused, Log.begun_append, hnone, List.append_nil]

/-- A connection is cancelled with one message in its queue, is offered another while it
flushes and a third when it has gone. -/
theorem run_sends_cancelled :
    let moves := .openConnection "a:1" 125 (.ofSeconds 1) [] false :: List.replicate 3 (.step 0) ++
      [.send 0 (.text "hi"), .cancel 0, .step 0, .send 0 (.binary [7])] ++
      List.replicate 10 (.step 0) ++ [.send 0 (.text "late")]
    let log := ((ofCapacity 1 Nat.one_pos).run moves).of 0
    .flush ∈ log ∧ log.early.accepted = [.text "hi"] ∧
      log.accepted = [.text "hi", .binary [7]] ∧ log.lost = [] ∧
      ∃ (frames : List Frame) (sent : List Message),
        log.written = (frames ++ [Connection.away]).map Frame.encode ∧
        (∀ f ∈ frames, f.opcode ≠ .close) ∧
        frames.filter (·.opcode.isMessage) = sent.map Message.frame ∧
        [.text "hi"] <+: sent ∧ sent <+: [.text "hi", .binary [7]] := by
  intro moves log
  have hconnection : (((ofCapacity 1 Nat.one_pos).run moves).board.connection? 0).any
      Connection.isFinished := by decide +kernel
  have hflush : .flush ∈ log := by decide +kernel
  have hearly : log.early.accepted = [.text "hi"] := by decide +kernel
  have haccepted : log.accepted = [.text "hi", .binary [7]] := by decide +kernel
  have hlost : log.lost = [] := by decide +kernel
  obtain ⟨c, hc, hfin⟩ := (Option.any_eq_true _ _).mp hconnection
  obtain ⟨hall, -⟩ := (run_sends 1 Nat.one_pos moves 0 c hc).2.2.2 hflush hfin hlost
  rw [hearly, haccepted] at hall
  exact ⟨hflush, hearly, haccepted, hlost, hall⟩

end Journal

end WebSocketHost
