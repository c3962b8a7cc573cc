import WebSocketHost.Proofs.Connection.Service

/-! A connection that nobody closes from this side does what its session says. `Faithful`
relates the task at any point to the session fed with all that has been heard: what it has
done and what is ahead of it together are the session's actions. -/
namespace WebSocketHost

/-- What is being written. -/
def Phase.pending : Phase → List Octets
  | writing bytes _ | farewell bytes _ _ => [bytes]
  | _ => []

/-- What has been told by a phase, all those actions done. -/
def Phase.told (id : SessionId) (done : List Action) : Phase → List Event
  | entering | greeting => []
  | finished => story id done
  | _ => tale id done

/-- No close frame is in sight. -/
structure Unclosed (session : Session) (done : List Action) (out : List Outgoing) : Prop where
  session : session.awaitingClose = false
  actions : ∀ reply reason, .close reply reason ∉ done
  frames : ∀ o ∈ out, o.frame.opcode ≠ .close

/-- Nothing is left to do, now or later: the session has closed, or the stream has ended. -/
def Over (v : Service) (done : List Action) : Prop :=
  (v.connection.session.finished = true ∧ ∃ reply reason, .close reply reason ∈ done) ∨
    v.connection.transport.horizon ≠ .more ∧ v.ahead.1 = []

/-- No frame is behind a close frame. -/
structure Closed (v : Service) (done : List Action) (out : List Outgoing) (ending : Ending) :
    Prop where
  isOver : Over v done
  ending : ending = .ofActions done
  frames : ∀ o ∈ out.dropLast, o.frame.opcode ≠ .close

/-- What is known in a phase. The task never comes to drain its queue. -/
def Stands (v : Service) (done : List Action) (out : List Outgoing) : Phase → Prop
  | .entering | .greeting => done = [] ∧ Unclosed v.connection.session done out
  | .acting | .writing _ .acting => Unclosed v.connection.session done out
  | .waiting | .writing _ .waiting =>
    v.connection.session.step = none ∧ Unclosed v.connection.session done out
  | .draining | .writing _ .draining => False
  | .farewell _ _ ending | .shutting _ ending | .leaving ending | .parting ending =>
    Closed v done out ending
  | .finished => ∃ ending, Closed v done out ending

/-- The actions done and the frames handed to the transport account for everything. -/
structure Faithful (id : SessionId) (maxFrame : Nat) (v : Service) (done : List Action)
    (out : List Outgoing) : Prop where
  named : v.connection.id = id
  free : v.connection.isCancelled = false
  actions : (Session.ofMaxFrame maxFrame).feed v.heard = (done ++ v.ahead.1, v.ahead.2)
  written : v.written ++ v.connection.phase.pending = out.map (·.frame.encode)
  messages : out.filterMap Outgoing.message? ++ v.connection.queue = v.accepted
  answers : (out.filterMap Outgoing.answer?).map Frame.encode = done.filterMap Action.bytes?
  told : v.told = v.connection.phase.told id done
  stands : Stands v done out v.connection.phase

/-- A change around the task that leaves its session as it is. -/
theorem Stands.of_same {v w : Service} {done : List Action} {out : List Outgoing} {phase : Phase}
    (h : Stands v done out phase) (hsession : w.connection.session = v.connection.session)
    (hover : Over v done → Over w done) : Stands w done out phase := by
  have hclosed : ∀ ending, Closed v done out ending → Closed w done out ending :=
    fun ending hc => ⟨hover hc.isOver, hc.ending, hc.frames⟩
  cases phase with
  | writing bytes resume =>
    cases resume
    all_goals
      simp only [Stands, hsession]
      exact h
  | farewell | shutting | leaving | parting => exact hclosed _ h
  | finished =>
    obtain ⟨ending, h⟩ := h
    exact ⟨ending, hclosed ending h⟩
  | _ =>
    simp only [Stands, hsession]
    exact h

theorem Ending.ofActions_concat_close (done : List Action) (reply : Option Octets)
    (reason : SessionEnd) : ofActions (done ++ [.close reply reason]) = reason.ending := by
  rw [ofActions, List.getLast?_concat]

theorem Ending.ofActions_of_unclosed {done : List Action}
    (h : ∀ reply reason, .close reply reason ∉ done) : ofActions done = .disconnected := by
  unfold ofActions
  split
  · next reply reason hlast => exact absurd (List.mem_of_getLast? hlast) (h reply reason)
  · rfl

theorem tale_concat (id : SessionId) (done : List Action) (a : Action) :
    tale id (done ++ [a]) = tale id done ++ (a.event? id).toList := by
  rw [tale, List.filterMap_append, tale, List.cons_append]
  cases h : a.event? id <;> simp [h]

namespace Unclosed

variable {session next : Session} {done : List Action} {out : List Outgoing}

/-- Neither an action that closes nothing nor a frame that is no close frame changes this. -/
theorem concat (h : Unclosed session done out) (hnext : next.awaitingClose = false)
    {actions : List Action} (ha : ∀ reply reason, .close reply reason ∉ actions)
    {frames : List Outgoing} (hf : ∀ o ∈ frames, o.frame.opcode ≠ .close) :
    Unclosed next (done ++ actions) (out ++ frames) := by
  refine ⟨hnext, ?_, ?_⟩
  · intro reply reason hmem
    rcases List.mem_append.mp hmem with hmem | hmem
    · exact h.actions reply reason hmem
    · exact ha reply reason hmem
  · intro o ho
    rcases List.mem_append.mp ho with ho | ho
    · exact h.frames o ho
    · exact hf o ho

theorem deliver (h : Unclosed session done out) (hnext : next.awaitingClose = false)
    (m : Message) : Unclosed next (done ++ [.deliver m]) out := by
  have hconcat : Unclosed next (done ++ [.deliver m]) (out ++ []) :=
    h.concat hnext (by simp) nofun
  rwa [List.append_nil] at hconcat

theorem reply (h : Unclosed session done out) (hnext : next.awaitingClose = false) {f : Frame}
    (hf : f.opcode ≠ .close) :
    Unclosed next (done ++ [.reply f.encode]) (out ++ [.answer f]) := by
  refine h.concat hnext (by simp) ?_
  intro o ho
  rw [List.mem_singleton.mp ho]
  exact hf

theorem take (h : Unclosed session done out) (m : Message) :
    Unclosed session done (out ++ [.message m]) := by
  have hconcat : Unclosed session (done ++ []) (out ++ [.message m]) := by
    refine h.concat h.session (by simp) fun o ho => ?_
    rw [List.mem_singleton.mp ho]
    cases m <;> exact nofun
  rwa [List.append_nil] at hconcat

end Unclosed

namespace Faithful

open Connection (Transition transition_of_step)

variable {id : SessionId} {maxFrame : Nat} {v : Service} {done : List Action}
  {out : List Outgoing} {c : Connection} {effect : Option Effect}

theorem opened (id : SessionId) (maxFrame : Nat) (closeTimeout : Duration) (leftover : Octets) :
    Faithful id maxFrame (.opened id maxFrame closeTimeout leftover) [] [] := by
  refine ⟨rfl, rfl, ?_, rfl, rfl, rfl, rfl, rfl, rfl, nofun, nofun⟩
  exact congrArg Session.drain (Session.receive_nil _).symm

/-- An action taken from the session goes from what is ahead to what is done. -/
theorem actions_of_next (h : Faithful id maxFrame v done out) {session : Session} {a : Action}
    (hn : v.connection.session.next = (some a, session)) :
    (Session.ofMaxFrame maxFrame).feed v.heard =
      ((done ++ [a]) ++ (session.receive v.unread).drain.1, (session.receive v.unread).drain.2) := by
  rw [h.actions, Service.ahead, Session.drain_receive_of_next_some hn, List.append_assoc]
  rfl

/-- A step that has nothing told and changes nothing about what is written. -/
theorem silent (h : Faithful id maxFrame v done out) (heffect : effect.bind Effect.event? = none)
    (hid : c.id = v.connection.id) (hcancel : c.isCancelled = v.connection.isCancelled)
    (hqueue : c.queue = v.connection.queue)
    (hwritten : c.transport.written = v.connection.transport.written)
    (hpending : c.phase.pending = v.connection.phase.pending)
    (htold : c.phase.told id done = v.connection.phase.told id done)
    (hahead : (v.after effect c).ahead = v.ahead)
    (hstands : Stands (v.after effect c) done out c.phase) :
    Faithful id maxFrame (v.after effect c) done out := by
  obtain ⟨named, free, actions, written, messages, answers, told, _⟩ := h
  refine ⟨hid.trans named, hcancel.trans free, ?_, ?_, ?_, answers, ?_, hstands⟩
  · rw [hahead]
    exact actions
  · show c.transport.written.reverse ++ c.phase.pending = _
    rw [hwritten, hpending]
    exact written
  · show _ ++ c.queue = _
    rw [hqueue]
    exact messages
  · show v.told ++ (effect.bind Effect.event?).toList = c.phase.told id done
    rw [heffect, htold]
    exact (List.append_nil v.told).trans told

/-- What is written is out, and the task goes on. -/
theorem wrote (h : Faithful id maxFrame v done out) {bytes : Octets}
    (hid : c.id = v.connection.id) (hcancel : c.isCancelled = v.connection.isCancelled)
    (hqueue : c.queue = v.connection.queue)
    (hbytes : v.connection.phase.pending = [bytes])
    (hwritten : c.transport.written = bytes :: v.connection.transport.written)
    (hpending : c.phase.pending = [])
    (htold : c.phase.told id done = v.connection.phase.told id done)
    (hahead : (v.after none c).ahead = v.ahead)
    (hstands : Stands (v.after none c) done out c.phase) :
    Faithful id maxFrame (v.after none c) done out := by
  obtain ⟨named, free, actions, written, messages, answers, told, _⟩ := h
  refine ⟨hid.trans named, hcancel.trans free, ?_, ?_, ?_, answers, ?_, hstands⟩
  · rw [hahead]
    exact actions
  · show c.transport.written.reverse ++ c.phase.pending = _
    rw [hwritten, hpending, List.append_nil, List.reverse_cons, ← hbytes]
    exact written
  · show _ ++ c.queue = _
    rw [hqueue]
    exact messages
  · show v.told ++ [] = c.phase.told id done
    rw [htold, List.append_nil]
    exact told

/-- A frame goes to be written: a message from the queue, or what an action calls for. -/
theorem writes (h : Faithful id maxFrame v done out) {actions : List Action} {o : Outgoing}
    (hid : c.id = v.connection.id) (hcancel : c.isCancelled = v.connection.isCancelled)
    (hpending : v.connection.phase.pending = [])
    (hwritten : c.transport.written = v.connection.transport.written)
    (hbytes : c.phase.pending = [o.frame.encode])
    (hactions : v.ahead = (actions ++ (v.after none c).ahead.1, (v.after none c).ahead.2))
    (hqueue : v.connection.queue = o.message?.toList ++ c.queue)
    (hanswers : actions.filterMap Action.bytes? = o.answer?.toList.map Frame.encode)
    (htold : c.phase.told id (done ++ actions) = v.connection.phase.told id done)
    (hstands : Stands (v.after none c) (done ++ actions) (out ++ [o]) c.phase) :
    Faithful id maxFrame (v.after none c) (done ++ actions) (out ++ [o]) := by
  refine ⟨hid.trans h.named, hcancel.trans h.free, ?_, ?_, ?_, ?_, ?_, hstands⟩
  · rw [List.append_assoc]
    exact h.actions.trans (by rw [hactions])
  · have hwas := h.written
    rw [hpending, List.append_nil] at hwas
    show c.transport.written.reverse ++ c.phase.pending = _
    rw [hwritten, hbytes, List.map_append]
    exact congrArg (· ++ [o.frame.encode]) hwas
  · show (out ++ [o]).filterMap Outgoing.message? ++ c.queue = v.accepted
    have hqueued := h.messages
    rw [hqueue, ← List.append_assoc] at hqueued
    rw [List.filterMap_append]
    cases o <;> exact hqueued
  · rw [List.filterMap_append, List.map_append, h.answers, List.filterMap_append, hanswers]
    cases o <;> rfl
  · show v.told ++ [] = c.phase.told id _
    rw [htold, List.append_nil]
    exact h.told

/-! A step from each phase. -/

theorem greet (h : Faithful id maxFrame v done out) (hp : v.connection.phase = .greeting) :
    Faithful id maxFrame
      (v.after (some (.emit (.connected v.connection.id))) { v.connection with phase := .acting })
      done out := by
  have hwritten := h.written
  have htold := h.told
  have hstands := h.stands
  rw [hp] at hwritten htold hstands
  obtain ⟨rfl, hopen⟩ := hstands
  refine ⟨h.named, h.free, h.actions, hwritten, h.messages, h.answers, ?_, hopen⟩
  show v.told ++ [.connected v.connection.id] = tale id []
  rw [htold, h.named]
  rfl

section Acting

variable {session : Session} (h : Faithful id maxFrame v done out)
  (hp : v.connection.phase = .acting)

include h hp

theorem unclosed : Unclosed v.connection.session done out := by
  have hstands := h.stands
  rwa [hp] at hstands

theorem rest (hn : v.connection.session.next = (none, session)) :
    Faithful id maxFrame (v.after none { v.connection with session, phase := .waiting })
      done out := by
  have hopen := h.unclosed hp
  have hawait : session.awaitingClose = false :=
    (congrArg Prod.fst (Session.next_silent hn)).trans hopen.session
  refine h.silent rfl rfl rfl rfl rfl (by rw [hp]; rfl) (by rw [hp]; rfl) ?_
    ⟨Session.step_of_next_none hn, hawait, hopen.actions, hopen.frames⟩
  exact (Session.drain_receive_of_next_none hn v.unread).symm

theorem deliver {m : Message} (hn : v.connection.session.next = (some (.deliver m), session)) :
    Faithful id maxFrame
      (v.after (some (.emit (m.event v.connection.id))) { v.connection with session })
      (done ++ [.deliver m]) out := by
  have hopen := h.unclosed hp
  have hwritten := h.written
  have htold := h.told
  rw [hp] at htold
  obtain ⟨hflags, _⟩ | ⟨_, f, reason, _, hclose⟩ := Session.next_of_open hopen.session hn
  · refine ⟨h.named, h.free, h.actions_of_next hn, hwritten, h.messages, ?_, ?_, ?_⟩
    · rw [List.filterMap_append, h.answers]
      exact (List.append_nil _).symm
    · show v.told ++ [m.event v.connection.id] = v.connection.phase.told id _
      rw [hp, htold, h.named]
      exact (tale_concat id done (.deliver m)).symm
    · show Stands _ _ _ v.connection.phase
      rw [hp]
      exact hopen.deliver ((congrArg Prod.fst hflags).trans hopen.session) m
  · cases hclose

theorem reply {bytes : Octets} (hn : v.connection.session.next = (some (.reply bytes), session)) :
    ∃ f, Faithful id maxFrame
      (v.after none { v.connection with session, phase := .writing bytes .acting })
      (done ++ [.reply bytes]) (out ++ [.answer f]) := by
  have hopen := h.unclosed hp
  obtain ⟨hflags, ⟨m, hm⟩ | ⟨f, hf, hreply⟩⟩ | ⟨_, f, reason, _, hclose⟩ :=
    Session.next_of_open hopen.session hn
  · cases hm
  · cases hreply
    refine ⟨f, h.writes (o := .answer f) rfl rfl (by rw [hp]; rfl) rfl rfl ?_ rfl rfl ?_
      (hopen.reply ((congrArg Prod.fst hflags).trans hopen.session) hf)⟩
    · exact Session.drain_receive_of_next_some hn v.unread
    · show tale id (done ++ [.reply f.encode]) = _
      rw [hp, tale_concat]
      exact List.append_nil _
  · cases hclose

theorem close {reply : Option Octets} {reason : SessionEnd}
    (hn : v.connection.session.next = (some (.close reply reason), session)) :
    ∃ f : Frame, reply = some f.encode ∧ Faithful id maxFrame
      (v.after none ({ v.connection with session }.sayFarewell v.now f.encode reason.ending))
      (done ++ [.close (some f.encode) reason]) (out ++ [.answer f]) := by
  have hopen := h.unclosed hp
  obtain ⟨_, ⟨m, hm⟩ | ⟨f, _, hreply⟩⟩ | ⟨hfin, f, reason, hf, hclose⟩ :=
    Session.next_of_open hopen.session hn
  · cases hm
  · cases hreply
  · cases hclose
    have hframes : ∀ o ∈ (out ++ [Outgoing.answer f]).dropLast, o.frame.opcode ≠ .close := by
      rw [List.dropLast_concat]
      exact hopen.frames
    refine ⟨f, rfl, h.writes (o := .answer f) rfl rfl (by rw [hp]; rfl) rfl rfl ?_ rfl rfl ?_
      ⟨.inl ⟨hfin, _, _, List.mem_append_right done List.mem_cons_self⟩,
        (Ending.ofActions_concat_close _ _ _).symm, hframes⟩⟩
    · exact Session.drain_receive_of_next_some hn v.unread
    · show tale id (done ++ [.close (some f.encode) reason]) = _
      rw [hp, tale_concat]
      exact List.append_nil _

end Acting

section Waiting

variable {transport : Transport} (h : Faithful id maxFrame v done out)
  (hp : v.connection.phase = .waiting)

include h hp

theorem resting :
    v.connection.session.step = none ∧ Unclosed v.connection.session done out := by
  have hstands := h.stands
  rwa [hp] at hstands

theorem take {m : Message} {queue : List Message} (hq : v.connection.queue = m :: queue) :
    Faithful id maxFrame (v.after none ({ v.connection with queue }.sendMessage m .waiting))
      done (out ++ [.message m]) := by
  obtain ⟨hstep, hopen⟩ := h.resting hp
  have hsend : { v.connection with queue }.sendMessage m .waiting =
      { v.connection with queue, phase := .writing m.frame.encode .waiting } := by
    simp [Connection.sendMessage, Session.encode?, hopen.session]
  have hwrites : Faithful id maxFrame
      (v.after none { v.connection with queue, phase := .writing m.frame.encode .waiting })
      (done ++ []) (out ++ [.message m]) :=
    h.writes rfl rfl (by rw [hp]; rfl) rfl rfl rfl hq rfl (by rw [List.append_nil, hp]; rfl)
      (by rw [List.append_nil]; exact ⟨hstep, hopen.take m⟩)
  rw [hsend]
  rwa [List.append_nil] at hwrites

theorem hear {chunk : Octets} (hr : v.connection.transport.read = some (.bytes chunk, transport)) :
    Faithful id maxFrame
      (v.after none { v.connection with
        transport, session := v.connection.session.receive chunk, phase := .acting })
      done out := by
  obtain ⟨_, hopen⟩ := h.resting hp
  obtain ⟨hincoming, hwritten, _, _⟩ := Transport.eq_of_read_bytes hr
  refine h.silent rfl rfl rfl rfl hwritten (by rw [hp]; rfl) (by rw [hp]; rfl) ?_
    ⟨hopen.session, hopen.actions, hopen.frames⟩
  have hunread : v.unread = chunk ++ transport.incoming.flatten := hincoming
  show ((v.connection.session.receive chunk).receive transport.incoming.flatten).drain =
    (v.connection.session.receive v.unread).drain
  rw [hunread, Session.receive_receive]

theorem hangUp (hr : v.connection.transport.read = some (.ended, transport) ∨
      v.connection.transport.read = some (.failed, transport)) :
    Faithful id maxFrame
      (v.after none ({ v.connection with transport }.shut v.now .disconnected)) done out := by
  obtain ⟨hstep, hopen⟩ := h.resting hp
  obtain ⟨rfl, hincoming, hhorizon⟩ := Transport.eq_of_read_end hr
  have hahead : v.ahead.1 = [] := by
    rw [Service.ahead, Service.unread, hincoming, List.flatten_nil, Session.receive_nil,
      Session.drain_of_step_none hstep]
  exact h.silent rfl rfl rfl rfl rfl (by rw [hp]; rfl) (by rw [hp]; rfl) rfl
    ⟨.inr ⟨hhorizon, hahead⟩, (Ending.ofActions_of_unclosed hopen.actions).symm,
      fun o ho => hopen.frames o (List.dropLast_subset out ho)⟩

end Waiting

theorem write (h : Faithful id maxFrame v done out) {bytes : Octets} {resume : Resume}
    (hp : v.connection.phase = .writing bytes resume) {transport : Transport}
    (hw : v.connection.transport.write bytes = .done transport) :
    Faithful id maxFrame (v.after none { v.connection with transport, phase := resume.phase })
      done out := by
  have hstands := h.stands
  rw [hp] at hstands
  cases Transport.eq_of_write_done hw
  cases resume with
  | acting => exact h.wrote rfl rfl rfl (by rw [hp]; rfl) rfl rfl (by rw [hp]; rfl) rfl hstands
  | waiting => exact h.wrote rfl rfl rfl (by rw [hp]; rfl) rfl rfl (by rw [hp]; rfl) rfl hstands
  | draining => exact hstands.elim

section Closing

variable {ending : Ending} (h : Faithful id maxFrame v done out)

include h

theorem farewell {bytes : Octets} {deadline : Nat}
    (hp : v.connection.phase = .farewell bytes deadline ending) {transport : Transport}
    (hw : v.connection.transport.write bytes = .done transport) :
    Faithful id maxFrame (v.after none ({ v.connection with transport }.shut v.now ending))
      done out := by
  have hclosed := h.stands
  rw [hp] at hclosed
  cases Transport.eq_of_write_done hw
  exact h.wrote rfl rfl rfl (by rw [hp]; rfl) rfl rfl (by rw [hp]; rfl) rfl
    ⟨hclosed.isOver, hclosed.ending, hclosed.frames⟩

theorem part (hp : v.connection.phase = .parting ending) :
    Faithful id maxFrame
      (v.after (some (.emit (ending.event v.connection.id)))
        { v.connection with phase := .finished })
      done out := by
  have hwritten := h.written
  have htold := h.told
  have hclosed := h.stands
  rw [hp] at hwritten htold hclosed
  refine ⟨h.named, h.free, h.actions, hwritten, h.messages, h.answers, ?_,
    ending, hclosed.isOver, hclosed.ending, hclosed.frames⟩
  show v.told ++ [ending.event v.connection.id] = story id done
  rw [htold, h.named, hclosed.ending]
  rfl

end Closing

/-- What a step makes of the service. -/
theorem transition (h : Faithful id maxFrame v done out) (hfails : v.failsWrite = false)
    (ht : Transition v.connection v.now true effect c) :
    ∃ done' out', Faithful id maxFrame (v.after effect c) done' out' := by
  have hstands := h.stands
  cases ht with
  | enter hp =>
    rw [hp] at hstands
    exact ⟨done, out,
      h.silent rfl rfl rfl rfl rfl (by rw [hp]; rfl) (by rw [hp]; rfl) rfl hstands⟩
  | greet hp => exact ⟨done, out, h.greet hp⟩
  | rest hp hn => exact ⟨done, out, h.rest hp hn⟩
  | @deliver hp _ m hn => exact ⟨done ++ [.deliver m], out, h.deliver hp hn⟩
  | @reply hp _ bytes hn =>
    obtain ⟨f, hreply⟩ := h.reply hp hn
    exact ⟨done ++ [.reply bytes], out ++ [.answer f], hreply⟩
  | close hp hn =>
    obtain ⟨f, hf, hclose⟩ := h.close hp hn
    cases hf
    exact ⟨_, _, hclose⟩
  | acknowledge hp hn =>
    obtain ⟨f, hf, _⟩ := h.close hp hn
    cases hf
  | write hp hw => exact ⟨done, out, h.write hp hw⟩
  | writeFails hp hw => simp [Service.failsWrite, hp, hw] at hfails
  | heed hp hwhy =>
    rcases hwhy with hcancel | hheld
    · rw [h.free] at hcancel
      cases hcancel
    · cases hheld
  | @take hp _ m queue hq => exact ⟨done, out ++ [.message m], h.take hp hq⟩
  | hear hp _ _ hr => exact ⟨done, out, h.hear hp hr⟩
  | hangUp hp _ _ hr => exact ⟨done, out, h.hangUp hp hr⟩
  | flush hp | goAway hp | fallSilent hp =>
    rw [hp] at hstands
    exact hstands.elim
  | farewell hp hw => exact ⟨done, out, h.farewell hp hw⟩
  | forgo hp hw =>
    rcases hw with hw | ⟨hw, hlate⟩
    · simp [Service.failsWrite, hp, hw] at hfails
    · simp [Service.failsWrite, hp, hw, hlate] at hfails
  | shutDown hp hw =>
    cases Transport.eq_of_shut_done hw
    rw [hp] at hstands
    exact ⟨done, out, h.silent rfl rfl rfl rfl rfl (by rw [hp]; rfl) (by rw [hp]; rfl) rfl
      ⟨hstands.isOver, hstands.ending, hstands.frames⟩⟩
  | abandon hp _ =>
    rw [hp] at hstands
    exact ⟨done, out, h.silent rfl rfl rfl rfl rfl (by rw [hp]; rfl) (by rw [hp]; rfl) rfl
      ⟨hstands.isOver, hstands.ending, hstands.frames⟩⟩
  | leave hp =>
    rw [hp] at hstands
    exact ⟨done, out, h.silent rfl rfl rfl rfl rfl (by rw [hp]; rfl) (by rw [hp]; rfl) rfl
      ⟨hstands.isOver, hstands.ending, hstands.frames⟩⟩
  | part hp => exact ⟨done, out, h.part hp⟩

/-! What comes from outside. -/

theorem feed_append (s : Session) (b more : Octets) :
    s.feed (b ++ more) =
      ((s.feed b).1 ++ ((s.feed b).2.receive more).drain.1,
        ((s.feed b).2.receive more).drain.2) := by
  rw [Session.feed, ← Session.receive_receive, Session.drain_receive]
  rfl

theorem arrive (h : Faithful id maxFrame v done out) (chunk : Octets) :
    Faithful id maxFrame (v.move (.arrive chunk)) done out := by
  unfold Service.move
  dsimp only
  split
  · next hmore =>
    obtain ⟨named, free, actions, written, messages, answers, told, stands⟩ := h
    have hunread : (v.onTransport (·.arrive chunk)).unread = v.unread ++ chunk :=
      Transport.flatten_incoming_arrive _ chunk
    have hahead : (v.onTransport (·.arrive chunk)).ahead =
        (v.ahead.1 ++ (v.ahead.2.receive chunk).drain.1, (v.ahead.2.receive chunk).drain.2) := by
      rw [Service.ahead, hunread]
      exact feed_append v.connection.session v.unread chunk
    have hwritten : (v.connection.transport.arrive chunk).written =
        v.connection.transport.written := by
      unfold Transport.arrive
      split <;> rfl
    refine ⟨named, free, ?_, ?_, messages, answers, told, stands.of_same rfl ?_⟩
    · show (Session.ofMaxFrame maxFrame).feed (v.heard ++ chunk) =
        (done ++ (v.onTransport (·.arrive chunk)).ahead.1, (v.onTransport (·.arrive chunk)).ahead.2)
      rw [feed_append, actions, hahead, List.append_assoc]
    · show (v.connection.transport.arrive chunk).written.reverse ++ _ = _
      rw [hwritten]
      exact written
    · rintro (hfin | ⟨hend, _⟩)
      · exact .inl hfin
      · exact absurd hmore hend
  · exact h

theorem horizon (h : Faithful id maxFrame v done out) (horizon : Horizon) :
    Faithful id maxFrame (v.move (.horizon horizon)) done out := by
  unfold Service.move
  dsimp only
  split
  · next hmore =>
    obtain ⟨named, free, actions, written, messages, answers, told, stands⟩ := h
    refine ⟨named, free, actions, written, messages, answers, told, stands.of_same rfl ?_⟩
    rintro (hfin | ⟨hend, _⟩)
    · exact .inl hfin
    · exact absurd hmore hend
  · exact h

theorem send (h : Faithful id maxFrame v done out) (m : Message) :
    Faithful id maxFrame (v.move (.send m)) done out := by
  unfold Service.move Connection.enqueue?
  dsimp only
  split
  · next hqueue =>
    split at hqueue <;> cases hqueue
    obtain ⟨named, free, actions, written, messages, answers, told, stands⟩ := h
    refine ⟨named, free, actions, written, ?_, answers, told, stands.of_same rfl fun hover => hover⟩
    show _ ++ (v.connection.queue ++ [m]) = v.accepted ++ [m]
    rw [← List.append_assoc, messages]
  · exact h

theorem step (h : Faithful id maxFrame v done out) (hfails : v.failsWrite = false) :
    ∃ done' out', Faithful id maxFrame (v.move .step) done' out' := by
  unfold Service.move
  dsimp only
  split
  · next hstep => exact h.transition hfails (transition_of_step hstep)
  · exact ⟨done, out, h⟩

theorem run (h : Faithful id maxFrame v done out) {moves : List Service.Move}
    (hwrites : v.writesAll moves = true) :
    ∃ done' out', Faithful id maxFrame (v.run moves) done' out' := by
  induction moves generalizing v done out with
  | nil => exact ⟨done, out, h⟩
  | cons move moves ih =>
    cases move with
    | step =>
      obtain ⟨hfails, hwrites⟩ := (Bool.and_eq_true _ _).mp hwrites
      obtain ⟨done', out', h'⟩ := h.step (by simpa using hfails)
      exact ih h' hwrites
    | arrive chunk => exact ih (h.arrive chunk) hwrites
    | horizon horizon => exact ih (h.horizon horizon) hwrites
    | outlet o =>
      obtain ⟨named, free, actions, written, messages, answers, told, stands⟩ := h
      exact ih (v := v.move (.outlet o)) ⟨named, free, actions, written, messages, answers, told,
        stands.of_same rfl fun hover => hover⟩ hwrites
    | send m => exact ih (h.send m) hwrites
    | wait nanos =>
      obtain ⟨named, free, actions, written, messages, answers, told, stands⟩ := h
      exact ih (v := v.move (.wait nanos)) ⟨named, free, actions, written, messages, answers, told,
        stands.of_same rfl fun hover => hover⟩ hwrites

end Faithful

end WebSocketHost
