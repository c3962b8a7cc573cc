import WebSocketHost.Proofs.Connection.Faithful

/-! What a connection tells and writes, going by its session alone. The main statement is
about every schedule of reads, sends and steps; the parts of it about what must come are
had by letting the task go on, which cannot go on for ever. -/
namespace WebSocketHost

/-- All that actions call for has been told and written, message frames apart. -/
structure Service.Fulfils (v : Service) (events : List Event) (actions : List Action) : Prop where
  told : v.told = events
  written : ∃ out : List Outgoing, v.written = out.map (·.frame.encode) ∧
    out.filterMap Outgoing.message? <+: v.accepted ∧
    (out.filterMap Outgoing.answer?).map Frame.encode = actions.filterMap Action.bytes? ∧
    ∀ o ∈ out.dropLast, o.frame.opcode ≠ .close

/-- Nothing but what actions call for has been told and written, message frames apart. -/
structure Service.Keeps (v : Service) (events : List Event) (actions : List Action) : Prop where
  told : v.told <+: events
  written : ∃ out : List Outgoing, v.written = out.map (·.frame.encode) ∧
    out.filterMap Outgoing.message? <+: v.accepted ∧
    (out.filterMap Outgoing.answer?).map Frame.encode <+: actions.filterMap Action.bytes? ∧
    ∀ o ∈ out.dropLast, o.frame.opcode ≠ .close

/-- The session has closed, or the peer's stream has ended. -/
def Service.IsOver (v : Service) (actions : List Action) : Prop :=
  v.connection.transport.horizon ≠ .more ∨ ∃ reply reason, .close reply reason ∈ actions

theorem Phase.pending_cases (phase : Phase) : phase.pending = [] ∨ ∃ b, phase.pending = [b] := by
  cases phase with
  | writing bytes resume => exact .inr ⟨bytes, rfl⟩
  | farewell bytes deadline ending => exact .inr ⟨bytes, rfl⟩
  | _ => exact .inl rfl

theorem tale_prefix_story {id : SessionId} {done actions : List Action} (h : done <+: actions) :
    tale id done <+: story id actions := by
  obtain ⟨later, rfl⟩ := h
  refine ⟨later.filterMap (Action.event? id) ++ [(Ending.ofActions (done ++ later)).event id], ?_⟩
  rw [story, tale, tale, List.filterMap_append]
  simp

theorem Stands.frames {v : Service} {done : List Action} {out : List Outgoing} {phase : Phase}
    (h : Stands v done out phase) : ∀ o ∈ out.dropLast, o.frame.opcode ≠ .close := by
  have hopen : Unclosed v.connection.session done out →
      ∀ o ∈ out.dropLast, o.frame.opcode ≠ .close :=
    fun h o ho => h.frames o (List.dropLast_subset out ho)
  cases phase with
  | entering | greeting | waiting => exact hopen h.2
  | acting => exact hopen h
  | writing bytes resume =>
    cases resume with
    | acting => exact hopen h
    | waiting => exact hopen h.2
    | draining => exact h.elim
  | draining => exact h.elim
  | farewell | shutting | leaving | parting => exact Closed.frames h
  | finished =>
    obtain ⟨ending, h⟩ := h
    exact h.frames

theorem Over.ahead {v : Service} {done : List Action} (h : Over v done) : v.ahead.1 = [] := by
  rcases h with ⟨hfin, _⟩ | ⟨_, hahead⟩
  · rw [Service.ahead, Session.drain_receive_of_finished hfin]
  · exact hahead

namespace Faithful

variable {id : SessionId} {maxFrame : Nat} {v : Service} {done : List Action}
  {out : List Outgoing}

theorem fulfils (h : Faithful id maxFrame v done out) {events : List Event}
    (hp : v.connection.phase.pending = []) (htold : v.told = events) : v.Fulfils events done := by
  have hwritten := h.written
  rw [hp, List.append_nil] at hwritten
  refine ⟨htold, out, hwritten, ?_, h.answers, h.stands.frames⟩
  rw [← h.messages]
  exact List.prefix_append _ _

/-- What a finished task has told, and why it has. -/
theorem finished (h : Faithful id maxFrame v done out) (hp : v.connection.phase = .finished) :
    v.IsOver ((Session.ofMaxFrame maxFrame).feed v.heard).1 ∧
      v.Fulfils (story id ((Session.ofMaxFrame maxFrame).feed v.heard).1)
        ((Session.ofMaxFrame maxFrame).feed v.heard).1 := by
  have htold := h.told
  have hstands := h.stands
  rw [hp] at htold hstands
  obtain ⟨ending, hclosed⟩ := hstands
  have hall : ((Session.ofMaxFrame maxFrame).feed v.heard).1 = done := by
    rw [h.actions, hclosed.isOver.ahead, List.append_nil]
  rw [hall]
  refine ⟨?_, h.fulfils (by rw [hp]; rfl) htold⟩
  rcases hclosed.isOver with ⟨_, hclose⟩ | ⟨hend, _⟩
  · exact .inr hclose
  · exact .inl hend

/-- With nothing left to read, a task that waits has done all there is to do. -/
theorem waiting (h : Faithful id maxFrame v done out) (hp : v.connection.phase = .waiting)
    (hincoming : v.connection.transport.incoming = [])
    (hmore : v.connection.transport.horizon = .more) :
    ¬ v.IsOver ((Session.ofMaxFrame maxFrame).feed v.heard).1 ∧
      v.Fulfils (tale id ((Session.ofMaxFrame maxFrame).feed v.heard).1)
        ((Session.ofMaxFrame maxFrame).feed v.heard).1 := by
  have htold := h.told
  obtain ⟨hstep, hopen⟩ := h.resting hp
  have hahead : v.ahead.1 = [] := by
    rw [Service.ahead, Service.unread, hincoming, List.flatten_nil, Session.receive_nil,
      Session.drain_of_step_none hstep]
  have hall : ((Session.ofMaxFrame maxFrame).feed v.heard).1 = done := by
    rw [h.actions, hahead, List.append_nil]
  rw [hp] at htold
  rw [hall]
  refine ⟨?_, h.fulfils (by rw [hp]; rfl) htold⟩
  rintro (hend | ⟨reply, reason, hmem⟩)
  · exact hend hmore
  · exact hopen.actions reply reason hmem

theorem done_prefix (h : Faithful id maxFrame v done out) :
    done <+: ((Session.ofMaxFrame maxFrame).feed v.heard).1 := by
  rw [h.actions]
  exact List.prefix_append done _

theorem told_prefix (h : Faithful id maxFrame v done out) :
    v.told <+: story id ((Session.ofMaxFrame maxFrame).feed v.heard).1 := by
  have htold := h.told
  cases hp : v.connection.phase with
  | entering | greeting =>
    rw [hp] at htold
    rw [htold]
    exact List.nil_prefix
  | finished => exact ⟨[], (List.append_nil _).trans (h.finished hp).2.told⟩
  | _ =>
    rw [hp] at htold
    rw [htold]
    exact tale_prefix_story h.done_prefix

theorem keeps (h : Faithful id maxFrame v done out) :
    v.Keeps (story id ((Session.ofMaxFrame maxFrame).feed v.heard).1)
      ((Session.ofMaxFrame maxFrame).feed v.heard).1 := by
  have hanswers : (out.filterMap Outgoing.answer?).map Frame.encode <+:
      (((Session.ofMaxFrame maxFrame).feed v.heard).1).filterMap Action.bytes? := by
    rw [h.answers]
    exact h.done_prefix.filterMap _
  have hmessages : out.filterMap Outgoing.message? <+: v.accepted := by
    rw [← h.messages]
    exact List.prefix_append _ _
  have hwritten := h.written
  refine ⟨h.told_prefix, ?_⟩
  rcases v.connection.phase.pending_cases with hp | ⟨b, hp⟩
  · rw [hp, List.append_nil] at hwritten
    exact ⟨out, hwritten, hmessages, hanswers, h.stands.frames⟩
  · -- the last frame is still on its way
    have hout : out.dropLast <+: out := List.dropLast_prefix out
    rw [hp] at hwritten
    refine ⟨out.dropLast, ?_, (hout.filterMap _).trans hmessages,
      ((hout.filterMap _).map _).trans hanswers, ?_⟩
    · rw [List.map_dropLast, ← hwritten, List.dropLast_concat]
    · intro o ho
      exact h.stands.frames o (List.dropLast_subset _ ho)

/-- A task whose transport takes what is written waits only for its peer. -/
theorem waiting_or_finished (h : Faithful id maxFrame v done out)
    (ht : v.connection.transport.outlet = .taking)
    (hstep : v.connection.step v.now true = none) :
    v.connection.phase = .finished ∨
      v.connection.phase = .waiting ∧ v.connection.transport.incoming = [] ∧
        v.connection.transport.horizon = .more := by
  unfold Connection.step at hstep
  cases hp : v.connection.phase with
  | finished => exact .inl rfl
  | waiting =>
    rw [hp] at hstep
    simp only [Option.map_eq_none_iff, Connection.wait, h.free, Bool.false_eq_true, if_false,
      if_true] at hstep
    split at hstep
    · cases hstep
    · unfold Connection.listen at hstep
      split at hstep
      · next hread => exact .inr ⟨rfl, Transport.read_eq_none_iff.mp hread⟩
      all_goals cases hstep
  | _ => simp [hp, Transport.write, Transport.shut, ht] at hstep

end Faithful

/-! ### Going on -/

namespace Connection

variable {c d : Connection} {now : Nat} {isHeld : Bool} {effect : Option Effect}

/-- A step changes neither the way out nor what comes behind the chunks. -/
theorem Transition.transport (h : Transition c now isHeld effect d) :
    d.transport.outlet = c.transport.outlet ∧ d.transport.horizon = c.transport.horizon := by
  cases h with
  | write _ hw | farewell _ hw =>
    cases Transport.eq_of_write_done hw
    exact ⟨rfl, rfl⟩
  | shutDown _ hw =>
    cases Transport.eq_of_shut_done hw
    exact ⟨rfl, rfl⟩
  | hear _ _ _ hr =>
    obtain ⟨_, _, hhorizon, houtlet⟩ := Transport.eq_of_read_bytes hr
    exact ⟨houtlet, hhorizon⟩
  | hangUp _ _ _ hr =>
    obtain ⟨rfl, _⟩ := Transport.eq_of_read_end hr
    exact ⟨rfl, rfl⟩
  | take | flush =>
    rw [sendMessage_eq]
    exact ⟨rfl, rfl⟩
  | _ => exact ⟨rfl, rfl⟩

end Connection

namespace Service

theorem failsWrite_of_taking {v : Service} (ht : v.connection.transport.outlet = .taking) :
    v.failsWrite = false := by
  unfold failsWrite Transport.write
  rw [ht]
  split <;> rfl

theorem move_step {v : Service} {effect : Option Effect} {c : Connection}
    (h : v.connection.step v.now true = some (effect, c)) : v.move .step = v.after effect c := by
  unfold move
  rw [h]

theorem stream_step (v : Service) :
    (v.move .step).heard = v.heard ∧
      (v.move .step).connection.transport.horizon = v.connection.transport.horizon := by
  cases hstep : v.connection.step v.now true with
  | none =>
    unfold move
    rw [hstep]
    exact ⟨rfl, rfl⟩
  | some p =>
    rw [move_step hstep]
    exact ⟨rfl, (Connection.transition_of_step hstep).transport.2⟩

theorem stream_send (v : Service) (m : Message) :
    (v.move (.send m)).heard = v.heard ∧
      (v.move (.send m)).connection.transport.horizon = v.connection.transport.horizon := by
  cases hq : v.connection.enqueue? m with
  | none => simp only [move, hq, and_self]
  | some c =>
    simp only [move, hq, true_and]
    unfold Connection.enqueue? at hq
    split at hq
    · cases hq
      rfl
    · cases hq

theorem heard_run (v : Service) (moves : List Move) :
    (v.run moves).heard =
      v.heard ++ if v.connection.transport.horizon = .more then arrivals moves else [] := by
  induction moves generalizing v with
  | nil => simp [run, arrivals]
  | cons m moves ih =>
    show ((v.move m).run moves).heard = _
    rw [ih]
    cases m with
    | step =>
      rw [v.stream_step.1, v.stream_step.2]
      rfl
    | send m =>
      rw [(v.stream_send m).1, (v.stream_send m).2]
      rfl
    | arrive chunk =>
      by_cases hmore : v.connection.transport.horizon = .more
      · have hmove : v.move (.arrive chunk) =
            { v.onTransport (·.arrive chunk) with heard := v.heard ++ chunk } := if_pos hmore
        have hstill : (v.connection.transport.arrive chunk).horizon = .more := by
          unfold Transport.arrive
          split <;> exact hmore
        rw [hmove, if_pos hmore]
        show v.heard ++ chunk ++ (if (v.connection.transport.arrive chunk).horizon = .more then
          arrivals moves else []) = _
        rw [if_pos hstill, List.append_assoc]
        rfl
      · have hmove : v.move (.arrive chunk) = v := if_neg hmore
        rw [hmove, if_neg hmore, if_neg hmore]
    | horizon h =>
      by_cases hmore : v.connection.transport.horizon = .more
      · have hmove : v.move (.horizon h) = v.onTransport (·.withHorizon h) := if_pos hmore
        rw [hmove, if_pos hmore]
        rfl
      · have hmove : v.move (.horizon h) = v := if_neg hmore
        rw [hmove, if_neg hmore, if_neg hmore]
    | outlet o => rfl
    | wait nanos => rfl

/-- Each step leaves less work, so a task that is only stepped comes to wait. -/
theorem settles (v : Service) (ht : v.connection.transport.outlet = .taking) :
    ∃ n, v.writesAll (List.replicate n .step) = true ∧
      let w := v.run (List.replicate n .step)
      w.connection.step w.now true = none ∧ w.connection.transport.outlet = .taking ∧
        w.connection.transport.horizon = v.connection.transport.horizon ∧ w.heard = v.heard := by
  induction hwork : v.connection.work using Nat.strongRecOn generalizing v with
  | ind work ih =>
    cases hstep : v.connection.step v.now true with
    | none => exact ⟨0, rfl, hstep, ht, rfl, rfl⟩
    | some p =>
      obtain ⟨effect, c⟩ := p
      obtain ⟨houtlet, hhorizon⟩ := (Connection.transition_of_step hstep).transport
      obtain ⟨n, hwrites, hnone, htaking, hsame, hheard⟩ :=
        ih c.work (hwork ▸ Connection.work_step_lt hstep) (v.after effect c)
          (houtlet.trans ht) rfl
      refine ⟨n + 1, ?_, ?_⟩
      · rw [List.replicate_succ, writesAll, failsWrite_of_taking ht, move_step hstep]
        exact hwrites
      · have hrun : v.run (List.replicate (n + 1) .step) =
            (v.after effect c).run (List.replicate n .step) := by
          rw [List.replicate_succ, ← move_step hstep]
          rfl
        rw [hrun]
        exact ⟨hnone, htaking, hsame.trans hhorizon, hheard⟩

/-- A connection that nobody closes from this side and whose writes do not fail tells what
its session makes of the peer's stream, however the stream is cut and whatever is sent
meanwhile: that it is connected, a message for each delivery and, once the session or the
stream is over, one last event. It writes whole frames: messages as they were accepted,
with the session's answers among them in order, and nothing behind a close frame. As long
as its transport takes what is written, it gets there by its own steps. -/
theorem run_follows_session (id : SessionId) (maxFrame : Nat) (closeTimeout : Duration)
    (leftover : Octets) (moves : List Move)
    (hwrites : (opened id maxFrame closeTimeout leftover).writesAll moves = true) :
    let v := (opened id maxFrame closeTimeout leftover).run moves
    let actions := ((Session.ofMaxFrame maxFrame).feed (leftover ++ arrivals moves)).1
    v.Keeps (story id actions) actions ∧
    (v.connection.isFinished = true → v.IsOver actions ∧ v.Fulfils (story id actions) actions) ∧
    (v.connection.transport.outlet = .taking → ∃ n,
      let w := v.run (List.replicate n .step)
      (v.IsOver actions → w.connection.isFinished = true ∧ w.Fulfils (story id actions) actions) ∧
        (¬ v.IsOver actions → w.Fulfils (tale id actions) actions)) := by
  intro v actions
  obtain ⟨done, out, h⟩ := (Faithful.opened id maxFrame closeTimeout leftover).run hwrites
  have hactions : ((Session.ofMaxFrame maxFrame).feed v.heard).1 = actions := by
    rw [heard_run]
    rfl
  have hkeeps := h.keeps
  rw [hactions] at hkeeps
  refine ⟨hkeeps, ?_, ?_⟩
  · intro hfin
    have hall := h.finished (of_decide_eq_true hfin)
    rwa [hactions] at hall
  · intro ht
    obtain ⟨n, hlater, hnone, htaking, hhorizon, hheard⟩ := v.settles ht
    obtain ⟨done', out', h'⟩ := h.run hlater
    have hover : (v.run (.replicate n .step)).IsOver actions ↔ v.IsOver actions := by
      unfold IsOver
      rw [hhorizon]
    refine ⟨n, ?_⟩
    rcases h'.waiting_or_finished htaking hnone with hp | ⟨hp, hincoming, hmore⟩
    · obtain ⟨hwhy, hall⟩ := h'.finished hp
      rw [hheard, hactions] at hwhy hall
      exact ⟨fun _ => ⟨decide_eq_true hp, hall⟩, fun hnot => absurd (hover.mp hwhy) hnot⟩
    · obtain ⟨hwhy, hall⟩ := h'.waiting hp hincoming hmore
      rw [hheard, hactions] at hwhy hall
      exact ⟨fun hyes => absurd (hover.mpr hyes) hwhy, fun _ => hall⟩

/-- A ping cut in its header, a message cut in its text with one sent meanwhile, and then
an opcode that means nothing, with the end of the stream behind it. -/
theorem run_follows_session_unknown_opcode :
    let moves := [.arrive [0, 0x81, 2, 0x68]] ++ List.replicate 8 .step ++
      [.send (.text "é"), .arrive [0x69, 0x83, 0], .horizon .ended] ++ List.replicate 12 .step
    let v := (opened "a:1" 125 (.ofSeconds 1) [0x89]).run moves
    (opened "a:1" 125 (.ofSeconds 1) [0x89]).writesAll moves = true ∧
      v.connection.isFinished = true ∧
      v.Fulfils [.connected "a:1", .text "a:1" "hi", .closed "a:1" .protocol]
        [.reply (Frame.whole .pong []).encode, .deliver (.text "hi"),
          .close (some (Frame.whole .close CloseCode.protocol.toOctets).encode)
            (.violation .protocol)] := by
  intro moves v
  have hwrites : (opened "a:1" 125 (.ofSeconds 1) [0x89]).writesAll moves = true := by
    decide +kernel
  have hfin : v.connection.isFinished = true := by decide +kernel
  have hactions : ((Session.ofMaxFrame 125).feed ([0x89] ++ arrivals moves)).1 =
      [.reply (Frame.whole .pong []).encode, .deliver (.text "hi"),
        .close (some (Frame.whole .close CloseCode.protocol.toOctets).encode)
          (.violation .protocol)] := by
    decide +kernel
  have hall := ((run_follows_session "a:1" 125 (.ofSeconds 1) [0x89] moves hwrites).2.1 hfin).2
  rw [hactions] at hall
  exact ⟨hwrites, hfin, hall⟩

end Service

end WebSocketHost
