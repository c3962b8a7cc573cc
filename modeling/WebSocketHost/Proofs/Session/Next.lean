import WebSocketHost.Proofs.Session.Chunking
import WebSocketHost.Proofs.Session.Closing

/-! Actions taken one by one with `next`, by an owner that writes what it is handed before
it asks again. As long as no close frame is out, what `next` hands out to be written is
one frame, and a close frame just when the session is over. -/
namespace WebSocketHost.Session

variable {s t : Session} {a : Action}

theorem drain_of_next_none (h : s.next = (none, t)) : s.drain = ([], t) := by
  rw [drain_eq, h]

theorem drain_of_next_some (h : s.next = (some a, t)) : s.drain = (a :: t.drain.1, t.drain.2) := by
  rw [drain_eq, h]

theorem step_of_next_none (h : s.next = (none, t)) : t.step = none := by
  have hstep := step_drain s
  rwa [drain_of_next_none h] at hstep

/-- What is still to do for the bytes here and those to come, after an action. -/
theorem drain_receive_of_next_some (h : s.next = (some a, t)) (more : Octets) :
    (s.receive more).drain = (a :: (t.receive more).drain.1, (t.receive more).drain.2) := by
  rw [drain_receive, drain_of_next_some h, drain_receive t]
  rfl

theorem drain_receive_of_next_none (h : s.next = (none, t)) (more : Octets) :
    (s.receive more).drain = (t.receive more).drain := by
  rw [drain_receive, drain_of_next_none h]
  rfl

theorem drain_receive_of_finished (h : s.finished = true) (more : Octets) :
    (s.receive more).drain = ([], s.receive more) :=
  drain_of_step_none (step_of_finished (s := s.receive more) h)

theorem next_silent (h : s.next = (none, t)) : t.flags = s.flags := by
  have hchange := next_change s
  rw [h] at hchange
  exact hchange.eq_of_none

/-- With no close frame out, an action is a delivery, an answer that closes nothing, or a
closing with its close frame. -/
theorem next_of_open (hawait : s.awaitingClose = false) (h : s.next = (some a, t)) :
    (t.flags = s.flags ∧
      ((∃ m, a = .deliver m) ∨ ∃ f : Frame, f.opcode ≠ .close ∧ a = .reply f.encode)) ∨
      t.finished = true ∧ ∃ (f : Frame) (reason : SessionEnd), f.opcode = .close ∧
        a = .close (some f.encode) reason := by
  have hchange : Change s.flags (some (.action a)) t.flags := by
    have hchange := next_change s
    rwa [h] at hchange
  have hopen : s.flags.1 = false := hawait
  have hfin : t.flags.2 = t.finished := rfl
  rw [← hfin]
  generalize s.flags = before at hchange hopen
  generalize t.flags = after at hchange
  cases hchange with
  | deliver awaiting m => exact .inl ⟨rfl, .inl ⟨m, rfl⟩⟩
  | reply f hf => exact .inl ⟨rfl, .inr ⟨f, hf, rfl⟩⟩
  | finish f hf reason => exact .inr ⟨rfl, f, reason, hf, rfl⟩
  | acknowledge reason => cases hopen

/-! ### Answers -/

theorem handle_reply {f : Frame} {b : Octets} (h : s.handle f = some (.reply b, t)) :
    f.opcode = .ping ∧ b = (Frame.whole .pong f.payload).encode := by
  obtain ⟨-, ⟨m, -, ha, -⟩ | ⟨hop, -, -, ha⟩ | ⟨-, hr⟩ | ⟨-, -, hr⟩ | ⟨-, hr⟩⟩ := handle_cases h
  · cases ha
  · cases ha
    exact ⟨hop, rfl⟩
  · rw [peerClose_eq] at hr
    cases hr
  · rw [violate_eq] at hr
    cases hr
  · rw [violate_eq] at hr
    cases hr

/-- A step calls for something because a rule was broken, or because a frame was handled. -/
theorem step_action_cases (h : s.step = some (some a, t)) :
    (∃ reply code, a = .close reply (.violation code)) ∨
      s.finished = false ∧ ∃ f rest g r, Frame.decode s.maxFrame s.buffer = .ok (f, rest) ∧
        s.reassembler.push f = (.ok (some g), r) ∧
        { s with buffer := rest, reassembler := r }.handle g = some (a, t) := by
  obtain ⟨hf, ⟨e, -, -, hr⟩ | ⟨f, rest, hd, hr⟩⟩ := step_cases h
  · rw [refuse, violate_eq] at hr
    cases hr
    exact .inl ⟨_, _, rfl⟩
  · obtain ⟨r, ⟨e, -, ha⟩ | ⟨-, ha⟩ | ⟨g, hp, ⟨-, ha⟩ | ⟨a, u, hh, ha⟩⟩⟩ :=
      absorb_cases { s with buffer := rest } f
    all_goals rw [ha] at hr
    · rw [violate_eq] at hr
      cases hr
      exact .inl ⟨_, _, rfl⟩
    · cases hr
    · cases hr
    · cases hr
      exact .inr ⟨hf, f, rest, g, r, hd, hp, hh⟩

theorem step_reply {b : Octets} (h : s.step = some (some (.reply b), t)) :
    ∃ payload, b = (Frame.whole .pong payload).encode := by
  obtain ⟨reply, code, ha⟩ | ⟨-, f, rest, g, r, -, -, hh⟩ := step_action_cases h
  · cases ha
  · exact ⟨g.payload, (handle_reply hh).2⟩

/-- An answer that closes nothing is a pong. -/
theorem next_reply {b : Octets} (h : s.next = (some (.reply b), t)) :
    ∃ payload, b = (Frame.whole .pong payload).encode := by
  fun_induction next s with
  | case1 => cases h
  | case2 s a u hs =>
    cases h
    exact step_reply hs
  | case3 s u hs ih => exact ih h

/-! ### Reasons to close -/

section Reasons

variable {reply : Option Octets} {reason : SessionEnd}

theorem handle_reason {f : Frame} (hopen : s.awaitingClose = false)
    (h : s.handle f = some (.close reply reason, t)) : reason ≠ .acknowledged := by
  obtain ⟨-, ⟨m, -, ha, -⟩ | ⟨-, -, -, ha⟩ | ⟨-, hr⟩ | ⟨-, -, hr⟩ | ⟨-, hr⟩⟩ := handle_cases h
  · cases ha
  · cases ha
  · rw [peerClose_eq, hopen] at hr
    cases hr
    nofun
  · rw [violate_eq] at hr
    cases hr
    nofun
  · rw [violate_eq] at hr
    cases hr
    nofun

theorem step_reason (hopen : s.awaitingClose = false)
    (h : s.step = some (some (.close reply reason), t)) : reason ≠ .acknowledged := by
  obtain ⟨reply, code, ha⟩ | ⟨-, f, rest, g, r, -, -, hh⟩ := step_action_cases h
  · cases ha
    nofun
  · exact handle_reason (s := { s with buffer := rest, reassembler := r }) hopen hh

/-- Only a session that has sent a close frame takes one for its answer. -/
theorem next_reason (hopen : s.awaitingClose = false)
    (h : s.next = (some (.close reply reason), t)) : reason ≠ .acknowledged := by
  fun_induction next s with
  | case1 => cases h
  | case2 s a u hs =>
    cases h
    exact step_reason hopen hs
  | case3 s u hs ih =>
    have hflags : u.flags = s.flags := (step_change hs).eq_of_none
    exact ih ((congrArg Prod.fst hflags).trans hopen) h

end Reasons

end WebSocketHost.Session
