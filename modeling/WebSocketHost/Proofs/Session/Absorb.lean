import WebSocketHost.Proofs.Reassembly.Push
import WebSocketHost.Session

/-! What a session does with one decoded frame, apart from the bytes it came in.
`handle_cases` and `absorb_cases` say all it can do; what follows from either is
proved from them, without opening the definitions again. -/
namespace WebSocketHost.Session

/-- Reassembles a decoded frame with those before it and acts on what is complete. -/
def absorb (s : Session) (f : Frame) : Option Action × Session :=
  let (r, reassembler) := s.reassembler.push f
  let s := { s with reassembler }
  match r with
  | .error e => let (a, s) := s.violate (codeOfReassemblyError e); (some a, s)
  | .ok none => (none, s)
  | .ok (some f) =>
    match s.handle f with
    | some (a, s) => (some a, s)
    | none => (none, s)

variable {s t : Session} {f : Frame} {a : Action}

/-- Both ways to end leave the session in this state. -/
def ended (s : Session) : Session := { s with awaitingClose := true, finished := true }

theorem violate_eq (s : Session) (code : CloseCode) :
    s.violate code =
      (.close (if s.awaitingClose then none else some (CloseNotice.ofReason code "").frame.encode)
        (.violation code), s.ended) := by
  obtain ⟨maxFrame, reassembler, buffer, awaitingClose, finished⟩ := s
  cases awaitingClose <;> rfl

theorem peerClose_eq (s : Session) (payload : Octets) :
    s.peerClose payload =
      (.close (if s.awaitingClose then none else some (closeReply payload).encode)
        (if s.awaitingClose then .acknowledged else .peerClosed (CloseCode.ofPayload? payload)),
        s.ended) := by
  obtain ⟨maxFrame, reassembler, buffer, awaitingClose, finished⟩ := s
  cases awaitingClose <;> rfl

/-- A complete frame delivers a message, answers a ping, or ends the session. -/
theorem handle_cases (h : s.handle f = some (a, t)) :
    s.finished = false ∧
      ((∃ m : Message, m.frame = .whole f.opcode f.payload ∧ a = .deliver m ∧ t = s) ∨
        (f.opcode = .ping ∧ s.awaitingClose = false ∧ t = s ∧
          a = .reply (Frame.whole .pong f.payload).encode) ∨
        (f.opcode = .close ∧ (a, t) = s.peerClose f.payload) ∨
        (f.opcode = .text ∧ Text.ofUtf8? f.payload = none ∧ (a, t) = s.violate .invalid) ∨
        (f.opcode.isReserved = true ∧ (a, t) = s.violate .protocol)) := by
  unfold handle at h
  split at h
  · cases h
  next hf =>
  refine ⟨Bool.eq_false_iff.mpr hf, ?_⟩
  cases hop : f.opcode with
  | text =>
    rw [hop] at h
    dsimp only at h
    cases htext : Text.ofUtf8? f.payload with
    | some text =>
      rw [htext] at h
      cases h
      left
      refine ⟨.text text, ?_, rfl, rfl⟩
      rw [Message.frame, Text.ofUtf8?_eq_some_iff.mp htext]
    | none =>
      rw [htext] at h
      exact .inr (.inr (.inr (.inl ⟨rfl, rfl, (Option.some.inj h).symm⟩)))
  | binary =>
    rw [hop] at h
    cases h
    exact .inl ⟨.binary f.payload, rfl, rfl, rfl⟩
  | ping =>
    rw [hop] at h
    dsimp only at h
    split at h
    · cases h
    next hawait =>
    cases h
    exact .inr (.inl ⟨rfl, Bool.eq_false_iff.mpr hawait, rfl, rfl⟩)
  | close =>
    rw [hop] at h
    exact .inr (.inr (.inl ⟨rfl, (Option.some.inj h).symm⟩))
  | reservedData i =>
    rw [hop] at h
    exact .inr (.inr (.inr (.inr ⟨rfl, (Option.some.inj h).symm⟩)))
  | reservedControl i =>
    rw [hop] at h
    exact .inr (.inr (.inr (.inr ⟨rfl, (Option.some.inj h).symm⟩)))
  | pong =>
    rw [hop] at h
    cases h
  | continuation =>
    rw [hop] at h
    cases h

theorem handle_state (h : s.handle f = some (a, t)) : t = s ∨ t = s.ended := by
  obtain ⟨_, ⟨m, _, _, ht⟩ | ⟨_, _, ht, _⟩ | ⟨_, ht⟩ | ⟨_, _, ht⟩ | ⟨_, ht⟩⟩ := handle_cases h
  · exact .inl ht
  · exact .inl ht
  · rw [peerClose_eq] at ht
    exact .inr (congrArg Prod.snd ht)
  · rw [violate_eq] at ht
    exact .inr (congrArg Prod.snd ht)
  · rw [violate_eq] at ht
    exact .inr (congrArg Prod.snd ht)

section Absorb

variable {g : Frame} {r : Reassembler}

theorem absorb_of_error {e : ReassemblyError} (hp : s.reassembler.push f = (.error e, r)) :
    s.absorb f =
      (some (({ s with reassembler := r }.violate (codeOfReassemblyError e)).1),
        { s with reassembler := r }.ended) := by
  unfold absorb
  rw [hp]
  dsimp only
  rw [violate_eq]

theorem absorb_of_collected (hp : s.reassembler.push f = (.ok none, r)) :
    s.absorb f = (none, { s with reassembler := r }) := by
  unfold absorb
  rw [hp]

theorem absorb_of_silent (hp : s.reassembler.push f = (.ok (some g), r))
    (hh : { s with reassembler := r }.handle g = none) :
    s.absorb f = (none, { s with reassembler := r }) := by
  unfold absorb
  rw [hp]
  dsimp only
  rw [hh]

theorem absorb_of_handled (hp : s.reassembler.push f = (.ok (some g), r))
    (hh : { s with reassembler := r }.handle g = some (a, t)) : s.absorb f = (some a, t) := by
  unfold absorb
  rw [hp]
  dsimp only
  rw [hh]

/-- All that can come of a frame. -/
theorem absorb_cases (s : Session) (f : Frame) :
    ∃ r, (∃ e, s.reassembler.push f = (.error e, r) ∧
        s.absorb f = (some (({ s with reassembler := r }.violate (codeOfReassemblyError e)).1),
          { s with reassembler := r }.ended)) ∨
      (s.reassembler.push f = (.ok none, r) ∧ s.absorb f = (none, { s with reassembler := r })) ∨
      ∃ g, s.reassembler.push f = (.ok (some g), r) ∧
        (({ s with reassembler := r }.handle g = none ∧
            s.absorb f = (none, { s with reassembler := r })) ∨
          ∃ a t, { s with reassembler := r }.handle g = some (a, t) ∧
            s.absorb f = (some a, t)) := by
  cases hp : s.reassembler.push f with
  | mk o r =>
  refine ⟨r, ?_⟩
  cases o with
  | error e => exact .inl ⟨e, rfl, absorb_of_error hp⟩
  | ok complete =>
    right
    cases complete with
    | none => exact .inl ⟨rfl, absorb_of_collected hp⟩
    | some g =>
      refine .inr ⟨g, rfl, ?_⟩
      cases hh : { s with reassembler := r }.handle g with
      | none => exact .inl ⟨rfl, absorb_of_silent hp hh⟩
      | some p => exact .inr ⟨p.1, p.2, rfl, absorb_of_handled hp hh⟩

theorem absorb_state (s : Session) (f : Frame) :
    ∃ r, (s.absorb f).2 = { s with reassembler := r } ∨
      (s.absorb f).2 = { s with reassembler := r }.ended := by
  obtain ⟨r, ⟨e, _, h⟩ | ⟨_, h⟩ | ⟨g, _, ⟨_, h⟩ | ⟨a, t, hh, h⟩⟩⟩ := absorb_cases s f
  all_goals
    refine ⟨r, ?_⟩
    rw [h]
  · exact .inr rfl
  · exact .inl rfl
  · exact .inl rfl
  · exact handle_state hh

@[simp] theorem maxFrame_absorb (s : Session) (f : Frame) :
    (s.absorb f).2.maxFrame = s.maxFrame := by
  obtain ⟨r, h | h⟩ := absorb_state s f <;> rw [h]; rfl

@[simp] theorem buffer_absorb (s : Session) (f : Frame) : (s.absorb f).2.buffer = s.buffer := by
  obtain ⟨r, h | h⟩ := absorb_state s f <;> rw [h]; rfl

theorem finished_absorb (f : Frame) (hs : s.finished = true) :
    (s.absorb f).2.finished = true := by
  obtain ⟨r, h | h⟩ := absorb_state s f <;> rw [h]
  · exact hs
  · rfl

end Absorb

section Whole

variable {m : Message}

theorem handle_message (hs : s.finished = false) : s.handle m.frame = some (.deliver m, s) := by
  unfold handle
  rw [if_neg (Bool.eq_false_iff.mp hs)]
  cases m with
  | text t =>
    dsimp only [Message.frame, Frame.whole]
    rw [Text.ofUtf8?_utf8]
  | binary data => rfl

theorem opcode_message (m : Message) : m.frame.opcode = .text ∨ m.frame.opcode = .binary := by
  cases m with
  | text t => exact .inl rfl
  | binary data => exact .inr rfl

theorem whole_message (m : Message) : Frame.whole m.frame.opcode m.frame.payload = m.frame := by
  cases m <;> rfl

theorem absorb_message (hs : s.finished = false) (hp : s.reassembler.pending = none) :
    s.absorb m.frame = (some (.deliver m), s) := by
  have hfin : m.frame.fin = true := by cases m <;> rfl
  exact absorb_of_handled (Reassembler.push_unfragmented (opcode_message m) hfin hp)
    (handle_message hs)

theorem absorb_close (hs : s.finished = false) (payload : Octets) :
    s.absorb (.whole .close payload) = (some (s.peerClose payload).1, (s.peerClose payload).2) := by
  apply absorb_of_handled (Reassembler.push_of_not_concerned rfl)
  unfold handle
  rw [if_neg (Bool.eq_false_iff.mp hs)]
  rfl

end Whole

section Receive

variable (s : Session) (more : Octets)

theorem receive_receive (b : Octets) : (s.receive b).receive more = s.receive (b ++ more) := by
  simp [receive]

@[simp] theorem receive_nil : s.receive [] = s := by
  simp [receive]

theorem violate_receive (code : CloseCode) :
    (s.receive more).violate code = ((s.violate code).1, (s.violate code).2.receive more) := by
  unfold violate initiateClose receive
  dsimp only
  split <;> rfl

theorem peerClose_receive (payload : Octets) :
    (s.receive more).peerClose payload =
      ((s.peerClose payload).1, (s.peerClose payload).2.receive more) := by
  unfold peerClose receive
  dsimp only
  split <;> rfl

theorem handle_receive (f : Frame) :
    (s.receive more).handle f = (s.handle f).map fun r => (r.1, r.2.receive more) := by
  have hfin : (s.receive more).finished = s.finished := rfl
  have hawait : (s.receive more).awaitingClose = s.awaitingClose := rfl
  unfold handle
  rw [hfin, hawait]
  split
  · rfl
  · cases f.opcode with
    | text =>
      dsimp only
      cases Text.ofUtf8? f.payload with
      | some t => rfl
      | none => exact congrArg some (s.violate_receive more .invalid)
    | ping =>
      dsimp only
      split <;> rfl
    | close => exact congrArg some (s.peerClose_receive more f.payload)
    | reservedData i => exact congrArg some (s.violate_receive more .protocol)
    | reservedControl i => exact congrArg some (s.violate_receive more .protocol)
    | _ => rfl

/-- Frames are absorbed without regard to what waits behind them. -/
theorem absorb_receive (f : Frame) :
    (s.receive more).absorb f = ((s.absorb f).1, (s.absorb f).2.receive more) := by
  have hpush : (s.receive more).reassembler.push f = s.reassembler.push f := rfl
  unfold absorb
  rw [hpush]
  generalize s.reassembler.push f = p
  obtain ⟨r, reassembler⟩ := p
  have hcomm : { s.receive more with reassembler } = { s with reassembler }.receive more := rfl
  dsimp only
  rw [hcomm]
  cases r with
  | error e =>
    dsimp only
    rw [violate_receive]
  | ok complete =>
    cases complete with
    | none => rfl
    | some g =>
      dsimp only
      rw [handle_receive]
      cases { s with reassembler }.handle g <;> rfl

end Receive

end WebSocketHost.Session
