import WebSocketHost.Proofs.Frame.Extension
import WebSocketHost.Proofs.Session.Absorb

/-! A session one frame at a time. A step takes the frame in front and refuses or
absorbs it; `drain` is `step` repeated until there is none. Later proofs cite these
equations and do not open `step` or `drain`. -/
namespace WebSocketHost.Session

/-- Ends the session because a frame cannot be decoded. -/
def refuse (s : Session) (e : Frame.DecodeError) : Option Action × Session :=
  let (a, s) := s.violate (codeOfDecodeError e)
  (some a, s)

section Step

variable {s : Session}

theorem step_of_finished (hf : s.finished = true) : s.step = none := by
  unfold step
  rw [if_pos hf]

theorem step_of_incomplete {available : Nat}
    (hd : Frame.decode s.maxFrame s.buffer = .error (.incomplete available)) : s.step = none := by
  unfold step
  rw [hd]
  split <;> rfl

theorem step_of_empty (hbuf : s.buffer = []) : s.step = none := by
  apply step_of_incomplete
  rw [hbuf]
  exact Frame.decode_nil s.maxFrame

theorem step_ofLimits (maxFrame : Nat) (limits : ReassemblyLimits) :
    (ofLimits maxFrame limits).step = none := step_of_empty rfl

theorem step_of_refusal {e : Frame.DecodeError} (hf : s.finished = false)
    (he : ∀ available, e ≠ .incomplete available)
    (hd : Frame.decode s.maxFrame s.buffer = .error e) : s.step = some (s.refuse e) := by
  unfold step
  rw [hd, if_neg (Bool.eq_false_iff.mp hf)]
  cases e with
  | incomplete available => exact absurd rfl (he available)
  | _ => rfl

theorem step_of_frame {f : Frame} {rest : Octets} (hf : s.finished = false)
    (hd : Frame.decode s.maxFrame s.buffer = .ok (f, rest)) :
    s.step = some ({ s with buffer := rest }.absorb f) := by
  unfold step absorb
  rw [hd, if_neg (Bool.eq_false_iff.mp hf)]
  dsimp only
  generalize s.reassembler.push f = p
  obtain ⟨r, reassembler⟩ := p
  cases r with
  | error e => rfl
  | ok complete =>
    cases complete with
    | none => rfl
    | some g =>
      dsimp only
      cases { s with buffer := rest, reassembler }.handle g <;> rfl

/-- Everything a step can be: a frame that cannot be decoded, or one that is absorbed. -/
theorem step_cases {r : Option Action × Session} (h : s.step = some r) :
    s.finished = false ∧
      ((∃ e, (∀ available, e ≠ .incomplete available) ∧
          Frame.decode s.maxFrame s.buffer = .error e ∧ r = s.refuse e) ∨
        ∃ f rest, Frame.decode s.maxFrame s.buffer = .ok (f, rest) ∧
          r = { s with buffer := rest }.absorb f) := by
  have hf : s.finished = false := by
    cases hf : s.finished with
    | false => rfl
    | true =>
      rw [step_of_finished hf] at h
      cases h
  refine ⟨hf, ?_⟩
  cases hd : Frame.decode s.maxFrame s.buffer with
  | ok p =>
    obtain ⟨f, rest⟩ := p
    rw [step_of_frame hf hd] at h
    exact .inr ⟨f, rest, rfl, (Option.some.inj h).symm⟩
  | error e =>
    by_cases he : ∃ available, e = .incomplete available
    · obtain ⟨available, rfl⟩ := he
      rw [step_of_incomplete hd] at h
      cases h
    · have he : ∀ available, e ≠ .incomplete available := fun available h => he ⟨available, h⟩
      rw [step_of_refusal hf he hd] at h
      exact .inl ⟨e, he, rfl, (Option.some.inj h).symm⟩

/-- Whether there is a step depends on the bytes and on `finished` only. -/
theorem step_eq_none_of_same {t : Session} (h : s.step = none) (hmax : t.maxFrame = s.maxFrame)
    (hbuf : t.buffer = s.buffer) (hfin : t.finished = s.finished) : t.step = none := by
  cases ht : t.step with
  | none => rfl
  | some r =>
    obtain ⟨hf, ⟨e, he, hd, _⟩ | ⟨f, rest, hd, _⟩⟩ := step_cases ht
    · rw [hmax, hbuf] at hd
      rw [step_of_refusal (hfin.symm.trans hf) he hd] at h
      cases h
    · rw [hmax, hbuf] at hd
      rw [step_of_frame (hfin.symm.trans hf) hd] at h
      cases h

end Step

theorem step_receive {s t : Session} {a : Option Action} (more : Octets)
    (h : s.step = some (a, t)) : (s.receive more).step = some (a, t.receive more) := by
  obtain ⟨hf, ⟨e, he, hd, hr⟩ | ⟨f, rest, hd, hr⟩⟩ := step_cases h
  all_goals have hf : (s.receive more).finished = false := hf
  · have hd' : Frame.decode (s.receive more).maxFrame (s.receive more).buffer = .error e :=
      Frame.decode_append_of_refusal more he hd
    rw [step_of_refusal hf he hd', refuse, violate_receive]
    cases hr
    rfl
  · have hd' : Frame.decode (s.receive more).maxFrame (s.receive more).buffer =
        .ok (f, rest ++ more) := Frame.decode_append_of_ok more hd
    have hcomm : { s.receive more with buffer := rest ++ more } =
        { s with buffer := rest }.receive more := rfl
    rw [step_of_frame hf hd', hcomm, absorb_receive, ← hr]

section Drain

variable {s t : Session}

theorem drain_eq (s : Session) :
    s.drain = match s.next with
      | (none, t) => ([], t)
      | (some a, t) => (a :: t.drain.1, t.drain.2) := by
  conv => lhs; rw [drain]
  split
  · next h => rw [h]
  · next h => rw [h]

theorem drain_of_step_none (h : s.step = none) : s.drain = ([], s) := by
  have hnext : s.next = (none, s) := by
    rw [next]
    split <;> simp_all
  rw [drain_eq, hnext]

theorem drain_of_step {a : Option Action} (h : s.step = some (a, t)) :
    s.drain = (a.toList ++ t.drain.1, t.drain.2) := by
  cases a with
  | some a =>
    have hnext : s.next = (some a, t) := by
      rw [next]
      split <;> simp_all
    rw [drain_eq, hnext]
    rfl
  | none =>
    have hnext : s.next = t.next := by
      conv => lhs; rw [next]
      split <;> simp_all
    rw [drain_eq, hnext, ← drain_eq]
    rfl

/-- To show something of a session's drain, show it where no step is left, and
carry it from the session after a step to the session before. -/
theorem drain_induction {P : Session → Prop} (done : ∀ s, s.step = none → P s)
    (step : ∀ s a t, s.step = some (a, t) → P t → P s) (s : Session) : P s := by
  induction hn : s.room using Nat.strongRecOn generalizing s with
  | ind n ih =>
    cases h : s.step with
    | none => exact done s h
    | some p => exact step s p.1 p.2 h (ih p.2.room (hn ▸ room_step_lt h) p.2 rfl)

theorem step_drain (s : Session) : s.drain.2.step = none := by
  induction s using drain_induction with
  | done s h => rwa [drain_of_step_none h]
  | step s a t h ih => rwa [drain_of_step h]

end Drain

end WebSocketHost.Session
