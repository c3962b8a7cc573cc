import WebSocketHost.Proofs.Session.Bounds
import WebSocketHost.Proofs.Session.Next

/-! What comes to the dispatch on opcodes. The decoder keeps back what no frame may be, the
reassembler keeps back what is only part of a message; neither alone is enough, and the state
of the second is whatever the frames before have left. What is handed on is whole and of one of
five kinds, so that what `handle` would do with anything else makes no difference. -/
namespace WebSocketHost

/-- A frame to act on by itself: a message or a lawful control frame. -/
structure Frame.SelfContained (f : Frame) : Prop where
  fin : f.fin = true
  rsv : f.rsv = 0
  mask : f.mask = none
  opcode : f.opcode ∈ [.text, .binary, .ping, .pong, .close]
  control : f.opcode.isControl = true → f.payload.length ≤ 125

namespace Reassembler

variable {r : Reassembler} {f g : Frame}

/-- A message in progress was begun as text or as binary data. -/
def CollectsData (r : Reassembler) : Prop :=
  ∀ m, r.pending = some m → m.opcode = .text ∨ m.opcode = .binary

theorem collectsData_of_none (h : r.pending = none) : r.CollectsData := by
  simp [CollectsData, h]

theorem CollectsData.push (h : r.CollectsData) (f : Frame) : (r.push f).2.CollectsData := by
  cases hcon : concerns f.opcode with
  | false => rwa [push_of_not_concerned hcon]
  | true =>
    cases hadv : advance r.limits r.pending f with
    | error e =>
      rw [push_of_refused hcon hadv]
      exact collectsData_of_none rfl
    | ok progress =>
      cases progress with
      | whole g =>
        rw [push_of_whole hcon hadv]
        exact collectsData_of_none rfl
      | collected m =>
        rw [push_of_part hcon hadv]
        rintro _ ⟨⟩
        rcases advance_cases hadv with ⟨-, hop, ⟨-, hp⟩ | ⟨-, -, hp⟩⟩ |
          ⟨before, hbefore, -, -, -, hp | ⟨-, hp⟩⟩
        all_goals cases hp
        · exact initial_of_concerns hcon hop
        · exact h before hbefore

/-- What passes the reassembler by and is not reserved. -/
theorem control_of_not_concerned {o : Opcode} (hcon : concerns o = false)
    (hreserved : o.isReserved = false) :
    o.isControl = true ∧ o ∈ [.text, .binary, .ping, .pong, .close] := by
  cases o <;> simp_all [concerns, Opcode.isReserved, Opcode.isControl]

/-- Of what the decoder lets through, the reassembler gives only frames to act on. -/
theorem CollectsData.given (h : r.CollectsData) {max : Nat} {b rest : Octets}
    (hd : Frame.decode max b = .ok (f, rest)) (hg : (r.push f).1 = .ok (some g)) :
    g.SelfContained := by
  obtain ⟨hreserved, hrsv, -, hcontrol, -⟩ :=
    Frame.Header.fault?_eq_none_iff.mp (Frame.acceptable_of_decode hd)
  have hreserved : f.opcode.isReserved = false := hreserved
  have hmask : f.mask = none := by rw [Frame.eq_of_decode hd]
  have hdata {o : Opcode} {payload : Octets} (ho : o = .text ∨ o = .binary) :
      (Frame.whole o payload).SelfContained := by
    rcases ho with rfl | rfl
    all_goals exact ⟨rfl, rfl, rfl, by simp [Frame.whole], (absurd · Bool.false_ne_true)⟩
  cases hcon : concerns f.opcode with
  | false =>
    rw [push_of_not_concerned hcon] at hg
    cases hg
    obtain ⟨hc, hop⟩ := control_of_not_concerned hcon hreserved
    exact ⟨(hcontrol hc).1, Fin.ext hrsv, hmask, hop, fun hc => (hcontrol hc).2⟩
  | true =>
    cases hadv : advance r.limits r.pending f with
    | error e =>
      rw [push_of_refused hcon hadv] at hg
      cases hg
    | ok progress =>
      cases progress with
      | collected m =>
        rw [push_of_part hcon hadv] at hg
        cases hg
      | whole w =>
        rw [push_of_whole hcon hadv] at hg
        cases hg
        rcases advance_cases hadv with ⟨-, hop, ⟨hfin, hp⟩ | ⟨-, -, hp⟩⟩ |
          ⟨before, hbefore, -, -, -, hp | ⟨-, hp⟩⟩
        all_goals cases hp
        · have hf : f = .whole f.opcode f.payload := by
            rw [Frame.eq_of_decode hd, hfin]
            rfl
          rw [hf]
          exact hdata (initial_of_concerns hcon hop)
        · exact hdata (h before hbefore)

end Reassembler

namespace Session

/-- The frame a step hands to `handle`, and the session that is to act on it. -/
def handed? (s : Session) : Option (Frame × Session) :=
  if s.finished then none
  else match Frame.decode s.maxFrame s.buffer with
    | .error _ => none
    | .ok (f, rest) =>
      match s.reassembler.push f with
      | (.ok (some g), reassembler) => some (g, { s with buffer := rest, reassembler })
      | _ => none

/-- `step` with another way to act on frames in the place of `handle`. -/
def stepBy (act : Session → Frame → Option (Action × Session)) (s : Session) :
    Option (Option Action × Session) :=
  if s.finished then none
  else match Frame.decode s.maxFrame s.buffer with
    | .error (.incomplete _) => none
    | .error e => let (a, s) := s.violate (codeOfDecodeError e); some (some a, s)
    | .ok (f, rest) =>
      let (r, reassembler) := s.reassembler.push f
      let s := { s with buffer := rest, reassembler }
      match r with
      | .error e => let (a, s) := s.violate (codeOfReassemblyError e); some (some a, s)
      | .ok none => some (none, s)
      | .ok (some f) =>
        match act s f with
        | some (a, s) => some (some a, s)
        | none => some (none, s)

/-- All the frames that `next` hands to `handle`, in their order. -/
def passed (s : Session) : List Frame :=
  (s.handed?.map Prod.fst).toList ++
    match _h : s.step with
    | some (none, t) => t.passed
    | _ => []
termination_by s.room
decreasing_by exact room_step_lt _h

section Step

variable {s t u : Session} {g : Frame} {a : Action}
  {act : Session → Frame → Option (Action × Session)}

/-- With the way there is, it is `step`. -/
theorem stepBy_handle (s : Session) : s.stepBy handle = s.step := rfl

/-- No other frame is acted on in a step. -/
theorem stepBy_congr {act' : Session → Frame → Option (Action × Session)}
    (h : ∀ g u, s.handed? = some (g, u) → act u g = act' u g) : s.stepBy act = s.stepBy act' := by
  unfold stepBy
  unfold handed? at h
  split
  · rfl
  next hf =>
  rw [if_neg hf] at h
  split
  · rfl
  · rfl
  next f rest hd =>
  rw [hd] at h
  dsimp only at h ⊢
  generalize s.reassembler.push f = p at h
  obtain ⟨r, reassembler⟩ := p
  rcases r with e | _ | g
  · rfl
  · rfl
  · dsimp only
    rw [h g _ rfl]

theorem handed?_of_push {f : Frame} {rest : Octets} {r : Reassembler} (hf : s.finished = false)
    (hd : Frame.decode s.maxFrame s.buffer = .ok (f, rest))
    (hp : s.reassembler.push f = (.ok (some g), r)) :
    s.handed? = some (g, { s with buffer := rest, reassembler := r }) := by
  unfold handed?
  rw [if_neg (Bool.eq_false_iff.mp hf), hd]
  dsimp only
  rw [hp]

theorem handed?_eq_some (h : s.handed? = some (g, u)) :
    ∃ f rest, Frame.decode s.maxFrame s.buffer = .ok (f, rest) ∧
      s.reassembler.push f = (.ok (some g), u.reassembler) := by
  unfold handed? at h
  split at h
  · cases h
  split at h
  · cases h
  next f rest hd =>
  split at h
  next g' r hp =>
    cases h
    exact ⟨f, rest, hd, hp⟩
  next => cases h

theorem selfContained_of_handed (hs : s.reassembler.CollectsData) (h : s.handed? = some (g, u)) :
    g.SelfContained := by
  obtain ⟨f, rest, hd, hp⟩ := handed?_eq_some h
  exact hs.given hd (congrArg Prod.fst hp)

theorem collectsData_step {r : Option Action} (hs : s.reassembler.CollectsData)
    (h : s.step = some (r, t)) : t.reassembler.CollectsData := by
  obtain ⟨-, ⟨e, -, -, hr⟩ | ⟨f, rest, -, hr⟩⟩ := step_cases h
  · rw [refuse, violate_eq] at hr
    cases hr
    exact hs
  · have ht : t = ({ s with buffer := rest }.absorb f).2 := congrArg Prod.snd hr
    rw [ht, reassembler_absorb]
    exact hs.push f

/-- The answer to a ping that a step was handed. -/
theorem handed_of_step_reply {b : Octets} (h : s.step = some (some (.reply b), t)) :
    ∃ g u, s.handed? = some (g, u) ∧ g.opcode = .ping ∧
      b = (Frame.whole .pong g.payload).encode := by
  obtain ⟨reply, code, ha⟩ | ⟨hf, f, rest, g, r, hd, hp, hh⟩ := step_action_cases h
  · cases ha
  · exact ⟨g, _, handed?_of_push hf hd hp, handle_reply hh⟩

end Step

section Course

variable {s t : Session} {act : Session → Frame → Option (Action × Session)}

/-- `next` with another way to act on frames: `NextBy act s r` if it comes to `r`. -/
inductive NextBy (act : Session → Frame → Option (Action × Session)) :
    Session → Option Action × Session → Prop
  | rests {s : Session} (h : s.stepBy act = none) : NextBy act s (none, s)
  | acts {s t : Session} {a : Action} (h : s.stepBy act = some (some a, t)) :
    NextBy act s (some a, t)
  | goesOn {s t : Session} {r : Option Action × Session} (h : s.stepBy act = some (none, t))
    (hmore : NextBy act t r) : NextBy act s r

/-- The same on whole frames is the same altogether. -/
theorem nextBy_iff (hact : ∀ u g, g.SelfContained → act u g = u.handle g)
    (hs : s.reassembler.CollectsData) {r : Option Action × Session} :
    NextBy act s r ↔ r = s.next := by
  have hstep (s : Session) (hs : s.reassembler.CollectsData) : s.stepBy act = s.step :=
    (stepBy_congr fun g u hg => hact u g (selfContained_of_handed hs hg)).trans s.stepBy_handle
  constructor
  · intro h
    induction h with
    | rests h =>
      rw [hstep _ hs] at h
      rw [next]
      split <;> simp_all
    | acts h =>
      rw [hstep _ hs] at h
      rw [next]
      split <;> simp_all
    | goesOn h hmore ih =>
      rw [hstep _ hs] at h
      have hmore := ih (collectsData_step hs h)
      rw [next]
      split <;> simp_all
  · rintro rfl
    fun_induction next s with
    | case1 s h => exact .rests ((hstep s hs).trans h)
    | case2 s a t h => exact .acts ((hstep s hs).trans h)
    | case3 s t h ih => exact .goesOn ((hstep s hs).trans h) (ih (collectsData_step hs h))

theorem passed_eq (s : Session) :
    s.passed = (s.handed?.map Prod.fst).toList ++
      match s.step with
      | some (none, t) => t.passed
      | _ => [] := by
  conv => lhs; rw [passed]
  split <;> simp_all

theorem selfContained_of_passed (hs : s.reassembler.CollectsData) :
    ∀ f ∈ s.passed, f.SelfContained := by
  have hfront (s : Session) (hs : s.reassembler.CollectsData) :
      ∀ f ∈ (s.handed?.map Prod.fst).toList, f.SelfContained := by
    intro f hf
    obtain ⟨⟨g, u⟩, hg, rfl⟩ := Option.map_eq_some_iff.mp (Option.mem_toList.mp hf)
    exact selfContained_of_handed hs hg
  induction s using drain_induction with
  | done s h =>
    rw [passed_eq, h, List.append_nil]
    exact hfront s hs
  | step s a t h ih =>
    rw [passed_eq, h]
    cases a with
    | none => exact List.forall_mem_append.mpr ⟨hfront s hs, ih (collectsData_step hs h)⟩
    | some a =>
      rw [List.append_nil]
      exact hfront s hs

/-- The answer to a ping that was passed on. -/
theorem passed_of_next_reply {b : Octets} (h : s.next = (some (.reply b), t)) :
    ∃ g ∈ s.passed, g.opcode = .ping ∧ b = (Frame.whole .pong g.payload).encode := by
  fun_induction next s with
  | case1 => cases h
  | case2 s a u hs =>
    cases h
    obtain ⟨g, v, hg, hping⟩ := handed_of_step_reply hs
    refine ⟨g, ?_, hping⟩
    rw [passed_eq, hg]
    exact List.mem_append_left _ (by simp)
  | case3 s u hs ih =>
    obtain ⟨g, hg, hping⟩ := ih h
    refine ⟨g, ?_, hping⟩
    rw [passed_eq, hs]
    exact List.mem_append_right _ hg

theorem reassembler_call_collectsData (hs : s.reassembler.CollectsData) (c : Call) :
    (s.call c).2.reassembler.CollectsData := by
  cases c with
  | receive bytes => exact hs
  | next =>
    show s.next.2.reassembler.CollectsData
    fun_induction next s with
    | case1 s h => exact hs
    | case2 s a t h => exact collectsData_step hs h
    | case3 s t h ih => exact ih (collectsData_step hs h)
  | handle f =>
    unfold call
    dsimp only
    cases h : s.handle f with
    | none => exact hs
    | some p =>
      obtain ⟨a, t⟩ := p
      rcases handle_state h with rfl | rfl <;> exact hs
  | encode m => exact hs
  | initiateClose code reason =>
    unfold call initiateClose
    dsimp only
    split <;> exact hs

theorem collectsData_answers (hs : s.reassembler.CollectsData) (calls : List Call) :
    (s.answers calls).2.reassembler.CollectsData := by
  induction calls generalizing s with
  | nil => exact hs
  | cons c calls ih => exact ih (reassembler_call_collectsData hs c)

end Course

/-- `handle` with its branches for continuations and reserved opcodes left to `stray`. -/
def handleOr (stray : Session → Frame → Option (Action × Session)) (s : Session) (f : Frame) :
    Option (Action × Session) :=
  match f.opcode with
  | .continuation | .reservedData _ | .reservedControl _ => stray s f
  | _ => s.handle f

theorem handleOr_of_selfContained (stray : Session → Frame → Option (Action × Session))
    {s : Session} {f : Frame} (hf : f.SelfContained) : s.handleOr stray f = s.handle f := by
  have hop := hf.opcode
  unfold handleOr
  split <;> simp_all

/-- In every state a session can come to, whatever its limits, what it was sent and what was asked
of it: the frames that `next` hands to `handle` are whole, unmasked and without reserved bits, a
message, or a ping, pong or close of at most 125 bytes; what `handle` does with any others makes
no difference to `next`; and an answer is the pong to such a ping, a frame that every receiver
takes who takes 125 bytes. -/
theorem next_hands_on (maxFrame : Nat) (limits : ReassemblyLimits) (calls : List Call) :
    let s := ((ofLimits maxFrame limits).answers calls).2
    (∀ f ∈ s.passed, f.SelfContained) ∧
    (∀ stray r, NextBy (handleOr stray) s r ↔ r = s.next) ∧
    ∀ b t, s.next = (some (.reply b), t) →
      ∃ f ∈ s.passed, f.opcode = .ping ∧ b = (Frame.whole .pong f.payload).encode ∧
        ∀ max rest, 125 ≤ max →
          Frame.decode max (b ++ rest) = .ok (.whole .pong f.payload, rest) := by
  intro s
  have hs : s.reassembler.CollectsData :=
    collectsData_answers (Reassembler.collectsData_of_none rfl) calls
  refine ⟨selfContained_of_passed hs, fun stray r => ?_, fun b t h => ?_⟩
  · exact nextBy_iff (fun u g => handleOr_of_selfContained stray) hs
  · obtain ⟨f, hf, hping, rfl⟩ := passed_of_next_reply h
    have hlen : f.payload.length ≤ 125 :=
      (selfContained_of_passed hs f hf).control (by rw [hping]; rfl)
    refine ⟨f, hf, hping, rfl, fun max rest hmax => ?_⟩
    have hpong : (Frame.whole .pong f.payload).Acceptable max :=
      Frame.acceptable_control (.inr (.inr rfl)) rfl rfl hlen (Nat.le_trans hlen hmax)
    exact Frame.decode_encode_append hpong rest

/-- A ping between the fragments of a message is answered before the message is there. -/
theorem next_hands_on_ping_between_fragments :
    let calls : List Call := [.receive [0x01, 1, 97, 0x89, 2, 104, 105, 0x80, 1, 98]]
    let s := ((ofLimits 300 ⟨1, 4, 8⟩).answers calls).2
    let b := (Frame.whole .pong [104, 105]).encode
    s.next.1 = some (.reply b) ∧
      ∃ f ∈ s.passed, f.opcode = .ping ∧ b = (Frame.whole .pong f.payload).encode ∧
        Frame.decode 125 (b ++ [0x88]) = .ok (.whole .pong f.payload, [0x88]) := by
  intro calls s b
  have hnext : s.next.1 = some (.reply b) := by decide +kernel
  obtain ⟨-, -, hpong⟩ := next_hands_on 300 ⟨1, 4, 8⟩ calls
  obtain ⟨f, hf, hping, hb, htaken⟩ := hpong b s.next.2 (Prod.ext hnext rfl)
  exact ⟨hnext, f, hf, hping, hb, htaken 125 [0x88] (Nat.le_refl 125)⟩

end Session

end WebSocketHost
