import WebSocketHost.Proofs.Session.Step

/-! Whatever is asked of a session and in whatever order, it hands out at most one
close frame and nothing after it. The two flags make a machine of three reachable
states, open, closing and finished; `Change` lists its transitions, each call is
shown to make one, and the rest is said of transitions alone. -/
namespace WebSocketHost.Session

/-- Everything an owner can ask of a session. -/
inductive Call
  | receive (bytes : Octets)
  | next
  | handle (f : Frame)
  | encode (m : Message)
  | initiateClose (code : CloseCode) (reason : String)

inductive Answer
  | action (a : Action)
  | bytes (b : Octets)

namespace Answer

/-- The bytes handed out to be written. -/
def bytes? : Answer → Option Octets
  | action (.deliver _) => none
  | action (.reply b) => some b
  | action (.close reply _) => reply
  | bytes b => some b

def isClosing : Answer → Bool
  | action (.close _ _) => true
  | _ => false

end Answer

def call (s : Session) : Call → Option Answer × Session
  | .receive bytes => (none, s.receive bytes)
  | .next =>
    let (a, s) := s.next
    (a.map .action, s)
  | .handle f =>
    match s.handle f with
    | some (a, s) => (some (.action a), s)
    | none => (none, s)
  | .encode m => ((s.encode? m).map .bytes, s)
  | .initiateClose code reason =>
    let (b, s) := s.initiateClose code reason
    (b.map .bytes, s)

/-- The answers to calls one after another. -/
def answers (s : Session) : List Call → List Answer × Session
  | [] => ([], s)
  | c :: cs =>
    let (a, s) := s.call c
    let (rest, s) := s.answers cs
    (a.toList ++ rest, s)

def flags (s : Session) : Bool × Bool := (s.awaitingClose, s.finished)

/-- What one call can answer, and what it makes of the flags. -/
inductive Change : Bool × Bool → Option Answer → Bool × Bool → Prop
  | silent (flags : Bool × Bool) : Change flags none flags
  | deliver (awaiting : Bool) (m : Message) :
    Change (awaiting, false) (some (.action (.deliver m))) (awaiting, false)
  | reply (f : Frame) (hf : f.opcode ≠ .close) :
    Change (false, false) (some (.action (.reply f.encode))) (false, false)
  | send (finished : Bool) (f : Frame) (hf : f.opcode ≠ .close) :
    Change (false, finished) (some (.bytes f.encode)) (false, finished)
  | start (finished : Bool) (f : Frame) (hf : f.opcode = .close) :
    Change (false, finished) (some (.bytes f.encode)) (true, finished)
  | finish (f : Frame) (hf : f.opcode = .close) (reason : SessionEnd) :
    Change (false, false) (some (.action (.close (some f.encode) reason))) (true, true)
  | acknowledge (reason : SessionEnd) :
    Change (true, false) (some (.action (.close none reason))) (true, true)

theorem Change.eq_of_none {before after : Bool × Bool} (h : Change before none after) :
    after = before := by
  cases h
  rfl

section Changes

variable {s : Session}

theorem violate_change (hs : s.finished = false) (code : CloseCode) :
    Change s.flags (some (.action (s.violate code).1)) (s.violate code).2.flags := by
  rw [violate_eq, flags, hs]
  cases s.awaitingClose with
  | true => exact .acknowledge _
  | false => exact .finish (CloseNotice.ofReason code "").frame rfl _

theorem peerClose_change (hs : s.finished = false) (payload : Octets) :
    Change s.flags (some (.action (s.peerClose payload).1)) (s.peerClose payload).2.flags := by
  rw [peerClose_eq, flags, hs]
  cases s.awaitingClose with
  | true => exact .acknowledge _
  | false => exact .finish (closeReply payload) rfl _

theorem handle_change {t : Session} {f : Frame} {a : Action} (h : s.handle f = some (a, t)) :
    Change s.flags (some (.action a)) t.flags := by
  obtain ⟨hs, ⟨m, _, rfl, rfl⟩ | ⟨_, hawait, rfl, rfl⟩ | ⟨_, ht⟩ | ⟨_, _, ht⟩ | ⟨_, ht⟩⟩ :=
    handle_cases h
  · rw [flags, hs]
    exact .deliver _ m
  · rw [flags, hawait, hs]
    exact .reply (.whole .pong f.payload) (fun h => by cases h)
  · have hchange := peerClose_change hs f.payload
    rwa [← ht] at hchange
  · have hchange := violate_change hs .invalid
    rwa [← ht] at hchange
  · have hchange := violate_change hs .protocol
    rwa [← ht] at hchange

theorem absorb_change (hs : s.finished = false) (f : Frame) :
    Change s.flags ((s.absorb f).1.map .action) (s.absorb f).2.flags := by
  obtain ⟨r, ⟨e, _, h⟩ | ⟨_, h⟩ | ⟨g, _, ⟨_, h⟩ | ⟨a, t, hh, h⟩⟩⟩ := absorb_cases s f
  all_goals rw [h]
  · have hchange := violate_change (s := { s with reassembler := r }) hs (codeOfReassemblyError e)
    rwa [violate_eq] at hchange ⊢
  · exact .silent s.flags
  · exact .silent s.flags
  · exact handle_change (s := { s with reassembler := r }) hh

theorem step_change {t : Session} {a : Option Action} (h : s.step = some (a, t)) :
    Change s.flags (a.map .action) t.flags := by
  obtain ⟨hs, ⟨e, _, _, hr⟩ | ⟨f, rest, _, hr⟩⟩ := step_cases h
  · cases hr
    exact violate_change hs (codeOfDecodeError e)
  · have hchange := absorb_change (s := { s with buffer := rest }) hs f
    rwa [← hr] at hchange

theorem next_change (s : Session) : Change s.flags (s.next.1.map .action) s.next.2.flags := by
  fun_induction next s with
  | case1 s h => exact .silent s.flags
  | case2 s a t h => exact step_change h
  | case3 s t h ih =>
    have hflags : t.flags = s.flags := (step_change h).eq_of_none
    rwa [hflags] at ih

theorem call_change (s : Session) (c : Call) : Change s.flags (s.call c).1 (s.call c).2.flags := by
  cases c with
  | receive bytes => exact .silent s.flags
  | next => exact next_change s
  | handle f =>
    unfold call
    dsimp only
    cases h : s.handle f with
    | none => exact .silent s.flags
    | some p => exact handle_change h
  | encode m =>
    unfold call encode?
    cases h : s.awaitingClose with
    | true => exact .silent s.flags
    | false =>
      rw [flags, h]
      apply Change.send
      cases m <;> exact fun hop => by cases hop
  | initiateClose code reason =>
    unfold call initiateClose
    cases h : s.awaitingClose with
    | true => exact .silent s.flags
    | false =>
      rw [flags, h]
      exact .start _ (CloseNotice.ofReason code reason).frame rfl

end Changes

/-- What holds of all answers so far and the flags they have led to. -/
structure Orderly (past : List Answer) (flags : Bool × Bool) : Prop where
  /-- Each byte string is one frame, and only the last can be a close frame. -/
  written : ∃ frames : List Frame, past.filterMap Answer.bytes? = frames.map Frame.encode ∧
    (∀ f ∈ frames.dropLast, f.opcode ≠ .close) ∧
    (flags.1 = true ↔ ∃ f ∈ frames, f.opcode = .close)
  closings : past.countP Answer.isClosing = flags.2.toNat
  finished : flags.2 = true → flags.1 = true

namespace Orderly

variable {past : List Answer} {finished : Bool} {before after : Bool × Bool}

theorem nil : Orderly [] (false, false) :=
  ⟨⟨[], rfl, by simp, by simp⟩, rfl, nofun⟩

theorem written_open (h : Orderly past (false, finished)) :
    ∃ frames : List Frame, past.filterMap Answer.bytes? = frames.map Frame.encode ∧
      ∀ f ∈ frames, f.opcode ≠ .close := by
  obtain ⟨frames, hbytes, _, hclose⟩ := h.written
  refine ⟨frames, hbytes, fun f hf hop => ?_⟩
  exact absurd (hclose.mpr ⟨f, hf, hop⟩) Bool.false_ne_true

theorem countP_append (h : Orderly past before) (a : Answer) :
    (past ++ [a]).countP Answer.isClosing = before.2.toNat + a.isClosing.toNat := by
  rw [List.countP_append, h.closings, List.countP_singleton]
  cases a.isClosing <;> rfl

/-- An answer that has nothing written. -/
theorem keep (h : Orderly past before) {a : Answer} (ha : a.bytes? = none)
    (hawait : after.1 = before.1) (hfin : after.2.toNat = before.2.toNat + a.isClosing.toNat)
    (himp : after.2 = true → after.1 = true) : Orderly (past ++ [a]) after := by
  have hwritten : (past ++ [a]).filterMap Answer.bytes? = past.filterMap Answer.bytes? := by
    simp [List.filterMap_append, ha]
  refine ⟨?_, ?_, himp⟩
  · rw [hwritten, hawait]
    exact h.written
  · rw [h.countP_append, hfin]

/-- An answer that has one more frame written, with no close frame out before it. -/
theorem write (h : Orderly past (false, finished)) {a : Answer} {f : Frame}
    (ha : a.bytes? = some f.encode) (hawait : after.1 = true ↔ f.opcode = .close)
    (hfin : after.2.toNat = finished.toNat + a.isClosing.toNat)
    (himp : after.2 = true → after.1 = true) : Orderly (past ++ [a]) after := by
  obtain ⟨frames, hbytes, hopen⟩ := h.written_open
  refine ⟨⟨frames ++ [f], ?_, ?_, ?_⟩, ?_, himp⟩
  · simp [List.filterMap_append, hbytes, ha]
  · rw [List.dropLast_concat]
    exact hopen
  · rw [hawait]
    constructor
    · intro hop
      exact ⟨f, List.mem_append_right frames (List.mem_singleton_self f), hop⟩
    · rintro ⟨g, hg, hop⟩
      rcases List.mem_append.mp hg with hg | hg
      · exact absurd hop (hopen g hg)
      · rwa [← List.mem_singleton.mp hg]
  · rw [h.countP_append, hfin]

theorem change {a : Option Answer} (h : Orderly past before) (hc : Change before a after) :
    Orderly (past ++ a.toList) after := by
  cases hc with
  | silent flags => rwa [Option.toList_none, List.append_nil]
  | deliver awaiting m => exact h.keep rfl rfl rfl h.finished
  | reply f hf => exact h.write rfl ⟨nofun, fun hop => absurd hop hf⟩ rfl nofun
  | send finished f hf => exact h.write rfl ⟨nofun, fun hop => absurd hop hf⟩ rfl h.finished
  | start finished f hf => exact h.write rfl ⟨fun _ => hf, fun _ => rfl⟩ rfl fun _ => rfl
  | finish f hf reason => exact h.write rfl ⟨fun _ => hf, fun _ => rfl⟩ rfl fun _ => rfl
  | acknowledge reason => exact h.keep rfl rfl rfl fun _ => rfl

end Orderly

theorem Change.awaiting_mono {before after : Bool × Bool} {a : Option Answer}
    (h : Change before a after) (hb : before.1 = true) : after.1 = true := by
  cases h with
  | start => rfl
  | finish => rfl
  | acknowledge => rfl
  | _ => exact hb

theorem Change.finished_mono {before after : Bool × Bool} {a : Option Answer}
    (h : Change before a after) (hb : before.2 = true) : after.2 = true := by
  cases h with
  | finish => rfl
  | acknowledge => rfl
  | _ => exact hb

/-- Nothing is answered once both flags are set. -/
theorem Change.none_of_finished {before after : Bool × Bool} {a : Option Answer}
    (h : Change before a after) (hb : before = (true, true)) : a = none := by
  cases h with
  | silent => rfl
  | _ => simp_all

section Histories

variable {s : Session}

theorem answers_cons (s : Session) (c : Call) (calls : List Call) :
    s.answers (c :: calls) =
      ((s.call c).1.toList ++ ((s.call c).2.answers calls).1, ((s.call c).2.answers calls).2) := rfl

theorem orderly_answers {past : List Answer} (h : Orderly past s.flags) (calls : List Call) :
    Orderly (past ++ (s.answers calls).1) (s.answers calls).2.flags := by
  induction calls generalizing s past with
  | nil => simpa [answers] using h
  | cons c calls ih =>
    rw [answers_cons, ← List.append_assoc]
    exact ih (h.change (call_change s c))

/-- In every history the byte strings handed out are frames of which only the last
can be a close frame, and `awaitingClose` says whether it is. One closing is acted on
when `finished` is set and none before; finishing needs a close frame to be out;
both flags stay once they are set; and a finished session answers nothing. -/
theorem close_frame_is_last (maxFrame : Nat) (limits : ReassemblyLimits) (calls : List Call) :
    let past := ((ofLimits maxFrame limits).answers calls).1
    let s := ((ofLimits maxFrame limits).answers calls).2
    (∃ frames : List Frame, past.filterMap Answer.bytes? = frames.map Frame.encode ∧
      (∀ f ∈ frames.dropLast, f.opcode ≠ .close) ∧
      (s.awaitingClose = true ↔ ∃ f ∈ frames, f.opcode = .close)) ∧
    past.countP Answer.isClosing = s.finished.toNat ∧
    (s.finished = true → s.awaitingClose = true) ∧
    (∀ c, s.awaitingClose = true → (s.call c).2.awaitingClose = true) ∧
    (∀ c, s.finished = true → (s.call c).2.finished = true ∧ (s.call c).1 = none) := by
  intro past s
  have hfresh : Orderly [] (ofLimits maxFrame limits).flags := Orderly.nil
  have h : Orderly past s.flags := orderly_answers hfresh calls
  refine ⟨h.written, h.closings, h.finished, ?_, ?_⟩
  · intro c hawait
    exact (call_change s c).awaiting_mono hawait
  · intro c hfin
    have hflags : s.flags = (true, true) := Prod.ext (h.finished hfin) hfin
    exact ⟨(call_change s c).finished_mono hfin, (call_change s c).none_of_finished hflags⟩

end Histories

end WebSocketHost.Session
