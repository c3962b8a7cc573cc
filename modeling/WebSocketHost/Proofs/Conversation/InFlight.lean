import WebSocketHost.Proofs.Session.Stream

/-! What is between two sessions on one byte channel, half-received bytes included:
the messages not yet delivered and, behind them, a close frame if the sender is
closing and the receiver has not finished. Draining the receiver takes messages
from the front of it and writes nothing but the answer to that close frame. -/
namespace WebSocketHost

namespace Action

def delivered? : Action → Option Message
  | deliver m => some m
  | _ => none

/-- What an action has its owner write. -/
def written : Action → Octets
  | reply b | close (some b) _ => b
  | _ => []

end Action

/-- The receiver takes messages of this size. No byte string in memory is longer than
the second bound, and no frame can announce more. -/
def Message.Fits (max : Nat) (m : Message) : Prop :=
  m.frame.payload.length ≤ max ∧ m.frame.payload.length < 2 ^ 63

theorem Message.Fits.acceptable {max : Nat} {m : Message} (hm : m.Fits max) :
    m.frame.Acceptable max := by
  cases m with
  | text t => exact Frame.acceptable_data (.inl rfl) rfl hm.2 hm.1
  | binary data => exact Frame.acceptable_data (.inr (.inl rfl)) rfl hm.2 hm.1

namespace Conversation

/-- The bytes between a sender and a receiver, by whether the sender is closing and
whether the receiver has finished, with the messages they still hold. -/
inductive InFlight (max : Nat) : Bool → Bool → List Message → Octets → Prop
  | opened (waiting : List Message) (hfit : ∀ m ∈ waiting, m.Fits max) :
    InFlight max false false waiting (waiting.flatMap fun m => m.frame.encode)
  | closing (waiting : List Message) (hfit : ∀ m ∈ waiting, m.Fits max) (payload : Octets)
    (hp : payload.length ≤ Frame.maxControlPayload) :
    InFlight max true false waiting
      ((waiting.flatMap fun m => m.frame.encode) ++ (Frame.whole .close payload).encode)
  | closed : InFlight max true true [] []

namespace InFlight

variable {max : Nat} {awaiting finished : Bool} {waiting : List Message} {bytes : Octets}

theorem send (h : InFlight max false finished waiting bytes) {m : Message} (hm : m.Fits max) :
    InFlight max false finished (waiting ++ [m]) (bytes ++ m.frame.encode) := by
  cases h with
  | opened waiting hfit =>
    have hfit' : ∀ x ∈ waiting ++ [m], x.Fits max := by
      intro x hx
      rcases List.mem_append.mp hx with hx | hx
      · exact hfit x hx
      · rwa [List.mem_singleton.mp hx]
    have h := opened (waiting ++ [m]) hfit'
    rwa [List.flatMap_append, List.flatMap_singleton] at h

theorem close (h : InFlight max false finished waiting bytes) {payload : Octets}
    (hp : payload.length ≤ Frame.maxControlPayload) :
    InFlight max true finished waiting (bytes ++ (Frame.whole .close payload).encode) := by
  cases h with
  | opened waiting hfit => exact closing waiting hfit payload hp

theorem nil_of_finished (h : InFlight max awaiting true waiting bytes) :
    waiting = [] ∧ bytes = [] := by
  cases h
  exact ⟨rfl, rfl⟩

/-- What an unfinished receiver will find at the front. -/
theorem front (h : InFlight max awaiting false waiting bytes) (hmax : 125 ≤ max) :
    (waiting = [] ∧ bytes = []) ∨
      (∃ m rest tail, waiting = m :: rest ∧ m.frame.Acceptable max ∧
        bytes = m.frame.encode ++ tail ∧ InFlight max awaiting false rest tail) ∨
      (∃ payload, waiting = [] ∧ awaiting = true ∧
        (Frame.whole .close payload).Acceptable max ∧
        bytes = (Frame.whole .close payload).encode) := by
  cases h with
  | opened waiting hfit =>
    cases waiting with
    | nil => exact .inl ⟨rfl, rfl⟩
    | cons m rest =>
      have hm := hfit m List.mem_cons_self
      have hrest := opened rest fun x hx => hfit x (List.mem_cons_of_mem m hx)
      exact .inr (.inl ⟨m, rest, _, rfl, hm.acceptable, List.flatMap_cons, hrest⟩)
  | closing waiting hfit payload hp =>
    cases waiting with
    | nil =>
      have hacc : (Frame.whole .close payload).Acceptable max :=
        Frame.acceptable_control (.inl rfl) rfl rfl hp (Nat.le_trans hp hmax)
      exact .inr (.inr ⟨payload, rfl, rfl, hacc, rfl⟩)
    | cons m rest =>
      have hm := hfit m List.mem_cons_self
      have hrest := closing rest (fun x hx => hfit x (List.mem_cons_of_mem m hx)) payload hp
      refine .inr (.inl ⟨m, rest, _, rfl, hm.acceptable, ?_, hrest⟩)
      rw [List.flatMap_cons, List.append_assoc]

end InFlight

end Conversation

open Conversation

namespace Session

section Draining

variable {s t : Session} {awaiting : Bool} {waiting : List Message} {rest tail : Octets}
  {o : Option Action}

theorem eq_of_receive_eq (h : t.receive rest = { s with buffer := tail }) :
    t = { s with buffer := t.buffer } ∧ t.buffer ++ rest = tail := by
  obtain ⟨maxFrame, reassembler, buffer, awaitingClose, finished⟩ := t
  cases h
  exact ⟨rfl, rfl⟩

/-- A frame at the front of what is buffered and on its way is what a step takes,
even though the frame may not be there whole. -/
theorem step_front {f : Frame} (hs : s.finished = false) (hacc : f.Acceptable s.maxFrame)
    (hbytes : s.buffer ++ rest = f.encode ++ tail) (h : s.step = some (o, t)) :
    { s with buffer := tail }.absorb f.unmasked = (o, t.receive rest) := by
  have hlater : (s.receive rest).step = some (o, t.receive rest) := step_receive rest h
  have hstep : (s.receive rest).step = some ({ s with buffer := tail }.absorb f.unmasked) :=
    step_of_encoded (s := s.receive rest) hs hacc hbytes
  rw [hlater] at hstep
  exact (Option.some.inj hstep).symm

theorem step_inFlight (hmax : 125 ≤ s.maxFrame) (hidle : s.reassembler.pending = none)
    (h : InFlight s.maxFrame awaiting s.finished waiting (s.buffer ++ rest))
    (hstep : s.step = some (o, t)) :
    (∃ m left, waiting = m :: left ∧ o = some (.deliver m) ∧ t = { s with buffer := t.buffer } ∧
        InFlight s.maxFrame awaiting false left (t.buffer ++ rest)) ∨
      (∃ payload, waiting = [] ∧ awaiting = true ∧ o = some (s.peerClose payload).1 ∧
        t = { s.ended with buffer := t.buffer } ∧ t.buffer ++ rest = []) := by
  have hs : s.finished = false := (step_cases hstep).1
  rw [hs] at h
  -- nothing in flight allows no step; otherwise the step took what is in front
  rcases h.front hmax with ⟨_, hbytes⟩ | ⟨m, left, tail, hwait, hacc, hbytes, hleft⟩ |
    ⟨payload, hwait, hawait, hacc, hbytes⟩
  · have hempty : s.buffer = [] := List.append_eq_nil_iff.mp hbytes |>.1
    rw [step_of_empty hempty] at hstep
    cases hstep
  · left
    have hmask : m.frame.unmasked = m.frame := by cases m <;> rfl
    have habs : { s with buffer := tail }.absorb m.frame.unmasked =
        (some (.deliver m), { s with buffer := tail }) := by
      rw [hmask]
      exact absorb_message hs hidle
    have hfront := habs.symm.trans (step_front hs hacc hbytes hstep)
    obtain ⟨hkeep, htail⟩ := eq_of_receive_eq (congrArg Prod.snd hfront).symm
    refine ⟨m, left, hwait, (congrArg Prod.fst hfront).symm, hkeep, ?_⟩
    rwa [htail]
  · right
    have hbytes : s.buffer ++ rest = (Frame.whole .close payload).encode ++ [] := by
      rw [hbytes, List.append_nil]
    have habs : { s with buffer := [] }.absorb (.whole .close payload) =
        (some (s.peerClose payload).1, { s.ended with buffer := [] }) := by
      rw [absorb_close (s := { s with buffer := [] }) hs, peerClose_eq, peerClose_eq]
      rfl
    have hfront := habs.symm.trans (step_front hs hacc hbytes hstep)
    obtain ⟨hkeep, htail⟩ := eq_of_receive_eq (s := s.ended) (congrArg Prod.snd hfront).symm
    exact ⟨payload, hwait, hawait, (congrArg Prod.fst hfront).symm, hkeep, htail⟩

end Draining

theorem closeReply_eq_whole (payload : Octets) :
    ∃ body : Octets, body.length ≤ Frame.maxControlPayload ∧
      closeReply payload = .whole .close body := by
  refine ⟨_, ?_, rfl⟩
  split
  · simp [Frame.maxControlPayload]
  · rw [List.length_take]
    exact Nat.le_trans (Nat.min_le_left ..) (by decide)

end Session

namespace Conversation

/-- What came of draining the receiving session `s` to `t`. -/
structure Drained (s : Session) (awaiting : Bool) (waiting : List Message) (rest : Octets)
    (actions : List Action) (t : Session) : Prop where
  flow : ∃ left, waiting = actions.filterMap Action.delivered? ++ left ∧
    InFlight s.maxFrame awaiting t.finished left (t.buffer ++ rest)
  maxFrame : t.maxFrame = s.maxFrame
  idle : t.reassembler.pending = none
  lawful : ∀ reply code, .close reply (.violation code) ∉ actions
  /-- Either the session's own direction is as before, or its close frame is now on it. -/
  answered : (t.awaitingClose = s.awaitingClose ∧ actions.flatMap Action.written = []) ∨
    (s.awaitingClose = false ∧ t.awaitingClose = true ∧ ∃ payload : Octets,
      payload.length ≤ Frame.maxControlPayload ∧
        actions.flatMap Action.written = (Frame.whole .close payload).encode)

namespace Drained

variable {s t u : Session} {awaiting : Bool} {waiting : List Message} {rest : Octets}
  {actions : List Action}

theorem deliver (m : Message) (ht : t = { s with buffer := t.buffer })
    (h : Drained t awaiting waiting rest actions u) :
    Drained s awaiting (m :: waiting) rest (.deliver m :: actions) u := by
  have hmax : t.maxFrame = s.maxFrame := by rw [ht]
  have hawait : t.awaitingClose = s.awaitingClose := by rw [ht]
  obtain ⟨⟨left, hleft, hflow⟩, hmaxFrame, hidle, hlawful, hanswered⟩ := h
  rw [hmax] at hflow hmaxFrame
  rw [hawait] at hanswered
  refine ⟨⟨left, ?_, hflow⟩, hmaxFrame, hidle, ?_, hanswered⟩
  · rw [hleft]
    rfl
  · intro reply code hmem
    rcases List.mem_cons.mp hmem with heq | hmem
    · cases heq
    · exact hlawful reply code hmem

/-- A finished session does nothing more, so all that is written is the answer. -/
theorem close (payload : Octets) (ht : t = { s.ended with buffer := t.buffer })
    (h : Drained t true [] rest actions u) :
    Drained s true [] rest ((s.peerClose payload).1 :: actions) u := by
  have hmax : t.maxFrame = s.maxFrame := by rw [ht]; rfl
  have hawait : t.awaitingClose = true := by rw [ht]; rfl
  obtain ⟨⟨left, hleft, hflow⟩, hmaxFrame, hidle, hlawful, hanswered⟩ := h
  rw [hmax] at hflow hmaxFrame
  rw [hawait] at hanswered
  have hquiet : u.awaitingClose = true ∧ actions.flatMap Action.written = [] := by
    rcases hanswered with hquiet | ⟨hopen, _⟩
    · exact hquiet
    · cases hopen
  rw [Session.peerClose_eq]
  refine ⟨⟨left, hleft, hflow⟩, hmaxFrame, hidle, ?_, ?_⟩
  · intro reply code hmem
    rcases List.mem_cons.mp hmem with heq | hmem
    · cases hs : s.awaitingClose <;> rw [hs] at heq <;> cases heq
    · exact hlawful reply code hmem
  · cases hs : s.awaitingClose with
    | true => exact .inl hquiet
    | false =>
      obtain ⟨body, hbody, hreply⟩ := Session.closeReply_eq_whole payload
      refine .inr ⟨rfl, hquiet.1, body, hbody, ?_⟩
      rw [List.flatMap_cons, hquiet.2, List.append_nil, ← hreply]
      rfl

end Drained

end Conversation

theorem Session.drained_drain {s : Session} {awaiting : Bool} {waiting : List Message}
    {rest : Octets} (hmax : 125 ≤ s.maxFrame) (hidle : s.reassembler.pending = none)
    (h : InFlight s.maxFrame awaiting s.finished waiting (s.buffer ++ rest)) :
    Drained s awaiting waiting rest s.drain.1 s.drain.2 := by
  induction s using drain_induction generalizing waiting with
  | done s hstep =>
    rw [drain_of_step_none hstep]
    exact ⟨⟨waiting, rfl, h⟩, rfl, hidle, nofun, .inl ⟨rfl, rfl⟩⟩
  | step s o t hstep ih =>
    have hopen : s.finished = false := (step_cases hstep).1
    rw [drain_of_step hstep]
    -- a message leaves the rest to the steps after it; behind a close frame there is nothing
    rcases step_inFlight hmax hidle h hstep with ⟨m, left, rfl, rfl, ht, hleft⟩ |
      ⟨payload, rfl, rfl, rfl, ht, hnil⟩
    · have hidle' : t.reassembler.pending = none := by rwa [ht]
      have hmax' : t.maxFrame = s.maxFrame := by rw [ht]
      have hopen' : t.finished = false := by rwa [ht]
      exact (ih (by rwa [hmax']) hidle' (by rwa [hmax', hopen'])).deliver m ht
    · have hidle' : t.reassembler.pending = none := by rwa [ht]
      have hmax' : t.maxFrame = s.maxFrame := by rw [ht]; rfl
      have hfin : t.finished = true := by rw [ht]; rfl
      have hclosed : InFlight t.maxFrame true t.finished [] (t.buffer ++ rest) := by
        rw [hnil, hfin]
        exact .closed
      exact (ih (by rwa [hmax']) hidle' hclosed).close payload ht

end WebSocketHost
