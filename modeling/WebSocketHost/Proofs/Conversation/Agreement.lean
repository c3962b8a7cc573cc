import WebSocketHost.Proofs.Conversation.InFlight
import WebSocketHost.Proofs.Session.CloseFrame

/-! Two sessions that talk to each other over two byte channels. Whatever either end
sends, when either starts closing and in whatever pieces the bytes arrive, each end
hears what the other said: in order, nothing else, and all of it once it has finished. -/
namespace WebSocketHost.Conversation

/-- One end of a conversation and all that has happened there. -/
structure Party where
  session : Session
  /-- Bytes on their way to this end. -/
  incoming : Octets := []
  /-- Messages this end has been given and has encoded. -/
  encoded : List Message := []
  actions : List Action := []

namespace Party

def delivered (p : Party) : List Message := p.actions.filterMap Action.delivered?

def await (p : Party) (bytes : Octets) : Party := { p with incoming := p.incoming ++ bytes }

@[simp] theorem await_nil (p : Party) : p.await [] = p := by
  simp [await]

/-- Takes in so many of the bytes on their way and does all they call for. -/
def hear (p : Party) (count : Nat) : List Action × Party :=
  let (actions, session) := p.session.feed (p.incoming.take count)
  (actions, { p with session, incoming := p.incoming.drop count, actions := p.actions ++ actions })

end Party

/-- What one end does; `deliver` is of so many of the bytes on their way to it. -/
inductive Move
  | send (m : Message)
  | close (code : CloseCode) (reason : String)
  | deliver (count : Nat)

/-- The end that moves comes first. All it writes goes behind what is on its way to the other. -/
def Move.apply (self other : Party) : Move → Party × Party
  | send m =>
    match self.session.encode? m with
    | some bytes => ({ self with encoded := self.encoded ++ [m] }, other.await bytes)
    | none => (self, other)
  | close code reason =>
    let (bytes, session) := self.session.initiateClose code reason
    ({ self with session }, other.await (bytes.getD []))
  | deliver count =>
    let (actions, self) := self.hear count
    (self, other.await (actions.flatMap Action.written))

inductive Side
  | left
  | right
deriving DecidableEq

structure Pair where
  left : Party
  right : Party

namespace Pair

def ofSessions (left right : Session) : Pair := ⟨{ session := left }, { session := right }⟩

def step (c : Pair) : Side × Move → Pair
  | (.left, m) => ⟨(m.apply c.left c.right).1, (m.apply c.left c.right).2⟩
  | (.right, m) => ⟨(m.apply c.right c.left).2, (m.apply c.right c.left).1⟩

def run (c : Pair) (moves : List (Side × Move)) : Pair := moves.foldl step c

end Pair

/-- The direction from one party to the other, as every move leaves it. -/
structure Link (max : Nat) (sender receiver : Party) : Prop where
  limit : receiver.session.maxFrame = max
  idle : receiver.session.reassembler.pending = none
  drained : receiver.session.step = none
  lawful : ∀ reply code, .close reply (.violation code) ∉ receiver.actions
  flow : ∃ waiting, sender.encoded = receiver.delivered ++ waiting ∧
    InFlight max sender.session.awaitingClose receiver.session.finished waiting
      (receiver.session.buffer ++ receiver.incoming)

namespace Link

variable {max : Nat} {sender receiver : Party}

/-- Only two things about the sender matter to the direction. -/
theorem of_sender {other : Party} (h : Link max sender receiver)
    (hencoded : other.encoded = sender.encoded)
    (hawait : other.session.awaitingClose = sender.session.awaitingClose) :
    Link max other receiver := by
  obtain ⟨hlimit, hidle, hdrained, hlawful, hflow⟩ := h
  refine ⟨hlimit, hidle, hdrained, hlawful, ?_⟩
  rwa [hencoded, hawait]

theorem send (h : Link max sender receiver) (hopen : sender.session.awaitingClose = false)
    {m : Message} (hm : m.Fits max) :
    Link max { sender with encoded := sender.encoded ++ [m] } (receiver.await m.frame.encode) := by
  obtain ⟨hlimit, hidle, hdrained, hlawful, waiting, hwaiting, hflow⟩ := h
  refine ⟨hlimit, hidle, hdrained, hlawful, waiting ++ [m], ?_, ?_⟩
  · show sender.encoded ++ [m] = receiver.delivered ++ (waiting ++ [m])
    rw [hwaiting, List.append_assoc]
  · rw [hopen] at hflow
    show InFlight max sender.session.awaitingClose receiver.session.finished (waiting ++ [m])
      (receiver.session.buffer ++ (receiver.incoming ++ m.frame.encode))
    rw [hopen, ← List.append_assoc]
    exact hflow.send hm

theorem close (h : Link max sender receiver) (hopen : sender.session.awaitingClose = false)
    {payload : Octets} (hp : payload.length ≤ Frame.maxControlPayload) {other : Party}
    (hencoded : other.encoded = sender.encoded) (hawait : other.session.awaitingClose = true) :
    Link max other (receiver.await (Frame.whole .close payload).encode) := by
  obtain ⟨hlimit, hidle, hdrained, hlawful, waiting, hwaiting, hflow⟩ := h
  refine ⟨hlimit, hidle, hdrained, hlawful, waiting, hencoded.trans hwaiting, ?_⟩
  rw [hopen] at hflow
  show InFlight max other.session.awaitingClose receiver.session.finished waiting
    (receiver.session.buffer ++ (receiver.incoming ++ (Frame.whole .close payload).encode))
  rw [hawait, ← List.append_assoc]
  exact hflow.close hp

/-- Having started to close changes nothing about what an end still receives. -/
theorem of_awaiting (h : Link max sender receiver) :
    Link max sender
      { receiver with session := { receiver.session with awaitingClose := true } } := by
  obtain ⟨hlimit, hidle, hdrained, hlawful, hflow⟩ := h
  exact ⟨hlimit, hidle, Session.step_eq_none_of_same hdrained rfl rfl rfl, hlawful, hflow⟩

theorem drained_hear (h : Link max sender receiver) (hmax : 125 ≤ max) (count : Nat) :
    ∃ waiting, sender.encoded = receiver.delivered ++ waiting ∧
      Drained (receiver.session.receive (receiver.incoming.take count))
        sender.session.awaitingClose waiting (receiver.incoming.drop count)
        (receiver.hear count).1 (receiver.hear count).2.session := by
  obtain ⟨hlimit, hidle, _, _, waiting, hwaiting, hflow⟩ := h
  have hbytes : (receiver.session.receive (receiver.incoming.take count)).buffer ++
      receiver.incoming.drop count = receiver.session.buffer ++ receiver.incoming := by
    simp [Session.receive]
  refine ⟨waiting, hwaiting, Session.drained_drain ?_ hidle ?_⟩
  · exact hlimit.symm ▸ hmax
  · rw [hbytes]
    exact hlimit.symm ▸ hflow

theorem hear (h : Link max sender receiver) (hmax : 125 ≤ max) (count : Nat) :
    Link max sender (receiver.hear count).2 := by
  obtain ⟨waiting, hwaiting, hd⟩ := h.drained_hear hmax count
  obtain ⟨left, hleft, hflow⟩ := hd.flow
  refine ⟨hd.maxFrame.trans h.limit, hd.idle, Session.step_drain _, ?_, left, ?_, ?_⟩
  · intro reply code hmem
    rcases List.mem_append.mp hmem with hmem | hmem
    · exact h.lawful reply code hmem
    · exact hd.lawful reply code hmem
  · have hdelivered : (receiver.hear count).2.delivered =
        receiver.delivered ++ (receiver.hear count).1.filterMap Action.delivered? :=
      List.filterMap_append
    rw [hwaiting, hleft, hdelivered, List.append_assoc]
  · have hlimit : (receiver.session.receive (receiver.incoming.take count)).maxFrame = max :=
      h.limit
    rwa [hlimit] at hflow

/-- What is written in answer keeps the other direction. -/
theorem hear_back {back : Nat} (h : Link max sender receiver) (hmax : 125 ≤ max) (count : Nat)
    (hback : Link back receiver sender) :
    Link back (receiver.hear count).2
      (sender.await ((receiver.hear count).1.flatMap Action.written)) := by
  obtain ⟨waiting, hwaiting, hd⟩ := h.drained_hear hmax count
  rcases hd.answered with ⟨hawait, hwritten⟩ | ⟨hopen, hawait, payload, hp, hwritten⟩
  · rw [hwritten, Party.await_nil]
    exact hback.of_sender rfl hawait
  · rw [hwritten]
    exact hback.close hopen hp rfl hawait

end Link

/-- A move keeps both directions; a message sent has to fit the other end. -/
theorem Move.links {own max : Nat} {self other : Party} (hown : 125 ≤ own)
    (h : Link own other self) (hback : Link max self other) (move : Move)
    (hfit : ∀ m, move = .send m → m.Fits max) :
    Link own (move.apply self other).2 (move.apply self other).1 ∧
      Link max (move.apply self other).1 (move.apply self other).2 := by
  cases move with
  | send m =>
    unfold Move.apply Session.encode?
    cases hawait : self.session.awaitingClose with
    | true => exact ⟨h, hback⟩
    | false => exact ⟨⟨h.limit, h.idle, h.drained, h.lawful, h.flow⟩, hback.send hawait (hfit m rfl)⟩
  | close code reason =>
    unfold Move.apply Session.initiateClose
    cases hawait : self.session.awaitingClose with
    | true =>
      simp only [if_true, Option.getD_none, Party.await_nil]
      exact ⟨h, hback⟩
    | false =>
      have hp := CloseNotice.length_payload_le code reason
      exact ⟨h.of_awaiting.of_sender rfl rfl, hback.close hawait hp rfl rfl⟩
  | deliver count => exact ⟨(h.hear hown count).of_sender rfl rfl, h.hear_back hown count hback⟩

/-- What one end may say of what it has heard from the other. -/
structure Heard (sender receiver : Party) : Prop where
  lawful : ∀ reply code, .close reply (.violation code) ∉ receiver.actions
  ordered : receiver.delivered <+: sender.encoded
  /-- A finished end has heard everything, and nothing is left to hear. -/
  complete : receiver.session.finished = true → receiver.delivered = sender.encoded ∧
    receiver.incoming = [] ∧ receiver.session.buffer = []
  /-- Nothing that has arrived is held back. -/
  current : receiver.incoming = [] → receiver.delivered = sender.encoded

theorem Link.heard {max : Nat} {sender receiver : Party} (hmax : 125 ≤ max)
    (h : Link max sender receiver) : Heard sender receiver := by
  obtain ⟨hlimit, _, hdrained, hlawful, waiting, hwaiting, hflow⟩ := h
  refine ⟨hlawful, ⟨waiting, hwaiting.symm⟩, ?_, ?_⟩
  · intro hfin
    rw [hfin] at hflow
    obtain ⟨rfl, hbytes⟩ := hflow.nil_of_finished
    obtain ⟨hbuffer, hincoming⟩ := List.append_eq_nil_iff.mp hbytes
    exact ⟨by rw [hwaiting, List.append_nil], hincoming, hbuffer⟩
  · intro hincoming
    suffices hnil : waiting = [] by rw [hwaiting, hnil, List.append_nil]
    rw [hincoming, List.append_nil] at hflow
    cases hfin : receiver.session.finished with
    | true =>
      rw [hfin] at hflow
      exact hflow.nil_of_finished.1
    | false =>
      rw [hfin] at hflow
      rcases hflow.front hmax with ⟨hnil, _⟩ | ⟨m, _, tail, _, hacc, hbytes, _⟩ | ⟨_, hnil, _⟩
      · exact hnil
      · -- a whole message would be in the buffer, and draining would have taken it
        rw [Session.step_of_encoded hfin (hlimit.symm ▸ hacc) hbytes] at hdrained
        cases hdrained
      · exact hnil

theorem Pair.links_run {maxLeft maxRight : Nat} (hleft : 125 ≤ maxLeft) (hright : 125 ≤ maxRight)
    {c : Pair} (hto : Link maxRight c.left c.right) (hfrom : Link maxLeft c.right c.left)
    {moves : List (Side × Move)} (hsentLeft : ∀ m, (.left, .send m) ∈ moves → m.Fits maxRight)
    (hsentRight : ∀ m, (.right, .send m) ∈ moves → m.Fits maxLeft) :
    Link maxRight (c.run moves).left (c.run moves).right ∧
      Link maxLeft (c.run moves).right (c.run moves).left := by
  induction moves generalizing c with
  | nil => exact ⟨hto, hfrom⟩
  | cons entry moves ih =>
    have hrestLeft : ∀ m, (.left, .send m) ∈ moves → m.Fits maxRight :=
      fun m hm => hsentLeft m (List.mem_cons_of_mem entry hm)
    have hrestRight : ∀ m, (.right, .send m) ∈ moves → m.Fits maxLeft :=
      fun m hm => hsentRight m (List.mem_cons_of_mem entry hm)
    obtain ⟨side, move⟩ := entry
    cases side with
    | left =>
      obtain ⟨hfrom', hto'⟩ := move.links hleft hfrom hto fun m hm =>
        hsentLeft m (hm ▸ List.mem_cons_self)
      exact ih (c := c.step (.left, move)) hto' hfrom' hrestLeft hrestRight
    | right =>
      obtain ⟨hto', hfrom'⟩ := move.links hright hto hfrom fun m hm =>
        hsentRight m (hm ▸ List.mem_cons_self)
      exact ih (c := c.step (.right, move)) hto' hfrom' hrestLeft hrestRight

theorem link_ofLimits (max : Nat) (limits : ReassemblyLimits) {sender : Party}
    (hopen : sender.session.awaitingClose = false) (hencoded : sender.encoded = []) :
    Link max sender { session := .ofLimits max limits } := by
  refine ⟨rfl, rfl, Session.step_ofLimits max limits, nofun, [], hencoded, ?_⟩
  rw [hopen]
  exact .opened [] nofun

/-- However two sessions talk, neither is ever told that the other broke a rule, and
each has heard what the other said. -/
theorem run_heard (maxLeft maxRight : Nat) (limitsLeft limitsRight : ReassemblyLimits)
    (hleft : 125 ≤ maxLeft) (hright : 125 ≤ maxRight) (moves : List (Side × Move))
    (hsentLeft : ∀ m, (.left, .send m) ∈ moves → m.Fits maxRight)
    (hsentRight : ∀ m, (.right, .send m) ∈ moves → m.Fits maxLeft) :
    let c := (Pair.ofSessions (.ofLimits maxLeft limitsLeft)
      (.ofLimits maxRight limitsRight)).run moves
    Heard c.left c.right ∧ Heard c.right c.left := by
  intro c
  let start : Pair := .ofSessions (.ofLimits maxLeft limitsLeft) (.ofLimits maxRight limitsRight)
  have hto : Link maxRight start.left start.right := link_ofLimits maxRight limitsRight rfl rfl
  have hfrom : Link maxLeft start.right start.left := link_ofLimits maxLeft limitsLeft rfl rfl
  obtain ⟨h₁, h₂⟩ := Pair.links_run hleft hright hto hfrom hsentLeft hsentRight
  exact ⟨h₁.heard hright, h₂.heard hleft⟩

/-- Both ends start closing at once, with a message on its way each way: the left end's
whole, the right end's cut behind its header. -/
theorem run_heard_closing_at_once :
    let moves : List (Side × Move) :=
      [(.left, .send (.text "é")), (.right, .send (.binary [1, 2, 3])),
        (.left, .deliver 3), (.left, .close .away "bye"), (.right, .close .normal ""),
        (.right, .deliver 200), (.left, .deliver 200)]
    let c := (Pair.ofSessions (.ofMaxFrame 125) (.ofMaxFrame 1000)).run moves
    Heard c.left c.right ∧ Heard c.right c.left := by
  apply run_heard 125 1000 (.ofMaxSize 125) (.ofMaxSize 1000) (by decide) (by decide)
  · intro m hm
    have hm : m = .text "é" := by simpa using hm
    rw [hm]
    exact ⟨by decide, by decide⟩
  · intro m hm
    have hm : m = .binary [1, 2, 3] := by simpa using hm
    rw [hm]
    exact ⟨by decide, by decide⟩

end WebSocketHost.Conversation
