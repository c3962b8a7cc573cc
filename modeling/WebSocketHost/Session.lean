import WebSocketHost.CloseNotice
import WebSocketHost.Frame.Wire
import WebSocketHost.Reassembly

/-!
One upgraded connection without its transport: bytes received go in, and what
has to be done about them comes out. `step` takes one frame from the buffer;
`next` and `drain` repeat it until there is something to do, or until nothing
is left.
-/
namespace WebSocketHost

/-- A complete message. -/
inductive Message
  | text (s : String)
  | binary (data : Octets)
deriving DecidableEq

namespace Message

def frame : Message → Frame
  | text s => .whole .text (Text.utf8 s)
  | binary data => .whole .binary data

end Message

/-- How a session ended. -/
inductive SessionEnd
  /-- The peer closed, with the code it gave. -/
  | peerClosed (code : Option CloseCode)
  /-- The peer answered our close frame. -/
  | acknowledged
  /-- The peer broke a rule, and was told so with the code. -/
  | violation (code : CloseCode)
deriving DecidableEq

/-- What a session asks its owner to do. -/
inductive Action
  | deliver (m : Message)
  | reply (bytes : Octets)
  /-- Write the reply, if there is one, and end the connection. -/
  | close (reply : Option Octets) (reason : SessionEnd)
deriving DecidableEq

structure Session where
  maxFrame : Nat
  reassembler : Reassembler
  buffer : Octets := []
  /-- A close frame has been handed out, so nothing may follow it. -/
  awaitingClose : Bool := false
  /-- A close action has been handed out, so nothing more is read. -/
  finished : Bool := false
deriving DecidableEq

namespace Session

def ofLimits (maxFrame : Nat) (limits : ReassemblyLimits) : Session :=
  { maxFrame, reassembler := { limits } }

/-- A session whose frames and messages have at most `maxFrame` bytes. -/
def ofMaxFrame (maxFrame : Nat) : Session := ofLimits maxFrame (.ofMaxSize maxFrame)

def receive (s : Session) (bytes : Octets) : Session := { s with buffer := s.buffer ++ bytes }

/-- The bytes of a message to send, until a close frame has been handed out. -/
def encode? (s : Session) (m : Message) : Option Octets :=
  if s.awaitingClose then none else some m.frame.encode

/-- Starts closing. There is nothing to send if that has happened before. -/
def initiateClose (s : Session) (code : CloseCode) (reason : String) : Option Octets × Session :=
  if s.awaitingClose then (none, s)
  else (some (CloseNotice.ofReason code reason).frame.encode, { s with awaitingClose := true })

/-- Ends the session because the peer broke a rule. -/
def violate (s : Session) (code : CloseCode) : Action × Session :=
  let (reply, s) := s.initiateClose code ""
  (.close reply (.violation code), { s with finished := true })

/-- The answer to a close frame repeats its code and leaves out its reason. -/
def closeReply (payload : Octets) : Frame :=
  .whole .close (if payload.length < 2 then CloseCode.normal.toOctets else payload.take 2)

/-- Ends the session because the peer closed it. -/
def peerClose (s : Session) (payload : Octets) : Action × Session :=
  if s.awaitingClose then (.close none .acknowledged, { s with finished := true })
  else
    (.close (some (closeReply payload).encode) (.peerClosed (CloseCode.ofPayload? payload)),
      { s with awaitingClose := true, finished := true })

/-- Acts on a complete frame. Without an action the session is as before. -/
def handle (s : Session) (f : Frame) : Option (Action × Session) :=
  if s.finished then none
  else match f.opcode with
    | .text =>
      match Text.ofUtf8? f.payload with
      | some t => some (.deliver (.text t), s)
      | none => some (s.violate .invalid)
    | .binary => some (.deliver (.binary f.payload), s)
    | .ping =>
      if s.awaitingClose then none
      else some (.reply (Frame.whole .pong f.payload).encode, s)
    | .close => some (s.peerClose f.payload)
    | .reservedData _ | .reservedControl _ => some (s.violate .protocol)
    | .pong | .continuation => none

def codeOfDecodeError : Frame.DecodeError → CloseCode
  | .oversized _ _ => .size
  | _ => .protocol

def codeOfReassemblyError : ReassemblyError → CloseCode
  | .messageTooLarge _ _ => .size
  | _ => .protocol

/-- Takes one frame from the buffer, with the action it calls for. There is no
step while the frame is incomplete, or once the session has finished. -/
def step (s : Session) : Option (Option Action × Session) :=
  if s.finished then none
  else match Frame.decode s.maxFrame s.buffer with
    | .error (.incomplete _) => none
    | .error e => let (a, s) := s.violate (codeOfDecodeError e); some (some a, s)
    | .ok (f, rest) =>
      let (r, reassembler) := s.reassembler.push f
      let s := { s with buffer := rest, reassembler }
      match r with
      | .error e => let (a, s) := s.violate (codeOfReassemblyError e); some (some a, s)
      | .ok none => some (none, s)
      | .ok (some f) =>
        match s.handle f with
        | some (a, s) => some (some a, s)
        | none => some (none, s)

/-- Steps a session can still take are fewer than this. -/
def room (s : Session) : Nat := s.buffer.length + if s.finished then 0 else 1

theorem room_violate_le (s : Session) (code : CloseCode) :
    (s.violate code).2.room = s.buffer.length := by
  simp only [violate, initiateClose]
  split <;> simp [room]

theorem room_handle_le {s t : Session} {f : Frame} {a : Action} (h : s.handle f = some (a, t)) :
    t.room ≤ s.room := by
  have violated (code : CloseCode) (hv : s.violate code = (a, t)) : t.room ≤ s.room := by
    have := s.room_violate_le code
    simp_all [room]
  unfold handle at h
  split at h
  · simp at h
  split at h
  · split at h
    · simp_all
    · exact violated _ (by simpa using h)
  · simp_all
  · split at h <;> simp_all
  · simp only [peerClose] at h
    split at h <;> simp_all [room] <;> (obtain ⟨_, rfl⟩ := h; simp)
  · exact violated _ (by simpa using h)
  · exact violated _ (by simpa using h)
  · simp at h
  · simp at h

/-- Each step takes bytes from the buffer or finishes the session. -/
theorem room_step_lt {s t : Session} {a : Option Action} (h : s.step = some (a, t)) :
    t.room < s.room := by
  unfold step at h
  split at h
  · simp at h
  next hf =>
  have hs : s.room = s.buffer.length + 1 := by simp [room, hf]
  split at h
  · simp at h
  · have := s.room_violate_le (codeOfDecodeError ‹_›)
    simp_all
  next f rest hd =>
  have hl := Frame.length_of_decode hd
  simp only at h
  split at h
  · have := room_violate_le { s with buffer := rest, reassembler := (s.reassembler.push f).2 }
      (codeOfReassemblyError ‹_›)
    simp_all
    omega
  · simp_all [room]
    obtain ⟨_, rfl⟩ := h
    simp_all
    omega
  · split at h
    · next hh =>
      have := room_handle_le hh
      simp_all [room]
      omega
    · simp_all [room]
      obtain ⟨_, rfl⟩ := h
      simp_all
      omega

/-- The next thing to do, if the bytes received so far call for one. -/
def next (s : Session) : Option Action × Session :=
  match _h : s.step with
  | none => (none, s)
  | some (some a, t) => (some a, t)
  | some (none, t) => t.next
termination_by s.room
decreasing_by exact room_step_lt _h

theorem room_next_lt {s t : Session} {a : Action} (h : s.next = (some a, t)) :
    t.room < s.room := by
  fun_induction next s with
  | case1 => simp at h
  | case2 s b u hs => cases h; exact room_step_lt hs
  | case3 s u hs ih => exact Nat.lt_trans (ih h) (room_step_lt hs)

/-- With nothing to do the session has at most taken frames in. -/
theorem room_next_le {s t : Session} (h : s.next = (none, t)) : t.room ≤ s.room := by
  fun_induction next s with
  | case1 => simp_all
  | case2 => simp at h
  | case3 s u hs ih => exact Nat.le_trans (ih h) (Nat.le_of_lt (room_step_lt hs))

theorem room_receive (s : Session) (bytes : Octets) :
    (s.receive bytes).room = s.room + bytes.length := by
  simp only [room, receive, List.length_append]
  exact Nat.add_right_comm ..

theorem room_initiateClose (s : Session) (code : CloseCode) (reason : String) :
    (s.initiateClose code reason).2.room = s.room := by
  unfold initiateClose
  split <;> rfl

/-- All there is to do for the bytes received so far. -/
def drain (s : Session) : List Action × Session :=
  match _h : s.next with
  | (none, t) => ([], t)
  | (some a, t) =>
    let (rest, t) := t.drain
    (a :: rest, t)
termination_by s.room
decreasing_by exact room_next_lt _h

/-- Receives a chunk and does what it calls for. -/
def feed (s : Session) (chunk : Octets) : List Action × Session := (s.receive chunk).drain

/-- Chunks one after another. -/
def feedAll (s : Session) : List Octets → List Action × Session
  | [] => ([], s)
  | chunk :: chunks =>
    let (actions, s) := s.feed chunk
    let (rest, s) := s.feedAll chunks
    (actions ++ rest, s)

end Session

end WebSocketHost
