import WebSocketHost.Frame

/-!
Reassembly of fragmented messages. Data frames with the same opcode joined to
one; control frames may come in between and pass through untouched. An error
drops what was collected, so the next message starts afresh.
-/
namespace WebSocketHost

/-- Limits on what is collected for one message. -/
structure ReassemblyLimits where
  /-- Fewest bytes a fragment that is not the last may carry. -/
  minFragment : Nat
  maxFragments : Nat
  maxSize : Nat
deriving DecidableEq

namespace ReassemblyLimits

/-- A message may come in this many fragments. -/
def defaultMaxFragments : Nat := 65536

/-- Limits for messages up to a size. Fragments may not be empty, so their
number is bounded by the size as well. -/
def ofMaxSize (maxSize : Nat) : ReassemblyLimits := ⟨1, defaultMaxFragments, maxSize⟩

end ReassemblyLimits

/-- Why a frame does not continue the messages before it. -/
inductive ReassemblyError
  | messageTooLarge (size max : Nat)
  | tooManyFragments (max : Nat)
  | fragmentTooSmall (size min : Nat)
  | unexpectedContinuation
  | interleavedData
deriving DecidableEq

namespace ReassemblyError

def message : ReassemblyError → String
  | messageTooLarge size max =>
    s!"accumulated message of {size} bytes exceeds the maximum of {max}"
  | tooManyFragments max => s!"message split into more than {max} fragments"
  | fragmentTooSmall size min => s!"non-final fragment of {size} bytes is below the minimum of {min}"
  | unexpectedContinuation => "continuation frame without a preceding fragment"
  | interleavedData => "new data frame while a fragmented message is in progress"

end ReassemblyError

/-- The fragments of a message so far, the latest first. -/
structure PartialMessage where
  opcode : Opcode
  size : Nat
  count : Nat
  fragments : List Octets
deriving DecidableEq

namespace PartialMessage

def payload (m : PartialMessage) : Octets := m.fragments.reverse.flatten

def start (f : Frame) : PartialMessage := ⟨f.opcode, f.payload.length, 1, [f.payload]⟩

def extend (m : PartialMessage) (f : Frame) : PartialMessage :=
  { m with
    size := m.size + f.payload.length
    count := m.count + 1
    fragments := f.payload :: m.fragments }

/-- The message as a single frame, as if it had been sent whole. -/
def frame (m : PartialMessage) : Frame := .whole m.opcode m.payload

@[simp] theorem payload_start (f : Frame) : (start f).payload = f.payload := by
  simp [start, payload]

@[simp] theorem payload_extend (m : PartialMessage) (f : Frame) :
    (m.extend f).payload = m.payload ++ f.payload := by
  simp [extend, payload]

end PartialMessage

structure Reassembler where
  limits : ReassemblyLimits
  pending : Option PartialMessage := none
deriving DecidableEq

namespace Reassembler

def isBuffering (r : Reassembler) : Bool := r.pending.isSome

/-- Only a fragment that is not the last has to carry the least size. -/
def checkFragment (limits : ReassemblyLimits) (f : Frame) : Except ReassemblyError Unit :=
  if !f.fin && f.payload.length < limits.minFragment then
    .error (.fragmentTooSmall f.payload.length limits.minFragment)
  else .ok ()

def checkSize (limits : ReassemblyLimits) (size : Nat) : Except ReassemblyError Unit :=
  if limits.maxSize < size then .error (.messageTooLarge size limits.maxSize) else .ok ()

def checkCount (limits : ReassemblyLimits) (count : Nat) : Except ReassemblyError Unit :=
  if limits.maxFragments < count then .error (.tooManyFragments limits.maxFragments) else .ok ()

/-- A frame completes a message, or it is collected. -/
inductive Progress
  | whole (f : Frame)
  | collected (m : PartialMessage)

/-- What a text, binary or continuation frame does to the message in progress. -/
def advance (limits : ReassemblyLimits) (pending : Option PartialMessage) (f : Frame) :
    Except ReassemblyError Progress :=
  match pending with
  | none =>
    if f.opcode = .continuation then .error .unexpectedContinuation
    else if f.fin then .ok (.whole f)
    else do
      checkFragment limits f
      checkSize limits f.payload.length
      return .collected (.start f)
  | some m =>
    if f.opcode ≠ .continuation then .error .interleavedData
    else do
      checkFragment limits f
      let m := m.extend f
      checkSize limits m.size
      checkCount limits m.count
      return if f.fin then .whole m.frame else .collected m

/-- Frames that take part in reassembly; all others pass through. -/
def concerns (o : Opcode) : Bool := o = .continuation || o = .text || o = .binary

/-- Takes one frame: the frame to act on, if one is complete, and what is left to collect. -/
def push (r : Reassembler) (f : Frame) : Except ReassemblyError (Option Frame) × Reassembler :=
  if concerns f.opcode then
    match advance r.limits r.pending f with
    | .error e => (.error e, { r with pending := none })
    | .ok (.whole f) => (.ok (some f), { r with pending := none })
    | .ok (.collected m) => (.ok none, { r with pending := some m })
  else (.ok (some f), r)

@[simp] theorem limits_push (r : Reassembler) (f : Frame) : (r.push f).2.limits = r.limits := by
  unfold push
  split
  · split <;> rfl
  · rfl

end Reassembler

end WebSocketHost
