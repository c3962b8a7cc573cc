import WebSocketHost.Octets

/-!
WebSocket frames: opcodes, mask keys and the frame itself. Main statements:
opcodes and four-bit values correspond one to one, and masking twice with the
same key gives the data back.
-/
namespace WebSocketHost

/-- What a frame is for. The ten values with no assigned meaning are kept apart
by their index, so that every four-bit value is an opcode. -/
inductive Opcode
  | continuation
  | text
  | binary
  | reservedData (index : Fin 5)
  | close
  | ping
  | pong
  | reservedControl (index : Fin 5)
deriving DecidableEq, Inhabited

namespace Opcode

def toNibble : Opcode → Fin 16
  | continuation => 0
  | text => 1
  | binary => 2
  | reservedData i => ⟨3 + i, by omega⟩
  | close => 8
  | ping => 9
  | pong => 10
  | reservedControl i => ⟨11 + i, by omega⟩

def ofNibble (n : Fin 16) : Opcode :=
  if h : 11 ≤ n.val then reservedControl ⟨n - 11, by omega⟩
  else if n = 10 then pong
  else if n = 9 then ping
  else if n = 8 then close
  else if h : 3 ≤ n.val ∧ n.val < 8 then reservedData ⟨n - 3, by omega⟩
  else if n = 2 then binary
  else if n = 1 then text
  else continuation

@[simp] theorem toNibble_ofNibble (n : Fin 16) : (ofNibble n).toNibble = n := by
  revert n; decide

@[simp] theorem ofNibble_toNibble (o : Opcode) : ofNibble o.toNibble = o := by
  cases o with
  | reservedData i => revert i; decide
  | reservedControl i => revert i; decide
  | _ => rfl

/-- Control frames stand alone: they may come between the fragments of a message. -/
def isControl : Opcode → Bool
  | close | ping | pong | reservedControl _ => true
  | _ => false

def isReserved : Opcode → Bool
  | reservedData _ | reservedControl _ => true
  | _ => false

/-- The name used in logs. -/
def name : Opcode → String
  | continuation => "CONTINUE"
  | text => "TEXT"
  | binary => "BINARY"
  | close => "CLOSE"
  | ping => "PING"
  | pong => "PONG"
  | reservedData i => s!"RESERVED_DATA_{3 + i.val}"
  | reservedControl i => s!"RESERVED_CONTROL_{11 + i.val}"

end Opcode

/-- The four bytes a sender combines its payload with. -/
structure MaskKey where
  first : UInt8
  second : UInt8
  third : UInt8
  fourth : UInt8
deriving DecidableEq

namespace MaskKey

def toOctets (k : MaskKey) : Octets := [k.first, k.second, k.third, k.fourth]

def ofOctets? : Octets → Option MaskKey
  | [a, b, c, d] => some ⟨a, b, c, d⟩
  | _ => none

/-- The key byte for a payload position: the key repeats every four bytes. -/
def byteAt (k : MaskKey) (i : Nat) : UInt8 :=
  match i % 4 with
  | 0 => k.first
  | 1 => k.second
  | 2 => k.third
  | _ => k.fourth

def apply (k : MaskKey) (data : Octets) : Octets := data.mapIdx fun i o => o ^^^ k.byteAt i

@[simp] theorem ofOctets?_toOctets (k : MaskKey) : ofOctets? k.toOctets = some k := rfl

@[simp] theorem length_apply (k : MaskKey) (data : Octets) :
    (k.apply data).length = data.length := by
  simp [apply]

@[simp] theorem apply_apply (k : MaskKey) (data : Octets) : k.apply (k.apply data) = data := by
  apply List.ext_getElem
  · simp
  · intro i _ _
    simp only [apply, List.getElem_mapIdx]
    rw [UInt8.xor_assoc, UInt8.xor_self, UInt8.xor_zero]

end MaskKey

/-- One frame, its payload unmasked. A mask key says how the payload is sent. -/
structure Frame where
  opcode : Opcode
  payload : Octets
  fin : Bool
  /-- The three reserved bits as a number, RSV1 highest. -/
  rsv : Fin 8
  mask : Option MaskKey
deriving DecidableEq

namespace Frame

/-- Largest payload a control frame may carry. -/
def maxControlPayload : Nat := 125

/-- A frame that stands for itself, sent as it is. -/
def whole (opcode : Opcode) (payload : Octets) : Frame := ⟨opcode, payload, true, 0, none⟩

end Frame

end WebSocketHost
