import WebSocketHost.Octets

/-!
Status codes of close frames, and the classes RFC 6455 sorts them into.
-/
namespace WebSocketHost

structure CloseCode where
  value : UInt16
deriving DecidableEq, Inhabited

namespace CloseCode

/-- What a code stands for. The last four classes are ranges. -/
inductive Meaning
  | normal | away | protocol | unsupported | status | abnormal | invalid | policy
  | size | extension | error | restart | again | tls
  | reserved | iana | library | bad
deriving DecidableEq

namespace Meaning

def name : Meaning → String
  | normal => "Normal"
  | away => "Away"
  | protocol => "Protocol"
  | unsupported => "Unsupported"
  | status => "Status"
  | abnormal => "Abnormal"
  | invalid => "Invalid"
  | policy => "Policy"
  | size => "Size"
  | extension => "Extension"
  | error => "Error"
  | restart => "Restart"
  | again => "Again"
  | tls => "Tls"
  | reserved => "Reserved"
  | iana => "Iana"
  | library => "Library"
  | bad => "Bad"

end Meaning

def meaning (c : CloseCode) : Meaning :=
  match c.value.toNat with
  | 1000 => .normal
  | 1001 => .away
  | 1002 => .protocol
  | 1003 => .unsupported
  | 1005 => .status
  | 1006 => .abnormal
  | 1007 => .invalid
  | 1008 => .policy
  | 1009 => .size
  | 1010 => .extension
  | 1011 => .error
  | 1012 => .restart
  | 1013 => .again
  | 1015 => .tls
  | n =>
    if 1016 ≤ n ∧ n < 3000 then .reserved
    else if 3000 ≤ n ∧ n < 4000 then .iana
    else if 4000 ≤ n ∧ n < 5000 then .library
    else .bad

def normal : CloseCode := ⟨1000⟩
def away : CloseCode := ⟨1001⟩
def protocol : CloseCode := ⟨1002⟩
def invalid : CloseCode := ⟨1007⟩
def size : CloseCode := ⟨1009⟩

/-- Whether an endpoint may send the code. -/
def isAllowed (c : CloseCode) : Bool :=
  match c.meaning with
  | .bad | .reserved | .status | .abnormal | .tls => false
  | _ => true

def toText (c : CloseCode) : String := toString c.value.toNat

def toOctets (c : CloseCode) : Octets := Octets.ofNat 2 c.value.toNat

/-- The code at the front of a close payload. A shorter payload has none. -/
def ofPayload? : Octets → Option CloseCode
  | high :: low :: _ => some ⟨UInt16.ofNat (Octets.toNat [high, low])⟩
  | _ => none

theorem toOctets_eq (c : CloseCode) :
    c.toOctets = [UInt8.ofNat (c.value.toNat / 256), UInt8.ofNat c.value.toNat] := by
  simp [toOctets, Octets.ofNat]

@[simp] theorem length_toOctets (c : CloseCode) : c.toOctets.length = 2 := by
  simp [toOctets]

@[simp] theorem ofPayload?_toOctets_append (c : CloseCode) (rest : Octets) :
    ofPayload? (c.toOctets ++ rest) = some c := by
  have h : Octets.toNat c.toOctets = c.value.toNat :=
    @Octets.toNat_ofNat 2 _ c.value.toNat_lt
  rw [toOctets_eq] at h ⊢
  simp only [ofPayload?, List.cons_append, List.nil_append, h, UInt16.ofNat_toNat]

end CloseCode

end WebSocketHost
