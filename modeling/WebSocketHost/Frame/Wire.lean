import WebSocketHost.Frame

/-!
The wire form of frames: two bytes of flags and a short length, the rest of a
long length, the mask key, the payload. Encoding takes the shortest length
form; decoding takes any and names the first rule a frame breaks.
-/
namespace WebSocketHost.Frame

/-- What precedes a payload, the payload's length included. -/
structure Header where
  opcode : Opcode
  fin : Bool
  rsv : Fin 8
  mask : Option MaskKey
  length : Nat
deriving DecidableEq

/-- Why a frame cannot be taken from the front of a buffer. -/
inductive DecodeError
  /-- The buffer ends inside the frame: read on and try again. -/
  | incomplete (available : Nat)
  | reservedBits (bits : Fin 8)
  | reservedOpcode (opcode : Opcode)
  | oversized (size max : Nat)
  | oversizedControl (size : Nat)
  | fragmentedControl
  | lengthOverflow
deriving DecidableEq

namespace DecodeError

/-- A digit above nine is written as a capital letter. -/
private def nibbleDigit (n : Fin 16) : String :=
  String.ofList ((Nat.toDigits 16 n).map Char.toUpper)

private def threeBits (n : Fin 8) : String :=
  s!"{n.val / 4}{n.val / 2 % 2}{n.val % 2}"

def message : DecodeError → String
  | incomplete available => s!"insufficient data: {available} bytes buffered, frame incomplete"
  | reservedBits bits => s!"reserved bits set without a negotiated extension: 0b{threeBits bits}"
  | reservedOpcode opcode => s!"reserved opcode 0x{nibbleDigit opcode.toNibble}"
  | oversized size max => s!"frame payload of {size} bytes exceeds the maximum of {max}"
  | oversizedControl size => s!"control frame payload of {size} bytes exceeds 125"
  | fragmentedControl => "control frames must not be fragmented"
  | lengthOverflow => "invalid 64-bit payload length"

end DecodeError

namespace Header

/-- The short length and the bytes that complete it. -/
def lengthField (length : Nat) : Nat × Octets :=
  if length < 126 then (length, [])
  else if length < 65536 then (126, Octets.ofNat 2 length)
  else (127, Octets.ofNat 8 length)

def encode (h : Header) : Octets :=
  let (short, long) := lengthField h.length
  UInt8.ofNat (h.fin.toNat * 128 + h.rsv * 16 + h.opcode.toNibble)
    :: UInt8.ofNat (h.mask.isSome.toNat * 128 + short)
    :: long ++ (h.mask.map MaskKey.toOctets).getD []

/-- The first `n` bytes and the rest, once that many are there. -/
def cut? (n : Nat) (b : Octets) : Option (Octets × Octets) :=
  let front := b.take n
  if front.length = n then some (front, b.drop n) else none

/-- The payload length a short length announces, read from what follows it. -/
def readLength? (short : Nat) (b : Octets) : Option (Nat × Octets) :=
  if short = 126 then (cut? 2 b).map fun (long, rest) => (Octets.toNat long, rest)
  else if short = 127 then (cut? 8 b).map fun (long, rest) => (Octets.toNat long, rest)
  else some (short, b)

def readKey? (masked : Bool) (b : Octets) : Option (Option MaskKey × Octets) :=
  if masked then do
    let (key, rest) ← cut? 4 b
    some (some (← MaskKey.ofOctets? key), rest)
  else some (none, b)

/-- The header at the front of a buffer and what follows it; `none` while it is incomplete. -/
def read? : Octets → Option (Header × Octets)
  | first :: second :: b => do
    let (length, b) ← readLength? (second.toNat % 128) b
    let (mask, b) ← readKey? (128 ≤ second.toNat) b
    some ({ opcode := .ofNibble ⟨first.toNat % 16, Nat.mod_lt _ (by decide)⟩
            fin := 128 ≤ first.toNat
            rsv := ⟨first.toNat / 16 % 8, Nat.mod_lt _ (by decide)⟩
            mask, length }, b)
  | _ => none

/-- The first rule a complete header breaks, for a receiver that takes payloads up to `max`. -/
def fault? (h : Header) (max : Nat) : Option DecodeError :=
  if h.opcode.isReserved then some (.reservedOpcode h.opcode)
  else if h.rsv.val ≠ 0 then some (.reservedBits h.rsv)
  else if 0x7FFFFFFFFFFFFFFF < h.length then some .lengthOverflow
  else if h.opcode.isControl && !h.fin then some .fragmentedControl
  else if h.opcode.isControl && maxControlPayload < h.length then some (.oversizedControl h.length)
  else if max < h.length then some (.oversized h.length max)
  else none

/-- The frame a payload as sent completes. Its key has done its work and is dropped. -/
def complete (h : Header) (sent : Octets) : Frame where
  opcode := h.opcode
  fin := h.fin
  rsv := h.rsv
  payload := match h.mask with
    | some key => key.apply sent
    | none => sent
  mask := none

end Header

def header (f : Frame) : Header := ⟨f.opcode, f.fin, f.rsv, f.mask, f.payload.length⟩

/-- The payload as sent. -/
def sentPayload (f : Frame) : Octets :=
  match f.mask with
  | some key => key.apply f.payload
  | none => f.payload

def encode (f : Frame) : Octets := f.header.encode ++ f.sentPayload

/-- Number of bytes `encode` gives. -/
def wireLength (f : Frame) : Nat :=
  2 + (Header.lengthField f.payload.length).2.length + f.mask.isSome.toNat * 4 + f.payload.length

/-- The frame at the front of a buffer and what follows it. The length is
judged before the payload has arrived, so that nothing longer than `max` is
ever waited for. -/
def decode (max : Nat) (b : Octets) : Except DecodeError (Frame × Octets) :=
  match Header.read? b with
  | none => .error (.incomplete b.length)
  | some (h, b') =>
    match h.fault? max with
    | some e => .error e
    | none =>
      match Header.cut? h.length b' with
      | none => .error (.incomplete b.length)
      | some (sent, rest) => .ok (h.complete sent, rest)

theorem Header.cut?_eq_some {n : Nat} {b front rest : Octets} (h : cut? n b = some (front, rest)) :
    b = front ++ rest ∧ front.length = n := by
  simp only [cut?] at h
  split at h
  · next hn =>
    obtain ⟨rfl, rfl⟩ := Prod.mk.inj (Option.some.inj h)
    exact ⟨(List.take_append_drop n b).symm, hn⟩
  · simp at h

theorem Header.length_of_readLength? {short length : Nat} {b rest : Octets}
    (h : readLength? short b = some (length, rest)) : rest.length ≤ b.length := by
  simp only [readLength?] at h
  split at h
  · obtain ⟨⟨long, r⟩, hc, h⟩ := Option.map_eq_some_iff.mp h
    obtain ⟨rfl, _⟩ := cut?_eq_some hc
    simp_all
  split at h
  · obtain ⟨⟨long, r⟩, hc, h⟩ := Option.map_eq_some_iff.mp h
    obtain ⟨rfl, _⟩ := cut?_eq_some hc
    simp_all
  · simp_all

theorem Header.length_of_readKey? {masked : Bool} {key : Option MaskKey} {b rest : Octets}
    (h : readKey? masked b = some (key, rest)) : rest.length ≤ b.length := by
  cases masked with
  | false => simp_all [readKey?]
  | true =>
    simp only [readKey?, if_true, Option.bind_eq_bind, Option.bind_eq_some_iff] at h
    obtain ⟨⟨k, r⟩, hc, m, _, h⟩ := h
    obtain ⟨rfl, _⟩ := cut?_eq_some hc
    simp_all

/-- A header takes at least two bytes. -/
theorem Header.length_of_read? {b rest : Octets} {h : Header}
    (hr : read? b = some (h, rest)) : rest.length + 2 ≤ b.length := by
  match b with
  | [] | [_] => simp [read?] at hr
  | first :: second :: b =>
    simp only [read?, Option.bind_eq_bind, Option.bind_eq_some_iff] at hr
    obtain ⟨⟨length, b₁⟩, h₁, ⟨mask, b₂⟩, h₂, hr⟩ := hr
    have := length_of_readLength? h₁
    have := length_of_readKey? h₂
    simp_all
    omega

/-- Taking a frame shortens the buffer by two bytes or more. -/
theorem length_of_decode {max : Nat} {b rest : Octets} {f : Frame}
    (h : decode max b = .ok (f, rest)) : rest.length + 2 ≤ b.length := by
  unfold decode at h
  split at h
  · simp at h
  · next hd b' hr =>
    split at h
    · simp at h
    · split at h
      · simp at h
      · next sent r hc =>
        obtain ⟨rfl, _⟩ := Header.cut?_eq_some hc
        have := Header.length_of_read? hr
        simp_all
        omega

/-- Every complete frame at the front of a buffer, what follows them, and why
the next one cannot be taken. -/
def decodeAll (max : Nat) (b : Octets) : List Frame × Octets × DecodeError :=
  match _h : decode max b with
  | .error e => ([], b, e)
  | .ok (f, rest) =>
    let (fs, rest, e) := decodeAll max rest
    (f :: fs, rest, e)
termination_by b.length
decreasing_by have := length_of_decode _h; omega

theorem length_encode (f : Frame) : f.encode.length = f.wireLength := by
  have key : ((f.mask.map MaskKey.toOctets).getD []).length = f.mask.isSome.toNat * 4 := by
    cases f.mask <;> simp [MaskKey.toOctets]
  have sent : f.sentPayload.length = f.payload.length := by
    unfold sentPayload; split <;> simp
  simp only [encode, Header.encode, header, wireLength, List.length_append, List.length_cons,
    key, sent]
  omega

end WebSocketHost.Frame
