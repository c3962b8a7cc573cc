import WebSocketHost.Octets

/-!
SHA-1, which the opening handshake uses to show that a key was read.
-/
namespace WebSocketHost.Sha1

/-- The five words that carry the digest from block to block. -/
structure State where
  a : UInt32
  b : UInt32
  c : UInt32
  d : UInt32
  e : UInt32

def initial : State := ⟨0x67452301, 0xEFCDAB89, 0x98BADCFE, 0x10325476, 0xC3D2E1F0⟩

def rotateLeft (x : UInt32) (n : UInt32) : UInt32 := (x <<< n) ||| (x >>> (32 - n))

/-- The function and the constant of a round. -/
def mix (round : Nat) (b c d : UInt32) : UInt32 × UInt32 :=
  if round < 20 then ((b &&& c) ||| ((b ^^^ 0xFFFFFFFF) &&& d), 0x5A827999)
  else if round < 40 then (b ^^^ c ^^^ d, 0x6ED9EBA1)
  else if round < 60 then ((b &&& c) ||| (b &&& d) ||| (c &&& d), 0x8F1BBCDC)
  else (b ^^^ c ^^^ d, 0xCA62C1D6)

/-- One round. The window holds the next sixteen words of the message schedule. -/
def round (n : Nat) (s : State) (word : UInt32) : State :=
  let (f, k) := mix n s.b s.c s.d
  ⟨rotateLeft s.a 5 + f + s.e + k + word, s.a, rotateLeft s.b 30, s.c, s.d⟩

/-- The word sixteen places after the front of a window. -/
def schedule (window : List UInt32) : UInt32 :=
  let word (i : Nat) := window.getD i 0
  rotateLeft (word 13 ^^^ word 8 ^^^ word 2 ^^^ word 0) 1

/-- The rounds from `80 - left` on. -/
def rounds (left : Nat) (s : State) (window : List UInt32) : State :=
  match left, window with
  | left + 1, word :: later =>
    rounds left (round (80 - (left + 1)) s word) (later ++ [schedule (word :: later)])
  | _, _ => s

def State.add (s t : State) : State :=
  ⟨s.a + t.a, s.b + t.b, s.c + t.c, s.d + t.d, s.e + t.e⟩

def words : Octets → List UInt32
  | a :: b :: c :: d :: rest => UInt32.ofNat (Octets.toNat [a, b, c, d]) :: words rest
  | _ => []

def block (s : State) (bytes : Octets) : State := s.add (rounds 80 s (words bytes))

/-- Whole blocks of 64 bytes: the data, a one bit, zeros, and the length in bits. -/
def padded (data : Octets) : Octets :=
  let zeros := (119 - data.length % 64) % 64
  data ++ 0x80 :: List.replicate zeros 0 ++ Octets.ofNat 8 (data.length * 8)

def blocks (fuel : Nat) (s : State) (data : Octets) : State :=
  match fuel, data with
  | _, [] => s
  | 0, _ => s
  | fuel + 1, data => blocks fuel (block s (data.take 64)) (data.drop 64)

def digest (data : Octets) : Octets :=
  let data := padded data
  let s := blocks (data.length / 64) initial data
  [s.a, s.b, s.c, s.d, s.e].flatMap fun word => Octets.ofNat 4 word.toNat

end WebSocketHost.Sha1
