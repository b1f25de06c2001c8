-- SHA-256 of a list of bytes, in natural numbers modulo 2 ^ 32, and the
-- lowercase hexadecimal text of a digest.
import Mathlib

namespace sha256

/-- One word more than the largest word. -/
def WORD : Nat := 4294967296

def rotr (n x : Nat) : Nat := (x >>> n) ||| ((x <<< (32 - n)) % WORD)

def complement (x : Nat) : Nat := WORD - 1 - x

/-- The round constants. -/
def K : List Nat :=
  [0x428a2f98, 0x71374491, 0xb5c0fbcf, 0xe9b5dba5, 0x3956c25b, 0x59f111f1, 0x923f82a4, 0xab1c5ed5,
   0xd807aa98, 0x12835b01, 0x243185be, 0x550c7dc3, 0x72be5d74, 0x80deb1fe, 0x9bdc06a7, 0xc19bf174,
   0xe49b69c1, 0xefbe4786, 0x0fc19dc6, 0x240ca1cc, 0x2de92c6f, 0x4a7484aa, 0x5cb0a9dc, 0x76f988da,
   0x983e5152, 0xa831c66d, 0xb00327c8, 0xbf597fc7, 0xc6e00bf3, 0xd5a79147, 0x06ca6351, 0x14292967,
   0x27b70a85, 0x2e1b2138, 0x4d2c6dfc, 0x53380d13, 0x650a7354, 0x766a0abb, 0x81c2c92e, 0x92722c85,
   0xa2bfe8a1, 0xa81a664b, 0xc24b8b70, 0xc76c51a3, 0xd192e819, 0xd6990624, 0xf40e3585, 0x106aa070,
   0x19a4c116, 0x1e376c08, 0x2748774c, 0x34b0bcb5, 0x391c0cb3, 0x4ed8aa4a, 0x5b9cca4f, 0x682e6ff3,
   0x748f82ee, 0x78a5636f, 0x84c87814, 0x8cc70208, 0x90befffa, 0xa4506ceb, 0xbef9a3f7, 0xc67178f2]

/-- The eight words of the running hash. -/
structure State where
  a : Nat
  b : Nat
  c : Nat
  d : Nat
  e : Nat
  f : Nat
  g : Nat
  h : Nat

def initial : State :=
  ⟨0x6a09e667, 0xbb67ae85, 0x3c6ef372, 0xa54ff53a, 0x510e527f, 0x9b05688c, 0x1f83d9ab, 0x5be0cd19⟩

/-- The message with its padding: a one bit, zeros, and the length in bits. -/
def padded (message : List Nat) : List Nat :=
  let zeros := (119 - message.length % 64) % 64
  let bits := message.length * 8
  message ++ 0x80 :: List.replicate zeros 0 ++
    (List.range 8).map fun i => (bits >>> (8 * (7 - i))) % 256

/-- Four bytes a word. -/
def words : List Nat → List Nat
  | a :: b :: c :: d :: rest => (((a * 256 + b) * 256 + c) * 256 + d) :: words rest
  | _ => []

/-- The rest of the message schedule, from its last sixteen words. -/
def schedule : Nat → List Nat → List Nat
  | 0, window => window
  | n + 1, window =>
    match window with
    | [w0, w1, w2, w3, w4, w5, w6, w7, w8, w9, w10, w11, w12, w13, w14, w15] =>
      let s0 := (rotr 7 w1 ^^^ rotr 18 w1) ^^^ (w1 >>> 3)
      let s1 := (rotr 17 w14 ^^^ rotr 19 w14) ^^^ (w14 >>> 10)
      let next := (w0 + s0 + w9 + s1) % WORD
      w0 :: schedule n
        [w1, w2, w3, w4, w5, w6, w7, w8, w9, w10, w11, w12, w13, w14, w15, next]
    | _ => []

/-- One round with one word of the schedule and one round constant. -/
def round (s : State) (wk : Nat × Nat) : State :=
  let s1 := (rotr 6 s.e ^^^ rotr 11 s.e) ^^^ rotr 25 s.e
  let ch := (s.e &&& s.f) ^^^ (complement s.e &&& s.g)
  let t1 := (s.h + s1 + ch + wk.2 + wk.1) % WORD
  let s0 := (rotr 2 s.a ^^^ rotr 13 s.a) ^^^ rotr 22 s.a
  let maj := ((s.a &&& s.b) ^^^ (s.a &&& s.c)) ^^^ (s.b &&& s.c)
  let t2 := (s0 + maj) % WORD
  ⟨(t1 + t2) % WORD, s.a, s.b, s.c, (s.d + t1) % WORD, s.e, s.f, s.g⟩

def add (s t : State) : State :=
  ⟨(s.a + t.a) % WORD, (s.b + t.b) % WORD, (s.c + t.c) % WORD, (s.d + t.d) % WORD,
   (s.e + t.e) % WORD, (s.f + t.f) % WORD, (s.g + t.g) % WORD, (s.h + t.h) % WORD⟩

def block (s : State) (ws : List Nat) : State :=
  add s ((schedule 48 ws).zip K |>.foldl round s)

/-- The blocks of sixteen words, with fuel for their number. -/
def blocks : Nat → State → List Nat → State
  | 0, s, _ => s
  | n + 1, s, ws => blocks n (block s (ws.take 16)) (ws.drop 16)

/-- The eight words of the digest of a message. -/
def digestWords (message : List Nat) : List Nat :=
  let ws := words (padded message)
  let s := blocks (ws.length / 16) initial ws
  [s.a, s.b, s.c, s.d, s.e, s.f, s.g, s.h]

/-- Eight lowercase hexadecimal digits. -/
def hexWord (w : Nat) : List Char :=
  (List.range 8).map fun i => Nat.digitChar ((w >>> (4 * (7 - i))) % 16)

/-- The digest in 64 lowercase hexadecimal digits. -/
def hexdigest (message : List Nat) : List Char := (digestWords message).flatMap hexWord

theorem length_hexdigest (message : List Nat) : (hexdigest message).length = 64 := by
  simp [hexdigest, digestWords, hexWord]

example : hexdigest [0x61, 0x62, 0x63] =
    "ba7816bf8f01cfea414140de5dae2223b00361a396177a9cb410ff61f20015ad".toList := by
  decide +kernel

end sha256
