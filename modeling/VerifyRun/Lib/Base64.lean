-- Base64: bytes as text of a 64-letter alphabet, four letters for three
-- bytes, and the strict reading of such a text.
import Mathlib

namespace base64

def ALPHABET : List Char :=
  "ABCDEFGHIJKLMNOPQRSTUVWXYZabcdefghijklmnopqrstuvwxyz0123456789+/".toList

/-- The letter of six bits. -/
def letter (n : Nat) : Char := ALPHABET.getD n '='

/-- The six bits of a letter. -/
def sextet? (c : Char) : Option Nat :=
  if c ∈ ALPHABET then some (ALPHABET.idxOf c) else none

/-- The text of the bytes, with padding. -/
def encode : List UInt8 → List Char
  | a :: b :: c :: rest =>
    let n := a.toNat * 65536 + b.toNat * 256 + c.toNat
    letter (n / 262144) :: letter (n / 4096 % 64) :: letter (n / 64 % 64) :: letter (n % 64) ::
      encode rest
  | [a, b] =>
    let n := a.toNat * 1024 + b.toNat * 4
    [letter (n / 4096), letter (n / 64 % 64), letter (n % 64), '=']
  | [a] =>
    let n := a.toNat * 16
    [letter (n / 64), letter (n % 64), '=', '=']
  | [] => []

/-- The bytes of a text, when it has only letters, and padding at its end. The
bits that the padding leaves over are not looked at. -/
def decode? : List Char → Option (List UInt8)
  | [] => some []
  | w :: x :: y :: z :: rest => do
    let s ← sextet? w
    let t ← sextet? x
    if z = '=' then
      if rest ≠ [] then none
      else if y = '=' then some [UInt8.ofNat (s * 4 + t / 16)]
      else
        let u ← sextet? y
        some [UInt8.ofNat (s * 4 + t / 16), UInt8.ofNat (t % 16 * 16 + u / 4)]
    else
      let u ← sextet? y
      let v ← sextet? z
      let more ← decode? rest
      some (UInt8.ofNat (s * 4 + t / 16) :: UInt8.ofNat (t % 16 * 16 + u / 4) ::
        UInt8.ofNat (u % 4 * 64 + v) :: more)
  | _ => none

theorem sextet_letter : ∀ n < 64, sextet? (letter n) = some n ∧ letter n ≠ '=' := by decide +kernel

theorem letter_ne_pad {n : Nat} (h : n < 64) : letter n ≠ '=' := (sextet_letter n h).2

@[simp] theorem sextet?_letter {n : Nat} (h : n < 64) : sextet? (letter n) = some n :=
  (sextet_letter n h).1

theorem ofNat_eq (a : UInt8) {n : Nat} (h : n = a.toNat) : UInt8.ofNat n = a := by
  rw [h, UInt8.ofNat_toNat]

/-- What was written is read back. -/
theorem decode_encode (bytes : List UInt8) : decode? (encode bytes) = some bytes := by
  induction bytes using encode.induct with
  | case1 a b c rest ih =>
    have ha := a.toNat_lt
    have hb := b.toNat_lt
    have hc := c.toNat_lt
    rw [encode, decode?, sextet?_letter (by omega), sextet?_letter (by omega),
      sextet?_letter (by omega), sextet?_letter (by omega), ih]
    simp only [Option.bind_eq_bind, Option.bind_some, if_neg (letter_ne_pad (Nat.mod_lt _ _)),
      Nat.zero_lt_succ]
    rw [ofNat_eq a (by omega), ofNat_eq b (by omega), ofNat_eq c (by omega)]
  | case2 a b =>
    have ha := a.toNat_lt
    have hb := b.toNat_lt
    rw [encode, decode?, sextet?_letter (by omega), sextet?_letter (by omega),
      sextet?_letter (by omega)]
    simp only [Option.bind_eq_bind, Option.bind_some, ne_eq, not_true_eq_false, if_true, if_false,
      if_neg (letter_ne_pad (Nat.mod_lt _ _)), Nat.zero_lt_succ]
    rw [ofNat_eq a (by omega), ofNat_eq b (by omega)]
  | case3 a =>
    have ha := a.toNat_lt
    rw [encode, decode?, sextet?_letter (by omega), sextet?_letter (by omega)]
    simp only [Option.bind_eq_bind, Option.bind_some, ne_eq, not_true_eq_false, if_true, if_false]
    rw [ofNat_eq a (by omega)]
  | case4 => rfl

theorem encode_injective : Function.Injective encode := by
  intro a b h
  have hd := congrArg decode? h
  rw [decode_encode, decode_encode] at hd
  exact Option.some.inj hd

end base64
