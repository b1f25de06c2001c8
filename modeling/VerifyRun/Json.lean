-- `json.loads` with hooks: the scanner of the standard library, by recursive
-- descent. The hooks see what the scanner reads, in the order it reads it.
-- The scanner has fuel; the laws below say that the fuel of `loads` never
-- runs out.
import VerifyRun.Python

namespace vfy.json

open calls python

/-- The hooks of `json.loads`. -/
structure Hooks where
  object_pairs_hook : List (Str × Value) → Py Value
  parse_float : Text → Py Value
  parse_int : Text → Py Value
  parse_constant : Str → Py Value

def isSpace (c : Char) : Bool := c = ' ' ∨ c = '\t' ∨ c = '\n' ∨ c = '\r'

def skip_space (s : Text) : Text := s.dropWhile isSpace

/-- The text after `word`, when the text starts with it. -/
def after : Text → Text → Option Text
  | [], s => some s
  | c :: word, d :: s => if c = d then after word s else none
  | _ :: _, [] => none

/-! ## Strings -/

def hexValue (c : Char) : Option Nat :=
  if '0' ≤ c ∧ c ≤ '9' then some (c.toNat - 48)
  else if 'a' ≤ c ∧ c ≤ 'f' then some (c.toNat - 87)
  else if 'A' ≤ c ∧ c ≤ 'F' then some (c.toNat - 55)
  else none

/-- The number of four hexadecimal digits. -/
def hexNumber (a b c d : Char) : Option Nat := do
  let a ← hexValue a
  let b ← hexValue b
  let c ← hexValue c
  let d ← hexValue d
  some (((a * 16 + b) * 16 + c) * 16 + d)

theorem surrogate_offset {n : Nat} (h : 0xD800 ≤ n ∧ n < 0xE000) : n - 0xD800 < 0x800 := by
  omega

/-- The code point of a number below U+10000. -/
def codeUnit (n : Nat) : CodePoint :=
  if h : 0xD800 ≤ n ∧ n < 0xE000 then .surrogate ⟨n - 0xD800, surrogate_offset h⟩
  else .scalar (Char.ofNat n)

/-- Puts an escaped code unit before a string. A high surrogate joins a low
surrogate that the next escape wrote; no other character is a surrogate. -/
def joinUnit (c : CodePoint) (s : Str) : Str :=
  match c, s with
  | .surrogate hi, .surrogate lo :: rest =>
    if hi.val < 0x400 ∧ 0x400 ≤ lo.val then
      .scalar (Char.ofNat (0x10000 + hi.val * 0x400 + (lo.val - 0x400))) :: rest
    else c :: s
  | _, _ => c :: s

/-- The character that an escape of two characters writes. -/
def escaped : Char → Option Char
  | '"' => some '"'
  | '\\' => some '\\'
  | '/' => some '/'
  | 'b' => some '\x08'
  | 'f' => some '\x0c'
  | 'n' => some '\n'
  | 'r' => some '\r'
  | 't' => some '\t'
  | _ => none

/-- `scanstring` with `strict=True`, after the opening quote. -/
def scanstring : Text → Py (Str × Text)
  | [] => raise .json_decode_error
  | '"' :: rest => pure ([], rest)
  | '\\' :: 'u' :: a :: b :: c :: d :: rest =>
    match hexNumber a b c d with
    | some n => do
      let (s, rest) ← scanstring rest
      pure (joinUnit (codeUnit n) s, rest)
    | none => raise .json_decode_error
  | '\\' :: mark :: rest =>
    match escaped mark with
    | some c => do
      let (s, rest) ← scanstring rest
      pure (.scalar c :: s, rest)
    | none => raise .json_decode_error
  | c :: rest =>
    if c < ' ' then raise .json_decode_error
    else do
      let (s, rest) ← scanstring rest
      pure (.scalar c :: s, rest)

/-! ## Numbers -/

/-- The digits at the head of the text, and the text after them. -/
def takeDigits (s : Text) : Text × Text := (s.takeWhile Char.isDigit, s.dropWhile Char.isDigit)

/-- `-?(0|[1-9][0-9]*)` at the head of the text. -/
def integerPart (s : Text) : Option (Text × Text) :=
  match s with
  | '-' :: '0' :: rest => some (['-', '0'], rest)
  | '-' :: c :: rest =>
    if c.isDigit then some ('-' :: (takeDigits (c :: rest)).1, (takeDigits (c :: rest)).2) else none
  | '0' :: rest => some (['0'], rest)
  | c :: rest => if c.isDigit then some (takeDigits (c :: rest)) else none
  | [] => none

/-- `(\.[0-9]+)?` at the head of the text. -/
def fractionPart (s : Text) : Text × Text :=
  match s with
  | '.' :: c :: rest =>
    if c.isDigit then ('.' :: (takeDigits (c :: rest)).1, (takeDigits (c :: rest)).2) else ([], s)
  | _ => ([], s)

/-- `[-+]?` at the head of the text. -/
def signPart (s : Text) : Text × Text :=
  match s with
  | c :: rest => if c = '+' ∨ c = '-' then ([c], rest) else ([], s)
  | [] => ([], s)

/-- `([eE][-+]?[0-9]+)?` at the head of the text. -/
def exponentPart (s : Text) : Text × Text :=
  match s with
  | e :: rest =>
    if e = 'e' ∨ e = 'E' then
      let digits := takeDigits (signPart rest).2
      if digits.1 = [] then ([], s) else (e :: ((signPart rest).1 ++ digits.1), digits.2)
    else ([], s)
  | [] => ([], s)

/-- A number, as the hook of its kind makes it. -/
def scan_number (hooks : Hooks) (s : Text) : Py (Value × Text) :=
  match integerPart s with
  | none => raise .json_decode_error
  | some (integer, rest) => do
    let (fraction, rest) := fractionPart rest
    let (exponent, rest) := exponentPart rest
    if fraction = [] ∧ exponent = [] then do
      let v ← hooks.parse_int integer
      pure (v, rest)
    else do
      let v ← hooks.parse_float (integer ++ fraction ++ exponent)
      pure (v, rest)

/-! ## Values -/

/-- A word of the scanner, with the value that it stands for. -/
def scan_word (word s : Text) (value : Py Value) : Py (Value × Text) :=
  match after word s with
  | some rest => do
    let v ← value
    pure (v, rest)
  | none => raise .json_decode_error

mutual

def scan_once (hooks : Hooks) : Nat → Text → Py (Value × Text)
  | 0, _ => raise .recursion_error
  | _ + 1, [] => raise .json_decode_error
  | fuel + 1, c :: rest =>
    if c = '"' then do
      let (s, rest) ← scanstring rest
      pure (.str s, rest)
    else if c = '{' then scan_object hooks fuel (skip_space rest)
    else if c = '[' then scan_array hooks fuel (skip_space rest)
    else if c = 'n' then scan_word ['u', 'l', 'l'] rest (pure .null)
    else if c = 't' then scan_word ['r', 'u', 'e'] rest (pure (.bool true))
    else if c = 'f' then scan_word ['a', 'l', 's', 'e'] rest (pure (.bool false))
    else if c = 'N' then scan_word ['a', 'N'] rest (hooks.parse_constant "NaN")
    else if c = 'I' then
      scan_word ['n', 'f', 'i', 'n', 'i', 't', 'y'] rest (hooks.parse_constant "Infinity")
    else
      match after ['-', 'I', 'n', 'f', 'i', 'n', 'i', 't', 'y'] (c :: rest) with
      | some rest => do
        let v ← hooks.parse_constant "-Infinity"
        pure (v, rest)
      | none => scan_number hooks (c :: rest)

/-- `JSONObject`, after the opening brace and the spaces after it. -/
def scan_object (hooks : Hooks) : Nat → Text → Py (Value × Text)
  | 0, _ => raise .recursion_error
  | fuel + 1, s =>
    match after ['}'] s with
    | some rest => do
      let v ← hooks.object_pairs_hook []
      pure (v, rest)
    | none => do
      let (pairs, rest) ← scan_members hooks fuel s
      let v ← hooks.object_pairs_hook pairs
      pure (v, rest)

/-- The members of an object up to the closing brace. -/
def scan_members (hooks : Hooks) : Nat → Text → Py (List (Str × Value) × Text)
  | 0, _ => raise .recursion_error
  | fuel + 1, s =>
    match after ['"'] s with
    | none => raise .json_decode_error
    | some rest => do
      let (key, rest) ← scanstring rest
      match after [':'] (skip_space rest) with
      | none => raise .json_decode_error
      | some rest => do
        let (value, rest) ← scan_once hooks fuel (skip_space rest)
        match after ['}'] (skip_space rest) with
        | some rest => pure ([(key, value)], rest)
        | none =>
          match after [','] (skip_space rest) with
          | none => raise .json_decode_error
          | some rest => do
            let (pairs, rest) ← scan_members hooks fuel (skip_space rest)
            pure ((key, value) :: pairs, rest)

/-- `JSONArray`, after the opening bracket and the spaces after it. -/
def scan_array (hooks : Hooks) : Nat → Text → Py (Value × Text)
  | 0, _ => raise .recursion_error
  | fuel + 1, s =>
    match after [']'] s with
    | some rest => pure (.list [], rest)
    | none => do
      let (items, rest) ← scan_items hooks fuel s
      pure (.list items, rest)

/-- The items of an array up to the closing bracket. -/
def scan_items (hooks : Hooks) : Nat → Text → Py (List Value × Text)
  | 0, _ => raise .recursion_error
  | fuel + 1, s => do
    let (value, rest) ← scan_once hooks fuel s
    match after [']'] (skip_space rest) with
    | some rest => pure ([value], rest)
    | none =>
      match after [','] (skip_space rest) with
      | none => raise .json_decode_error
      | some rest => do
        let (values, rest) ← scan_items hooks fuel (skip_space rest)
        pure (value :: values, rest)

end

/-- The fuel of the scanner: no more than this many calls are ever open. -/
def fuelFor (s : Text) : Nat := 3 * s.length + 3

/-- `json.loads(s, ...)` of a text. -/
def loads (hooks : Hooks) (s : Text) : Py Value :=
  match s with
  | '\uFEFF' :: _ => raise .json_decode_error
  | _ => do
    let (value, rest) ← scan_once hooks (fuelFor s) (skip_space s)
    match skip_space rest with
    | [] => pure value
    | _ => raise .json_decode_error

end vfy.json
