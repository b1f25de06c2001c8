-- Opaque evidence of the engineer: strict JSON whose integers may be wide and,
-- in one of the two readers, whose numbers may be floats.
import VerifyRun.CommonCapacity

namespace vfy.engineer

open python keys outcomes child_ledger common_capacity

/-! ## Floats -/

/-- The nearest integer, a tie going to the even one. -/
def roundHalfEven (q : ℚ) : Int :=
  let down := ⌊q⌋
  if q - down < 1 / 2 then down
  else if q - down = 1 / 2 ∧ down % 2 = 0 then down
  else down + 1

/-- The power of two in steps of which a float of this size is written. -/
def stepOf (q : ℚ) : Int := max (Int.log 2 |q| - 52) (-1074)

/-- The value of the float nearest to a number, if it is finite. -/
def nearest (q : ℚ) : Option ℚ :=
  if q = 0 then some 0
  else
    let r : ℚ := roundHalfEven (q / 2 ^ stepOf q) * 2 ^ stepOf q
    if |r| < 2 ^ 1024 then some r else none

/-- The number that digits write. -/
def digitsValue (digits : Text) : ℚ := (Nat.ofDigitChars 10 digits 0 : ℚ)

/-- The number that a token of JSON writes. -/
def tokenValue (token : Text) : ℚ :=
  let unsigned := if token.head? = some '-' then token.tail else token
  let mantissa := unsigned.takeWhile fun c => c ≠ 'e' ∧ c ≠ 'E'
  let exponent := (unsigned.dropWhile fun c => c ≠ 'e' ∧ c ≠ 'E').tail
  let whole := mantissa.takeWhile (· ≠ '.')
  let fraction := (mantissa.dropWhile (· ≠ '.')).tail
  let scale : Int := match exponent with
    | '-' :: digits => -(Nat.ofDigitChars 10 digits 0 : Int)
    | '+' :: digits => (Nat.ofDigitChars 10 digits 0 : Int)
    | digits => (Nat.ofDigitChars 10 digits 0 : Int)
  let size := (digitsValue whole + digitsValue fraction / 10 ^ fraction.length) * 10 ^ scale
  if token.head? = some '-' then -size else size

/-- A float, as a value. No reader returns a mapping that has one key twice, so
this is no other value. -/
def float (q : ℚ) : Value :=
  .dict [("float", .int q.num), ("float", .int q.den)]

/-- `finite`. -/
def finite (token : Text) : Except Exn Value :=
  match nearest (tokenValue token) with
  | some q => .ok (float q)
  | none => .error (.refused "Nonfinite evidence number.")

/-- `v == n` of a value of evidence and a number: a float equals the number that it is. -/
def equalsNumber (v : Value) (n : Nat) : Bool :=
  python.eq v (.int n) || python.eq v (float n)

mutual

/-- The value with an integer in the place of each float that is one, for `==`. -/
def integral : Value → Value
  | .dict [(k, .int n), (k', .int 1)] =>
    if k = lit "float" ∧ k' = lit "float" then .int n else .dict [(k, .int n), (k', .int 1)]
  | .dict members => .dict (integralMembers members)
  | .list items => .list (integralItems items)
  | v => v

def integralItems : List Value → List Value
  | [] => []
  | v :: rest => integral v :: integralItems rest

def integralMembers : List (Str × Value) → List (Str × Value)
  | [] => []
  | (k, v) :: rest => (k, integral v) :: integralMembers rest

end

/-! ## The readers -/

/-- The hooks of both readers, which differ in what they make of a float. -/
def hooks (parse_float : Text → Except Exn Value) : json.Hooks :=
  { load.hooks with parse_int := start_integer, parse_float := fun t => python.lift (parse_float t) }

/-- The JSON of evidence. -/
def read (parse_float : Text → Except Exn Value) (data : ByteArray) : Checked Value := do
  need (data.size ≤ MAX_BYTES)
  let text ← lift (load.decode_utf8 data)
  lift (load.reject_excess_depth text)
  (outcome (json.loads (hooks parse_float) text)).mapError refusalOf

/-- `evidence`. -/
def evidence (data : ByteArray) : Checked Value := do
  let v ← read finite data
  match v with
  | .dict _ => pure v
  | _ => .error (.refused REFUSED)

/-- `engineer_json`. -/
def engineer_json (data : ByteArray) : Checked Value := read load.reject_float data

/-- `v.get(key)` of a mapping, where a missing member is null. -/
def get (v : Value) (key : Str) : Value := (v.get? key).getD .null

mutual

/-- `json.dumps` with sorted keys and no spaces, which writes integers of any size. -/
def dumps : Value → Except Exn Text
  | .int i => .ok (canon.decimal i)
  | .list items => do
    let ts ← dumpsItems items
    pure ('[' :: (List.intercalate [','] ts ++ [']']))
  | .dict members => do
    let ts ← (sortByKey (dumpsMembers members)).mapM fun m => do
      let k ← canon.string_text m.1
      let t ← m.2
      pure (k ++ ':' :: t)
    pure ('\x7b' :: (List.intercalate [','] ts ++ ['\x7d']))
  | v => canon.encode v

def dumpsItems : List Value → Except Exn (List Text)
  | [] => .ok []
  | v :: rest => do
    let t ← dumps v
    let ts ← dumpsItems rest
    pure (t :: ts)

def dumpsMembers : List (Str × Value) → List (Str × Except Exn Text)
  | [] => []
  | (k, v) :: rest => (k, dumps v) :: dumpsMembers rest

end

/-- `sealed`: the evidence names the digest of its other members. -/
def sealed (data : ByteArray) : Checked Value := do
  let v ← engineer_json data
  match v with
  | .dict members => do
    let text ← lift (dumps (.dict (members.filter fun m => m.1 ≠ lit "identity_sha256")))
    needOr (isStr (get v "identity_sha256") (sha (String.ofList text).toByteArray) = true)
      "Engineer evidence identity mismatch."
    pure v
  | _ => .error (.raised .attribute_error)

end vfy.engineer
