-- Strict document loading: bytes in, a canonical value out. The JSON parser
-- is the one of the standard library; every choice it would make on its own
-- is made by the hooks here.
import VerifyRun.Canon
import VerifyRun.JsonScan

namespace vfy.load

open calls python json keys

def MAX_DEPTH : Int := 64

/-- `_decode_utf8`. -/
def decode_utf8 (data : ByteArray) : Except Exn Text :=
  if data.data.toList.take 3 = [0xEF, 0xBB, 0xBF] then
    .error (fail .source_encoding_invalid "Source carries a UTF-8 byte-order mark.")
  else
    match data.utf8Decode? with
    | some text => .ok text.toList
    | none => .error (fail .source_encoding_invalid "Source bytes are not UTF-8.")

/-- One turn of the loop of `_reject_excess_depth`, then the rest of it. -/
def depth_loop : Text → Int → Bool → Bool → Except Exn Unit
  | [], _, _, _ => .ok ()
  | character :: rest, depth, in_string, escaped =>
    if in_string then
      if escaped then depth_loop rest depth true false
      else if character = '\\' then depth_loop rest depth true true
      else if character = '"' then depth_loop rest depth false false
      else depth_loop rest depth true false
    else if character = '"' then depth_loop rest depth true escaped
    else if character = '{' ∨ character = '[' then
      if depth + 1 > MAX_DEPTH then
        .error (fail .source_too_deep "Source nests deeper than the declared maximum of 64.")
      else depth_loop rest (depth + 1) false escaped
    else if character = '}' ∨ character = ']' then depth_loop rest (depth - 1) false escaped
    else depth_loop rest depth false escaped

/-- `_reject_excess_depth`. -/
def reject_excess_depth (text : Text) : Except Exn Unit := depth_loop text 0 false false

/-! ## The hooks -/

/-- `_object_from_pairs`. -/
def object_from_pairs (pairs : List (Str × Value)) : Except Exn Value :=
  if Distinct pairs then .ok (.dict pairs)
  else .error (fail .canonical_form_invalid "Duplicate object key in source.")

def FLOAT_MESSAGE : Str :=
  "A number with a fraction or an exponent is a float and is never valid input; carry non-integer numbers as canonical decimal strings."

def INTERVAL_MESSAGE : Str := "Integer outside the range every implementation holds exactly."

/-- `_reject_float`. -/
def reject_float (_text : Text) : Except Exn Value :=
  .error (fail .float_not_permitted FLOAT_MESSAGE)

/-- `_integer_within_interval`. -/
def integer_within_interval (text : Text) : Py Value := do
  let value ← int text
  if value < canon.MIN_SAFE_INTEGER ∨ canon.MAX_SAFE_INTEGER < value then
    raise (fail .canonical_form_invalid INTERVAL_MESSAGE)
  else pure (.int value)

/-- `_reject_non_json_constant`. -/
def reject_non_json_constant (name : Str) : Except Exn Value :=
  .error (fail .source_syntax_invalid
    (name ++ lit " is not JSON; a parser that accepts it is extending the format."))

def hooks : Hooks where
  object_pairs_hook pairs := lift (object_from_pairs pairs)
  parse_float text := lift (reject_float text)
  parse_int := integer_within_interval
  parse_constant name := lift (reject_non_json_constant name)

/-! ## Loading -/

/-- `except json.JSONDecodeError`. -/
def syntax_failure : Exn → Exn
  | .json_decode_error => fail .source_syntax_invalid
      "Source is not well-formed JSON, carries trailing content, holds more than one document, or is empty."
  | e => e

/-- `load_json_bytes`, as a computation that asks the runtime for its integers. -/
def loading (data : ByteArray) : Py Value := do
  let text ← lift (decode_utf8 data)
  lift (reject_excess_depth text)
  let value ← (loads hooks text).mapThrow syntax_failure
  let _ ← lift (canon.canonicalize value)
  pure value

/-- Return the canonical value the JSON source bytes denote. -/
def load_json_bytes (data : ByteArray) : Except Exn Value := outcome (loading data)

/-! ## What loading returns and raises -/

theorem depth_loop_error {text : Text} {depth : Int} {in_string escaped : Bool} {e : Exn}
    (h : depth_loop text depth in_string escaped = .error e) : e.IsVerify := by
  induction text generalizing depth in_string escaped with
  | nil => cases h
  | cons c rest ih =>
    simp only [depth_loop] at h
    split_ifs at h
    all_goals first
      | exact ih h
      | exact ⟨_, (Except.error.inj h).symm⟩

theorem decode_utf8_error {data : ByteArray} {e : Exn} (h : decode_utf8 data = .error e) :
    e.IsVerify := by
  unfold decode_utf8 at h
  split at h
  · exact ⟨_, (Except.error.inj h).symm⟩
  · split at h
    · cases h
    · exact ⟨_, (Except.error.inj h).symm⟩

/-- A JSON parser with the hooks of the loader raises a syntax error or a typed
failure, and its mappings have distinct keys. -/
theorem hooks_rules :
    HookRules hooks (fun e => e = .json_decode_error ∨ e.IsVerify) Value.DistinctKeys where
  pairs ms hms := by
    refine lift_sat (fun e he => ?_) fun v hv => ?_
    · unfold object_from_pairs at he
      split at he
      · cases he
      · exact Or.inr ⟨_, (Except.error.inj he).symm⟩
    · unfold object_from_pairs at hv
      split at hv
      · cases hv
        exact .dict ‹_› hms
      · cases hv
  float _ := Or.inr ⟨_, rfl⟩
  int t := by
    intro o _
    simp only [calls.Prog.bind]
    split
    · exact Or.inr ⟨_, rfl⟩
    · exact .int _
  constant _ := Or.inr ⟨_, rfl⟩
  syntax_error := Or.inl rfl
  null := .null
  bool := .bool
  str := .str
  list _ h := .list h

/-- Loading raises a typed failure and returns a canonical value; the runtime's
own `ValueError` is the only other exception it can let through. -/
theorem loading_sat (data : ByteArray) : (loading data).Sat Answers Exn.IsVerify Value.Canonical := by
  unfold loading
  refine Prog.Sat.bind (Q := fun _ => True) (lift_sat (fun _ => decode_utf8_error) fun _ _ => trivial)
    fun text _ => ?_
  refine Prog.Sat.bind (Q := fun _ => True) (lift_sat (fun _ => depth_loop_error) fun _ _ => trivial)
    fun _ _ => ?_
  refine Prog.Sat.bind ((loads_sat hooks_rules text).mapThrow ?_) fun value hd => ?_
  · rintro e (rfl | ⟨f, rfl⟩)
    · exact ⟨_, rfl⟩
    · exact ⟨f, rfl⟩
  · refine Prog.Sat.bind (Q := fun _ => ∃ t, canon.encode value = .ok t) ?_ fun _ ⟨t, ht⟩ =>
      Prog.Sat.pure (canon.canonical_of_encode hd ht)
    rw [canon.canonicalize_eq_encode]
    exact lift_sat (fun e he => (canon.encode_error value e he).isVerify) fun t ht => ⟨t, ht⟩

theorem canonical_of_load {data : ByteArray} {v : Value} (h : load_json_bytes data = .ok v) :
    v.Canonical := by
  rcases outcome_sat (loading_sat data) with ⟨w, hw, hc⟩ | ⟨e, he, _⟩
  · rw [load_json_bytes, hw] at h
    cases h
    exact hc
  · rw [load_json_bytes, he] at h
    cases h

/-- Loading fails with a typed failure, or with the `ValueError` of a long
integer. -/
theorem load_error {data : ByteArray} {e : Exn} (h : load_json_bytes data = .error e) :
    e.IsVerify ∨ e = .value_error := by
  rcases outcome_sat (loading_sat data) with ⟨w, hw, _⟩ | ⟨e', he, hE⟩
  · rw [load_json_bytes, hw] at h
    cases h
  · rw [load_json_bytes, he] at h
    cases h
    exact hE

/-- Loading raises no `ValueError` of its own. -/
theorem loading_value_error_free (data : ByteArray) :
    (loading data).Sat Answers (· ≠ .value_error) Value.Canonical :=
  (loading_sat data).mono (fun _ ⟨_, hf⟩ => by simp [hf]) fun _ h => h

end vfy.load
