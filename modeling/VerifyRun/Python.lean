-- The Python runtime that the program leans on: the conversion of decimal
-- text to an integer, with its limit of digits, and dict insertion.
import VerifyRun.Lib.Calls
import VerifyRun.Value
import VerifyRun.Errors

namespace vfy.python

open calls

/-- A Python computation. It may raise, and it may ask for `int(text)`. -/
abbrev Py := Prog Exn Text Int

/-- `raise`. -/
def raise {α : Type} (e : Exn) : Py α := .throw e

/-- A computation that asks nothing. -/
def lift {α : Type} : Except Exn α → Py α
  | .ok a => .ret a
  | .error e => .throw e

/-- `int(text)` of decimal text, as a request to the runtime. -/
def int (text : Text) : Py Int := .ask text .ret

/-- The digits of decimal text, with no sign. -/
def digitsOf : Text → Text
  | '-' :: digits => digits
  | digits => digits

/-- The number that decimal text writes. -/
def decimalValue : Text → Int
  | '-' :: digits => -(Nat.ofDigitChars 10 digits 0 : Int)
  | digits => (Nat.ofDigitChars 10 digits 0 : Int)

/-- `sys.get_int_max_str_digits()`. -/
def INT_MAX_STR_DIGITS : Nat := 4300

/-- The runtime converts a text of at most this many digits. -/
def withinLimit (text : Text) : Bool := decide ((digitsOf text).length ≤ INT_MAX_STR_DIGITS)

/-- What the runtime answers to `int(text)`: a text of more digits raises
`ValueError`. -/
def convert : Text → Except Exn Int := Prog.limited withinLimit decimalValue .value_error

/-- The outcome of a computation under the runtime. -/
def outcome {α : Type} (p : Py α) : Except Exn α := p.run convert

/-- The texts that a computation hands to `int`, in order, as long as every
one of them is converted. -/
def conversions {α : Type} (p : Py α) : List Text := p.asked decimalValue

/-- No text that the computation converts has more digits than the runtime
takes. -/
def ShortIntegers {α : Type} (p : Py α) : Prop :=
  ∀ t ∈ conversions p, (digitsOf t).length ≤ INT_MAX_STR_DIGITS

instance {α : Type} (p : Py α) : Decidable (ShortIntegers p) :=
  inferInstanceAs (Decidable (∀ t ∈ _, _))

theorem convert_of_short {t : Text} (h : (digitsOf t).length ≤ INT_MAX_STR_DIGITS) :
    convert t = .ok (decimalValue t) := by
  have hw : withinLimit t = true := decide_eq_true h
  simp [convert, Prog.limited, hw]

theorem convert_error {t : Text} {e : Exn} (h : convert t = .error e) : e = .value_error := by
  unfold convert Prog.limited at h
  split at h
  · cases h
  · exact (Except.error.inj h).symm

@[simp] theorem outcome_pure {α : Type} (a : α) : outcome (pure a : Py α) = .ok a := rfl

@[simp] theorem outcome_raise {α : Type} (e : Exn) : outcome (raise e : Py α) = .error e := rfl

@[simp] theorem outcome_lift {α : Type} (x : Except Exn α) : outcome (lift x) = x := by
  cases x <;> rfl

@[simp] theorem outcome_int (t : Text) : outcome (int t) = convert t := by
  unfold outcome int
  rw [Prog.run_ask]
  cases convert t <;> rfl

@[simp] theorem outcome_bind {α β : Type} (p : Py α) (f : α → Py β) :
    outcome (p >>= f) = (outcome p >>= fun a => outcome (f a)) := Prog.run_bind _ _ _

/-- `except` of a typed exception that is not the runtime's own. -/
theorem outcome_mapThrow {α : Type} {f : Exn → Exn} (hf : f .value_error = .value_error)
    (p : Py α) : outcome (p.mapThrow f) = (outcome p).mapError f :=
  Prog.run_mapThrow (fun _ _ h => by rw [convert_error h, hf]) p

/-- What the runtime answers, when it answers. -/
def Answers (text : Text) (n : Int) : Prop := n = decimalValue text

theorem answers_of_convert {t : Text} {n : Int} (h : convert t = .ok n) : Answers t n := by
  unfold convert Prog.limited at h
  split at h
  · exact (Except.ok.inj h).symm
  · cases h

theorem lift_sat {α : Type} {E : Exn → Prop} {Q : α → Prop} {x : Except Exn α}
    (hE : ∀ e, x = .error e → E e) (hQ : ∀ a, x = .ok a → Q a) : (lift x).Sat Answers E Q := by
  cases x with
  | ok a => exact hQ a rfl
  | error e => exact hE e rfl

/-- What a computation promises holds of its outcome, if the runtime raises
`ValueError` for nothing but a long integer. -/
theorem outcome_sat {α : Type} {E : Exn → Prop} {Q : α → Prop} {p : Py α} (h : p.Sat Answers E Q) :
    (∃ a, outcome p = .ok a ∧ Q a) ∨
      ∃ e, outcome p = .error e ∧ (E e ∨ e = .value_error) := by
  have hrun : (∃ a, outcome p = .ok a ∧ Q a) ∨
      ∃ e, outcome p = .error e ∧ (E e ∨ ∃ q, convert q = .error e) :=
    h.run fun _ _ => answers_of_convert
  rcases hrun with ⟨a, ha, hq⟩ | ⟨e, he, hE | ⟨q, hq⟩⟩
  · exact Or.inl ⟨a, ha, hq⟩
  · exact Or.inr ⟨e, he, Or.inl hE⟩
  · exact Or.inr ⟨e, he, Or.inr (convert_error hq)⟩

/-- A computation that never raises `ValueError` itself leaves with one exactly
when it converts a text with too many digits. -/
theorem outcome_value_error_iff {α : Type} {Q : α → Prop} {p : Py α}
    (h : p.Sat Answers (· ≠ .value_error) Q) : outcome p = .error .value_error ↔ ¬ ShortIntegers p := by
  unfold outcome convert
  have hA : ∀ t, Answers t (decimalValue t) := fun _ => rfl
  rw [Prog.run_limited_eq_error_iff hA h]
  simp [ShortIntegers, conversions, withinLimit]

/-- A computation that leaves with no `ValueError` promises what its outcome shows. -/
theorem sat_of_outcome {α : Type} {E : Exn → Prop} {Q Q' : α → Prop} {p : Py α}
    (h : p.Sat Answers (· ≠ .value_error) Q') (hne : outcome p ≠ .error .value_error)
    (hE : ∀ e, outcome p = .error e → E e) (hQ : ∀ a, outcome p = .ok a → Q a) :
    p.Sat Answers E Q := by
  have hshort : ShortIntegers p := by
    by_contra hlong
    exact hne ((outcome_value_error_iff h).mpr hlong)
  have hrun : outcome p = p.run fun t => .ok (decimalValue t) :=
    Prog.run_limited_of_asked fun t ht => decide_eq_true (hshort t ht)
  rw [hrun] at hE hQ
  exact Prog.sat_of_run (fun _ _ ha => ha) hE hQ

end vfy.python
