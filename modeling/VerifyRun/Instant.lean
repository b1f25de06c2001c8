-- Instants: the date-time grammar of the schemas and the exact nanosecond
-- count that the evaluator compares.
import VerifyRun.Errors
import VerifyRun.Value
import VerifyRun.Pattern

namespace vfy.schema

/-- The groups of a match of `_DATE_TIME`. -/
structure DateTime where
  year : Nat
  month : Nat
  day : Nat
  hour : Nat
  minute : Nat
  second : Nat
  /-- The digits after the point. -/
  fraction : List Nat
  /-- Nothing for `Z`. The sign is true for `+`. -/
  offset : Option (Bool × Nat × Nat)
deriving DecidableEq

/-- The number that these digits write, if they are digits. -/
def number? (s : Str) : Option Nat :=
  (s.mapM re.digit?).map fun ds => ds.foldl (fun n d => n * 10 + d) 0

/-- `(\.[0-9]{1,9})?` at the head of the string. -/
def fraction? (s : Str) : Option (List Nat × Str) :=
  match s with
  | .scalar '.' :: rest =>
    let digits := rest.takeWhile fun c => (re.digit? c).isSome
    if 1 ≤ digits.length ∧ digits.length ≤ 9 then
      (digits.mapM re.digit?).map fun ds => (ds, rest.drop digits.length)
    else none
  | _ => some ([], s)

/-- `(Z|[+-][0-9]{2}:[0-9]{2})\Z` at the head of the string. -/
def offset? (s : Str) : Option (Option (Bool × Nat × Nat)) :=
  match s with
  | [.scalar 'Z'] => some none
  | [sign, h1, h2, .scalar ':', m1, m2] => do
    let hours ← number? [h1, h2]
    let minutes ← number? [m1, m2]
    match sign with
    | .scalar '+' => some (some (true, hours, minutes))
    | .scalar '-' => some (some (false, hours, minutes))
    | _ => none
  | _ => none

/-- `_DATE_TIME.match(text)`. -/
def date_time (text : Str) : Option DateTime :=
  match text with
  | y1 :: y2 :: y3 :: y4 :: .scalar '-' :: m1 :: m2 :: .scalar '-' :: d1 :: d2 :: .scalar 'T' ::
      h1 :: h2 :: .scalar ':' :: n1 :: n2 :: .scalar ':' :: s1 :: s2 :: rest => do
    let year ← number? [y1, y2, y3, y4]
    let month ← number? [m1, m2]
    let day ← number? [d1, d2]
    let hour ← number? [h1, h2]
    let minute ← number? [n1, n2]
    let second ← number? [s1, s2]
    let (fraction, rest) ← fraction? rest
    let offset ← offset? rest
    some { year, month, day, hour, minute, second, fraction, offset }
  | _ => none

def DAYS : List Nat := [31, 28, 31, 30, 31, 30, 31, 31, 30, 31, 30, 31]

/-- `_is_date_time`. -/
def is_date_time (text : Str) : Bool :=
  match date_time text with
  | none => false
  | some m =>
    if ¬ (1 ≤ m.month ∧ m.month ≤ 12) ∨ m.hour > 23 ∨ m.minute > 59 ∨ m.second > 59 then false
    else
      let limit := if m.month = 2 ∧ (m.year % 4 = 0 ∧ (m.year % 100 ≠ 0 ∨ m.year % 400 = 0)) then 29
        else DAYS.getD (m.month - 1) 0
      if ¬ (1 ≤ m.day ∧ m.day ≤ limit) then false
      else
        match m.offset with
        | none => true
        | some (_, hours, minutes) => ¬ (hours > 23 ∨ minutes > 59)

end vfy.schema

namespace vfy.rulebook

open schema

def NANOS_PER_SECOND : Int := 1000000000

/-- Days from 1970-01-01, over the proleptic Gregorian calendar. -/
def days_from_civil (year month day : Int) : Int :=
  let year := if month ≤ 2 then year - 1 else year
  let era := (if year ≥ 0 then year else year - 399) / 400
  let year_of_era := year - era * 400
  let day_of_year := (153 * (month + (if month > 2 then -3 else 9)) + 2) / 5 + day - 1
  let day_of_era := year_of_era * 365 + year_of_era / 4 - year_of_era / 100 + day_of_year
  era * 146097 + day_of_era - 719468

/-- The nanoseconds that the digits after the point write. -/
def nanoseconds (fraction : List Nat) : Nat :=
  ((fraction ++ List.replicate 9 0).take 9).foldl (fun n d => n * 10 + d) 0

/-- The nanosecond count of the groups of a match. -/
def instantOf (m : DateTime) : Int :=
  let offset_seconds : Int := match m.offset with
    | none => 0
    | some (plus, hours, minutes) => (if plus then 1 else -1) * (hours * 3600 + minutes * 60)
  let seconds := days_from_civil m.year m.month m.day * 86400 + m.hour * 3600 + m.minute * 60 +
    m.second - offset_seconds
  seconds * NANOS_PER_SECOND + nanoseconds m.fraction

/-- An exact integer nanosecond instant: `_instant`. -/
def instant (text : Value) : Except Exn Int :=
  match text with
  | .str s =>
    if is_date_time s then
      match date_time s with
      | some m => .ok (instantOf m)
      | none => .error .type_error
    else .error .type_error
  | _ => .error .type_error

/-- The instant of a text of the grammar. -/
theorem instant_of_date_time {s : Str} (h : is_date_time s = true) :
    ∃ t, instant (.str s) = .ok t := by
  simp only [instant, h, if_true]
  unfold is_date_time at h
  cases hm : date_time s with
  | none => simp [hm] at h
  | some m => exact ⟨instantOf m, rfl⟩

theorem instant_normalize (v : Value) : instant v.normalize = instant v := by
  cases v <;> simp [instant]

example : instant (.str "1970-01-02T00:00:00.5+00:00") = .ok 86400500000000 := by decide +kernel

end vfy.rulebook
