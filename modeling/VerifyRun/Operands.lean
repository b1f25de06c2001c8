-- The values that a predicate compares: exact equality, exact numeric order
-- on digit text, and the portable glob. None of them converts an operand or
-- asks the runtime for anything.
import VerifyRun.Expr

namespace vfy.gate

open python

/-- What an operand is: nothing that the evidence settles, a path that does not
resolve, or a value. -/
inductive Resolved where
  | unsettled
  | absent
  | value (v : Value)

/-! ## Equality -/

mutual

/-- `_equal` of two values. The members of two mappings are compared by `==`. -/
def equal_values : Value → Value → Bool
  | .list xs, .list ys => equal_items xs ys
  | .dict ms, .dict ns => python.eq (.dict ms) (.dict ns)
  | v, w => eqExact v w

def equal_items : List Value → List Value → Bool
  | [], [] => true
  | x :: xs, y :: ys => equal_values x y && equal_items xs ys
  | _, _ => false

end

/-- `_equal`. -/
def equal : Resolved → Resolved → Bool
  | .value v, .value w => equal_values v w
  | .absent, .absent => true
  | _, _ => false

/-! ## Numbers -/

def MAX_NUMERIC_DIGITS : Nat := 1024

/-- The groups of a match of `_DECIMAL`: the sign, the digits before the point
and the digits after it. -/
def decimal_groups (s : Str) : Option (Bool × Str × Str) :=
  let (negative, rest) :=
    match s with
    | .scalar '-' :: rest => (true, rest)
    | _ => (false, s)
  match expr.indexOf rest with
  | none => none
  | some whole =>
    match rest.drop whole.length with
    | [] => some (negative, whole, [])
    | .scalar '.' :: c :: fraction =>
      if (c :: fraction).all expr.isDigit then some (negative, whole, c :: fraction) else none
    | _ => none

/-- Digits with no zeros at their head; zero keeps one. -/
def strip_left (whole : Str) : Str :=
  match whole.dropWhile (· = .scalar '0') with
  | [] => lit "0"
  | digits => digits

/-- Digits with no zeros at their end. -/
def strip_right (fraction : Str) : Str :=
  (fraction.reverse.dropWhile (· = .scalar '0')).reverse

/-- The sign, the integer digits and the fraction digits of an exact numeric. -/
structure Numeric where
  sign : Int
  whole : Str
  fraction : Str
deriving DecidableEq

/-- `_numeric_parts`. -/
def numeric_parts : Value → Option Numeric
  | .int i => some ⟨if i < 0 then -1 else 1, ofText (canon.decimal i.natAbs), []⟩
  | .str s =>
    match decimal_groups s with
    | none => none
    | some (minus, whole, fraction) =>
      if whole.length + fraction.length > MAX_NUMERIC_DIGITS then none
      else
        let whole := strip_left whole
        let fraction := strip_right fraction
        let negative := minus ∧ (whole ≠ lit "0" ∨ fraction ≠ [])
        some ⟨if negative then -1 else 1, whole, fraction⟩
  | _ => none

/-- `digits.ljust(width, "0")`. -/
def ljust (digits : Str) (width : Nat) : Str :=
  digits ++ List.replicate (width - digits.length) (.scalar '0')

/-- `_compare_magnitude`. -/
def compare_magnitude (first second : Numeric) : Int :=
  if first.whole.length ≠ second.whole.length then
    if first.whole.length < second.whole.length then -1 else 1
  else if first.whole ≠ second.whole then
    if first.whole < second.whole then -1 else 1
  else
    let width := max first.fraction.length second.fraction.length
    let padded_a := ljust first.fraction width
    let padded_b := ljust second.fraction width
    if padded_a = padded_b then 0 else if padded_a < padded_b then -1 else 1

/-- `_compare_numeric`. -/
def compare_numeric (left right : Value) : Option Int :=
  match numeric_parts left, numeric_parts right with
  | some first, some second =>
    if first.sign ≠ second.sign then some (if first.sign < second.sign then -1 else 1)
    else
      let order := compare_magnitude first second
      some (if first.sign > 0 then order else -order)
  | _, _ => none

/-! ## The portable glob -/

/-- `_class_end`. -/
def class_end (pattern : Str) (start : Nat) : Option Nat :=
  let index := start + 1
  let index := if pattern[index]? = some (.scalar '!') then index + 1 else index
  let index := if pattern[index]? = some (.scalar ']') then index + 1 else index
  ((pattern.drop index).findIdx? (· = .scalar ']')).map (index + ·)

/-- The loop of `_in_class`. -/
def class_loop (character : CodePoint) : Str → Bool → Bool
  | a :: b :: c :: rest, matched =>
    if b = .scalar '-' then
      class_loop character rest (matched || decide (a ≤ character ∧ character ≤ c))
    else class_loop character (b :: c :: rest) (matched || decide (a = character))
  | a :: rest, matched => class_loop character rest (matched || decide (a = character))
  | [], matched => matched

/-- `_in_class`. -/
def in_class (body : Str) (character : CodePoint) : Bool :=
  match body with
  | .scalar '!' :: body => !class_loop character body false
  | body => class_loop character body false

/-- `_single`: the next position if the one element at `position` matches. -/
def single (pattern : Str) (position : Nat) (character : CodePoint) : Option Nat :=
  match pattern[position]? with
  | none => none
  | some marker =>
    if marker = .scalar '*' then none
    else if marker = .scalar '?' then some (position + 1)
    else if marker = .scalar '[' then
      match class_end pattern position with
      | none => if character = .scalar '[' then some (position + 1) else none
      | some stop =>
        if in_class ((pattern.take stop).drop (position + 1)) character then some (stop + 1)
        else none
    else if character = marker then some (position + 1) else none

/-- Where the loop of `_glob` is. The last star is before the position, and the
position that it resumed from is not after the one that is consumed. -/
structure Walk where
  position : Nat
  consumed : Nat
  star : Option Nat
  resume : Nat
  star_lt : ∀ s ∈ star, s < position
  resume_le : resume ≤ consumed

theorem class_end_gt {pattern : Str} {start stop : Nat} (h : class_end pattern start = some stop) :
    start < stop := by
  unfold class_end at h
  obtain ⟨i, -, rfl⟩ := Option.map_eq_some_iff.mp h
  split <;> split <;> omega

theorem single_gt {pattern : Str} {position next : Nat} {character : CodePoint}
    (h : single pattern position character = some next) : position < next := by
  unfold single at h
  split at h
  · cases h
  · repeat' split at h
    all_goals cases h
    all_goals first
      | exact Nat.lt_succ_self position
      | exact Nat.lt_succ_of_lt (class_end_gt ‹_›)

/-- The element at the position matches. -/
def Walk.match_ (w : Walk) {next : Nat} (h : w.position < next) : Walk where
  position := next
  consumed := w.consumed + 1
  star := w.star
  resume := w.resume
  star_lt := fun s hs => (w.star_lt s hs).trans h
  resume_le := w.resume_le.trans (Nat.le_succ _)

/-- The element at the position is a star. -/
def Walk.open_ (w : Walk) : Walk where
  position := w.position + 1
  consumed := w.consumed
  star := some w.position
  resume := w.consumed
  star_lt := fun s hs => by cases hs; exact Nat.lt_succ_self _
  resume_le := le_rfl

/-- The last star takes one more character. -/
def Walk.retry (w : Walk) (s : Nat) : Walk where
  position := s + 1
  consumed := w.resume + 1
  star := some s
  resume := w.resume + 1
  star_lt := fun t ht => by cases ht; exact Nat.lt_succ_self _
  resume_le := le_rfl

/-- What is left of a pattern that matched all the text. -/
def glob_rest (pattern : Str) (position : Nat) : Bool :=
  (pattern.drop position).all (· = .scalar '*')

/-- The number of the last star, where there is one. -/
def Walk.stars (w : Walk) : Nat := w.star.elim 0 (· + 1)

theorem Walk.stars_le (w : Walk) : w.stars ≤ w.position := by
  unfold Walk.stars
  cases hs : w.star with
  | none => exact Nat.zero_le _
  | some s => exact w.star_lt s hs

/-- The loop of `_glob`. -/
def glob_loop (pattern text : Str) (w : Walk) : Bool :=
  if hc : w.consumed < text.length then
    match hstep : single pattern w.position text[w.consumed] with
    | some next => glob_loop pattern text (w.match_ (single_gt hstep))
    | none =>
      if hstar : pattern[w.position]? = some (.scalar '*') then glob_loop pattern text w.open_
      else
        match hs : w.star with
        | none => false
        | some s => glob_loop pattern text (w.retry s)
  else glob_rest pattern w.position
termination_by (pattern.length - w.stars, text.length - w.resume, text.length - w.consumed)
decreasing_by
  · refine Prod.Lex.right _ (Prod.Lex.right _ ?_)
    show text.length - (w.consumed + 1) < text.length - w.consumed
    omega
  · refine Prod.Lex.left _ _ ?_
    have hlt : w.position < pattern.length := (List.getElem?_eq_some_iff.mp hstar).1
    have hle := w.stars_le
    show pattern.length - (w.position + 1) < pattern.length - w.stars
    omega
  · have hstars : (w.retry s).stars = w.stars := by simp [Walk.stars, Walk.retry, hs]
    rw [hstars]
    refine Prod.Lex.right _ (Prod.Lex.left _ _ ?_)
    have hle := w.resume_le
    show text.length - (w.resume + 1) < text.length - w.resume
    omega

/-- `_glob`. -/
def glob (pattern text : Str) : Bool :=
  glob_loop pattern text ⟨0, 0, none, 0, by simp, le_rfl⟩

/-! ## The order of members does not matter -/

theorem equal_items_normalize_left {xs ys : List Value}
    (ih : ∀ x ∈ xs, ∀ w, equal_values x.normalize w = equal_values x w) :
    equal_items (xs.map Value.normalize) ys = equal_items xs ys := by
  induction xs generalizing ys with
  | nil => rfl
  | cons x xs ihx =>
    cases ys with
    | nil => rfl
    | cons y ys =>
      simp only [List.map_cons, equal_items]
      rw [ih x (by simp), ihx fun z hz => ih z (by simp [hz])]

theorem equal_values_normalize_left (v w : Value) :
    equal_values v.normalize w = equal_values v w := by
  induction v generalizing w with
  | null => simp
  | bool b => simp
  | int i => simp
  | str s => simp
  | list xs ih =>
    rw [Value.normalize_list]
    cases w with
    | list ys => simpa only [equal_values] using equal_items_normalize_left ih
    | _ => simp [equal_values, eqExact]
  | dict ms _ =>
    have hms := eq_normalize_left (.dict ms) w
    rw [Value.normalize_dict] at hms ⊢
    cases w with
    | dict ns => simpa only [equal_values] using hms
    | _ => simp [equal_values, eqExact]

theorem equal_items_normalize_right {xs ys : List Value}
    (ih : ∀ x ∈ xs, ∀ w : Value, w.DistinctKeys → equal_values x w.normalize = equal_values x w)
    (hy : ∀ y ∈ ys, y.DistinctKeys) :
    equal_items xs (ys.map Value.normalize) = equal_items xs ys := by
  induction xs generalizing ys with
  | nil => cases ys <;> rfl
  | cons x xs ihx =>
    cases ys with
    | nil => rfl
    | cons y ys =>
      simp only [List.map_cons, equal_items]
      rw [ih x (by simp) y (hy y (by simp)),
        ihx (fun z hz => ih z (by simp [hz])) fun z hz => hy z (by simp [hz])]

theorem equal_values_normalize_right (v : Value) {w : Value} (hw : w.DistinctKeys) :
    equal_values v w.normalize = equal_values v w := by
  induction v generalizing w with
  | list xs ih =>
    cases hw with
    | list hy =>
      rw [Value.normalize_list]
      simpa only [equal_values] using equal_items_normalize_right (fun x hx w => @ih x hx w) hy
    | dict hn hv => rw [Value.normalize_dict]; simp [equal_values, eqExact]
    | _ => simp
  | dict ms _ =>
    cases hw with
    | @dict ns hn hv =>
      have hns : python.eq (.dict ms) (Value.normalize (.dict ns)) =
          python.eq (.dict ms) (.dict ns) :=
        eqBy_normalize_right eqScalar_normalize_right (.dict ms) (.dict hn hv)
      rw [Value.normalize_dict] at hns ⊢
      simpa only [equal_values] using hns
    | list hy => rw [Value.normalize_list]; simp [equal_values, eqExact]
    | _ => simp
  | null =>
    cases hw with
    | list hy => rw [Value.normalize_list]; simp [equal_values, eqExact]
    | dict hn hv => rw [Value.normalize_dict]; simp [equal_values, eqExact]
    | _ => simp
  | bool b =>
    cases hw with
    | list hy => rw [Value.normalize_list]; simp [equal_values, eqExact]
    | dict hn hv => rw [Value.normalize_dict]; simp [equal_values, eqExact]
    | _ => simp
  | int i =>
    cases hw with
    | list hy => rw [Value.normalize_list]; simp [equal_values, eqExact]
    | dict hn hv => rw [Value.normalize_dict]; simp [equal_values, eqExact]
    | _ => simp
  | str s =>
    cases hw with
    | list hy => rw [Value.normalize_list]; simp [equal_values, eqExact]
    | dict hn hv => rw [Value.normalize_dict]; simp [equal_values, eqExact]
    | _ => simp

theorem numeric_parts_normalize (v : Value) : numeric_parts v.normalize = numeric_parts v := by
  cases v <;> simp [numeric_parts]

theorem compare_numeric_normalize (v w : Value) :
    compare_numeric v.normalize w.normalize = compare_numeric v w := by
  simp only [compare_numeric, numeric_parts_normalize]

end vfy.gate
