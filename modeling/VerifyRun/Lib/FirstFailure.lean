-- Checks that run one after another and raise the first thing that is not met.
-- What is not met has a place, a list of numbers in lexicographic order; a
-- check is judged against the places, and may miss some of them.
import VerifyRun.Lib.Outcomes

namespace firstfailure

open outcomes

variable {ε φ : Type}

/-- What is not met, by its place. -/
abbrev Placed (φ : Type) := List Nat → φ → Prop

/-- Nothing else that is not met has a place before this one, or the same. -/
structure First (U : Placed φ) (place : List Nat) (what : φ) : Prop where
  unmet : U place what
  before : ∀ other what', U other what' → (other = place ∧ what' = what) ∨ place < other

/-- The first thing that is not met is only one. -/
theorem First.unique {U : Placed φ} {p q : List Nat} {f g : φ} (h : First U p f)
    (h' : First U q g) : p = q ∧ f = g := by
  rcases h.before q g h'.unmet with ⟨hp, hf⟩ | hlt
  · exact ⟨hp.symm, hf.symm⟩
  · rcases h'.before p f h.unmet with ⟨hp, hf⟩ | hlt'
    · exact ⟨hp, hf⟩
    · exact absurd hlt' (lt_asymm hlt)

/-- The check agrees with what is not met: it returns when there is nothing, and
raises the first thing otherwise. -/
def Agrees (report : ε → Option φ) (U : Placed φ) (check : Except ε Unit) : Prop :=
  (check = .ok () ∧ ∀ place what, ¬ U place what) ∨
    ∃ place what e, First U place what ∧ report e = some what ∧ check = .error e

section

/- What an exception reports; what a check can see at all; and the exception of
a check that was not finished. -/
variable (report : ε → Option φ) (seen : φ → Prop) (stopped : ε)

/-- The outcome of a check, against what is not met. -/
inductive Judged (U : Placed φ) (check : Except ε Unit) : Prop where
  | stopped (h : check = .error stopped)
  | met (h : check = .ok ()) (hU : ∀ place what, ¬ U place what)
  | raised {place : List Nat} {what : φ} {e : ε} (hU : First U place what) (hseen : seen what)
      (he : report e = some what) (h : check = .error e)
  | missed {place : List Nat} {what : φ} (hU : First U place what) (hunseen : ¬ seen what)
      (h : ∀ e what', check = .error e → report e = some what' → seen what')

variable {report seen stopped} {U V : Placed φ} {x y : Except ε Unit}

/-- What a judged check raises is something that it can see. -/
theorem Judged.seen_of_error (hstopped : report stopped = none)
    (h : Judged report seen stopped U x) {e : ε} {what : φ} (hx : x = .error e)
    (he : report e = some what) : seen what := by
  cases h with
  | stopped h =>
    cases h.symm.trans hx
    rw [hstopped] at he
    cases he
  | met h => cases h.symm.trans hx
  | raised _ hseen he' h =>
    cases h.symm.trans hx
    cases he'.symm.trans he
    exact hseen
  | missed _ _ h => exact h e what hx he

/-- A check that was finished agrees with what is not met exactly when it can
see the first thing that is not met. -/
theorem Judged.agrees_iff (h : Judged report seen stopped U x) (hx : x ≠ .error stopped) :
    Agrees report U x ↔ ∀ place what, First U place what → seen what := by
  cases h with
  | stopped h => exact absurd h hx
  | met h hU =>
    constructor
    · intro _ place what hfirst
      exact absurd hfirst.unmet (hU place what)
    · intro _
      exact .inl ⟨h, hU⟩
  | @raised place what e hU hseen he h =>
    constructor
    · intro _ place' what' hfirst
      rw [← (hU.unique hfirst).2]
      exact hseen
    · intro _
      exact .inr ⟨place, what, e, hU, he, h⟩
  | @missed place what hU hunseen h =>
    constructor
    · rintro (⟨_, hnone⟩ | ⟨place', what', e, hfirst, he, hx'⟩)
      · exact absurd hU.unmet (hnone place what)
      · rw [← (hU.unique hfirst).2] at he
        exact absurd (h e what hx' he) hunseen
    · intro hall
      exact absurd (hall place what hU) hunseen

theorem Judged.congr (h : Judged report seen stopped U x) (hUV : ∀ place what,
    U place what ↔ V place what) : Judged report seen stopped V x := by
  obtain rfl : U = V := by
    funext place what
    exact propext (hUV place what)
  exact h

/-- Where there is nothing to meet, a check that returns is right. -/
theorem judged_ok (hU : ∀ place what, ¬ U place what) : Judged report seen stopped U (.ok ()) :=
  .met rfl hU

/-- A check that raises when one thing is not met. -/
theorem judged_raiseIf {p : Prop} [Decidable p] {e : ε} {what : φ} (hseen : seen what)
    (he : report e = some what)
    (hU : ∀ place f, U place f ↔ place = [] ∧ f = what ∧ p) :
    Judged report seen stopped U (raiseIf p e) := by
  by_cases hp : p
  · have hfirst : First U [] what := by
      refine ⟨(hU _ _).mpr ⟨rfl, rfl, hp⟩, fun other f hf => ?_⟩
      obtain ⟨hother, hf, _⟩ := (hU other f).mp hf
      exact .inl ⟨hother, hf⟩
    exact .raised hfirst hseen he (raiseIf_pos hp e)
  · refine .met (raiseIf_neg hp e) ?_
    intro place f hf
    exact hp ((hU place f).mp hf).2.2

/-- A thing that the check does not see at all. -/
theorem judged_unseen {what : φ} (hunseen : ¬ seen what) {place : List Nat}
    (hU : First U place what) : Judged report seen stopped U (.ok ()) :=
  .missed hU hunseen fun _ _ h => by cases h

/-- What is not met comes before what is not met in a later check. -/
theorem Judged.seq (hstopped : report stopped = none) (hx : Judged report seen stopped U x)
    (hy : x = .ok () → Judged report seen stopped V y)
    (hlt : ∀ p f q g, U p f → V q g → p < q) :
    Judged report seen stopped (fun place what => U place what ∨ V place what)
      (x >>= fun _ => y) := by
  have hfirst : ∀ {p f}, First U p f → First (fun place what => U place what ∨ V place what) p f := by
    intro p f h
    refine ⟨.inl h.unmet, fun q g hq => ?_⟩
    rcases hq with hq | hq
    · exact h.before q g hq
    · exact .inr (hlt p f q g h.unmet hq)
  cases hx with
  | stopped h =>
    subst h
    exact .stopped rfl
  | met h hU =>
    subst h
    exact (hy rfl).congr fun place what => by simp [hU place what]
  | raised hU hseen he h =>
    subst h
    exact .raised (hfirst hU) hseen he rfl
  | missed hU hunseen h =>
    cases x with
    | error e => exact .missed (hfirst hU) hunseen h
    | ok _ => exact .missed (hfirst hU) hunseen fun e what' he hw =>
        (hy rfl).seen_of_error hstopped he hw

/-- The same things at other places, in the same order. -/
theorem Judged.map {g : List Nat → List Nat} (hg : ∀ p q, p < q → g p < g q)
    (h : Judged report seen stopped U x) :
    Judged report seen stopped (fun place what => ∃ p, place = g p ∧ U p what) x := by
  have hfirst : ∀ {p f}, First U p f →
      First (fun place what => ∃ p, place = g p ∧ U p what) (g p) f := by
    rintro p f h
    refine ⟨⟨p, rfl, h.unmet⟩, ?_⟩
    rintro _ f' ⟨q, rfl, hq⟩
    rcases h.before q f' hq with ⟨rfl, hf⟩ | hlt
    · exact .inl ⟨rfl, hf⟩
    · exact .inr (hg p q hlt)
  cases h with
  | stopped h => exact .stopped h
  | met h hU =>
    refine .met h ?_
    rintro _ what ⟨p, rfl, hp⟩
    exact hU p what hp
  | raised hU hseen he h => exact .raised (hfirst hU) hseen he h
  | missed hU hunseen h => exact .missed (hfirst hU) hunseen h

/-- The next number at the head of a place. -/
def later : List Nat → List Nat
  | [] => []
  | i :: rest => (i + 1) :: rest

theorem cons_lt_cons {i : Nat} {p q : List Nat} (h : p < q) : i :: p < i :: q :=
  List.cons_lt_cons_iff.mpr (.inr ⟨rfl, h⟩)

theorem later_lt {p q : List Nat} (h : p < q) : later p < later q := by
  cases p with
  | nil =>
    cases q with
    | nil => exact absurd h (lt_irrefl _)
    | cons j q => exact List.nil_lt_cons _ _
  | cons i p =>
    cases q with
    | nil => exact absurd h (List.not_lt_nil _)
    | cons j q =>
      rcases List.cons_lt_cons_iff.mp h with hij | ⟨rfl, hpq⟩
      · exact List.cons_lt_cons_iff.mpr (.inl (by omega))
      · exact cons_lt_cons hpq

/-- A loop of checks: what is not met in a turn has the number of the turn at
the head of its place. -/
theorem judged_forM (hstopped : report stopped = none) {α : Type} {l : List α}
    {check : α → Except ε Unit} (hU : ∀ place what, U place what →
      ∃ i rest, place = i :: rest ∧ i < l.length)
    (h : ∀ i (hi : i < l.length), Judged report seen stopped (fun rest => U (i :: rest))
      (check l[i])) :
    Judged report seen stopped U (forM l check) := by
  induction l generalizing U with
  | nil =>
    refine .met rfl fun place what hplace => ?_
    obtain ⟨i, _, _, hi⟩ := hU place what hplace
    simp at hi
  | cons a l ih =>
    rw [List.forM_cons]
    -- the first turn, and the turns after it with their own numbers
    have hfirst : Judged report seen stopped (fun place what => ∃ p, place = 0 :: p ∧
        U (0 :: p) what) (check a) := (h 0 (by simp)).map fun p q => cons_lt_cons
    have hrest : Judged report seen stopped (fun place what => ∃ i rest, place = i :: rest ∧
        i < l.length ∧ U ((i + 1) :: rest) what) (forM l check) := by
      refine ih ?_ ?_
      · rintro place what ⟨i, rest, rfl, hi, _⟩
        exact ⟨i, rest, rfl, hi⟩
      · intro i hi
        refine (h (i + 1) (by simpa using hi)).congr fun place what => ?_
        simp [hi]
    refine (hfirst.seq hstopped (fun _ => hrest.map fun p q => later_lt) ?_).congr ?_
    · rintro _ f _ g ⟨p, rfl, _⟩ ⟨_, rfl, i, rest, rfl, _⟩
      exact List.cons_lt_cons_iff.mpr (.inl (Nat.succ_pos i))
    · intro place what
      constructor
      · rintro (⟨p, rfl, hp⟩ | ⟨_, rfl, i, rest, rfl, _, hp⟩)
        · exact hp
        · exact hp
      · intro hplace
        obtain ⟨i, rest, rfl, hi⟩ := hU place what hplace
        cases i with
        | zero => exact .inl ⟨rest, rfl, hplace⟩
        | succ i => exact .inr ⟨i :: rest, rfl, i, rest, rfl, by simpa using hi, hplace⟩

end

end firstfailure
