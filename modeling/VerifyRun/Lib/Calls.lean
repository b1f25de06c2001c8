-- Programs that ask one outside primitive and may throw. `run` answers
-- each question with a primitive that may fail; `asked` lists the questions
-- that a total answer makes the program ask. The rules below say what a
-- program throws and returns, whatever the answers are.
import Mathlib

namespace calls

/-- A program that asks questions `ι`, gets answers `ο`, throws `ε` and
returns `α`. -/
inductive Prog (ε ι ο α : Type) where
  | ret (a : α)
  | throw (e : ε)
  | ask (q : ι) (k : ο → Prog ε ι ο α)

namespace Prog

variable {ε ι ο α β : Type}

def bind : Prog ε ι ο α → (α → Prog ε ι ο β) → Prog ε ι ο β
  | ret a, f => f a
  | throw e, _ => throw e
  | ask q k, f => ask q fun o => (k o).bind f

instance : Monad (Prog ε ι ο) where
  pure := ret
  bind := bind

/-- The outcome of a program, when each question may fail. -/
def run (answer : ι → Except ε ο) : Prog ε ι ο α → Except ε α
  | ret a => .ok a
  | throw e => .error e
  | ask q k =>
    match answer q with
    | .ok o => (k o).run answer
    | .error e => .error e

/-- The questions of a program, in order, when every question is answered. -/
def asked (answer : ι → ο) : Prog ε ι ο α → List ι
  | ret _ => []
  | throw _ => []
  | ask q k => q :: (k (answer q)).asked answer

@[simp] theorem run_pure (answer : ι → Except ε ο) (a : α) :
    (pure a : Prog ε ι ο α).run answer = .ok a := rfl

@[simp] theorem run_ask (answer : ι → Except ε ο) (q : ι) (k : ο → Prog ε ι ο α) :
    (ask q k).run answer = (answer q).bind fun o => (k o).run answer := by
  rw [run]
  cases answer q <;> rfl

@[simp] theorem run_bind (answer : ι → Except ε ο) (p : Prog ε ι ο α) (f : α → Prog ε ι ο β) :
    (p >>= f).run answer = (p.run answer).bind fun a => (f a).run answer := by
  show (p.bind f).run answer = _
  induction p with
  | ret a => rfl
  | throw e => rfl
  | ask q k ih =>
    simp only [bind, run]
    cases answer q with
    | error e => rfl
    | ok o => exact ih o

/-- The program with every exception that it throws replaced. -/
def mapThrow (f : ε → ε) : Prog ε ι ο α → Prog ε ι ο α
  | ret a => ret a
  | throw e => throw (f e)
  | ask q k => ask q fun o => (k o).mapThrow f

/-- Replacing what is thrown is replacing the exception of the outcome, as
long as the exceptions of the primitive stay. -/
theorem run_mapThrow {answer : ι → Except ε ο} {f : ε → ε}
    (h : ∀ q e, answer q = .error e → f e = e) (p : Prog ε ι ο α) :
    (p.mapThrow f).run answer = (p.run answer).mapError f := by
  induction p with
  | ret a => rfl
  | throw e => rfl
  | ask q k ih =>
    simp only [mapThrow, run]
    cases hq : answer q with
    | error e => simp [Except.mapError, h q e hq]
    | ok o => exact ih o

/-! ## What a program throws and returns -/

/-- As long as the answers are in `A`, the program throws only `E` and returns
only `Q`. -/
def Sat (A : ι → ο → Prop) (E : ε → Prop) (Q : α → Prop) : Prog ε ι ο α → Prop
  | ret a => Q a
  | throw e => E e
  | ask q k => ∀ o, A q o → (k o).Sat A E Q

variable {A : ι → ο → Prop} {E : ε → Prop} {Q : α → Prop} {R : β → Prop}

theorem Sat.mono {E' : ε → Prop} {Q' : α → Prop} {p : Prog ε ι ο α} (h : p.Sat A E Q)
    (hE : ∀ e, E e → E' e) (hQ : ∀ a, Q a → Q' a) : p.Sat A E' Q' := by
  induction p with
  | ret a => exact hQ a h
  | throw e => exact hE e h
  | ask q k ih => exact fun o ho => ih o (h o ho)

theorem sat_true (p : Prog ε ι ο α) : p.Sat A (fun _ => True) fun _ => True := by
  induction p with
  | ret a => trivial
  | throw e => trivial
  | ask q k ih => exact fun o _ => ih o

theorem Sat.and {Q' : α → Prop} {p : Prog ε ι ο α} (h : p.Sat A E Q) (h' : p.Sat A E Q') :
    p.Sat A E fun a => Q a ∧ Q' a := by
  induction p with
  | ret a => exact ⟨h, h'⟩
  | throw e => exact h
  | ask q k ih => exact fun o ho => ih o (h o ho) (h' o ho)

theorem Sat.bind {p : Prog ε ι ο α} {f : α → Prog ε ι ο β} (hp : p.Sat A E Q)
    (hf : ∀ a, Q a → (f a).Sat A E R) : (p >>= f).Sat A E R := by
  show (p.bind f).Sat A E R
  induction p with
  | ret a => exact hf a hp
  | throw e => exact hp
  | ask q k ih => exact fun o ho => ih o (hp o ho)

/-- Two continuations that agree on all that a program can return. -/
theorem Sat.bind_congr {p : Prog ε ι ο α} {f g : α → Prog ε ι ο β}
    (hp : p.Sat (fun _ _ => True) (fun _ => True) Q) (h : ∀ a, Q a → f a = g a) :
    p >>= f = p >>= g := by
  show p.bind f = p.bind g
  induction p with
  | ret a => exact h a hp
  | throw e => rfl
  | ask q k ih =>
    simp only [Prog.bind]
    congr 1
    funext o
    exact ih o (hp o trivial)

theorem Sat.pure {a : α} (h : Q a) : (Pure.pure a : Prog ε ι ο α).Sat A E Q := h

theorem Sat.mapThrow {E' : ε → Prop} {f : ε → ε} {p : Prog ε ι ο α} (h : p.Sat A E Q)
    (hf : ∀ e, E e → E' (f e)) : (p.mapThrow f).Sat A E' Q := by
  induction p with
  | ret a => exact h
  | throw e => exact hf e h
  | ask q k ih => exact fun o ho => ih o (h o ho)

/-- A run of a program returns what it promises, or throws what it or the
primitive throws. -/
theorem Sat.run {answer : ι → Except ε ο} (hA : ∀ q o, answer q = .ok o → A q o)
    {p : Prog ε ι ο α} (h : p.Sat A E Q) :
    (∃ a, p.run answer = .ok a ∧ Q a) ∨
      ∃ e, p.run answer = .error e ∧ (E e ∨ ∃ q, answer q = .error e) := by
  induction p with
  | ret a => exact Or.inl ⟨a, rfl, h⟩
  | throw e => exact Or.inr ⟨e, rfl, Or.inl h⟩
  | ask q k ih =>
    cases hq : answer q with
    | error e => exact Or.inr ⟨e, by simp only [Prog.run, hq], Or.inr ⟨q, hq⟩⟩
    | ok o => simpa only [Prog.run, hq] using ih o (h o (hA q o hq))

/-- Where a question has one answer, the run with these answers decides what a
program promises. -/
theorem sat_of_run {value : ι → ο} (hA : ∀ q o, A q o → o = value q) {p : Prog ε ι ο α}
    (hE : ∀ e, p.run (fun q => .ok (value q)) = .error e → E e)
    (hQ : ∀ a, p.run (fun q => .ok (value q)) = .ok a → Q a) : p.Sat A E Q := by
  induction p with
  | ret a => exact hQ a rfl
  | throw e => exact hE e rfl
  | ask q k ih =>
    intro o ho
    obtain rfl := hA q o ho
    exact ih _ hE hQ

/-! ## A primitive that fails on some questions -/

/-- A primitive that answers with `value` and fails with `e` on the questions
that are out of its reach. -/
def limited (reach : ι → Bool) (value : ι → ο) (e : ε) (q : ι) : Except ε ο :=
  if reach q then .ok (value q) else .error e

variable {reach : ι → Bool} {value : ι → ο} {e : ε}

/-- With every question in reach, the limit is never felt. -/
theorem run_limited_of_asked {p : Prog ε ι ο α} (h : ∀ q ∈ p.asked value, reach q = true) :
    p.run (limited reach value e) = p.run (fun q => .ok (value q)) := by
  induction p with
  | ret a => rfl
  | throw e' => rfl
  | ask q k ih =>
    simp only [asked, List.mem_cons, forall_eq_or_imp] at h
    simp only [run, limited, h.1, if_true]
    exact ih _ h.2

/-- A program that never throws `e` itself fails with `e` exactly when it asks
a question out of reach. -/
theorem run_limited_eq_error_iff {p : Prog ε ι ο α} (hA : ∀ q, A q (value q))
    (hp : p.Sat A (· ≠ e) Q) :
    p.run (limited reach value e) = .error e ↔ ∃ q ∈ p.asked value, reach q = false := by
  induction p with
  | ret a => simp [run, asked]
  | throw e' =>
    have hne : e' ≠ e := hp
    simp [run, asked, hne]
  | ask q k ih =>
    simp only [run, asked, limited, List.mem_cons, exists_eq_or_imp]
    cases hq : reach q with
    | true => simpa using ih _ (hp _ (hA q))
    | false => simp

/-! ## Programs with a state -/

/-- From a state in `P`, the program throws only `E`, and what it returns and
the state it leaves are in `R`. -/
def Triple {σ : Type} (A : ι → ο → Prop) (E : ε → Prop) (P : σ → Prop)
    (p : StateT σ (Prog ε ι ο) α) (R : α → σ → Prop) : Prop :=
  ∀ s, P s → (p s).Sat A E fun r => R r.1 r.2

section Triple

variable {σ : Type} {P : σ → Prop} {S : α → σ → Prop} {T : β → σ → Prop}

theorem Triple.pure {a : α} (h : ∀ s, P s → S a s) :
    Triple A E P (Pure.pure a : StateT σ (Prog ε ι ο) α) S := h

theorem Triple.bind {p : StateT σ (Prog ε ι ο) α} {f : α → StateT σ (Prog ε ι ο) β}
    (hp : Triple A E P p S) (hf : ∀ a, Triple A E (S a) (f a) T) : Triple A E P (p >>= f) T :=
  fun s hs => Sat.bind (hp s hs) fun r hr => hf r.1 r.2 hr

theorem Triple.mono {p : StateT σ (Prog ε ι ο) α} {P' : σ → Prop} {S' : α → σ → Prop}
    (h : Triple A E P p S) (hP : ∀ s, P' s → P s) (hS : ∀ a s, S a s → S' a s) :
    Triple A E P' p S' :=
  fun s hs => (h s (hP s hs)).mono (fun _ he => he) fun r hr => hS r.1 r.2 hr

theorem Triple.modify {f : σ → σ} {U : Unit → σ → Prop} (h : ∀ s, P s → U () (f s)) :
    Triple A E P (modify f : StateT σ (Prog ε ι ο) Unit) U := h

theorem Triple.throw {e : ε} (h : E e) :
    Triple A E P (fun _ => .throw e : StateT σ (Prog ε ι ο) α) S := fun _ _ => h

/-- A precondition that does not read the state is a hypothesis. -/
theorem Triple.of_imp {p : StateT σ (Prog ε ι ο) α} {C : Prop} (h : C → Triple A E P p S) :
    Triple A E (fun s => C ∧ P s) p S := fun s hs => h hs.1 s hs.2

end Triple

end Prog

end calls
