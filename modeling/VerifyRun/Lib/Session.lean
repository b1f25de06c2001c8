-- Programs that ask their surroundings questions of many kinds, each with
-- answers of its own type, and that may throw. A run keeps the history of what
-- was asked and answered. The rules below say what holds of every question
-- that a run asks, and of what it returns, whatever the answers are.
import Mathlib

namespace session

/-- A program that asks questions `q : Q` with answers `A q`, throws `ε` and
returns `α`. -/
inductive Prog (Q : Type) (A : Q → Type) (ε α : Type) where
  | ret (a : α)
  | throw (e : ε)
  | ask (q : Q) (k : A q → Prog Q A ε α)

/-- What was asked, with its answer. -/
structure Entry (Q : Type) (A : Q → Type) where
  question : Q
  answer : A question

/-- What was asked so far, the oldest first. -/
abbrev History (Q : Type) (A : Q → Type) := List (Entry Q A)

/-- The surroundings: an answer to each question, which may depend on what went before. -/
abbrev Surroundings (Q : Type) (A : Q → Type) := History Q A → (q : Q) → A q

namespace Prog

variable {Q : Type} {A : Q → Type} {ε α β : Type}

def bind : Prog Q A ε α → (α → Prog Q A ε β) → Prog Q A ε β
  | ret a, f => f a
  | throw e, _ => throw e
  | ask q k, f => ask q fun o => (k o).bind f

instance : Monad (Prog Q A ε) where
  pure := ret
  bind := bind

/-- The program that asks one question. -/
def question (q : Q) : Prog Q A ε (A q) := ask q ret

/-- A computation that asks nothing. -/
def lift : Except ε α → Prog Q A ε α
  | .ok a => ret a
  | .error e => throw e

/-- A run: the history after it, and its outcome. -/
def run (env : Surroundings Q A) : Prog Q A ε α → History Q A → History Q A × Except ε α
  | ret a, h => (h, .ok a)
  | throw e, h => (h, .error e)
  | ask q k, h => (k (env h q)).run env (h ++ [⟨q, env h q⟩])

/-! ## What every run keeps -/

/-- From a history, the program asks only what `G` allows at that point, and
where it returns, `R` holds of the history and the result. -/
def Keeps (G : History Q A → Q → Prop) (R : History Q A → α → Prop) :
    Prog Q A ε α → History Q A → Prop
  | ret a, h => R h a
  | throw _, _ => True
  | ask q k, h => G h q ∧ ∀ o, (k o).Keeps G R (h ++ [⟨q, o⟩])

variable {G : History Q A → Q → Prop} {R : History Q A → α → Prop} {T : History Q A → β → Prop}
  {h : History Q A}

theorem Keeps.mono {R' : History Q A → α → Prop} {p : Prog Q A ε α} (hp : p.Keeps G R h)
    (hR : ∀ h a, R h a → R' h a) : p.Keeps G R' h := by
  induction p generalizing h with
  | ret a => exact hR h a hp
  | throw e => trivial
  | ask q k ih => exact ⟨hp.1, fun o => ih o (hp.2 o)⟩

theorem Keeps.pure {a : α} (hR : R h a) : (Pure.pure a : Prog Q A ε α).Keeps G R h := hR

theorem Keeps.lift {x : Except ε α} (hR : ∀ a, x = .ok a → R h a) :
    (lift x : Prog Q A ε α).Keeps G R h := by
  cases x with
  | ok a => exact hR a rfl
  | error e => trivial

/-- A program and then another one, which starts where the first has returned. -/
theorem Keeps.bind {p : Prog Q A ε α} {f : α → Prog Q A ε β} (hp : p.Keeps G R h)
    (hf : ∀ a h, R h a → (f a).Keeps G T h) : (p >>= f).Keeps G T h := by
  show (p.bind f).Keeps G T h
  induction p generalizing h with
  | ret a => exact hf a h hp
  | throw e => trivial
  | ask q k ih => exact ⟨hp.1, fun o => ih o (hp.2 o)⟩

/-- A loop over a list: the invariant speaks of the elements that are done. -/
theorem Keeps.foldlM {γ : Type} {f : β → γ → Prog Q A ε β} {I : List γ → β → History Q A → Prop}
    (hstep : ∀ done x b h, I done b h →
      (f b x).Keeps G (fun h b => I (done ++ [x]) b h) h) (xs : List γ) :
    ∀ {done : List γ} {b : β} {h : History Q A}, I done b h →
      (xs.foldlM f b).Keeps G (fun h b => I (done ++ xs) b h) h := by
  induction xs with
  | nil =>
    intro done b h hI
    rw [List.foldlM_nil, List.append_nil]
    exact Keeps.pure hI
  | cons x xs ih =>
    intro done b h hI
    rw [List.foldlM_cons]
    refine (hstep done x b h hI).bind fun b h hI => ?_
    have hrest := ih hI
    rwa [List.append_assoc] at hrest

/-! ## Programs that ask only certain questions -/

/-- Whatever the answers, the program asks only such questions, and returns only such results. -/
def Only (P : Q → Prop) (R : α → Prop) : Prog Q A ε α → Prop
  | ret a => R a
  | throw _ => True
  | ask q k => P q ∧ ∀ o, (k o).Only P R

section Only

variable {P : Q → Prop} {R : α → Prop} {T : β → Prop}

theorem Only.pure {a : α} (hR : R a) : (Pure.pure a : Prog Q A ε α).Only P R := hR

theorem Only.question {q : Q} (hq : P q) :
    (Prog.question q : Prog Q A ε (A q)).Only P fun _ => True :=
  ⟨hq, fun _ => trivial⟩

theorem Only.lift {x : Except ε α} (hR : ∀ a, x = .ok a → R a) :
    (Prog.lift x : Prog Q A ε α).Only P R := by
  cases x with
  | ok a => exact hR a rfl
  | error e => trivial

theorem Only.bind {p : Prog Q A ε α} {f : α → Prog Q A ε β} (hp : p.Only P R)
    (hf : ∀ a, R a → (f a).Only P T) : (p >>= f).Only P T := by
  show (p.bind f).Only P T
  induction p with
  | ret a => exact hf a hp
  | throw e => trivial
  | ask q k ih => exact ⟨hp.1, fun o => ih o (hp.2 o)⟩

/-- What such a program adds to the history is answers to such questions. -/
theorem Only.keeps {p : Prog Q A ε α} {G : History Q A → Q → Prop} (hp : p.Only P R)
    (hG : ∀ h q, P q → G h q) (h : History Q A) :
    p.Keeps G (fun h' a => R a ∧ ∃ more, h' = h ++ more ∧ ∀ e ∈ more, P e.question) h := by
  suffices hall : ∀ so_far, (∃ more, so_far = h ++ more ∧ ∀ e ∈ more, P e.question) →
      p.Keeps G (fun h' a => R a ∧ ∃ more, h' = h ++ more ∧ ∀ e ∈ more, P e.question) so_far from
    hall h ⟨[], by simp, by simp⟩
  induction p with
  | ret a => exact fun so_far hmore => ⟨hp, hmore⟩
  | throw e => exact fun _ _ => trivial
  | ask q k ih =>
    rintro so_far ⟨more, rfl, hmore⟩
    refine ⟨hG _ q hp.1, fun o => ih o (hp.2 o) _ ⟨more ++ [⟨q, o⟩], by simp, ?_⟩⟩
    intro e he
    rcases List.mem_append.mp he with he | he
    · exact hmore e he
    · rw [List.mem_singleton.mp he]
      exact hp.1

end Only

/-! ## Runs -/

/-- In a run, every question was allowed when it was asked. -/
theorem Keeps.run {p : Prog Q A ε α} (hp : p.Keeps G R h) (env : Surroundings Q A) :
    ∃ more, (p.run env h).1 = h ++ more ∧
      ∀ before e after, more = before ++ e :: after → G (h ++ before) e.question := by
  induction p generalizing h with
  | ret a => exact ⟨[], by simp [Prog.run], by simp⟩
  | throw e => exact ⟨[], by simp [Prog.run], by simp⟩
  | ask q k ih =>
    obtain ⟨more, hmore, hall⟩ := ih (env h q) (hp.2 (env h q))
    refine ⟨⟨q, env h q⟩ :: more, by simp [Prog.run, hmore], ?_⟩
    intro before e after heq
    cases before with
    | nil =>
      obtain rfl : (⟨q, env h q⟩ : Entry Q A) = e := (List.cons.inj heq).1
      simpa using hp.1
    | cons first before =>
      obtain ⟨rfl, hrest⟩ := List.cons.inj heq
      simpa using hall before e after hrest

end Prog

end session
