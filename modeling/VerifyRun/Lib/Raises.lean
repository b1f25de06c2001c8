-- What a computation can raise: a set of exceptions, and the rules by which the
-- parts of a computation pass their exceptions on.
import VerifyRun.Lib.Outcomes

namespace outcomes

variable {ε α β : Type}

/-- The computation raises nothing but these. -/
def Raises (E : ε → Prop) (x : Except ε α) : Prop := ∀ e, x = .error e → E e

namespace Raises

variable {E : ε → Prop}

theorem ok (a : α) : Raises E (.ok a : Except ε α) := by
  intro e h
  cases h

theorem pure (a : α) : Raises E (Pure.pure a : Except ε α) := ok a

theorem error {e : ε} (h : E e) : Raises E (.error e : Except ε α) := by
  intro e' h'
  cases h'
  exact h

theorem bind {x : Except ε α} {f : α → Except ε β} (hx : Raises E x)
    (hf : ∀ a, x = .ok a → Raises E (f a)) : Raises E (x >>= f) := by
  intro e h
  rcases bind_eq_error.mp h with h | ⟨a, ha, h⟩
  · exact hx e h
  · exact hf a ha e h

theorem raiseIf {p : Prop} [Decidable p] {e : ε} (h : E e) : Raises E (outcomes.raiseIf p e) := by
  intro e' h'
  obtain ⟨-, rfl⟩ := raiseIf_eq_error.mp h'
  exact h

theorem mapError {ε' : Type} {E' : ε' → Prop} {x : Except ε' α} {f : ε' → ε} (hx : Raises E' x)
    (hf : ∀ e, E' e → E (f e)) : Raises E (x.mapError f) := by
  intro e h
  cases x with
  | ok a => cases h
  | error e' =>
    cases h
    exact hf e' (hx e' rfl)

theorem mapM {f : α → Except ε β} {l : List α} (h : ∀ a ∈ l, Raises E (f a)) : Raises E (l.mapM f) := by
  intro e he
  obtain ⟨a, ha, hfa⟩ := mapM_eq_error he
  exact h a ha e hfa

theorem foldlM {σ : Type} {f : σ → α → Except ε σ} {l : List α}
    (h : ∀ s, ∀ a ∈ l, Raises E (f s a)) (s : σ) : Raises E (l.foldlM f s) := by
  induction l generalizing s with
  | nil => exact pure s
  | cons a l ih =>
    rw [List.foldlM_cons]
    exact bind (h s a List.mem_cons_self) fun s _ =>
      ih (fun s b hb => h s b (List.mem_cons_of_mem _ hb)) s

theorem mono {E' : ε → Prop} {x : Except ε α} (hx : Raises E x) (h : ∀ e, E e → E' e) :
    Raises E' x :=
  fun e he => h e (hx e he)

end Raises

end outcomes
