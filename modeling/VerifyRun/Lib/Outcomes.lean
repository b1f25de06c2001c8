-- Computations that return a value or raise: what a sequence of them
-- returns, and where its exception comes from.
import Mathlib

namespace outcomes

variable {ε α β : Type}

theorem bind_eq_ok {x : Except ε α} {f : α → Except ε β} {b : β} :
    (x >>= f) = .ok b ↔ ∃ a, x = .ok a ∧ f a = .ok b := by
  cases x <;> simp [bind, Except.bind]

theorem bind_eq_error {x : Except ε α} {f : α → Except ε β} {e : ε} :
    (x >>= f) = .error e ↔ x = .error e ∨ ∃ a, x = .ok a ∧ f a = .error e := by
  cases x <;> simp [bind, Except.bind]

@[simp] theorem pure_eq_ok {a b : α} : (pure a : Except ε α) = .ok b ↔ a = b := by
  simp [pure, Except.pure]

@[simp] theorem pure_ne_error {a : α} {e : ε} : (pure a : Except ε α) ≠ .error e := by
  simp [pure, Except.pure]

@[simp] theorem ok_bind (a : α) (f : α → Except ε β) : (Except.ok a >>= f) = f a := rfl

@[simp] theorem error_bind (e : ε) (f : α → Except ε β) : (Except.error e >>= f) = .error e := rfl

theorem map_bind {γ : Type} (x : Except ε α) (f : α → β) (g : β → Except ε γ) :
    (x.map f >>= g) = (x >>= fun a => g (f a)) := by
  cases x <;> rfl

theorem mapM_eq_ok {f : α → Except ε β} {l : List α} {bs : List β} :
    l.mapM f = .ok bs ↔ List.Forall₂ (fun a b => f a = .ok b) l bs := by
  induction l generalizing bs with
  | nil => cases bs <;> simp
  | cons a l ih =>
    rw [List.mapM_cons]
    simp only [bind_eq_ok, pure_eq_ok, ih]
    constructor
    · rintro ⟨b, hb, bs', hbs, rfl⟩
      exact .cons hb hbs
    · intro h
      cases h with
      | cons hb hbs => exact ⟨_, hb, _, hbs, rfl⟩

/-- The exception of a sequence is the exception of one of its members. -/
theorem mapM_eq_error {f : α → Except ε β} {l : List α} {e : ε} (h : l.mapM f = .error e) :
    ∃ a ∈ l, f a = .error e := by
  induction l with
  | nil => simp at h
  | cons a l ih =>
    rw [List.mapM_cons] at h
    rcases bind_eq_error.mp h with ha | ⟨b, _, hb⟩
    · exact ⟨a, by simp, ha⟩
    · rcases bind_eq_error.mp hb with hl | ⟨bs, _, hbs⟩
      · obtain ⟨c, hc, he⟩ := ih hl
        exact ⟨c, by simp [hc], he⟩
      · exact absurd hbs pure_ne_error

theorem mapM_exists_ok {f : α → Except ε β} {l : List α} (h : ∀ a ∈ l, ∃ b, f a = .ok b) :
    ∃ bs, l.mapM f = .ok bs := by
  cases hm : l.mapM f with
  | ok bs => exact ⟨bs, rfl⟩
  | error e =>
    obtain ⟨a, ha, he⟩ := mapM_eq_error hm
    obtain ⟨b, hb⟩ := h a ha
    rw [hb] at he
    cases he

theorem mapM_ok_mem {f : α → Except ε β} {l : List α} {bs : List β} (h : l.mapM f = .ok bs)
    {a : α} (ha : a ∈ l) : ∃ b, f a = .ok b := by
  have hf := mapM_eq_ok.mp h
  clear h
  induction hf with
  | nil => simp at ha
  | cons hb _ ih =>
    rcases List.mem_cons.mp ha with rfl | ha
    · exact ⟨_, hb⟩
    · exact ih ha

/-- What holds of every result of `f` holds of every member of the sequence. -/
theorem mapM_forall {f : α → Except ε β} {P : β → Prop} {l : List α} {bs : List β}
    (h : l.mapM f = .ok bs) (hP : ∀ a b, f a = .ok b → P b) : ∀ b ∈ bs, P b := by
  have hf := mapM_eq_ok.mp h
  clear h
  induction hf with
  | nil => simp
  | cons hb _ ih =>
    intro b hmem
    rcases List.mem_cons.mp hmem with rfl | hmem
    · exact hP _ _ hb
    · exact ih b hmem

theorem mapM_congr {f g : α → Except ε β} {l : List α} (h : ∀ a ∈ l, f a = g a) :
    l.mapM f = l.mapM g := by
  induction l with
  | nil => rfl
  | cons a l ih =>
    rw [List.mapM_cons, List.mapM_cons, h a (by simp), ih fun b hb => h b (by simp [hb])]

/-! ## Checks, which return nothing -/

/-- A check has nothing to return. -/
theorem exists_unit {p : Unit → Prop} : (∃ u, p u) ↔ p () := ⟨fun ⟨_, h⟩ => h, fun h => ⟨(), h⟩⟩

theorem seq_eq_ok {x : Except ε Unit} {f : Unit → Except ε β} {b : β} :
    (x >>= f) = .ok b ↔ x = .ok () ∧ f () = .ok b := by
  cases x <;> simp [bind, Except.bind]

theorem forM_eq_ok {f : α → Except ε Unit} {l : List α} :
    forM l f = .ok () ↔ ∀ a ∈ l, f a = .ok () := by
  induction l with
  | nil => simp
  | cons a l ih =>
    rw [List.forM_cons]
    simp only [seq_eq_ok, ih, List.mem_cons, forall_eq_or_imp]

theorem forM_congr {f g : α → Except ε Unit} {l : List α} (h : ∀ a ∈ l, f a = g a) :
    forM l f = forM l g := by
  induction l with
  | nil => rfl
  | cons a l ih =>
    rw [List.forM_cons, List.forM_cons, h a (by simp), ih fun b hb => h b (by simp [hb])]

theorem forM_map (f : β → Except ε Unit) (g : α → β) (l : List α) :
    forM (l.map g) f = forM l fun a => f (g a) := by
  induction l with
  | nil => rfl
  | cons a l ih => rw [List.map_cons, List.forM_cons, List.forM_cons, ih]

theorem foldlM_congr {σ : Type} {f g : σ → α → Except ε σ} {l : List α}
    (h : ∀ s, ∀ a ∈ l, f s a = g s a) (s : σ) : l.foldlM f s = l.foldlM g s := by
  induction l generalizing s with
  | nil => rfl
  | cons a l ih =>
    rw [List.foldlM_cons, List.foldlM_cons, h s a (by simp)]
    exact congrArg _ (funext fun s => ih (fun s b hb => h s b (by simp [hb])) s)

/-- What every turn of a loop keeps, the loop keeps. -/
theorem foldlM_invariant {σ : Type} {P : σ → Prop} {f : σ → α → Except ε σ}
    (hstep : ∀ s a s', P s → f s a = .ok s' → P s') {l : List α} {s s' : σ} (hs : P s)
    (h : l.foldlM f s = .ok s') : P s' := by
  induction l generalizing s with
  | nil =>
    rw [List.foldlM_nil, pure_eq_ok] at h
    exact h ▸ hs
  | cons a l ih =>
    rw [List.foldlM_cons, bind_eq_ok] at h
    obtain ⟨t, ht, h⟩ := h
    exact ih (hstep s a t hs ht) h

/-- Raise when something is so. -/
def raiseIf (p : Prop) [Decidable p] (e : ε) : Except ε Unit := if p then .error e else .ok ()

@[simp] theorem raiseIf_eq_ok {p : Prop} [Decidable p] {e : ε} :
    raiseIf p e = .ok () ↔ ¬ p := by
  unfold raiseIf
  by_cases h : p <;> simp [h]

@[simp] theorem raiseIf_eq_error {p : Prop} [Decidable p] {e e' : ε} :
    raiseIf p e = .error e' ↔ p ∧ e = e' := by
  unfold raiseIf
  by_cases h : p <;> simp [h]

@[simp] theorem raiseIf_true (e : ε) : raiseIf True e = .error e := rfl

@[simp] theorem raiseIf_false (e : ε) : raiseIf False e = .ok () := rfl

theorem raiseIf_pos {p : Prop} [Decidable p] (h : p) (e : ε) : raiseIf p e = .error e := if_pos h

theorem raiseIf_neg {p : Prop} [Decidable p] (h : ¬ p) (e : ε) : raiseIf p e = .ok () := if_neg h

/-- What was raised, if something was. -/
def errorOf : Except ε α → Option ε
  | .ok _ => none
  | .error e => some e

theorem errorOf_eq_some {x : Except ε α} {e : ε} : errorOf x = some e ↔ x = .error e := by
  cases x <;> simp [errorOf]

end outcomes
