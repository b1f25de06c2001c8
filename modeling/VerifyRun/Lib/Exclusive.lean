-- Files that many parties create, each at most once. A new entry is empty
-- until its owner has written it, and it survives a loss of power only after
-- it was synced. What is durable stays as it is, whatever anyone does.
import Mathlib

namespace exclusive

/-- An entry of a directory: who created it, what it holds once it is written,
and whether it survives a loss of power. -/
structure Entry (ι ρ : Type) where
  owner : ι
  content : Option ρ
  durable : Bool

/-- The entries by name. -/
abbrev Directory (κ ι ρ : Type) := κ → Option (Entry ι ρ)

variable {κ ι ρ : Type}

/-! ## What a party does with an entry -/

section Operations

variable [DecidableEq κ]

/-- Create the entry of a name that has none. -/
def create (d : Directory κ ι ρ) (k : κ) (i : ι) : Directory κ ι ρ :=
  Function.update d k (some { owner := i, content := none, durable := false })

/-- Write the entry that this party created. -/
def write (d : Directory κ ι ρ) (k : κ) (i : ι) (r : ρ) : Directory κ ι ρ :=
  Function.update d k (some { owner := i, content := some r, durable := false })

/-- Sync the entry that this party wrote, and its directory. -/
def sync (d : Directory κ ι ρ) (k : κ) (i : ι) (r : ρ) : Directory κ ι ρ :=
  Function.update d k (some { owner := i, content := some r, durable := true })

end Operations

/-- What may be left of an entry when the power is lost. -/
inductive Remains : Option (Entry ι ρ) → Option (Entry ι ρ) → Prop where
  | kept (e : Option (Entry ι ρ)) : Remains e e
  | gone (e : Entry ι ρ) : e.durable = false → Remains (some e) none
  | torn (e : Entry ι ρ) : e.durable = false → Remains (some e) (some { e with content := none })

/-- What may be left of a directory when the power is lost. -/
def Loses (d d' : Directory κ ι ρ) : Prop := ∀ k, Remains (d k) (d' k)

/-! ## What stays -/

/-- The entry of a name is this one. -/
def Holds (d : Directory κ ι ρ) (k : κ) (i : ι) (content : Option ρ) (durable : Bool) : Prop :=
  d k = some { owner := i, content := content, durable := durable }

/-- A party changes nothing but what had no entry and its own entries that are
not durable. -/
def Changes (i : ι) (d d' : Directory κ ι ρ) : Prop :=
  ∀ k, d' k = d k ∨ d k = none ∨ ∃ content, Holds d k i content false

variable {d d' : Directory κ ι ρ} {k : κ} {i j : ι} {c c' : Option ρ} {b b' : Bool} {r : ρ}

theorem Holds.unique (h : Holds d k i c b) (h' : Holds d k j c' b') : i = j ∧ c = c' ∧ b = b' := by
  have heq := Option.some.inj (h.symm.trans h')
  rw [Entry.mk.injEq] at heq
  exact heq

theorem Changes.refl (i : ι) (d : Directory κ ι ρ) : Changes i d d := fun _ => .inl rfl

/-- A durable entry stays, whoever acts. -/
theorem Changes.durable (h : Changes j d d') (hk : Holds d k i c true) : Holds d' k i c true := by
  rcases h k with hsame | hnone | ⟨content, hown⟩
  · exact hsame.trans hk
  · rw [Holds, hnone] at hk
    cases hk
  · exact absurd (hk.unique hown).2.2 (by decide)

/-- An entry of another party stays. -/
theorem Changes.other (h : Changes j d d') (hij : i ≠ j) (hk : Holds d k i c b) :
    Holds d' k i c b := by
  rcases h k with hsame | hnone | ⟨content, hown⟩
  · exact hsame.trans hk
  · rw [Holds, hnone] at hk
    cases hk
  · exact absurd (hk.unique hown).1 hij

theorem Loses.durable (h : Loses d d') (hk : Holds d k i c true) : Holds d' k i c true := by
  have hrem := h k
  rw [Holds] at hk ⊢
  rw [hk] at hrem
  generalize d' k = left at hrem ⊢
  cases hrem with
  | kept => rfl
  | gone _ hd => cases hd
  | torn _ hd => cases hd

/-- What is left of an entry is of the same owner, and its content is what it
was, if there is any. -/
theorem Loses.content (h : Loses d d') (hk : Holds d' k i (some r) b) : Holds d k i (some r) b := by
  have hrem := h k
  rw [Holds] at hk ⊢
  rw [hk] at hrem
  generalize d k = before at hrem ⊢
  cases hrem with
  | kept => rfl

section Operations

variable [DecidableEq κ]

theorem changes_create (h : d k = none) : Changes i d (create d k i) := by
  intro k'
  by_cases hk : k' = k
  · subst hk
    exact .inr (.inl h)
  · exact .inl (Function.update_of_ne hk _ _)

theorem changes_write (h : Holds d k i c false) : Changes i d (write d k i r) := by
  intro k'
  by_cases hk : k' = k
  · subst hk
    exact .inr (.inr ⟨c, h⟩)
  · exact .inl (Function.update_of_ne hk _ _)

theorem changes_sync (h : Holds d k i c false) : Changes i d (sync d k i r) := by
  intro k'
  by_cases hk : k' = k
  · subst hk
    exact .inr (.inr ⟨c, h⟩)
  · exact .inl (Function.update_of_ne hk _ _)

theorem holds_create : Holds (create d k i) k i none false := Function.update_self ..

theorem holds_write : Holds (write d k i r) k i (some r) false := Function.update_self ..

theorem holds_sync : Holds (sync d k i r) k i (some r) true := Function.update_self ..

/-- A written entry after a step is the entry that the step wrote, or was there before. -/
theorem holds_create_content {k' : κ} (h : Holds (create d k i) k' j (some r) b) :
    Holds d k' j (some r) b := by
  by_cases hk : k' = k
  · subst hk
    exact absurd (h.unique holds_create).2.1 (by simp)
  · exact (Function.update_of_ne hk _ _).symm.trans h

theorem holds_write_content {k' : κ} {r' : ρ} (h : Holds (write d k i r) k' j (some r') b) :
    (k' = k ∧ j = i ∧ r' = r) ∨ Holds d k' j (some r') b := by
  by_cases hk : k' = k
  · subst hk
    obtain ⟨hj, hr, -⟩ := h.unique holds_write
    exact .inl ⟨rfl, hj, Option.some.inj hr⟩
  · exact .inr ((Function.update_of_ne hk _ _).symm.trans h)

theorem holds_sync_content {k' : κ} {r' : ρ} (h : Holds (sync d k i r) k' j (some r') b) :
    (k' = k ∧ j = i ∧ r' = r) ∨ Holds d k' j (some r') b := by
  by_cases hk : k' = k
  · subst hk
    obtain ⟨hj, hr, -⟩ := h.unique holds_sync
    exact .inl ⟨rfl, hj, Option.some.inj hr⟩
  · exact .inr ((Function.update_of_ne hk _ _).symm.trans h)

end Operations

end exclusive
