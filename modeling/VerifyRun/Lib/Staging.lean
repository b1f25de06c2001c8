-- Files that many writers stage under names which they create exclusively, and
-- publish by a rename. The rename frees the name, so that another writer may
-- create it again: who holds a name is who created what is there.
import Mathlib

namespace staging

/-- What can be at a name. -/
inductive Node where
  | file (bytes : ByteArray)
  | link
  | directory
  | special
deriving DecidableEq

/-- What is at a name, and the writer that created it, if it was one of these. -/
structure File (ι β : Type) where
  owner : Option ι
  content : β
deriving DecidableEq

/-- The files by name. -/
abbrev Directory (κ ι β : Type) := κ → Option (File ι β)

/-- The files that were there before any of these writers came. -/
def before {κ ι β : Type} (contents : κ → Option β) : Directory κ ι β :=
  fun k => (contents k).map fun c => { owner := none, content := c }

variable {κ ι β : Type}

/-! ## What a writer does with a name -/

section Operations

variable [DecidableEq κ]

/-- Create the file of a name that has none. -/
def create (d : Directory κ ι β) (k : κ) (i : ι) (c : β) : Directory κ ι β :=
  Function.update d k (some { owner := some i, content := c })

/-- Write what is at a name, or create it where nothing is. -/
def write (d : Directory κ ι β) (k : κ) (i : ι) (c : β) : Directory κ ι β :=
  Function.update d k (some { owner := ((d k).map File.owner).getD (some i), content := c })

/-- Write the file of an owner that was opened at a name. Where it is not there any
more, it has no name. -/
def rewrite [DecidableEq ι] (d : Directory κ ι β) (k : κ) (owner : Option ι) (c : β) :
    Directory κ ι β :=
  if (d k).map File.owner = some owner then Function.update d k (some { owner, content := c }) else d

/-- What is at a name goes to another one. -/
def rename (d : Directory κ ι β) (k target : κ) : Directory κ ι β :=
  Function.update (Function.update d target (d k)) k none

def remove (d : Directory κ ι β) (k : κ) : Directory κ ι β := Function.update d k none

end Operations

/-! ## Who holds a name -/

/-- This writer created what is at the name. -/
def Owns (d : Directory κ ι β) (i : ι) (k : κ) : Prop := ∃ f, d k = some f ∧ f.owner = some i

/-- Every writer that holds a name created what is there. -/
def Held (hold : ι → Option κ) (d : Directory κ ι β) : Prop := ∀ i k, hold i = some k → Owns d i k

variable {d : Directory κ ι β} {hold hold' : ι → Option κ} {i j : ι} {k target : κ} {c : β}

theorem Owns.unique (hi : Owns d i k) (hj : Owns d j k) : i = j := by
  obtain ⟨f, hf, hfi⟩ := hi
  obtain ⟨g, hg, hgj⟩ := hj
  obtain rfl := Option.some.inj (hf.symm.trans hg)
  exact Option.some.inj (hfi.symm.trans hgj)

theorem not_owns_before (contents : κ → Option β) (i : ι) (k : κ) :
    ¬ Owns (before contents) i k := by
  rintro ⟨f, hf, hi⟩
  obtain ⟨c, -, rfl⟩ := Option.map_eq_some_iff.mp hf
  cases hi

/-- No two writers hold one name. -/
theorem Held.unique (h : Held hold d) (hi : hold i = some k) (hj : hold j = some k) : i = j :=
  (h i k hi).unique (h j k hj)

/-- A writer that lets a name go, or holds none, leaves the others theirs. -/
theorem Held.release (h : Held hold d) (hi : hold' i = none) (hother : ∀ j, j ≠ i → hold' j = hold j) :
    Held hold' d := by
  intro j k hj
  by_cases hji : j = i
  · rw [hji, hi] at hj
    cases hj
  · exact h j k (hother j hji ▸ hj)

/-- A writer that goes on with the name it holds. -/
theorem Held.keep (h : Held hold d) (hi : hold' i = hold i) (hother : ∀ j, j ≠ i → hold' j = hold j) :
    Held hold' d := by
  intro j k hj
  by_cases hji : j = i
  · subst hji
    exact h j k (hi ▸ hj)
  · exact h j k (hother j hji ▸ hj)

/-- The others keep their names when a writer gives up its own. -/
theorem Held.give_up (h : Held hold d) (hi : hold i = some k) (hi' : hold' i = none)
    (hother : ∀ j, j ≠ i → hold' j = hold j) : ∀ j k', hold' j = some k' → Owns d j k' ∧ k' ≠ k := by
  intro j k' hj
  by_cases hji : j = i
  · rw [hji, hi'] at hj
    cases hj
  · rw [hother j hji] at hj
    refine ⟨h j k' hj, ?_⟩
    rintro rfl
    exact hji (h.unique hj hi)

section Operations

variable [DecidableEq κ]

/-- An owner keeps what is at any other name. -/
theorem Owns.update_ne {f : Option (File ι β)} (h : Owns d i k) (hk : k ≠ target) :
    Owns (Function.update d target f) i k := by
  obtain ⟨g, hg, hi⟩ := h
  exact ⟨g, by rw [Function.update_of_ne hk, hg], hi⟩

/-- What a writer owns after an update is what was put there, or it owned it before. -/
theorem owns_update {k' : κ} {f : Option (File ι β)} (h : Owns (Function.update d k f) j k') :
    k' = k ∧ (∃ g, f = some g ∧ g.owner = some j) ∨ k' ≠ k ∧ Owns d j k' := by
  obtain ⟨g, hg, hj⟩ := h
  by_cases hk : k' = k
  · subst hk
    rw [Function.update_self] at hg
    exact .inl ⟨rfl, g, hg, hj⟩
  · rw [Function.update_of_ne hk] at hg
    exact .inr ⟨hk, g, hg, hj⟩

/-- A write leaves every name to its owner. -/
theorem owns_of_write {k' : κ} (hi : Owns d i k) (h : Owns (write d k i c) j k') : Owns d j k' := by
  rcases owns_update h with ⟨rfl, g, hg, hj⟩ | ⟨-, hown⟩
  · obtain ⟨f, hf, hfi⟩ := hi
    obtain rfl := Option.some.inj hg
    have hij : i = j := by simpa [hf, hfi] using hj
    exact hij ▸ ⟨f, hf, hfi⟩
  · exact hown

/-- The owner of what is at a name writes that. -/
theorem rewrite_of_owns [DecidableEq ι] (h : Owns d i k) : rewrite d k (some i) c = write d k i c := by
  obtain ⟨f, hf, hi⟩ := h
  simp [rewrite, write, hf, hi]

theorem owns_create : Owns (create d k i c) i k := ⟨_, Function.update_self .., rfl⟩

theorem owns_write (h : Owns d i k) : Owns (write d k j c) i k := by
  obtain ⟨f, hf, hi⟩ := h
  exact ⟨_, Function.update_self .., by simp [hf, hi]⟩

theorem Held.create (h : Held hold d) (hnone : d k = none) (hi : hold' i = some k)
    (hother : ∀ j, j ≠ i → hold' j = hold j) : Held hold' (create d k i c) := by
  intro j k' hj
  by_cases hji : j = i
  · subst hji
    obtain rfl := Option.some.inj (hi.symm.trans hj)
    exact owns_create
  · have howns := h j k' (hother j hji ▸ hj)
    apply howns.update_ne
    rintro rfl
    obtain ⟨f, hf, -⟩ := howns
    rw [hnone] at hf
    cases hf

theorem Held.write (h : Held hold d) : Held hold (write d k i c) := by
  intro j k' hj
  by_cases hk : k' = k
  · subst hk
    exact owns_write (h j k' hj)
  · exact (h j k' hj).update_ne hk

theorem Held.remove (h : Held hold d) (hi : hold i = some k) (hi' : hold' i = none)
    (hother : ∀ j, j ≠ i → hold' j = hold j) : Held hold' (remove d k) := by
  intro j k' hj
  obtain ⟨howns, hk⟩ := h.give_up hi hi' hother j k' hj
  exact howns.update_ne hk

theorem Held.rename (h : Held hold d) (hi : hold i = some k) (hi' : hold' i = none)
    (hother : ∀ j, j ≠ i → hold' j = hold j) (htarget : ∀ j, hold' j ≠ some target) :
    Held hold' (rename d k target) := by
  intro j k' hj
  obtain ⟨howns, hk⟩ := h.give_up hi hi' hother j k' hj
  refine (howns.update_ne ?_).update_ne hk
  rintro rfl
  exact htarget j hj

end Operations

/-! ## Runs -/

section Runs

variable {σ α : Type} {step : σ → α → Option σ} {P : σ → Prop} {s s' : σ}

/-- A run of steps, each of them possible where it is taken. -/
def run (step : σ → α → Option σ) (s : σ) (actions : List α) : Option σ := actions.foldlM step s

/-- What holds of each step of a run. -/
def Along (step : σ → α → Option σ) (C : σ → α → Prop) : σ → List α → Prop
  | _, [] => True
  | s, a :: actions => C s a ∧ ∀ s' ∈ step s a, Along step C s' actions

theorem run_cons {a : α} {actions : List α} :
    run step s (a :: actions) = some s' ↔ ∃ t, step s a = some t ∧ run step t actions = some s' := by
  simp [run, List.foldlM_cons, Option.bind_eq_some_iff]

/-- What the steps that meet a condition keep, the runs of them keep. -/
theorem run_invariant {C : σ → α → Prop} (hstep : ∀ s a s', P s → C s a → step s a = some s' → P s')
    {actions : List α} (hs : P s) (hC : Along step C s actions) (h : run step s actions = some s') :
    P s' := by
  induction actions generalizing s with
  | nil =>
    obtain rfl : s = s' := by simpa [run] using h
    exact hs
  | cons a actions ih =>
    obtain ⟨t, ht, h⟩ := run_cons.mp h
    obtain ⟨ha, hrest⟩ := hC
    exact ih (hstep s a t hs ha ht) (hrest t ht) h

theorem along_append {C : σ → α → Prop} {actions more : List α} :
    Along step C s (actions ++ more) ↔ Along step C s actions ∧
      ∀ t, run step s actions = some t → Along step C t more := by
  induction actions generalizing s with
  | nil => simp [Along, run]
  | cons a actions ih =>
    constructor
    · rintro ⟨ha, hrest⟩
      refine ⟨⟨ha, fun t ht => (ih.mp (hrest t ht)).1⟩, fun u hu => ?_⟩
      obtain ⟨t, ht, hu⟩ := run_cons.mp hu
      exact (ih.mp (hrest t ht)).2 u hu
    · rintro ⟨⟨ha, hfirst⟩, hrest⟩
      exact ⟨ha, fun t ht => ih.mpr ⟨hfirst t ht, fun u hu => hrest u (run_cons.mpr ⟨t, ht, hu⟩)⟩⟩

/-- A condition that holds of these actions in every state. -/
theorem along_of_forall {C : σ → α → Prop} {actions : List α} (h : ∀ a ∈ actions, ∀ s, C s a) (s : σ) :
    Along step C s actions := by
  induction actions generalizing s with
  | nil => trivial
  | cons a actions ih =>
    exact ⟨h a (by simp) s, fun t _ => ih (fun b hb => h b (by simp [hb])) t⟩

end Runs

end staging
