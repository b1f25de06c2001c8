-- Trees of directories and files, by path: making directories, creating a file
-- where nothing stands, and moving a file over another one. Files with paths
-- that are not prefixes of one another can be written in any order.
import Mathlib

namespace directories

/-! ## The parts of a path -/

/-- No part that a separator splits off holds the separator. -/
theorem not_sep_of_mem_split {α : Type} {sep : α → Bool} {xs part : List α}
    (h : part ∈ xs.splitOnP sep) : ∀ x ∈ part, sep x = false := by
  induction xs generalizing part with
  | nil =>
    rw [List.splitOnP_nil, List.mem_singleton] at h
    simp [h]
  | cons a xs ih =>
    rw [List.splitOnP_cons_eq_if_modifyHead] at h
    by_cases ha : sep a = true
    · rw [if_pos ha, List.mem_cons] at h
      rcases h with rfl | h
      · simp
      · exact ih h
    · rw [if_neg ha] at h
      cases hsplit : xs.splitOnP sep with
      | nil => exact absurd hsplit (List.splitOnP_ne_nil sep xs)
      | cons first rest =>
        rw [hsplit, List.modifyHead_cons, List.mem_cons] at h
        rcases h with rfl | h
        · intro x hx
          rcases List.mem_cons.mp hx with rfl | hx
          · exact Bool.eq_false_iff.mpr ha
          · exact ih (by simp [hsplit]) x hx
        · exact ih (by simp [hsplit, h])

/-! ## Trees -/

/-- What stands at a path. -/
inductive Node (δ : Type) where
  | directory
  | file (data : δ)

/-- What stands at each path. -/
abbrev Tree (κ δ : Type) := List κ → Option (Node δ)

variable {κ δ : Type} [DecidableEq κ]

def isFile (t : Tree κ δ) (p : List κ) : Bool :=
  match t p with
  | some (.file _) => true
  | _ => false

def isDirectory (t : Tree κ δ) (p : List κ) : Bool :=
  match t p with
  | some .directory => true
  | _ => false

/-- Make a directory and the ones that it is in, where they are missing. -/
def mkdirs (t : Tree κ δ) (p : List κ) : Option (Tree κ δ) :=
  if p.inits.any (isFile t) then none
  else some fun q => if q <+: p then some .directory else t q

/-- Create a file where nothing stands. -/
def fresh (t : Tree κ δ) (p : List κ) (data : δ) : Option (Tree κ δ) :=
  if (t p).isNone && isDirectory t p.dropLast then some (Function.update t p (some (.file data)))
  else none

/-- Write a file, in place of one that may stand there. -/
def write (t : Tree κ δ) (p : List κ) (data : δ) : Option (Tree κ δ) :=
  if !isDirectory t p && isDirectory t p.dropLast then
    some (Function.update t p (some (.file data)))
  else none

/-- Move a file over what stands at another path, which is no directory. -/
def replace (t : Tree κ δ) (s d : List κ) : Option (Tree κ δ) :=
  match t s with
  | some (.file data) =>
    if !isDirectory t d && isDirectory t d.dropLast then
      some (Function.update (Function.update t s none) d (some (.file data)))
    else none
  | _ => none

/-! ## One file -/

omit [DecidableEq κ] in
theorem isFile_eq_false {t : Tree κ δ} {p : List κ} (h : t p = none ∨ t p = some .directory) :
    isFile t p = false := by
  unfold isFile
  rcases h with h | h <;> rw [h]

theorem mkdirs_eq {t : Tree κ δ} {p : List κ}
    (h : ∀ q, q <+: p → t q = none ∨ t q = some .directory) :
    mkdirs t p = some fun q => if q <+: p then some .directory else t q := by
  unfold mkdirs
  rw [if_neg]
  intro hany
  obtain ⟨q, hq, hfile⟩ := List.any_eq_true.mp hany
  rw [isFile_eq_false (h q ((List.mem_inits q p).mp hq))] at hfile
  cases hfile

theorem fresh_eq {t : Tree κ δ} {p : List κ} (data : δ) (hp : t p = none)
    (hparent : t p.dropLast = some .directory) :
    fresh t p data = some (Function.update t p (some (.file data))) := by
  unfold fresh isDirectory
  rw [hp, hparent]
  rfl

/-- A file that is created beside another one and then moved over it: only the
other one has changed. -/
theorem fresh_replace {t : Tree κ δ} {s d : List κ} {data : δ} (hs : t s = none)
    (hsd : s ≠ d) (hd : isDirectory t d = false) (hparent : t d.dropLast = some .directory) :
    replace (Function.update t s (some (.file data))) s d =
      some (Function.update t d (some (.file data))) := by
  have hsp : d.dropLast ≠ s := by
    intro heq
    rw [heq, hs] at hparent
    cases hparent
  unfold replace
  rw [Function.update_self]
  simp only [isDirectory, Function.update_of_ne hsd.symm, Function.update_of_ne hsp, hparent]
  unfold isDirectory at hd
  rw [hd]
  simp only [Bool.not_false, Bool.true_and, if_true, Function.update_idem]
  rw [← hs, Function.update_eq_self]

/-! ## Many files -/

/-- A tree after some files were written into it, with the directories that they are in. -/
structure Written (files : List (List κ × δ)) (t₀ t : Tree κ δ) : Prop where
  file : ∀ f ∈ files, t f.1 = some (.file f.2)
  directory : ∀ f ∈ files, ∀ q, q <+: f.1 → q ≠ f.1 → t q = some .directory
  other : ∀ q, (∀ f ∈ files, ¬ q <+: f.1) → t q = t₀ q

/-- A path where a file can be written: nothing stands there, and no file on the way. -/
def Open (t : Tree κ δ) (p : List κ) : Prop :=
  t p = none ∧ ∀ q, q <+: p → q ≠ p → t q = none ∨ t q = some .directory

omit [DecidableEq κ] in
theorem Written.nil (t : Tree κ δ) : Written [] t t where
  file := by simp
  directory := by simp
  other := fun _ _ => rfl

/-- Writing one more file, which is below none of the others and above none. -/
theorem Written.step {files : List (List κ × δ)} {t₀ t : Tree κ δ} (h : Written files t₀ t)
    {p : List κ} (hne : p ≠ []) (hopen : Open t₀ p)
    (hapart : ∀ f ∈ files, ¬ f.1 <+: p ∧ ¬ p <+: f.1) (data : δ) :
    ∃ t₁ t₂, mkdirs t p.dropLast = some t₁ ∧ fresh t₁ p data = some t₂ ∧
      Written (files ++ [(p, data)]) t₀ t₂ := by
  have hparent : p.dropLast <+: p := List.dropLast_prefix p
  have hshort : p.dropLast.length < p.length := by
    rw [List.length_dropLast]
    have hpos := List.length_pos_of_ne_nil hne
    omega
  -- what stands on the way to the file
  have hway : ∀ q, q <+: p → q ≠ p → t q = none ∨ t q = some .directory := by
    intro q hq hqp
    by_cases hsome : ∃ f ∈ files, q <+: f.1
    · obtain ⟨f, hf, hqf⟩ := hsome
      refine .inr (h.directory f hf q hqf ?_)
      intro heq
      exact (hapart f hf).1 (heq ▸ hq)
    · rw [h.other q fun f hf hqf => hsome ⟨f, hf, hqf⟩]
      exact hopen.2 q hq hqp
  have hproper : ∀ q, q <+: p.dropLast → q <+: p ∧ q ≠ p := by
    intro q hq
    refine ⟨hq.trans hparent, ?_⟩
    rintro rfl
    exact absurd hq.length_le (by omega)
  have hp : ¬ p <+: p.dropLast := fun hpre => (hproper p hpre).2 rfl
  have hnone : t p = none := (h.other p fun f hf => (hapart f hf).2).trans hopen.1
  refine ⟨_, _, mkdirs_eq fun q hq => hway q (hproper q hq).1 (hproper q hq).2,
    fresh_eq data ?_ ?_, ?_⟩
  · rw [if_neg hp]
    exact hnone
  · rw [if_pos List.prefix_rfl]
  · constructor
    · intro f hf
      rcases List.mem_append.mp hf with hf | hf
      · have hfp : f.1 ≠ p := fun heq => (hapart f hf).1 (heq ▸ List.prefix_rfl)
        have hfd : ¬ f.1 <+: p.dropLast := fun hpre => (hapart f hf).1 (hpre.trans hparent)
        rw [Function.update_of_ne hfp, if_neg hfd]
        exact h.file f hf
      · rw [List.mem_singleton.mp hf]
        exact Function.update_self _ _ _
    · intro f hf q hq hqf
      rcases List.mem_append.mp hf with hf | hf
      · have hqp : q ≠ p := fun heq => (hapart f hf).2 (heq ▸ hq)
        rw [Function.update_of_ne hqp]
        by_cases hd : q <+: p.dropLast
        · rw [if_pos hd]
        · rw [if_neg hd]
          exact h.directory f hf q hq hqf
      · rw [List.mem_singleton.mp hf] at hq hqf
        rw [Function.update_of_ne hqf, if_pos]
        exact List.prefix_of_prefix_length_le hq hparent (by
          have hlen : q.length < p.length :=
            lt_of_le_of_ne hq.length_le fun heq => hqf (hq.eq_of_length heq)
          rw [List.length_dropLast]
          omega)
    · intro q hq
      have hqp : ¬ q <+: p := hq (p, data) (by simp)
      have hne' : q ≠ p := fun heq => hqp (heq ▸ List.prefix_rfl)
      rw [Function.update_of_ne hne', if_neg fun hpre => hqp (hpre.trans hparent)]
      exact h.other q fun f hf => hq f (by simp [hf])

end directories
