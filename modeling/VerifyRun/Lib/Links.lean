-- Trees of directories, files and symbolic links, and where a path leads in one.
-- A path with no link on it leads where its names say, and nowhere else.
import Mathlib

namespace links

/-- One step of a path. -/
inductive Step (κ : Type) where
  | up
  | down (name : κ)

/-- What a link points to, from the top or from the directory that it is in. -/
structure Link (κ : Type) where
  absolute : Bool
  steps : List (Step κ)

inductive Node (κ δ : Type) where
  | directory
  | file (data : δ)
  | link (target : Link κ)

/-- What stands at each path, where no name on the way is a link. -/
structure Tree (κ δ : Type) where
  node : List κ → Option (Node κ δ)
  top : node [] = some .directory
  parent : ∀ p n, node (p ++ [n]) ≠ none → node p = some .directory

namespace Tree

variable {κ δ : Type} (t : Tree κ δ)

def isDirectory (p : List κ) : Bool :=
  match t.node p with
  | some .directory => true
  | _ => false

def isLink (p : List κ) : Bool :=
  match t.node p with
  | some (.link _) => true
  | _ => false

/-- Where steps lead from a directory. Every link on the way is followed, and there
may be so many of them. -/
def walk : Nat → List κ → List (Step κ) → Option (List κ)
  | _, d, [] => if (t.node d).isSome then some d else none
  | links, d, .up :: steps => if t.isDirectory d then walk links d.dropLast steps else none
  | links, d, .down n :: steps =>
    if t.isDirectory d then
      match t.node (d ++ [n]), links with
      | none, _ => none
      | some (.link _), 0 => none
      | some (.link l), links + 1 => walk links (if l.absolute then [] else d) (l.steps ++ steps)
      | some .directory, links => walk links (d ++ [n]) steps
      | some (.file _), links => walk links (d ++ [n]) steps
    else none
termination_by links _ steps => (links, steps.length)

/-- Where steps lead with what is missing taken as it is written. -/
def realpath : Nat → List κ → List (Step κ) → List κ
  | _, d, [] => d
  | links, d, .up :: steps => realpath links d.dropLast steps
  | links, d, .down n :: steps =>
    match t.node (d ++ [n]), links with
    | some (.link l), links + 1 => realpath links (if l.absolute then [] else d) (l.steps ++ steps)
    | _, links => realpath links (d ++ [n]) steps
termination_by links _ steps => (links, steps.length)

/-- The last name of a path is a link, which is not followed. -/
def isLinkAt (links : Nat) (d : List κ) (steps : List (Step κ)) : Bool :=
  match steps.reverse with
  | .down n :: before =>
    match t.walk links d before.reverse with
    | some p => t.isLink (p ++ [n])
    | none => false
  | _ => false

variable {t}

theorem isDirectory_iff {p : List κ} : t.isDirectory p = true ↔ t.node p = some .directory := by
  unfold isDirectory
  split <;> simp_all

theorem isLink_of_none {p : List κ} (h : t.node p = none) : t.isLink p = false := by
  unfold isLink
  rw [h]

theorem isLink_directory {p : List κ} (h : t.node p = some .directory) : t.isLink p = false := by
  unfold isLink
  rw [h]

/-- Everything above something is a directory. -/
theorem directory_of_prefix {p : List κ} (h : t.node p ≠ none) {q : List κ} (hq : q <+: p)
    (hne : q ≠ p) : t.node q = some .directory := by
  induction p using List.reverseRecOn with
  | nil => exact absurd (List.prefix_nil.mp hq) hne
  | append_singleton p n ih =>
    have hparent := t.parent p n h
    rcases List.prefix_concat_iff.mp hq with heq | hpre
    · exact absurd heq hne
    · by_cases heq : q = p
      · rw [heq]
        exact hparent
      · apply ih _ hpre heq
        rw [hparent]
        simp

/-- Where a path leads to something, its real path is the same. -/
theorem realpath_of_walk {links : Nat} {d p : List κ} {steps : List (Step κ)}
    (h : t.walk links d steps = some p) : t.realpath links d steps = p := by
  fun_induction t.walk links d steps <;> simp_all [realpath]

/-- With no link on the way, names lead to what stands there, where something does. -/
theorem walk_names {d : List κ} (names : List κ) (links : Nat)
    (h : ∀ q, q <+: names → q ≠ [] → t.isLink (d ++ q) = false) (p : List κ) :
    t.walk links d (names.map .down) = some p ↔ p = d ++ names ∧ t.node (d ++ names) ≠ none := by
  induction names generalizing d with
  | nil =>
    rw [List.map_nil, walk, List.append_nil]
    by_cases hnone : t.node d = none
    · simp [hnone]
    · rw [if_pos (Option.isSome_iff_ne_none.mpr hnone)]
      simp [hnone, eq_comm]
  | cons n names ih =>
    have hrest : ∀ q, q <+: names → q ≠ [] → t.isLink (d ++ [n] ++ q) = false := by
      intro q hq hne
      rw [List.append_assoc]
      exact h (n :: q) (List.cons_prefix_cons.mpr ⟨rfl, hq⟩) (by simp)
    have hfirst : t.isLink (d ++ [n]) = false :=
      h [n] (List.cons_prefix_cons.mpr ⟨rfl, List.nil_prefix⟩) (by simp)
    have happend : d ++ n :: names = d ++ [n] ++ names := by simp
    rw [happend, ← ih hrest, List.map_cons]
    -- where there is nothing at the first name, there is nothing below it either
    by_cases hnone : t.node (d ++ [n]) = none
    · have hbelow : t.node (d ++ [n] ++ names) = none := by
        by_contra hsome
        by_cases hnil : names = []
        · rw [hnil, List.append_nil] at hsome
          exact hsome hnone
        · have hdir := directory_of_prefix hsome (List.prefix_append (d ++ [n]) names) (by simpa using hnil)
          rw [hnone] at hdir
          cases hdir
      rw [ih hrest]
      constructor
      · intro hwalk
        simp [walk, hnone] at hwalk
      · exact fun hsome => absurd hbelow hsome.2
    · have hdir := isDirectory_iff.mpr (t.parent d n hnone)
      cases hnode : t.node (d ++ [n]) with
      | none => exact absurd hnode hnone
      | some node =>
        cases node with
        | directory => simp [walk, hdir, hnode]
        | file data => simp [walk, hdir, hnode]
        | link l =>
          unfold isLink at hfirst
          rw [hnode] at hfirst
          cases hfirst

theorem realpath_names {d : List κ} (names : List κ) (links : Nat)
    (h : ∀ q, q <+: names → q ≠ [] → t.isLink (d ++ q) = false) :
    t.realpath links d (names.map .down) = d ++ names := by
  induction names generalizing d with
  | nil => simp [realpath]
  | cons n names ih =>
    have hrest : ∀ q, q <+: names → q ≠ [] → t.isLink (d ++ [n] ++ q) = false := by
      intro q hq hne
      rw [List.append_assoc]
      exact h (n :: q) (List.cons_prefix_cons.mpr ⟨rfl, hq⟩) (by simp)
    have hfirst : t.isLink (d ++ [n]) = false :=
      h [n] (List.cons_prefix_cons.mpr ⟨rfl, List.nil_prefix⟩) (by simp)
    have happend : d ++ n :: names = d ++ [n] ++ names := by simp
    rw [happend, ← ih hrest, List.map_cons]
    cases hnode : t.node (d ++ [n]) with
    | none => simp [realpath, hnode]
    | some node =>
      cases node with
      | directory => simp [realpath, hnode]
      | file data => simp [realpath, hnode]
      | link l =>
        unfold isLink at hfirst
        rw [hnode] at hfirst
        cases hfirst

/-- The last of some names is a link, where no name before it is one. -/
theorem isLinkAt_names {d p : List κ} (n : κ) (links : Nat)
    (h : ∀ q, q <+: p → q ≠ [] → t.isLink (d ++ q) = false) :
    t.isLinkAt links d ((p ++ [n]).map .down) = t.isLink (d ++ p ++ [n]) := by
  unfold isLinkAt
  rw [List.map_append, List.map_singleton, List.reverse_append, List.reverse_singleton,
    List.singleton_append]
  simp only [List.reverse_reverse]
  cases hwalk : t.walk links d (p.map .down) with
  | none =>
    have hnone : t.node (d ++ p) = none := by
      by_contra hsome
      rw [(walk_names p links h (d ++ p)).mpr ⟨rfl, hsome⟩] at hwalk
      cases hwalk
    have hbelow : t.node (d ++ p ++ [n]) = none := by
      by_contra hsome
      rw [t.parent _ _ hsome] at hnone
      cases hnone
    exact (isLink_of_none hbelow).symm
  | some q => rw [((walk_names p links h q).mp hwalk).1]

end Tree

end links
