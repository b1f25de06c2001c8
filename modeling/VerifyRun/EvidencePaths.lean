-- What the containment of an evidence path comes to in a tree with symbolic links:
-- a ref that is taken leads below the root, over no link, to the entry that its
-- normal form names. A link is refused as long as the file system answers: what a
-- look at a path raises leaves the check as it is.
import VerifyRun.Lib.Directories
import VerifyRun.Lib.Links
import VerifyRun.Acquisition

namespace vfy.evidence

open python keys outcomes runner links
open directories (not_sep_of_mem_split)

/-! ## The file system of a tree -/

/-- A name of an entry. -/
def EntryName (n : Str) : Prop :=
  n ≠ [] ∧ n ≠ lit "." ∧ n ≠ lit ".." ∧ CodePoint.scalar '/' ∉ n

/-- What the host raises on a path that it cannot look at. -/
inductive Fault where
  /-- No permission to search a directory, or a name or a path that is too long. -/
  | os_error
  /-- The text of the path has no bytes. -/
  | unicode_encode_error

def Fault.exn : Fault → Exn
  | .os_error => .os_error
  | .unicode_encode_error => .value_error

/-- A tree whose entries have names, the directory that relative paths start from,
and the paths that the host raises on: where it looks at one, and where it makes
one real. -/
structure Volume where
  tree : Tree Str ByteArray
  names : ∀ p, tree.node p ≠ none → ∀ n ∈ p, EntryName n
  working : List Str
  working_directory : tree.node working = some .directory
  looking : Str → Option Fault
  resolving : Str → Option Fault

/-- How many links the kernel follows on one path. -/
def MAXSYMLINKS : Nat := 40

/-- Where a path starts. -/
def Volume.start (V : Volume) (path : Str) : List Str :=
  if path.head? = some (.scalar '/') then [] else V.working

/-- `str` of a path from the root. -/
def pathText (p : List Str) : Str :=
  if p = [] then "/" else p.flatMap fun part => .scalar '/' :: part

/-- The steps of a path. -/
def steps (path : Str) : List (Step Str) :=
  (parts path).map fun part => if part = lit ".." then .up else .down part

/-- What is found at a path, with every link followed. -/
def Volume.stat (V : Volume) (path : Str) : Option (Node Str ByteArray) :=
  (V.tree.walk MAXSYMLINKS (V.start path) (steps path)).bind V.tree.node

/-- An answer, where the host raises nothing. -/
def answer {α : Type} (fault : Option Fault) (answered : Except Exn α) : Except Exn α :=
  match fault with
  | none => answered
  | some f => .error f.exn

theorem answer_none {α : Type} (answered : Except Exn α) : answer none answered = answered := rfl

/-- A path leads to a link. -/
def Volume.leadsToLink (V : Volume) (path : Str) : Bool :=
  V.tree.isLinkAt MAXSYMLINKS (V.start path) (steps path)

/-- What the file system of a tree says of paths. A path that meets more links than
the kernel follows has no real path of its own, and no directory has such a path. -/
def Volume.fileSystem (V : Volume) : FileSystem where
  is_symlink p := answer (V.looking p) (.ok (V.leadsToLink p))
  is_dir p := answer (V.looking p) (.ok (match V.stat p with
    | some .directory => true
    | _ => false))
  is_file p := answer (V.looking p) (.ok (match V.stat p with
    | some (.file _) => true
    | _ => false))
  is_there p := answer (V.looking p) (.ok (V.stat p).isSome)
  resolve p := answer (V.resolving p)
    (.ok (pathText (V.tree.realpath MAXSYMLINKS (V.start p) (steps p))))
  read p := answer (V.looking p) (
    if V.leadsToLink p = true then .error .os_error
    else match V.stat p with
      | some (.file data) => .ok (true, data)
      | some _ => .ok (false, .empty)
      | none => .error .os_error)

/-! ## What a ref says -/

/-- A part after those that are normal already: a way back takes one away. -/
def cancel (segments : List Str) (part : Str) : List Str :=
  if part = lit ".." then segments.dropLast else segments ++ [part]

/-- The parts of a ref without the ways back. -/
def normalise (ps : List Str) : List Str := ps.foldl cancel []

/-- From so many directories below the root, some prefix of the parts climbs above it. -/
def ClimbsFrom (n : Nat) (ps : List Str) : Prop :=
  ∃ q, q <+: ps ∧ n + (q.filter fun part => part ≠ lit "..").length < q.count (lit "..")

/-- What a ref is refused for, below a root. -/
def Uncontained (V : Volume) (root : List Str) (ref : Str) : Prop :=
  ref = [] ∨ ref.head? = some (.scalar '/') ∨ ClimbsFrom 0 (parts ref) ∨
    normalise (parts ref) = [] ∨
    ∃ q, q <+: normalise (parts ref) ∧ q ≠ [] ∧ V.tree.isLink (root ++ q) = true

/-- A path that a ref is resolved to, below a root. -/
structure Contained (V : Volume) (root : List Str) (ref path : Str) : Prop where
  lexical : path = pathText (root ++ normalise (parts ref))
  below : normalise (parts ref) ≠ []
  names : ∀ part ∈ normalise (parts ref), EntryName part
  no_link : ∀ q, q <+: normalise (parts ref) → q ≠ [] → V.tree.isLink (root ++ q) = false
  entry : ∀ links p, V.tree.walk links (V.start path) (steps path) = some p ↔
    p = root ++ normalise (parts ref) ∧ V.tree.node p ≠ none

/-- A ref is refused as an invalid path. -/
def Refused (x : Except Exn Str) : Prop := ∃ message, x = .error (fail .evidence_path_invalid message)

/-- What is promised of a ref: it is resolved to a path that is contained, or
refused, and refused just for these reasons. -/
structure Resolves (V : Volume) (root : Str) (top : List Str) (ref : Str) : Prop where
  refused : Refused (resolve_under_root V.fileSystem root ref) ↔ Uncontained V top ref
  taken : ∀ path, resolve_under_root V.fileSystem root ref = .ok path → Contained V top ref path
  returned : ¬ Uncontained V top ref → ∃ path, resolve_under_root V.fileSystem root ref = .ok path

/-- The host looks at every segment below a directory as far as the first link. -/
def Looked (V : Volume) (top segments : List Str) : Prop :=
  ∀ q part, q ++ [part] <+: segments →
    (∀ r, r <+: q → r ≠ [] → V.tree.isLink (top ++ r) = false) →
    V.looking (pathText (top ++ q ++ [part])) = none

/-- Nothing is raised before a ref is refused or resolved. -/
def Answered (V : Volume) (root : Str) (top : List Str) (ref : Str) : Prop :=
  ref = [] ∨ ref.head? = some (.scalar '/') ∨
    V.looking root = none ∧ V.resolving root = none ∧
      (ClimbsFrom 0 (parts ref) ∨ normalise (parts ref) = [] ∨
        Looked V top (normalise (parts ref)) ∧
        ((∀ q, q <+: normalise (parts ref) → q ≠ [] → V.tree.isLink (top ++ q) = false) →
          V.resolving (pathText (top ++ normalise (parts ref))) = none))

/-! ## Paths as text -/

theorem mem_parts {ref part : Str} (h : part ∈ parts ref) :
    part ≠ [] ∧ part ≠ lit "." ∧ CodePoint.scalar '/' ∉ part := by
  unfold parts at h
  rw [List.mem_filter] at h
  have hkept := h.2
  rw [decide_eq_true_eq] at hkept
  refine ⟨hkept.1, hkept.2, ?_⟩
  intro hslash
  have hno := not_sep_of_mem_split h.1 _ hslash
  simp at hno

theorem split_names (p : List Str) (h : ∀ n ∈ p, CodePoint.scalar '/' ∉ n) :
    (p.flatMap fun n => CodePoint.scalar '/' :: n).splitOnP (· = .scalar '/') = [] :: p := by
  induction p with
  | nil => rfl
  | cons a p ih =>
    have hno : ∀ c ∈ a, decide (c = CodePoint.scalar '/') = false := by
      intro c hc
      rw [decide_eq_false_iff_not]
      rintro rfl
      exact h a (by simp) hc
    have hp := ih fun n hn => h n (by simp [hn])
    rw [List.flatMap_cons, List.cons_append, List.splitOnP_cons_eq_if_modifyHead, if_pos (by simp)]
    congr 1
    cases p with
    | nil => simpa using List.splitOnP_eq_singleton hno
    | cons b p =>
      rw [List.flatMap_cons, List.cons_append] at hp ⊢
      rw [List.splitOnP_cons_eq_if_modifyHead, if_pos (by simp), List.cons.injEq] at hp
      rw [List.splitOnP_append_cons_of_forall_mem hno _ (by simp), hp.2]

/-- A path of names is read back from its text. -/
theorem parts_pathText {p : List Str} (h : ∀ n ∈ p, EntryName n) : parts (pathText p) = p := by
  unfold pathText
  by_cases hnil : p = []
  · rw [if_pos hnil, hnil]
    decide
  · rw [if_neg hnil]
    unfold parts
    rw [split_names p fun n hn => (h n hn).2.2.2, List.filter_cons_of_neg (by simp),
      List.filter_eq_self]
    intro n hn
    simpa using ⟨(h n hn).1, (h n hn).2.1⟩

theorem steps_pathText {p : List Str} (h : ∀ n ∈ p, EntryName n) :
    steps (pathText p) = p.map .down := by
  unfold steps
  rw [parts_pathText h]
  apply List.map_congr_left
  intro n hn
  rw [if_neg (h n hn).2.2.1]

theorem start_pathText (V : Volume) (p : List Str) : V.start (pathText p) = [] := by
  unfold Volume.start
  apply if_pos
  unfold pathText
  cases p <;> rfl

theorem join_pathText {p : List Str} (h : ∀ n ∈ p, EntryName n) (part : Str) :
    join (pathText p) part = pathText (p ++ [part]) := by
  unfold join pathText
  cases p with
  | nil => simp [lit, ofText]
  | cons a p =>
    have hne : (a :: p).flatMap (fun n => CodePoint.scalar '/' :: n) ≠ lit "/" := by
      have ha := (h a (by simp)).1
      intro heq
      rw [List.flatMap_cons] at heq
      cases a with
      | nil => exact ha rfl
      | cons c a => simp [lit, ofText] at heq
    rw [if_neg (List.cons_ne_nil a p), if_neg hne, if_neg (by simp), List.flatMap_append]
    simp [lit, ofText]

/-! ## The parts of a ref -/

theorem climbsFrom_nil (n : Nat) : ¬ ClimbsFrom n [] := by
  rintro ⟨q, hq, hlt⟩
  rw [List.prefix_nil.mp hq] at hlt
  simp at hlt

theorem climbsFrom_up (ps : List Str) : ClimbsFrom 0 (lit ".." :: ps) :=
  ⟨[lit ".."], List.cons_prefix_cons.mpr ⟨rfl, List.nil_prefix⟩, by simp⟩

theorem climbsFrom_succ_up {n : Nat} {ps : List Str} :
    ClimbsFrom (n + 1) (lit ".." :: ps) ↔ ClimbsFrom n ps := by
  constructor
  · rintro ⟨q, hq, hlt⟩
    cases q with
    | nil => simp at hlt
    | cons a q =>
      obtain ⟨rfl, hrest⟩ := List.cons_prefix_cons.mp hq
      rw [List.filter_cons_of_neg (by simp), List.count_cons_self] at hlt
      exact ⟨q, hrest, by omega⟩
  · rintro ⟨q, hq, hlt⟩
    refine ⟨lit ".." :: q, List.cons_prefix_cons.mpr ⟨rfl, hq⟩, ?_⟩
    rw [List.filter_cons_of_neg (by simp), List.count_cons_self]
    omega

theorem climbsFrom_down {n : Nat} {part : Str} {ps : List Str} (h : part ≠ lit "..") :
    ClimbsFrom n (part :: ps) ↔ ClimbsFrom (n + 1) ps := by
  constructor
  · rintro ⟨q, hq, hlt⟩
    cases q with
    | nil => simp at hlt
    | cons a q =>
      obtain ⟨rfl, hrest⟩ := List.cons_prefix_cons.mp hq
      rw [List.filter_cons_of_pos (by simpa using h), List.count_cons_of_ne h,
        List.length_cons] at hlt
      exact ⟨q, hrest, by omega⟩
  · rintro ⟨q, hq, hlt⟩
    refine ⟨part :: q, List.cons_prefix_cons.mpr ⟨rfl, hq⟩, ?_⟩
    rw [List.filter_cons_of_pos (by simpa using h), List.count_cons_of_ne h, List.length_cons]
    omega

/-- The loop over the parts normalises them, unless some prefix climbs above the root. -/
theorem add_parts (ref : Str) (ps : List Str) : ∀ segments : List Str,
    (ClimbsFrom segments.length ps → ∃ message,
      ps.foldlM (add_part ref) segments = .error (fail .evidence_path_invalid message)) ∧
    (¬ ClimbsFrom segments.length ps → ps.foldlM (add_part ref) segments = .ok (ps.foldl cancel segments)) := by
  induction ps with
  | nil =>
    intro segments
    exact ⟨fun h => absurd h (climbsFrom_nil _), fun _ => rfl⟩
  | cons part ps ih =>
    intro segments
    rw [List.foldlM_cons, List.foldl_cons]
    by_cases hup : part = lit ".."
    · subst hup
      by_cases hnil : segments = []
      · subst hnil
        constructor
        · intro _
          exact ⟨lit "The ref resolves outside the root: " ++ ref, rfl⟩
        · exact fun h => absurd (climbsFrom_up ps) h
      · have hlen : segments.length = segments.dropLast.length + 1 := by
          rw [List.length_dropLast]
          have hpos := List.length_pos_of_ne_nil hnil
          omega
        have hturn : add_part ref segments (lit "..") = .ok segments.dropLast := by
          simp only [add_part, if_true, raiseIf_neg hnil]
          rfl
        have hcancel : cancel segments (lit "..") = segments.dropLast := if_pos rfl
        rw [hlen, climbsFrom_succ_up, hturn, hcancel]
        exact ih segments.dropLast
    · have hturn : add_part ref segments part = .ok (segments ++ [part]) := by
        simp only [add_part, if_neg hup]
        rfl
      have hcancel : cancel segments part = segments ++ [part] := if_neg hup
      have hlen : segments.length + 1 = (segments ++ [part]).length := by simp
      rw [climbsFrom_down hup, hturn, hcancel, hlen]
      exact ih (segments ++ [part])

theorem mem_foldl_cancel {ps : List Str} {part : Str} : ∀ {segments : List Str},
    part ∈ ps.foldl cancel segments → part ∈ segments ∨ (part ∈ ps ∧ part ≠ lit "..") := by
  induction ps with
  | nil => exact fun h => .inl h
  | cons a ps ih =>
    intro segments h
    rcases ih h with h | h
    · unfold cancel at h
      by_cases hup : a = lit ".."
      · rw [if_pos hup] at h
        exact .inl (List.dropLast_subset segments h)
      · rw [if_neg hup] at h
        rcases List.mem_append.mp h with h | h
        · exact .inl h
        · rw [List.mem_singleton.mp h]
          exact .inr ⟨by simp, hup⟩
    · exact .inr ⟨by simp [h.1], h.2⟩

/-- What is left of a ref are names of entries. -/
theorem entryName_of_mem {ref part : Str} (h : part ∈ normalise (parts ref)) : EntryName part := by
  rcases mem_foldl_cancel h with h | h
  · cases h
  · exact ⟨(mem_parts h.1).1, (mem_parts h.1).2.1, h.2, (mem_parts h.1).2.2⟩

/-! ## Following the segments -/

section Follow

variable {V : Volume} {root : List Str} (hroot : V.tree.node root = some .directory)

include hroot

theorem root_names : ∀ n ∈ root, EntryName n := V.names root (by rw [hroot]; simp)

/-- Nothing on the way to the root is a link. -/
theorem root_not_link {q : List Str} (hq : q <+: root) : V.tree.isLink q = false := by
  apply Tree.isLink_directory
  by_cases heq : q = root
  · rw [heq]
    exact hroot
  · exact Tree.directory_of_prefix (by rw [hroot]; simp) hq heq

/-- Nothing on the way below the root is a link either, where no segment is. -/
theorem no_link_below {segments : List Str}
    (h : ∀ q, q <+: segments → q ≠ [] → V.tree.isLink (root ++ q) = false) :
    ∀ q, q <+: root ++ segments → q ≠ [] → V.tree.isLink ([] ++ q) = false := by
  intro q hq _
  rw [List.nil_append]
  rcases List.prefix_or_prefix_of_prefix hq (List.prefix_append root segments) with hr | hr
  · exact root_not_link hroot hr
  · obtain ⟨rest, rfl⟩ := hr
    by_cases hnil : rest = []
    · rw [hnil, List.append_nil]
      exact root_not_link hroot List.prefix_rfl
    · exact h rest ((List.prefix_append_right_inj root).mp hq) hnil

theorem leadsToLink_below {done : List Str} (part : Str) (hnames : ∀ n ∈ done ++ [part], EntryName n)
    (h : ∀ q, q <+: done → q ≠ [] → V.tree.isLink (root ++ q) = false) :
    V.leadsToLink (pathText (root ++ done ++ [part])) = V.tree.isLink (root ++ done ++ [part]) := by
  have hall : ∀ n ∈ root ++ done ++ [part], EntryName n := by
    intro n hn
    rw [List.append_assoc] at hn
    rcases List.mem_append.mp hn with hn | hn
    · exact root_names hroot n hn
    · exact hnames n hn
  unfold Volume.leadsToLink
  rw [start_pathText, steps_pathText hall, Tree.isLinkAt_names part MAXSYMLINKS (no_link_below hroot h)]
  rfl

omit hroot in
theorem looked_cons {done segments : List Str} {part : Str} :
    Looked V (root ++ done) (part :: segments) ↔
      V.looking (pathText (root ++ done ++ [part])) = none ∧
        (V.tree.isLink (root ++ done ++ [part]) = false →
          Looked V (root ++ (done ++ [part])) segments) := by
  constructor
  · intro h
    constructor
    · simpa using h [] part (List.cons_prefix_cons.mpr ⟨rfl, List.nil_prefix⟩)
        fun r hr hne => absurd (List.prefix_nil.mp hr) hne
    · intro hlink q next hq hclear
      have hnext := h (part :: q) next (List.cons_prefix_cons.mpr ⟨rfl, hq⟩) ?_
      · simpa using hnext
      · intro r hr hne
        rcases List.prefix_cons_iff.mp hr with rfl | ⟨rest, rfl, hrest⟩
        · exact absurd rfl hne
        · by_cases hnil : rest = []
          · rw [hnil]
            exact hlink
          · simpa using hclear rest hrest hnil
  · rintro ⟨hfirst, hrest⟩ q next hq hclear
    cases q with
    | nil =>
      obtain ⟨rfl, -⟩ := List.cons_prefix_cons.mp hq
      simpa using hfirst
    | cons a q =>
      obtain ⟨rfl, hin⟩ := List.cons_prefix_cons.mp hq
      have hlink := hclear [a] (List.cons_prefix_cons.mpr ⟨rfl, List.nil_prefix⟩) (by simp)
      have hnext := hrest hlink q next hin fun r hr hne => by
        simpa using hclear (a :: r) (List.cons_prefix_cons.mpr ⟨rfl, hr⟩) (by simp)
      simpa using hnext

/-- The loop over the segments returns their path below the root, unless one of them is a
link, or a look at one before that raises. -/
theorem follow_segments (segments : List Str) : ∀ done : List Str,
    (∀ n ∈ done ++ segments, EntryName n) →
    (∀ q, q <+: done → q ≠ [] → V.tree.isLink (root ++ q) = false) →
    (Looked V (root ++ done) segments →
      (∃ q, q <+: segments ∧ q ≠ [] ∧ V.tree.isLink (root ++ done ++ q) = true) →
      ∃ message, segments.foldlM (follow V.fileSystem) (pathText (root ++ done)) =
        .error (fail .evidence_path_invalid message)) ∧
    (Looked V (root ++ done) segments →
      (∀ q, q <+: segments → q ≠ [] → V.tree.isLink (root ++ done ++ q) = false) →
      segments.foldlM (follow V.fileSystem) (pathText (root ++ done)) =
        .ok (pathText (root ++ done ++ segments))) ∧
    (¬ Looked V (root ++ done) segments →
      ∃ fault : Fault, segments.foldlM (follow V.fileSystem) (pathText (root ++ done)) =
        .error fault.exn) := by
  induction segments with
  | nil =>
    intro done _ _
    refine ⟨?_, ?_, fun h => absurd ?_ h⟩
    · rintro _ ⟨q, hq, hne, -⟩
      exact absurd (List.prefix_nil.mp hq) hne
    · intro _ _
      rw [List.append_nil]
      rfl
    · intro q part hq
      simp at hq
  | cons part segments ih =>
    intro done hnames hdone
    have hpart : ∀ n ∈ done ++ [part], EntryName n := by
      intro n hn
      apply hnames n
      rw [List.append_cons]
      exact List.mem_append_left _ hn
    have hall : ∀ n ∈ root ++ done, EntryName n := by
      intro n hn
      rcases List.mem_append.mp hn with hn | hn
      · exact root_names hroot n hn
      · exact hpart n (by simp [hn])
    have hlink := leadsToLink_below hroot part hpart hdone
    have hask : V.fileSystem.is_symlink (pathText (root ++ done ++ [part])) =
        answer (V.looking (pathText (root ++ done ++ [part])))
          (.ok (V.tree.isLink (root ++ done ++ [part]))) := by
      rw [← hlink]
      rfl
    rw [List.foldlM_cons, looked_cons]
    cases hlooking : V.looking (pathText (root ++ done ++ [part])) with
    | some fault =>
      have hturn : follow V.fileSystem (pathText (root ++ done)) part = .error fault.exn := by
        unfold follow
        simp only [join_pathText hall, hask, hlooking]
        rfl
      rw [hturn]
      exact ⟨fun h => absurd h.1 (by simp), fun h => absurd h.1 (by simp), fun _ => ⟨fault, rfl⟩⟩
    | none =>
      rw [hlooking] at hask
      by_cases his : V.tree.isLink (root ++ done ++ [part]) = true
      · have hturn : follow V.fileSystem (pathText (root ++ done)) part =
            .error (fail .evidence_path_invalid
              (lit "A symlink may not stand in for evidence: " ++ pathText (root ++ done ++ [part]))) := by
          unfold follow
          simp only [join_pathText hall, hask, his]
          rfl
        rw [hturn]
        refine ⟨fun _ _ => ⟨_, rfl⟩, fun _ hno => ?_, fun h => absurd ⟨rfl, ?_⟩ h⟩
        · rw [hno [part] (List.cons_prefix_cons.mpr ⟨rfl, List.nil_prefix⟩) (by simp)] at his
          cases his
        · intro hfalse
          rw [hfalse] at his
          cases his
      · have hfalse := Bool.eq_false_iff.mpr his
        have hturn : follow V.fileSystem (pathText (root ++ done)) part =
            .ok (pathText (root ++ done ++ [part])) := by
          unfold follow
          simp only [join_pathText hall, hask, hfalse]
          rfl
        rw [hturn, ok_bind]
        have hdone' : ∀ q, q <+: done ++ [part] → q ≠ [] → V.tree.isLink (root ++ q) = false := by
          intro q hq hne
          rcases List.prefix_concat_iff.mp hq with rfl | hq
          · rw [← List.append_assoc]
            exact hfalse
          · exact hdone q hq hne
        obtain ⟨hlinked, hclear, hraised⟩ := ih (done ++ [part]) (by rwa [← List.append_cons]) hdone'
        rw [← List.append_assoc] at hlinked hclear hraised
        refine ⟨?_, ?_, fun h => ?_⟩
        · rintro ⟨-, hlooked⟩ ⟨q, hq, hne, hqlink⟩
          cases q with
          | nil => exact absurd rfl hne
          | cons a q =>
            obtain ⟨rfl, hrest⟩ := List.cons_prefix_cons.mp hq
            rw [List.append_cons] at hqlink
            apply hlinked (by simpa using hlooked hfalse)
            refine ⟨q, hrest, ?_, hqlink⟩
            rintro rfl
            rw [List.append_nil] at hqlink
            exact his hqlink
        · rintro ⟨-, hlooked⟩ hno
          rw [List.append_cons (root ++ done) part segments]
          apply hclear (by simpa using hlooked hfalse)
          intro q hq _
          rw [← List.append_cons]
          exact hno (part :: q) (List.cons_prefix_cons.mpr ⟨rfl, hq⟩) (by simp)
        · apply hraised
          intro hlooked
          exact h ⟨rfl, fun _ => by simpa using hlooked⟩

/-! ## The containment of a path -/

/-- The real path of a path with no link below the root is the path itself. -/
theorem resolve_below {segments : List Str} (hnames : ∀ n ∈ segments, EntryName n)
    (h : ∀ q, q <+: segments → q ≠ [] → V.tree.isLink (root ++ q) = false) :
    V.fileSystem.resolve (pathText (root ++ segments)) =
      answer (V.resolving (pathText (root ++ segments))) (.ok (pathText (root ++ segments))) := by
  have hall : ∀ n ∈ root ++ segments, EntryName n := by
    intro n hn
    rcases List.mem_append.mp hn with hn | hn
    · exact root_names hroot n hn
    · exact hnames n hn
  show answer _ (.ok (pathText (V.tree.realpath MAXSYMLINKS (V.start _) (steps _)))) = _
  rw [start_pathText, steps_pathText hall, Tree.realpath_names _ _ (no_link_below hroot h)]
  rfl

theorem contained_below {segments : List Str} (hne : segments ≠ []) :
    contained (pathText root) (pathText (root ++ segments)) = true := by
  unfold contained
  rw [join_pathText (root_names hroot), Bool.or_eq_true]
  right
  rw [List.isPrefixOf_iff_prefix]
  unfold pathText
  rw [if_neg (by simp), if_neg (by simp [hne]), List.flatMap_append, List.flatMap_append]
  apply (List.prefix_append_right_inj _).mpr
  cases segments with
  | nil => exact absurd rfl hne
  | cons a segments =>
    rw [List.flatMap_cons]
    exact List.cons_prefix_cons.mpr ⟨rfl, List.nil_prefix⟩

theorem walk_below {segments : List Str} (hnames : ∀ n ∈ segments, EntryName n)
    (h : ∀ q, q <+: segments → q ≠ [] → V.tree.isLink (root ++ q) = false) (links : Nat)
    (p : List Str) :
    V.tree.walk links (V.start (pathText (root ++ segments))) (steps (pathText (root ++ segments))) =
      some p ↔ p = root ++ segments ∧ V.tree.node p ≠ none := by
  have hall : ∀ n ∈ root ++ segments, EntryName n := by
    intro n hn
    rcases List.mem_append.mp hn with hn | hn
    · exact root_names hroot n hn
    · exact hnames n hn
  rw [start_pathText, steps_pathText hall, Tree.walk_names _ _ (no_link_below hroot h)]
  simp only [List.nil_append]
  constructor
  · rintro ⟨rfl, hsome⟩
    exact ⟨rfl, hsome⟩
  · rintro ⟨rfl, hsome⟩
    exact ⟨rfl, hsome⟩

end Follow

theorem not_refused_of_fault {fault : Fault} {x : Except Exn Str} (h : x = .error fault.exn) :
    ¬ Refused x := by
  rintro ⟨message, hmessage⟩
  rw [h] at hmessage
  cases fault <;> cases hmessage

section Resolve

variable {V : Volume} {root ref : Str} {top : List Str}
  (hwalk : V.tree.walk MAXSYMLINKS (V.start root) (steps root) = some top)
  (htop : V.tree.node top = some .directory) (hlink : V.leadsToLink root = false)

include hwalk htop hlink

/-- The root is a directory, if the host looks at it. -/
theorem real_directory_root :
    real_directory V.fileSystem root = answer (V.looking root) (.ok true) := by
  have hdir : V.fileSystem.is_dir root = answer (V.looking root) (.ok true) := by
    show answer _ (.ok (match V.stat root with
      | some .directory => true
      | _ => false)) = _
    rw [Volume.stat, hwalk, Option.bind_some, htop]
  have hask : V.fileSystem.is_symlink root = answer (V.looking root) (.ok false) := by
    rw [← hlink]
    rfl
  unfold real_directory
  rw [hask, hdir]
  cases V.looking root <;> rfl

omit htop hlink in
/-- The real path of the root is where it leads. -/
theorem resolve_root :
    V.fileSystem.resolve root = answer (V.resolving root) (.ok (pathText top)) := by
  show answer _ (.ok (pathText (V.tree.realpath MAXSYMLINKS (V.start root) (steps root)))) = _
  rw [Tree.realpath_of_walk hwalk]

/-- What is left to do once the ref is known to be relative and the root to be there. -/
theorem resolve_relative (hempty : ref ≠ []) (habsolute : ref.head? ≠ some (.scalar '/'))
    (hlooking : V.looking root = none) (hresolving : V.resolving root = none) :
    resolve_under_root V.fileSystem root ref = (do
      let segments ← (parts ref).foldlM (add_part ref) []
      raiseIf (segments = []) (fail .evidence_path_invalid
        (lit "A ref must name something under the root: " ++ ref))
      let target ← segments.foldlM (follow V.fileSystem) (pathText top)
      let settled ← V.fileSystem.resolve target
      raiseIf (contained (pathText top) settled = false) (fail .evidence_path_invalid
        (lit "The ref resolves outside the root: " ++ ref))
      pure target) := by
  have hreal := real_directory_root hwalk htop hlink
  have hresolve := resolve_root hwalk
  rw [hlooking] at hreal
  rw [hresolving] at hresolve
  unfold resolve_under_root
  rw [raiseIf_neg hempty, ok_bind, raiseIf_neg habsolute, ok_bind, hreal,
    answer_none, ok_bind, raiseIf_neg (by simp), ok_bind, hresolve]
  rfl

/-- A fault of the host before the ref is refused or resolved leaves the check. -/
theorem fault_of_not_answered (h : ¬ Answered V root top ref) :
    ∃ fault : Fault, resolve_under_root V.fileSystem root ref = .error fault.exn := by
  unfold Answered at h
  rw [not_or, not_or] at h
  obtain ⟨hempty, habsolute, h⟩ := h
  cases hlooking : V.looking root with
  | some fault =>
    refine ⟨fault, ?_⟩
    unfold resolve_under_root
    rw [raiseIf_neg hempty, ok_bind, raiseIf_neg habsolute, ok_bind,
      real_directory_root hwalk htop hlink, hlooking]
    rfl
  | none =>
    cases hresolving : V.resolving root with
    | some fault =>
      refine ⟨fault, ?_⟩
      have hreal := real_directory_root hwalk htop hlink
      rw [hlooking] at hreal
      unfold resolve_under_root
      rw [raiseIf_neg hempty, ok_bind, raiseIf_neg habsolute, ok_bind, hreal,
        answer_none, ok_bind, raiseIf_neg (by simp), ok_bind, resolve_root hwalk, hresolving]
      rfl
    | none =>
      rw [resolve_relative hwalk htop hlink hempty habsolute hlooking hresolving]
      have hparts : ¬ (ClimbsFrom 0 (parts ref) ∨ normalise (parts ref) = [] ∨
          Looked V top (normalise (parts ref)) ∧ _) := fun hp => h ⟨hlooking, hresolving, hp⟩
      rw [not_or, not_or] at hparts
      obtain ⟨hclimbs, hnil, hfollow⟩ := hparts
      rw [(add_parts ref (parts ref) []).2 hclimbs, ok_bind]
      change ∃ fault : Fault, (raiseIf (normalise (parts ref) = []) _ >>= fun _ =>
        (normalise (parts ref)).foldlM (follow V.fileSystem) (pathText top) >>= _) = _
      rw [raiseIf_neg hnil, ok_bind]
      have hloop := follow_segments htop (normalise (parts ref)) []
        (fun n hn => entryName_of_mem hn) (fun q hq hne => absurd (List.prefix_nil.mp hq) hne)
      rw [List.append_nil] at hloop
      by_cases hlooked : Looked V top (normalise (parts ref))
      · have hsettle := not_and.mp hfollow hlooked
        rw [Classical.not_imp] at hsettle
        obtain ⟨hno, hraised⟩ := hsettle
        rw [hloop.2.1 hlooked hno, ok_bind,
          resolve_below htop (fun n hn => entryName_of_mem hn) hno]
        obtain ⟨fault, hfault⟩ := Option.ne_none_iff_exists'.mp hraised
        rw [hfault]
        exact ⟨fault, rfl⟩
      · obtain ⟨fault, hfault⟩ := hloop.2.2 hlooked
        rw [hfault]
        exact ⟨fault, rfl⟩

theorem refused_of_uncontained (hanswered : Answered V root top ref) (h : Uncontained V top ref) :
    Refused (resolve_under_root V.fileSystem root ref) := by
  by_cases hempty : ref = []
  · unfold resolve_under_root
    rw [raiseIf_pos hempty]
    exact ⟨_, rfl⟩
  by_cases habsolute : ref.head? = some (.scalar '/')
  · unfold resolve_under_root
    rw [raiseIf_neg hempty, ok_bind, raiseIf_pos habsolute]
    exact ⟨_, rfl⟩
  obtain ⟨hlooking, hresolving, hway⟩ := (hanswered.resolve_left hempty).resolve_left habsolute
  rw [resolve_relative hwalk htop hlink hempty habsolute hlooking hresolving]
  by_cases hclimbs : ClimbsFrom 0 (parts ref)
  · obtain ⟨message, hloop⟩ := (add_parts ref (parts ref) []).1 hclimbs
    rw [hloop]
    exact ⟨message, rfl⟩
  rw [(add_parts ref (parts ref) []).2 hclimbs, ok_bind]
  change Refused (raiseIf (normalise (parts ref) = []) _ >>= fun _ =>
    (normalise (parts ref)).foldlM (follow V.fileSystem) (pathText top) >>= _)
  by_cases hnil : normalise (parts ref) = []
  · rw [raiseIf_pos hnil]
    exact ⟨_, rfl⟩
  rw [raiseIf_neg hnil, ok_bind]
  -- only a link is left
  have hlooked := ((hway.resolve_left hclimbs).resolve_left hnil).1
  rcases h with h | h | h | h | h
  · exact absurd h hempty
  · exact absurd h habsolute
  · exact absurd h hclimbs
  · exact absurd h hnil
  · have hfollow := (follow_segments htop (normalise (parts ref)) []
      (fun n hn => entryName_of_mem hn) (fun q hq hne => absurd (List.prefix_nil.mp hq) hne)).1
    rw [List.append_nil] at hfollow
    obtain ⟨message, hloop⟩ := hfollow hlooked h
    rw [hloop]
    exact ⟨message, rfl⟩

theorem resolved_of_contained (hanswered : Answered V root top ref) (h : ¬ Uncontained V top ref) :
    resolve_under_root V.fileSystem root ref = .ok (pathText (top ++ normalise (parts ref))) := by
  unfold Uncontained at h
  rw [not_or, not_or, not_or, not_or] at h
  obtain ⟨hempty, habsolute, hclimbs, hnil, hlinks⟩ := h
  have hno : ∀ q, q <+: normalise (parts ref) → q ≠ [] → V.tree.isLink (top ++ q) = false := by
    intro q hq hne
    exact Bool.eq_false_iff.mpr fun his => hlinks ⟨q, hq, hne, his⟩
  obtain ⟨hlooking, hresolving, hway⟩ := (hanswered.resolve_left hempty).resolve_left habsolute
  obtain ⟨hlooked, hsettle⟩ := (hway.resolve_left hclimbs).resolve_left hnil
  have hfollow := (follow_segments htop (normalise (parts ref)) []
    (fun n hn => entryName_of_mem hn) (fun q hq hne => absurd (List.prefix_nil.mp hq) hne)).2.1
  rw [List.append_nil] at hfollow
  have hsettled := resolve_below htop (fun n hn => entryName_of_mem hn) hno
  rw [hsettle hno] at hsettled
  have hcontained := contained_below htop hnil
  rw [resolve_relative hwalk htop hlink hempty habsolute hlooking hresolving,
    (add_parts ref (parts ref) []).2 hclimbs, ok_bind]
  change (raiseIf (normalise (parts ref) = []) _ >>= fun _ =>
    (normalise (parts ref)).foldlM (follow V.fileSystem) (pathText top) >>= _) = _
  rw [raiseIf_neg hnil, ok_bind, hfollow hlooked hno, ok_bind, hsettled]
  change (raiseIf (contained _ _ = false) _ >>= _) = _
  rw [raiseIf_neg (by simp [hcontained])]
  rfl

omit hlink hwalk in
theorem contained_of_clear (h : ¬ Uncontained V top ref) :
    Contained V top ref (pathText (top ++ normalise (parts ref))) := by
  unfold Uncontained at h
  rw [not_or, not_or, not_or, not_or] at h
  obtain ⟨-, -, -, hnil, hlinks⟩ := h
  have hno : ∀ q, q <+: normalise (parts ref) → q ≠ [] → V.tree.isLink (top ++ q) = false := by
    intro q hq hne
    exact Bool.eq_false_iff.mpr fun his => hlinks ⟨q, hq, hne, his⟩
  exact
    { lexical := rfl
      below := hnil
      names := fun part hpart => entryName_of_mem hpart
      no_link := hno
      entry := walk_below htop (fun n hn => entryName_of_mem hn) hno }

theorem contained_of_resolved {path : Str}
    (h : resolve_under_root V.fileSystem root ref = .ok path) : Contained V top ref path := by
  by_cases hanswered : Answered V root top ref
  · by_cases hun : Uncontained V top ref
    · obtain ⟨message, hrefused⟩ := refused_of_uncontained hwalk htop hlink hanswered hun
      rw [hrefused] at h
      cases h
    · rw [resolved_of_contained hwalk htop hlink hanswered hun] at h
      cases h
      exact contained_of_clear htop hun
  · obtain ⟨fault, hfault⟩ := fault_of_not_answered hwalk htop hlink hanswered
    rw [hfault] at h
    cases h

theorem uncontained_of_refused (h : Refused (resolve_under_root V.fileSystem root ref)) :
    Uncontained V top ref := by
  by_cases hanswered : Answered V root top ref
  · by_contra hun
    obtain ⟨message, hmessage⟩ := h
    rw [resolved_of_contained hwalk htop hlink hanswered hun] at hmessage
    cases hmessage
  · obtain ⟨fault, hfault⟩ := fault_of_not_answered hwalk htop hlink hanswered
    exact absurd h (not_refused_of_fault hfault)

end Resolve

/-- Below a root that is a directory and no link itself: a path that a ref is resolved to
is contained, and a ref is refused as an invalid path only where it is empty or absolute,
climbs above the root, names nothing below it or goes over a link. It is refused for each
of these, and any other ref is resolved, just where the host raises nothing before. -/
theorem resolve_under_root_contained (V : Volume) (root ref : Str) {top : List Str}
    (hwalk : V.tree.walk MAXSYMLINKS (V.start root) (steps root) = some top)
    (htop : V.tree.node top = some .directory) (hlink : V.leadsToLink root = false) :
    (∀ path, resolve_under_root V.fileSystem root ref = .ok path → Contained V top ref path) ∧
    (Refused (resolve_under_root V.fileSystem root ref) → Uncontained V top ref) ∧
    (Resolves V root top ref ↔ Answered V root top ref) := by
  refine ⟨fun path => contained_of_resolved hwalk htop hlink,
    uncontained_of_refused hwalk htop hlink, ?_, ?_⟩
  · intro h
    by_contra hanswered
    obtain ⟨fault, hfault⟩ := fault_of_not_answered hwalk htop hlink hanswered
    by_cases hun : Uncontained V top ref
    · exact not_refused_of_fault hfault (h.refused.mpr hun)
    · obtain ⟨path, hpath⟩ := h.returned hun
      rw [hfault] at hpath
      cases hpath
  · intro hanswered
    exact
      { refused := ⟨uncontained_of_refused hwalk htop hlink,
          refused_of_uncontained hwalk htop hlink hanswered⟩
        taken := fun path => contained_of_resolved hwalk htop hlink
        returned := fun h => ⟨_, resolved_of_contained hwalk htop hlink hanswered h⟩ }

/-- A directory with a file and a link to the top. -/
def smallNode (p : List Str) : Option (Node Str ByteArray) :=
  if p = [] ∨ p = [lit "e"] then some .directory
  else if p = [lit "e", lit "f"] then some (.file .empty)
  else if p = [lit "e", lit "l"] then some (.link { absolute := true, steps := [] })
  else none

theorem smallNode_ne_none {p : List Str} (h : smallNode p ≠ none) :
    p ∈ ([[], [lit "e"], [lit "e", lit "f"], [lit "e", lit "l"]] : List (List Str)) := by
  unfold smallNode at h
  split_ifs at h with h1 h2 h3
  · rcases h1 with rfl | rfl <;> simp
  · simp [h2]
  · simp [h3]
  · exact absurd rfl h

/-- The directory may not be searched, or everything may be looked at. -/
def smallVolume (locked : Bool) : Volume where
  tree :=
    { node := smallNode
      top := rfl
      parent := by
        intro p n h
        have hmem := smallNode_ne_none h
        simp only [List.mem_cons, List.not_mem_nil, or_false] at hmem
        rcases hmem with heq | heq | heq | heq
        · simp at heq
        · have hp : p ++ [n] = [] ++ [lit "e"] := heq
          rw [(List.append_inj' hp rfl).1]
          rfl
        · have hp : p ++ [n] = [lit "e"] ++ [lit "f"] := heq
          rw [(List.append_inj' hp rfl).1]
          rfl
        · have hp : p ++ [n] = [lit "e"] ++ [lit "l"] := heq
          rw [(List.append_inj' hp rfl).1]
          rfl }
  names := by
    intro p h
    have hmem := smallNode_ne_none h
    simp only [List.mem_cons, List.not_mem_nil, or_false] at hmem
    rcases hmem with rfl | rfl | rfl | rfl <;> simp [EntryName, lit, ofText]
  working := []
  working_directory := rfl
  looking p := if locked = true ∧ (lit "/e/").isPrefixOf p then some .os_error else none
  resolving _ := none

theorem walk_small {locked : Bool} :
    (smallVolume locked).tree.walk MAXSYMLINKS [] [.down (lit "e")] = some [lit "e"] :=
  (Tree.walk_names [lit "e"] MAXSYMLINKS (by
    intro q hq hne
    rcases List.prefix_cons_iff.mp hq with rfl | ⟨rest, rfl, hrest⟩
    · exact absurd rfl hne
    · rw [List.prefix_nil.mp hrest]
      rfl) [lit "e"]).mpr ⟨rfl, by simp [smallVolume, smallNode]⟩

theorem steps_small : steps (lit "/e") = [.down (lit "e")] := by
  unfold steps
  rw [show parts (lit "/e") = [lit "e"] by decide]
  rfl

theorem walk_root {locked : Bool} : (smallVolume locked).tree.walk MAXSYMLINKS
    ((smallVolume locked).start "/e") (steps "/e") = some [lit "e"] := by
  change (smallVolume locked).tree.walk MAXSYMLINKS [] (steps (lit "/e")) = _
  rw [steps_small]
  exact walk_small

theorem parts_small : normalise (parts (lit "x/../f")) = [lit "f"] := by decide

theorem leadsToLink_small {locked : Bool} : (smallVolume locked).leadsToLink "/e" = false := by
  show (smallVolume locked).tree.isLinkAt MAXSYMLINKS ((smallVolume locked).start (lit "/e"))
    (steps (lit "/e")) = false
  rw [show (smallVolume locked).start (lit "/e") = [] from rfl, steps_small]
  exact Tree.isLinkAt_names (lit "e") MAXSYMLINKS (by
    intro q hq hne
    exact absurd (List.prefix_nil.mp hq) hne)

/-- A file is reached by a ref that leads there and back. -/
theorem resolve_under_root_contained_small :
    Resolves (smallVolume false) "/e" [lit "e"] "x/../f" ∧
      ¬ Uncontained (smallVolume false) [lit "e"] "x/../f" := by
  have hlink : ∀ q, q <+: [lit "f"] → q ≠ [] →
      (smallVolume false).tree.isLink ([lit "e"] ++ q) = false := by
    intro q hq hne
    rcases List.prefix_cons_iff.mp hq with rfl | ⟨rest, rfl, hrest⟩
    · exact absurd rfl hne
    · rw [List.prefix_nil.mp hrest]
      rfl
  have hclimbs : ¬ ClimbsFrom 0 (parts (lit "x/../f")) := by
    rw [show parts (lit "x/../f") = [lit "x", lit "..", lit "f"] by decide,
      climbsFrom_down (by decide), climbsFrom_succ_up, climbsFrom_down (by decide)]
    exact climbsFrom_nil 1
  constructor
  · refine (resolve_under_root_contained (smallVolume false) "/e" "x/../f" walk_root
      rfl leadsToLink_small).2.2.mpr (.inr (.inr ⟨rfl, rfl, .inr (.inr ⟨?_, fun _ => rfl⟩)⟩))
    intro q part _ _
    rfl
  · rintro (h | h | h | h | ⟨q, hq, hne, h⟩)
    · cases h
    · cases h
    · exact hclimbs h
    · rw [parts_small] at h
      cases h
    · rw [parts_small] at hq
      rw [hlink q hq hne] at h
      cases h

/-- A link below a directory that may not be searched: the host raises, and the ref is
not refused. -/
theorem link_is_not_refused :
    ∃ V top, V.tree.walk MAXSYMLINKS (V.start "/e") (steps "/e") = some top ∧
      V.tree.node top = some .directory ∧ V.leadsToLink "/e" = false ∧
      Uncontained V top "l" ∧
      resolve_under_root V.fileSystem "/e" "l" = .error .os_error ∧
      ¬ Resolves V "/e" top "l" := by
  have hun : Uncontained (smallVolume true) [lit "e"] "l" := by
    refine .inr (.inr (.inr (.inr ⟨[lit "l"], ?_, by simp, rfl⟩)))
    rw [show normalise (parts (lit "l")) = [lit "l"] by decide]
  have hraised : resolve_under_root (smallVolume true).fileSystem "/e" "l" = .error .os_error := by
    rw [resolve_relative walk_root rfl leadsToLink_small (by decide) (by decide) rfl rfl,
      show parts (lit "l") = [lit "l"] by decide]
    rfl
  refine ⟨smallVolume true, [lit "e"], walk_root, rfl, leadsToLink_small, hun, hraised, fun h => ?_⟩
  obtain ⟨message, hmessage⟩ := h.refused.mpr hun
  rw [hraised] at hmessage
  cases hmessage

end vfy.evidence
