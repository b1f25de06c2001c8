-- Where the entries of a manifest go: below the copy, each to a file of its own.
-- The one exception is an entry named "." , which is the copy itself.
import VerifyRun.Lib.Directories
import VerifyRun.ManagedCopy
import VerifyRun.ChildRecords
import VerifyRun.TextSize

namespace vfy.service_adoption

open session python keys outcomes child_ledger common_capacity managed_capacity directories

/-! ## Effects on a tree -/

/-- The directories and files that the effects change. -/
abbrev DiskTree := Tree Str ByteArray

/-- A change that may raise. -/
def changed_tree (t : Option DiskTree) : Checked DiskTree :=
  match t with
  | some t => pure t
  | none => .error (.raised .os_error)

/-- What an effect does to the tree. -/
def perform (t : DiskTree) : Effect → Checked DiskTree
  | .mkdir p => changed_tree (mkdirs t p)
  | .fresh p data => changed_tree (fresh t p data)
  | .write_bytes p data => changed_tree (write t p data)
  | .replace s d => changed_tree (replace t s d)
  | .chmod p _ => changed_tree (if (t p).isSome then some t else none)
  | .fsync p => changed_tree (if (t p).isSome then some t else none)
  | .lock _ _ => pure t
  | .open_store _ => pure t
  | .consume_once _ _ => pure t
  | .sync_consumption _ _ => pure t

/-- A stage whose effects change the tree, and whose other questions are answered from it. -/
def carried_out {α : Type} (others : DiskTree → (q : Question) → Answer q) :
    Stage α → DiskTree → Checked (α × DiskTree)
  | .ret a, t => .ok (a, t)
  | .throw e, _ => .error e
  | .ask (.effect e) k, t =>
    match perform t e with
    | .ok t' => carried_out others (k (.ok ())) t'
    | .error r => carried_out others (k (.error r)) t
  | .ask q k, t => carried_out others (k (others t q)) t

section CarriedOut

variable {others : DiskTree → (q : Question) → Answer q} {α β : Type}

theorem carried_bind (p : Stage α) (f : α → Stage β) : ∀ t, carried_out others (p >>= f) t =
    carried_out others p t >>= fun r => carried_out others (f r.1) r.2 := by
  show ∀ t, carried_out others (p.bind f) t = _
  induction p with
  | ret a => intro t; rfl
  | throw e => intro t; rfl
  | ask q k ih =>
    intro t
    cases q with
    | effect e =>
      simp only [Prog.bind, carried_out]
      cases perform t e with
      | ok t' => exact ih (.ok ()) t'
      | error r => exact ih (.error r) t
    | _ => exact ih _ t

theorem carried_ask {t t' : DiskTree} {e : Effect} (h : perform t e = .ok t')
    (k : Answer (.effect e) → Stage α) :
    carried_out others (.ask (.effect e) k) t = carried_out others (k (.ok ())) t' := by
  simp only [carried_out, h]

theorem carried_effect {t t' : DiskTree} {e : Effect} (h : perform t e = .ok t') :
    carried_out others (effect e) t = .ok ((), t') :=
  (carried_ask h compute).trans rfl

theorem carried_compute (x : Checked α) (t : DiskTree) :
    carried_out others (compute x) t = x.map fun a => (a, t) := by
  cases x <;> rfl

/-- An effect and then the rest. -/
theorem carried_then {t t' : DiskTree} {e : Effect} (h : perform t e = .ok t') (p : Stage α) :
    carried_out others (effect e >>= fun _ => p) t = carried_out others p t' := by
  rw [carried_bind, carried_effect h]
  rfl

end CarriedOut

/-! ## Targets -/

/-- `root/'copy'/name`. -/
def target (copy : List Str) (name : Str) : List Str := copy ++ parts name

/-- A path that is strictly below a directory, and goes nowhere else on the way. -/
def Below (copy p : List Str) : Prop :=
  ∃ rest, rest ≠ [] ∧ p = copy ++ rest ∧
    ∀ part ∈ rest, part ∉ ([lit "", lit ".", lit ".."] : List Str) ∧ CodePoint.scalar '/' ∉ part

/-- A copy in which nothing stands yet. -/
def Empty (t : DiskTree) (copy : List Str) : Prop :=
  (∀ q, q <+: copy → t q = some .directory) ∧ ∀ q, copy <+: q → q ≠ copy → t q = none

/-- Provisioning, in whatever order, writes each file to its own target, and
nothing else but the directories that these are in. -/
def Provisions (contents : Contents) : Prop :=
  ∀ others copy files t, payloads contents files = .ok () → Distinct files → Empty t copy →
    ∃ t', carried_out others (forM files (provision_file copy contents)) t = .ok ((), t') ∧
      Written (files.map fun f => (target copy f.1, f.2)) t t'

/-- The copy and its stage before the replacements: every target is a file, and
nothing is staged. -/
structure Ready (contents : Contents) (root : List Str) (t : DiskTree) : Prop where
  present : ∀ c ∈ contents, ∃ data, t (target (root ++ [lit "copy"]) c.1) = some (.file data)
  parent : ∀ c ∈ contents, t (target (root ++ [lit "copy"]) c.1).dropLast = some .directory
  stage : t (root ++ [lit "stage"]) = some .directory
  unstaged : ∀ i, t (root ++ [lit "stage", numbered i]) = none

/-- Replacing changed files, in whatever order, changes exactly their targets;
only the meter refuses it. -/
def Replaces (contents : Contents) : Prop :=
  ∀ others root (limits : Resources) (meter : Meter limits) (changes : List Payload) t,
    (changes.map Payload.name).Nodup → (∀ x ∈ changes, x.name ∈ contents.map Prod.fst) →
    Ready contents root t →
    (∃ message, carried_out others (changes.zipIdx.foldlM (replace_file root) meter) t =
      .error (.refused message)) ∨
    ∃ meter' t', carried_out others (changes.zipIdx.foldlM (replace_file root) meter) t =
        .ok (meter', t') ∧
      (∀ x ∈ changes, t' (target (root ++ [lit "copy"]) x.name) = some (.file x.data)) ∧
      ∀ q, (∀ x ∈ changes, q ≠ target (root ++ [lit "copy"]) x.name) → t' q = t q

/-- What the targets of a manifest are to be, for every root. -/
structure Separate (limits : Limits) (contents : Contents) : Prop where
  count : contents.length ≤ limits.files
  size : (contents.map fun c => c.2.bytes).sum ≤ limits.source_bytes
  distinct : ∀ copy, (contents.map fun c => target copy c.1).Nodup
  below : ∀ copy, ∀ c ∈ contents, Below copy (target copy c.1)
  apart : ∀ copy, ∀ c ∈ contents, ∀ d ∈ contents,
    target copy c.1 <+: target copy d.1 → target copy c.1 = target copy d.1
  provisions : Provisions contents
  replaces : Replaces contents

/-! ## Names -/

/-- A name that stands as a path writes it, and is not the copy itself. -/
structure Plain (name : Str) : Prop where
  written : [CodePoint.scalar '/'].intercalate (parts name) = name
  named : parts name ≠ []
  part : ∀ part ∈ parts name, part ∉ ([lit "", lit ".", lit ".."] : List Str) ∧
    CodePoint.scalar '/' ∉ part

theorem mem_parts {name part : Str} (h : part ∈ parts name) :
    part ≠ [] ∧ part ≠ lit "." ∧ CodePoint.scalar '/' ∉ part := by
  unfold parts at h
  rw [List.mem_filter] at h
  obtain ⟨hmem, hkept⟩ := h
  rw [decide_eq_true_eq] at hkept
  refine ⟨hkept.1, hkept.2, ?_⟩
  intro hslash
  have hno := not_sep_of_mem_split hmem _ hslash
  simp at hno

/-- A name that a manifest takes is plain, unless it is the copy itself. -/
theorem plain_of_plainName {name : Str} (h : plainName name) (hdot : name ≠ lit ".") : Plain name := by
  obtain ⟨-, -, hwritten, hpart, -⟩ := h
  unfold relativeText at hwritten
  by_cases hnil : parts name = []
  · rw [if_pos hnil] at hwritten
    exact absurd hwritten.symm hdot
  · rw [if_neg hnil] at hwritten
    refine ⟨hwritten, hnil, fun part hmem => ⟨?_, (mem_parts hmem).2.2⟩⟩
    intro hin
    have hplain := hpart part hmem
    simp only [List.mem_cons, List.not_mem_nil, or_false] at hin hplain
    rcases hin with rfl | rfl | rfl
    · exact (mem_parts hmem).1 rfl
    · exact hplain (.inl rfl)
    · exact hplain (.inr (.inl rfl))

/-- Plain names with the same parts are the same. -/
theorem Plain.eq_of_parts {a b : Str} (ha : Plain a) (hb : Plain b) (h : parts a = parts b) :
    a = b := by
  rw [← ha.written, ← hb.written, h]

theorem target_inj {copy : List Str} {a b : Str} (ha : Plain a) (hb : Plain b) :
    target copy a = target copy b ↔ a = b := by
  constructor
  · intro h
    exact ha.eq_of_parts hb (List.append_cancel_left h)
  · rintro rfl
    rfl

theorem Plain.below {name : Str} (h : Plain name) (copy : List Str) : Below copy (target copy name) :=
  ⟨parts name, h.named, rfl, h.part⟩

/-! ## What a manifest says -/

theorem entryOf_eq_ok {names : List Str} {m : Str × Value} {c : Str × Content}
    (h : entryOf names m = .ok c) : (plainName c.1 ∧
      ∀ parent ∈ (parts c.1).inits.tail.dropLast, relativeText parent ∉ names) ∧ c.1 = m.1 := by
  unfold entryOf at h
  simp only [bind_eq_ok, exists_unit, need_eq_ok, pure_eq_ok] at h
  obtain ⟨hplain, content, -, hparents, rfl⟩ := h
  exact ⟨⟨hplain, hparents⟩, rfl⟩

theorem names_of_mapM {α β : Type} {f : Str × α → Checked (Str × β)} {as : List (Str × α)}
    {bs : List (Str × β)} (h : as.mapM f = .ok bs) (hf : ∀ a b, f a = .ok b → b.1 = a.1) :
    bs.map Prod.fst = as.map Prod.fst := by
  have hall := mapM_eq_ok.mp h
  clear h
  induction hall with
  | nil => rfl
  | cons hb _ ih => rw [List.map_cons, List.map_cons, hf _ _ hb, ih]

/-- What `_manifest` has checked of the names, the number of files and their bytes. -/
structure Checks (limits : Limits) (contents : Contents) : Prop where
  count : contents.length ≤ limits.files
  size : (contents.map fun c => c.2.bytes).sum ≤ limits.source_bytes
  names : Distinct contents
  plain : ∀ c ∈ contents, plainName c.1
  parents : ∀ c ∈ contents, ∀ parent ∈ (parts c.1).inits.tail.dropLast,
    relativeText parent ∉ contents.map Prod.fst

theorem checks_of_manifest {data : ByteArray} {limits : Limits} {m : Manifest}
    (h : manifest data limits = .ok m) : Checks limits m.contents := by
  unfold manifest at h
  obtain ⟨v, hload, h⟩ := bind_eq_ok.mp h
  cases v with
  | dict members =>
    simp only [bind_eq_ok, exists_unit, need_eq_ok, pure_eq_ok] at h
    obtain ⟨hcount, contents, hmap, hsize, rfl⟩ := h
    have hcanonical := load.canonical_of_load (lift_eq_ok.mp hload)
    have hnames : contents.map Prod.fst = members.map Prod.fst :=
      names_of_mapM hmap fun m c hc => (entryOf_eq_ok hc).2
    have hall := mapM_forall hmap fun m c hc => (entryOf_eq_ok hc).1
    exact
      { count := by
          rw [← List.length_map (f := Prod.fst), hnames, List.length_map]
          exact hcount.2
        size := hsize
        names := by
          unfold Distinct
          rw [hnames]
          exact (Value.canonical_dict.mp hcanonical).1
        plain := fun c hc => (hall c hc).1
        parents := by
          rw [hnames]
          exact fun c hc => (hall c hc).2 }
  | _ => simp at h

/-! ## Targets are apart -/

theorem mem_inits_dropLast {α : Type} {q l : List α} (h : q <+: l) (hne : q ≠ l) :
    q ∈ l.inits.dropLast := by
  obtain ⟨t, rfl⟩ := h
  cases t with
  | nil => simp at hne
  | cons a t =>
    rw [List.inits_append, List.inits_cons, List.tail_cons,
      List.dropLast_append_of_ne_nil (by cases t <;> simp)]
    exact List.mem_append_left _ ((List.mem_inits q q).mpr List.prefix_rfl)

/-- The proper parents of a path, without the root. -/
theorem mem_parents {α : Type} {q l : List α} (h : q <+: l) (hne : q ≠ l) (hnil : q ≠ []) :
    q ∈ l.inits.tail.dropLast := by
  cases q with
  | nil => exact absurd rfl hnil
  | cons a q =>
    cases l with
    | nil => simp at h
    | cons b l =>
      rw [List.cons_prefix_cons] at h
      rw [List.inits_cons, List.tail_cons, ← List.map_dropLast, ← h.1]
      apply List.mem_map_of_mem
      apply mem_inits_dropLast h.2
      rintro rfl
      exact hne (by rw [h.1])

section Targets

variable {limits : Limits} {contents : Contents} (h : Checks limits contents)
  (hdot : lit "." ∉ contents.map Prod.fst)

include h hdot

theorem Checks.plain_of {c : Str × Content} (hc : c ∈ contents) : Plain c.1 := by
  apply plain_of_plainName (h.plain c hc)
  intro heq
  exact hdot (heq ▸ List.mem_map_of_mem hc)

theorem Checks.apart {c d : Str × Content} (hc : c ∈ contents) (hd : d ∈ contents)
    (hpre : parts c.1 <+: parts d.1) : c.1 = d.1 := by
  by_contra hne
  have hparts : parts c.1 ≠ parts d.1 := fun heq =>
    hne ((h.plain_of hdot hc).eq_of_parts (h.plain_of hdot hd) heq)
  have hnamed := (h.plain_of hdot hc).named
  apply h.parents d hd (parts c.1) (mem_parents hpre hparts hnamed)
  rw [relativeText, if_neg hnamed, (h.plain_of hdot hc).written]
  exact List.mem_map_of_mem hc

theorem Checks.prefix_iff {c d : Str × Content} (hc : c ∈ contents) (hd : d ∈ contents)
    (copy : List Str) : target copy c.1 <+: target copy d.1 ↔ c.1 = d.1 := by
  constructor
  · intro hpre
    exact h.apart hdot hc hd ((List.prefix_append_right_inj copy).mp hpre)
  · intro heq
    rw [heq]

theorem Checks.distinct (copy : List Str) : (contents.map fun c => target copy c.1).Nodup := by
  have hnames : (contents.map Prod.fst).Nodup := h.names
  rw [show (contents.map fun c => target copy c.1) = (contents.map Prod.fst).map (target copy) by
    rw [List.map_map]
    rfl]
  apply hnames.map_on
  intro a ha b hb heq
  obtain ⟨c, hc, rfl⟩ := List.mem_map.mp ha
  obtain ⟨d, hd, rfl⟩ := List.mem_map.mp hb
  exact (target_inj (h.plain_of hdot hc) (h.plain_of hdot hd)).mp heq

/-! ## Provisioning -/

theorem provision_file_written (others : DiskTree → (q : Question) → Answer q) {copy : List Str}
    {t₀ t : DiskTree} {done : List (Str × ByteArray)} {f : Str × ByteArray}
    (hempty : Empty t₀ copy) (hw : Written (done.map fun f => (target copy f.1, f.2)) t₀ t)
    (hdone : ∀ d ∈ done, d.1 ∈ contents.map Prod.fst ∧ d.1 ≠ f.1)
    (hf : f.1 ∈ contents.map Prod.fst) :
    ∃ t', carried_out others (provision_file copy contents f) t = .ok ((), t') ∧
      Written ((done ++ [f]).map fun f => (target copy f.1, f.2)) t₀ t' := by
  obtain ⟨c, hc, hcf⟩ := List.mem_map.mp hf
  have hplain : Plain f.1 := hcf ▸ h.plain_of hdot hc
  have hne : target copy f.1 ≠ [] := by
    intro heq
    exact hplain.named (List.append_eq_nil_iff.mp heq).2
  have hcopy : target copy f.1 ≠ copy := by
    intro heq
    exact hplain.named (List.append_right_eq_self.mp heq)
  have hopen : Open t₀ (target copy f.1) := by
    refine ⟨hempty.2 _ (List.prefix_append _ _) hcopy, fun q hq _ => ?_⟩
    rcases List.prefix_or_prefix_of_prefix hq (List.prefix_append copy (parts f.1)) with hqc | hqc
    · exact .inr (hempty.1 q hqc)
    · by_cases heq : q = copy
      · rw [heq]
        exact .inr (hempty.1 copy List.prefix_rfl)
      · exact .inl (hempty.2 q hqc heq)
  have hapart : ∀ g ∈ done.map fun f => (target copy f.1, f.2),
      ¬ g.1 <+: target copy f.1 ∧ ¬ target copy f.1 <+: g.1 := by
    intro g hg
    obtain ⟨d, hd, rfl⟩ := List.mem_map.mp hg
    obtain ⟨e, he, hed⟩ := List.mem_map.mp (hdone d hd).1
    rw [← hcf, ← hed]
    have hne' : e.1 ≠ c.1 := by
      rw [hed, hcf]
      exact (hdone d hd).2
    exact ⟨fun hpre => hne' ((h.prefix_iff hdot he hc copy).mp hpre),
      fun hpre => hne'.symm ((h.prefix_iff hdot hc he copy).mp hpre)⟩
  obtain ⟨t₁, t₂, hmk, hfresh, hw'⟩ := hw.step hne hopen hapart f.2
  refine ⟨t₂, ?_, ?_⟩
  · have hthere : t₂ (target copy f.1) = some (.file f.2) :=
      hw'.file (target copy f.1, f.2) (by simp)
    have hlookup : contents.lookup f.1 = some c.2 :=
      (lookup_eq_some_iff h.names f.1 c.2).mpr (hcf ▸ hc)
    have hmkdir : perform t (.mkdir (target copy f.1).dropLast) = .ok t₁ := by
      simp only [perform, hmk]
      rfl
    have hcreate : perform t₁ (.fresh (target copy f.1) f.2) = .ok t₂ := by
      simp only [perform, hfresh]
      rfl
    have hchmod : perform t₂ (.chmod (target copy f.1) (0o600 ||| c.2.executable)) = .ok t₂ := by
      simp only [perform, hthere]
      rfl
    have hsync : perform t₂ (.fsync (target copy f.1)) = .ok t₂ := by
      simp only [perform, hthere]
      rfl
    unfold provision_file
    rw [show copy ++ parts f.1 = target copy f.1 from rfl]
    rw [carried_then hmkdir, carried_then hcreate, hlookup]
    rw [carried_then hchmod, carried_effect hsync]
  · rw [List.map_append]
    exact hw'

theorem provision_files_written {others : DiskTree → (q : Question) → Answer q} {copy : List Str}
    {t₀ : DiskTree} (hempty : Empty t₀ copy) (files : List (Str × ByteArray)) :
    ∀ (done : List (Str × ByteArray)) (t : DiskTree),
      Written (done.map fun f => (target copy f.1, f.2)) t₀ t → Distinct (done ++ files) →
      (∀ f ∈ done ++ files, f.1 ∈ contents.map Prod.fst) →
      ∃ t', carried_out others (forM files (provision_file copy contents)) t = .ok ((), t') ∧
        Written ((done ++ files).map fun f => (target copy f.1, f.2)) t₀ t' := by
  induction files with
  | nil =>
    intro done t hw _ _
    rw [List.append_nil]
    exact ⟨t, rfl, hw⟩
  | cons f files ih =>
    intro done t hw hdistinct hnames
    have hother : ∀ d ∈ done, d.1 ∈ contents.map Prod.fst ∧ d.1 ≠ f.1 := by
      intro d hd
      refine ⟨hnames d (by simp [hd]), ?_⟩
      unfold Distinct at hdistinct
      rw [List.map_append, List.nodup_append] at hdistinct
      exact hdistinct.2.2 d.1 (List.mem_map_of_mem hd) f.1 (by simp)
    obtain ⟨t', hrun, hw'⟩ :=
      provision_file_written h hdot others hempty hw hother (hnames f (by simp))
    rw [List.append_cons] at hdistinct hnames ⊢
    obtain ⟨t'', hrest, hw''⟩ := ih (done ++ [f]) t' hw' hdistinct hnames
    refine ⟨t'', ?_, hw''⟩
    show carried_out others (provision_file copy contents f >>= fun _ => forM files _) t = _
    rw [carried_bind, hrun]
    exact hrest

theorem Checks.provisions : Provisions contents := by
  intro others copy files t hpayloads hdistinct hempty
  have hnames : ∀ f ∈ files, f.1 ∈ contents.map Prod.fst := by
    unfold payloads at hpayloads
    simp only [bind_eq_ok, exists_unit, need_eq_ok] at hpayloads
    exact hpayloads.1.1
  exact provision_files_written h hdot hempty files [] t (.nil t) hdistinct hnames

end Targets

/-! ## Replacing -/

section Replacing

variable {others : DiskTree → (q : Question) → Answer q} {root : List Str} {contents : Contents}
  {t : DiskTree} {limits : Resources}

theorem charge_cases (meter : Meter limits) (k : Resource) (n : Nat) :
    (∃ message, meter.charge k n = .error (.refused message)) ∨ ∃ meter', meter.charge k n = .ok meter' := by
  unfold Meter.charge
  split
  · exact .inr ⟨_, rfl⟩
  · exact .inl ⟨_, rfl⟩

theorem Ready.file (h : Ready contents root t) {name : Str} (hname : name ∈ contents.map Prod.fst) :
    ∃ data, t (target (root ++ [lit "copy"]) name) = some (.file data) := by
  obtain ⟨c, hc, rfl⟩ := List.mem_map.mp hname
  exact h.present c hc

theorem Ready.directory (h : Ready contents root t) {name : Str}
    (hname : name ∈ contents.map Prod.fst) :
    t (target (root ++ [lit "copy"]) name).dropLast = some .directory := by
  obtain ⟨c, hc, rfl⟩ := List.mem_map.mp hname
  exact h.parent c hc

/-- Another file in place of one that stands leaves the copy and its stage ready. -/
theorem Ready.update (h : Ready contents root t) {name : Str}
    (hname : name ∈ contents.map Prod.fst) (data : ByteArray) :
    Ready contents root (Function.update t (target (root ++ [lit "copy"]) name) (some (.file data))) := by
  obtain ⟨old, hold⟩ := h.file hname
  have hdirectory : ∀ q, t q = some .directory → q ≠ target (root ++ [lit "copy"]) name := by
    rintro q hq rfl
    rw [hold] at hq
    cases hq
  have hnone : ∀ q, t q = none → q ≠ target (root ++ [lit "copy"]) name := by
    rintro q hq rfl
    rw [hold] at hq
    cases hq
  constructor
  · intro c hc
    by_cases heq : target (root ++ [lit "copy"]) c.1 = target (root ++ [lit "copy"]) name
    · exact ⟨data, by rw [heq, Function.update_self]⟩
    · obtain ⟨present, hpresent⟩ := h.present c hc
      exact ⟨present, by rw [Function.update_of_ne heq, hpresent]⟩
  · intro c hc
    rw [Function.update_of_ne (hdirectory _ (h.parent c hc))]
    exact h.parent c hc
  · rw [Function.update_of_ne (hdirectory _ h.stage)]
    exact h.stage
  · intro i
    rw [Function.update_of_ne (hnone _ (h.unstaged i))]
    exact h.unstaged i

/-- A turn of the loop changes the one target, unless the meter refuses it. -/
theorem replace_file_cases (others : DiskTree → (q : Question) → Answer q) (meter : Meter limits)
    (x : Payload) (i : Nat)
    (h : Ready contents root t) (hx : x.name ∈ contents.map Prod.fst) :
    (∃ message, carried_out others (replace_file root meter (x, i)) t = .error (.refused message)) ∨
    ∃ meter', carried_out others (replace_file root meter (x, i)) t = .ok (meter',
      Function.update t (target (root ++ [lit "copy"]) x.name) (some (.file x.data))) := by
  obtain ⟨old, hold⟩ := h.file hx
  have hparent := h.directory hx
  have hstaged := h.unstaged i
  have hready := h.update hx x.data
  generalize hs : root ++ [lit "stage", numbered i] = staged at hstaged
  generalize hd : target (root ++ [lit "copy"]) x.name = p at hold hparent hready
  have hstage : staged.dropLast = root ++ [lit "stage"] := by
    rw [← hs, List.dropLast_append_of_ne_nil (by simp)]
    rfl
  have hcreate : perform t (.fresh staged x.data) =
      .ok (Function.update t staged (some (.file x.data))) := by
    simp only [perform, fresh_eq x.data hstaged (hstage ▸ h.stage)]
    rfl
  have hthere : Function.update t staged (some (Node.file x.data)) staged = some (.file x.data) :=
    Function.update_self _ _ _
  have hchmod : perform (Function.update t staged (some (.file x.data)))
      (.chmod staged (0o600 ||| x.content.executable)) =
      .ok (Function.update t staged (some (.file x.data))) := by
    simp only [perform, hthere]
    rfl
  have hsync : perform (Function.update t staged (some (.file x.data))) (.fsync staged) =
      .ok (Function.update t staged (some (.file x.data))) := by
    simp only [perform, hthere]
    rfl
  have hmove : perform (Function.update t staged (some (.file x.data))) (.replace staged p) =
      .ok (Function.update t p (some (.file x.data))) := by
    have hne : staged ≠ p := by
      rintro rfl
      rw [hstaged] at hold
      cases hold
    have hfile : isDirectory t p = false := by
      unfold isDirectory
      rw [hold]
    simp only [perform, fresh_replace hstaged hne hfile hparent]
    rfl
  have hsynced : perform (Function.update t p (some (.file x.data))) (.fsync p.dropLast) =
      .ok (Function.update t p (some (.file x.data))) := by
    have hdir := hd ▸ hready.directory hx
    simp only [perform, hdir]
    rfl
  have hsynced' : perform (Function.update t p (some (.file x.data))) (.fsync (root ++ [lit "stage"])) =
      .ok (Function.update t p (some (.file x.data))) := by
    simp only [perform, hready.stage]
    rfl
  unfold replace_file
  rw [show root ++ [lit "copy"] ++ parts x.name = p from hd]
  simp only [hs]
  rw [carried_bind, carried_compute]
  rcases charge_cases meter .write_bytes x.data.size with ⟨message, hcharge⟩ | ⟨meter', hcharge⟩
  · exact .inl ⟨message, by rw [hcharge]; rfl⟩
  · rw [hcharge]
    simp only [Except.map, ok_bind]
    rw [carried_then hcreate, carried_then hchmod, carried_then hsync, carried_bind, carried_compute]
    rcases charge_cases meter' .file_mutations 1 with ⟨message, hcharge⟩ | ⟨meter'', hcharge⟩
    · exact .inl ⟨message, by rw [hcharge]; rfl⟩
    · rw [hcharge]
      simp only [Except.map, ok_bind]
      rw [carried_then hmove, carried_then hsynced, carried_then hsynced']
      exact .inr ⟨meter'', rfl⟩

theorem replace_files_cases (hplain : ∀ name ∈ contents.map Prod.fst, Plain name)
    (changes : List Payload) : ∀ (k : Nat) (meter : Meter limits) (t : DiskTree),
      (changes.map Payload.name).Nodup → (∀ x ∈ changes, x.name ∈ contents.map Prod.fst) →
      Ready contents root t →
      (∃ message, carried_out others ((changes.zipIdx k).foldlM (replace_file root) meter) t =
        .error (.refused message)) ∨
      ∃ meter' t', carried_out others ((changes.zipIdx k).foldlM (replace_file root) meter) t =
          .ok (meter', t') ∧
        (∀ x ∈ changes, t' (target (root ++ [lit "copy"]) x.name) = some (.file x.data)) ∧
        ∀ q, (∀ x ∈ changes, q ≠ target (root ++ [lit "copy"]) x.name) → t' q = t q := by
  induction changes with
  | nil =>
    intro k meter t _ _ _
    exact .inr ⟨meter, t, rfl, by simp, fun _ _ => rfl⟩
  | cons x changes ih =>
    intro k meter t hnodup hnames hready
    rw [List.map_cons, List.nodup_cons] at hnodup
    have hx := hnames x (by simp)
    rw [List.zipIdx_cons, List.foldlM_cons]
    rcases replace_file_cases others meter x k hready hx with ⟨message, hrun⟩ | ⟨meter', hrun⟩
    · refine .inl ⟨message, ?_⟩
      rw [carried_bind, hrun]
      rfl
    · rw [carried_bind, hrun]
      simp only [ok_bind]
      rcases ih (k + 1) meter' _ hnodup.2 (fun y hy => hnames y (by simp [hy]))
        (hready.update hx x.data) with ⟨message, hrest⟩ | ⟨meter'', t', hrest, hfiles, hothers⟩
      · exact .inl ⟨message, hrest⟩
      · refine .inr ⟨meter'', t', hrest, ?_, ?_⟩
        · intro y hy
          rcases List.mem_cons.mp hy with rfl | hy
          · -- no later turn has this target
            rw [hothers _ fun z hz heq => ?_, Function.update_self]
            have hz' := hnames z (by simp [hz])
            rw [(target_inj (hplain _ hx) (hplain _ hz')).mp heq] at hnodup
            exact hnodup.1 (List.mem_map_of_mem hz)
          · exact hfiles y hy
        · intro q hq
          rw [hothers q fun z hz => hq z (by simp [hz]), Function.update_of_ne (hq x (by simp))]

end Replacing

/-! ## The targets of a manifest -/

theorem Checks.separate {limits : Limits} {contents : Contents} (h : Checks limits contents)
    (hdot : lit "." ∉ contents.map Prod.fst) : Separate limits contents where
  count := h.count
  size := h.size
  distinct := h.distinct hdot
  below := fun copy _ hc => (h.plain_of hdot hc).below copy
  apart := fun copy c hc d hd hpre => by rw [(h.prefix_iff hdot hc hd copy).mp hpre]
  provisions := h.provisions hdot
  replaces := by
    intro others root bounds meter changes t hnodup hnames hready
    apply replace_files_cases _ changes 0 meter t hnodup hnames hready
    intro name hname
    obtain ⟨c, hc, rfl⟩ := List.mem_map.mp hname
    exact h.plain_of hdot hc

/-- The targets of a manifest that was taken are apart and below the copy, for
every root and in every order, just where no entry is the copy itself. -/
theorem targets_are_separate_iff {data : ByteArray} {limits : Limits} {m : Manifest}
    (h : manifest data limits = .ok m) :
    Separate limits m.contents ↔ lit "." ∉ m.contents.map Prod.fst := by
  constructor
  · intro hseparate hmem
    obtain ⟨c, hc, hname⟩ := List.mem_map.mp hmem
    obtain ⟨rest, hrest, heq, -⟩ := hseparate.below [] c hc
    rw [hname] at heq
    have hparts : parts (lit ".") = [] := by decide
    rw [target, hparts, List.nil_append, List.nil_append] at heq
    exact hrest heq.symm
  · exact fun hdot => (checks_of_manifest h).separate hdot

/-! ## Small manifests -/

/-- A file of these bytes, as a manifest has it. -/
def fileOf (data : ByteArray) : Value :=
  .dict [("bytes", .int data.size), ("executable", .int 0), ("sha256", .str (sha data))]

theorem contentOf_file {digest : Str} {size : Nat} (hhex : hex64 digest) (hsize : size ≤ MAX_BYTES) :
    contentOf (.dict [("bytes", .int size), ("executable", .int 0), ("sha256", .str digest)]) =
      .ok { sha256 := digest, bytes := size, executable := 0 } := by
  have hget : ∀ (v : Value) (k : Str) (w : Value), v.get? k = some w → item v k = .ok w :=
    fun v k w h => lift_eq_ok.mpr (getItem_eq_ok.mpr h)
  have hdigest : hex64Of (.str digest) = .ok digest := by
    show (need (hex64 digest) >>= fun _ => _) = _
    rw [need_eq_ok.mpr hhex]
    rfl
  have hinteger : ∀ n : Nat, n ≤ MAX_BYTES → integerOf (.int n) = .ok n := by
    intro n hn
    have hsmall : (MAX_BYTES : Int) ≤ canon.MAX_SAFE_INTEGER := by decide
    show (need (0 ≤ (n : Int) ∧ integer (n : Int).toNat) >>= fun _ => _) = _
    rw [need_eq_ok.mpr ⟨by omega, by
      simp only [integer, Int.toNat_natCast]
      omega⟩]
    rfl
  unfold contentOf
  rw [needKeys_eq_ok.mpr ⟨rfl, by simp [sameKeys]⟩, ok_bind, hget _ "sha256" (.str digest) rfl, ok_bind,
    hdigest, ok_bind, hget _ "bytes" (.int size) rfl, ok_bind, hinteger size hsize, ok_bind,
    hget _ "executable" (.int 0) rfl, ok_bind, show integerOf (.int 0) = .ok 0 from hinteger 0 (Nat.zero_le _),
    ok_bind, need_eq_ok.mpr ⟨hsize, by decide⟩]
  rfl

theorem entryOf_ok {names : List Str} {name : Str} {v : Value} {content : Content} (hname : plainName name)
    (hcontent : contentOf v = .ok content)
    (hparents : ∀ parent ∈ (parts name).inits.tail.dropLast, relativeText parent ∉ names) :
    entryOf names (name, v) = .ok (name, content) := by
  unfold entryOf
  rw [need_eq_ok.mpr hname, ok_bind, hcontent, ok_bind, need_eq_ok.mpr hparents]
  rfl

/-- An empty file, as a manifest that was written before it has it. -/
def emptyFile : Value :=
  .dict [("bytes", .int 0), ("executable", .int 0), ("sha256", .str zeros)]

def oneEntry (name : Str) : Value := .dict [(name, emptyFile)]

def oneFile : Limits where
  files := 1
  source_bytes := 1
  resources := ⟨1, 1, 1, 1⟩

/-- Two files of one directory. -/
def twoEntries (b c : ByteArray) : Value := .dict [("a/b", fileOf b), ("a/c", fileOf c)]

def twoFiles : Limits where
  files := 2
  source_bytes := 3
  resources := ⟨8, 8, 8, 8⟩

/-- What a manifest of two files says of them. -/
def twoContents (b c : ByteArray) : Contents :=
  [("a/b", { sha256 := sha b, bytes := b.size, executable := 0 }),
   ("a/c", { sha256 := sha c, bytes := c.size, executable := 0 })]

theorem load_entries {members : List (Str × Value)} (hcanonical : (Value.dict members).Canonical)
    (hdepth : (Value.dict members).depth ≤ 64) (hnormal : (Value.dict members).normalize = .dict members) :
    load.load_json_bytes (bytesOf (.dict members)) = .ok (.dict members) := by
  rw [load.load_canonical_bytes hcanonical (bytesOf_eq hcanonical), if_pos hdepth, hnormal]

theorem manifest_twoEntries {b c : ByteArray} (hb : b.size ≤ 1) (hc : c.size ≤ 2) :
    manifest (bytesOf (twoEntries b c)) twoFiles =
      .ok { value := twoEntries b c, contents := twoContents b c } := by
  have hmax : 2 ≤ MAX_BYTES := by decide
  have hload : load.load_json_bytes (bytesOf (twoEntries b c)) = .ok (twoEntries b c) := by
    refine load_entries ?_ ?_ rfl
    · simp [fileOf, Distinct, encodable_sha, Value.SafeInteger]
      omega
    · simp [fileOf, Value.depth, Value.depthMembers]
  have hentries : [(lit "a/b", fileOf b), (lit "a/c", fileOf c)].mapM (entryOf [lit "a/b", lit "a/c"]) =
      .ok (twoContents b c) := by
    have hfirst : entryOf [lit "a/b", lit "a/c"] (lit "a/b", fileOf b) =
        .ok (lit "a/b", { sha256 := sha b, bytes := b.size, executable := 0 }) :=
      entryOf_ok (by decide) (contentOf_file (hex64_sha b) (by omega)) (by decide)
    have hsecond : entryOf [lit "a/b", lit "a/c"] (lit "a/c", fileOf c) =
        .ok (lit "a/c", { sha256 := sha c, bytes := c.size, executable := 0 }) :=
      entryOf_ok (by decide) (contentOf_file (hex64_sha c) (by omega)) (by decide)
    rw [List.mapM_cons, hfirst, ok_bind, List.mapM_cons, hsecond, ok_bind, List.mapM_nil]
    rfl
  unfold manifest
  rw [hload, lift_ok, ok_bind]
  simp only [twoEntries, List.map_cons, List.map_nil, hentries, ok_bind, List.length_cons, List.length_nil]
  rw [need_eq_ok.mpr (by decide), ok_bind, need_eq_ok.mpr (by simp [twoContents, twoFiles]; omega)]
  rfl

/-- A byte in one file and two in the other, in one directory. -/
theorem targets_are_separate_files :
    Separate twoFiles (twoContents ⟨#[120]⟩ ⟨#[121, 122]⟩) :=
  (targets_are_separate_iff (manifest_twoEntries (by decide) (by decide))).mpr (by decide)

theorem contentOf_emptyFile :
    contentOf emptyFile = .ok { sha256 := zeros, bytes := 0, executable := 0 } :=
  contentOf_file hex64_zeros (Nat.zero_le _)

theorem load_oneEntry {name : Str} (h : Encodable name) :
    load.load_json_bytes (bytesOf (oneEntry name)) = .ok (oneEntry name) := by
  refine load_entries ?_ ?_ rfl
  · simp [emptyFile, zeros, Distinct, h, Value.SafeInteger]
  · simp [emptyFile, Value.depth, Value.depthMembers]

/-- A manifest with one entry takes any name that is plain as a path writes it. -/
theorem manifest_oneEntry {name : Str} (hencodable : Encodable name) (hname : plainName name)
    (hparents : ∀ parent ∈ (parts name).inits.tail.dropLast, relativeText parent ∉ [name]) :
    manifest (bytesOf (oneEntry name)) oneFile = .ok
      { value := oneEntry name,
        contents := [(name, { sha256 := zeros, bytes := 0, executable := 0 })] } := by
  have hentry : entryOf [name] (name, emptyFile) =
      .ok (name, { sha256 := zeros, bytes := 0, executable := 0 }) :=
    entryOf_ok hname contentOf_emptyFile hparents
  unfold manifest
  rw [load_oneEntry hencodable, lift_ok, ok_bind]
  have hmap : [(name, emptyFile)].mapM (entryOf [name]) =
      .ok [(name, { sha256 := zeros, bytes := 0, executable := 0 })] := by
    rw [List.mapM_cons, hentry, List.mapM_nil]
    rfl
  simp only [oneEntry, List.map_cons, List.map_nil, hmap, ok_bind]
  rw [need_eq_ok.mpr ⟨Nat.one_pos, le_rfl⟩, ok_bind, need_eq_ok.mpr (by decide), ok_bind]
  rfl

/-- A manifest that names the copy itself is taken, and the target of its entry is
not below the copy. -/
theorem target_of_dot_is_the_copy : ∃ m,
    manifest (bytesOf (oneEntry ".")) oneFile = .ok m ∧
      (lit ".", { sha256 := zeros, bytes := 0, executable := 0 }) ∈ m.contents ∧
      ∀ copy, target copy (lit ".") = copy := by
  refine ⟨_, manifest_oneEntry (encodable_lit ".") (by decide) (by decide), by simp, ?_⟩
  intro copy
  have hparts : parts (lit ".") = [] := by decide
  rw [target, hparts, List.append_nil]

end vfy.service_adoption
