-- The accounts of actions that could not be recorded. Any number of calls keep
-- a receipt under its id: each looks whether one is kept already, stages its
-- bytes in a file that it creates exclusively, and renames that over the path.
-- The handler of a call that is interrupted after its rename removes the name
-- of the staging file, whoever has created it by then.
import VerifyRun.Lib.Staging
import VerifyRun.Pattern
import VerifyRun.Errors

namespace vfy.store.unrecorded

open staging

/-! ## The names -/

def UNRECORDED_SUFFIX : Str := ".unrecorded.json"
def MAX_RECEIPT_BYTES : Nat := 1 <<< 20

/-- `STORABLE_ID`. -/
def STORABLE_ID : Str := "[A-Za-z0-9][A-Za-z0-9._-]\x7b0,127\x7d"

/-- `_check_storable`, of a string. -/
def storable (receipt_id : Str) : Bool :=
  re.fullmatch STORABLE_ID receipt_id = some true && receipt_id ≠ "." && receipt_id ≠ ".."

/-- Where the account of a receipt is kept. -/
def path (receipt_id : Str) : List Str := [lit "tmp", receipt_id ++ UNRECORDED_SUFFIX]

/-- Where it is staged. -/
def staging_path (receipt_id : Str) : List Str :=
  [lit "tmp", receipt_id ++ UNRECORDED_SUFFIX ++ lit ".partial"]

theorem path_injective : Function.Injective path := by
  intro a b h
  simpa [path] using h

theorem path_ne_staging (a b : Str) : path a ≠ staging_path b := by
  intro h
  have hname : a ++ UNRECORDED_SUFFIX = b ++ UNRECORDED_SUFFIX ++ lit ".partial" := by
    simpa [path, staging_path] using h
  have hjson : UNRECORDED_SUFFIX.getLast? = some (.scalar 'n') := by decide
  have hsuffix : (lit ".partial").getLast? = some (.scalar 'l') := by decide
  have hlast := congrArg List.getLast? hname
  rw [List.getLast?_append, List.getLast?_append, hjson, hsuffix] at hlast
  simp at hlast

/-! ## The calls -/

/-- A call of `preserve_unrecorded`: the id of a receipt, and its canonical bytes. -/
structure Call where
  receipt_id : Str
  payload : ByteArray

/-- How far a call is. -/
inductive Point where
  | called
  | checked
  /-- Nothing was at the path. -/
  | absent
  /-- It has created the staging file, and writes it. -/
  | staged
  | written
  /-- The host has raised while the staging file was there. -/
  | failing
  /-- The rename is done, and the `try` block has not been left. -/
  | renamed
  /-- Something was raised after the rename. -/
  | unlinking
  | returned
  /-- The typed failure that was raised, or another exception. -/
  | raised (code : Option Code)
  | crashed
deriving DecidableEq

/-- A call that has a staging file and will go on with it. -/
def Point.Holds : Point → Prop
  | staged | written | failing => True
  | _ => False

instance (p : Point) : Decidable p.Holds := by
  cases p <;> unfold Point.Holds <;> infer_instance

structure System (ι : Type) where
  files : Directory (List Str) ι Node
  point : ι → Point

/-- What a call does next, and how the host answers. -/
inductive Action where
  | check
  | read
  | unreadable
  | create
  | refuse
  | write (count : Nat)
  | finish
  | fail
  | replace
  | leave
  /-- Something is raised after the rename, such as a signal's `KeyboardInterrupt`. -/
  | interrupt
  | remove
  | remove_fails
  | crash
deriving DecidableEq

section Steps

variable {ι : Type} [DecidableEq ι]

def System.at (s : System ι) (i : ι) (p : Point) : System ι :=
  { s with point := Function.update s.point i p }

def System.put (s : System ι) (files : Directory (List Str) ι Node) : System ι :=
  { s with files := files }

/-- What `read_store_file` finds at the path, and what the call makes of it. -/
def reading (payload : ByteArray) : Option Node → Point
  | none => .absent
  | some (.file bytes) =>
    if MAX_RECEIPT_BYTES < bytes.size then .raised (some .store_artifact_noncanonical)
    else if bytes = payload then .returned
    else .raised (some .store_record_conflict)
  | some _ => .raised (some .store_path_invalid)

/-- One step of a call, where it is possible. -/
def step (calls : ι → Call) (s : System ι) (a : ι × Action) : Option (System ι) :=
  let i := a.1
  let target := path (calls i).receipt_id
  let staging := staging_path (calls i).receipt_id
  match a.2, s.point i with
  | .check, .called =>
    if storable (calls i).receipt_id then some (s.at i .checked)
    else some (s.at i (.raised (some .store_path_invalid)))
  | .read, .checked => some (s.at i (reading (calls i).payload ((s.files target).map File.content)))
  | .unreadable, .checked => some (s.at i (.raised (some .store_path_invalid)))
  | .create, .absent =>
    match s.files staging with
    -- exclusive creation refuses anything that is there already
    | some _ => some (s.at i (.raised (some .store_commit_conflict)))
    | none => some ((s.at i .staged).put (create s.files staging i (.file .empty)))
  | .refuse, .absent => some (s.at i (.raised (some .store_commit_conflict)))
  | .write count, .staged =>
    some (s.put (rewrite s.files staging (some i) (.file ((calls i).payload.extract 0 count))))
  | .finish, .staged =>
    some ((s.at i .written).put (rewrite s.files staging (some i) (.file (calls i).payload)))
  | .fail, .staged | .fail, .written => some (s.at i .failing)
  | .replace, .written =>
    match s.files staging, s.files target with
    | none, _ | _, some ⟨_, .directory⟩ => some (s.at i .failing)
    | some _, _ => some ((s.at i .renamed).put (rename s.files staging target))
  | .leave, .renamed => some (s.at i .returned)
  | .interrupt, .renamed => some (s.at i .unlinking)
  | .remove, .failing =>
    some ((s.at i (.raised (some .store_commit_conflict))).put (remove s.files staging))
  -- `except BaseException`: whatever is at the name is removed
  | .remove, .unlinking => some ((s.at i (.raised none)).put (remove s.files staging))
  | .remove_fails, .failing | .remove_fails, .unlinking => some (s.at i (.raised none))
  | .crash, _ => some (s.at i .crashed)
  | _, _ => none

end Steps

/-! ## What a step can do -/

/-- What is at a name, whoever put it there. -/
def At {ι : Type} (files : Directory (List Str) ι Node) (name : List Str) (node : Node) : Prop :=
  ∃ f, files name = some f ∧ f.content = node

section Turns

variable {ι : Type} {calls : ι → Call}

/-- Where a step takes its call, and what the files are then. -/
inductive Turn (calls : ι → Call) (s : System ι) (i : ι) :
    Action → Point → Directory (List Str) ι Node → Prop where
  /-- No file changes. -/
  | quiet (a : Action) (p : Point) : (p.Holds → (s.point i).Holds) → p ≠ .written →
      (p = .returned → s.point i = .renamed ∨
        At s.files (path (calls i).receipt_id) (.file (calls i).payload)) →
      (p = .unlinking → a = .interrupt) → p ≠ .renamed → Turn calls s i a p s.files
  | create : s.point i = .absent → s.files (staging_path (calls i).receipt_id) = none →
      Turn calls s i .create .staged
        (create s.files (staging_path (calls i).receipt_id) i (.file .empty))
  | write (a : Action) (p : Point) (bytes : ByteArray) : s.point i = .staged →
      (p = .staged ∨ p = .written ∧ bytes = (calls i).payload) →
      Turn calls s i a p (write s.files (staging_path (calls i).receipt_id) i (.file bytes))
  | replace : s.point i = .written → Turn calls s i .replace .renamed
      (rename s.files (staging_path (calls i).receipt_id) (path (calls i).receipt_id))
  | remove (code : Option Code) : s.point i = .failing →
      Turn calls s i .remove (.raised code) (remove s.files (staging_path (calls i).receipt_id))

/-! ## What holds where no account is staged over another one -/

/-- The staging file that each call holds. -/
def System.hold (calls : ι → Call) (s : System ι) (i : ι) : Option (List Str) :=
  if (s.point i).Holds then some (staging_path (calls i).receipt_id) else none

/-- A staging file is created only while no other account is kept at the path, an
account that is read is no larger than a receipt may be, and nothing is raised
after a rename. -/
structure Clean (calls : ι → Call) (s : System ι) (a : ι × Action) : Prop where
  create : a.2 = .create → s.point a.1 = .absent →
    s.files (staging_path (calls a.1).receipt_id) = none →
      s.files (path (calls a.1).receipt_id) = none ∨
        At s.files (path (calls a.1).receipt_id) (.file (calls a.1).payload)
  read : a.2 = .read → ∀ bytes, At s.files (path (calls a.1).receipt_id) (.file bytes) →
    bytes.size ≤ MAX_RECEIPT_BYTES
  interrupt : a.2 ≠ .interrupt

structure Good (calls : ι → Call) (s : System ι) : Prop where
  held : Held (s.hold calls) s.files
  written : ∀ i, s.point i = .written → s.files (staging_path (calls i).receipt_id) =
    some { owner := some i, content := .file (calls i).payload }
  /-- While a call holds its staging file no other account comes to the path. -/
  clear : ∀ i, (s.point i).Holds → s.files (path (calls i).receipt_id) = none ∨
    At s.files (path (calls i).receipt_id) (.file (calls i).payload)
  returned : ∀ i, s.point i = .returned ∨ s.point i = .renamed →
    At s.files (path (calls i).receipt_id) (.file (calls i).payload)
  quiet : ∀ i, s.point i ≠ .unlinking

variable {s : System ι} {i j : ι} {a : Action} {p : Point} {files : Directory (List Str) ι Node}

theorem Good.hold (h : Good calls s) (hi : (s.point i).Holds) :
    Owns s.files i (staging_path (calls i).receipt_id) := h.held i _ (by simp [System.hold, hi])

/-- Two calls for one receipt id do not both hold its staging file. -/
theorem Good.alone (h : Good calls s) (hi : (s.point i).Holds) (hj : (s.point j).Holds)
    (hid : (calls j).receipt_id = (calls i).receipt_id) : j = i :=
  (hid ▸ h.hold hj).unique (h.hold hi)

theorem At.unique {name : List Str} {m n : Node} (hm : At files name m) (hn : At files name n) :
    m = n := by
  obtain ⟨f, hf, rfl⟩ := hm
  obtain ⟨g, hg, rfl⟩ := hn
  obtain rfl := Option.some.inj (hf.symm.trans hg)
  rfl

/-- Only a rename changes what is kept at a path. -/
theorem Turn.at_path (h : Turn calls s i a p files) (id : Str) :
    files (path id) = s.files (path id) ∨ s.point i = .written ∧ p = .renamed ∧
      id = (calls i).receipt_id ∧
      files (path id) = s.files (staging_path (calls i).receipt_id) := by
  have hne := path_ne_staging id (calls i).receipt_id
  cases h with
  | quiet => exact .inl rfl
  | create => exact .inl (Function.update_of_ne hne _ _)
  | write => exact .inl (Function.update_of_ne hne _ _)
  | replace hp =>
    by_cases hid : id = (calls i).receipt_id
    · subst hid
      exact .inr ⟨hp, rfl, rfl, by rw [rename, Function.update_of_ne hne, Function.update_self]⟩
    · refine .inl ?_
      rw [rename, Function.update_of_ne hne,
        Function.update_of_ne fun heq => hid (path_injective heq)]
  | remove => exact .inl (Function.update_of_ne hne _ _)

/-- An account that is kept stays as it is. -/
theorem Turn.keeps (h : Turn calls s i a p files) (hgood : Good calls s) {id : Str} {node : Node}
    (hat : At s.files (path id) node) : At files (path id) node := by
  rcases h.at_path id with hsame | ⟨hp, -, rfl, hmoved⟩
  · obtain ⟨f, hf, hnode⟩ := hat
    exact ⟨f, hsame.trans hf, hnode⟩
  · rcases hgood.clear i (by rw [hp]; trivial) with hnone | hown
    · obtain ⟨f, hf, -⟩ := hat
      rw [hnone] at hf
      cases hf
    · obtain rfl := hat.unique hown
      exact ⟨_, hmoved.trans (hgood.written i hp), rfl⟩

/-- What another call has staged stays as it is. -/
theorem Turn.others (h : Turn calls s i a p files) (hgood : Good calls s) (hj : j ≠ i)
    (hown : Owns s.files j (staging_path (calls j).receipt_id)) :
    files (staging_path (calls j).receipt_id) = s.files (staging_path (calls j).receipt_id) := by
  have hne : (s.point i).Holds →
      staging_path (calls j).receipt_id ≠ staging_path (calls i).receipt_id := by
    intro hp heq
    rw [heq] at hown
    exact hj (hown.unique (hgood.hold hp))
  cases h with
  | quiet => rfl
  | create _ hnone =>
    apply Function.update_of_ne
    intro heq
    obtain ⟨f, hf, -⟩ := hown
    rw [heq, hnone] at hf
    cases hf
  | write _ _ _ hp => exact Function.update_of_ne (hne (by rw [hp]; trivial)) _ _
  | replace hp =>
    rw [rename, Function.update_of_ne (hne (by rw [hp]; trivial)),
      Function.update_of_ne (path_ne_staging _ _).symm]
  | remove _ hp => exact Function.update_of_ne (hne (by rw [hp]; trivial)) _ _

theorem Turn.written (h : Turn calls s i a p files) (hgood : Good calls s) (hp : p = .written) :
    files (staging_path (calls i).receipt_id) =
      some { owner := some i, content := .file (calls i).payload } := by
  cases h with
  | quiet _ _ _ hquiet => exact absurd hp hquiet
  | write _ _ bytes hstaged hwritten =>
    rcases hwritten with hsame | ⟨-, rfl⟩
    · rw [hsame] at hp
      cases hp
    · obtain ⟨f, hf, hi⟩ := hgood.hold (i := i) (by rw [hstaged]; trivial)
      simp [staging.write, hf, hi]
  | create => cases hp
  | replace => cases hp
  | remove => cases hp

/-- A call that has the staging file after its turn finds no other account. -/
theorem Turn.clear (h : Turn calls s i a p files) (hgood : Good calls s)
    (hclean : Clean calls s (i, a)) (hp : p.Holds) :
    files (path (calls i).receipt_id) = none ∨
      At files (path (calls i).receipt_id) (.file (calls i).payload) := by
  have hbefore : s.files (path (calls i).receipt_id) = none ∨
      At s.files (path (calls i).receipt_id) (.file (calls i).payload) := by
    cases h with
    | quiet _ _ hkeep => exact hgood.clear i (hkeep hp)
    | create habsent hnone => exact hclean.create rfl habsent hnone
    | write _ _ _ hstaged => exact hgood.clear i (by rw [hstaged]; trivial)
    | replace => exact absurd hp (by simp [Point.Holds])
    | remove => exact absurd hp (by simp [Point.Holds])
  rcases hbefore with hnone | hown
  · rcases h.at_path (calls i).receipt_id with hsame | ⟨-, hrenamed, -⟩
    · exact .inl (hsame.trans hnone)
    · rw [hrenamed] at hp
      exact absurd hp (by simp [Point.Holds])
  · exact .inr (h.keeps hgood hown)

/-- A call that has renamed its staging file has its own account at the path. -/
theorem Turn.returned (h : Turn calls s i a p files) (hgood : Good calls s)
    (hp : p = .returned ∨ p = .renamed) :
    At files (path (calls i).receipt_id) (.file (calls i).payload) := by
  cases h with
  | quiet _ _ _ _ hread _ hnot =>
    rcases hp with hp | hp
    · rcases hread hp with hrenamed | hat
      · exact hgood.returned i (.inr hrenamed)
      · exact hat
    · exact absurd hp hnot
  | create => simp at hp
  | write _ _ _ _ hwritten =>
    rcases hwritten with hsame | ⟨hsame, -⟩ <;> simp [hsame] at hp
  | replace hwritten =>
    refine ⟨{ owner := some i, content := .file (calls i).payload }, ?_, rfl⟩
    rw [rename, Function.update_of_ne (path_ne_staging _ _), Function.update_self]
    exact hgood.written i hwritten
  | remove => simp at hp

theorem Turn.not_unlinking (h : Turn calls s i a p files) (hclean : Clean calls s (i, a)) :
    p ≠ .unlinking := by
  cases h with
  | quiet _ _ _ _ _ hunlinking _ => exact fun hp => hclean.interrupt (hunlinking hp)
  | write _ _ _ _ hwritten => rcases hwritten with rfl | ⟨rfl, -⟩ <;> simp
  | create | replace | remove => simp

/-- The store before any of the calls. -/
def start (contents : List Str → Option Node) : System ι where
  files := before contents
  point _ := .called

theorem good_start (contents : List Str → Option Node) : Good calls (start contents) where
  held i k h := by cases h
  written i h := by cases h
  clear i h := h.elim
  returned i h := by simp [start] at h
  quiet i := by simp [start]

variable [DecidableEq ι]

theorem held_turn (h : Turn calls s i a p files) (hgood : Good calls s) :
    Held (System.hold calls { files := files, point := Function.update s.point i p }) files := by
  have hother : ∀ j, j ≠ i → System.hold calls
      { files := files, point := Function.update s.point i p } j = s.hold calls j := by
    intro j hj
    simp [System.hold, hj]
  cases h with
  | quiet _ _ hkeep =>
    by_cases hp : p.Holds
    · exact hgood.held.keep (by simp [System.hold, hp, hkeep hp]) hother
    · exact hgood.held.release (by simp [System.hold, hp]) hother
  | create hp hnone => exact hgood.held.create hnone (by simp [System.hold, Point.Holds]) hother
  | write _ _ bytes hp hwritten =>
    apply Held.write
    refine hgood.held.keep ?_ hother
    rcases hwritten with rfl | ⟨rfl, -⟩ <;> simp [System.hold, hp, Point.Holds]
  | replace hp =>
    refine hgood.held.rename (i := i) (by simp [System.hold, hp, Point.Holds])
      (by simp [System.hold, Point.Holds]) hother fun j hj => ?_
    unfold System.hold at hj
    split at hj
    · exact path_ne_staging _ _ (Option.some.inj hj).symm
    · cases hj
  | remove _ hp =>
    exact hgood.held.remove (by simp [System.hold, hp, Point.Holds])
      (by simp [System.hold, Point.Holds]) hother

theorem good_turn (h : Turn calls s i a p files) (hgood : Good calls s)
    (hclean : Clean calls s (i, a)) :
    Good calls { files := files, point := Function.update s.point i p } := by
  refine ⟨held_turn h hgood, ?_, ?_, ?_, ?_⟩
  · intro j hj
    by_cases hij : j = i
    · subst hij
      exact h.written hgood (by simpa using hj)
    · have hj : s.point j = .written := by simpa [hij] using hj
      exact (h.others hgood hij (hgood.hold (by rw [hj]; trivial))).trans (hgood.written j hj)
  · intro j hj
    by_cases hij : j = i
    · subst hij
      exact h.clear hgood hclean (by simpa using hj)
    · have hj : (s.point j).Holds := by simpa [hij] using hj
      rcases hgood.clear j hj with hnone | hown
      · rcases h.at_path (calls j).receipt_id with hsame | ⟨hp, -, hid, -⟩
        · exact .inl (hsame.trans hnone)
        · exact absurd (hgood.alone (by rw [hp]; trivial) hj hid) hij
      · exact .inr (h.keeps hgood hown)
  · intro j hj
    by_cases hij : j = i
    · subst hij
      exact h.returned hgood (by simpa using hj)
    · exact h.keeps hgood (hgood.returned j (by simpa [hij] using hj))
  · intro j
    by_cases hij : j = i
    · subst hij
      simpa using h.not_unlinking hclean
    · simpa [hij] using hgood.quiet j

theorem reading_returned {payload : ByteArray} {node : Option Node}
    (h : reading payload node = .returned) : node = some (.file payload) := by
  unfold reading at h
  split at h
  · cases h
  · split at h
    · cases h
    · split at h
      · rename_i hsame
        rw [hsame]
      · cases h
  · cases h

theorem reading_cases (payload : ByteArray) (node : Option Node) :
    reading payload node = .absent ∨ reading payload node = .returned ∨
      ∃ code, reading payload node = .raised code := by
  unfold reading
  split
  · exact .inl rfl
  · split
    · exact .inr (.inr ⟨_, rfl⟩)
    · split
      · exact .inr (.inl rfl)
      · exact .inr (.inr ⟨_, rfl⟩)
  · exact .inr (.inr ⟨_, rfl⟩)

theorem not_holds_reading (payload : ByteArray) (node : Option Node) :
    ¬ (reading payload node).Holds := by
  rcases reading_cases payload node with h | h | ⟨code, h⟩ <;> simp [h, Point.Holds]

theorem step_turn {s' : System ι} (hgood : Good calls s) (h : step calls s (i, a) = some s') :
    ∃ p files, Turn calls s i a p files ∧
      s' = { files := files, point := Function.update s.point i p } := by
  unfold step at h
  dsimp only at h
  split at h
  case h_1 =>
    split at h
    all_goals
      cases h
      exact ⟨_, _, .quiet _ _ (by simp [Point.Holds]) (by simp) (by simp) (by simp) (by simp), rfl⟩
  case h_2 =>
    cases h
    have hnot := reading_cases (calls i).payload
      ((s.files (path (calls i).receipt_id)).map File.content)
    refine ⟨_, _, .quiet _ _ (fun hp => absurd hp (not_holds_reading _ _)) ?_ ?_ ?_ ?_, rfl⟩
    · rcases hnot with hp | hp | ⟨code, hp⟩ <;> simp [hp]
    · intro hp
      obtain ⟨f, hf, hcontent⟩ := Option.map_eq_some_iff.mp (reading_returned hp)
      exact .inr ⟨f, hf, hcontent⟩
    · rcases hnot with hp | hp | ⟨code, hp⟩ <;> simp [hp]
    · rcases hnot with hp | hp | ⟨code, hp⟩ <;> simp [hp]
  case h_4 hp =>
    split at h
    · cases h
      exact ⟨_, _, .quiet _ _ (by simp [Point.Holds]) (by simp) (by simp) (by simp) (by simp), rfl⟩
    · rename_i hnone
      cases h
      exact ⟨_, _, .create hp hnone, rfl⟩
  case h_6 count hp =>
    have hown := hgood.hold (i := i) (by rw [hp]; trivial)
    cases h
    refine ⟨_, _, .write _ .staged ((calls i).payload.extract 0 count) hp (.inl rfl), ?_⟩
    simp [System.put, hp.symm, rewrite_of_owns hown]
  case h_7 hp =>
    have hown := hgood.hold (i := i) (by rw [hp]; trivial)
    cases h
    refine ⟨_, _, .write _ .written _ hp (.inr ⟨rfl, rfl⟩), ?_⟩
    rw [System.put, rewrite_of_owns hown, System.at]
  case h_8 hp =>
    cases h
    exact ⟨_, _, .quiet _ _ (by simp [hp, Point.Holds]) (by simp) (by simp) (by simp) (by simp), rfl⟩
  case h_9 hp =>
    cases h
    exact ⟨_, _, .quiet _ _ (by simp [hp, Point.Holds]) (by simp) (by simp) (by simp) (by simp), rfl⟩
  case h_10 hp =>
    split at h
    · cases h
      exact ⟨_, _, .quiet _ _ (by simp [hp, Point.Holds]) (by simp) (by simp) (by simp) (by simp), rfl⟩
    · cases h
      exact ⟨_, _, .quiet _ _ (by simp [hp, Point.Holds]) (by simp) (by simp) (by simp) (by simp), rfl⟩
    · cases h
      exact ⟨_, _, .replace hp, rfl⟩
  case h_11 hp =>
    cases h
    exact ⟨_, _, .quiet _ _ (by simp [Point.Holds]) (by simp) (fun _ => .inl hp) (by simp) (by simp), rfl⟩
  case h_13 hp =>
    cases h
    exact ⟨_, _, .remove _ hp, rfl⟩
  case h_14 hp => exact absurd hp (hgood.quiet i)
  case h_18 => cases h
  all_goals
    cases h
    exact ⟨_, _, .quiet _ _ (by simp [Point.Holds]) (by simp) (by simp) (by simp) (by simp), rfl⟩

/-! ## Every run -/

theorem good_step {s' : System ι} (hgood : Good calls s) {a : ι × Action} (hclean : Clean calls s a)
    (h : step calls s a = some s') : Good calls s' := by
  obtain ⟨i, a⟩ := a
  obtain ⟨p, files, hturn, rfl⟩ := step_turn hgood h
  exact good_turn hturn hgood hclean

theorem good_run {s t : System ι} (hgood : Good calls s) {actions : List (ι × Action)}
    (hclean : Along (step calls) (Clean calls) s actions) (h : run (step calls) s actions = some t) :
    Good calls t :=
  run_invariant (fun _ _ _ hgood hclean hstep => good_step hgood hclean hstep) hgood hclean h

theorem kept_run {s t : System ι} (hgood : Good calls s) {actions : List (ι × Action)}
    (hclean : Along (step calls) (Clean calls) s actions) (h : run (step calls) s actions = some t)
    {id : Str} {node : Node} (hat : At s.files (path id) node) : At t.files (path id) node := by
  have hboth : Good calls t ∧ At t.files (path id) node := by
    refine run_invariant (P := fun s => Good calls s ∧ At s.files (path id) node) ?_ ⟨hgood, hat⟩
      hclean h
    rintro u ⟨i, a⟩ u' ⟨hgood, hat⟩ hclean hstep
    refine ⟨good_step hgood hclean hstep, ?_⟩
    obtain ⟨p, files, hturn, rfl⟩ := step_turn hgood hstep
    exact hturn.keeps hgood hat
  exact hboth.2

theorem step_read {s' : System ι} (h : step calls s (i, .read) = some s') : s' = s.at i
    (reading (calls i).payload ((s.files (path (calls i).receipt_id)).map File.content)) := by
  cases hp : s.point i <;> simp [step, hp] at h
  exact h.symm

/-- In every run whose steps are clean: what is kept stays, a call that goes on to
read another account raises a conflict, and every call that has returned has its
own account at the path. -/
theorem accounts_are_kept (calls : ι → Call) (contents : List Str → Option Node)
    {actions more : List (ι × Action)} {s t : System ι}
    (hs : run (step calls) (start contents) actions = some s) (ht : run (step calls) s more = some t)
    (hclean : Along (step calls) (Clean calls) (start contents) (actions ++ more)) :
    (∀ id node, At s.files (path id) node → At t.files (path id) node) ∧
    (∀ i rest bytes, more = (i, .read) :: rest → At s.files (path (calls i).receipt_id) (.file bytes) →
      bytes ≠ (calls i).payload →
      ∃ s', step calls s (i, .read) = some s' ∧ s'.point i = .raised (some .store_record_conflict)) ∧
    ∀ i, t.point i = .returned →
      At t.files (path (calls i).receipt_id) (.file (calls i).payload) := by
  obtain ⟨hfirst, hrest⟩ := along_append.mp hclean
  have hgood := good_run (good_start contents) hfirst hs
  refine ⟨fun id node hat => kept_run hgood (hrest s hs) ht hat, ?_,
    fun i hi => (good_run hgood (hrest s hs) ht).returned i (.inl hi)⟩
  rintro i rest bytes rfl hat hne
  obtain ⟨s', hstep, -⟩ := run_cons.mp ht
  have hsize := (hrest s hs).1.read rfl bytes hat
  obtain ⟨f, hf, hcontent⟩ := hat
  have hread : reading (calls i).payload
      ((s.files (path (calls i).receipt_id)).map File.content) =
      .raised (some .store_record_conflict) := by
    rw [hf, Option.map_some, hcontent, reading, if_neg (by omega), if_neg hne]
  refine ⟨s', hstep, ?_⟩
  rw [step_read hstep, hread]
  simp [System.at]

/-- A call that has found nothing at the path replaces whatever is kept there by
the time it has its staging file. -/
theorem account_is_replaced {bytes : ByteArray} (hi : s.point i = .absent)
    (hfree : s.files (staging_path (calls i).receipt_id) = none)
    (hat : At s.files (path (calls i).receipt_id) (.file bytes)) :
    ∃ t, run (step calls) s [(i, .create), (i, .finish), (i, .replace), (i, .leave)] = some t ∧
      t.point i = .returned ∧
      At t.files (path (calls i).receipt_id) (.file (calls i).payload) := by
  obtain ⟨⟨owner, _⟩, hf, rfl⟩ := hat
  have hne := path_ne_staging (calls i).receipt_id (calls i).receipt_id
  let created := (s.at i .staged).put
    (create s.files (staging_path (calls i).receipt_id) i (.file .empty))
  let finished := (created.at i .written).put
    (rewrite created.files (staging_path (calls i).receipt_id) (some i) (.file (calls i).payload))
  let renamed := (finished.at i .renamed).put
    (rename finished.files (staging_path (calls i).receipt_id) (path (calls i).receipt_id))
  have hcreate : step calls s (i, .create) = some created := by
    simp [step, hi, hfree, created]
  have hfinish : step calls created (i, .finish) = some finished := by
    simp [step, finished, created, System.at, System.put]
  have hstaged : finished.files (staging_path (calls i).receipt_id) =
      some { owner := some i, content := .file (calls i).payload } := by
    simp [finished, created, System.put, create, rewrite]
  have hkept : finished.files (path (calls i).receipt_id) =
      some { owner := owner, content := .file bytes } := by
    simp [finished, created, System.put, create, rewrite, hne, hf]
  have hreplace : step calls finished (i, .replace) = some renamed := by
    have hpoint : finished.point i = .written := by simp [finished, System.at, System.put]
    simp [step, hpoint, hstaged, hkept, renamed]
  have hleave : step calls renamed (i, .leave) = some (renamed.at i .returned) := by
    have hpoint : renamed.point i = .renamed := by simp [renamed, System.at, System.put]
    simp [step, hpoint]
  refine ⟨_, run_cons.mpr ⟨_, hcreate, run_cons.mpr ⟨_, hfinish, run_cons.mpr ⟨_, hreplace,
    run_cons.mpr ⟨_, hleave, rfl⟩⟩⟩⟩, by simp [System.at],
    { owner := some i, content := .file (calls i).payload }, ?_, rfl⟩
  show rename finished.files _ _ (path (calls i).receipt_id) = _
  rw [rename, Function.update_of_ne hne, Function.update_self, hstaged]

end Turns

/-! ## Two calls for one receipt id -/

def twoReceipts (i : Bool) : Call where
  receipt_id := "r"
  payload := if i then ⟨#[1]⟩ else ⟨#[2]⟩

/-- Both calls find nothing at the path; one of them keeps its account. -/
def firstKept : List (Bool × Action) :=
  [(true, .check), (false, .check), (true, .read), (false, .read), (true, .create), (true, .finish),
   (true, .replace), (true, .leave)]

/-- The other one goes on. -/
def thenReplaced : List (Bool × Action) :=
  [(false, .create), (false, .finish), (false, .replace), (false, .leave)]

/-- An account that was kept is replaced by another one under its id, and both calls
have returned. -/
theorem account_is_lost : ∃ s t : System Bool,
    run (step twoReceipts) (start fun _ => none) firstKept = some s ∧
    run (step twoReceipts) s thenReplaced = some t ∧
    s.point true = .returned ∧ At s.files (path "r") (.file ⟨#[1]⟩) ∧
    t.point false = .returned ∧ At t.files (path "r") (.file ⟨#[2]⟩) := by
  have hrun : ((run (step twoReceipts) (start fun _ => none) firstKept).map fun s => (s.point true,
      s.point false, (s.files (path "r")).map File.content, s.files (staging_path "r"))) =
      some (.returned, .absent, some (.file ⟨#[1]⟩), none) := by
    decide +kernel
  obtain ⟨s, hs, hend⟩ := Option.map_eq_some_iff.mp hrun
  simp only [Prod.mk.injEq] at hend
  obtain ⟨hreturned, habsent, hkept, hfree⟩ := hend
  have hat : At s.files (path "r") (.file ⟨#[1]⟩) := Option.map_eq_some_iff.mp hkept
  obtain ⟨t, ht, hpoint, hreplaced⟩ := @account_is_replaced Bool twoReceipts s false _ _ habsent hfree hat
  exact ⟨s, t, hs, ht, hreturned, hat, hpoint, hreplaced⟩

/-- The other call reads after the first one has kept its account. -/
def looked : List (Bool × Action) := [(true, .check), (true, .read)]

def kept : List (Bool × Action) :=
  [(true, .create), (true, .write 0), (true, .finish), (true, .replace), (true, .leave), (false, .check)]

theorem clean_inTurn : Along (step twoReceipts) (Clean twoReceipts) (start fun _ => none)
    (looked ++ kept ++ [(false, .read)]) := by
  have hquiet : ∀ actions : List (Bool × Action),
      (∀ a ∈ actions, a.2 ≠ .create ∧ a.2 ≠ .read ∧ a.2 ≠ .interrupt) → ∀ s,
      Along (step twoReceipts) (Clean twoReceipts) s actions := fun actions h =>
    along_of_forall fun a ha s => ⟨fun hc => absurd hc (h a ha).1, fun hr => absurd hr (h a ha).2.1,
      (h a ha).2.2⟩
  refine along_append.mpr ⟨along_append.mpr ⟨?_, fun s hs => ⟨?_, fun t _ => ?_⟩⟩, fun u hu => ?_⟩
  · have happend : looked = [(true, .check)] ++ [(true, .read)] := rfl
    refine happend ▸ along_append.mpr
      ⟨hquiet _ (by simp) _, fun s hs => ⟨⟨by simp, fun _ bytes hat => ?_, by simp⟩, fun _ _ => trivial⟩⟩
    have hnone : ((run (step twoReceipts) (start fun _ => none) [(true, .check)]).map fun s =>
        s.files (path "r")) = some none := by decide +kernel
    obtain ⟨s', hs', hpath⟩ := Option.map_eq_some_iff.mp hnone
    obtain rfl := Option.some.inj (hs.symm.trans hs')
    obtain ⟨f, hf, -⟩ := hat
    cases hf.symm.trans hpath
  · have hnone : ((run (step twoReceipts) (start fun _ => none) looked).map fun s =>
        s.files (path "r")) = some none := by decide +kernel
    obtain ⟨s', hs', hpath⟩ := Option.map_eq_some_iff.mp hnone
    obtain rfl := Option.some.inj (hs.symm.trans hs')
    exact ⟨fun _ _ _ => .inl hpath, by simp, by simp⟩
  · exact hquiet _ (by simp) _
  · have hfile : ((run (step twoReceipts) (start fun _ => none) (looked ++ kept)).map fun s =>
        (s.files (path "r")).map File.content) = some (some (.file ⟨#[1]⟩)) := by decide +kernel
    obtain ⟨s', hs', hpath⟩ := Option.map_eq_some_iff.mp hfile
    obtain rfl := Option.some.inj (hu.symm.trans hs')
    refine ⟨⟨by simp, fun _ bytes hat => ?_, by simp⟩, fun _ _ => trivial⟩
    obtain ⟨f, hf, hcontent⟩ := Option.map_eq_some_iff.mp hpath
    obtain rfl : bytes = ⟨#[1]⟩ := Node.file.inj (hat.unique ⟨f, hf, hcontent⟩)
    decide

theorem accounts_are_kept_small : ∃ s t : System Bool,
    run (step twoReceipts) (start fun _ => none) (looked ++ kept) = some s ∧
    run (step twoReceipts) s [(false, .read)] = some t ∧
    t.point false = .raised (some .store_record_conflict) ∧
    At t.files (path "r") (.file ⟨#[1]⟩) := by
  have hrun : ((run (step twoReceipts) (start fun _ => none) (looked ++ kept)).map fun s =>
      (s.point false, (s.files (path "r")).map File.content)) =
      some (.checked, some (.file ⟨#[1]⟩)) := by
    decide +kernel
  obtain ⟨s, hs, hend⟩ := Option.map_eq_some_iff.mp hrun
  simp only [Prod.mk.injEq] at hend
  obtain ⟨hchecked, hkept⟩ := hend
  have hat : At s.files (path "r") (.file ⟨#[1]⟩) := Option.map_eq_some_iff.mp hkept
  obtain ⟨t, ht⟩ : ∃ t, step twoReceipts s (false, .read) = some t := by simp [step, hchecked]
  have hread : run (step twoReceipts) s [(false, .read)] = some t := run_cons.mpr ⟨t, ht, rfl⟩
  obtain ⟨hstays, hconflict, -⟩ := accounts_are_kept twoReceipts (fun _ => none) hs hread clean_inTurn
  obtain ⟨t', ht', hraised⟩ := hconflict false [] ⟨#[1]⟩ rfl hat (by decide)
  obtain rfl := Option.some.inj (ht.symm.trans ht')
  exact ⟨s, t, hs, hread, hraised, hstays "r" _ hat⟩

end vfy.store.unrecorded
