-- The index of the store, which any number of writers publish at once. Each
-- stages its document in a slot that it created, and renames it over the index;
-- the name of the slot is free again from then on. Where something is raised
-- after that, the handler removes what is at the name by then.
import VerifyRun.Lib.Staging
import VerifyRun.RoundTrip

namespace vfy.store.index

open python keys outcomes staging

/-! ## The document -/

def STORE_FORMAT_VERSION : Int := 1
def MAX_INDEX_SLOTS : Nat := 64

/-- `ReceiptSummary`. -/
structure ReceiptSummary where
  receipt_id : Str
  created_at : Str
  outcome : Str
  rulebook_id : Str
  rulebook_version : Str
  authorization_id : Option Str
  key_id : Str

def ReceiptSummary.value (s : ReceiptSummary) : Value := .dict
  [("receipt_id", .str s.receipt_id), ("created_at", .str s.created_at), ("outcome", .str s.outcome),
   ("rulebook_id", .str s.rulebook_id), ("rulebook_version", .str s.rulebook_version),
   ("authorization_id", (s.authorization_id.map .str).getD .null), ("key_id", .str s.key_id)]

/-- The document of `_write_index`. -/
def index_document (summaries : List ReceiptSummary) : Value := .dict
  [("store_format_version", .int STORE_FORMAT_VERSION),
   ("receipts", .list (summaries.map ReceiptSummary.value))]

/-! ## The names -/

def INDEX : List Str := ["index.json"]

/-- `"index.%d.staging" % slot`. -/
def slot_name (slot : Nat) : Str := lit "index." ++ ofText (canon.decimal slot) ++ lit ".staging"

def staging_slot (slot : Nat) : List Str := [lit "tmp", slot_name slot]

theorem slot_ne_index (slot : Nat) : staging_slot slot ≠ INDEX := by
  simp [staging_slot, INDEX]

theorem slot_injective : Function.Injective staging_slot := by
  intro m n h
  have hname : slot_name m = slot_name n := by simpa [staging_slot] using h
  have hdigits : ofText (Nat.toDigits 10 m) = ofText (Nat.toDigits 10 n) := by
    simpa [slot_name, canon.decimal] using hname
  have htext : Nat.toDigits 10 m = Nat.toDigits 10 n :=
    List.map_injective_iff.mpr (fun _ _ h => CodePoint.scalar.inj h) hdigits
  rw [← Nat.ofDigitChars_ten_toDigits (n := m), htext, Nat.ofDigitChars_ten_toDigits]

/-! ## The writers -/

/-- How far a writer of the index is. -/
inductive Point (ι : Type) where
  | called
  /-- It tries this slot next. -/
  | probing (slot : Nat)
  /-- It has created the slot, and not closed it. -/
  | created (slot : Nat)
  /-- `_index_staging_slot` has returned. -/
  | staged (slot : Nat)
  /-- It has opened what is at the name of the slot, which this writer created. -/
  | writing (slot : Nat) (payload : ByteArray) (creator : Option ι)
  | written (slot : Nat) (payload : ByteArray)
  /-- Something was raised while it held the slot. -/
  | failing (slot : Nat)
  /-- The rename is done, and the `try` block has not been left. -/
  | renamed (slot : Nat)
  /-- Something was raised after the rename. -/
  | unlinking (slot : Nat)
  | published
  | failed
  /-- Closing the new slot or removing it raised as well: the slot is left. -/
  | stranded (slot : Nat)
  | crashed
deriving DecidableEq

/-- The slot that a live writer holds. -/
def Point.slot? {ι : Type} : Point ι → Option Nat
  | created slot | staged slot | writing slot _ _ | written slot _ | failing slot => some slot
  | _ => none

/-- The files of the store, and how far each writer is. -/
structure System (ι : Type) where
  files : Directory (List Str) ι Node
  point : ι → Point ι

/-- What a writer does next, and how the host answers. -/
inductive Action where
  | check
  | create
  | refuse
  | close
  | close_fails
  | encode
  | write (count : Nat)
  | finish
  | fail
  | replace
  | leave
  /-- Something is raised after the rename, such as a signal's `KeyboardInterrupt`. -/
  | interrupt
  | remove
  | remove_fails
  | crash
deriving DecidableEq

section Steps

variable {ι : Type} [DecidableEq ι]

def System.at (s : System ι) (i : ι) (p : Point ι) : System ι :=
  { s with point := Function.update s.point i p }

def System.put (s : System ι) (files : Directory (List Str) ι Node) : System ι :=
  { s with files := files }

/-- One step of a writer, where it is possible. `scans` is what each of them has
found in the store. -/
def index_step (scans : ι → List ReceiptSummary) (s : System ι) (a : ι × Action) : Option (System ι) :=
  let i := a.1
  match a.2, s.point i with
  -- `_reject_symlink`
  | .check, .called =>
    match s.files INDEX with
    | some ⟨_, .link⟩ => some (s.at i .failed)
    | _ => some (s.at i (.probing 0))
  | .create, .probing slot =>
    if slot < MAX_INDEX_SLOTS then
      match s.files (staging_slot slot) with
      | some _ => some (s.at i (.probing (slot + 1)))
      | none => some ((s.at i (.created slot)).put
          (create s.files (staging_slot slot) i (.file .empty)))
    -- every index staging slot is occupied
    else some (s.at i .failed)
  | .refuse, .probing _ => some (s.at i .failed)
  | .close, .created slot => some (s.at i (.staged slot))
  | .close_fails, .created slot => some (s.at i (.stranded slot))
  -- the document has no canonical bytes, or the slot is opened for writing
  | .encode, .staged slot =>
    match canon.canonical_bytes (index_document (scans i)) with
    | .error _ => some (s.at i (.failing slot))
    | .ok payload =>
      let files := write s.files (staging_slot slot) i (.file .empty)
      some ((s.at i (.writing slot payload ((files (staging_slot slot)).bind File.owner))).put files)
  | .write count, .writing slot payload creator => some (s.put
      (rewrite s.files (staging_slot slot) creator (.file (payload.extract 0 count))))
  | .finish, .writing slot payload creator => some ((s.at i (.written slot payload)).put
      (rewrite s.files (staging_slot slot) creator (.file payload)))
  | .fail, .staged slot | .fail, .writing slot _ _ | .fail, .written slot _ =>
    some (s.at i (.failing slot))
  -- a directory is not renamed over
  | .replace, .written slot _ =>
    match s.files (staging_slot slot), s.files INDEX with
    | none, _ | _, some ⟨_, .directory⟩ => some (s.at i (.failing slot))
    | some _, _ => some ((s.at i (.renamed slot)).put (rename s.files (staging_slot slot) INDEX))
  | .leave, .renamed _ => some (s.at i .published)
  | .interrupt, .renamed slot => some (s.at i (.unlinking slot))
  -- `except BaseException`: whatever is at the name of the slot is removed
  | .remove, .failing slot | .remove, .unlinking slot =>
    some ((s.at i .failed).put (remove s.files (staging_slot slot)))
  | .remove_fails, .failing slot => some (s.at i (.stranded slot))
  | .remove_fails, .unlinking _ => some (s.at i .failed)
  | .crash, _ => some (s.at i .crashed)
  | _, _ => none

end Steps

/-! ## What a step can do -/

/-- The bytes that a writer has for the index. -/
def Point.payload? {ι : Type} : Point ι → Option ByteArray
  | writing _ payload _ | written _ payload => some payload
  | _ => none

/-- A slot that the writer has created may still be there. -/
def Point.MayOwn {ι : Type} (p : Point ι) (slot : Nat) : Prop := p.slot? = some slot ∨ p = .crashed

/-- The writer has left its slot behind, or is about to remove what it may not hold. -/
def Point.Lost {ι : Type} (p : Point ι) : Prop := ∃ slot, p = .stranded slot ∨ p = .unlinking slot

/-- What the handler of the writer does not answer for: closing a new slot or
removing a slot raises, or something is raised after the rename. -/
def Action.Stray (a : Action) : Prop := a = .close_fails ∨ a = .remove_fails ∨ a = .interrupt

instance (a : Action) : Decidable a.Stray := inferInstanceAs (Decidable (_ ∨ _ ∨ _))

section Turns

variable {ι : Type} {scans : ι → List ReceiptSummary}

/-- Where a step that is not stray takes its writer, and what the files are then. -/
inductive Turn (scans : ι → List ReceiptSummary) (s : System ι) (i : ι) :
    Point ι → Directory (List Str) ι Node → Prop where
  /-- No file changes. -/
  | quiet (p : Point ι) : (p.slot? = none ∨ p.slot? = (s.point i).slot?) → p.payload? = none →
      (∀ slot, (s.point i).MayOwn slot → p.MayOwn slot) → ¬ p.Lost → Turn scans s i p s.files
  | create (slot : Nat) : s.point i = .probing slot → s.files (staging_slot slot) = none →
      Turn scans s i (.created slot) (create s.files (staging_slot slot) i (.file .empty))
  | encode (slot : Nat) (payload : ByteArray) : s.point i = .staged slot →
      canon.canonical_bytes (index_document (scans i)) = .ok payload →
      Turn scans s i (.writing slot payload (some i))
        (write s.files (staging_slot slot) i (.file .empty))
  | write (slot : Nat) (payload bytes : ByteArray) : s.point i = .writing slot payload (some i) →
      Turn scans s i (.writing slot payload (some i)) (write s.files (staging_slot slot) i (.file bytes))
  | finish (slot : Nat) (payload : ByteArray) : s.point i = .writing slot payload (some i) →
      Turn scans s i (.written slot payload) (write s.files (staging_slot slot) i (.file payload))
  | replace (slot : Nat) (payload : ByteArray) : s.point i = .written slot payload →
      Turn scans s i (.renamed slot) (rename s.files (staging_slot slot) INDEX)
  | remove (slot : Nat) : s.point i = .failing slot →
      Turn scans s i .failed (remove s.files (staging_slot slot))

/-! ## What holds in every state -/

/-- The name that each writer holds. -/
def System.hold (s : System ι) (i : ι) : Option (List Str) := (s.point i).slot?.map staging_slot

/-- These are the bytes of the document that this writer has made of its scan. -/
def Document (scans : ι → List ReceiptSummary) (i : ι) (payload : ByteArray) : Prop :=
  canon.canonical_bytes (index_document (scans i)) = .ok payload

structure Good (scans : ι → List ReceiptSummary) (contents : List Str → Option Node)
    (s : System ι) : Prop where
  held : Held s.hold s.files
  payload : ∀ i payload, (s.point i).payload? = some payload → Document scans i payload
  opened : ∀ i slot payload creator, s.point i = .writing slot payload creator → creator = some i
  written : ∀ i slot payload, s.point i = .written slot payload →
    s.files (staging_slot slot) = some { owner := some i, content := .file payload }
  document : s.files INDEX = before contents INDEX ∨ ∃ i payload, Document scans i payload ∧
    s.files INDEX = some { owner := some i, content := .file payload }
  owned : ∀ i slot, Owns s.files i (staging_slot slot) → (s.point i).MayOwn slot
  held_back : ∀ i, ¬ (s.point i).Lost

variable {contents : List Str → Option Node} {s s' : System ι} {i j : ι} {p : Point ι}
  {files : Directory (List Str) ι Node}

/-- The slot that a writer holds is its own. -/
theorem Good.owns (h : Good scans contents s) {slot : Nat} (hp : (s.point i).slot? = some slot) :
    Owns s.files i (staging_slot slot) := h.held i _ (by simp [System.hold, hp])

/-- A turn leaves every slot that another writer created. -/
theorem Turn.others (h : Turn scans s i p files) (hgood : Good scans contents s) (hj : j ≠ i)
    {n : Nat} (hown : Owns s.files j (staging_slot n)) :
    files (staging_slot n) = s.files (staging_slot n) := by
  have hne : ∀ slot, (s.point i).slot? = some slot → staging_slot n ≠ staging_slot slot := by
    intro slot hp heq
    exact hj (hown.unique (heq ▸ hgood.owns hp))
  cases h with
  | quiet => rfl
  | create slot _ hnone =>
    apply Function.update_of_ne
    intro heq
    obtain ⟨f, hf, -⟩ := hown
    rw [heq, hnone] at hf
    cases hf
  | encode slot payload hp => exact Function.update_of_ne (hne slot (by simp [hp, Point.slot?])) _ _
  | write slot payload bytes hp =>
    exact Function.update_of_ne (hne slot (by simp [hp, Point.slot?])) _ _
  | finish slot payload hp => exact Function.update_of_ne (hne slot (by simp [hp, Point.slot?])) _ _
  | replace slot payload hp =>
    rw [rename, Function.update_of_ne (hne slot (by simp [hp, Point.slot?])),
      Function.update_of_ne (slot_ne_index n)]
  | remove slot hp => exact Function.update_of_ne (hne slot (by simp [hp, Point.slot?])) _ _

/-- The index changes only by a rename of a whole document. -/
theorem Turn.publishes (h : Turn scans s i p files) (hgood : Good scans contents s) :
    files INDEX = s.files INDEX ∨ ∃ payload, Document scans i payload ∧
      files INDEX = some { owner := some i, content := .file payload } := by
  have hne : ∀ slot, INDEX ≠ staging_slot slot := fun slot => (slot_ne_index slot).symm
  cases h with
  | quiet => exact .inl rfl
  | create slot => exact .inl (Function.update_of_ne (hne slot) _ _)
  | encode slot => exact .inl (Function.update_of_ne (hne slot) _ _)
  | write slot => exact .inl (Function.update_of_ne (hne slot) _ _)
  | finish slot => exact .inl (Function.update_of_ne (hne slot) _ _)
  | replace slot payload hp =>
    refine .inr ⟨payload, hgood.payload i payload (by simp [hp, Point.payload?]), ?_⟩
    rw [rename, Function.update_of_ne (hne slot), Function.update_self]
    exact hgood.written i slot payload hp
  | remove slot => exact .inl (Function.update_of_ne (hne slot) _ _)

theorem payload_turn (h : Turn scans s i p files) (hgood : Good scans contents s) {payload : ByteArray}
    (hp : p.payload? = some payload) : Document scans i payload := by
  cases h with
  | quiet _ _ hnone _ _ =>
    rw [hnone] at hp
    cases hp
  | create slot => cases hp
  | encode slot payload' _ hdocument =>
    obtain rfl := Option.some.inj hp
    exact hdocument
  | write slot payload' bytes hwriting =>
    obtain rfl := Option.some.inj hp
    exact hgood.payload i _ (by simp [hwriting, Point.payload?])
  | finish slot payload' hwriting =>
    obtain rfl := Option.some.inj hp
    exact hgood.payload i _ (by simp [hwriting, Point.payload?])
  | replace slot => cases hp
  | remove slot => cases hp

/-- What a writer has written is its own slot with the whole document. -/
theorem written_turn (h : Turn scans s i p files) (hgood : Good scans contents s) {slot : Nat}
    {payload : ByteArray} (hp : p = .written slot payload) :
    files (staging_slot slot) = some { owner := some i, content := .file payload } := by
  cases h with
  | quiet _ _ hnone _ _ =>
    rw [hp] at hnone
    cases hnone
  | finish slot' payload' hwriting =>
    obtain ⟨rfl, rfl⟩ := Point.written.inj hp
    obtain ⟨f, hf, hi⟩ := hgood.owns (show (s.point i).slot? = some slot' by simp [hwriting, Point.slot?])
    simp [write, hf, hi]
  | create slot => cases hp
  | encode slot => cases hp
  | write slot => cases hp
  | replace slot => cases hp
  | remove slot => cases hp

theorem owns_slot_of_rename {d : Directory (List Str) ι Node} {slot n : Nat}
    (h : Owns (rename d (staging_slot slot) INDEX) j (staging_slot n)) :
    staging_slot n ≠ staging_slot slot ∧ Owns d j (staging_slot n) := by
  rcases owns_update h with ⟨-, _, hnone, -⟩ | ⟨hne, h⟩
  · cases hnone
  · rcases owns_update h with ⟨hindex, -⟩ | ⟨-, h⟩
    · exact absurd hindex (slot_ne_index n)
    · exact ⟨hne, h⟩

theorem owns_slot_of_remove {d : Directory (List Str) ι Node} {slot n : Nat}
    (h : Owns (remove d (staging_slot slot)) j (staging_slot n)) :
    staging_slot n ≠ staging_slot slot ∧ Owns d j (staging_slot n) := by
  rcases owns_update h with ⟨-, _, hnone, -⟩ | h
  · cases hnone
  · exact h

/-- Another writer owns after a turn only what it owned before. -/
theorem Turn.owns_other (h : Turn scans s i p files) (hgood : Good scans contents s) (hj : j ≠ i)
    {slot : Nat} (hown : Owns files j (staging_slot slot)) : Owns s.files j (staging_slot slot) := by
  cases h with
  | quiet => exact hown
  | create slot' =>
    rcases owns_update hown with ⟨-, _, hf, hi⟩ | ⟨-, hown⟩
    · obtain rfl := Option.some.inj hf
      exact absurd (Option.some.inj hi).symm hj
    · exact hown
  | encode slot' payload hp =>
    exact owns_of_write (hgood.owns (by rw [hp, Point.slot?])) hown
  | write slot' payload bytes hp =>
    exact owns_of_write (hgood.owns (by rw [hp, Point.slot?])) hown
  | finish slot' payload hp =>
    exact owns_of_write (hgood.owns (by rw [hp, Point.slot?])) hown
  | replace slot' => exact (owns_slot_of_rename hown).2
  | remove slot' => exact (owns_slot_of_remove hown).2

/-- A writer that goes on with a slot, or has just let it go, owns no other one. -/
theorem Good.owns_only (hgood : Good scans contents s) {slot n : Nat}
    (hp : (s.point i).slot? = some slot) (hown : Owns s.files i (staging_slot n)) : n = slot := by
  rcases hgood.owned i n hown with h | h
  · exact Option.some.inj (h.symm.trans hp)
  · rw [h] at hp
    cases hp

/-- The slot that a writer owns after its turn is the one it still has. -/
theorem Turn.owns_self (h : Turn scans s i p files) (hgood : Good scans contents s) {n : Nat}
    (hown : Owns files i (staging_slot n)) : p.MayOwn n := by
  cases h with
  | quiet _ _ _ hmay _ => exact hmay n (hgood.owned i n hown)
  | create slot hp =>
    rcases owns_update hown with ⟨hslot, -⟩ | ⟨-, hown⟩
    · obtain rfl := slot_injective hslot
      exact .inl rfl
    · have hmay := hgood.owned i n hown
      simp [hp, Point.MayOwn, Point.slot?] at hmay
  | encode slot payload hp =>
    have hslot : (s.point i).slot? = some slot := by rw [hp, Point.slot?]
    obtain rfl := hgood.owns_only hslot (owns_of_write (hgood.owns hslot) hown)
    exact .inl rfl
  | write slot payload bytes hp =>
    have hslot : (s.point i).slot? = some slot := by rw [hp, Point.slot?]
    obtain rfl := hgood.owns_only hslot (owns_of_write (hgood.owns hslot) hown)
    exact .inl rfl
  | finish slot payload hp =>
    have hslot : (s.point i).slot? = some slot := by rw [hp, Point.slot?]
    obtain rfl := hgood.owns_only hslot (owns_of_write (hgood.owns hslot) hown)
    exact .inl rfl
  | replace slot payload hp =>
    obtain ⟨hne, hown⟩ := owns_slot_of_rename hown
    exact absurd (congrArg _ (hgood.owns_only (by rw [hp, Point.slot?]) hown)) hne
  | remove slot hp =>
    obtain ⟨hne, hown⟩ := owns_slot_of_remove hown
    exact absurd (congrArg _ (hgood.owns_only (by rw [hp, Point.slot?]) hown)) hne

/-- A writer opens the slot that it created. -/
theorem Turn.opened (h : Turn scans s i p files) {slot : Nat} {payload : ByteArray} {creator : Option ι}
    (hp : p = .writing slot payload creator) : creator = some i := by
  cases h with
  | quiet _ _ hnone =>
    rw [hp] at hnone
    cases hnone
  | encode | write => exact (Point.writing.inj hp).2.2.symm
  | create | finish | replace | remove => cases hp

theorem Turn.not_lost (h : Turn scans s i p files) : ¬ p.Lost := by
  cases h with
  | quiet _ _ _ _ hlost => exact hlost
  | _ => simp [Point.Lost]

/-- What a turn takes from a name is the index or a slot that its writer holds. -/
theorem Turn.takes (h : Turn scans s i p files) (hgood : Good scans contents s) {name : List Str}
    {f : File ι Node} (hf : s.files name = some f) (hne : files name ≠ some f) : name = INDEX ∨
      ∃ slot, name = staging_slot slot ∧ (s.point i).slot? = some slot ∧ f.owner = some i := by
  have hown : ∀ slot, (s.point i).slot? = some slot → name = staging_slot slot → f.owner = some i := by
    rintro slot hslot rfl
    obtain ⟨g, hg, hi⟩ := hgood.owns hslot
    obtain rfl := Option.some.inj (hf.symm.trans hg)
    exact hi
  have hslot : ∀ (slot : Nat) (g : Option (File ι Node)), (s.point i).slot? = some slot →
      Function.update s.files (staging_slot slot) g name ≠ some f → name = INDEX ∨
      ∃ slot, name = staging_slot slot ∧ (s.point i).slot? = some slot ∧ f.owner = some i := by
    intro slot g hp hne
    by_cases hname : name = staging_slot slot
    · exact .inr ⟨slot, hname, hp, hown slot hp hname⟩
    · rw [Function.update_of_ne hname] at hne
      exact absurd hf hne
  cases h with
  | quiet => exact absurd hf hne
  | create slot _ hnone =>
    by_cases hname : name = staging_slot slot
    · rw [hname, hnone] at hf
      cases hf
    · rw [staging.create, Function.update_of_ne hname] at hne
      exact absurd hf hne
  | encode slot payload hp => exact hslot slot _ (by rw [hp, Point.slot?]) hne
  | write slot payload bytes hp => exact hslot slot _ (by rw [hp, Point.slot?]) hne
  | finish slot payload hp => exact hslot slot _ (by rw [hp, Point.slot?]) hne
  | replace slot payload hp =>
    by_cases hindex : name = INDEX
    · exact .inl hindex
    · refine hslot slot none (by rw [hp, Point.slot?]) fun hsame => hne ?_
      rw [rename, ← hsame]
      by_cases hname : name = staging_slot slot
      · rw [hname, Function.update_self, Function.update_self]
      · rw [Function.update_of_ne hname, Function.update_of_ne hname, Function.update_of_ne hindex]
  | remove slot hp => exact hslot slot _ (by rw [hp, Point.slot?]) hne

/-- The store before any of the writers came. -/
def start (contents : List Str → Option Node) : System ι where
  files := before contents
  point _ := .called

theorem good_start : Good scans contents (start contents) where
  held i k h := by cases h
  payload i payload h := by cases h
  opened i slot payload creator h := by cases h
  written i slot payload h := by cases h
  document := .inl rfl
  owned i slot h := absurd h (not_owns_before contents i _)
  held_back i := by simp [start, Point.Lost]

variable [DecidableEq ι]

theorem hold_update {files : Directory (List Str) ι Node} :
    System.hold { files := files, point := Function.update s.point i p } i =
      p.slot?.map staging_slot := by
  simp [System.hold]

theorem hold_update_ne {files : Directory (List Str) ι Node} (hj : j ≠ i) :
    System.hold { files := files, point := Function.update s.point i p } j = s.hold j := by
  simp [System.hold, hj]

theorem held_turn (h : Turn scans s i p files) (hgood : Good scans contents s) :
    Held (System.hold { files := files, point := Function.update s.point i p }) files := by
  have hother := fun j (hj : j ≠ i) => @hold_update_ne ι s i j p _ files hj
  have hslot : ∀ slot, (s.point i).slot? = some slot → s.hold i = some (staging_slot slot) :=
    fun slot hp => by simp [System.hold, hp]
  cases h with
  | quiet _ hp =>
    rcases hp with hp | hp
    · exact hgood.held.release (by simp [hold_update, hp]) hother
    · exact hgood.held.keep (by simp [System.hold, hp]) hother
  | create slot _ hnone => exact hgood.held.create hnone (by simp [hold_update, Point.slot?]) hother
  | encode slot payload hp =>
    exact (hgood.held.keep (by simp [System.hold, hp, Point.slot?]) hother).write
  | write slot payload bytes hp =>
    exact (hgood.held.keep (by simp [System.hold, hp, Point.slot?]) hother).write
  | finish slot payload hp =>
    exact (hgood.held.keep (by simp [System.hold, hp, Point.slot?]) hother).write
  | replace slot payload hp =>
    refine hgood.held.rename (hslot slot (by simp [hp, Point.slot?]))
      (by simp [hold_update, Point.slot?]) hother fun j hj => ?_
    obtain ⟨n, -, hn⟩ := Option.map_eq_some_iff.mp hj
    exact slot_ne_index n hn
  | remove slot hp =>
    exact hgood.held.remove (hslot slot (by simp [hp, Point.slot?]))
      (by simp [hold_update, Point.slot?]) hother

theorem good_turn (h : Turn scans s i p files) (hgood : Good scans contents s) :
    Good scans contents { files := files, point := Function.update s.point i p } := by
  refine ⟨held_turn h hgood, ?_, ?_, ?_, ?_, ?_, ?_⟩
  · intro j payload hp
    by_cases hj : j = i
    · subst hj
      exact payload_turn h hgood (by simpa using hp)
    · exact hgood.payload j payload (by simpa [hj] using hp)
  · intro j slot payload creator hp
    by_cases hj : j = i
    · subst hj
      exact h.opened (by simpa using hp)
    · exact hgood.opened j slot payload creator (by simpa [hj] using hp)
  · intro j slot payload hp
    by_cases hj : j = i
    · subst hj
      exact written_turn h hgood (by simpa using hp)
    · have hp : s.point j = .written slot payload := by simpa [hj] using hp
      exact (h.others hgood hj (hgood.owns (by rw [hp, Point.slot?]))).trans
        (hgood.written j slot payload hp)
  · dsimp only
    rcases h.publishes hgood with hsame | ⟨payload, hdocument, hindex⟩
    · rw [hsame]
      exact hgood.document
    · exact .inr ⟨i, payload, hdocument, hindex⟩
  · intro j slot hown
    by_cases hj : j = i
    · subst hj
      simpa using h.owns_self hgood hown
    · dsimp only
      rw [Function.update_of_ne hj]
      exact hgood.owned j slot (h.owns_other hgood hj hown)
  · intro j
    dsimp only
    by_cases hj : j = i
    · rw [hj, Function.update_self]
      exact h.not_lost
    · rw [Function.update_of_ne hj]
      exact hgood.held_back j

theorem index_step_turn {s s' : System ι} {i : ι} {a : Action} (hgood : Good scans contents s)
    (hstray : ¬ a.Stray) (h : index_step scans s (i, a) = some s') :
    ∃ p files, Turn scans s i p files ∧ s' = { files := files, point := Function.update s.point i p } := by
  unfold index_step at h
  dsimp only at h
  split at h
  case h_1 hp =>
    split at h
    all_goals
      cases h
      exact ⟨_, _, .quiet _ (.inl rfl) rfl (by simp [hp, Point.MayOwn, Point.slot?]) (by simp [Point.Lost]), rfl⟩
  case h_2 slot hp =>
    split at h
    · split at h
      · cases h
        exact ⟨_, _, .quiet _ (.inl rfl) rfl (by simp [hp, Point.MayOwn, Point.slot?]) (by simp [Point.Lost]), rfl⟩
      · rename_i hnone
        cases h
        exact ⟨_, _, .create slot hp hnone, rfl⟩
    · cases h
      exact ⟨_, _, .quiet _ (.inl rfl) rfl (by simp [hp, Point.MayOwn, Point.slot?]) (by simp [Point.Lost]), rfl⟩
  case h_3 slot hp =>
    cases h
    exact ⟨_, _, .quiet _ (.inl rfl) rfl (by simp [hp, Point.MayOwn, Point.slot?]) (by simp [Point.Lost]), rfl⟩
  case h_4 slot hp =>
    cases h
    exact ⟨_, _, .quiet _ (.inr (by simp [hp, Point.slot?])) rfl
      (by simp [hp, Point.MayOwn, Point.slot?]) (by simp [Point.Lost]), rfl⟩
  case h_5 => exact absurd (.inl rfl) hstray
  case h_6 slot hp =>
    split at h
    · cases h
      exact ⟨_, _, .quiet _ (.inr (by simp [hp, Point.slot?])) rfl
        (by simp [hp, Point.MayOwn, Point.slot?]) (by simp [Point.Lost]), rfl⟩
    · rename_i payload hpayload
      obtain ⟨f, hf, hi⟩ := hgood.owns (show (s.point i).slot? = some slot by rw [hp, Point.slot?])
      cases h
      refine ⟨_, _, .encode slot payload hp hpayload, ?_⟩
      simp [System.put, System.at, write, hf, hi]
  case h_7 count slot payload creator hp =>
    have hown := hgood.owns (show (s.point i).slot? = some slot by rw [hp, Point.slot?])
    obtain rfl := hgood.opened i slot payload creator hp
    cases h
    refine ⟨_, _, .write slot payload (payload.extract 0 count) hp, ?_⟩
    simp [System.put, hp.symm, rewrite_of_owns hown]
  case h_8 slot payload creator hp =>
    have hown := hgood.owns (show (s.point i).slot? = some slot by rw [hp, Point.slot?])
    obtain rfl := hgood.opened i slot payload creator hp
    cases h
    refine ⟨_, _, .finish slot payload hp, ?_⟩
    rw [System.put, rewrite_of_owns hown, System.at]
  case h_9 slot hp =>
    cases h
    exact ⟨_, _, .quiet _ (.inr (by simp [hp, Point.slot?])) rfl
      (by simp [hp, Point.MayOwn, Point.slot?]) (by simp [Point.Lost]), rfl⟩
  case h_10 slot payload hp =>
    cases h
    exact ⟨_, _, .quiet _ (.inr (by simp [hp, Point.slot?])) rfl
      (by simp [hp, Point.MayOwn, Point.slot?]) (by simp [Point.Lost]), rfl⟩
  case h_11 slot payload hp =>
    cases h
    exact ⟨_, _, .quiet _ (.inr (by simp [hp, Point.slot?])) rfl
      (by simp [hp, Point.MayOwn, Point.slot?]) (by simp [Point.Lost]), rfl⟩
  case h_12 slot payload hp =>
    split at h
    · cases h
      exact ⟨_, _, .quiet _ (.inr (by simp [hp, Point.slot?])) rfl
        (by simp [hp, Point.MayOwn, Point.slot?]) (by simp [Point.Lost]), rfl⟩
    · cases h
      exact ⟨_, _, .quiet _ (.inr (by simp [hp, Point.slot?])) rfl
        (by simp [hp, Point.MayOwn, Point.slot?]) (by simp [Point.Lost]), rfl⟩
    · cases h
      exact ⟨_, _, .replace slot payload hp, rfl⟩
  case h_13 slot hp =>
    cases h
    exact ⟨_, _, .quiet _ (.inl rfl) rfl (by simp [hp, Point.MayOwn, Point.slot?]) (by simp [Point.Lost]), rfl⟩
  case h_14 => exact absurd (.inr (.inr rfl)) hstray
  case h_15 slot hp =>
    cases h
    exact ⟨_, _, .remove slot hp, rfl⟩
  case h_16 slot hp => exact absurd ⟨slot, .inr hp⟩ (hgood.held_back i)
  case h_17 => exact absurd (.inr (.inl rfl)) hstray
  case h_18 => exact absurd (.inr (.inl rfl)) hstray
  case h_19 =>
    cases h
    exact ⟨_, _, .quiet _ (.inl rfl) rfl (by simp [Point.MayOwn]) (by simp [Point.Lost]), rfl⟩
  case h_20 => cases h

/-! ## Every run -/

/-- What is to hold of the index and its slots in a state. -/
structure NeverTears (scans : ι → List ReceiptSummary) (contents : List Str → Option Node)
    (s : System ι) : Prop where
  /-- The index is what it was, or the whole document of one writer. -/
  document : s.files INDEX = before contents INDEX ∨ ∃ i payload, Document scans i payload ∧
    s.files INDEX = some { owner := some i, content := .file payload }
  /-- No slot has two live writers. -/
  exclusive : ∀ i j slot, (s.point i).slot? = some slot → (s.point j).slot? = some slot → i = j
  /-- A step takes away only the index, or a slot that its writer created and holds. -/
  takes : ∀ i a s', index_step scans s (i, a) = some s' → ∀ name f, s.files name = some f →
    s'.files name ≠ some f → name = INDEX ∨
      ∃ slot, name = staging_slot slot ∧ (s.point i).slot? = some slot ∧ f.owner = some i
  /-- A failing writer removes its own slot, and nothing else. -/
  releases : ∀ i slot s', s.point i = .failing slot → index_step scans s (i, .remove) = some s' →
    Owns s.files i (staging_slot slot) ∧ s'.point i = .failed ∧
      s'.files = Function.update s.files (staging_slot slot) none
  /-- A writer that has failed has no slot left. -/
  released : ∀ i, (s.point i = .failed ∨ ∃ slot, s.point i = .stranded slot) →
    ∀ slot, ¬ Owns s.files i (staging_slot slot)

theorem good_run {actions : List (ι × Action)} {s : System ι} (hstray : ∀ a ∈ actions, ¬ a.2.Stray)
    (h : run (index_step scans) (start contents) actions = some s) : Good scans contents s := by
  refine run_invariant ?_ good_start (along_of_forall (fun a ha _ => hstray a ha) _) h
  rintro t ⟨i, a⟩ t' hgood ha hstep
  obtain ⟨p, files, hturn, rfl⟩ := index_step_turn hgood ha hstep
  exact good_turn hturn hgood

/-- A stray step takes nothing away: it is the next one that may. -/
theorem takes_stray {s s' : System ι} {i : ι} {a : Action} (ha : a.Stray)
    (h : index_step scans s (i, a) = some s') : s'.files = s.files := by
  rcases ha with rfl | rfl | rfl
  all_goals
    cases hp : s.point i
    all_goals simp only [index_step, hp, Option.some.injEq, reduceCtorEq] at h
    all_goals
      rw [← h]
      rfl

/-- In every run of any writers, whatever fails and wherever they crash, but for
the stray steps. -/
theorem index_never_tears (scans : ι → List ReceiptSummary) (contents : List Str → Option Node)
    {actions : List (ι × Action)} {s : System ι} (hstray : ∀ a ∈ actions, ¬ a.2.Stray)
    (h : run (index_step scans) (start contents) actions = some s) : NeverTears scans contents s := by
  have hgood := good_run hstray h
  constructor
  case document => exact hgood.document
  case exclusive =>
    intro i j slot hi hj
    exact hgood.held.unique (k := staging_slot slot) (by simp [System.hold, hi])
      (by simp [System.hold, hj])
  case takes =>
    intro i a s' hstep name f hf hne
    by_cases ha : a.Stray
    · rw [takes_stray ha hstep] at hne
      exact absurd hf hne
    · obtain ⟨p, files, hturn, rfl⟩ := index_step_turn hgood ha hstep
      exact hturn.takes hgood hf hne
  case releases =>
    intro i slot s' hp hstep
    refine ⟨hgood.owns (by rw [hp, Point.slot?]), ?_⟩
    simp only [index_step, hp, Option.some.injEq] at hstep
    subst hstep
    exact ⟨by simp [System.put, System.at], rfl⟩
  case released =>
    rintro i (hfailed | ⟨slot, hstranded⟩) n hown
    · have hmay := hgood.owned i n hown
      simp [hfailed, Point.MayOwn, Point.slot?] at hmay
    · exact absurd ⟨slot, .inl hstranded⟩ (hgood.held_back i)

end Turns

/-- One writer takes the second slot while the other one publishes from the first,
and then fails. -/
def smallRun : List (Bool × Action) :=
  [(true, .check), (false, .check), (true, .create), (false, .create), (true, .close),
   (true, .encode), (false, .create), (true, .write 3), (true, .finish), (false, .close),
   (true, .replace), (true, .leave), (false, .fail), (false, .remove)]

theorem index_never_tears_small : ∃ s : System Bool,
    run (index_step fun _ => []) (start fun _ => none) smallRun = some s ∧
    s.point true = .published ∧ s.point false = .failed ∧ (s.files INDEX).isSome ∧
    NeverTears (fun _ => []) (fun _ => none) s := by
  have hrun : ((run (index_step fun _ => []) (start fun _ => none) smallRun).map fun s =>
      (s.point true, s.point false, (s.files INDEX).isSome)) = some (.published, .failed, true) := by
    decide +kernel
  obtain ⟨s, hs, hend⟩ := Option.map_eq_some_iff.mp hrun
  simp only [Prod.mk.injEq] at hend
  obtain ⟨htrue, hfalse, hindex⟩ := hend
  exact ⟨s, hs, htrue, hfalse, hindex, index_never_tears (fun _ => []) (fun _ => none) (by decide) hs⟩

/-- One writer is interrupted after its rename, when the other one has created the
slot anew. -/
def lateRun : List (Bool × Action) :=
  [(true, .check), (true, .create), (true, .close), (true, .encode), (true, .finish), (true, .replace),
   (false, .check), (false, .create), (true, .interrupt)]

/-- Closing the new slot raises. -/
def closeRun : List (Bool × Action) := [(true, .check), (true, .create), (true, .close_fails)]

/-- The handler of the interrupted writer removes the slot of the other one, and
a writer that cannot close its slot leaves it. -/
theorem index_slot_is_lost :
    (∃ s : System Bool, run (index_step fun _ => []) (start fun _ => none) lateRun = some s ∧
      ¬ NeverTears (fun _ => []) (fun _ => none) s) ∧
    ∃ s : System Bool, run (index_step fun _ => []) (start fun _ => none) closeRun = some s ∧
      ¬ NeverTears (fun _ => []) (fun _ => none) s := by
  constructor
  · have hrun : ((run (index_step fun _ => []) (start fun _ => none) lateRun).map fun s =>
        (s.point true, s.files (staging_slot 0))) =
          some (.unlinking 0, some { owner := some false, content := .file .empty }) := by
      decide +kernel
    obtain ⟨s, hs, hend⟩ := Option.map_eq_some_iff.mp hrun
    simp only [Prod.mk.injEq] at hend
    obtain ⟨htrue, hslot⟩ := hend
    refine ⟨s, hs, fun hnever => ?_⟩
    have hremove : index_step (fun _ => []) s (true, .remove) =
        some ((s.at true .failed).put (remove s.files (staging_slot 0))) := by
      simp only [index_step, htrue]
    rcases hnever.takes true .remove _ hremove (staging_slot 0) _ hslot
      (by simp [System.put, remove]) with hindex | ⟨slot, -, -, howner⟩
    · exact slot_ne_index 0 hindex
    · cases howner
  · have hrun : ((run (index_step fun _ => []) (start fun _ => none) closeRun).map fun s =>
        (s.point true, s.files (staging_slot 0))) =
          some (.stranded 0, some { owner := some true, content := .file .empty }) := by
      decide +kernel
    obtain ⟨s, hs, hend⟩ := Option.map_eq_some_iff.mp hrun
    simp only [Prod.mk.injEq] at hend
    obtain ⟨htrue, hslot⟩ := hend
    exact ⟨s, hs, fun hnever => hnever.released true (.inr ⟨0, htrue⟩) 0 ⟨_, hslot, rfl⟩⟩

end vfy.store.index
