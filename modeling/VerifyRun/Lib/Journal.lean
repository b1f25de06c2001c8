-- A journal that many writers publish to: one lock, one state file, and one
-- pending file that is created, written and moved over the state. A writer
-- may stop at any point; its lock is then free and its files stay.
import Mathlib

namespace journal

variable {ρ : Type}

/-- A file of a record: one that is still being written, or a whole one. -/
inductive File (ρ : Type) where
  | torn
  | whole (record : ρ)

/-- The two files of a journal. -/
structure Disk (ρ : Type) where
  state : File ρ
  pending : Option (File ρ)

/-! ## One publication -/

/-- Where a publication stops: before the pending file is there, while it is
written, before it is moved, or after that. -/
inductive Fault where
  | create
  | write
  | replace
  | sync
deriving DecidableEq

/-- The disk after the publication of a record, which may have stopped. A
pending file that is there already stops it. -/
def publish (record : ρ) (fault : Option Fault) (disk : Disk ρ) : Disk ρ :=
  match disk.pending with
  | some _ => disk
  | none =>
    match fault with
    | some .create => disk
    | some .write => { disk with pending := some .torn }
    | some .replace => { disk with pending := some (.whole record) }
    | some .sync | none => { state := .whole record, pending := none }

theorem publish_cases (record : ρ) (fault : Option Fault) (disk : Disk ρ) :
    publish record fault disk = disk ∨
      (publish record fault disk).state = disk.state ∧ (publish record fault disk).pending.isSome ∨
      publish record fault disk = { state := .whole record, pending := none } := by
  unfold publish
  split
  · exact .inl rfl
  · split
    · exact .inl rfl
    · exact .inr (.inl ⟨rfl, rfl⟩)
    · exact .inr (.inl ⟨rfl, rfl⟩)
    · exact .inr (.inr rfl)
    · exact .inr (.inr rfl)

@[simp] theorem publish_none {record : ρ} {disk : Disk ρ} (h : disk.pending = none) :
    publish record none disk = { state := .whole record, pending := none } := by
  simp [publish, h]

/-! ## Many writers -/

/-- How far a writer is with a mutation. -/
inductive Point (ρ : Type) where
  | idle
  | entered
  | read (old : ρ)
  | made (old new : ρ)
  | created (old new : ρ)
  | wrote (old new : ρ)
  | replaced (old new : ρ)

/-- What happened: a record was put in the place of another, a mutation
returned, or a snapshot did. -/
inductive Event (ι ρ : Type) where
  | published (writer : ι) (old new : ρ)
  | returned (writer : ι) (new : ρ)
  | snapshot (reader : ι) (record : ρ)

/-- The lock, the files, and how far each writer is. -/
structure System (ι ρ : Type) where
  lock : Option ι
  disk : Disk ρ
  point : ι → Point ρ

section Steps

variable {ι : Type} [DecidableEq ι]

/-- A writer goes on to a point. -/
def System.at (s : System ι ρ) (i : ι) (p : Point ρ) : System ι ρ :=
  { s with point := Function.update s.point i p }

/-- A writer lets the lock go. -/
def System.release (s : System ι ρ) (i : ι) : System ι ρ := { s.at i .idle with lock := none }

/-- A step of one writer, and what happens in it. `Next` says which records a
mutation makes of a record. -/
inductive Step (Next : ρ → ρ → Prop) : System ι ρ → List (Event ι ρ) → System ι ρ → Prop where
  /-- The lock is free, and there is no pending file. -/
  | enter (s : System ι ρ) (i : ι) : s.point i = .idle → s.lock = none → s.disk.pending = none →
      Step Next s [] { s.at i .entered with lock := some i }
  /-- A whole state is read. -/
  | read (s : System ι ρ) (i : ι) (old : ρ) : s.point i = .entered → s.disk.state = .whole old →
      Step Next s [] (s.at i (.read old))
  /-- A snapshot returns what it read. -/
  | snapshot (s : System ι ρ) (i : ι) (old : ρ) : s.point i = .read old →
      Step Next s [.snapshot i old] (s.release i)
  | make (s : System ι ρ) (i : ι) (old new : ρ) : s.point i = .read old → Next old new →
      Step Next s [] (s.at i (.made old new))
  /-- The pending file is created, which fails where it is there already. -/
  | create (s : System ι ρ) (i : ι) (old new : ρ) : s.point i = .made old new →
      s.disk.pending = none →
      Step Next s [] { s.at i (.created old new) with disk := { s.disk with pending := some .torn } }
  | write (s : System ι ρ) (i : ι) (old new : ρ) : s.point i = .created old new →
      Step Next s []
        { s.at i (.wrote old new) with disk := { s.disk with pending := some (.whole new) } }
  /-- The pending file, whatever it holds, takes the place of the state. -/
  | replace (s : System ι ρ) (i : ι) (old new : ρ) (file : File ρ) : s.point i = .wrote old new →
      s.disk.pending = some file →
      Step Next s [.published i old new]
        { s.at i (.replaced old new) with disk := { state := file, pending := none } }
  | finish (s : System ι ρ) (i : ι) (old new : ρ) : s.point i = .replaced old new →
      Step Next s [.returned i new] (s.release i)
  /-- A writer fails, or its process dies, at any point at which it holds the lock. -/
  | stop (s : System ι ρ) (i : ι) : s.lock = some i → Step Next s [] (s.release i)

/-- A run, and what happened in it. -/
inductive Run (Next : ρ → ρ → Prop) (start : System ι ρ) : List (Event ι ρ) → System ι ρ → Prop where
  | start : Run Next start [] start
  | step {events more : List (Event ι ρ)} {s s' : System ι ρ} :
      Run Next start events s → Step Next s more s' → Run Next start (events ++ more) s'

/-- A journal at rest, with this record. -/
def initial (record : ρ) : System ι ρ where
  lock := none
  disk := { state := .whole record, pending := none }
  point _ := .idle

/-! ## The invariant -/

/-- The records that were published, in order. -/
def published (events : List (Event ι ρ)) : List (ρ × ρ) :=
  events.filterMap fun
    | .published _ old new => some (old, new)
    | _ => none

/-- Each pair starts where the one before it ended, and the last one ends here. -/
def Chains (start : ρ) : List (ρ × ρ) → ρ → Prop
  | [], last => last = start
  | (old, new) :: pairs, last => old = start ∧ Chains new pairs last

theorem Chains.append {start last : ρ} {pairs : List (ρ × ρ)} (h : Chains start pairs last)
    (new : ρ) : Chains start (pairs ++ [(last, new)]) new := by
  induction pairs generalizing start with
  | nil =>
    obtain rfl : last = start := h
    exact ⟨rfl, rfl⟩
  | cons p pairs ih =>
    obtain ⟨old, new'⟩ := p
    exact ⟨h.1, ih h.2⟩

/-- What a writer at this point knows of the files. -/
def Knows (Next : ρ → ρ → Prop) (disk : Disk ρ) : Point ρ → Prop
  | .idle => True
  | .entered => disk.pending = none
  | .read old => disk.pending = none ∧ disk.state = .whole old
  | .made old new => disk.pending = none ∧ disk.state = .whole old ∧ Next old new
  | .created old new => disk.pending = some .torn ∧ disk.state = .whole old ∧ Next old new
  | .wrote old new => disk.pending = some (.whole new) ∧ disk.state = .whole old ∧ Next old new
  | .replaced old new => disk.pending = none ∧ disk.state = .whole new ∧ Next old new

/-- A point that the holder of the lock alone can be at. -/
def Point.Busy : Point ρ → Prop
  | .idle => False
  | _ => True

/-- What happened is a history of the journal. -/
structure History (Next : ρ → ρ → Prop) (start : ρ) (events : List (Event ι ρ)) : Prop where
  /-- A published record is one that a mutation made of the record it replaced. -/
  next : ∀ p ∈ published events, Next p.1 p.2
  /-- A snapshot returns the record that was published last. -/
  snapshots : ∀ before after i record, events = before ++ .snapshot i record :: after →
    Chains start (published before) record
  /-- A mutation that returned has just published, once, the record it made. -/
  returns : ∀ before after i new, events = before ++ .returned i new :: after →
    ∃ earlier old, before = earlier ++ [.published i old new]

/-- Only the writer that holds the lock is anywhere, it knows what the files
hold, and the state is the whole record that was published last. -/
structure Good (Next : ρ → ρ → Prop) (start : ρ) (events : List (Event ι ρ)) (s : System ι ρ) :
    Prop where
  busy : ∀ i, (s.point i).Busy → s.lock = some i
  knows : ∀ i, Knows Next s.disk (s.point i)
  last : ∃ last, s.disk.state = .whole last ∧ Chains start (published events) last
  replaced : ∀ i old new, s.point i = .replaced old new →
    ∃ earlier, events = earlier ++ [.published i old new]
  history : History Next start events

variable {Next : ρ → ρ → Prop} {start : ρ} {events more : List (Event ι ρ)} {s s' : System ι ρ}

omit [DecidableEq ι] in
theorem good_initial (record : ρ) : Good Next record [] (initial record : System ι ρ) where
  busy _ h := h.elim
  knows _ := trivial
  last := ⟨record, rfl, rfl⟩
  replaced _ _ _ h := by cases h
  history := ⟨by simp [published], by simp, by simp⟩

omit [DecidableEq ι] in
/-- Everyone but the holder of the lock is idle. -/
theorem Good.idle (h : Good Next start events s) {i j : ι} (hi : s.lock = some i) (hj : j ≠ i) :
    s.point j = .idle := by
  cases hpoint : s.point j with
  | idle => rfl
  | _ =>
    have hbusy := h.busy j (by rw [hpoint]; exact trivial)
    rw [hi] at hbusy
    exact absurd (Option.some.inj hbusy).symm hj

/-- One writer goes on to a point while the others are idle. -/
theorem good_update {i : ι} {p : Point ρ} {lock : Option ι} {disk : Disk ρ}
    (hidle : ∀ j, j ≠ i → s.point j = .idle) (hbusy : p.Busy → lock = some i)
    (hknows : Knows Next disk p)
    (hlast : ∃ last, disk.state = .whole last ∧ Chains start (published events) last)
    (hreplaced : ∀ old new, p = .replaced old new → ∃ earlier, events = earlier ++ [.published i old new])
    (hhistory : History Next start events) :
    Good Next start events { lock := lock, disk := disk, point := Function.update s.point i p } := by
  have hpoint : ∀ j, j ≠ i → Function.update s.point i p j = .idle := by
    intro j hj
    rw [Function.update_of_ne hj, hidle j hj]
  refine ⟨fun j hj => ?_, fun j => ?_, hlast, fun j old new hj => ?_, hhistory⟩
  all_goals
    dsimp only at *
    by_cases hji : j = i
  · subst hji
    rw [Function.update_self] at hj
    exact hbusy hj
  · rw [hpoint j hji] at hj
    exact hj.elim
  · subst hji
    rw [Function.update_self]
    exact hknows
  · rw [hpoint j hji]
    exact trivial
  · subst hji
    rw [Function.update_self] at hj
    exact hreplaced old new hj
  · rw [hpoint j hji] at hj
    cases hj

/-! ## Histories -/

omit [DecidableEq ι] in
/-- An event of a longer list is the new one, or was there before. -/
theorem append_one_cases {before after : List (Event ι ρ)} {e x : Event ι ρ}
    (h : events ++ [e] = before ++ x :: after) :
    (after = [] ∧ before = events ∧ x = e) ∨ ∃ rest, events = before ++ x :: rest := by
  rcases List.eq_nil_or_concat after with rfl | ⟨rest, last, rfl⟩
  · obtain ⟨hevents, hx⟩ := List.append_inj' h rfl
    exact .inl ⟨rfl, hevents.symm, (List.cons.inj hx).1.symm⟩
  · right
    rw [List.concat_eq_append] at h
    have h' : events ++ [e] = (before ++ x :: rest) ++ [last] := by simpa using h
    exact ⟨rest, (List.append_inj' h' rfl).1⟩

omit [DecidableEq ι] in
theorem published_append (a b : List (Event ι ρ)) : published (a ++ b) = published a ++ published b :=
  List.filterMap_append

omit [DecidableEq ι] in
theorem History.published (h : History Next start events) {i : ι} {old new : ρ}
    (hnext : Next old new) : History Next start (events ++ [.published i old new]) := by
  refine ⟨?_, ?_, ?_⟩
  · intro p hp
    rw [published_append] at hp
    rcases List.mem_append.mp hp with hp | hp
    · exact h.next p hp
    · obtain rfl : p = (old, new) := by simpa [journal.published] using hp
      exact hnext
  · intro before after j record heq
    rcases append_one_cases heq with ⟨-, -, hx⟩ | ⟨rest, heq⟩
    · cases hx
    · exact h.snapshots before rest j record heq
  · intro before after j new' heq
    rcases append_one_cases heq with ⟨-, -, hx⟩ | ⟨rest, heq⟩
    · cases hx
    · exact h.returns before rest j new' heq

omit [DecidableEq ι] in
theorem History.snapshot (h : History Next start events) {i : ι} {record : ρ}
    (hchain : Chains start (journal.published events) record) :
    History Next start (events ++ [.snapshot i record]) := by
  refine ⟨?_, ?_, ?_⟩
  · intro p hp
    rw [published_append] at hp
    exact h.next p (by simpa [journal.published] using hp)
  · intro before after j record' heq
    rcases append_one_cases heq with ⟨-, rfl, hx⟩ | ⟨rest, heq⟩
    · cases hx
      exact hchain
    · exact h.snapshots before rest j record' heq
  · intro before after j new heq
    rcases append_one_cases heq with ⟨-, -, hx⟩ | ⟨rest, heq⟩
    · cases hx
    · exact h.returns before rest j new heq

omit [DecidableEq ι] in
theorem History.returned (h : History Next start events) {i : ι} {old new : ρ}
    (hlast : ∃ earlier, events = earlier ++ [.published i old new]) :
    History Next start (events ++ [.returned i new]) := by
  refine ⟨?_, ?_, ?_⟩
  · intro p hp
    rw [published_append] at hp
    exact h.next p (by simpa [journal.published] using hp)
  · intro before after j record heq
    rcases append_one_cases heq with ⟨-, -, hx⟩ | ⟨rest, heq⟩
    · cases hx
    · exact h.snapshots before rest j record heq
  · intro before after j new' heq
    rcases append_one_cases heq with ⟨-, rfl, hx⟩ | ⟨rest, heq⟩
    · cases hx
      obtain ⟨earlier, he⟩ := hlast
      exact ⟨earlier, old, he⟩
    · exact h.returns before rest j new' heq

/-! ## One step, and runs -/

theorem good_step (h : Good Next start events s) (hstep : Step Next s more s') :
    Good Next start (events ++ more) s' := by
  obtain ⟨last, hlast, hchain⟩ := h.last
  have hholds : ∀ i, (s.point i).Busy → s.lock = some i ∧ ∀ j, j ≠ i → s.point j = .idle :=
    fun i hi => ⟨h.busy i hi, fun j hj => h.idle (h.busy i hi) hj⟩
  cases hstep with
  | enter i hpoint hlock hpending =>
    rw [List.append_nil]
    refine good_update (fun j _ => ?_) (fun _ => rfl) hpending ⟨last, hlast, hchain⟩ ?_ h.history
    · cases hj : s.point j with
      | idle => rfl
      | _ =>
        have hbusy := h.busy j (by rw [hj]; exact trivial)
        rw [hlock] at hbusy
        cases hbusy
    · intro old new he
      cases he
  | read i old hpoint hstate =>
    obtain ⟨hlock, hidle⟩ := hholds i (by rw [hpoint]; exact trivial)
    have hk := h.knows i
    rw [hpoint] at hk
    rw [List.append_nil]
    exact good_update hidle (fun _ => hlock) ⟨hk, hstate⟩ ⟨last, hlast, hchain⟩ (by simp) h.history
  | snapshot i old hpoint =>
    obtain ⟨hlock, hidle⟩ := hholds i (by rw [hpoint]; exact trivial)
    have hk := h.knows i
    rw [hpoint] at hk
    obtain rfl : last = old := File.whole.inj (hlast.symm.trans hk.2)
    refine good_update hidle False.elim trivial ⟨last, hlast, ?_⟩ (by simp)
      (h.history.snapshot hchain)
    simpa [published_append, published] using hchain
  | make i old new hpoint hnext =>
    obtain ⟨hlock, hidle⟩ := hholds i (by rw [hpoint]; exact trivial)
    have hk := h.knows i
    rw [hpoint] at hk
    rw [List.append_nil]
    exact good_update hidle (fun _ => hlock) ⟨hk.1, hk.2, hnext⟩ ⟨last, hlast, hchain⟩ (by simp)
      h.history
  | create i old new hpoint hpending =>
    obtain ⟨hlock, hidle⟩ := hholds i (by rw [hpoint]; exact trivial)
    have hk := h.knows i
    rw [hpoint] at hk
    rw [List.append_nil]
    exact good_update hidle (fun _ => hlock) ⟨rfl, hk.2⟩ ⟨last, hlast, hchain⟩ (by simp) h.history
  | write i old new hpoint =>
    obtain ⟨hlock, hidle⟩ := hholds i (by rw [hpoint]; exact trivial)
    have hk := h.knows i
    rw [hpoint] at hk
    rw [List.append_nil]
    exact good_update hidle (fun _ => hlock) ⟨rfl, hk.2⟩ ⟨last, hlast, hchain⟩ (by simp) h.history
  | replace i old new file hpoint hfile =>
    obtain ⟨hlock, hidle⟩ := hholds i (by rw [hpoint]; exact trivial)
    have hk := h.knows i
    rw [hpoint] at hk
    obtain ⟨hpending, hstate, hnext⟩ := hk
    -- the pending file is the one that this writer wrote
    obtain rfl : file = .whole new := Option.some.inj (hfile.symm.trans hpending)
    obtain rfl : last = old := File.whole.inj (hlast.symm.trans hstate)
    refine good_update hidle (fun _ => hlock) ⟨rfl, rfl, hnext⟩ ⟨new, rfl, ?_⟩ ?_
      (h.history.published hnext)
    · simpa [published_append, published] using hchain.append new
    · rintro old' new' ⟨⟩
      exact ⟨events, rfl⟩
  | finish i old new hpoint =>
    obtain ⟨hlock, hidle⟩ := hholds i (by rw [hpoint]; exact trivial)
    refine good_update hidle False.elim trivial ⟨last, hlast, ?_⟩ (by simp)
      (h.history.returned (h.replaced i old new hpoint))
    simpa [published_append, published] using hchain
  | stop i hlock =>
    rw [List.append_nil]
    exact good_update (fun j hj => h.idle hlock hj) False.elim trivial ⟨last, hlast, hchain⟩ (by simp)
      h.history

theorem good_run {record : ρ} (h : Run Next (initial record) events s) :
    Good Next record events s := by
  induction h with
  | start => exact good_initial record
  | step _ hstep ih => exact good_step ih hstep

/-! ## What a step does to the files -/

/-- The state changes only where a record is published, and then the record
that was there gives way to one that a mutation made of it. -/
theorem state_step (h : Good Next start events s) (hstep : Step Next s more s') :
    s'.disk.state = s.disk.state ∨ ∃ i old new, more = [.published i old new] ∧ Next old new ∧
      s.disk.state = .whole old ∧ s'.disk.state = .whole new := by
  cases hstep with
  | replace i old new file hpoint hfile =>
    have hk := h.knows i
    rw [hpoint] at hk
    obtain ⟨hpending, hstate, hnext⟩ := hk
    obtain rfl : file = .whole new := Option.some.inj (hfile.symm.trans hpending)
    exact .inr ⟨i, old, new, rfl, hnext, hstate, rfl⟩
  | _ => exact .inl rfl

/-- While there is a pending file, all that happens is that the writer of this
file moves it over the state. -/
theorem pending_step (h : Good Next start events s) (hpending : s.disk.pending.isSome)
    (hstep : Step Next s more s') :
    (more = [] ∧ s'.disk.state = s.disk.state ∧ s'.disk.pending.isSome) ∨
      ∃ i old new, more = [.published i old new] ∧ s.lock = some i ∧
        s.disk.pending = some (.whole new) := by
  have hne : s.disk.pending ≠ none := Option.isSome_iff_ne_none.mp hpending
  cases hstep with
  | enter i _ _ hnone => exact absurd hnone hne
  | read i old _ _ => exact .inl ⟨rfl, rfl, hpending⟩
  | snapshot i old hpoint =>
    have hk := h.knows i
    rw [hpoint] at hk
    exact absurd hk.1 hne
  | make i old new _ _ => exact .inl ⟨rfl, rfl, hpending⟩
  | create i old new _ hnone => exact absurd hnone hne
  | write i old new _ => exact .inl ⟨rfl, rfl, rfl⟩
  | replace i old new file hpoint hfile =>
    have hk := h.knows i
    rw [hpoint] at hk
    exact .inr ⟨i, old, new, rfl, h.busy i (by rw [hpoint]; exact trivial), hk.1⟩
  | finish i old new hpoint =>
    have hk := h.knows i
    rw [hpoint] at hk
    exact absurd hk.1 hne
  | stop i _ => exact .inl ⟨rfl, rfl, hpending⟩

/-- A pending file that its writer has left behind stops every writer and every
reader for good. -/
theorem quarantined (h : Good Next start events s) (hpending : s.disk.pending.isSome)
    (hlock : s.lock = none) (hrun : Run Next s more s') : more = [] ∧ s' = s := by
  have hidle : ∀ i, s.point i = .idle := by
    intro i
    cases hpoint : s.point i with
    | idle => rfl
    | _ =>
      have hbusy := h.busy i (by rw [hpoint]; exact trivial)
      rw [hlock] at hbusy
      cases hbusy
  induction hrun with
  | start => exact ⟨rfl, rfl⟩
  | step hrun hstep ih =>
    obtain ⟨rfl, rfl⟩ := ih
    exfalso
    cases hstep with
    | enter i _ _ hnone => exact Option.isSome_iff_ne_none.mp hpending hnone
    | stop i hi =>
      rw [hlock] at hi
      cases hi
    | read i _ hpoint _ | snapshot i _ hpoint | make i _ _ hpoint _ | create i _ _ hpoint _
    | write i _ _ hpoint | replace i _ _ _ hpoint _ | finish i _ _ hpoint =>
      rw [hidle i] at hpoint
      cases hpoint

end Steps

end journal
