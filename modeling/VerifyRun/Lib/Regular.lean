-- Regular languages by their derivatives: the state of an expression after a
-- word is a set of expressions, there are finitely many, and a search through
-- them decides what holds of every word.
import Mathlib

namespace regular

/-- An expression whose letters are classes. -/
inductive Regex (κ : Type) where
  | empty
  | letter (k : κ)
  | seq (a b : Regex κ)
  | alt (a b : Regex κ)
  | star (a : Regex κ)
deriving BEq, ReflBEq, LawfulBEq

variable {α κ : Type} (test : κ → α → Bool)

/-- The words of an expression. -/
inductive Matches : Regex κ → List α → Prop where
  | empty : Matches .empty []
  | letter {k : κ} {a : α} (h : test k a = true) : Matches (.letter k) [a]
  | seq {r s : Regex κ} {u v : List α} (hu : Matches r u) (hv : Matches s v) :
      Matches (.seq r s) (u ++ v)
  | left {r s : Regex κ} {u : List α} (h : Matches r u) : Matches (.alt r s) u
  | right {r s : Regex κ} {u : List α} (h : Matches s u) : Matches (.alt r s) u
  | done {r : Regex κ} : Matches (.star r) []
  | more {r : Regex κ} {u v : List α} (hu : Matches r u) (hv : Matches (.star r) v) :
      Matches (.star r) (u ++ v)

@[simp] theorem matches_empty {w : List α} : Matches test .empty w ↔ w = [] :=
  ⟨fun h => by cases h; rfl, fun h => h ▸ .empty⟩

@[simp] theorem matches_letter {k : κ} {w : List α} :
    Matches test (.letter k) w ↔ ∃ a, test k a = true ∧ w = [a] :=
  ⟨fun h => by cases h with | letter h => exact ⟨_, h, rfl⟩, fun ⟨_, h, e⟩ => e ▸ .letter h⟩

@[simp] theorem matches_seq {r s : Regex κ} {w : List α} : Matches test (.seq r s) w ↔
    ∃ u v, Matches test r u ∧ Matches test s v ∧ w = u ++ v :=
  ⟨fun h => by cases h with | seq hu hv => exact ⟨_, _, hu, hv, rfl⟩,
    fun ⟨_, _, hu, hv, e⟩ => e ▸ .seq hu hv⟩

@[simp] theorem matches_alt {r s : Regex κ} {w : List α} :
    Matches test (.alt r s) w ↔ Matches test r w ∨ Matches test s w :=
  ⟨fun h => by cases h with | left h => exact Or.inl h | right h => exact Or.inr h,
    fun h => h.elim .left .right⟩

/-! ## Derivatives -/

/-- The expression has the empty word. -/
def nullable : Regex κ → Bool
  | .empty => true
  | .letter _ => false
  | .seq r s => nullable r && nullable s
  | .alt r s => nullable r || nullable s
  | .star _ => true

/-- One expression after another, where an empty one leaves no trace. -/
def andThen (s : Regex κ) : Regex κ → Regex κ
  | .empty => s
  | r => .seq r s

/-- What is left of an expression after a letter. -/
def after (a : α) : Regex κ → List (Regex κ)
  | .empty => []
  | .letter k => if test k a then [.empty] else []
  | .seq r s => (after a r).map (andThen s) ++ if nullable r then after a s else []
  | .alt r s => after a r ++ after a s
  | .star r => (after a r).map (andThen (.star r))

theorem matches_nil (r : Regex κ) : Matches test r [] ↔ nullable r = true := by
  induction r with
  | empty => simp [nullable]
  | letter k => simp [nullable]
  | seq r s ihr ihs => simp [nullable, ← ihr, ← ihs]
  | alt r s ihr ihs => simp [nullable, ihr, ihs]
  | star r _ => simp [nullable, Matches.done]

@[simp] theorem matches_andThen {r s : Regex κ} {w : List α} :
    Matches test (andThen s r) w ↔ Matches test (.seq r s) w := by
  cases r <;> simp [andThen]

/-- A word of a repetition that is not empty begins with a word that is not empty. -/
theorem matches_star_cons {r : Regex κ} {a : α} {w : List α} : Matches test (.star r) (a :: w) ↔
    ∃ u v, Matches test r (a :: u) ∧ Matches test (.star r) v ∧ w = u ++ v := by
  constructor
  · generalize hs : Regex.star r = s
    generalize hl : a :: w = l
    intro h
    induction h with
    | @more r' u v hu hv _ ih =>
      cases hs
      cases u with
      | nil => exact ih rfl hl
      | cons b u =>
        obtain ⟨rfl, rfl⟩ := List.cons.inj hl
        exact ⟨u, v, hu, hv, rfl⟩
    | done => cases hl
    | _ => cases hs
  · rintro ⟨u, v, hu, hv, rfl⟩
    exact .more hu hv

theorem matches_star_letter {k : κ} {w : List α} :
    Matches test (.star (.letter k)) w ↔ ∀ a ∈ w, test k a = true := by
  induction w with
  | nil => simp [Matches.done]
  | cons a w ih =>
    rw [matches_star_cons, List.forall_mem_cons, ← ih]
    simp only [matches_letter]
    constructor
    · rintro ⟨u, v, ⟨b, hb, hu⟩, hv, rfl⟩
      obtain ⟨rfl, rfl⟩ := List.cons.inj hu
      exact ⟨hb, hv⟩
    · rintro ⟨ha, hw⟩
      exact ⟨[], w, ⟨a, ha, rfl⟩, hw, rfl⟩

/-- What is left after a letter has the words that go on from it. -/
theorem matches_cons {r : Regex κ} {a : α} {w : List α} :
    Matches test r (a :: w) ↔ ∃ s ∈ after test a r, Matches test s w := by
  induction r generalizing w with
  | empty => simp [after]
  | letter k =>
    by_cases h : test k a = true
    · simp [after, h]
    · simp only [after, h, matches_letter]
      constructor
      · rintro ⟨b, hb, hab⟩
        obtain ⟨rfl, -⟩ := List.cons.inj hab
        exact (h hb).elim
      · rintro ⟨s, hs, -⟩
        cases hs
  | seq r s ihr ihs =>
    have hsplit : Matches test (.seq r s) (a :: w) ↔
        (∃ u v, Matches test r (a :: u) ∧ Matches test s v ∧ w = u ++ v) ∨
          nullable r = true ∧ Matches test s (a :: w) := by
      rw [matches_seq, ← matches_nil test]
      constructor
      · rintro ⟨u, v, hu, hv, huv⟩
        cases u with
        | nil => exact Or.inr ⟨hu, huv ▸ hv⟩
        | cons b u =>
          obtain ⟨rfl, rfl⟩ := List.cons.inj huv
          exact Or.inl ⟨u, v, hu, hv, rfl⟩
      · rintro (⟨u, v, hu, hv, rfl⟩ | ⟨hr, hs⟩)
        · exact ⟨a :: u, v, hu, hv, rfl⟩
        · exact ⟨[], a :: w, hr, hs, rfl⟩
    rw [hsplit, ihs]
    simp only [after, List.mem_append, List.mem_map, or_and_right, exists_or, ihr]
    refine or_congr ?_ ?_
    · constructor
      · rintro ⟨u, v, ⟨t, ht, hu⟩, hv, rfl⟩
        exact ⟨_, ⟨t, ht, rfl⟩, (matches_andThen test).mpr (.seq hu hv)⟩
      · rintro ⟨_, ⟨t, ht, rfl⟩, hw⟩
        obtain ⟨u, v, hu, hv, rfl⟩ := (matches_seq test).mp ((matches_andThen test).mp hw)
        exact ⟨u, v, ⟨t, ht, hu⟩, hv, rfl⟩
    · by_cases h : nullable r = true <;> simp [h]
  | alt r s ihr ihs => simp [after, ihr, ihs, or_and_right, exists_or]
  | star r ih =>
    rw [matches_star_cons]
    simp only [after, List.mem_map, ih]
    constructor
    · rintro ⟨u, v, ⟨t, ht, hu⟩, hv, rfl⟩
      exact ⟨_, ⟨t, ht, rfl⟩, (matches_andThen test).mpr (.seq hu hv)⟩
    · rintro ⟨_, ⟨t, ht, rfl⟩, hw⟩
      obtain ⟨u, v, hu, hv, rfl⟩ := (matches_seq test).mp ((matches_andThen test).mp hw)
      exact ⟨u, v, ⟨t, ht, hu⟩, hv, rfl⟩

/-! ## Letters that are alike -/

/-- The letters of an expression. -/
def letters : Regex κ → List κ
  | .empty => []
  | .letter k => [k]
  | .seq r s => letters r ++ letters s
  | .alt r s => letters r ++ letters s
  | .star r => letters r

/-- Two letters that no class of the expression tells apart. -/
def Alike (ks : List κ) (a b : α) : Prop := ∀ k ∈ ks, test k a = test k b

theorem after_alike {a b : α} {r : Regex κ} (h : Alike test (letters r) a b) :
    after test a r = after test b r := by
  induction r with
  | empty => rfl
  | letter k => simp [after, h k (by simp [letters])]
  | seq r s ihr ihs =>
    simp only [letters] at h
    simp only [after]
    rw [ihr fun k hk => h k (List.mem_append_left _ hk),
      ihs fun k hk => h k (List.mem_append_right _ hk)]
  | alt r s ihr ihs =>
    simp only [letters] at h
    simp only [after]
    rw [ihr fun k hk => h k (List.mem_append_left _ hk),
      ihs fun k hk => h k (List.mem_append_right _ hk)]
  | star r ih =>
    simp only [after]
    rw [ih h]

theorem letters_andThen {r s : Regex κ} {k : κ} (h : k ∈ letters (andThen s r)) :
    k ∈ letters r ∨ k ∈ letters s := by
  cases r with
  | empty => exact Or.inr h
  | _ => exact List.mem_append.mp h

/-- No letter of what is left is new. -/
theorem letters_after {a : α} {r t : Regex κ} (ht : t ∈ after test a r) :
    ∀ k ∈ letters t, k ∈ letters r := by
  induction r generalizing t with
  | empty => cases ht
  | letter k =>
    simp only [after] at ht
    split at ht
    · rw [List.mem_singleton.mp ht]
      simp [letters]
    · cases ht
  | seq r s ihr ihs =>
    intro k hk
    simp only [after, List.mem_append, List.mem_map] at ht
    rcases ht with ⟨u, hu, rfl⟩ | ht
    · rcases letters_andThen hk with hk | hk
      · exact List.mem_append_left _ (ihr hu k hk)
      · exact List.mem_append_right _ hk
    · split at ht
      · exact List.mem_append_right _ (ihs ht k hk)
      · cases ht
  | alt r s ihr ihs =>
    intro k hk
    rcases List.mem_append.mp ht with ht | ht
    · exact List.mem_append_left _ (ihr ht k hk)
    · exact List.mem_append_right _ (ihs ht k hk)
  | star r ih =>
    intro k hk
    obtain ⟨u, hu, rfl⟩ := List.mem_map.mp ht
    rcases letters_andThen hk with hk | hk
    · exact ih hu k hk
    · exact hk

/-- No class of the expression has the letter. -/
def avoids (a : α) (r : Regex κ) : Bool := (letters r).all fun k => !test k a

/-- A letter that every class lacks is in no word. -/
theorem not_mem_of_avoids {a : α} {r : Regex κ} (h : avoids test a r = true) {w : List α}
    (hw : Matches test r w) : a ∉ w := by
  have hk : ∀ k ∈ letters r, test k a = false := by
    simpa [avoids] using h
  clear h
  induction hw with
  | empty => exact List.not_mem_nil
  | @letter k b hb =>
    intro hmem
    have hfalse := hk k List.mem_cons_self
    rw [List.mem_singleton.mp hmem, hb] at hfalse
    cases hfalse
  | seq _ _ ihu ihv =>
    rw [List.mem_append, not_or]
    exact ⟨ihu fun k h => hk k (List.mem_append_left _ h),
      ihv fun k h => hk k (List.mem_append_right _ h)⟩
  | left _ ih => exact ih fun k h => hk k (List.mem_append_left _ h)
  | right _ ih => exact ih fun k h => hk k (List.mem_append_right _ h)
  | done => exact List.not_mem_nil
  | more _ _ ihu ihv =>
    rw [List.mem_append, not_or]
    exact ⟨ihu hk, ihv hk⟩

/-! ## States -/

/-- The union of the words of several expressions. -/
def Reads (s : List (Regex κ)) (w : List α) : Prop := ∃ r ∈ s, Matches test r w

theorem reads_singleton {r : Regex κ} {w : List α} : Reads test [r] w ↔ Matches test r w := by
  simp [Reads]

/-- A state that reads a word is not dead. -/
theorem mem_of_reads {all : List (List (Regex κ) × List (Regex κ))}
    {p : List (Regex κ) × List (Regex κ)} (hp : p.1 = [] ∨ p ∈ all) {w : List α}
    (hw : Reads test p.1 w) : p ∈ all := by
  refine hp.resolve_left fun hnil => ?_
  rw [hnil] at hw
  obtain ⟨r, hr, -⟩ := hw
  cases hr

variable [BEq κ]

/-- The state after a letter, each expression once. -/
def advance (a : α) (s : List (Regex κ)) : List (Regex κ) :=
  (s.flatMap (after test a)).foldr List.insert []

/-- The empty word is read. -/
def accepts (s : List (Regex κ)) : Bool := s.any nullable

theorem mem_foldr_insert [LawfulBEq κ] {r : Regex κ} {l : List (Regex κ)} :
    r ∈ l.foldr List.insert [] ↔ r ∈ l := by
  induction l with
  | nil => rfl
  | cons s l ih => rw [List.foldr_cons, List.mem_insert_iff, ih, List.mem_cons]

theorem reads_cons [LawfulBEq κ] {s : List (Regex κ)} {a : α} {w : List α} :
    Reads test s (a :: w) ↔ Reads test (advance test a s) w := by
  unfold Reads advance
  simp only [matches_cons, mem_foldr_insert, List.mem_flatMap]
  constructor
  · rintro ⟨r, hr, t, ht, hw⟩
    exact ⟨t, ⟨r, hr, ht⟩, hw⟩
  · rintro ⟨t, ⟨r, hr, ht⟩, hw⟩
    exact ⟨r, hr, t, ht, hw⟩

/-- A word is read when the state after it accepts. -/
theorem reads_iff [LawfulBEq κ] {s : List (Regex κ)} {w : List α} :
    Reads test s w ↔ accepts (w.foldl (fun s a => advance test a s) s) = true := by
  induction w generalizing s with
  | nil => simp [Reads, matches_nil, accepts]
  | cons a w ih => rw [reads_cons, ih, List.foldl_cons]

/-- No two letters that are alike lead to different states. -/
theorem advance_alike {a b : α} {ks : List κ} (h : Alike test ks a b) {s : List (Regex κ)}
    (hs : ∀ r ∈ s, ∀ k ∈ letters r, k ∈ ks) : advance test a s = advance test b s := by
  have hafter : s.flatMap (after test a) = s.flatMap (after test b) := by
    rw [List.flatMap_def, List.flatMap_def]
    exact congrArg _ (List.map_congr_left fun r hr =>
      after_alike test fun k hk => h k (hs r hr k hk))
  unfold advance
  rw [hafter]

theorem letters_advance [LawfulBEq κ] {a : α} {ks : List κ} {s : List (Regex κ)}
    (hs : ∀ r ∈ s, ∀ k ∈ letters r, k ∈ ks) :
    ∀ r ∈ advance test a s, ∀ k ∈ letters r, k ∈ ks := by
  intro r hr k hk
  obtain ⟨t, ht, hr⟩ := List.mem_flatMap.mp (mem_foldr_insert.mp hr)
  exact hs t ht k (letters_after test hr k hk)

/-! ## The search -/

/-- The states of two expressions after one word. -/
abbrev Pair (κ : Type) := List (Regex κ) × List (Regex κ)

def Pair.advance (a : α) (p : Pair κ) : Pair κ := (regular.advance test a p.1, regular.advance test a p.2)

/-- When the first expression has the word, what the second makes of it is fit. -/
def Pair.fit (fit : Bool → Bool) (p : Pair κ) : Bool := !accepts p.1 || fit (accepts p.2)

/-- Search the pairs that the letters lead to, as long as the first state can
still accept. A pair that was seen is not searched again. -/
def search (reps : List α) (fit : Bool → Bool) : Nat → List (Pair κ) → List (Pair κ) → Bool
  | _, _, [] => true
  | 0, _, _ => false
  | n + 1, seen, p :: todo =>
    if p.1.isEmpty || seen.contains p then search reps fit n seen todo
    else p.fit fit && search reps fit n (p :: seen) (reps.map (p.advance test) ++ todo)

/-- What the search has found: every pair seen is fit, and the letters lead
from it to a pair that was seen, that is still to do or that is dead. -/
structure Found (reps : List α) (fit : Bool → Bool) (seen todo : List (Pair κ)) : Prop where
  fit : ∀ p ∈ seen, p.fit fit = true
  next : ∀ p ∈ seen, ∀ a ∈ reps,
    (p.advance test a).1 = [] ∨ p.advance test a ∈ seen ∨ p.advance test a ∈ todo

variable {reps : List α} {fit : Bool → Bool}

theorem Found.skip {p : Pair κ} {seen todo : List (Pair κ)} (h : Found test reps fit seen (p :: todo))
    (hp : p.1 = [] ∨ p ∈ seen) : Found test reps fit seen todo where
  fit := h.fit
  next q hq a ha := by
    rcases h.next q hq a ha with hn | hn | hn
    · exact Or.inl hn
    · exact Or.inr (Or.inl hn)
    · rcases List.mem_cons.mp hn with hn | hn
      · rw [hn]
        exact hp.imp id Or.inl
      · exact Or.inr (Or.inr hn)

theorem Found.visit {p : Pair κ} {seen todo : List (Pair κ)} (h : Found test reps fit seen (p :: todo))
    (hp : p.fit fit = true) :
    Found test reps fit (p :: seen) (reps.map (p.advance test) ++ todo) where
  fit := List.forall_mem_cons.mpr ⟨hp, h.fit⟩
  next q hq a ha := by
    rcases List.mem_cons.mp hq with rfl | hq
    · exact Or.inr (Or.inr (List.mem_append_left _ (List.mem_map_of_mem ha)))
    · rcases h.next q hq a ha with hn | hn | hn
      · exact Or.inl hn
      · exact Or.inr (Or.inl (List.mem_cons_of_mem _ hn))
      · rcases List.mem_cons.mp hn with hn | hn
        · exact Or.inr (Or.inl (hn ▸ List.mem_cons_self))
        · exact Or.inr (Or.inr (List.mem_append_right _ hn))

/-- A search that ends has found pairs that no letter leads out of, those to
do among them. -/
theorem found_of_search [LawfulBEq κ] {n : Nat} {seen todo : List (Pair κ)} (h : Found test reps fit seen todo)
    (hs : search test reps fit n seen todo = true) : ∃ all, Found test reps fit all [] ∧
      (∀ p ∈ seen, p ∈ all) ∧ ∀ p ∈ todo, p.1 = [] ∨ p ∈ all := by
  induction n generalizing seen todo with
  | zero =>
    cases todo with
    | nil => exact ⟨seen, h, fun _ hp => hp, by simp⟩
    | cons p todo => cases hs
  | succ n ih =>
    cases todo with
    | nil => exact ⟨seen, h, fun _ hp => hp, by simp⟩
    | cons p todo =>
      rw [search] at hs
      by_cases hp : p.1 = [] ∨ p ∈ seen
      · rw [if_pos (by simpa using hp)] at hs
        obtain ⟨all, hall, hseen, htodo⟩ := ih (h.skip test hp) hs
        exact ⟨all, hall, hseen, List.forall_mem_cons.mpr ⟨hp.imp id (hseen p), htodo⟩⟩
      · rw [if_neg (by simpa using hp), Bool.and_eq_true] at hs
        obtain ⟨all, hall, hseen, htodo⟩ := ih (h.visit test hs.1) hs.2
        obtain ⟨hpall, hseen⟩ := List.forall_mem_cons.mp hseen
        exact ⟨all, hall, hseen, List.forall_mem_cons.mpr
          ⟨Or.inr hpall, fun q hq => htodo q (List.mem_append_right _ hq)⟩⟩

/-- Every word that the first state reads, the second reads or not, as is fit. -/
theorem Found.reads [LawfulBEq κ] {all : List (Pair κ)} (h : Found test reps fit all []) {ks : List κ}
    (hreps : ∀ a, ∃ b ∈ reps, Alike test ks a b) {p : Pair κ} (hp : p.1 = [] ∨ p ∈ all)
    (h1 : ∀ r ∈ p.1, ∀ k ∈ letters r, k ∈ ks) (h2 : ∀ r ∈ p.2, ∀ k ∈ letters r, k ∈ ks)
    {w : List α} (hw : Reads test p.1 w) :
    ∃ b, fit b = true ∧ (b = true ↔ Reads test p.2 w) := by
  induction w generalizing p with
  | nil =>
    have hmem := mem_of_reads test hp hw
    have hfit := h.fit p hmem
    rw [reads_iff] at hw
    rw [List.foldl_nil] at hw
    rw [Pair.fit, hw, Bool.not_true, Bool.false_or] at hfit
    refine ⟨accepts p.2, hfit, ?_⟩
    rw [reads_iff, List.foldl_nil]
  | cons a w ih =>
    have hmem := mem_of_reads test hp hw
    obtain ⟨b, hb, hab⟩ := hreps a
    rw [reads_cons, advance_alike test hab h1] at hw
    rw [reads_cons, advance_alike test hab h2]
    have hnext : (p.advance test b).1 = [] ∨ p.advance test b ∈ all := by
      rcases h.next p hmem b hb with hn | hn | hn
      · exact Or.inl hn
      · exact Or.inr hn
      · cases hn
    exact ih hnext (letters_advance test h1) (letters_advance test h2) hw

/-! ## Classes of numbers -/

/-- A class of numbers: the ranges that it has, or those that it lacks. -/
abbrev Ranges := Bool × List (Nat × Nat)

def inside (k : Ranges) (n : Nat) : Bool := (k.2.any fun r => r.1 ≤ n && n ≤ r.2) != k.1

/-- The numbers where some class begins or ends. -/
def bounds (ks : List Ranges) : List Nat :=
  (0 :: ks.flatMap fun k => k.2.flatMap fun r => [r.1, r.2 + 1]).foldr List.insert []

theorem mem_bounds {ks : List Ranges} {n : Nat} : n ∈ bounds ks ↔
    n = 0 ∨ ∃ k ∈ ks, ∃ r ∈ k.2, n = r.1 ∨ n = r.2 + 1 := by
  have hinsert : ∀ l : List Nat, n ∈ l.foldr List.insert [] ↔ n ∈ l := by
    intro l
    induction l with
    | nil => rfl
    | cons m l ih => rw [List.foldr_cons, List.mem_insert_iff, ih, List.mem_cons]
  rw [bounds, hinsert]
  simp [List.mem_flatMap]

/-- No class tells a number from the greatest bound that is not above it. -/
theorem exists_alike (ks : List Ranges) (n : Nat) : ∃ m ∈ bounds ks, Alike inside ks n m := by
  have hne : ((bounds ks).filter (· ≤ n)).toFinset.Nonempty := by
    refine ⟨0, List.mem_toFinset.mpr (List.mem_filter.mpr ⟨mem_bounds.mpr (Or.inl rfl), ?_⟩)⟩
    simp
  obtain ⟨m, hm, hmax⟩ := Finset.exists_max_image _ id hne
  rw [List.mem_toFinset, List.mem_filter, decide_eq_true_eq] at hm
  refine ⟨m, hm.1, fun k hk => ?_⟩
  have hle : ∀ b ∈ bounds ks, b ≤ n → b ≤ m := by
    intro b hb hbn
    exact hmax b (List.mem_toFinset.mpr (List.mem_filter.mpr ⟨hb, by simpa using hbn⟩))
  unfold inside
  congr 1
  rw [Bool.eq_iff_iff]
  simp only [List.any_eq_true, Bool.and_eq_true, decide_eq_true_eq]
  refine exists_congr fun r => and_congr_right fun hr => ?_
  have hlow := hle r.1 (mem_bounds.mpr (Or.inr ⟨k, hk, r, hr, Or.inl rfl⟩))
  have hhigh := hle (r.2 + 1) (mem_bounds.mpr (Or.inr ⟨k, hk, r, hr, Or.inr rfl⟩))
  omega

/-! ## Inclusion -/

/-- The search for a word of the first expression of which the second makes
what is not fit. -/
def compare (fit : Bool → Bool) (n : Nat) (r s : Regex Ranges) : Bool :=
  search inside (bounds (letters r ++ letters s)) fit n [] [([r], [s])]

theorem reads_of_compare {n : Nat} {r s : Regex Ranges} (h : compare fit n r s = true)
    {w : List Nat} (hw : Matches inside r w) :
    ∃ b, fit b = true ∧ (b = true ↔ Matches inside s w) := by
  obtain ⟨all, hall, -, htodo⟩ := found_of_search inside ⟨by simp, by simp⟩ h
  have hread := hall.reads inside (exists_alike (letters r ++ letters s))
    (htodo _ List.mem_cons_self) (w := w)
  simp only [List.forall_mem_singleton, List.mem_append, reads_singleton] at hread
  exact hread (fun k hk => Or.inl hk) (fun k hk => Or.inr hk) hw

/-- Every word of the first expression is one of the second. -/
theorem included {n : Nat} {r s : Regex Ranges} (h : compare id n r s = true) {w : List Nat}
    (hw : Matches inside r w) : Matches inside s w := by
  obtain ⟨b, hb, hread⟩ := reads_of_compare h hw
  exact hread.mp hb

/-- No word of the first expression is one of the second. -/
theorem disjoint {n : Nat} {r s : Regex Ranges} (h : compare not n r s = true) {w : List Nat}
    (hw : Matches inside r w) : ¬ Matches inside s w := by
  obtain ⟨b, hb, hread⟩ := reads_of_compare h hw
  intro hs
  rw [hread.mpr hs] at hb
  cases hb

end regular
