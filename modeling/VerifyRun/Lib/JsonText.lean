-- The grammar of JSON text, with the nesting of what it writes: the number of
-- arrays and objects that stand one inside the other.
import Mathlib.Data.List.Basic

namespace jsontext

/-- Insignificant space. -/
def Blank (t : List Char) : Prop := ∀ c ∈ t, c = ' ' ∨ c = '\t' ∨ c = '\n' ∨ c = '\r'

/-! ## Strings -/

def Hex (c : Char) : Prop :=
  ('0' ≤ c ∧ c ≤ '9') ∨ ('a' ≤ c ∧ c ≤ 'f') ∨ ('A' ≤ c ∧ c ≤ 'F')

/-- What stands between the quotes of a string. -/
inductive Body : List Char → Prop
  | nil : Body []
  | plain {c : Char} {t : List Char} :
    c ≠ '"' → c ≠ '\\' → ' ' ≤ c → Body t → Body (c :: t)
  | escape {c : Char} {t : List Char} :
    c ∈ ['"', '\\', '/', 'b', 'f', 'n', 'r', 't'] → Body t → Body ('\\' :: c :: t)
  | unit {c1 c2 c3 c4 : Char} {t : List Char} :
    Hex c1 → Hex c2 → Hex c3 → Hex c4 → Body t →
      Body ('\\' :: 'u' :: c1 :: c2 :: c3 :: c4 :: t)

def Quoted (t : List Char) : Prop := ∃ body, Body body ∧ t = '"' :: (body ++ ['"'])

/-! ## Numbers and words -/

def Digits (t : List Char) : Prop := t ≠ [] ∧ ∀ c ∈ t, c.isDigit = true

/-- `0`, or digits that do not start with a zero. -/
def Whole (t : List Char) : Prop := t = ['0'] ∨ Digits t ∧ t.head? ≠ some '0'

def Fraction (t : List Char) : Prop := t = [] ∨ ∃ ds, Digits ds ∧ t = '.' :: ds

def Exponent (t : List Char) : Prop :=
  t = [] ∨ ∃ e sign ds, (e = 'e' ∨ e = 'E') ∧ sign ∈ [[], ['+'], ['-']] ∧ Digits ds ∧
    t = e :: (sign ++ ds)

def Number (t : List Char) : Prop :=
  ∃ sign whole fraction exponent, sign ∈ [[], ['-']] ∧ Whole whole ∧ Fraction fraction ∧
    Exponent exponent ∧ t = sign ++ whole ++ fraction ++ exponent

def Word (t : List Char) : Prop :=
  t = ['n', 'u', 'l', 'l'] ∨ t = ['t', 'r', 'u', 'e'] ∨ t = ['f', 'a', 'l', 's', 'e']

/-! ## Values -/

/-- What a piece of text is: one value, the members of an object, or the items
of an array. -/
inductive Part
  | value
  | members
  | items

/-- The text writes the part, with this nesting. -/
inductive Spells : Part → List Char → Nat → Prop
  | word {t : List Char} : Word t → Spells .value t 0
  | number {t : List Char} : Number t → Spells .value t 0
  | string {t : List Char} : Quoted t → Spells .value t 0
  | noMembers {t : List Char} : Blank t → Spells .value ('{' :: (t ++ ['}'])) 1
  | object {t : List Char} {k : Nat} :
    Spells .members t k → Spells .value ('{' :: (t ++ ['}'])) (k + 1)
  | noItems {t : List Char} : Blank t → Spells .value ('[' :: (t ++ [']'])) 1
  | array {t : List Char} {k : Nat} :
    Spells .items t k → Spells .value ('[' :: (t ++ [']'])) (k + 1)
  | member {a key b c v d : List Char} {k : Nat} :
    Blank a → Quoted key → Blank b → Blank c → Spells .value v k → Blank d →
      Spells .members (a ++ (key ++ (b ++ ':' :: (c ++ (v ++ d))))) k
  | members {t u : List Char} {k l : Nat} :
    Spells .members t k → Spells .members u l → Spells .members (t ++ ',' :: u) (max k l)
  | item {a v b : List Char} {k : Nat} :
    Blank a → Spells .value v k → Blank b → Spells .items (a ++ (v ++ b)) k
  | items {t u : List Char} {k l : Nat} :
    Spells .items t k → Spells .items u l → Spells .items (t ++ ',' :: u) (max k l)

/-- A JSON text whose value nests this deep. -/
def Document (t : List Char) (nesting : Nat) : Prop :=
  ∃ a v b, Blank a ∧ Spells .value v nesting ∧ Blank b ∧ t = a ++ (v ++ b)

/-! ## The characters that carry the structure -/

/-- A character that no space, number or word has. -/
def Structural (c : Char) : Prop := c = '"' ∨ c = '{' ∨ c = '[' ∨ c = '}' ∨ c = ']'

theorem Blank.plain {t : List Char} (h : Blank t) {c : Char} (hc : c ∈ t) : ¬ Structural c := by
  unfold Structural
  rcases h c hc with rfl | rfl | rfl | rfl <;> decide

theorem not_structural_of_digit {c : Char} (h : c.isDigit = true) : ¬ Structural c := by
  rintro (rfl | rfl | rfl | rfl | rfl) <;> simp at h

theorem Digits.plain {t : List Char} (h : Digits t) {c : Char} (hc : c ∈ t) : ¬ Structural c :=
  not_structural_of_digit (h.2 c hc)

theorem Whole.plain {t : List Char} (h : Whole t) {c : Char} (hc : c ∈ t) : ¬ Structural c := by
  rcases h with rfl | ⟨hd, _⟩
  · rw [List.mem_singleton] at hc
    subst hc
    exact not_structural_of_digit (by decide)
  · exact hd.plain hc

theorem Fraction.plain {t : List Char} (h : Fraction t) {c : Char} (hc : c ∈ t) :
    ¬ Structural c := by
  rcases h with rfl | ⟨ds, hd, rfl⟩
  · cases hc
  · rcases List.mem_cons.mp hc with rfl | hc
    · unfold Structural
      decide
    · exact hd.plain hc

theorem Exponent.plain {t : List Char} (h : Exponent t) {c : Char} (hc : c ∈ t) :
    ¬ Structural c := by
  rcases h with rfl | ⟨e, sign, ds, he, hs, hd, rfl⟩
  · cases hc
  rcases List.mem_cons.mp hc with rfl | hc
  · unfold Structural
    rcases he with rfl | rfl <;> decide
  rcases List.mem_append.mp hc with hc | hc
  · unfold Structural
    simp only [List.mem_cons, List.not_mem_nil, or_false] at hs
    rcases hs with rfl | rfl | rfl
    · cases hc
    all_goals
      rw [List.mem_singleton] at hc
      subst hc
      decide
  · exact hd.plain hc

theorem Number.plain {t : List Char} (h : Number t) {c : Char} (hc : c ∈ t) : ¬ Structural c := by
  obtain ⟨sign, whole, fraction, exponent, hs, hw, hf, he, rfl⟩ := h
  rcases List.mem_append.mp hc with hc | hc
  · rcases List.mem_append.mp hc with hc | hc
    · rcases List.mem_append.mp hc with hc | hc
      · unfold Structural
        simp only [List.mem_cons, List.not_mem_nil, or_false] at hs
        rcases hs with rfl | rfl
        · cases hc
        · rw [List.mem_singleton] at hc
          subst hc
          decide
      · exact hw.plain hc
    · exact hf.plain hc
  · exact he.plain hc

theorem Word.plain {t : List Char} (h : Word t) : ∀ {c : Char}, c ∈ t → ¬ Structural c := by
  unfold Structural
  rcases h with rfl | rfl | rfl <;> simp

end jsontext
