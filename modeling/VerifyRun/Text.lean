-- Python text: a string is a list of code points, and a code point may be
-- a lone surrogate, which no UTF-8 text can carry.
import Mathlib

namespace vfy

/-- One code point of a Python string: a Unicode scalar value, or one of the
code points U+D800-U+DFFF. -/
inductive CodePoint where
  | scalar (c : Char)
  | surrogate (n : Fin 0x800)
deriving DecidableEq

/-- `ord`. -/
def CodePoint.ord : CodePoint → Nat
  | .scalar c => c.toNat
  | .surrogate n => 0xD800 + n.val

theorem CodePoint.ord_injective : Function.Injective CodePoint.ord := by
  intro a b h
  cases a with
  | scalar c =>
    cases b with
    | scalar d => exact congrArg _ (Char.toNat_inj.mp h)
    | surrogate n =>
      simp only [ord] at h
      have hv : c.toNat.isValidChar := c.valid
      simp only [Nat.isValidChar] at hv
      omega
  | surrogate m =>
    cases b with
    | scalar d =>
      simp only [ord] at h
      have hv : d.toNat.isValidChar := d.valid
      simp only [Nat.isValidChar] at hv
      omega
    | surrogate n =>
      simp only [ord] at h
      congr 1
      omega

/-- Code points are ordered by their number, as Python orders characters. -/
instance : LinearOrder CodePoint := LinearOrder.lift' CodePoint.ord CodePoint.ord_injective

/-- A Python string. -/
abbrev Str := List CodePoint

instance lawfulBEqStr : LawfulBEq Str := inferInstance

/-- Text with no surrogate: what UTF-8 bytes decode to. -/
abbrev Text := List Char

/-- The string of a text. -/
def ofText (t : Text) : Str := t.map .scalar

/-- The string of a literal of the source. -/
def lit (s : String) : Str := ofText s.toList

instance : Coe String Str := ⟨lit⟩

theorem ofText_injective : Function.Injective ofText :=
  List.map_injective_iff.mpr fun a b h => by cases h; rfl

@[simp] theorem ofText_inj {a b : Text} : ofText a = ofText b ↔ a = b := ofText_injective.eq_iff

@[simp] theorem lit_inj {a b : String} : lit a = lit b ↔ a = b := by
  unfold lit
  rw [ofText_inj, String.toList_inj]

/-- Looking a literal up passes over another literal. -/
@[simp] theorem lookup_lit_ne {β : Type} {a b : String} (h : a ≠ b) (v : β)
    (l : List (Str × β)) : List.lookup (lit a) ((lit b, v) :: l) = l.lookup (lit a) := by
  have hb : (lit a == lit b) = false := by simpa using h
  rw [List.lookup_cons, hb]

/-- The text of a string with no surrogate. -/
def toText? (s : Str) : Option Text :=
  s.mapM fun c =>
    match c with
    | .scalar ch => some ch
    | .surrogate _ => none

@[simp] theorem toText?_ofText (t : Text) : toText? (ofText t) = some t := by
  induction t with
  | nil => rfl
  | cons c t ih =>
    simp only [toText?, ofText, List.map_cons, List.mapM_cons] at ih ⊢
    rw [ih]
    rfl

/-- The string has no surrogate. -/
def Encodable (s : Str) : Prop := ∀ c ∈ s, ∃ ch, c = .scalar ch

@[simp] theorem encodable_ofText (t : Text) : Encodable (ofText t) := by
  intro c hc
  obtain ⟨ch, _, rfl⟩ := List.mem_map.mp hc
  exact ⟨ch, rfl⟩

@[simp] theorem encodable_lit (s : String) : Encodable (lit s) := encodable_ofText _

/-- A string with no surrogate is the string of a text. -/
@[simp] theorem encodable_append {s t : Str} :
    Encodable (s ++ t) ↔ Encodable s ∧ Encodable t := by
  simp [Encodable, or_imp, forall_and]

end vfy
