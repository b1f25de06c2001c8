-- Regular expressions: the syntax that a schema's `pattern` is written in,
-- and what it means for one to match a whole string.
import VerifyRun.Text

namespace vfy.re

/-- A compiled pattern. -/
inductive Re where
  | empty
  | char (c : CodePoint)
  | any
  | set (negated : Bool) (ranges : List (CodePoint × CodePoint))
  | start
  | stop
  | seq (a b : Re)
  | alt (a b : Re)
  | rep (r : Re) (least : Nat) (most : Option Nat)
deriving DecidableEq

/-! ## Matching -/

/-- A place in a string: how many characters are before it, and the rest. -/
abbrev Place := Nat × Str

/-- The places after exactly `n` steps. -/
def times (step : Place → List Place) : Nat → Place → List Place
  | 0, p => [p]
  | n + 1, p => (step p).flatMap (times step n)

/-- The places after at most `n` steps. -/
def upTo (step : Place → List Place) : Nat → Place → List Place
  | 0, p => [p]
  | n + 1, p => p :: (step p).flatMap (upTo step n)

def inRanges (ranges : List (CodePoint × CodePoint)) (c : CodePoint) : Bool :=
  ranges.any fun r => r.1 ≤ c ∧ c ≤ r.2

/-- Where a match of the pattern that starts at a place can end. -/
def ends : Re → Place → List Place
  | .empty, p => [p]
  | .char c, (i, d :: rest) => if c = d then [(i + 1, rest)] else []
  | .char _, (_, []) => []
  | .any, (i, d :: rest) => if d = .scalar '\n' then [] else [(i + 1, rest)]
  | .any, (_, []) => []
  | .set negated ranges, (i, d :: rest) =>
    if inRanges ranges d != negated then [(i + 1, rest)] else []
  | .set _ _, (_, []) => []
  | .start, (i, rest) => if i = 0 then [(i, rest)] else []
  | .stop, (i, rest) => if rest = [] ∨ rest = [.scalar '\n'] then [(i, rest)] else []
  | .seq a b, p => (ends a p).flatMap (ends b)
  | .alt a b, p => ends a p ++ ends b p
  | .rep r least most, p => (times (ends r) least p).flatMap fun q =>
      -- an unbounded repetition needs no more steps than there are characters
      upTo (ends r) (match most with
        | some m => m - least
        | none => q.2.length) q

/-- The pattern matches the whole string. -/
def matchesWhole (r : Re) (s : Str) : Bool := (ends r (0, s)).any fun p => p.2 = []

/-! ## Syntax -/

def digit? : CodePoint → Option Nat
  | .scalar c => if '0' ≤ c ∧ c ≤ '9' then some (c.toNat - 48) else none
  | .surrogate _ => none

/-- A decimal number at the head of the string, if there is one. -/
def decimal? (s : Str) : Option Nat × Str :=
  match s with
  | c :: rest =>
    match digit? c with
    | some d => go d rest
    | none => (none, s)
  | [] => (none, [])
where
  go (n : Nat) : Str → Option Nat × Str
    | c :: rest =>
      match digit? c with
      | some d => go (n * 10 + d) rest
      | none => (some n, c :: rest)
    | [] => (some n, [])

/-- What an escape stands for. A letter that stands for nothing is an error. -/
def escape : CodePoint → Option CodePoint
  | .scalar 'n' => some (.scalar '\n')
  | .scalar 't' => some (.scalar '\t')
  | .scalar 'r' => some (.scalar '\r')
  | .scalar 'f' => some (.scalar '\x0c')
  | .scalar 'v' => some (.scalar '\x0b')
  | .scalar 'a' => some (.scalar '\x07')
  | .scalar c => if c.isAlphanum then none else some (.scalar c)
  | .surrogate n => some (.surrogate n)

/-- The value of a hexadecimal digit. -/
def hexDigit? : CodePoint → Option Nat
  | .scalar c =>
    if '0' ≤ c ∧ c ≤ '9' then some (c.toNat - 48)
    else if 'a' ≤ c ∧ c ≤ 'f' then some (c.toNat - 87)
    else if 'A' ≤ c ∧ c ≤ 'F' then some (c.toNat - 55)
    else none
  | .surrogate _ => none

/-- The number that exactly so many hexadecimal digits write, after `n`. -/
def hexadecimal? : Nat → Nat → Str → Option (Nat × Str)
  | 0, n, s => some (n, s)
  | _ + 1, _, [] => none
  | k + 1, n, c :: rest => do
    let d ← hexDigit? c
    hexadecimal? k (n * 16 + d) rest

/-- The number that at most so many octal digits write, after `n`. -/
def octal : Nat → Nat → Str → Nat × Str
  | k + 1, n, c :: rest =>
    match digit? c with
    | some d => if d < 8 then octal k (n * 8 + d) rest else (n, c :: rest)
    | none => (n, c :: rest)
  | _, n, s => (n, s)

/-- `chr(n)`, if `n` is a code point. -/
def codePoint? (n : Nat) : Option CodePoint :=
  if h : 0xD800 ≤ n ∧ n < 0xE000 then some (.surrogate ⟨n - 0xD800, by omega⟩)
  else if n < 0x110000 then some (.scalar (Char.ofNat n))
  else none

def numbered (digits : Nat) (s : Str) : Option (CodePoint × Str) := do
  let (n, rest) ← hexadecimal? digits 0 s
  let c ← codePoint? n
  some (c, rest)

/-- What the release of Unicode decides: what `\D`, `\S` and `\W` match, and
which character has a name. -/
structure Unicode where
  nondigits : List (CodePoint × CodePoint)
  nonspaces : List (CodePoint × CodePoint)
  nonwords : List (CodePoint × CodePoint)
  lookup : Str → Option CodePoint

/-- The text up to a closing brace. A backslash is read with the character after it. -/
def untilBrace : Str → Option (Str × Str)
  | .scalar '}' :: rest => some ([], rest)
  | .scalar '\\' :: c :: rest => (untilBrace rest).map fun p => (.scalar '\\' :: c :: p.1, p.2)
  | c :: rest => (untilBrace rest).map fun p => (c :: p.1, p.2)
  | [] => none

/-- The character that is named in braces. -/
def named (unicode : Option Unicode) (s : Str) : Option (CodePoint × Str) := do
  let (name, rest) ← untilBrace s
  let c ← unicode.bind fun u => u.lookup name
  some (c, rest)

section

variable (unicode : Option Unicode)

/-- The character that an escape writes, after its backslash. -/
def escaped : Str → Option (CodePoint × Str)
  | .scalar 'x' :: rest => numbered 2 rest
  | .scalar 'u' :: rest => numbered 4 rest
  | .scalar 'U' :: rest => numbered 8 rest
  | .scalar 'N' :: .scalar '{' :: rest => named unicode rest
  | .scalar '0' :: rest => (codePoint? (octal 2 0 rest).1).map fun c => (c, (octal 2 0 rest).2)
  | c :: rest => (escape c).map fun d => (d, rest)
  | [] => none

/-- The class escape at the head of the string. -/
def category : Str → Option (List (CodePoint × CodePoint) × Str)
  | .scalar '\\' :: .scalar 'D' :: rest => unicode.map fun u => (u.nondigits, rest)
  | .scalar '\\' :: .scalar 'S' :: rest => unicode.map fun u => (u.nonspaces, rest)
  | .scalar '\\' :: .scalar 'W' :: rest => unicode.map fun u => (u.nonwords, rest)
  | _ => none

/-- One character of a class, which an escape can write. -/
def classCharacter : Str → Option (CodePoint × Str)
  | .scalar '\\' :: rest => escaped unicode rest
  | c :: rest => some (c, rest)
  | [] => none

/-- The range at the head of a class: two characters, or one. -/
def classRange (s : Str) : Option ((CodePoint × CodePoint) × Str) := do
  let (c, rest) ← classCharacter unicode s
  match rest with
  | .scalar '-' :: .scalar ']' :: _ => some ((c, c), rest)
  | .scalar '-' :: rest => do
    let (d, rest) ← classCharacter unicode rest
    if d < c then none else some ((c, d), rest)
  | _ => some ((c, c), rest)

/-- A range, or a class escape, which no range starts or ends with. -/
def classItem (s : Str) : Option (List (CodePoint × CodePoint) × Str) :=
  match category unicode s with
  | some (ranges, rest) =>
    match rest with
    | .scalar '-' :: .scalar ']' :: _ => some (ranges, rest)
    | .scalar '-' :: _ => none
    | _ => some (ranges, rest)
  | none => (classRange unicode s).map fun p => ([p.1], p.2)

/-- The ranges of a class up to its closing bracket. A bracket that comes
first is a character of the class. -/
def classRanges : Nat → Bool → Str → Option (List (CodePoint × CodePoint) × Str)
  | 0, _, _ => none
  | fuel + 1, first, s =>
    match first, s with
    | false, .scalar ']' :: rest => some ([], rest)
    | _, _ => do
      let (item, rest) ← classItem unicode s
      let (ranges, rest) ← classRanges fuel false rest
      some (item ++ ranges, rest)

end

/-- The bounds of a quantifier at the head of the string. A brace that opens
no bounds is a character. -/
def bounds? : Str → Option ((Nat × Option Nat) × Str)
  | .scalar '*' :: rest => some ((0, none), rest)
  | .scalar '+' :: rest => some ((1, none), rest)
  | .scalar '?' :: rest => some ((0, some 1), rest)
  | .scalar '{' :: rest =>
    match decimal? rest with
    | (some n, .scalar '}' :: rest) => some ((n, some n), rest)
    | (least, .scalar ',' :: rest) =>
      match decimal? rest with
      | (most, .scalar '}' :: rest) =>
        some ((least.getD 0, most), rest)
      | _ => none
    | _ => none
  | _ => none

/-- What stands after a comment that has begun. -/
def afterComment : Str → Option Str
  | .scalar ')' :: rest => some rest
  | .scalar '\\' :: _ :: rest => afterComment rest
  | _ :: rest => afterComment rest
  | [] => none

/-- The string without the comments at its head, of which there are so many at most. -/
def skipComments : Nat → Str → Str
  | n + 1, .scalar '(' :: .scalar '?' :: .scalar '#' :: rest =>
    match afterComment rest with
    | some rest => skipComments n rest
    | none => .scalar '(' :: .scalar '?' :: .scalar '#' :: rest
  | _, s => s

/-- No quantifier repeats an item so often. -/
def MAXREPEAT : Nat := 4294967295

/-- An item with the quantifier that stands after it. A quantifier of a
quantifier, or of an anchor, is an error. -/
def quantified (item : Re) (s : Str) : Option (Re × Str) :=
  match bounds? (skipComments s.length s) with
  | none => some (item, s)
  | some ((least, most), rest) =>
    let rest := match rest with
      | .scalar '?' :: rest => rest
      | rest => rest
    if item = .start ∨ item = .stop ∨ (bounds? (skipComments rest.length rest)).isSome then none
    else if most.any (· < least) ∨ MAXREPEAT ≤ least ∨ most.any (MAXREPEAT ≤ ·) then none
    else some (.rep item least most, rest)

section

variable (unicode : Option Unicode)

mutual

/-- Alternatives, up to the end or to a closing parenthesis. -/
def alternatives : Nat → Str → Option (Re × Str)
  | 0, _ => none
  | fuel + 1, s => do
    let (a, rest) ← branch fuel s
    match rest with
    | .scalar '|' :: rest => do
      let (b, rest) ← alternatives fuel rest
      some (.alt a b, rest)
    | _ => some (a, rest)

def branch : Nat → Str → Option (Re × Str)
  | 0, _ => none
  | fuel + 1, s =>
    match skipComments s.length s with
    | [] => some (.empty, [])
    | .scalar '|' :: rest => some (.empty, .scalar '|' :: rest)
    | .scalar ')' :: rest => some (.empty, .scalar ')' :: rest)
    | s => do
      let (item, rest) ← atom fuel s
      let (item, rest) ← quantified item rest
      let (more, rest) ← branch fuel rest
      some (.seq item more, rest)

def atom : Nat → Str → Option (Re × Str)
  | 0, _ => none
  | _ + 1, [] => none
  | fuel + 1, c :: s =>
    match c with
    | .scalar '(' =>
      match s with
      | .scalar '?' :: .scalar ':' :: rest => group fuel rest
      | .scalar '?' :: _ => none
      | rest => group fuel rest
    | .scalar '[' =>
      match s with
      | .scalar '^' :: rest => (classRanges unicode fuel true rest).map fun p => (.set true p.1, p.2)
      | rest => (classRanges unicode fuel true rest).map fun p => (.set false p.1, p.2)
    | .scalar '.' => some (.any, s)
    | .scalar '^' => some (.start, s)
    | .scalar '$' => some (.stop, s)
    | .scalar '*' => none
    | .scalar '+' => none
    | .scalar '?' => none
    | .scalar '{' => if (bounds? (c :: s)).isSome then none else some (.char c, s)
    | .scalar '\\' =>
      match category unicode (c :: s) with
      | some (ranges, rest) => some (.set false ranges, rest)
      | none => (escaped unicode s).map fun p => (.char p.1, p.2)
    | _ => some (.char c, s)

def group : Nat → Str → Option (Re × Str)
  | 0, _ => none
  | fuel + 1, s => do
    let (r, rest) ← alternatives fuel s
    match rest with
    | .scalar ')' :: rest => some (r, rest)
    | _ => none

end

end

/-- `re.compile(pattern)`, or nothing for a pattern that does not compile. -/
def compileWith (unicode : Option Unicode) (pattern : Str) : Option Re :=
  match alternatives unicode (4 * pattern.length + 4) pattern with
  | some (r, []) => some r
  | _ => none

/-- `re.compile(pattern)` of a pattern that has no class escape and names no character. -/
def compile (pattern : Str) : Option Re := compileWith none pattern

/-- A library of regular expressions: which strings a pattern that compiles
matches as a whole. -/
class Engine where
  matcher : Str → Option (Str → Bool)

/-- The expressions that are written above. -/
instance python : Engine := ⟨fun pattern => (compile pattern).map matchesWhole⟩

/-- `re.fullmatch(pattern, string)`, as a truth value. -/
def fullmatch [engine : Engine] (pattern s : Str) : Option Bool :=
  (engine.matcher pattern).map fun takes => takes s

theorem fullmatch_eq_map (pattern s : Str) :
    fullmatch pattern s = (compile pattern).map fun r => matchesWhole r s :=
  Option.map_map ..

theorem fullmatch_eq_true {pattern s : Str} {r : Re} (hc : compile pattern = some r) {i : Nat}
    (hm : (i, []) ∈ ends r (0, s)) : fullmatch pattern s = some true := by
  simp only [fullmatch_eq_map, hc, Option.map_some, matchesWhole, Option.some.injEq,
    List.any_eq_true, decide_eq_true_eq]
  exact ⟨_, hm, rfl⟩

theorem mem_ends_seq {a b : Re} {p m q : Place} (ha : m ∈ ends a p) (hb : q ∈ ends b m) :
    q ∈ ends (.seq a b) p :=
  List.mem_flatMap.mpr ⟨m, ha, hb⟩

theorem ends_char (c d : CodePoint) (rest : Str) (i : Nat) :
    ends (.char c) (i, d :: rest) = if c = d then [(i + 1, rest)] else [] := rfl

theorem ends_set (ranges : List (CodePoint × CodePoint)) (d : CodePoint) (rest : Str) (i : Nat) :
    ends (.set false ranges) (i, d :: rest) =
      if inRanges ranges d != false then [(i + 1, rest)] else [] := rfl

theorem ends_rep (r : Re) (least : Nat) (most : Option Nat) (p : Place) :
    ends (.rep r least most) p = (times (ends r) least p).flatMap fun q =>
      upTo (ends r) (match most with
        | some m => m - least
        | none => q.2.length) q := rfl

theorem mem_ends_char (c : CodePoint) (rest : Str) (i : Nat) :
    (i + 1, rest) ∈ ends (.char c) (i, c :: rest) := by
  rw [ends_char, if_pos rfl]
  exact List.mem_singleton_self _

/-- A class matches one character after another. -/
theorem mem_times_set {ranges : List (CodePoint × CodePoint)} {s : Str}
    (h : ∀ c ∈ s, inRanges ranges c = true) (rest : Str) (i : Nat) :
    (i + s.length, rest) ∈ times (ends (.set false ranges)) s.length (i, s ++ rest) := by
  induction s generalizing i with
  | nil => exact List.mem_singleton_self _
  | cons c s ih =>
    have hrest := ih (fun d hd => h d (by simp [hd])) (i + 1)
    rw [Nat.add_assoc, Nat.add_comm 1] at hrest
    refine List.mem_flatMap.mpr ⟨(i + 1, s ++ rest), ?_, hrest⟩
    rw [List.cons_append, ends_set, h c (by simp)]
    exact List.mem_singleton_self _

/-- A class that is repeated so often matches that many of its characters. -/
theorem mem_ends_rep_set {ranges : List (CodePoint × CodePoint)} {s : Str}
    (h : ∀ c ∈ s, inRanges ranges c = true) (rest : Str) (i : Nat) :
    (i + s.length, rest) ∈
      ends (.rep (.set false ranges) s.length (some s.length)) (i, s ++ rest) := by
  rw [ends_rep]
  refine List.mem_flatMap.mpr ⟨_, mem_times_set h rest i, ?_⟩
  dsimp only
  rw [Nat.sub_self]
  exact List.mem_singleton_self _

theorem mem_upTo {step : Place → List Place} {n m : Nat} (h : n ≤ m) {p q : Place}
    (hq : q ∈ times step n p) : q ∈ upTo step m p := by
  induction n generalizing m p with
  | zero =>
    obtain rfl := List.mem_singleton.mp hq
    cases m with
    | zero => exact List.mem_singleton_self _
    | succ m => exact List.mem_cons_self
  | succ n ih =>
    obtain ⟨p', hp', hq'⟩ := List.mem_flatMap.mp hq
    cases m with
    | zero => omega
    | succ m =>
      exact List.mem_cons_of_mem _ (List.mem_flatMap.mpr ⟨p', hp', ih (by omega) hq'⟩)

/-- A class that is repeated without a bound matches any number of its characters. -/
theorem mem_ends_star_set {ranges : List (CodePoint × CodePoint)} {s : Str}
    (h : ∀ c ∈ s, inRanges ranges c = true) (rest : Str) (i : Nat) :
    (i + s.length, rest) ∈ ends (.rep (.set false ranges) 0 none) (i, s ++ rest) := by
  rw [ends_rep]
  refine List.mem_flatMap.mpr ⟨(i, s ++ rest), List.mem_singleton_self _, ?_⟩
  exact mem_upTo (by simp) (mem_times_set h rest i)

example : fullmatch "^[a-z0-9][a-z0-9-]{1,3}$" "ab-c" = some true := by decide +kernel

end vfy.re
