-- Canonical serialization. The source walks the value with a stack of its
-- own; `encode` is the same text by recursion over the value, and the first
-- law says that the walk computes it.
import VerifyRun.Value
import VerifyRun.Errors
import VerifyRun.Lib.Outcomes
import VerifyRun.Lib.Sha256

namespace vfy.canon

open keys outcomes

def MAX_SAFE_INTEGER : Int := 2 ^ 53 - 1

def MIN_SAFE_INTEGER : Int := -(2 ^ 53 - 1)

/-- `str(value)` of an integer. -/
def decimal : Int → Text
  | .ofNat n => Nat.toDigits 10 n
  | .negSucc n => '-' :: Nat.toDigits 10 (n + 1)

def integer_text (value : Int) : Except Exn Text :=
  if value < MIN_SAFE_INTEGER ∨ MAX_SAFE_INTEGER < value then
    .error (fail .canonical_form_invalid
      "Integer outside the range every implementation holds exactly.")
  else .ok (decimal value)

/-- `_NAMED_ESCAPES`. -/
def named_escapes : Char → Option Text
  | '"' => some ['\\', '"']
  | '\\' => some ['\\', '\\']
  | '\x08' => some ['\\', 'b']
  | '\t' => some ['\\', 't']
  | '\n' => some ['\\', 'n']
  | '\x0c' => some ['\\', 'f']
  | '\r' => some ['\\', 'r']
  | _ => none

/-- `"%04x" % n`, for a number of at most four hexadecimal digits. -/
def hex4 (n : Nat) : Text :=
  [Nat.digitChar (n / 4096 % 16), Nat.digitChar (n / 256 % 16), Nat.digitChar (n / 16 % 16),
    Nat.digitChar (n % 16)]

/-- One turn of the loop of `_string_text`. -/
def character_text : CodePoint → Except Exn Text
  | .scalar c =>
    match named_escapes c with
    | some escape => .ok escape
    | none => if c < ' ' then .ok ('\\' :: 'u' :: hex4 c.toNat) else .ok [c]
  | .surrogate _ =>
    .error (fail .surrogate_not_permitted "A string may not carry a code point in U+D800-U+DFFF.")

def string_text (value : Str) : Except Exn Text := do
  let pieces ← value.mapM character_text
  pure ('"' :: (pieces.flatten ++ ['"']))

/-! ## The walk with its own stack -/

inductive Frame where
  | text (t : Text)
  | value (v : Value)
  | key (k : Str)

def array_frames (value : List Value) : List Frame :=
  .text ['['] :: (List.intercalate [.text [',']] (value.map fun item => [.value item]) ++
    [.text [']']])

def object_frames (value : List (Str × Value)) : List Frame :=
  .text ['{'] :: (List.intercalate [.text [',']]
    ((sortByKey value).map fun m => [.key m.1, .value m.2]) ++ [.text ['}']])

mutual

/-- More than the weight of all the frames that a value unfolds to. -/
def weightOf : Value → Nat
  | .list items => weightOfItems items + 3
  | .dict members => weightOfMembers members + 3
  | _ => 1

def weightOfItems : List Value → Nat
  | [] => 0
  | v :: rest => weightOf v + 1 + weightOfItems rest

def weightOfMembers : List (Str × Value) → Nat
  | [] => 0
  | m :: rest => weightOf m.2 + 2 + weightOfMembers rest

end

def Frame.weight : Frame → Nat
  | .text _ => 1
  | .value v => weightOf v
  | .key _ => 1

def weight (stack : List Frame) : Nat := (stack.map Frame.weight).sum

theorem weightOf_pos (v : Value) : 0 < weightOf v := by
  cases v <;> simp [weightOf]

theorem weightOfItems_eq (items : List Value) :
    weightOfItems items = (items.map fun v => weightOf v + 1).sum := by
  induction items with
  | nil => rfl
  | cons v rest ih => simp [weightOfItems, ih]

theorem weightOfMembers_eq (members : List (Str × Value)) :
    weightOfMembers members = (members.map fun m => weightOf m.2 + 2).sum := by
  induction members with
  | nil => rfl
  | cons m rest ih => simp [weightOfMembers, ih]

@[simp] theorem weight_append (a b : List Frame) : weight (a ++ b) = weight a + weight b := by
  simp [weight]

@[simp] theorem weight_cons (f : Frame) (a : List Frame) :
    weight (f :: a) = f.weight + weight a := by
  simp [weight]

@[simp] theorem weight_nil : weight [] = 0 := rfl

theorem weight_intercalate_le (ls : List (List Frame)) :
    weight (List.intercalate [.text [',']] ls) ≤ (ls.map fun l => weight l + 1).sum := by
  induction ls with
  | nil => simp [List.intercalate]
  | cons l rest ih =>
    cases rest with
    | nil => simp [List.intercalate]
    | cons m rest =>
      rw [List.intercalate_cons_cons]
      simp only [weight_append, weight_cons, weight_nil, Frame.weight, List.map_cons,
        List.sum_cons] at ih ⊢
      omega

theorem weight_array_frames (items : List Value) :
    weight (array_frames items) < weightOf (.list items) := by
  have h := weight_intercalate_le (items.map fun item => [Frame.value item])
  have he : ((items.map fun item => [Frame.value item]).map fun l => weight l + 1).sum =
      weightOfItems items := by
    rw [weightOfItems_eq, List.map_map]
    rfl
  rw [he] at h
  simp only [array_frames, weight_cons, weight_append, weight_nil, Frame.weight, weightOf]
  omega

theorem weight_object_frames (members : List (Str × Value)) :
    weight (object_frames members) < weightOf (.dict members) := by
  have h := weight_intercalate_le
    ((sortByKey members).map fun m => [Frame.key m.1, Frame.value m.2])
  have he : (((sortByKey members).map fun m => [Frame.key m.1, Frame.value m.2]).map
      fun l => weight l + 1).sum = weightOfMembers members := by
    rw [weightOfMembers_eq, List.map_map, ← ((sortByKey_perm members).map _).sum_eq]
    refine congrArg List.sum (List.map_congr_left fun m _ => ?_)
    simp only [Function.comp, weight_cons, weight_nil, Frame.weight]
    omega
  rw [he] at h
  simp only [object_frames, weight_cons, weight_append, weight_nil, Frame.weight, weightOf]
  omega

/-- The `while stack` loop. `out` is the text of the pieces written so far. -/
def walk (stack : List Frame) (out : Text) : Except Exn Text :=
  match stack with
  | [] => .ok out
  | .text item :: rest => walk rest (out ++ item)
  | .key item :: rest => do
    let t ← string_text item
    walk rest (out ++ (t ++ [':']))
  | .value .null :: rest => walk rest (out ++ ['n', 'u', 'l', 'l'])
  | .value (.bool true) :: rest => walk rest (out ++ ['t', 'r', 'u', 'e'])
  | .value (.bool false) :: rest => walk rest (out ++ ['f', 'a', 'l', 's', 'e'])
  | .value (.int item) :: rest => do
    let t ← integer_text item
    walk rest (out ++ t)
  | .value (.str item) :: rest => do
    let t ← string_text item
    walk rest (out ++ t)
  | .value (.list item) :: rest => walk (array_frames item ++ rest) out
  | .value (.dict item) :: rest => walk (object_frames item ++ rest) out
termination_by weight stack
decreasing_by
  all_goals simp only [weight_cons, weight_append, Frame.weight, weightOf]
  all_goals try omega
  · have := weight_array_frames item
    simp only [weightOf] at this
    omega
  · have := weight_object_frames item
    simp only [weightOf] at this
    omega

/-- The canonical text for a value. -/
def canonicalize (value : Value) : Except Exn Text := walk [.value value] []

/-- The canonical UTF-8 bytes for a value. -/
def canonical_bytes (value : Value) : Except Exn ByteArray := do
  let text ← canonicalize value
  pure (String.ofList text).toByteArray

/-! ## Digests -/

/-- `hashlib.sha256(data).hexdigest()`. -/
def sha256_hexdigest (data : ByteArray) : Text := sha256.hexdigest (data.data.toList.map UInt8.toNat)

/-- The lowercase hex sha256 of a text encoded as UTF-8. -/
def hex_digest_of_text (text : Str) : Except Exn Text :=
  match toText? text with
  | some t => .ok (sha256_hexdigest (String.ofList t).toByteArray)
  | none => .error (fail .surrogate_not_permitted
      "A string may not carry a code point in U+D800-U+DFFF.")

/-- The prefixed digest of a value. -/
def digest (value : Value) : Except Exn Str := do
  let data ← canonical_bytes value
  pure (lit "sha256:" ++ ofText (sha256_hexdigest data))

/-! ## The text by recursion -/

mutual

/-- The canonical text of a value, by recursion over the value. -/
def encode : Value → Except Exn Text
  | .null => .ok ['n', 'u', 'l', 'l']
  | .bool true => .ok ['t', 'r', 'u', 'e']
  | .bool false => .ok ['f', 'a', 'l', 's', 'e']
  | .int i => integer_text i
  | .str s => string_text s
  | .list items => do
    let ts ← encodeItems items
    pure ('[' :: (List.intercalate [','] ts ++ [']']))
  | .dict members => do
    let ts ← (sortByKey (encodeMembers members)).mapM fun m => do
      let k ← string_text m.1
      let t ← m.2
      pure (k ++ ':' :: t)
    pure ('{' :: (List.intercalate [','] ts ++ ['}']))

def encodeItems : List Value → Except Exn (List Text)
  | [] => .ok []
  | v :: rest => do
    let t ← encode v
    let ts ← encodeItems rest
    pure (t :: ts)

def encodeMembers : List (Str × Value) → List (Str × Except Exn Text)
  | [] => []
  | (k, v) :: rest => (k, encode v) :: encodeMembers rest

end

/-- The text of one member of a mapping. -/
def memberText (m : Str × Value) : Except Exn Text := do
  let k ← string_text m.1
  let t ← encode m.2
  pure (k ++ ':' :: t)

theorem encodeItems_eq (items : List Value) : encodeItems items = items.mapM encode := by
  induction items with
  | nil => rfl
  | cons v rest ih => simp [encodeItems, ih]

theorem encodeMembers_eq (members : List (Str × Value)) :
    encodeMembers members = members.map fun m => (m.1, encode m.2) := by
  induction members with
  | nil => rfl
  | cons m rest ih => simp [encodeMembers, ih]

theorem encode_list (items : List Value) :
    encode (.list items) = (do
      let ts ← items.mapM encode
      pure ('[' :: (List.intercalate [','] ts ++ [']']))) := by
  rw [encode, encodeItems_eq]

theorem encode_dict (members : List (Str × Value)) :
    encode (.dict members) = (do
      let ts ← (sortByKey members).mapM memberText
      pure ('{' :: (List.intercalate [','] ts ++ ['}']))) := by
  rw [encode, encodeMembers_eq, sortByKey_map_snd, List.mapM_map]
  rfl

/-! ## The walk computes the recursion -/

theorem walk_intercalate {α : Type} (frames : α → List Frame) (text : α → Except Exn Text)
    (ls : List α) (hl : ∀ a ∈ ls, ∀ rest out, walk (frames a ++ rest) out = (do
      let t ← text a
      walk rest (out ++ t))) (rest : List Frame) (out : Text) :
    walk (List.intercalate [.text [',']] (ls.map frames) ++ rest) out = (do
      let ts ← ls.mapM text
      walk rest (out ++ List.intercalate [','] ts)) := by
  induction ls generalizing out with
  | nil => simp [List.intercalate]
  | cons a ls ih =>
    have ha := hl a (by simp)
    have hls := ih fun b hb => hl b (by simp [hb])
    cases ls with
    | nil => simp [List.intercalate, ha]
    | cons b ls =>
      simp only [List.map_cons, List.intercalate_cons_cons, List.append_assoc, ha,
        List.cons_append, List.nil_append] at hls ⊢
      rw [List.mapM_cons]
      simp only [walk, hls, List.mapM_cons, bind_assoc, pure_bind, List.intercalate_cons_cons,
        List.append_assoc, List.cons_append, List.nil_append]

/-- The walk writes the text of the value on top of the stack, then goes on
with the rest. -/
theorem walk_value (v : Value) : ∀ rest out, walk (.value v :: rest) out = (do
    let t ← encode v
    walk rest (out ++ t)) := by
  induction v with
  | null => intro rest out; simp [walk, encode, bind, Except.bind]
  | bool b => intro rest out; cases b <;> simp [walk, encode, bind, Except.bind]
  | int i => intro rest out; simp [walk, encode]
  | str s => intro rest out; simp [walk, encode]
  | list items ih =>
    intro rest out
    have h := walk_intercalate (fun v => [Frame.value v]) encode items
      (fun v hv => by simpa using ih v hv)
    simp only [walk, array_frames, List.cons_append, List.append_assoc, h, encode_list,
      bind_assoc, pure_bind, List.nil_append]
  | dict members ih =>
    intro rest out
    have h := walk_intercalate (fun m => [Frame.key m.1, Frame.value m.2]) memberText
      (sortByKey members) (fun m hm rest out => by
        simp [walk, ih m (mem_sortByKey.mp hm), memberText])
    simp only [walk, object_frames, List.cons_append, List.append_assoc, h, encode_dict,
      bind_assoc, pure_bind, List.nil_append]

/-- The walk with its own stack computes the recursive text, and raises what
the recursion raises. -/
theorem canonicalize_eq_encode (v : Value) : canonicalize v = encode v := by
  unfold canonicalize
  rw [walk_value]
  cases encode v <;> simp [walk, bind, Except.bind]

theorem canonical_bytes_eq_ok {v : Value} {b : ByteArray} :
    canonical_bytes v = .ok b ↔ ∃ t, encode v = .ok t ∧ t.utf8Encode = b := by
  unfold canonical_bytes
  rw [canonicalize_eq_encode, bind_eq_ok]
  simp only [pure_eq_ok, String.toByteArray_ofList]

/-! ## Which values have a text -/

theorem character_text_ok (c : Char) : ∃ t, character_text (.scalar c) = .ok t := by
  simp only [character_text]
  split
  · exact ⟨_, rfl⟩
  · split <;> exact ⟨_, rfl⟩

theorem string_text_eq_ok {s : Str} : (∃ t, string_text s = .ok t) ↔ Encodable s := by
  constructor
  · rintro ⟨t, ht⟩ c hc
    obtain ⟨ps, hps, _⟩ := bind_eq_ok.mp ht
    obtain ⟨p, hp⟩ := mapM_ok_mem hps hc
    cases c with
    | scalar ch => exact ⟨ch, rfl⟩
    | surrogate n => simp [character_text] at hp
  · intro h
    have hm : ∀ c ∈ s, ∃ p, character_text c = .ok p := by
      intro c hc
      obtain ⟨ch, rfl⟩ := h c hc
      exact character_text_ok ch
    obtain ⟨ps, hps⟩ := mapM_exists_ok hm
    exact ⟨'"' :: (ps.flatten ++ ['"']), bind_eq_ok.mpr ⟨ps, hps, rfl⟩⟩

theorem integer_text_of_safe {i : Int} (h : Value.SafeInteger i) :
    integer_text i = .ok (decimal i) := by
  unfold integer_text
  rw [if_neg]
  simp only [Value.SafeInteger, MIN_SAFE_INTEGER, MAX_SAFE_INTEGER] at h ⊢
  omega

theorem safe_of_integer_text {i : Int} {t : Text} (h : integer_text i = .ok t) :
    Value.SafeInteger i := by
  unfold integer_text at h
  split at h
  · cases h
  · rename_i hn
    simp only [Value.SafeInteger, MIN_SAFE_INTEGER, MAX_SAFE_INTEGER] at hn ⊢
    omega

/-- Every canonical value has a text. -/
theorem encode_of_canonical {v : Value} (h : v.Canonical) : ∃ t, encode v = .ok t := by
  induction h with
  | null => exact ⟨_, rfl⟩
  | bool b => cases b <;> exact ⟨_, rfl⟩
  | int h => exact ⟨_, integer_text_of_safe h⟩
  | str h => exact string_text_eq_ok.mpr h
  | list _ ih =>
    obtain ⟨ts, hts⟩ := mapM_exists_ok ih
    rw [encode_list, hts]
    exact ⟨_, rfl⟩
  | @dict members _ hk _ ih =>
    have hm : ∀ m ∈ sortByKey members, ∃ t, memberText m = .ok t := by
      intro m hm
      obtain ⟨kt, hkt⟩ := string_text_eq_ok.mpr (hk m (mem_sortByKey.mp hm))
      obtain ⟨vt, hvt⟩ := ih m (mem_sortByKey.mp hm)
      exact ⟨kt ++ ':' :: vt, by simp [memberText, hkt, hvt]⟩
    obtain ⟨ts, hts⟩ := mapM_exists_ok hm
    rw [encode_dict, hts]
    exact ⟨_, rfl⟩

/-- Only canonical values have a text. -/
theorem canonical_of_encode {v : Value} (hd : v.DistinctKeys) {t : Text}
    (h : encode v = .ok t) : v.Canonical := by
  induction hd generalizing t with
  | null => exact .null
  | bool b => exact .bool b
  | int i => exact .int (safe_of_integer_text h)
  | str s => exact .str (string_text_eq_ok.mp ⟨t, h⟩)
  | list _ ih =>
    rw [encode_list] at h
    obtain ⟨ts, hts, _⟩ := bind_eq_ok.mp h
    refine .list fun v hv => ?_
    obtain ⟨vt, hvt⟩ := mapM_ok_mem hts hv
    exact ih v hv hvt
  | @dict members hd _ ih =>
    rw [encode_dict] at h
    obtain ⟨ts, hts, _⟩ := bind_eq_ok.mp h
    have hm : ∀ m ∈ members, ∃ kt vt, string_text m.1 = .ok kt ∧ encode m.2 = .ok vt := by
      intro m hm
      obtain ⟨mt, hmt⟩ := mapM_ok_mem hts (mem_sortByKey.mpr hm)
      obtain ⟨kt, hkt, hmt⟩ := bind_eq_ok.mp hmt
      obtain ⟨vt, hvt, _⟩ := bind_eq_ok.mp hmt
      exact ⟨kt, vt, hkt, hvt⟩
    refine .dict hd ?_ ?_
    · intro m hm'
      obtain ⟨kt, _, hkt, _⟩ := hm m hm'
      exact string_text_eq_ok.mp ⟨kt, hkt⟩
    · intro m hm'
      obtain ⟨_, vt, _, hvt⟩ := hm m hm'
      exact ih m hm' hvt

theorem string_text_error {s : Str} {e : Exn} (h : string_text s = .error e) : e.Reportable := by
  rcases bind_eq_error.mp h with h | ⟨ps, _, h⟩
  · obtain ⟨c, _, hc⟩ := mapM_eq_error h
    cases c with
    | scalar ch =>
      obtain ⟨t, ht⟩ := character_text_ok ch
      simp [ht] at hc
    | surrogate n =>
      simp only [character_text, Except.error.injEq] at hc
      exact ⟨_, hc.symm, encodable_lit _⟩
  · exact absurd h pure_ne_error

/-- A value with no text is refused with a typed failure. -/
theorem encode_error (v : Value) : ∀ e, encode v = .error e → e.Reportable := by
  induction v with
  | null => intro e h; cases h
  | bool b => intro e h; cases b <;> cases h
  | int i =>
    intro e h
    simp only [encode, integer_text] at h
    split at h
    · simp only [Except.error.injEq] at h
      exact ⟨_, h.symm, encodable_lit _⟩
    · cases h
  | str s => intro e h; exact string_text_error h
  | list items ih =>
    intro e h
    rw [encode_list] at h
    rcases bind_eq_error.mp h with h | ⟨_, _, h⟩
    · obtain ⟨v, hv, he⟩ := mapM_eq_error h
      exact ih v hv e he
    · exact absurd h pure_ne_error
  | dict members ih =>
    intro e h
    rw [encode_dict] at h
    rcases bind_eq_error.mp h with h | ⟨_, _, h⟩
    · obtain ⟨m, hm, he⟩ := mapM_eq_error h
      rcases bind_eq_error.mp he with he | ⟨_, _, he⟩
      · exact string_text_error he
      · rcases bind_eq_error.mp he with he | ⟨_, _, he⟩
        · exact ih m (mem_sortByKey.mp hm) e he
        · exact absurd he pure_ne_error
    · exact absurd h pure_ne_error

theorem digest_of_canonical {v : Value} (h : v.Canonical) :
    ∃ d, digest v = .ok d ∧ Encodable d := by
  obtain ⟨t, ht⟩ := encode_of_canonical h
  refine ⟨lit "sha256:" ++ ofText (sha256_hexdigest (String.ofList t).toByteArray), ?_, ?_⟩
  · simp only [digest, canonical_bytes, canonicalize_eq_encode, ht, ok_bind]
    rfl
  · intro c hc
    rcases List.mem_append.mp hc with hc | hc
    · exact encodable_lit _ c hc
    · exact encodable_ofText _ c hc

/-! ## The order of members does not matter -/

theorem encode_normalize {v : Value} (hd : v.DistinctKeys) : encode v.normalize = encode v := by
  induction hd with
  | null => simp
  | bool b => simp
  | int i => simp
  | str s => simp
  | list _ ih =>
    rw [Value.normalize_list, encode_list, encode_list, List.mapM_map]
    exact congrArg (· >>= _) (mapM_congr ih)
  | @dict members hd _ ih =>
    rw [Value.normalize_dict, encode_dict, encode_dict, sortByKey_idem (hd.map_snd _),
      sortByKey_map_snd, List.mapM_map]
    refine congrArg (· >>= _) (mapM_congr fun m hm => ?_)
    simp [memberText, ih m (mem_sortByKey.mp hm)]

theorem encode_eq_of_normalize_eq {v w : Value} (hv : v.DistinctKeys) (hw : w.DistinctKeys)
    (h : v.normalize = w.normalize) : encode v = encode w := by
  rw [← encode_normalize hv, h, encode_normalize hw]

/-- Values with one canonical text have one digest. -/
theorem digest_eq_of_canonicalize_eq {v w : Value} (h : canonicalize v = canonicalize w) :
    digest v = digest w := by
  simp only [digest, canonical_bytes, h]

/-- The order of members does not matter to the digest of a mapping. -/
theorem digest_perm {ms ns : List (Str × Value)} (hd : Distinct ms) (hp : ms.Perm ns) :
    digest (.dict ms) = digest (.dict ns) := by
  apply digest_eq_of_canonicalize_eq
  rw [canonicalize_eq_encode, canonicalize_eq_encode, encode_dict, encode_dict,
    sortByKey_eq_of_perm hd hp]

theorem digest_normalize {v : Value} (hd : v.DistinctKeys) : digest v.normalize = digest v := by
  apply digest_eq_of_canonicalize_eq
  rw [canonicalize_eq_encode, canonicalize_eq_encode, encode_normalize hd]

end vfy.canon
