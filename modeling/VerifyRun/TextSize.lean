-- How long a canonical text is: its exact size as a sum over the value, and a
-- bound that needs no text.
import VerifyRun.ChildRecords

namespace vfy.canon

open python keys outcomes

/-! ## The exact size -/

/-- The bytes of a text. -/
def byteLength (t : Text) : Nat := (t.map Char.utf8Size).sum

@[simp] theorem byteLength_nil : byteLength [] = 0 := rfl

@[simp] theorem byteLength_cons (c : Char) (t : Text) :
    byteLength (c :: t) = c.utf8Size + byteLength t := by
  simp [byteLength]

@[simp] theorem byteLength_append (s t : Text) :
    byteLength (s ++ t) = byteLength s + byteLength t := by
  simp [byteLength]

theorem byteLength_flatten (ts : List Text) : byteLength ts.flatten = (ts.map byteLength).sum := by
  induction ts with
  | nil => rfl
  | cons t rest ih => simp [ih]

theorem size_utf8Encode_eq (t : Text) : t.utf8Encode.size = byteLength t := by
  rw [List.utf8Encode, ← ByteArray.size_data, ← Array.length_toList, List.toList_data_toByteArray]
  induction t with
  | nil => rfl
  | cons c t ih =>
    rw [List.flatMap_cons, List.length_append, byteLength_cons, ih, String.length_utf8EncodeChar]

/-- The bytes that a character takes in canonical text. -/
def charWidth (c : CodePoint) : Nat := byteLength ((character_text c).toOption.getD [])

/-- The bytes that a string takes in canonical text. -/
def strWidth (s : Str) : Nat := (s.map charWidth).sum + 2

mutual

/-- The bytes that a value takes in canonical text. -/
def textWidth : Value → Nat
  | .null => 4
  | .bool b => if b then 4 else 5
  | .int i => byteLength (decimal i)
  | .str s => strWidth s
  | .list items => max 2 (1 + textWidthItems items)
  | .dict members => max 2 (1 + textWidthMembers members)

def textWidthItems : List Value → Nat
  | [] => 0
  | v :: rest => textWidth v + 1 + textWidthItems rest

def textWidthMembers : List (Str × Value) → Nat
  | [] => 0
  | m :: rest => strWidth m.1 + 1 + textWidth m.2 + 1 + textWidthMembers rest

end

theorem textWidthItems_eq (items : List Value) :
    textWidthItems items = (items.map fun v => textWidth v + 1).sum := by
  induction items with
  | nil => rfl
  | cons v rest ih => simp [textWidthItems, ih]

theorem textWidthMembers_eq (members : List (Str × Value)) :
    textWidthMembers members = (members.map fun m => strWidth m.1 + 1 + textWidth m.2 + 1).sum := by
  induction members with
  | nil => rfl
  | cons m rest ih => simp [textWidthMembers, ih]

theorem two_le_strWidth (s : Str) : 2 ≤ strWidth s := Nat.le_add_left _ _

theorem textWidth_dict_cons (m : Str × Value) (ms : List (Str × Value)) :
    textWidth (.dict (m :: ms)) = 1 + textWidthMembers (m :: ms) := by
  have htwo := two_le_strWidth m.1
  rw [textWidth, textWidthMembers]
  omega

/-- A member is not wider than the mapping that it is in. -/
theorem textWidth_le_dict {k : Str} {v : Value} {members : List (Str × Value)}
    (h : (k, v) ∈ members) : textWidth v ≤ textWidth (.dict members) := by
  have hle := List.single_le_sum (l := members.map fun m => strWidth m.1 + 1 + textWidth m.2 + 1)
    (by simp) _ (List.mem_map.mpr ⟨_, h, rfl⟩)
  rw [← textWidthMembers_eq] at hle
  dsimp only at hle
  rw [textWidth]
  omega

theorem charWidth_digitChar : ∀ n < 16, charWidth (.scalar (Nat.digitChar n)) = 1 := by decide

/-- Hexadecimal digits are written as they are. -/
theorem strWidth_hex {s : Str} (h : ∀ c ∈ s, ∃ n < 16, c = .scalar (Nat.digitChar n)) :
    strWidth s = s.length + 2 := by
  have hone : s.map charWidth = List.replicate s.length 1 := by
    rw [List.eq_replicate_iff]
    refine ⟨List.length_map _, ?_⟩
    intro w hw
    obtain ⟨c, hc, rfl⟩ := List.mem_map.mp hw
    obtain ⟨n, hn, rfl⟩ := h c hc
    exact charWidth_digitChar n hn
  rw [strWidth, hone, List.sum_replicate, smul_eq_mul, mul_one]

theorem utf8Size_of_isDigit {c : Char} (h : c.isDigit = true) : c.utf8Size = 1 := by
  rw [Char.isDigit, Bool.and_eq_true, decide_eq_true_eq, decide_eq_true_eq] at h
  have hle : c.val ≤ 0x7f := UInt32.le_trans h.2 (by decide)
  simp [Char.utf8Size, hle]

/-- A number is as wide as it has digits. -/
theorem textWidth_nat (n : Nat) : textWidth (.int n) = (Nat.toDigits 10 n).length := by
  have hone : (Nat.toDigits 10 n).map Char.utf8Size = List.replicate (Nat.toDigits 10 n).length 1 := by
    rw [List.eq_replicate_iff]
    refine ⟨List.length_map _, ?_⟩
    intro w hw
    obtain ⟨c, hc, rfl⟩ := List.mem_map.mp hw
    exact utf8Size_of_isDigit (Nat.isDigit_of_mem_toDigits (by omega) (by omega) hc)
  show ((Nat.toDigits 10 n).map Char.utf8Size).sum = _
  rw [hone, List.sum_replicate, smul_eq_mul, mul_one]

theorem utf8Size_comma : Char.utf8Size ',' = 1 := by decide

theorem byteLength_intercalate (ts : List Text) :
    byteLength (List.intercalate [','] ts) + 2 = max 2 (1 + (ts.map fun t => byteLength t + 1).sum) := by
  induction ts with
  | nil => rfl
  | cons t rest ih =>
    cases rest with
    | nil =>
      simp
      omega
    | cons u rest =>
      rw [List.intercalate_cons_cons]
      simp only [byteLength_append, byteLength_cons, byteLength_nil, utf8Size_comma, List.map_cons,
        List.sum_cons] at ih ⊢
      omega

/-- What is written in the place of each member has its width. -/
theorem sum_of_mapM {α : Type} {f : α → Except Exn Text} {width : α → Nat} {l : List α}
    {ts : List Text} (h : l.mapM f = .ok ts)
    (hwidth : ∀ a ∈ l, ∀ t, f a = .ok t → byteLength t = width a) :
    (ts.map fun t => byteLength t + 1).sum = (l.map fun a => width a + 1).sum := by
  have hf := mapM_eq_ok.mp h
  clear h
  induction hf with
  | nil => rfl
  | @cons a t l ts ht _ ih =>
    rw [List.map_cons, List.map_cons, List.sum_cons, List.sum_cons, hwidth a (by simp) t ht,
      ih fun b hb => hwidth b (by simp [hb])]

theorem sum_pieces {s : Str} {pieces : List Text} (h : s.mapM character_text = .ok pieces) :
    (pieces.map byteLength).sum = (s.map charWidth).sum := by
  have hf := mapM_eq_ok.mp h
  clear h
  induction hf with
  | nil => rfl
  | cons ht _ ih =>
    rw [List.map_cons, List.map_cons, List.sum_cons, List.sum_cons, ih, charWidth, ht]
    rfl

theorem byteLength_string_text {s : Str} {t : Text} (h : string_text s = .ok t) :
    byteLength t = strWidth s := by
  obtain ⟨pieces, hpieces, h⟩ := bind_eq_ok.mp h
  obtain rfl := pure_eq_ok.mp h
  have hsum := sum_pieces hpieces
  have hquote : Char.utf8Size '"' = 1 := by decide
  simp only [byteLength_cons, byteLength_append, byteLength_flatten, byteLength_nil, hsum, hquote,
    strWidth]
  omega

theorem byteLength_encode (v : Value) : ∀ t, encode v = .ok t → byteLength t = textWidth v := by
  induction v with
  | null =>
    rintro _ ⟨⟩
    decide
  | bool b =>
    intro t h
    cases b <;> cases h <;> decide
  | int i =>
    intro t h
    have hsafe := safe_of_integer_text h
    have htext : integer_text i = .ok t := h
    rw [integer_text_of_safe hsafe] at htext
    obtain rfl := Except.ok.inj htext
    rfl
  | str s => exact fun t h => byteLength_string_text h
  | list items ih =>
    intro t h
    rw [encode_list] at h
    obtain ⟨ts, hts, h⟩ := bind_eq_ok.mp h
    obtain rfl := pure_eq_ok.mp h
    have hopen : Char.utf8Size '[' = 1 := by decide
    have hclose : Char.utf8Size ']' = 1 := by decide
    have hlength := byteLength_intercalate ts
    rw [sum_of_mapM hts ih, ← textWidthItems_eq] at hlength
    simp only [byteLength_cons, byteLength_append, byteLength_nil, hopen, hclose, textWidth]
    omega
  | dict members ih =>
    intro t h
    rw [encode_dict] at h
    obtain ⟨ts, hts, h⟩ := bind_eq_ok.mp h
    obtain rfl := pure_eq_ok.mp h
    have hmember : ∀ m ∈ sortByKey members, ∀ t, memberText m = .ok t →
        byteLength t = strWidth m.1 + 1 + textWidth m.2 := by
      intro m hm t h
      obtain ⟨k, hk, h⟩ := bind_eq_ok.mp h
      obtain ⟨u, hu, h⟩ := bind_eq_ok.mp h
      obtain rfl := pure_eq_ok.mp h
      have hcolon : Char.utf8Size ':' = 1 := by decide
      rw [byteLength_append, byteLength_cons, byteLength_string_text hk,
        ih m (mem_sortByKey.mp hm) u hu, hcolon]
      omega
    have hopen : Char.utf8Size '\x7b' = 1 := by decide
    have hclose : Char.utf8Size '\x7d' = 1 := by decide
    have hlength := byteLength_intercalate ts
    rw [sum_of_mapM hts hmember, ((sortByKey_perm members).map _).sum_eq,
      ← textWidthMembers_eq] at hlength
    simp only [byteLength_cons, byteLength_append, byteLength_nil, textWidth]
    rw [hopen, hclose]
    omega

/-! ## A bound -/

mutual

/-- A bound on the length of the canonical text of a value. -/
def textRoom : Value → Nat
  | .null => 4
  | .bool _ => 5
  | .int _ => 17
  | .str s => 6 * s.length + 2
  | .list items => textRoomItems items + 2
  | .dict members => textRoomMembers members + 2

def textRoomItems : List Value → Nat
  | [] => 0
  | v :: rest => textRoom v + 1 + textRoomItems rest

def textRoomMembers : List (Str × Value) → Nat
  | [] => 0
  | m :: rest => 6 * m.1.length + 2 + 1 + textRoom m.2 + 1 + textRoomMembers rest

end

theorem textRoomItems_eq (items : List Value) :
    textRoomItems items = (items.map fun v => textRoom v + 1).sum := by
  induction items with
  | nil => rfl
  | cons v rest ih => simp [textRoomItems, ih]

theorem textRoomMembers_eq (members : List (Str × Value)) :
    textRoomMembers members = (members.map fun m => 6 * m.1.length + 2 + 1 + textRoom m.2 + 1).sum := by
  induction members with
  | nil => rfl
  | cons m rest ih => simp [textRoomMembers, ih]

theorem length_character_text {c : CodePoint} {t : Text} (h : character_text c = .ok t) :
    t.length ≤ 6 := by
  cases c with
  | surrogate n => simp [character_text] at h
  | scalar ch =>
    unfold character_text at h
    dsimp only at h
    split at h
    · rename_i escape hescape
      unfold named_escapes at hescape
      split at hescape <;> cases hescape <;> cases h <;> decide
    · split at h <;> cases h
      · simp [hex4]
      · simp

theorem length_flatten_le {ts : List Text} {n : Nat} (h : ∀ t ∈ ts, t.length ≤ n) :
    ts.flatten.length ≤ n * ts.length := by
  rw [List.length_flatten]
  have hsum := List.sum_le_card_nsmul (ts.map List.length) n (by simpa using h)
  simpa [mul_comm] using hsum

theorem length_string_text {s : Str} {t : Text} (h : string_text s = .ok t) :
    t.length ≤ 6 * s.length + 2 := by
  obtain ⟨pieces, hpieces, h⟩ := bind_eq_ok.mp h
  obtain rfl := pure_eq_ok.mp h
  have hlength : pieces.length = s.length := (List.Forall₂.length_eq (mapM_eq_ok.mp hpieces)).symm
  have hflat := length_flatten_le (mapM_forall hpieces fun _ _ => length_character_text)
  simp only [List.length_cons, List.length_append, List.length_nil]
  rw [hlength] at hflat
  omega

theorem length_integer_text {i : Int} {t : Text} (h : integer_text i = .ok t) : t.length ≤ 17 := by
  have hsafe := safe_of_integer_text h
  rw [integer_text_of_safe hsafe] at h
  obtain rfl := Except.ok.inj h
  unfold Value.SafeInteger at hsafe
  have hdigits : ∀ n < 10 ^ 16, (Nat.toDigits 10 n).length ≤ 16 := by
    intro n hn
    exact (Nat.length_toDigits_le_iff (by omega) (by omega)).mpr hn
  cases i with
  | ofNat n =>
    have hn := hdigits n (by simp only [Int.ofNat_eq_natCast] at hsafe; omega)
    simp only [decimal]
    omega
  | negSucc n =>
    have hn := hdigits (n + 1) (by omega)
    simp only [decimal, List.length_cons]
    omega

theorem length_intercalate (ts : List Text) :
    (List.intercalate [','] ts).length ≤ (ts.map fun t => t.length + 1).sum := by
  induction ts with
  | nil => simp
  | cons t rest ih =>
    cases rest with
    | nil => simp
    | cons u rest =>
      rw [List.intercalate_cons_cons]
      simp only [List.length_append, List.length_cons, List.length_nil, List.map_cons,
        List.sum_cons] at ih ⊢
      omega

/-- What is written in the place of each member is no longer than its room. -/
theorem length_intercalate_le {α : Type} {f : α → Except Exn Text} {room : α → Nat} {l : List α}
    {ts : List Text} (h : l.mapM f = .ok ts) (hroom : ∀ a ∈ l, ∀ t, f a = .ok t → t.length ≤ room a) :
    (List.intercalate [','] ts).length ≤ (l.map fun a => room a + 1).sum := by
  refine (length_intercalate ts).trans ?_
  have hf := mapM_eq_ok.mp h
  clear h
  induction hf with
  | nil => simp
  | @cons a t l ts ht _ ih =>
    have hhead := hroom a (by simp) t ht
    have htail := ih fun b hb => hroom b (by simp [hb])
    simp only [List.map_cons, List.sum_cons]
    omega

theorem length_encode (v : Value) : ∀ t, encode v = .ok t → t.length ≤ textRoom v := by
  induction v with
  | null =>
    rintro _ ⟨⟩
    exact le_rfl
  | bool b =>
    intro t h
    cases b <;> cases h <;> decide
  | int i => exact fun t h => length_integer_text h
  | str s => exact fun t h => length_string_text h
  | list items ih =>
    intro t h
    rw [encode_list] at h
    obtain ⟨ts, hts, h⟩ := bind_eq_ok.mp h
    obtain rfl := pure_eq_ok.mp h
    have hlength := length_intercalate_le hts ih
    rw [textRoom, textRoomItems_eq]
    simp only [List.length_cons, List.length_append, List.length_nil]
    omega
  | dict members ih =>
    intro t h
    rw [encode_dict] at h
    obtain ⟨ts, hts, h⟩ := bind_eq_ok.mp h
    obtain rfl := pure_eq_ok.mp h
    have hmember : ∀ m ∈ sortByKey members, ∀ t, memberText m = .ok t →
        t.length ≤ 6 * m.1.length + 2 + 1 + textRoom m.2 := by
      intro m hm t h
      obtain ⟨k, hk, h⟩ := bind_eq_ok.mp h
      obtain ⟨u, hu, h⟩ := bind_eq_ok.mp h
      obtain rfl := pure_eq_ok.mp h
      have hkey := length_string_text hk
      have hvalue := ih m (mem_sortByKey.mp hm) u hu
      simp only [List.length_append, List.length_cons]
      omega
    have hlength := length_intercalate_le hts hmember
    rw [((sortByKey_perm members).map _).sum_eq] at hlength
    rw [textRoom, textRoomMembers_eq]
    simp only [List.length_cons, List.length_append, List.length_nil]
    omega

end vfy.canon

namespace vfy.child_ledger

open python keys outcomes

@[simp] theorem length_sha (b : ByteArray) : (sha b).length = 64 := by
  simp [sha, canon.sha256_hexdigest, ofText, sha256.length_hexdigest]

theorem mem_sha {b : ByteArray} {c : CodePoint} (hc : c ∈ sha b) :
    ∃ n < 16, c = .scalar (Nat.digitChar n) := by
  simp only [sha, canon.sha256_hexdigest, ofText, sha256.hexdigest, sha256.hexWord, List.mem_map,
    List.mem_flatMap] at hc
  obtain ⟨_, ⟨_, _, _, _, rfl⟩, rfl⟩ := hc
  exact ⟨_, Nat.mod_lt _ (by decide), rfl⟩

theorem strWidth_sha (b : ByteArray) : canon.strWidth (sha b) = 66 := by
  rw [canon.strWidth_hex fun _ => mem_sha, length_sha]

theorem compile_hex64 : re.compile "[0-9a-f]\x7b64\x7d" =
    some (.seq (.rep (.set false
      [(.scalar '0', .scalar '9'), (.scalar 'a', .scalar 'f')]) 64 (some 64)) .empty) := by
  decide +kernel

/-- A digest is a digest text. -/
theorem hex64_sha (b : ByteArray) : hex64 (sha b) := by
  have hdigits : ∀ n < 16, re.inRanges [(.scalar '0', .scalar '9'), (.scalar 'a', .scalar 'f')]
      (.scalar (Nat.digitChar n)) = true := by decide
  have hranges : ∀ c ∈ sha b,
      re.inRanges [(.scalar '0', .scalar '9'), (.scalar 'a', .scalar 'f')] c = true := by
    intro c hc
    obtain ⟨n, hn, rfl⟩ := mem_sha hc
    exact hdigits n hn
  have hrep := re.mem_ends_rep_set hranges [] 0
  rw [length_sha, List.append_nil] at hrep
  have hempty : (0 + 64, []) ∈ re.ends .empty (0 + 64, []) := by simp [re.ends]
  unfold hex64 matchesPattern
  exact decide_eq_true (re.fullmatch_eq_true compile_hex64 (re.mem_ends_seq hrep hempty))

/-- The bytes of a value are as many as its width. -/
theorem size_raw_eq {v : Value} {b : ByteArray} (h : raw v = .ok b) : b.size = canon.textWidth v := by
  obtain ⟨t, ht, rfl⟩ := canon.canonical_bytes_eq_ok.mp (lift_eq_ok.mp h)
  exact (canon.size_utf8Encode_eq t).trans (canon.byteLength_encode v t ht)

/-- The bytes of a value that is not large. -/
theorem size_raw {v : Value} {b : ByteArray} (h : raw v = .ok b) : b.size ≤ 4 * canon.textRoom v := by
  obtain ⟨t, ht, rfl⟩ := canon.canonical_bytes_eq_ok.mp (lift_eq_ok.mp h)
  refine (size_utf8Encode t).trans ?_
  have hlength := canon.length_encode v t ht
  omega

/-- A record that is small and not deep is read back. -/
theorem read_small {β : Type} [Encoded β] {record : Envelope β} (hc : (value record).Canonical)
    (hroom : canon.textRoom (value record) ≤ 2 ^ 20) (hdepth : (value record).depth ≤ 64) :
    read_record record = .ok () := by
  obtain ⟨b, hb⟩ := raw_of_canonical hc
  have hload := load.load_canonical_bytes hc (lift_eq_ok.mp hb)
  rw [if_pos hdepth] at hload
  have hsize : b.size ≤ MAX_BYTES := by
    have h := size_raw hb
    unfold MAX_BYTES
    omega
  unfold read_record
  rw [hb, ok_bind, need_eq_ok.mpr hsize, ok_bind, hload, lift_ok]
  rfl

end vfy.child_ledger
