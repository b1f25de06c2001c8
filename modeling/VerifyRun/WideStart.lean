-- The decoder of a parent START takes wide integers in two members and widens
-- nothing else: with a zero in the place of the two, the strict loader takes
-- the same source for the same value.
import VerifyRun.ChildRecords
import VerifyRun.SourceTokens

namespace vfy.child_ledger

open calls python json keys outcomes jsontext load

/-- The hooks of `decode_parent_start`. -/
def wide : Hooks := { load.hooks with parse_int := start_integer }

/-- Hooks that keep a duplicate key, and take a float or a constant. -/
def lenient (parse_float : Text → Py Value) (parse_constant : Str → Py Value) : Hooks where
  object_pairs_hook pairs := pure (.dict pairs)
  parse_float
  parse_int := start_integer
  parse_constant

theorem start_integer_ok {t : Text} {v : Value} (h : outcome (start_integer t) = .ok v) :
    ∃ n, v = .int n ∧ convert t = .ok n := by
  unfold start_integer at h
  rw [outcome_bind] at h
  obtain ⟨_, _, h⟩ := bind_eq_ok.mp h
  rw [outcome_bind, outcome_int] at h
  obtain ⟨n, hn, h⟩ := bind_eq_ok.mp h
  rw [outcome_bind] at h
  obtain ⟨_, _, h⟩ := bind_eq_ok.mp h
  cases h
  exact ⟨n, rfl, hn⟩

theorem object_from_pairs_ok {ps : List (Str × Value)} {v : Value}
    (h : object_from_pairs ps = .ok v) : Distinct ps ∧ v = .dict ps := by
  unfold object_from_pairs at h
  split at h
  · cases h
    exact ⟨‹_›, rfl⟩
  · cases h

theorem wide_pairs_ok {ps : List (Str × Value)} {v : Value}
    (h : outcome (wide.object_pairs_hook ps) = .ok v) : Distinct ps ∧ v = .dict ps := by
  have hlift : outcome (python.lift (object_from_pairs ps)) = .ok v := h
  rw [outcome_lift] at hlift
  exact object_from_pairs_ok hlift

theorem integersOnly_wide : IntegersOnly wide where
  float := by
    intro t v h
    cases h
  constant := by
    intro t v h
    cases h

/-- On canonical values the strict hooks do what the wide ones do. -/
theorem follows_strict : Follows wide load.hooks Value.Canonical where
  int := by
    intro t v h hv
    obtain ⟨n, rfl, hn⟩ := start_integer_ok h
    obtain ⟨hlo, hhi⟩ := Value.canonical_int.mp hv
    show outcome (integer_within_interval t) = _
    unfold integer_within_interval
    rw [outcome_bind, outcome_int, hn, ok_bind, if_neg]
    · rfl
    · unfold canon.MIN_SAFE_INTEGER canon.MAX_SAFE_INTEGER
      omega
  pairs := by
    intro ps v h hv
    obtain ⟨_, rfl⟩ := wide_pairs_ok h
    exact ⟨h, (Value.canonical_dict.mp hv).2.2⟩
  list := fun vs hv => Value.canonical_list.mp hv

theorem follows_wide : Follows wide wide fun _ => True where
  int := fun _ _ h _ => h
  pairs := fun _ _ h _ => ⟨h, fun _ _ => trivial⟩
  list := fun _ _ _ _ => trivial

/-- Whatever the hooks for floats and constants would make of them, they are
never asked; and the object hook never sees a key twice. -/
theorem follows_lenient (parse_float : Text → Py Value) (parse_constant : Str → Py Value) :
    Follows wide (lenient parse_float parse_constant) fun _ => True where
  int := fun _ _ h _ => h
  pairs := by
    intro ps v h _
    obtain ⟨_, rfl⟩ := wide_pairs_ok h
    exact ⟨rfl, fun _ _ => trivial⟩
  list := fun _ _ _ _ => trivial

theorem wide_rules : HookRules wide (fun _ => True) Value.DistinctKeys where
  pairs ms hms := (hooks_rules.pairs ms hms).mono (fun _ _ => trivial) fun _ hv => hv
  float _ := trivial
  int t := by
    unfold wide start_integer
    refine Prog.Sat.bind (Q := fun _ => True) (lift_sat (fun _ _ => trivial) fun _ _ => trivial)
      fun _ _ => ?_
    refine Prog.Sat.bind (Q := fun _ => True) (fun _ _ => trivial) fun n _ => ?_
    exact Prog.Sat.bind (Q := fun _ => True) (lift_sat (fun _ _ => trivial) fun _ _ => trivial)
      fun _ _ => Prog.Sat.pure (.int n)
  constant _ := trivial
  syntax_error := trivial
  null := .null
  bool := .bool
  str := .str
  list _ h := .list h

theorem distinctKeys_of_wide {text : Text} {v : Value} (h : outcome (loads wide text) = .ok v) :
    v.DistinctKeys := by
  rcases outcome_sat (loads_sat wide_rules text) with ⟨w, hw, hd⟩ | ⟨e, he, _⟩
  · rw [hw] at h
    cases h
    exact hd
  · rw [he] at h
    cases h

/-! ## The source of the object -/

/-- The source of an object, with the slots of its members. -/
structure ObjectSource where
  lead : Text
  space : Text
  slots : List Slot
  trail : Text

def ObjectSource.token (s : ObjectSource) : Text := '{' :: (s.space ++ (joined s.slots ++ ['}']))

def ObjectSource.text (s : ObjectSource) : Text := s.lead ++ (s.token ++ s.trail)

/-- The slots of the source hold these members, as far as `Good` says. -/
structure ObjectSource.Holds (s : ObjectSource) (Good : Text → Value → Prop)
    (members : List (Str × Value)) : Prop where
  lead : Blank s.lead
  space : Blank s.space
  slots : List.Forall₂ (Slot.Member Good) s.slots members
  trail : Blank s.trail

/-- The slot of the member, with `0` for the value if it is one of the two. -/
def zeroSlot (m : Str × Value) (slot : Slot) : Slot :=
  if m.1 ∈ START_NS_FIELDS then { slot with token := ['0'] } else slot

/-- The member, with zero for the value if it is one of the two. -/
def zeroMember (m : Str × Value) : Str × Value :=
  (m.1, if m.1 ∈ START_NS_FIELDS then .int 0 else m.2)

/-- The source with `0` in the place of the two values. -/
def ObjectSource.zeroed (s : ObjectSource) (members : List (Str × Value)) : ObjectSource :=
  { s with slots := List.zipWith zeroSlot members s.slots }

theorem startsValue_token (s : ObjectSource) : StartsValue s.token :=
  ⟨'{', _, rfl, by decide, by decide, by decide, by decide⟩

/-- A source that holds members is read as the object of the members. -/
theorem ObjectSource.Holds.loads {s : ObjectSource} {hooks : Hooks} {members : List (Str × Value)}
    (h : s.Holds (ReadAs hooks) members) {v : Value}
    (hv : outcome (hooks.object_pairs_hook members) = .ok v) :
    outcome (json.loads hooks s.text) = .ok v :=
  loads_token h.lead (startsValue_token s) (object_read h.space h.slots hv) h.trail

theorem ObjectSource.Holds.decodes {s : ObjectSource} {Good : Text → Value → Prop}
    {members : List (Str × Value)} (h : s.Holds Good members) :
    decode_utf8 s.text.utf8Encode = .ok s.text := by
  have hlead := h.lead
  unfold ObjectSource.text
  generalize s.lead = lead at hlead
  cases lead with
  | nil => exact decode_text (by decide) _
  | cons c lead =>
    refine decode_text ?_ _
    rcases hlead c (by simp) with rfl | rfl | rfl | rfl <;> decide

theorem scan_number_wide {s rest : Text} {v : Value}
    (h : outcome (scan_number wide s) = .ok (v, rest)) : ∃ n, v = .int n := by
  unfold scan_number at h
  split at h
  · cases h
  simp only at h
  split at h
  · rw [outcome_bind] at h
    obtain ⟨w, hw, h⟩ := bind_eq_ok.mp h
    cases h
    obtain ⟨n, hn, _⟩ := start_integer_ok hw
    exact ⟨n, hn⟩
  · rw [outcome_bind] at h
    obtain ⟨w, hw, _⟩ := bind_eq_ok.mp h
    exact absurd hw (integersOnly_wide.float _ _)

/-- The scanner returns a mapping only for an object. -/
theorem scan_once_dict {fuel : Nat} {s rest : Text} {members : List (Str × Value)}
    (h : outcome (scan_once wide fuel s) = .ok (.dict members, rest)) :
    ∃ space slots, Blank space ∧ s = '{' :: (space ++ (joined slots ++ '}' :: rest)) ∧
      List.Forall₂ (Slot.Member (Token wide)) slots members ∧ Distinct members := by
  cases fuel with
  | zero => cases h
  | succ fuel =>
    obtain ⟨-, hobject, -, harray, -⟩ := scan_tokens integersOnly_wide fuel
    cases s with
    | nil => cases h
    | cons c tail =>
      rw [scan_once] at h
      split at h
      · rw [outcome_bind] at h
        obtain ⟨_, _, h⟩ := bind_eq_ok.mp h
        cases h
      split at h
      · rename_i hc
        subst hc
        obtain ⟨space, slots, ms, hspace, rfl, hslots, hv⟩ := hobject _ _ _ h
        obtain ⟨hdistinct, heq⟩ := wide_pairs_ok hv
        cases heq
        exact ⟨space, slots, hspace, rfl, hslots, hdistinct⟩
      split at h
      · obtain ⟨_, _, _, _, _, _, hlist⟩ := harray _ _ _ h
        cases hlist
      split at h
      · cases (scan_word_ok h).2
      split at h
      · cases (scan_word_ok h).2
      split at h
      · cases (scan_word_ok h).2
      split at h
      · cases (scan_word_ok h).2
      split at h
      · cases (scan_word_ok h).2
      split at h
      · rw [outcome_bind] at h
        obtain ⟨_, hconstant, _⟩ := bind_eq_ok.mp h
        cases hconstant
      · obtain ⟨n, hn⟩ := scan_number_wide h
        cases hn

/-- A source that the wide hooks read as an object, with its slots. -/
theorem loads_wide_dict {text : Text} {members : List (Str × Value)}
    (h : outcome (json.loads wide text) = .ok (.dict members)) :
    ∃ source : ObjectSource, text = source.text ∧ source.Holds (Token wide) members ∧
      Distinct members := by
  obtain ⟨lead, trail, hlead, htrail, htext, hscan⟩ := loads_ok h
  obtain ⟨space, slots, hspace, hobject, hslots, hdistinct⟩ := scan_once_dict hscan
  refine ⟨⟨lead, space, slots, trail⟩, ?_, ⟨hlead, hspace, hslots, htrail⟩, hdistinct⟩
  rw [htext, hobject]
  simp [ObjectSource.text, ObjectSource.token]

theorem ObjectSource.Holds.imp {s : ObjectSource} {Good Better : Text → Value → Prop}
    {members : List (Str × Value)} (h : s.Holds Good members)
    (hi : ∀ token, ∀ m ∈ members, Good token m.2 → Better token m.2) : s.Holds Better members :=
  ⟨h.lead, h.space, forall₂_of_mem h.slots fun slot m hm hslot => hslot.imp (hi slot.token m hm),
    h.trail⟩

/-! ## Zeros in the place of the two -/

theorem read_zero : ReadAs load.hooks ['0'] (.int 0) := by
  have hzero : Value.SafeInteger 0 := by decide
  intro rest fuel hr hf
  exact reads readsInts_within_interval (.int hzero) ['0'] rest fuel rfl hr hf

theorem zeroSlot_member {slot : Slot} {m : Str × Value} (h : slot.Member (Token wide) m)
    (hm : m.1 ∉ START_NS_FIELDS → m.2.Canonical) :
    (zeroSlot m slot).Member (ReadAs load.hooks) (zeroMember m) := by
  unfold zeroSlot zeroMember
  by_cases hname : m.1 ∈ START_NS_FIELDS
  · rw [if_pos hname, if_pos hname]
    exact ⟨h.left, h.right, ⟨_, _, rfl, by decide⟩, read_zero⟩
  · rw [if_neg hname, if_neg hname]
    exact h.imp fun htoken => htoken.read _ _ follows_strict (hm hname)

theorem zeroed_members {slots : List Slot} {members : List (Str × Value)}
    (h : List.Forall₂ (Slot.Member (Token wide)) slots members)
    (hm : ∀ m ∈ members, m.1 ∉ START_NS_FIELDS → m.2.Canonical) :
    List.Forall₂ (Slot.Member (ReadAs load.hooks)) (List.zipWith zeroSlot members slots)
      (members.map zeroMember) := by
  induction h with
  | nil => exact .nil
  | @cons slot m slots members hslot _ ih =>
    exact .cons (zeroSlot_member hslot (hm m (by simp))) (ih fun m' hm' => hm m' (by simp [hm']))

theorem zeroSlot_lighter {slot : Slot} {m : Str × Value} (h : slot.Member (Token wide) m) :
    Lighter slot.source (zeroSlot m slot).source := by
  obtain ⟨k, hk⟩ := h.token.opens
  have hleft := Lighter.of_opens (opens_names h.left)
  have hright := Lighter.of_opens (opens_blank h.right)
  unfold zeroSlot
  by_cases hname : m.1 ∈ START_NS_FIELDS
  · rw [if_pos hname]
    have hzero : Opens ['0'] 0 := .inert (by simp [Inert])
    exact hleft.append (Lighter.append ⟨k, 0, by omega, hk, hzero⟩ hright)
  · rw [if_neg hname]
    exact hleft.append ((Lighter.of_opens hk).append hright)

theorem zeroed_lighter {slots : List Slot} {members : List (Str × Value)}
    (h : List.Forall₂ (Slot.Member (Token wide)) slots members) :
    List.Forall₂ (fun slot slot' => Lighter slot.source slot'.source) slots
      (List.zipWith zeroSlot members slots) := by
  induction h with
  | nil => exact .nil
  | cons hslot _ ih => exact .cons (zeroSlot_lighter hslot) ih

/-- The source with zeros is no deeper. -/
theorem ObjectSource.Holds.zeroed_depth {s : ObjectSource} {members : List (Str × Value)}
    (h : s.Holds (Token wide) members) (hdepth : reject_excess_depth s.text = .ok ()) :
    reject_excess_depth (s.zeroed members).text = .ok () := by
  obtain ⟨k, k', hle, hk, hk'⟩ := Lighter.joined (zeroed_lighter h.slots)
  have htext : ∀ {t : Text} {k : Nat}, Opens t k →
      reject_excess_depth (s.lead ++ (('{' :: (s.space ++ (t ++ ['}']))) ++ s.trail)) =
        if k + 1 ≤ 64 then .ok () else .error tooDeep := by
    intro t k ht
    have hbracket := ((opens_blank h.space).append ht).bracket (Or.inl rfl) (Or.inl rfl)
    have hall := (opens_blank h.lead).append (hbracket.append (opens_blank h.trail))
    have hend := hall [] 0 (by omega)
    simpa [reject_excess_depth, depth_loop] using hend
  have hbefore := htext hk
  rw [show s.lead ++ (('{' :: (s.space ++ (joined s.slots ++ ['}']))) ++ s.trail) = s.text from rfl,
    hdepth] at hbefore
  have hbound : k + 1 ≤ 64 := by
    by_contra hover
    rw [if_neg hover] at hbefore
    cases hbefore
  have hafter := htext hk'
  rw [if_pos (by omega)] at hafter
  exact hafter

/-! ## The decoder -/

theorem mapError_eq_ok {ε ε' α : Type} {f : ε → ε'} {x : Except ε α} {a : α} :
    x.mapError f = .ok a ↔ x = .ok a := by
  cases x <;> simp [Except.mapError]

/-- What the decoder has checked of a member. -/
theorem check_start_member_ok {m : Str × Value} (hd : m.2.DistinctKeys)
    (h : check_start_member m = .ok ()) : Encodable m.1 ∧
      (m.1 ∈ START_NS_FIELDS → ∃ n, m.2 = .int n ∧ 0 ≤ n ∧ n ≤ MAX_START_NS) ∧
      (m.1 ∉ START_NS_FIELDS → m.2.Canonical) := by
  unfold check_start_member at h
  obtain ⟨t, ht, h⟩ := bind_eq_ok.mp h
  rw [lift_eq_ok, canon.canonicalize_eq_encode] at ht
  refine ⟨canon.string_text_eq_ok.mp ⟨t, ht⟩, fun hname => ?_, fun hname => ?_⟩
  · rw [if_pos hname] at h
    split at h
    · rename_i n hn
      exact ⟨n, hn, needOr_eq_ok.mp h⟩
    · cases h
  · rw [if_neg hname] at h
    obtain ⟨u, hu, _⟩ := bind_eq_ok.mp h
    rw [lift_eq_ok, canon.canonicalize_eq_encode] at hu
    exact canon.canonical_of_encode hd hu

/-- What the decoder has done when it returns. -/
theorem decode_parent_start_ok {data : ByteArray} {value : Value}
    (h : decode_parent_start data = .ok value) :
    ∃ text members, decode_utf8 data = .ok text ∧ reject_excess_depth text = .ok () ∧
      outcome (json.loads wide text) = .ok (.dict members) ∧ value = .dict members ∧
      ∀ m ∈ members, check_start_member m = .ok () := by
  unfold decode_parent_start at h
  obtain ⟨_, _, h⟩ := bind_eq_ok.mp h
  obtain ⟨text, htext, h⟩ := bind_eq_ok.mp h
  obtain ⟨_, hdepth, h⟩ := bind_eq_ok.mp h
  obtain ⟨v, hv, h⟩ := bind_eq_ok.mp h
  rw [lift_eq_ok] at htext hdepth
  rw [mapError_eq_ok] at hv
  split at h
  · rename_i members
    obtain ⟨_, hall, h⟩ := bind_eq_ok.mp h
    cases h
    exact ⟨text, members, htext, hdepth, hv, rfl, forM_eq_ok.mp hall⟩
  · cases h

/-- The strict loader reads the source with zeros. -/
theorem load_zeroed {source : ObjectSource} {members : List (Str × Value)}
    (hsource : source.Holds (Token wide) members) (hdistinct : Distinct members)
    (hdepth : reject_excess_depth source.text = .ok ())
    (hkeys : ∀ m ∈ members, Encodable m.1)
    (hvalues : ∀ m ∈ members, m.1 ∉ START_NS_FIELDS → m.2.Canonical) :
    load_json_bytes (source.zeroed members).text.utf8Encode =
      .ok (.dict (members.map zeroMember)) := by
  have hzero : (source.zeroed members).Holds (ReadAs load.hooks) (members.map zeroMember) :=
    ⟨hsource.lead, hsource.space, zeroed_members hsource.slots hvalues, hsource.trail⟩
  have hdistinct' : Distinct (members.map zeroMember) := by
    simpa [Distinct, zeroMember, Function.comp_def] using hdistinct
  have hpairs : outcome (load.hooks.object_pairs_hook (members.map zeroMember)) =
      .ok (.dict (members.map zeroMember)) := by
    show outcome (python.lift (object_from_pairs _)) = _
    rw [outcome_lift]
    unfold object_from_pairs
    rw [if_pos hdistinct']
  have hcanonical : (Value.dict (members.map zeroMember)).Canonical := by
    refine .dict hdistinct' ?_ ?_
    · intro m hm
      obtain ⟨m', hm', rfl⟩ := List.mem_map.mp hm
      exact hkeys m' hm'
    · intro m hm
      obtain ⟨m', hm', rfl⟩ := List.mem_map.mp hm
      unfold zeroMember
      by_cases hname : m'.1 ∈ START_NS_FIELDS
      · simp [hname, Value.SafeInteger]
      · simpa [hname] using hvalues m' hm' hname
  obtain ⟨t, ht⟩ := canon.encode_of_canonical hcanonical
  unfold load_json_bytes loading
  simp only [outcome_bind, outcome_lift, hzero.decodes, ok_bind, hsource.zeroed_depth hdepth,
    outcome_mapThrow (f := syntax_failure) rfl, hzero.loads hpairs, Except.mapError,
    canon.canonicalize_eq_encode, ht, outcome_pure]

/-- The decoder of a parent START widens two members and nothing else. What it
returns is an object; the two are integers from zero to the largest of 64 bits
wherever they are members of it; every other member is canonical, at any depth.
With `0` in the place of the two values, the source is taken by the strict
loader, for the same object with zeros. Hooks that would keep a duplicate key or
take a float read the same value from the source, whose keys are distinct and
whose strings have no surrogate; and the source nests no deeper than allowed. -/
theorem wide_start_widens_nothing_else {data : ByteArray} {value : Value}
    (h : decode_parent_start data = .ok value) :
    ∃ (source : ObjectSource) (members : List (Str × Value)),
      value = .dict members ∧ decode_utf8 data = .ok source.text ∧
      source.Holds (ReadAs wide) members ∧
      (∀ m ∈ members, m.1 ∈ START_NS_FIELDS →
        ∃ n, m.2 = .int n ∧ 0 ≤ n ∧ n ≤ MAX_START_NS) ∧
      (∀ m ∈ members, m.1 ∉ START_NS_FIELDS → m.2.Canonical) ∧
      load_json_bytes (source.zeroed members).text.utf8Encode =
        .ok (.dict (members.map zeroMember)) ∧
      (∀ parse_float parse_constant,
        outcome (json.loads (lenient parse_float parse_constant) source.text) = .ok value) ∧
      value.DistinctKeys ∧ (∀ m ∈ members, Encodable m.1) ∧
      ∀ nesting, Document source.text nesting → nesting ≤ 64 := by
  obtain ⟨text, members, htext, hdepth, hloads, rfl, hchecks⟩ := decode_parent_start_ok h
  obtain ⟨source, rfl, hsource, hdistinct⟩ := loads_wide_dict hloads
  have hkeys := distinctKeys_of_wide hloads
  have hmember := fun m hm =>
    check_start_member_ok ((Value.distinctKeys_dict.mp hkeys).2 m hm) (hchecks m hm)
  have hstrings : ∀ m ∈ members, Encodable m.1 := fun m hm => (hmember m hm).1
  have hcanonical : ∀ m ∈ members, m.1 ∉ START_NS_FIELDS → m.2.Canonical :=
    fun m hm => (hmember m hm).2.2
  refine ⟨source, members, rfl, htext, ?_, fun m hm => (hmember m hm).2.1, hcanonical,
    load_zeroed hsource hdistinct hdepth hstrings hcanonical, ?_, hkeys, hstrings, ?_⟩
  · exact hsource.imp fun token m _ htoken => htoken.read _ _ follows_wide trivial
  · intro parse_float parse_constant
    refine ObjectSource.Holds.loads (hsource.imp fun token m _ htoken => ?_) rfl
    exact htoken.read _ _ (follows_lenient parse_float parse_constant) trivial
  · intro nesting hnesting
    rw [reject_excess_depth_document hnesting] at hdepth
    by_contra hover
    rw [if_neg hover] at hdepth
    cases hdepth

/-- A START of one member, `{"started_wall_ns":9007199254740993}`. -/
def wideSource : ObjectSource where
  lead := []
  space := []
  slots := [{ left := "\"started_wall_ns\":".toList, token := canon.decimal (2 ^ 53 + 1), right := [] }]
  trail := []

theorem wideSource_holds :
    wideSource.Holds (ReadAs wide) [("started_wall_ns", .int (2 ^ 53 + 1))] := by
  have hblank : Blank [] := by simp [Blank]
  have hname : ∀ rest, scanstring ("started_wall_ns\"".toList ++ rest) =
      .ret (lit "started_wall_ns", rest) := by
    intro rest
    obtain ⟨body, hbody, hscan⟩ := scanstring_string_text (s := lit "started_wall_ns")
      (t := "\"started_wall_ns\"".toList) rfl rest
    cases hbody
    exact hscan
  have hread : ReadAs wide (canon.decimal (2 ^ 53 + 1)) (.int (2 ^ 53 + 1)) := by
    intro rest fuel hr hf
    have hconvert : convert (canon.decimal (2 ^ 53 + 1)) = .ok (2 ^ 53 + 1) := by
      rw [convert_of_short (by decide +kernel), decimalValue_decimal]
    have hinteger : outcome (start_integer (canon.decimal (2 ^ 53 + 1))) = .ok (.int (2 ^ 53 + 1)) := by
      unfold start_integer
      simp only [outcome_bind, outcome_lift, outcome_int, hconvert, ok_bind]
      rfl
    obtain ⟨fuel, rfl⟩ : ∃ f, fuel = f + 1 :=
      ⟨fuel - 1, by have hpos := (startsValue_decimal (2 ^ 53 + 1)).length_pos; omega⟩
    rw [show wide = withNumbers start_integer hooks.parse_float from rfl, scan_once_decimal _ hr]
    show outcome (start_integer _ >>= fun v => pure (v, rest)) = _
    rw [outcome_bind, hinteger]
    rfl
  refine ⟨hblank, hblank, .cons ⟨?_, hblank, startsValue_decimal (2 ^ 53 + 1), hread⟩ .nil, hblank⟩
  exact ⟨[], _, [], [], hblank, hblank, hblank, rfl, hname⟩

theorem decode_wideSource : decode_parent_start wideSource.text.utf8Encode =
    .ok (.dict [("started_wall_ns", .int (2 ^ 53 + 1))]) := by
  have hload := wideSource_holds.loads (v := .dict [("started_wall_ns", .int (2 ^ 53 + 1))]) rfl
  have hsize : wideSource.text.utf8Encode.size ≤ MAX_BYTES := by decide +kernel
  have hdepth : reject_excess_depth wideSource.text = .ok () := by rfl
  have hcheck : check_start_member ("started_wall_ns", .int (2 ^ 53 + 1)) = .ok () := by
    obtain ⟨t, ht⟩ := canon.string_text_eq_ok.mpr (encodable_lit "started_wall_ns")
    unfold check_start_member
    rw [canon.canonicalize_eq_encode, canon.encode, ht, lift_ok, ok_bind, if_pos (by decide)]
    exact needOr_eq_ok.mpr (by decide)
  unfold decode_parent_start
  rw [need_eq_ok.mpr hsize, ok_bind, wideSource_holds.decodes, lift_ok, ok_bind, hdepth, lift_ok, ok_bind]
  rw [show { load.hooks with parse_int := start_integer } = wide from rfl, hload]
  simp only [Except.mapError, lift_ok, ok_bind]
  rw [forM_eq_ok.mpr (by simpa using hcheck)]
  rfl

theorem wide_start_widens_nothing_else_small :
    ∃ (source : ObjectSource) (members : List (Str × Value)),
      Value.dict [("started_wall_ns", .int (2 ^ 53 + 1))] = .dict members ∧
      decode_utf8 wideSource.text.utf8Encode = .ok source.text ∧
      load_json_bytes (source.zeroed members).text.utf8Encode =
        .ok (.dict (members.map zeroMember)) := by
  obtain ⟨source, members, hvalue, htext, _, _, _, hload, _⟩ :=
    wide_start_widens_nothing_else decode_wideSource
  exact ⟨source, members, hvalue, htext, hload⟩

end vfy.child_ledger
