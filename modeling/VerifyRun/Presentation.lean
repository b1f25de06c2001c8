-- Evaluation does not see how its inputs are written: two candidates and two
-- snapshots that say the same give the same result, byte for byte, unless an operand
-- of one of them is the very object that the evaluator returns for what is unsettled.
import VerifyRun.Preparation
import VerifyRun.SettledDecisions

namespace vfy.gate

open python keys outcomes expr schema

/-! ## Snapshots that say the same -/

/-- Two items have the same status, were acquired at the same instant, and hold
the same value up to the order of its members. -/
structure Alike (item item' : Value) : Prop where
  status : item'.get? "status" = item.get? "status"
  acquired_at : instantAt item' "acquired_at" = instantAt item "acquired_at"
  value : Option.Rel Value.Same (item.get? "value") (item'.get? "value")

/-- Two snapshots were frozen at the same instant, and map each id to items
that are alike. -/
structure SaysTheSame (S S' : Value) : Prop where
  frozen_at : instantAt S' "frozen_at" = instantAt S "frozen_at"
  items : ∀ id, Option.Rel Alike (itemOf S id) (itemOf S' id)

section Presentation

variable {V c c' S S' : Value}

theorem distinctKeys_of_itemOf (hd : S.DistinctKeys) {id : Str} {item : Value}
    (h : itemOf S id = some item) : item.DistinctKeys := by
  have hmem := (itemOf_spec h).1
  unfold membersOf at hmem
  split at hmem
  · rename_i items hitems
    have hlist := hd.get? hitems
    cases hlist with
    | list hl => exact hl item hmem
  · cases hmem

theorem optionRel_cases {α : Type} {R : α → α → Prop} {o o' : Option α} (h : Option.Rel R o o') :
    o = none ∧ o' = none ∨ ∃ a b, o = some a ∧ o' = some b ∧ R a b := by
  cases h with
  | none => exact .inl ⟨rfl, rfl⟩
  | some h => exact .inr ⟨_, _, rfl, rfl, h⟩

theorem Alike.hasStatusOk_eq {item item' : Value} (h : Alike item item') :
    hasStatusOk item' = hasStatusOk item := by
  unfold hasStatusOk
  rw [h.status]

theorem Alike.value_eq {item item' : Value} (h : Alike item item') (hd : item.DistinctKeys) :
    (item.get? "value").map Value.normalize = (item'.get? "value").map Value.normalize := by
  rcases optionRel_cases h.value with ⟨hn, hn'⟩ | ⟨w, w', hw, hw', hsame⟩
  · rw [hn, hn']
  · rw [hw, hw', Option.map_some, Option.map_some, hsame.normalize_eq (hd.get? hw)]

/-- Snapshots that say the same describe one world. -/
theorem world_of_saysTheSame (h : SaysTheSame S S') (hd : S.DistinctKeys)
    (hc : c.normalize = c'.normalize) : World.of V c S = World.of V c' S' := by
  have hok : (World.of V c S).ok = (World.of V c' S').ok := by
    funext id
    rcases optionRel_cases (h.items id) with ⟨hn, hn'⟩ | ⟨item, item', hi, hi', ha⟩
    · simp [World.of, World.ofObjects, hn, hn']
    · simp [World.of, World.ofObjects, hi, hi', ha.hasStatusOk_eq]
  have hfresh : (World.of V c S).fresh = (World.of V c' S').fresh := by
    funext id
    rcases optionRel_cases (h.items id) with ⟨hn, hn'⟩ | ⟨item, item', hi, hi', ha⟩
    · simp [World.of, World.ofObjects, hn, hn']
    · simp [World.of, World.ofObjects, hi, hi', ha.hasStatusOk_eq, h.frozen_at, ha.acquired_at]
  have hvalue : (World.of V c S).value = (World.of V c' S').value := by
    funext id
    rcases optionRel_cases (h.items id) with ⟨hn, hn'⟩ | ⟨item, item', hi, hi', ha⟩
    · simp [World.of, World.ofObjects, hn, hn']
    · have hnormal := ha.value_eq (distinctKeys_of_itemOf hd hi)
      simp only [World.of, World.ofObjects, hi, hi', Option.filter_some, ha.hasStatusOk_eq]
      by_cases hb : hasStatusOk item = true
      · simpa only [hb, if_true, Option.bind_some] using hnormal
      · simp only [hb, Bool.false_eq_true, if_false, Option.bind_none]
  unfold World.of World.ofObjects at hok hfresh hvalue ⊢
  rw [World.mk.injEq]
  exact ⟨hc, hok, hfresh, hvalue, rfl⟩

/-- Every item stays in order: its id maps to an item that was acquired at the
same instant. -/
theorem inOrder_of_acquired (hs' : IsSnapshot S') (hn' : (idsOf S').Nodup)
    (hfrozen : instantAt S' "frozen_at" = instantAt S "frozen_at")
    (hitems : ∀ id item', itemOf S' id = some item' → ∃ item, itemOf S id = some item ∧
      instantAt item' "acquired_at" = instantAt item "acquired_at")
    (h : ∀ item ∈ membersOf S "items", InOrder S item) :
    ∀ item' ∈ membersOf S' "items", InOrder S' item' := by
  intro item' hmem'
  obtain ⟨items, hget, hall⟩ := snapshot_items hs'
  have hitem' : IsItem item' := hall item' (by simpa [membersOf, hget] using hmem')
  obtain ⟨id, hid⟩ := item_id hitem'
  obtain ⟨item, hi, hacquired⟩ := hitems id item' (withId_of_mem hn' hmem' hid)
  have horder := h item (itemOf_spec hi).1
  unfold InOrder at horder ⊢
  rw [hacquired, hfrozen]
  exact horder

end Presentation

/-! ## Two walks in one world -/

section Alike

variable {w w' : World} {clauses : List Clause}

theorem reaches_cons {c d : Clause} {rest : List Clause} :
    w.Reaches (c :: rest) d ↔ d = c ∨ w.state c = .false ∧ w.Reaches rest d := by
  constructor
  · rintro ⟨before, after, hsplit, hbefore⟩
    cases before with
    | nil => exact .inl (List.cons.inj hsplit).1.symm
    | cons b before =>
      obtain ⟨rfl, hrest⟩ := List.cons.inj hsplit
      exact .inr ⟨hbefore c (by simp), before, after, hrest, fun b hb => hbefore b (by simp [hb])⟩
  · rintro (rfl | ⟨hc, hd⟩)
    · exact reaches_head d rest
    · exact hd.tail hc

/-- Where every rule that is reached has a cause, the walk reaches what it reaches
without the object. -/
theorem reaches_plain (h : w.Sees clauses) (d : Clause) :
    w.Reaches clauses d ↔ w.plain.Reaches clauses d := by
  induction clauses with
  | nil => exact ⟨fun ⟨_, _, hnil, _⟩ => by simp at hnil, fun ⟨_, _, hnil, _⟩ => by simp at hnil⟩
  | cons c rest ih =>
    rw [reaches_cons, reaches_cons, ← state_plain (h c (reaches_head c rest))]
    exact or_congr_right (and_congr_right fun hc => ih (h.tail hc))

/-- The rules that are reached without the object, and that it touches in one of the
worlds, have other causes in both, and note the same ones. -/
def HearAlike (w w' : World) (clauses : List Clause) : Prop :=
  ∀ c, w.plain.Reaches clauses c → w.Touches c ∨ w'.Touches c →
    w.causes c.tree ≠ [] ∧ w'.causes c.tree ≠ [] ∧
      (w.causes c.tree).foldl noted [] = (w'.causes c.tree).foldl noted []

theorem HearAlike.symm (hplain : w.plain = w'.plain) (h : HearAlike w w' clauses) :
    HearAlike w' w clauses := by
  intro c hreaches htouches
  rw [← hplain] at hreaches
  obtain ⟨hne, hne', hsame⟩ := h c hreaches htouches.symm
  exact ⟨hne', hne, hsame.symm⟩

theorem HearAlike.tail {c : Clause} {rest : List Clause} (h : HearAlike w w' (c :: rest))
    (hc : w.plain.state c = .false) : HearAlike w w' rest :=
  fun d hd => h d (hd.tail hc)

theorem HearAlike.sees (h : HearAlike w w' clauses) : w.Sees clauses := by
  induction clauses with
  | nil => exact fun c ⟨_, _, hnil, _⟩ => by simp at hnil
  | cons c rest ih =>
    have hc : ¬ w.Overlooks c := fun ⟨htouches, hnil⟩ =>
      (h c (reaches_head c rest) (.inl htouches)).1 hnil
    intro d hd
    rcases reaches_cons.mp hd with rfl | ⟨hstate, hd⟩
    · exact hc
    · rw [state_plain hc] at hstate
      exact ih (h.tail hstate) d hd

/-- Worlds that hear alike end alike. -/
theorem decision_of_hearAlike (hplain : w.plain = w'.plain) (h : HearAlike w w' clauses) :
    w.decision clauses = w'.decision clauses := by
  induction clauses with
  | nil => rfl
  | cons c rest ih =>
    have hstate := state_plain (h.sees c (reaches_head c rest))
    have hstate' := state_plain ((h.symm hplain).sees c (reaches_head c rest))
    rw [← hplain, ← hstate] at hstate'
    have hcauses : w.stateCauses c = w'.stateCauses c := by
      by_cases htouches : w.Touches c ∨ w'.Touches c
      · have hok : c.rule.needs.all w.plain.ok = true := by
          rcases htouches with htouches | htouches
          · exact htouches.1
          · rw [hplain]
            exact htouches.1
        have hok' : c.rule.needs.all w'.plain.ok = true := hplain ▸ hok
        rw [stateCauses_of_ok (w := w) hok, stateCauses_of_ok (w := w') hok',
          (h c (reaches_head c rest) htouches).2.2]
      · rw [not_or] at htouches
        rw [(state_plain_of_not_touches htouches.1).2, (state_plain_of_not_touches htouches.2).2,
          hplain]
    rw [World.decision, World.decision, hstate', hcauses]
    cases hs : w.state c with
    | true => rfl
    | unsettled => rfl
    | false => exact ih (h.tail (hstate ▸ hs))

theorem evidence_id_of_reason (code message : Str) (rule_id evidence_id : Option Str) :
    (reason code message rule_id evidence_id).normalize.get? "evidence_id" =
      evidence_id.map .str := by
  have hd : Distinct ([(lit "code", Value.str code), (lit "message", .str message)] ++
      (rule_id.map fun id => (lit "rule_id", Value.str id)).toList ++
      (evidence_id.map fun id => (lit "evidence_id", Value.str id)).toList) := by
    cases rule_id <;> cases evidence_id <;> simp [Distinct]
  unfold reason
  rw [Value.normalize_dict]
  simp only [Value.get?_dict, lookup_normalized hd]
  cases rule_id <;> cases evidence_id <;> simp

/-- A cause is read off its reason. -/
theorem cause_of_reason (rule_id : Str) : Function.Injective fun cause : Cause =>
    (reason cause.code cause.message (some rule_id) cause.evidence_id).normalize := by
  intro a b h
  have hid := congrArg (·.get? "evidence_id") h
  simp only [evidence_id_of_reason] at hid
  cases a <;> cases b <;> simp [Cause.evidence_id] at hid ⊢
  exact hid

/-- Documents of two decisions to hold that read back the same note the same causes. -/
theorem causes_of_document {rule : Rule} {causes causes' : List Cause} {outcome outcome' : Str}
    {default_outcome : Str} {matched matched' : Option Str} {trace trace' : Option (List Str)}
    (h : (documentOf outcome ((Decision.held rule causes).reasons default_outcome) matched
        trace).normalize =
      (documentOf outcome' ((Decision.held rule causes').reasons default_outcome) matched'
        trace').normalize) : causes = causes' := by
  obtain ⟨-, -, -, hreasons⟩ := documentOf_members outcome
    ((Decision.held rule causes).reasons default_outcome) matched trace
  obtain ⟨-, -, -, hreasons'⟩ := documentOf_members outcome'
    ((Decision.held rule causes').reasons default_outcome) matched' trace'
  rw [h, hreasons', Option.some.injEq, Value.list.injEq] at hreasons
  unfold Decision.reasons at hreasons
  rw [List.map_map, List.map_map] at hreasons
  exact (List.map_injective_iff.mpr (cause_of_reason rule.id) hreasons).symm

end Alike

/-! ## One result -/

section Presentation

variable {S S' : Value}

/-- What two evaluations note alike, on either side. -/
def NotedAlike (objects objects' : Objects) (P : rulebook.LoadedRulebook)
    (candidate candidate' S S' : Value) : Prop :=
  ∃ V clauses, P.value = .ok V ∧ List.Forall₂ Clause.Of clauses (membersOf V "rules") ∧
    HearAlike (World.ofObjects objects V candidate S) (World.ofObjects objects' V candidate' S')
      clauses

/-- Two evaluations that return one result hear alike. -/
theorem hearAlike_of_result {P : rulebook.LoadedRulebook} {V : Value}
    {members members' : List (Str × Value)} {clauses : List Clause} {objects objects' : Objects}
    (hV : ReadsBack P V) (hc : (Value.dict members).DistinctKeys)
    (hc' : (Value.dict members').DistinctKeys) (hs : S.DistinctKeys) (hs' : S'.DistinctKeys)
    (hprep : prepare P (.dict members) S REGISTRY = .ok none)
    (hprep' : prepare P (.dict members') S' REGISTRY = .ok none)
    (hready : Ready V (.dict members) S clauses) (hready' : Ready V (.dict members') S' clauses)
    {w w' : World} (hw : World.ofObjects objects V (.dict members) S = w)
    (hw' : World.ofObjects objects' V (.dict members') S' = w') (hplain : w.plain = w'.plain)
    {r : EvaluationResult} (hr : evaluateWith objects P (.dict members) S REGISTRY = .ok r)
    (hr' : evaluateWith objects' P (.dict members') S' REGISTRY = .ok r) :
    HearAlike w w' clauses := by
  obtain ⟨o, ho, hdefault⟩ := rulebook_default_outcome hV.valid
  have hmem : lit o ∈ [lit "BLOCK", lit "HOLD"] := by simpa using ho
  have hsees : w.Sees clauses := by
    by_contra hblind
    exact evaluate_overlooks objects hV hc hs hprep hready hw hblind r hr
  have hsees' : w'.Sees clauses := by
    by_contra hblind
    exact evaluate_overlooks objects' hV hc' hs' hprep' hready' hw' hblind r hr'
  obtain ⟨r₁, hr₁, -, -, hvalue⟩ :=
    evaluateWith_returns objects hV hc hs hprep hready hdefault hmem hw hsees
  obtain ⟨r₂, hr₂, -, -, hvalue'⟩ :=
    evaluateWith_returns objects' hV hc' hs' hprep' hready' hdefault hmem hw' hsees'
  obtain rfl := Except.ok.inj (hr₁.symm.trans hr)
  obtain rfl := Except.ok.inj (hr₂.symm.trans hr')
  intro c hreaches htouches
  -- the rule is unsettled in both worlds, and both walks end at it
  have hwr := (reaches_plain hsees c).mpr hreaches
  have hwr' := (reaches_plain hsees' c).mpr (hplain ▸ hreaches)
  have hstate : w.state c = w'.state c := by
    rw [state_plain (hsees c hwr), state_plain (hsees' c hwr'), hplain]
  have hu : w.state c = .unsettled := by
    rcases htouches with htouches | htouches
    · exact state_of_touches htouches
    · rw [hstate]
      exact state_of_touches htouches
  have hu' : w'.state c = .unsettled := hstate ▸ hu
  have hok : c.rule.needs.all w.plain.ok = true := by
    rcases htouches with htouches | htouches
    · exact htouches.1
    · rw [hplain]
      exact htouches.1
  have hok' : c.rule.needs.all w'.plain.ok = true := hplain ▸ hok
  rw [decision_of_reaches hwr hu] at hvalue
  rw [decision_of_reaches hwr' hu'] at hvalue'
  have hcauses := causes_of_document (Except.ok.inj (hvalue.symm.trans hvalue'))
  have hne := stateCauses_ne_nil hu (hsees c hwr)
  have hne' := stateCauses_ne_nil hu' (hsees' c hwr')
  have heq : w.stateCauses c = (w.causes c.tree).foldl noted [] := stateCauses_of_ok hok
  have heq' : w'.stateCauses c = (w'.causes c.tree).foldl noted [] := stateCauses_of_ok hok'
  rw [heq] at hne hcauses
  rw [heq'] at hne' hcauses
  refine ⟨fun hnil => hne ?_, fun hnil => hne' ?_, hcauses⟩ <;> rw [hnil] <;> rfl

/-- Evaluation is independent of presentation: two candidates that are equal up
to the order of members, and two valid snapshots that say the same, whatever
the spelling of their instants, the order of their items, their order numbers,
ids and digests, pass preparation together, and give one result exactly where the
rules that are reached hear alike the object `UNSETTLED` in them. -/
theorem evaluation_ignores_presentation {v : Value} (hv : v.DistinctKeys)
    {P : rulebook.LoadedRulebook} (hpin : rulebook.pin v REGISTRY = .ok P)
    (objects objects' : Objects)
    {members members' : List (Str × Value)} (hc : (Value.dict members).DistinctKeys)
    (hc' : (Value.dict members').DistinctKeys)
    (hsame : Value.Same (.dict members) (.dict members')) {S S' : Value}
    (hs : S.DistinctKeys) (hs' : S'.DistinctKeys)
    (hvalid : schema.validate S SNAPSHOT_SCHEMA_ID REGISTRY = .ok ())
    (hvalid' : schema.validate S' SNAPSHOT_SCHEMA_ID REGISTRY = .ok ())
    (hn : (idsOf S).Nodup) (hn' : (idsOf S').Nodup) (h : SaysTheSame S S') :
    (prepare P (.dict members) S REGISTRY = .ok none ↔
      prepare P (.dict members') S' REGISTRY = .ok none) ∧
    (prepare P (.dict members) S REGISTRY = .ok none →
      ((∃ r, evaluateWith objects P (.dict members) S REGISTRY = .ok r ∧
        evaluateWith objects' P (.dict members') S' REGISTRY = .ok r) ↔
      NotedAlike objects objects' P (.dict members) (.dict members') S S')) := by
  have hV := readsBack_of_pin hv hpin
  have hadopted := adopted_at_of_pin hv hpin
  have hnormal := hsame.normalize_eq hc
  have hcandidate : schema.validate (.dict members) CANDIDATE_SCHEMA_ID REGISTRY =
      schema.validate (.dict members') CANDIDATE_SCHEMA_ID REGISTRY := by
    rw [← validate_normalize hc, ← validate_normalize hc', hnormal]
  have hsnap := (validate_snapshot_iff _).mp hvalid
  have hsnap' := (validate_snapshot_iff _).mp hvalid'
  have hprepared : prepare P (.dict members) S REGISTRY = .ok none ↔
      prepare P (.dict members') S' REGISTRY = .ok none := by
    rw [prepare_eq_none_iff hV hadopted, prepare_eq_none_iff hV hadopted]
    refine and_congr_left fun _ => ⟨fun ha => ?_, fun ha => ?_⟩
    · refine ⟨hcandidate ▸ ha.valid_candidate, hvalid', ?_, ?_⟩
      · refine inOrder_of_acquired hsnap' hn' h.frozen_at (fun id item' hi' => ?_) ha.order
        rcases optionRel_cases (h.items id) with ⟨-, hnone⟩ | ⟨item, found, hi, hfound, halike⟩
        · rw [hi'] at hnone
          cases hnone
        · rw [hi'] at hfound
          cases hfound
          exact ⟨item, hi, halike.acquired_at⟩
      · have hadopt := ha.adopted
        unfold Adopted at hadopt ⊢
        rwa [h.frozen_at]
    · refine ⟨hcandidate.symm ▸ ha.valid_candidate, hvalid, ?_, ?_⟩
      · refine inOrder_of_acquired hsnap hn h.frozen_at.symm (fun id item hi => ?_) ha.order
        rcases optionRel_cases (h.items id) with ⟨hnone, -⟩ | ⟨found, item', hfound, hi', halike⟩
        · rw [hi] at hnone
          cases hnone
        · rw [hi] at hfound
          cases hfound
          exact ⟨item', hi', halike.acquired_at.symm⟩
      · have hadopt := ha.adopted
        unfold Adopted at hadopt ⊢
        rwa [← h.frozen_at]
  refine ⟨hprepared, fun hprep => ?_⟩
  have hprep' := hprepared.mp hprep
  have hplain : (World.ofObjects objects v.normalize (.dict members) S).plain =
      (World.ofObjects objects' v.normalize (.dict members') S').plain := by
    rw [plain_ofObjects, plain_ofObjects, world_of_saysTheSame h hs hnormal]
  constructor
  · rintro ⟨r, hr, hr'⟩
    obtain ⟨clauses, hready⟩ := ready_of_prepare hV hprep
    have hready' : Ready v.normalize (.dict members') S' clauses :=
      ⟨hcandidate ▸ hready.candidate, hsnap', hready.rules⟩
    exact ⟨_, clauses, hV.value, hready.rules,
      hearAlike_of_result hV hc hc' hs hs' hprep hprep' hready hready' rfl rfl hplain hr hr'⟩
  · rintro ⟨V, clauses, hvalue, hclauses, halike⟩
    obtain rfl : v.normalize = V := Except.ok.inj (hV.value.symm.trans hvalue)
    obtain ⟨_, hany⟩ := ready_of_prepare hV hprep
    have hready : Ready v.normalize (.dict members) S clauses := ⟨hany.candidate, hsnap, hclauses⟩
    have hready' : Ready v.normalize (.dict members') S' clauses :=
      ⟨hcandidate ▸ hany.candidate, hsnap', hclauses⟩
    obtain ⟨o, ho, hdefault⟩ := rulebook_default_outcome hV.valid
    have hmem : lit o ∈ [lit "BLOCK", lit "HOLD"] := by simpa using ho
    obtain ⟨r, hr, -⟩ :=
      evaluateWith_returns objects hV hc hs hprep hready hdefault hmem rfl halike.sees
    refine ⟨r, hr, ?_⟩
    rw [← hr, evaluate_ready objects hV hc hs hprep hready hdefault hmem rfl,
      evaluate_ready objects' hV hc' hs' hprep' hready' hdefault hmem rfl,
      decision_of_hearAlike hplain halike, (decision_plain halike.sees (lit o) 0).2.2,
      (decision_plain (halike.symm hplain).sees (lit o) 0).2.2, hplain]

end Presentation

/-! ## A snapshot written in two ways -/

/-- The evidence is ok, and other evidence is missing. -/
def snapshotWritten : Value := snapshotWith [itemWith "report" "ok", itemWith "review" "missing"]

/-- The same, in another order, on other clocks and under other ids. -/
def snapshotRewritten : Value := .dict
  [("snapshot_id", .str "t"), ("items", .list [
    .dict [("status", .str "missing"), ("order", .int 4), ("id", .str "review"),
      ("acquired_at", .str "2026-01-02T00:00:00.000Z")],
    .dict [("id", .str "report"), ("acquired_at", .str "2026-01-02T05:30:00+05:30"),
      ("order", .int 7), ("status", .str "ok")]]),
   ("rulebook_digest", .str (lit "sha256:" ++ ofText (sha256.hexdigest [1]))),
   ("snapshot_digest", .str (lit "sha256:" ++ ofText (sha256.hexdigest [2]))),
   ("frozen_at", .str "2026-01-01T23:00:00-01:00")]

/-- The candidate with its members in another order. -/
def candidateRewritten : List (Str × Value) :=
  [("kind", .str "command"), ("candidate_id", .str "c"),
   ("action", .dict [("summary", .str "run"), ("argv", .list [.str "true"])])]

theorem isSnapshot_snapshotRewritten : IsSnapshot snapshotRewritten := by
  have hstatus : ∀ s ∈ ["ok", "missing"], IsOneOf ["ok", "missing", "stale", "error"]
      (.str (lit s)) := by
    intro s hs
    refine ⟨s, ?_, rfl⟩
    simp only [List.mem_cons, List.not_mem_nil, or_false] at hs ⊢
    tauto
  have hdate : IsDate (.str (lit "2026-01-02T00:00:00.000Z")) ∧
      IsDate (.str (lit "2026-01-02T05:30:00+05:30")) ∧
      IsDate (.str (lit "2026-01-01T23:00:00-01:00")) :=
    ⟨⟨_, rfl, by decide +kernel⟩, ⟨_, rfl, by decide +kernel⟩, ⟨_, rfl, by decide +kernel⟩⟩
  have hitems : IsList IsItem (.list [
      .dict [("status", .str "missing"), ("order", .int 4), ("id", .str "review"),
        ("acquired_at", .str "2026-01-02T00:00:00.000Z")],
      .dict [("id", .str "report"), ("acquired_at", .str "2026-01-02T05:30:00+05:30"),
        ("order", .int 7), ("status", .str "ok")]]) := by
    refine ⟨_, rfl, ?_⟩
    simp only [List.mem_cons, List.not_mem_nil, or_false, forall_eq_or_imp, forall_eq]
    constructor
    · refine ⟨_, rfl, by simp, ?_⟩
      simp [itemFields, hstatus "missing", hdate.1, IsText, IsNatural]
    · refine ⟨_, rfl, by simp, ?_⟩
      simp [itemFields, hstatus "ok", hdate.2.1, IsText, IsNatural]
  refine ⟨_, rfl, by simp, ?_⟩
  simp [snapshotFields, hitems, hdate.2.2, IsText, isDigest_hexdigest]

theorem distinctKeys_snapshotRewritten : snapshotRewritten.DistinctKeys := by
  simp [snapshotRewritten, Distinct]

theorem idsOf_written : (idsOf snapshotWritten).Nodup ∧ (idsOf snapshotRewritten).Nodup := by
  constructor <;>
    simp [idsOf, membersOf, snapshotWritten, snapshotWith, itemWith, snapshotRewritten]

theorem itemOf_written (id : Str) :
    itemOf snapshotWritten id = (if id = lit "review" then some (itemWith "review" "missing")
      else if id = lit "report" then some (itemWith "report" "ok") else none) ∧
    itemOf snapshotRewritten id = (if id = lit "report" then
        some (.dict [("id", .str "report"), ("acquired_at", .str "2026-01-02T05:30:00+05:30"),
          ("order", .int 7), ("status", .str "ok")])
      else if id = lit "review" then
        some (.dict [("status", .str "missing"), ("order", .int 4), ("id", .str "review"),
          ("acquired_at", .str "2026-01-02T00:00:00.000Z")]) else none) := by
  constructor <;>
    simp [itemOf, withId, membersOf, snapshotWritten, snapshotWith, itemWith, snapshotRewritten,
      List.find?_cons, eq_comm] <;>
    split_ifs <;> simp_all

theorem saysTheSame_written : SaysTheSame snapshotWritten snapshotRewritten := by
  have hinstants : rulebook.instant (.str (lit "2026-01-02T00:00:00.000Z")) =
        rulebook.instant (.str (lit "2026-01-02T00:00:00Z")) ∧
      rulebook.instant (.str (lit "2026-01-02T05:30:00+05:30")) =
        rulebook.instant (.str (lit "2026-01-02T00:00:00Z")) ∧
      rulebook.instant (.str (lit "2026-01-01T23:00:00-01:00")) =
        rulebook.instant (.str (lit "2026-01-02T00:00:00Z")) := by decide +kernel
  refine ⟨?_, fun id => ?_⟩
  · simp [instantAt, snapshotWritten, snapshotWith, snapshotRewritten, hinstants]
  · rw [(itemOf_written id).1, (itemOf_written id).2]
    by_cases hreview : id = lit "review"
    · subst hreview
      simp only [if_true, lit_inj, String.reduceEq, if_false]
      refine .some ⟨?_, ?_, ?_⟩
      · simp [itemWith]
      · simp [instantAt, itemWith, hinstants]
      · simp [itemWith]
    · by_cases hreport : id = lit "report"
      · subst hreport
        simp only [if_true, lit_inj, String.reduceEq, if_false]
        refine .some ⟨?_, ?_, ?_⟩
        · simp [itemWith]
        · simp [instantAt, itemWith, hinstants]
        · simp [itemWith]
      · simp only [if_neg hreview, if_neg hreport]
        exact .none

/-- The two of them give one result. -/
theorem presentation_of_written : ∃ P r,
    rulebook.pin (rulebook.rulebookWith presentReport) REGISTRY = .ok P ∧
    evaluate P (.dict smallCandidate) snapshotWritten REGISTRY = .ok r ∧
    evaluate P (.dict candidateRewritten) snapshotRewritten REGISTRY = .ok r := by
  obtain ⟨P, hP, -⟩ := rulebook.pin_rulebookWith encodable_presentReport
  have hprep := @prepare_presentReport P hP [("report", "ok"), ("review", "missing")] (by simp)
  have hsame : Value.Same (.dict smallCandidate) (.dict candidateRewritten) :=
    Value.same_of_normalize_eq rfl
  have hvalid : IsSnapshot snapshotWritten := by
    refine isSnapshot_snapshotWith ?_
    simp [isItem_itemWith]
  have hV := readsBack_of_pin
    (rulebook.canonical_rulebookWith encodable_presentReport).distinctKeys hP
  obtain ⟨clauses, hready⟩ := ready_of_prepare hV hprep
  obtain ⟨r, hr, hr'⟩ := ((evaluation_ignores_presentation
    (rulebook.canonical_rulebookWith encodable_presentReport).distinctKeys hP .loaded .loaded
    (by simp [smallCandidate, Distinct]) (by simp [candidateRewritten, Distinct]) hsame
    (distinctKeys_snapshotWith (by simp [itemWith, Distinct])) distinctKeys_snapshotRewritten
    ((validate_snapshot_iff _).mpr hvalid)
    ((validate_snapshot_iff _).mpr isSnapshot_snapshotRewritten)
    idsOf_written.1 idsOf_written.2 saysTheSame_written).2 hprep).mpr
    ⟨_, clauses, hV.value, hready.rules, fun c _ htouches => absurd htouches
      (not_or.mpr ⟨not_touches_of _ _ _ c, not_touches_of _ _ _ c⟩)⟩
  exact ⟨P, r, hP, hr, hr'⟩

/-- One candidate and one snapshot, with a string of the loader and with the object of
the evaluator: preparation passes for both, and only one of them has a result. -/
theorem presentation_is_seen : ∃ P r,
    rulebook.pin (rulebook.rulebookWith reportUnsettled) REGISTRY = .ok P ∧
      prepare P (.dict smallCandidate) snapshotSaying REGISTRY = .ok none ∧
      SaysTheSame snapshotSaying snapshotSaying ∧ (idsOf snapshotSaying).Nodup ∧
      evaluateWith .loaded P (.dict smallCandidate) snapshotSaying REGISTRY = .ok r ∧
      ∀ r', evaluateWith objectsSaying P (.dict smallCandidate) snapshotSaying REGISTRY ≠ .ok r' := by
  obtain ⟨P, hP, -⟩ := rulebook.pin_rulebookWith encodable_reportUnsettled
  obtain ⟨r, d, hr, -⟩ := allows_saying hP
  refine ⟨P, r, hP, prepare_saying hP, ⟨rfl, fun id => ?_⟩, idsOf_saying, hr, raises_saying hP⟩
  cases itemOf snapshotSaying id with
  | none => exact .none
  | some item =>
    refine .some ⟨rfl, rfl, ?_⟩
    cases item.get? "value" with
    | none => exact .none
    | some v => exact .some (Value.same_of_normalize_eq rfl)

end vfy.gate
