-- A decision that was settled stands: whatever the unsettled evidence turns
-- out to be, the evaluator gives the same result, as long as no operand that it
-- meets is its own object for what is unsettled.
import VerifyRun.Decisions
import VerifyRun.SnapshotLaws

namespace vfy.gate

open python keys outcomes expr schema

/-! ## Settled decisions -/

mutual

/-- The evidence ids that a `present` or a `fresh` of the expression asks for. -/
def predicateIds : Expr → List Str
  | .or operands => allPredicateIds operands
  | .and operands => allPredicateIds operands
  | .not operand => predicateIds operand
  | .fresh evidence_id => [evidence_id]
  | .present evidence_id => [evidence_id]
  | _ => []

def allPredicateIds : List Expr → List Str
  | [] => []
  | e :: rest => predicateIds e ++ allPredicateIds rest

end

theorem mem_allPredicateIds {es : List Expr} {id : Str} :
    id ∈ allPredicateIds es ↔ ∃ e ∈ es, id ∈ predicateIds e := by
  induction es with
  | nil => simp [allPredicateIds]
  | cons e rest ih => simp [allPredicateIds, ih]

theorem evidenceIds_of_predicateIds (e : Expr) : ∀ id ∈ predicateIds e, id ∈ e.evidenceIds := by
  induction e with
  | or es ih =>
    intro id hid
    obtain ⟨e, he, hid⟩ := mem_allPredicateIds.mp hid
    exact mem_allEvidenceIds.mpr ⟨e, he, ih e he id hid⟩
  | and es ih =>
    intro id hid
    obtain ⟨e, he, hid⟩ := mem_allPredicateIds.mp hid
    exact mem_allEvidenceIds.mpr ⟨e, he, ih e he id hid⟩
  | not e ih => exact ih
  | fresh id => exact fun _ h => h
  | present id => exact fun _ h => h
  | compare o l r => exact fun _ h => by cases h
  | membership negated o members => exact fun _ h => by cases h
  | matchesGlob p pattern => exact fun _ h => by cases h

/-- The second world says the same of everything that is settled in the first. -/
structure Extends (w w' : World) : Prop where
  same : w'.same = w.same
  candidate : w'.candidate = w.candidate
  ok : ∀ id, w.ok id = true → w'.ok id = true
  value : ∀ id v, w.value id = some v → w'.value id = some v

/-- The worlds agree on the evidence that is asked for. -/
def AgreeOn (w w' : World) (ids : List Str) : Prop :=
  ∀ id ∈ ids, w'.ok id = w.ok id ∧ w'.fresh id = w.fresh id

section Stable

variable {w w' : World}

theorem found_stable (h : Extends w w') {p : Path} (hp : w.found p ≠ .unsettled) :
    w'.found p = w.found p := by
  unfold World.found at hp ⊢
  cases hroot : p.root with
  | candidate => rw [h.candidate]
  | identity => rw [h.candidate]
  | evidence =>
    rw [hroot] at hp
    cases hv : w.value p.first with
    | none => simp [hv] at hp
    | some v => rw [h.value _ _ hv]

theorem path_stable (h : Extends w w') {p : Path} (hp : w.path p ≠ .unsettled) :
    w'.path p = w.path p := by
  rw [ne_eq, World.path, identified_eq_unsettled, not_or] at hp
  rw [World.path, World.path, h.same, found_stable h hp.1]

theorem operand_stable (h : Extends w w') {o : Operand} (ho : w.operand o ≠ .unsettled) :
    w'.operand o = w.operand o := by
  cases o with
  | literal l => rfl
  | path p => exact path_stable h ho

theorem denoteAll_stable {es : List Expr} (hes : .unsettled ∉ w.denoteAll es)
    (ih : ∀ e ∈ es, w.denote e ≠ .unsettled → w'.denote e = w.denote e) :
    w'.denoteAll es = w.denoteAll es := by
  induction es with
  | nil => rfl
  | cons e rest ihr =>
    simp only [World.denoteAll, List.mem_cons, not_or] at hes ⊢
    rw [ih e (by simp) (Ne.symm hes.1), ihr hes.2 fun f hf => ih f (by simp [hf])]

theorem AgreeOn.of_mem {es : List Expr} (h : AgreeOn w w' (allPredicateIds es)) {e : Expr}
    (he : e ∈ es) : AgreeOn w w' (predicateIds e) :=
  fun id hid => h id (mem_allPredicateIds.mpr ⟨e, he, hid⟩)

/-- An expression that is settled stays as it is. -/
theorem denote_stable (h : Extends w w') (e : Expr) (hids : AgreeOn w w' (predicateIds e))
    (he : w.denote e ≠ .unsettled) : w'.denote e = w.denote e := by
  induction e with
  | or es ih =>
    have hes : .unsettled ∉ w.denoteAll es := fun hmem =>
      he (by rw [World.denote, disjunction, if_pos hmem])
    rw [World.denote, World.denote,
      denoteAll_stable hes fun e hmem => ih e hmem (AgreeOn.of_mem hids hmem)]
  | and es ih =>
    have hes : .unsettled ∉ w.denoteAll es := fun hmem =>
      he (by rw [World.denote, conjunction, if_pos hmem])
    rw [World.denote, World.denote,
      denoteAll_stable hes fun e hmem => ih e hmem (AgreeOn.of_mem hids hmem)]
  | not e ih =>
    have hinner : w.denote e ≠ .unsettled := fun hu => he (by rw [World.denote, hu]; rfl)
    rw [World.denote, World.denote, ih hids hinner]
  | compare o l r =>
    rw [World.denote, ne_eq, comparison_unsettled_iff] at he
    simp only [not_or] at he
    rw [World.denote, World.denote, operand_stable h he.1, operand_stable h he.2.1]
  | membership negated o members =>
    rw [World.denote, ne_eq, contained_unsettled_iff] at he
    rw [World.denote, World.denote, operand_stable h he]
  | fresh id => rw [World.denote, World.denote, (hids id (by simp [predicateIds])).2]
  | present id => rw [World.denote, World.denote, (hids id (by simp [predicateIds])).1]
  | matchesGlob p pattern =>
    rw [World.denote, ne_eq, globbed_unsettled_iff, not_or] at he
    rw [World.denote, World.denote, path_stable h he.1]

theorem state_stable (h : Extends w w') {c : Clause} (hids : AgreeOn w w' (predicateIds c.tree))
    (hc : w.state c ≠ .unsettled) : w'.state c = w.state c := by
  obtain ⟨hall, hdenote⟩ := denote_of_state rfl hc
  have hall' : c.rule.needs.all w'.ok = true := by
    rw [List.all_eq_true] at hall ⊢
    exact fun id hid => h.ok id (hall id hid)
  rw [← hdenote] at hc
  rw [World.state, if_pos hall', denote_stable h c.tree hids hc, hdenote]

/-- A decision that no unsettled rule made, and its trace, stay as they are. -/
theorem decision_stable (h : Extends w w') {clauses : List Clause}
    (hids : ∀ c ∈ clauses, AgreeOn w w' (predicateIds c.tree))
    (hheld : ∀ rule causes, w.decision clauses ≠ .held rule causes) (ordinal : Nat) :
    w'.decision clauses = w.decision clauses ∧ w'.trace ordinal clauses = w.trace ordinal clauses := by
  induction clauses generalizing ordinal with
  | nil => exact ⟨rfl, rfl⟩
  | cons c rest ih =>
    have hc : w.state c ≠ .unsettled := by
      intro hu
      refine hheld c.rule (w.stateCauses c) ?_
      rw [World.decision, hu]
    have hstate := state_stable h (hids c (by simp)) hc
    cases hs : w.state c with
    | unsettled => exact absurd hs hc
    | true =>
      rw [hs] at hstate
      simp [World.decision, World.trace, hs, hstate]
    | false =>
      rw [hs] at hstate
      have hrest : ∀ rule causes, w.decision rest ≠ .held rule causes := by
        intro rule causes hd
        refine hheld rule causes ?_
        rw [World.decision, hs]
        exact hd
      obtain ⟨hd, ht⟩ := ih (fun d hd => hids d (by simp [hd])) hrest (ordinal + 1)
      simp [World.decision, World.trace, hs, hstate, hd, ht]

end Stable

/-! ## Two snapshots -/

/-- The ids of the items of a snapshot. -/
def idsOf (snapshot : Value) : List (Option Value) :=
  (membersOf snapshot "items").map fun item => item.get? "id"

/-- An item of one snapshot and an item of another say the same. -/
structure SameItem (item item' : Value) : Prop where
  id : item'.get? "id" = item.get? "id"
  status : hasStatusOk item' = true
  acquired_at : instantAt item' "acquired_at" = instantAt item "acquired_at"
  value : Option.Rel Value.Same (item.get? "value") (item'.get? "value")

/-- Some item of the snapshot has this id and is ok. -/
def OkIn (snapshot : Value) (id : Str) : Prop :=
  ∃ item ∈ membersOf snapshot "items", item.get? "id" = some (.str id) ∧ hasStatusOk item = true

theorem id_of_withId {items : List Value} {id : Str} {item : Value}
    (h : withId items id = some item) : item.get? "id" = some (.str id) := by
  have := isStr_iff.mp (List.find?_eq_some_iff_append.mp h).1
  cases hg : item.get? (lit "id") with
  | none => simp [hg] at this
  | some v => simpa [hg] using this

/-- Where ids are not repeated, the item with an id is the last one with it. -/
theorem withId_of_mem {items : List Value} (hn : (items.map fun item => item.get? "id").Nodup)
    {item : Value} (hitem : item ∈ items) {id : Str} (hid : item.get? "id" = some (.str id)) :
    withId items id = some item := by
  unfold withId
  have hfound : (items.reverse.find? fun item => isStr ((item.get? "id").getD .null) id).isSome := by
    rw [List.find?_isSome]
    exact ⟨item, List.mem_reverse.mpr hitem, by simp [hid]⟩
  obtain ⟨found, hf⟩ := Option.isSome_iff_exists.mp hfound
  have hmem : found ∈ items := List.mem_reverse.mp (List.mem_of_find?_eq_some hf)
  have hfid : found.get? "id" = some (.str id) := id_of_withId hf
  have heq : found = item := List.inj_on_of_nodup_map hn hmem hitem (hfid.trans hid.symm)
  rw [hf, heq]

theorem itemOf_spec {snapshot : Value} {id : Str} {item : Value} (h : itemOf snapshot id = some item) :
    item ∈ membersOf snapshot "items" ∧ item.get? "id" = some (.str id) :=
  ⟨mem_of_withId h, id_of_withId h⟩

theorem ok_iff {V candidate snapshot : Value} (hn : (idsOf snapshot).Nodup) (id : Str) :
    (World.of V candidate snapshot).ok id = true ↔ OkIn snapshot id := by
  simp only [World.of, World.ofObjects, Option.any_eq_true]
  constructor
  · rintro ⟨item, hitem, hok⟩
    obtain ⟨hmem, hid⟩ := itemOf_spec hitem
    exact ⟨item, hmem, hid, hok⟩
  · rintro ⟨item, hmem, hid, hok⟩
    exact ⟨item, withId_of_mem hn hmem hid, hok⟩

/-- The world of a snapshot that keeps what is ok extends the world of the first one. -/
theorem extends_of_same (V candidate : Value) {S S' : Value} (hd : S.DistinctKeys)
    (hn' : (idsOf S').Nodup) (hsame : ∀ item ∈ membersOf S "items", hasStatusOk item = true →
      ∃ item' ∈ membersOf S' "items", SameItem item item') :
    Extends (World.of V candidate S) (World.of V candidate S') := by
  have hitem : ∀ id item, itemOf S id = some item → hasStatusOk item = true →
      ∃ item', itemOf S' id = some item' ∧ SameItem item item' := by
    intro id item hi hok
    obtain ⟨hmem, hid⟩ := itemOf_spec hi
    obtain ⟨item', hmem', hs⟩ := hsame item hmem hok
    exact ⟨item', withId_of_mem hn' hmem' (hs.id.trans hid), hs⟩
  refine ⟨rfl, rfl, ?_, ?_⟩
  · intro id hok
    simp only [World.of, World.ofObjects, Option.any_eq_true] at hok ⊢
    obtain ⟨item, hi, hok⟩ := hok
    obtain ⟨item', hi', hs⟩ := hitem id item hi hok
    exact ⟨item', hi', hs.status⟩
  · intro id v hv
    simp only [World.of, World.ofObjects, Option.bind_eq_some_iff, Option.filter_eq_some_iff, Option.map_eq_some_iff]
      at hv ⊢
    obtain ⟨item, ⟨hi, hok⟩, u, hu, rfl⟩ := hv
    obtain ⟨item', hi', hs⟩ := hitem id item hi hok
    have hvalue := hs.value
    rw [hu] at hvalue
    cases hu' : item'.get? "value" with
    | none =>
      rw [hu'] at hvalue
      cases hvalue
    | some u' =>
      rw [hu'] at hvalue
      cases hvalue with
      | some hsame =>
        have hdistinct : item.DistinctKeys := by
          obtain ⟨hmem, -⟩ := itemOf_spec hi
          unfold membersOf at hmem
          split at hmem
          · rename_i items hitems
            have hlist := hd.get? hitems
            cases hlist with
            | list hl => exact hl item hmem
          · cases hmem
        exact ⟨item', ⟨hi', hs.status⟩, u', hu',
          (hsame.normalize_eq (hdistinct.get? hu)).symm⟩

theorem fresh_agrees {V candidate S S' : Value} (hn : (idsOf S).Nodup) (hn' : (idsOf S').Nodup)
    (hfrozen : instantAt S' "frozen_at" = instantAt S "frozen_at")
    (hsame : ∀ item ∈ membersOf S "items", hasStatusOk item = true →
      ∃ item' ∈ membersOf S' "items", SameItem item item') {id : Str}
    (hid : OkIn S' id ↔ OkIn S id) :
    (World.of V candidate S').ok id = (World.of V candidate S).ok id ∧
      (World.of V candidate S').fresh id = (World.of V candidate S).fresh id := by
  have hok : (World.of V candidate S').ok id = (World.of V candidate S).ok id := by
    rw [Bool.eq_iff_iff, ok_iff hn', ok_iff hn, hid]
  refine ⟨hok, ?_⟩
  cases hb : (World.of V candidate S).ok id with
  | false =>
    rw [hb] at hok
    have hnone : ∀ T, (World.of V candidate T).ok id = false →
        (World.of V candidate T).fresh id = false := by
      intro T hT
      simp only [World.of, World.ofObjects] at hT ⊢
      cases hi : itemOf T id with
      | none => rfl
      | some item =>
        rw [hi, Option.any_some] at hT
        simp [hT]
    rw [hnone S hb, hnone S' hok]
  | true =>
    simp only [World.of, World.ofObjects, Option.any_eq_true] at hb
    obtain ⟨item, hi, hstatus⟩ := hb
    obtain ⟨hmem, hidm⟩ := itemOf_spec hi
    obtain ⟨item', hmem', hs⟩ := hsame item hmem hstatus
    have hi' : itemOf S' id = some item' := withId_of_mem hn' hmem' (hs.id.trans hidm)
    simp [World.of, World.ofObjects, hi, hi', hstatus, hs.status, hs.acquired_at, hfrozen]

/-- No reason of the result names a cause that is unsettled. -/
def IsSettled (d : Value) : Prop :=
  ∀ r ∈ membersOf d "reasons", r.get? "code" ≠ some (.str "evidence_unsettled") ∧
    r.get? "code" ≠ some (.str "operand_unsettled")

theorem code_of_reason (code message : Str) (rule_id evidence_id : Option Str) :
    (reason code message rule_id evidence_id).normalize.get? "code" = some (.str code) := by
  have hd : Distinct ([(lit "code", Value.str code), (lit "message", .str message)] ++
      (rule_id.map fun id => (lit "rule_id", Value.str id)).toList ++
      (evidence_id.map fun id => (lit "evidence_id", Value.str id)).toList) := by
    cases rule_id <;> cases evidence_id <;> simp [Distinct]
  unfold reason
  rw [Value.normalize_dict]
  simp only [Value.get?_dict, lookup_normalized hd]
  cases rule_id <;> cases evidence_id <;> simp

theorem held_causes_ne_nil {w : World} {clauses : List Clause} (hsees : w.Sees clauses) {rule : Rule}
    {causes : List Cause} (h : w.decision clauses = .held rule causes) : causes ≠ [] := by
  induction clauses with
  | nil => cases h
  | cons c rest ih =>
    rw [World.decision] at h
    cases hs : w.state c with
    | true =>
      rw [hs] at h
      cases h
    | unsettled =>
      rw [hs] at h
      cases h
      exact stateCauses_ne_nil hs (hsees c (reaches_head c rest))
    | false =>
      rw [hs] at h
      exact ih (hsees.tail hs) h

theorem not_held_of_settled {w : World} {clauses : List Clause} (hsees : w.Sees clauses)
    {outcome default_outcome : Str} {trace : List Str} (h : IsSettled (documentOf outcome
      ((w.decision clauses).reasons default_outcome) (w.decision clauses).matched_rule
      (some trace)).normalize) (rule : Rule) (causes : List Cause) :
    w.decision clauses ≠ .held rule causes := by
  intro hheld
  obtain ⟨-, -, -, hreasons⟩ := documentOf_members outcome
    ((w.decision clauses).reasons default_outcome) (w.decision clauses).matched_rule trace
  unfold IsSettled membersOf at h
  rw [hreasons, hheld] at h
  cases causes with
  | nil => exact held_causes_ne_nil hsees hheld rfl
  | cons cause rest =>
    have hcode := h _ (by
      simp only [Decision.reasons, List.map_cons]
      exact List.mem_cons_self)
    rw [code_of_reason] at hcode
    cases cause
    · exact hcode.1 rfl
    · exact hcode.2 rfl

/-- A rule of the value that a rulebook reads back as is a rule of the value
that was pinned. -/
theorem rule_of_normalize {v : Value} (hv : v.DistinctKeys) {rule : Value}
    (h : rule ∈ membersOf v.normalize "rules") {when_ : Str}
    (hwhen : rule.get? "when" = some (.str when_)) :
    ∃ rule' ∈ membersOf v "rules", rule'.get? "when" = some (.str when_) := by
  unfold membersOf at h
  rw [Value.get?_normalize hv] at h
  cases hg : v.get? (lit "rules") with
  | none => simp [hg] at h
  | some w =>
    rw [hg] at h
    cases w with
    | list rules =>
      simp only [Option.map_some, Value.normalize_list, List.mem_map] at h
      obtain ⟨rule', hmem, rfl⟩ := h
      refine ⟨rule', by simpa [membersOf, hg] using hmem, ?_⟩
      have hd : rule'.DistinctKeys := by
        have hlist := hv.get? hg
        cases hlist with
        | list hl => exact hl rule' hmem
      rw [Value.get?_normalize hd] at hwhen
      obtain ⟨u, hu, hnorm⟩ := Option.map_eq_some_iff.mp hwhen
      rw [hu]
      cases u <;> simp at hnorm ⊢
      exact hnorm
    | _ => simp at h

/-- No rule that the walk reaches has an operand that is the very object `UNSETTLED`. -/
def Untouched (objects : Objects) (P : rulebook.LoadedRulebook) (candidate snapshot : Value) :
    Prop :=
  ∃ V clauses, P.value = .ok V ∧ List.Forall₂ Clause.Of clauses (membersOf V "rules") ∧
    ∀ c, (World.ofObjects objects V candidate snapshot).Reaches clauses c →
      ¬ (World.ofObjects objects V candidate snapshot).Touches c

section Settled

variable {P : rulebook.LoadedRulebook} {V S : Value} {members : List (Str × Value)}
  {clauses : List Clause} {objects : Objects} {r : EvaluationResult} {d : Value}

/-- A settled result of an evaluation is that of a walk that no object touched. -/
theorem untouched_of_settled (hV : ReadsBack P V) (hc : (Value.dict members).DistinctKeys)
    (hS : S.DistinctKeys) (hprep : prepare P (.dict members) S REGISTRY = .ok none)
    (hready : Ready V (.dict members) S clauses)
    (hr : evaluateWith objects P (.dict members) S REGISTRY = .ok r) (hd : r.value = .ok d)
    (hsettled : IsSettled d) {w : World} (hw : World.ofObjects objects V (.dict members) S = w) :
    (∀ c, w.Reaches clauses c → ¬ w.Touches c) ∧
      ∀ rule causes, w.decision clauses ≠ .held rule causes := by
  obtain ⟨o, ho, hdefault⟩ := rulebook_default_outcome hV.valid
  have hsees : w.Sees clauses := by
    by_contra hblind
    exact evaluate_overlooks objects hV hc hS hprep hready hw hblind r hr
  obtain ⟨r', hr', -, -, hvalue⟩ :=
    evaluateWith_returns objects hV hc hS hprep hready hdefault (by simpa using ho) hw hsees
  obtain rfl := Except.ok.inj (hr'.symm.trans hr)
  obtain rfl := Except.ok.inj (hvalue.symm.trans hd)
  have hheld := not_held_of_settled hsees hsettled
  exact ⟨fun c hreaches htouches =>
    hheld _ _ (decision_of_reaches hreaches (state_of_touches htouches)), hheld⟩

/-- A walk that no object touches gives the result of the reference walk. -/
theorem evaluate_untouched (hV : ReadsBack P V) (hc : (Value.dict members).DistinctKeys)
    (hS : S.DistinctKeys) (hprep : prepare P (.dict members) S REGISTRY = .ok none)
    (hready : Ready V (.dict members) S clauses) {default_outcome : Str}
    (hdefault : V.get? "default_outcome" = some (.str default_outcome))
    (hmem : default_outcome ∈ [lit "BLOCK", lit "HOLD"]) {w : World}
    (hw : World.ofObjects objects V (.dict members) S = w)
    (huntouched : ∀ c, w.Reaches clauses c → ¬ w.Touches c) :
    evaluateWith objects P (.dict members) S REGISTRY =
      result REGISTRY ((w.plain.decision clauses).outcome default_outcome)
        ((w.plain.decision clauses).reasons default_outcome) (w.plain.decision clauses).matched_rule
        (some (w.plain.trace 0 clauses)) := by
  have hsees : w.Sees clauses := fun c hreaches h => huntouched c hreaches h.1
  rw [evaluate_ready objects hV hc hS hprep hready hdefault hmem hw, decision_untouched huntouched,
    (decision_plain hsees default_outcome 0).2.2]

end Settled

/-- A decision that was settled stands, whatever the unsettled evidence turns out to
be, exactly where no rule that the second walk reaches has an operand that is the very
object `UNSETTLED`. -/
theorem settled_decision_stands {v : Value} (hv : v.DistinctKeys) {P : rulebook.LoadedRulebook}
    (hpin : rulebook.pin v REGISTRY = .ok P) (objects objects' : Objects)
    {members : List (Str × Value)} {S S' : Value}
    (hc : (Value.dict members).DistinctKeys) (hS : S.DistinctKeys) (hS' : S'.DistinctKeys)
    (hn : (idsOf S).Nodup) (hn' : (idsOf S').Nodup)
    (hprep : prepare P (.dict members) S REGISTRY = .ok none)
    (hprep' : prepare P (.dict members) S' REGISTRY = .ok none)
    (hfrozen : instantAt S' "frozen_at" = instantAt S "frozen_at")
    {r : EvaluationResult} (hr : evaluateWith objects P (.dict members) S REGISTRY = .ok r)
    {d : Value} (hd : r.value = .ok d) (hsettled : IsSettled d)
    (hsame : ∀ item ∈ membersOf S "items", hasStatusOk item = true →
      ∃ item' ∈ membersOf S' "items", SameItem item item')
    (hids : ∀ rule ∈ membersOf v "rules", ∀ when_ e, rule.get? "when" = some (.str when_) →
      ParsesTo when_ e → ∀ id ∈ predicateIds e, (OkIn S' id ↔ OkIn S id)) :
    evaluateWith objects' P (.dict members) S' REGISTRY = .ok r ↔
      Untouched objects' P (.dict members) S' := by
  have hV := readsBack_of_pin hv hpin
  obtain ⟨o, ho, hdefault⟩ := rulebook_default_outcome hV.valid
  have hmem : lit o ∈ [lit "BLOCK", lit "HOLD"] := by simpa using ho
  have hextends := extends_of_same v.normalize (.dict members) hS hn' hsame
  constructor
  · intro hr'
    obtain ⟨clauses, hready'⟩ := ready_of_prepare hV hprep'
    exact ⟨_, clauses, hV.value, hready'.rules,
      (untouched_of_settled hV hc hS' hprep' hready' hr' hd hsettled rfl).1⟩
  · rintro ⟨V, clauses, hvalue, hclauses, huntouched'⟩
    obtain rfl : v.normalize = V := Except.ok.inj (hV.value.symm.trans hvalue)
    obtain ⟨_, hany⟩ := ready_of_prepare hV hprep
    obtain ⟨_, hany'⟩ := ready_of_prepare hV hprep'
    have hready : Ready v.normalize (.dict members) S clauses :=
      ⟨hany.candidate, hany.snapshot, hclauses⟩
    have hready' : Ready v.normalize (.dict members) S' clauses :=
      ⟨hany'.candidate, hany'.snapshot, hclauses⟩
    obtain ⟨huntouched, hheld⟩ := untouched_of_settled hV hc hS hprep hready hr hd hsettled rfl
    rw [decision_untouched huntouched, plain_ofObjects] at hheld
    have hagree : ∀ c ∈ clauses, AgreeOn (World.of v.normalize (.dict members) S)
        (World.of v.normalize (.dict members) S') (predicateIds c.tree) := by
      intro c hcmem id hid
      obtain ⟨rule, hrule, hcof⟩ := forall₂_mem hclauses hcmem
      obtain ⟨rule', hrule', hwhen⟩ := rule_of_normalize hv hrule hcof.rule.when_
      exact fresh_agrees hn hn' hfrozen hsame (hids rule' hrule' _ _ hwhen hcof.tree id hid)
    obtain ⟨hdecision, htrace⟩ := decision_stable hextends hagree hheld 0
    rw [← hr, evaluate_untouched hV hc hS' hprep' hready' hdefault hmem rfl huntouched',
      evaluate_untouched hV hc hS hprep hready hdefault hmem rfl huntouched, plain_ofObjects,
      plain_ofObjects, hdecision, htrace]

/-- The clause of the rulebook that asks for one piece of evidence. -/
def reportClause : Clause :=
  ⟨⟨"first", presentReport, "ALLOW", "always", []⟩, .present "report"⟩

theorem reportClause_of (adopted_at : Str) : List.Forall₂ Clause.Of [reportClause]
    (membersOf (rulebook.rulebookSince adopted_at presentReport) "rules") :=
  firstClause_of parses_presentReport adopted_at

/-- Where the evidence is ok, the rulebook that asks for it allows, and that is settled. -/
theorem presentReport_allows {adopted_at : Str} (ha : Encodable adopted_at)
    {P : rulebook.LoadedRulebook}
    (hpin : rulebook.pin (rulebook.rulebookSince adopted_at presentReport) REGISTRY = .ok P)
    {snapshot : Value} (hs : snapshot.DistinctKeys) (hvalid : IsSnapshot snapshot)
    (hprep : prepare P (.dict smallCandidate) snapshot REGISTRY = .ok none)
    (hok : (itemOf snapshot "report").any hasStatusOk = true) :
    ∃ r d, evaluate P (.dict smallCandidate) snapshot REGISTRY = .ok r ∧ r.outcome = lit "ALLOW" ∧
      r.value = .ok d ∧ IsSettled d := by
  have hV := readsBack_of_pin
    (rulebook.canonical_rulebookSince ha encodable_presentReport).distinctKeys hpin
  rw [rulebook.normalize_rulebookSince] at hV
  have hready : Ready (rulebook.rulebookSince adopted_at presentReport) (.dict smallCandidate)
      snapshot [reportClause] := ⟨validate_smallCandidate, hvalid, reportClause_of adopted_at⟩
  have hdecision : (World.of (rulebook.rulebookSince adopted_at presentReport)
      (.dict smallCandidate) snapshot).decision [reportClause] = .matched reportClause.rule := by
    simp [World.decision, World.state, reportClause, World.denote, World.of, World.ofObjects, hok, settled]
  have hdefault : (rulebook.rulebookSince adopted_at presentReport).get? "default_outcome" =
      some (.str (lit "BLOCK")) := by simp [rulebook.rulebookSince]
  obtain ⟨r, hr, houtcome, -, hvalue⟩ := evaluate_returns hV (by simp [smallCandidate, Distinct]) hs
    hprep hready hdefault (by simp) rfl
  rw [hdecision] at houtcome hvalue
  refine ⟨r, _, hr, houtcome, hvalue, ?_⟩
  obtain ⟨-, -, -, hreasons⟩ := documentOf_members r.outcome
    (Decision.reasons "BLOCK" (.matched reportClause.rule))
    (Decision.matched_rule (.matched reportClause.rule))
    ((World.of (rulebook.rulebookSince adopted_at presentReport) (.dict smallCandidate)
      snapshot).trace 0 [reportClause])
  unfold IsSettled membersOf
  rw [hreasons]
  simp [Decision.reasons, code_of_reason, codeIn, RULE_CODES, reportClause]

/-- The value of the snapshot of one value. -/
def snapshotOn (day rulebook_digest digest : Str) : Value := .dict
  [("frozen_at", .str day), ("items", .list [.dict
      [("acquired_at", .str day), ("id", .str "report"), ("order", .int 0), ("status", .str "ok"),
       ("value", .null)]]),
   ("rulebook_digest", .str rulebook_digest), ("snapshot_digest", .str digest),
   ("snapshot_id", .str "run")]

/-- On any day since it was adopted, the rulebook that asks for one piece of
evidence is pinned, the evidence is frozen, and the evaluation allows. -/
theorem evaluate_report_allows {adopted_at day : Str} (ha : Encodable adopted_at)
    (hadopted : is_date_time adopted_at = true) (hday : Encodable day)
    (hdate : is_date_time day = true) {since t : Int}
    (hsince : rulebook.instant (.str adopted_at) = .ok since)
    (ht : rulebook.instant (.str day) = .ok t) (hle : since ≤ t) :
    ∃ P S r, rulebook.pin (rulebook.rulebookSince adopted_at presentReport) REGISTRY = .ok P ∧
      snapshot.build_snapshot P "run" day [snapshot.acquiredOn day .null] REGISTRY = .ok S ∧
      S.frozen_at = day ∧ (Encodable P.digest ∧ IsDigest (.str P.digest)) ∧
      (Encodable S.digest ∧ IsDigest (.str S.digest)) ∧
      S.value = .ok (snapshotOn day P.digest S.digest) ∧
      evaluate P (.dict smallCandidate) (snapshotOn day P.digest S.digest) REGISTRY = .ok r ∧
      r.outcome = lit "ALLOW" := by
  obtain ⟨P, hP, hPa⟩ := rulebook.pin_rulebookSince hadopted ha encodable_presentReport
  obtain ⟨S, hS, hseal⟩ := snapshot.build_acquiredOn ha encodable_presentReport hP hsince ht hle
    hdate hday (v := .null) .null
  have hdistinct : ∀ item ∈ [snapshot.itemOn day .null], item.DistinctKeys := by
    simpa using (snapshot.canonical_itemOn hday .null).distinctKeys
  have hvalue := snapshot.value_of_seal hseal hdistinct (by
    simp [snapshot.itemOn, Value.depth, Value.depthMembers])
  have hnormalize : (snapshot.completed "run" P.digest day [snapshot.itemOn day .null]
      S.digest).normalize = snapshotOn day P.digest S.digest := rfl
  have hcompleted : (snapshot.completed "run" P.digest day [snapshot.itemOn day .null]
      S.digest).DistinctKeys := snapshot.distinctKeys_completed hdistinct
  obtain ⟨-, -, -, hPd, -⟩ := rulebook.pin_eq_ok.mp hP
  obtain ⟨hSd, hvalid, -, hfrozen, -⟩ := snapshot.seal_payload_eq_ok.mp hseal
  rw [← validate_normalize hcompleted, hnormalize, validate_snapshot_iff] at hvalid
  have hkeys : (snapshotOn day P.digest S.digest).DistinctKeys := by
    simp [snapshotOn, Distinct]
  rw [hnormalize] at hvalue
  have hprep := prepare_report ha hP hvalid (by
    simp [membersOf, snapshotOn, instantAt]) (by
    intro frozen hf
    simp [snapshotOn] at hf
    simp [rulebook.rulebook_applies, ← hf, hPa, hsince, ht, hle])
  obtain ⟨r, d, hr, hallow, -, -⟩ := presentReport_allows ha hP hkeys hvalid hprep (by
    simp [itemOf, membersOf, snapshotOn, withId, hasStatusOk])
  exact ⟨P, S, r, hP, hS, hfrozen, ⟨encodable_digest hPd, isDigest_digest hPd⟩,
    ⟨encodable_digest hSd, isDigest_digest hSd⟩, hvalue, hr, hallow⟩

/-- A decision stands when evidence that nobody asked for turns out to be ok. -/
theorem present_stands : ∃ P r, rulebook.pin (rulebook.rulebookWith presentReport) REGISTRY = .ok P ∧
    evaluate P (.dict smallCandidate)
      (snapshotWith [itemWith "report" "ok", itemWith "extra" "ok"]) REGISTRY = .ok r := by
  obtain ⟨P, hP, -⟩ := rulebook.pin_rulebookWith encodable_presentReport
  have hprep := @prepare_presentReport P hP [("report", "ok"), ("extra", "missing")] (by simp)
  have hprep' := @prepare_presentReport P hP [("report", "ok"), ("extra", "ok")] (by simp)
  have hitems : ∀ (a b : String), membersOf (snapshotWith [itemWith "report" a, itemWith "extra" b])
      "items" = [itemWith "report" a, itemWith "extra" b] := by
    intro a b
    simp [membersOf, snapshotWith]
  have hdistinct : ∀ (a b : String),
      (snapshotWith [itemWith "report" a, itemWith "extra" b]).DistinctKeys := fun a b =>
    distinctKeys_snapshotWith (by simp [itemWith, Distinct])
  have hids : ∀ (a b : String),
      (idsOf (snapshotWith [itemWith "report" a, itemWith "extra" b])).Nodup := by
    intro a b
    rw [idsOf, hitems]
    simp [itemWith]
  obtain ⟨r, d, hr, -, hd, hsettled⟩ := presentReport_allows (encodable_lit _) hP (hdistinct "ok" "missing")
    (isSnapshot_snapshotWith (by
      simp only [List.mem_cons, List.not_mem_nil, or_false, forall_eq_or_imp, forall_eq]
      exact ⟨isItem_itemWith _ (by simp), isItem_itemWith _ (by simp)⟩)) hprep (by
      rw [itemOf, hitems]
      simp [withId, itemWith, hasStatusOk])
  refine ⟨P, r, hP, (settled_decision_stands
    (rulebook.canonical_rulebookWith encodable_presentReport).distinctKeys hP .loaded .loaded
    (by simp [smallCandidate, Distinct]) (hdistinct "ok" "missing") (hdistinct "ok" "ok")
    (hids "ok" "missing") (hids "ok" "ok") hprep hprep' (by simp [instantAt, snapshotWith]) hr hd
    hsettled ?_ ?_).mpr ?_⟩
  · rw [hitems, hitems]
    simp only [List.mem_cons, List.not_mem_nil, or_false, forall_eq_or_imp, forall_eq]
    refine ⟨fun _ => ⟨_, Or.inl rfl, rfl, by simp [itemWith, hasStatusOk], rfl, ?_⟩, ?_⟩
    · simp [itemWith]
    · simp [itemWith, hasStatusOk]
  · intro rule hrule when_ e hwhen hparses id hid
    obtain ⟨parsed, hparse, hparsed⟩ := hparses
    have hwhen : when_ = presentReport := by
      simp [membersOf, rulebook.rulebookWith] at hrule
      subst hrule
      simpa using hwhen.symm
    subst hwhen
    obtain ⟨parsed', hparse', hparsed'⟩ := parses_presentReport
    rw [hparse'] at hparse
    cases hparse
    have hmem : id ∈ parsed.evidence_ids := by
      rw [hparsed.evidence_ids]
      exact mem_foldl_appendNew.mpr (Or.inr (evidenceIds_of_predicateIds e id hid))
    have hreport : id = lit "report" := by
      rw [hparsed'.evidence_ids] at hmem
      exact List.mem_singleton.mp ((mem_foldl_appendNew.mp hmem).resolve_left (by simp))
    subst hreport
    have hok : ∀ b : String, OkIn (snapshotWith [itemWith "report" "ok", itemWith "extra" b])
        (lit "report") := by
      intro b
      unfold OkIn
      rw [hitems]
      exact ⟨_, List.mem_cons_self, by simp [itemWith], by simp [itemWith, hasStatusOk]⟩
    exact ⟨fun _ => hok _, fun _ => hok _⟩
  · have hV := readsBack_of_pin
      (rulebook.canonical_rulebookWith encodable_presentReport).distinctKeys hP
    obtain ⟨clauses, hready⟩ := ready_of_prepare hV hprep'
    exact ⟨_, clauses, hV.value, hready.rules, fun c _ => not_touches_of _ _ _ c⟩

/-- With a string of the loader in place of the object, the evaluation allows, and that
is settled. -/
theorem allows_saying {P : rulebook.LoadedRulebook}
    (hP : rulebook.pin (rulebook.rulebookWith reportUnsettled) REGISTRY = .ok P) :
    ∃ r d, evaluateWith .loaded P (.dict smallCandidate) snapshotSaying REGISTRY = .ok r ∧
      r.value = .ok d ∧ IsSettled d ∧ r.outcome = lit "ALLOW" := by
  have hdefault : (rulebook.rulebookWith reportUnsettled).get? "default_outcome" =
      some (.str (lit "BLOCK")) := by simp [rulebook.rulebookWith]
  obtain ⟨r, hr, houtcome, -, hvalue⟩ := evaluate_returns (readsBack_saying hP)
    canonical_smallCandidate.distinctKeys distinctKeys_snapshotSaying (prepare_saying hP)
    ready_saying hdefault (by simp) rfl
  rw [World.decision, state_saying] at houtcome hvalue
  refine ⟨r, _, hr, hvalue, ?_, houtcome⟩
  obtain ⟨-, -, -, hreasons⟩ := documentOf_members r.outcome
    (Decision.reasons "BLOCK" (.matched (firstClause reportUnsettled reportUnsettledTree).rule))
    (Decision.matched_rule (.matched (firstClause reportUnsettled reportUnsettledTree).rule))
    (some ((World.of (rulebook.rulebookWith reportUnsettled) (.dict smallCandidate)
      snapshotSaying).trace 0 [firstClause reportUnsettled reportUnsettledTree]))
  unfold IsSettled membersOf
  rw [hreasons]
  simp [Decision.reasons, code_of_reason, codeIn, RULE_CODES, firstClause]

theorem idsOf_saying : (idsOf snapshotSaying).Nodup := by
  simp [idsOf, membersOf, snapshotSaying, snapshotWith]

/-- One snapshot, once with a string of the loader and once with the object of the
evaluator: the settled decision does not stand. -/
theorem settled_decision_is_lost : ∃ P r d,
    rulebook.pin (rulebook.rulebookWith reportUnsettled) REGISTRY = .ok P ∧
      (idsOf snapshotSaying).Nodup ∧
      prepare P (.dict smallCandidate) snapshotSaying REGISTRY = .ok none ∧
      evaluateWith .loaded P (.dict smallCandidate) snapshotSaying REGISTRY = .ok r ∧
      r.value = .ok d ∧ IsSettled d ∧
      ∀ r', evaluateWith objectsSaying P (.dict smallCandidate) snapshotSaying REGISTRY ≠ .ok r' := by
  obtain ⟨P, hP, -⟩ := rulebook.pin_rulebookWith encodable_reportUnsettled
  obtain ⟨r, d, hr, hd, hsettled, -⟩ := allows_saying hP
  exact ⟨P, r, d, hP, idsOf_saying, prepare_saying hP, hr, hd, hsettled, raises_saying hP⟩

end vfy.gate
