-- The world that a rulebook, a candidate and a snapshot describe, and the
-- typed rules of a rulebook. A context holds exactly what the world says.
import VerifyRun.Semantics
import VerifyRun.RulebookLaws
import VerifyRun.ParserLaws

namespace vfy.gate

open python keys outcomes expr schema

/-! ## The world of the recorded inputs -/

/-- The members of a list in a mapping. -/
def membersOf (value : Value) (key : Str) : List Value :=
  match value.get? key with
  | some (.list items) => items
  | _ => []

/-- The last member of a list with this id. -/
def withId (items : List Value) (id : Str) : Option Value :=
  items.reverse.find? fun item => isStr ((item.get? "id").getD .null) id

/-- The item of a snapshot with this id. -/
def itemOf (snapshot : Value) (id : Str) : Option Value := withId (membersOf snapshot "items") id

/-- The declaration of a rulebook with this id. -/
def declarationOf (rulebook : Value) (id : Str) : Option Value :=
  withId (membersOf rulebook "evidence") id

def hasStatusOk (item : Value) : Bool := isStr ((item.get? "status").getD .null) "ok"

/-- The instant at a member, and zero where there is none. -/
def instantAt (value : Value) (key : Str) : Int :=
  match rulebook.instant ((value.get? key).getD .null) with
  | .ok t => t
  | .error _ => 0

/-- The age in seconds that a declaration bounds, if it does. -/
def maxAge (rulebook : Value) (id : Str) : Option Int :=
  match (declarationOf rulebook id).bind (·.get? "max_age_seconds") with
  | some (.int i) => some i
  | _ => none

/-- What the recorded inputs say, with the strings in them that are `UNSETTLED`. -/
def World.ofObjects (objects : Objects) (rulebook candidate snapshot : Value) : World where
  candidate := candidate.normalize
  ok id := (itemOf snapshot id).any hasStatusOk
  fresh id := (itemOf snapshot id).any fun item => hasStatusOk item &&
    (maxAge rulebook id).all fun bound =>
      instantAt snapshot "frozen_at" - instantAt item "acquired_at" ≤ bound * 1000000000
  value id := ((itemOf snapshot id).filter hasStatusOk).bind fun item =>
    (item.get? "value").map Value.normalize
  same := objects.at

/-- What the recorded inputs say. -/
def World.of (rulebook candidate snapshot : Value) : World :=
  World.ofObjects .loaded rulebook candidate snapshot

/-! ## Members by id -/

theorem isStr_iff {v : Value} {s : Str} : isStr v s = true ↔ v = .str s := by
  cases v <;> simp [isStr, python.eq, eqBy, eqScalar]

/-- An item by its id. -/
def pairOf (item : Value) : Str × Value :=
  (match item.get? "id" with
    | some (.str id) => id
    | _ => [], item)

/-- A mapping by id gives the last member with an id. -/
theorem lookup_byId {items : List Value}
    (hid : ∀ item ∈ items, ∃ id, item.get? "id" = some (.str id)) :
    ∃ mapping, byId (.list items) = .ok mapping ∧ ∀ id, mapping.lookup id = withId items id := by
  have hpairs : items.mapM (fun item => do
      let id ← string (← getItem item "id")
      pure (id, item)) = .ok (items.map pairOf) := by
    rw [mapM_eq_ok, List.forall₂_map_right_iff, List.forall₂_same]
    intro item hitem
    obtain ⟨id, hid⟩ := hid item hitem
    rw [getItem_eq_ok.mpr hid]
    simp [pairOf, hid, string, pure, Except.pure]
  refine ⟨dictOf (items.map pairOf), ?_, fun id => ?_⟩
  · unfold byId
    rw [show iterate (.list items) = .ok items from rfl, ok_bind, hpairs]
    rfl
  · rw [lookup_dictOf, ← List.map_reverse]
    unfold withId
    have hrev : ∀ item ∈ items.reverse, ∃ id, item.get? "id" = some (.str id) := fun item h =>
      hid item (List.mem_reverse.mp h)
    generalize items.reverse = l at hrev
    induction l with
    | nil => rfl
    | cons item rest ih =>
      obtain ⟨i, hi⟩ := hrev item (by simp)
      have hpair : pairOf item = (i, item) := by simp [pairOf, hi]
      rw [List.map_cons, hpair, List.lookup_cons, List.find?_cons, hi, Option.getD_some, isStr_str,
        ih fun item h => hrev item (by simp [h])]
      by_cases h : id = i
      · simp [h]
      · have hne : (id == i) = false := by simpa using h
        simp [hne, Ne.symm h]

theorem mem_of_withId {items : List Value} {id : Str} {item : Value}
    (h : withId items id = some item) : item ∈ items :=
  List.mem_reverse.mp (List.mem_of_find?_eq_some h)

/-! ## Valid inputs -/

theorem snapshot_items {snapshot : Value} (h : IsSnapshot snapshot) :
    ∃ items, snapshot.get? "items" = some (.list items) ∧ ∀ item ∈ items, IsItem item := by
  obtain ⟨_, hw, items, rfl, hitems⟩ := ClosedObject.require h
    (f := ("items", .dict [("type", .str "array"), ("items", ITEM)], IsList IsItem))
    (by simp) (by simp [snapshotFields]) (by decide)
  exact ⟨items, hw, hitems⟩

theorem snapshot_frozen_at {snapshot : Value} (h : IsSnapshot snapshot) :
    ∃ s, snapshot.get? "frozen_at" = some (.str s) ∧ is_date_time s = true := by
  obtain ⟨_, hw, s, rfl, hs⟩ := ClosedObject.require h (f := ("frozen_at", DATE, IsDate))
    (by simp) (by simp [snapshotFields]) (by decide)
  exact ⟨s, hw, hs⟩

theorem item_id {item : Value} (h : IsItem item) : ∃ id, item.get? "id" = some (.str id) := by
  obtain ⟨_, hw, s, rfl⟩ := ClosedObject.require h (f := ("id", TEXT, IsText))
    (by simp) (by simp [itemFields]) (by decide)
  exact ⟨s, hw⟩

theorem item_status {item : Value} (h : IsItem item) :
    ∃ s, item.get? "status" = some (.str s) := by
  obtain ⟨_, hw, o, _, rfl⟩ := ClosedObject.require h
    (f := ("status", oneOf ["ok", "missing", "stale", "error"],
      IsOneOf ["ok", "missing", "stale", "error"])) (by simp) (by simp [itemFields]) (by decide)
  exact ⟨_, hw⟩

theorem item_acquired_at {item : Value} (h : IsItem item) :
    ∃ s, item.get? "acquired_at" = some (.str s) ∧ is_date_time s = true := by
  obtain ⟨_, hw, s, rfl, hs⟩ := ClosedObject.require h (f := ("acquired_at", DATE, IsDate))
    (by simp) (by simp [itemFields]) (by decide)
  exact ⟨s, hw, hs⟩

theorem rulebook_evidence {v : Value} (h : IsRulebook v) :
    ∃ items, v.get? "evidence" = some (.list items) ∧ ∀ item ∈ items, IsDeclaration item := by
  obtain ⟨_, hw, items, rfl, _, hitems⟩ := ClosedObject.require h
    (f := ("evidence", .dict
      [("type", .str "array"), ("minItems", .int 0), ("items", EVIDENCE_DECLARATION)],
      IsLongList 0 IsDeclaration)) (by simp) (by simp [rulebookFields]) (by decide)
  exact ⟨items, hw, hitems⟩

theorem rulebook_rules {v : Value} (h : IsRulebook v) :
    ∃ items, v.get? "rules" = some (.list items) ∧ ∀ item ∈ items, IsRule item := by
  obtain ⟨_, hw, items, rfl, _, hitems⟩ := ClosedObject.require h
    (f := ("rules", .dict [("type", .str "array"), ("minItems", .int 1), ("items", RULE)],
      IsLongList 1 IsRule)) (by simp) (by simp [rulebookFields]) (by decide)
  exact ⟨items, hw, hitems⟩

theorem rulebook_default_outcome {v : Value} (h : IsRulebook v) :
    ∃ o ∈ ["BLOCK", "HOLD"], v.get? "default_outcome" = some (.str (lit o)) := by
  obtain ⟨_, hw, o, ho, rfl⟩ := ClosedObject.require h
    (f := ("default_outcome", oneOf ["BLOCK", "HOLD"], IsOneOf ["BLOCK", "HOLD"]))
    (by simp) (by simp [rulebookFields]) (by decide)
  exact ⟨o, ho, hw⟩

theorem declaration_id {v : Value} (h : IsDeclaration v) :
    ∃ id, v.get? "id" = some (.str id) := by
  obtain ⟨_, hw, s, rfl⟩ := ClosedObject.require h (f := ("id", TEXT, IsText))
    (by simp) (by simp [declarationFields]) (by decide)
  exact ⟨s, hw⟩

theorem declaration_max_age {v w : Value} (h : IsDeclaration v)
    (hw : v.get? "max_age_seconds" = some w) : ∃ i, w = .int i := by
  obtain ⟨i, rfl, _⟩ := ClosedObject.accepted h
    (f := ("max_age_seconds", naturals 0, IsNatural 0)) (by simp [declarationFields]) (by decide) hw
  exact ⟨i, rfl⟩

/-! ## The context of valid inputs -/

theorem instantAt_eq {value : Value} {key s : Str} (hs : value.get? key = some (.str s))
    (hd : is_date_time s = true) :
    rulebook.instant (.str s) = .ok (instantAt value key) := by
  obtain ⟨t, ht⟩ := rulebook.instant_of_date_time hd
  unfold instantAt
  rw [hs, Option.getD_some, ht]

/-- The context of a rulebook, a candidate and a snapshot is a context of their world. -/
theorem context_models (objects : Objects) {V candidate snapshot : Value} (hV : IsRulebook V)
    (hc : candidate.DistinctKeys) (hs : IsSnapshot snapshot) (hd : snapshot.DistinctKeys) :
    ∃ context, contextWith objects V candidate snapshot = .ok context ∧ context.rulebook = V ∧
      Models context (World.ofObjects objects V candidate snapshot) := by
  obtain ⟨declarations, hdecl, hdeclarations⟩ := rulebook_evidence hV
  obtain ⟨items, hitems, hall⟩ := snapshot_items hs
  obtain ⟨frozen, hfrozen, hdate⟩ := snapshot_frozen_at hs
  obtain ⟨declared, hdeclared, hlookd⟩ := lookup_byId fun item h =>
    declaration_id (hdeclarations item h)
  obtain ⟨held, hheld, hlook⟩ := lookup_byId fun item h =>
    item_id (hall item h)
  have hitem : ∀ id, held.lookup id = itemOf snapshot id := by
    intro id
    rw [hlook, itemOf, membersOf, hitems]
  have hdeclaration : ∀ id, declared.lookup id = declarationOf V id := by
    intro id
    rw [hlookd, declarationOf, membersOf, hdecl]
  have hvalid : ∀ id item, itemOf snapshot id = some item → IsItem item ∧ item.DistinctKeys := by
    intro id item h
    rw [itemOf, membersOf, hitems] at h
    have hmem := mem_of_withId h
    refine ⟨hall item hmem, ?_⟩
    have hlist := hd.get? hitems
    cases hlist with
    | list hl => exact hl item hmem
  have hstatus : ∀ id, status_ok (itemOf snapshot id) =
      .ok ((itemOf snapshot id).any hasStatusOk) := by
    intro id
    cases hi : itemOf snapshot id with
    | none => rfl
    | some item =>
      obtain ⟨s, hst⟩ := item_status (hvalid id item hi).1
      simp [status_ok, getItem_eq_ok.mpr hst, hasStatusOk, hst, pure, Except.pure]
  refine ⟨⟨V, candidate, declared, held, instantAt snapshot "frozen_at", objects⟩, ?_, rfl,
    fun _ => rfl, hc, rfl, ?_, ?_, ?_, ?_, ?_⟩
  · unfold contextWith
    rw [getItem_eq_ok.mpr hdecl, ok_bind, hdeclared, ok_bind, getItem_eq_ok.mpr hitems, ok_bind,
      hheld, ok_bind, getItem_eq_ok.mpr hfrozen, ok_bind, instantAt_eq hfrozen hdate]
    rfl
  · intro id
    unfold item_ok
    rw [hitem]
    exact hstatus id
  · intro id
    unfold is_fresh item_ok
    simp only [hitem, hdeclaration, hstatus, ok_bind]
    cases hi : itemOf snapshot id with
    | none => simp [World.ofObjects, hi, pure, Except.pure]
    | some item =>
      obtain ⟨hitemv, _⟩ := hvalid id item hi
      obtain ⟨acquired, hacq, hadate⟩ := item_acquired_at hitemv
      cases hok : hasStatusOk item with
      | false => simp [World.ofObjects, hi, hok, pure, Except.pure]
      | true =>
        have hage : rulebook.instant (.str acquired) = .ok (instantAt item "acquired_at") :=
          instantAt_eq hacq hadate
        cases hb : (declarationOf V id).bind (·.get? "max_age_seconds") with
        | none =>
          have hget : ((declarationOf V id).getD (.dict [])).get? "max_age_seconds" = none := by
            cases hdc : declarationOf V id with
            | none => rfl
            | some declaration => simpa [hdc] using hb
          simp [World.ofObjects, hi, hok, maxAge, hb, hget, pure, Except.pure]
        | some bound =>
          obtain ⟨declaration, hdc, hbound⟩ := Option.bind_eq_some_iff.mp hb
          have hmem : declaration ∈ declarations := by
            rw [declarationOf, membersOf, hdecl] at hdc
            exact mem_of_withId hdc
          obtain ⟨i, rfl⟩ := declaration_max_age (hdeclarations declaration hmem) hbound
          have hget : ((declarationOf V id).getD (.dict [])).get? "max_age_seconds" =
              some (.int i) := by rw [hdc]; exact hbound
          simp [World.ofObjects, hi, hok, maxAge, hb, hget, itemAt, hitem, getItem_eq_ok.mpr hacq, hage,
            number, pure, Except.pure]
  · intro id hok
    simp only [World.ofObjects] at hok ⊢
    rw [hitem]
    cases hi : itemOf snapshot id with
    | none => simp [hi] at hok
    | some item =>
      rw [hi, Option.any_some] at hok
      simp [hok, Option.filter]
  · intro id v hv
    rw [hitem] at hv
    cases hi : itemOf snapshot id with
    | none => simp [hi, Value.get?] at hv
    | some item =>
      rw [hi, Option.getD_some] at hv
      exact (hvalid id item hi).2.get? hv
  · intro id hok
    simp only [World.ofObjects] at hok ⊢
    cases hi : itemOf snapshot id with
    | none => rfl
    | some item =>
      rw [hi, Option.any_some] at hok
      simp [hok, Option.filter]

end vfy.gate
