-- What a frozen snapshot says of time: each acquired item carries the instant
-- of its own observation, none of them is later than the freeze, and the age
-- that `fresh()` compares is the time between the two.
import VerifyRun.SnapshotLaws
import VerifyRun.Worlds

namespace vfy.snapshot

open python keys outcomes schema rulebook

/-- An acquisition or an item of this evidence, observed at this instant. -/
def Own (reading : Str × Str) (item : Value) : Prop :=
  item.get? "id" = some (.str reading.1) ∧ item.get? "acquired_at" = some (.str reading.2)

/-- A frozen snapshot, and the readings of the clock that it was made from. -/
structure Dates (S : FrozenSnapshot) (own : List (Str × Str)) (frozen_at : Str) (frozen : Int)
    (V : Value) (items added : List Value) : Prop where
  freeze : instant (.str frozen_at) = .ok frozen
  named : S.frozen_at = frozen_at
  reads_back : S.value = .ok V
  recorded : V.get? "frozen_at" = some (.str frozen_at)
  holds : V.get? "items" = some (.list (items ++ added))
  acquired : List.Forall₂ Own own items
  missing : ∀ item ∈ added, item.get? "status" = some (.str "missing")
  distinct : ∃ ids : List Str, ids.Nodup ∧
    List.Forall₂ (fun id item => item.get? "id" = some (.str id)) ids (items ++ added)
  ordered : ∀ reading ∈ own, ∃ acquired, instant (.str reading.2) = .ok acquired ∧
    acquired ≤ frozen

/-! ## What the checks leave -/

/-- An item of this id, acquired no later than this. -/
structure Timely (t : Int) (id : Str) (item : Value) : Prop where
  id : item.get? "id" = some (.str id)
  acquired : ∃ s acquired, item.get? "acquired_at" = some s ∧ instant s = .ok acquired ∧
    acquired ≤ t

theorem check_item_timely {declarations : List (Str × Value)} {t : Int} {seen seen' : List Str}
    {item : Value} {position : Nat}
    (h : check_item declarations t seen (item, position) = .ok seen') :
    ∃ id, seen' = seen ++ [id] ∧ id ∉ seen ∧ Timely t id item := by
  unfold check_item at h
  simp only [bind_eq_ok, exists_unit, raiseIf_eq_ok, pure_eq_ok, getItem_eq_ok] at h
  obtain ⟨v, hv, id, hid, -, hseen, _, -, -, -, s, hs, acquired, hacquired, hle, rfl⟩ := h
  obtain rfl := string_eq_ok.mp hid
  refine ⟨id, rfl, hseen, hv, s, acquired, hs, ?_, not_lt.mp hle⟩
  unfold instant_or_raise at hacquired
  split at hacquired
  · rename_i t' ht'
    rw [ht', Except.ok.inj hacquired]
  · cases hacquired
  · cases hacquired

/-- The ids of checked items are distinct, and every item is timely. -/
theorem checked_timely {declarations : List (Str × Value)} {t : Int} {items : List Value}
    {seen : List Str} (h : Checked declarations t items seen) :
    seen.Nodup ∧ List.Forall₂ (Timely t) seen items := by
  unfold Checked at h
  induction items using List.reverseRecOn generalizing seen with
  | nil =>
    cases h
    exact ⟨List.nodup_nil, .nil⟩
  | append_singleton items item ih =>
    rw [List.zipIdx_append, List.foldlM_append] at h
    obtain ⟨seen', hrun, h⟩ := bind_eq_ok.mp h
    obtain ⟨hnodup, htimely⟩ := ih hrun
    have hone : check_item declarations t seen' (item, items.length) = .ok seen := by simpa using h
    obtain ⟨id, rfl, hid, hitem⟩ := check_item_timely hone
    refine ⟨?_, List.rel_append htimely (.cons hitem .nil)⟩
    rw [List.nodup_append]
    exact ⟨hnodup, List.nodup_singleton id, fun a ha b hb => by
      rintro rfl
      exact hid (List.mem_singleton.mp hb ▸ ha)⟩

/-! ## What is read back -/

/-- A sealed snapshot that reads back at all reads back as the value that was sealed. -/
theorem value_eq_of_seal {snapshot_id rulebook_digest frozen_at : Str} {items : List Value}
    {registry : Registry} {S : FrozenSnapshot} {V : Value}
    (h : seal_payload snapshot_id rulebook_digest frozen_at items registry = .ok S)
    (hd : ∀ item ∈ items, item.DistinctKeys) (hV : S.value = .ok V) :
    V = (completed snapshot_id rulebook_digest frozen_at items S.digest).normalize := by
  obtain ⟨-, -, hcanonical, -, -⟩ := seal_payload_eq_ok.mp h
  have hcan := canon.canonical_of_encode (distinctKeys_completed hd)
    (canon.canonicalize_eq_encode _ ▸ hcanonical)
  have hbytes : canon.canonical_bytes
      (completed snapshot_id rulebook_digest frozen_at items S.digest) = .ok S.canonical_bytes := by
    rw [canon.canonical_bytes, hcanonical]
    rfl
  rw [FrozenSnapshot.value, load.load_canonical_bytes hcan hbytes] at hV
  split at hV
  · exact (Except.ok.inj hV).symm
  · cases hV

theorem Own.normalize {reading : Str × Str} {item : Value} (h : Own reading item)
    (hd : item.DistinctKeys) : Own reading item.normalize := by
  refine ⟨?_, ?_⟩
  · rw [Value.get?_normalize hd, h.1]
    simp
  · rw [Value.get?_normalize hd, h.2]
    simp

theorem Own.says {reading : Str × Str} {acquisition item : Value} (h : Own reading acquisition)
    (hs : SaysWhen acquisition item) : Own reading item := by
  refine ⟨?_, ?_⟩
  · rw [← getItem_eq_ok, hs.1, getItem_eq_ok]
    exact h.1
  · rw [← getItem_eq_ok, hs.2, getItem_eq_ok]
    exact h.2

theorem forall₂_imp_of_mem {α β : Type} {R S : α → β → Prop} {as : List α} {bs : List β}
    (h : List.Forall₂ R as bs) (hs : ∀ a, ∀ b ∈ bs, R a b → S a b) : List.Forall₂ S as bs := by
  induction h with
  | nil => exact .nil
  | cons hab _ ih =>
    exact .cons (hs _ _ (by simp) hab) (ih fun a b hb => hs a b (List.mem_cons_of_mem _ hb))

theorem forall₂_trans {α β γ : Type} {R : α → β → Prop} {S : β → γ → Prop} {T : α → γ → Prop}
    {as : List α} {bs : List β} {cs : List γ} (h : List.Forall₂ R as bs)
    (h' : List.Forall₂ S bs cs) (ht : ∀ a b c, R a b → S b c → T a c) : List.Forall₂ T as cs := by
  induction h generalizing cs with
  | nil =>
    cases h'
    exact .nil
  | cons hab _ ih =>
    cases h' with
    | cons hbc hrest => exact .cons (ht _ _ _ hab hbc) (ih hrest)

/-- What a built snapshot says of the readings that its acquisitions were made with. -/
theorem dates_of_build {pinned : LoadedRulebook} {snapshot_id frozen_at : Str}
    {acquisitions : List Value} {registry : Registry} {S : FrozenSnapshot} {V : Value}
    {own : List (Str × Str)} (hd : ∀ acquisition ∈ acquisitions, acquisition.DistinctKeys)
    (hown : List.Forall₂ Own own acquisitions)
    (h : build_snapshot pinned snapshot_id frozen_at acquisitions registry = .ok S)
    (hV : S.value = .ok V) :
    ∃ frozen items added, Dates S own frozen_at frozen V items added := by
  obtain ⟨t, declarations, items, seen, added, ht, -, -, hrecords, hsays, hadded, hchecked, -,
    hseal⟩ := build_snapshot_ok h
  have hitems : ∀ item ∈ items ++ added, item.DistinctKeys := by
    intro item hitem
    rcases List.mem_append.mp hitem with hitem | hitem
    · obtain ⟨acquisition, hacq, hr⟩ := forall₂_exists_left hrecords hitem
      exact hr.distinctKeys (hd _ hacq)
    · obtain ⟨identifier, position, rfl⟩ := hadded _ hitem
      exact missingItem_distinctKeys _ _ _
  have hkeys := @distinctKeys_completed snapshot_id pinned.digest frozen_at S.digest _ hitems
  have hsame : List.Forall₂ Own own items :=
    forall₂_trans hown hsays fun _ _ _ ho hs => ho.says hs
  obtain ⟨hnodup, htimely⟩ := checked_timely hchecked
  obtain ⟨-, -, -, hfrozen, -⟩ := seal_payload_eq_ok.mp hseal
  obtain rfl := value_eq_of_seal hseal hitems hV
  refine ⟨t, items.map .normalize, added.map .normalize, ht, hfrozen, hV, ?_, ?_, ?_, ?_,
    ⟨seen, hnodup, ?_⟩, ?_⟩
  · rw [Value.get?_normalize hkeys]
    simp [completed, sealedMembers, payload]
  · rw [Value.get?_normalize hkeys]
    simp [completed, sealedMembers, payload]
  · rw [List.forall₂_map_right_iff]
    exact forall₂_imp_of_mem hsame fun reading item hi ho => ho.normalize (hitems _ (by simp [hi]))
  · intro item hitem
    obtain ⟨item, hmem, rfl⟩ := List.mem_map.mp hitem
    rw [Value.get?_normalize (hitems _ (by simp [hmem]))]
    obtain ⟨identifier, position, rfl⟩ := hadded _ hmem
    simp [missingItem]
  · rw [← List.map_append, List.forall₂_map_right_iff]
    refine forall₂_imp_of_mem htimely fun id item hi hid => ?_
    rw [Value.get?_normalize (hitems _ hi), hid.id]
    simp
  · intro reading hreading
    obtain ⟨item, hitem, ho⟩ := forall₂_exists_left hsame.flip hreading
    obtain ⟨id, -, htime⟩ := forall₂_exists_left htimely (List.mem_append_left added hitem)
    obtain ⟨s, acquired, hs, hacquired, hle⟩ := htime.acquired
    obtain rfl := Option.some.inj (ho.2.symm.trans hs)
    exact ⟨acquired, hacquired, hle⟩

end vfy.snapshot

/-! ## The age that `fresh()` compares -/

namespace vfy.gate

open python keys outcomes schema snapshot

/-- Items of distinct ids: an id names one of them. -/
theorem eq_of_id {ids : List Str} {items : List Value} (hd : ids.Nodup)
    (h : List.Forall₂ (fun id item => item.get? "id" = some (.str id)) ids items) {id : Str}
    {a b : Value} (ha : a ∈ items) (hb : b ∈ items) (hia : a.get? "id" = some (.str id))
    (hib : b.get? "id" = some (.str id)) : a = b := by
  induction h with
  | nil => cases ha
  | @cons first item ids items hid hrest ih =>
    obtain ⟨hnew, hd⟩ := List.nodup_cons.mp hd
    have hlater : ∀ c ∈ items, item.get? "id" = some (.str id) →
        c.get? "id" = some (.str id) → False := by
      intro c hc hi hic
      obtain ⟨id', hmem, hid'⟩ := forall₂_exists_left hrest hc
      rw [hi] at hid
      rw [hic] at hid'
      simp only [Option.some.injEq, Value.str.injEq] at hid hid'
      exact hnew (hid ▸ hid' ▸ hmem)
    rcases List.mem_cons.mp ha with rfl | hrest
    · rcases List.mem_cons.mp hb with rfl | hlast
      · rfl
      · exact (hlater b hlast hia hib).elim
    · rcases List.mem_cons.mp hb with rfl | hlast
      · exact (hlater a hrest hib hia).elim
      · exact ih hd hrest hlast

theorem lookup_of_id {ids : List Str} {items : List Value} (hd : ids.Nodup)
    (h : List.Forall₂ (fun id item => item.get? "id" = some (.str id)) ids items)
    {mapping : List (Str × Value)} (hm : byId (.list items) = .ok mapping) {id : Str} {item : Value}
    (hitem : item ∈ items) (hid : item.get? "id" = some (.str id)) :
    mapping.lookup id = some item := by
  obtain ⟨mapping', hm', hlookup⟩ := lookup_byId fun item hitem => by
    obtain ⟨id, -, hid⟩ := forall₂_exists_left h hitem
    exact ⟨id, hid⟩
  obtain rfl := Except.ok.inj (hm.symm.trans hm')
  rw [hlookup]
  cases hfound : withId items id with
  | some found =>
    have hmem := mem_of_withId hfound
    have hstr := List.find?_some hfound
    rw [isStr_iff] at hstr
    cases hget : found.get? "id" with
    | none => simp [hget] at hstr
    | some v =>
      rw [hget, Option.getD_some] at hstr
      rw [eq_of_id hd h hmem hitem (hget.trans (congrArg some hstr)) hid]
  | none =>
    have hnone := List.find?_eq_none.mp hfound item (List.mem_reverse.mpr hitem)
    simp [hid] at hnone

/-- The age of acquired evidence is the time between its own reading of the
clock and the reading at the freeze, and this is what a declared bound is
compared with. -/
structure Aged (context : Context) (reading : Str × Str) (frozen : Int) : Prop where
  freeze : context.frozen_at = frozen
  acquired : ∃ item acquired, context.items.lookup reading.1 = some item ∧ Own reading item ∧
    rulebook.instant (.str reading.2) = .ok acquired ∧ acquired ≤ frozen ∧
    ∀ bound, ((context.declarations.lookup reading.1).getD (.dict [])).get? "max_age_seconds" =
        some (.int bound) → item_ok context reading.1 = .ok true →
      is_fresh context reading.1 = .ok (decide (frozen - acquired ≤ bound * 1000000000))

theorem aged_of_dates {S : FrozenSnapshot} {own : List (Str × Str)} {frozen_at : Str}
    {frozen : Int} {V : Value} {items added : List Value}
    (h : Dates S own frozen_at frozen V items added) {rulebook_value candidate : Value}
    {context : Context} (hc : context_of rulebook_value candidate V = .ok context) :
    ∀ reading ∈ own, Aged context reading frozen := by
  intro reading hreading
  unfold context_of contextWith at hc
  simp only [bind_eq_ok, getItem_eq_ok, pure_eq_ok] at hc
  obtain ⟨_, -, declarations, -, w, hw, held, hheld, s, hs, t, ht, rfl⟩ := hc
  obtain rfl := Option.some.inj (h.holds.symm.trans hw)
  obtain rfl := Option.some.inj (h.recorded.symm.trans hs)
  obtain rfl := Except.ok.inj (h.freeze.symm.trans ht)
  obtain ⟨item, hitem, hown⟩ := forall₂_exists_left h.acquired.flip hreading
  obtain ⟨ids, hd, hids⟩ := h.distinct
  obtain ⟨acquired, hacquired, hle⟩ := h.ordered reading hreading
  have hlookup := lookup_of_id hd hids hheld (List.mem_append_left added hitem) hown.1
  refine ⟨rfl, item, acquired, hlookup, hown, hacquired, hle, fun bound hbound hok => ?_⟩
  have hat : getItem item "acquired_at" = .ok (.str reading.2) := getItem_eq_ok.mpr hown.2
  unfold is_fresh
  dsimp only at hbound
  rw [hok, ok_bind, if_neg (by simp)]
  simp only [hbound, itemAt, hlookup, ok_bind, hat, hacquired, number, pure_eq_ok]

end vfy.gate
