-- The builder and the verifier of snapshots agree: what the builder seals,
-- the verifier accepts, as long as the loader can read it back at all.
import VerifyRun.Snapshot
import VerifyRun.RulebookLaws

namespace vfy.snapshot

open python keys outcomes schema rulebook

/-! ## The order of members does not matter to the checks of an item -/

theorem check_status_and_value_normalize {item : Value} (h : item.DistinctKeys) :
    check_status_and_value item.normalize = check_status_and_value item := by
  simp only [check_status_and_value, incoherent, getItem_normalize h, map_bind, eq_normalize_left,
    string_normalize, Value.get?_normalize h, Option.isSome_map]

theorem check_item_normalize {item : Value} (h : item.DistinctKeys)
    (declarations : List (Str × Value)) (frozen_instant : Int) (seen : List Str) (position : Nat) :
    check_item declarations frozen_instant seen (item.normalize, position) =
      check_item declarations frozen_instant seen (item, position) := by
  simp only [check_item, getItem_normalize h, map_bind, eq_normalize_left, string_normalize,
    check_status_and_value_normalize h, instant_or_raise, instant_normalize]

/-! ## What the builder appends, the verifier accepts -/

/-- The verifier's loop goes through these items and has seen these ids. -/
def Checked (declarations : List (Str × Value)) (frozen_instant : Int) (items : List Value)
    (seen : List Str) : Prop :=
  items.zipIdx.foldlM (check_item declarations frozen_instant) [] = .ok seen

theorem incoherent_ne_ok {message : String} {item : Value} : incoherent message item ≠ .ok () := by
  unfold incoherent
  simp [bind_eq_ok]

theorem check_status_and_value_eq_ok {item : Value} : check_status_and_value item = .ok () ↔
    ∃ status, getItem item "status" = .ok status ∧
      ¬ (python.eq status (.str "ok") = true ∧ ¬ (item.get? "value").isSome = true) ∧
      ¬ (python.eq status (.str "missing") = true ∧ (item.get? "value").isSome = true) := by
  unfold check_status_and_value
  simp only [bind_eq_ok]
  refine exists_congr fun status => and_congr_right fun _ => ?_
  split
  · rename_i h
    simp [incoherent_ne_ok, h]
  · rename_i h
    split
    · rename_i h'
      simp [incoherent_ne_ok, h']
    · rename_i h'
      exact ⟨fun _ => ⟨h, h'⟩, fun _ => rfl⟩

/-- What an accepted acquisition appends: an item that says what the acquisition says. -/
theorem item_of_ok {identifier : Str} {position : Nat} {acquisition item : Value}
    (h : item_of identifier position acquisition = .ok item) :
    getItem item "id" = .ok (.str identifier) ∧ getItem item "order" = .ok (.int position) ∧
      getItem item "status" = getItem acquisition "status" ∧
      getItem item "acquired_at" = getItem acquisition "acquired_at" ∧
      item.get? "value" = acquisition.get? "value" := by
  unfold item_of at h
  simp only [bind_eq_ok] at h
  obtain ⟨status, hs, acquired_at, ha, h⟩ := h
  split at h <;> cases h <;> rename_i hv <;> rw [hs, ha, hv] <;> simp

/-- The item records the acquisition: what it holds besides the value is text. -/
def Records (acquisition item : Value) : Prop :=
  ∃ (identifier status acquired_at : Str) (position : Nat),
    item = .dict ([(lit "id", .str identifier), (lit "order", .int position),
      (lit "status", .str status), (lit "acquired_at", .str acquired_at)] ++
        (acquisition.get? "value").toList.map fun v => (lit "value", v))

/-- The item is of the same evidence, acquired at the same time. -/
def SaysWhen (acquisition item : Value) : Prop :=
  getItem item "id" = getItem acquisition "id" ∧
    getItem item "acquired_at" = getItem acquisition "acquired_at"

theorem check_acquisition_shape_status {acquisition : Value}
    (h : check_acquisition_shape acquisition = .ok ()) :
    ∃ status, getItem acquisition "status" = .ok (.str status) := by
  cases acquisition with
  | dict members =>
    simp only [check_acquisition_shape, seq_eq_ok] at h
    obtain ⟨-, -, h⟩ := h
    split at h
    · split at h
      · rename_i status hs
        exact ⟨status, by rw [getItem_dict, hs]⟩
      · cases h
    · rw [error_bind] at h
      cases h
  | _ => simp [check_acquisition_shape] at h

theorem instant_or_raise_ok {v : Value} {field : String} {t : Int}
    (h : instant_or_raise v field = .ok t) : ∃ s, v = .str s := by
  cases v with
  | str s => exact ⟨s, rfl⟩
  | _ => simp [instant_or_raise, instant] at h

theorem records_item_of {identifier : Str} {position : Nat} {acquisition item : Value}
    (h : item_of identifier position acquisition = .ok item) {status acquired_at : Str}
    (hs : getItem acquisition "status" = .ok (.str status))
    (ha : getItem acquisition "acquired_at" = .ok (.str acquired_at)) :
    Records acquisition item := by
  refine ⟨identifier, status, acquired_at, position, ?_⟩
  unfold item_of at h
  rw [hs, ha, ok_bind, ok_bind] at h
  split at h <;> cases h <;> rename_i hv <;> rw [hv] <;> rfl

theorem add_acquisition_ok {declarations : List (Str × Value)} {frozen_instant : Int}
    {items items' : List Value} {seen seen' : List Str} {acquisition : Value}
    (h : add_acquisition declarations frozen_instant (items, seen) (acquisition, items.length) =
      .ok (items', seen')) :
    ∃ item, items' = items ++ [item] ∧ Records acquisition item ∧ SaysWhen acquisition item ∧
      check_item declarations frozen_instant seen (item, items.length) = .ok seen' := by
  unfold add_acquisition at h
  simp only [bind_eq_ok, exists_unit, raiseIf_eq_ok, pure_eq_ok] at h
  obtain ⟨hshape, v, hv, identifier, hidentifier, hdec, hseen, hstatus, acquired_at, hat, acquired,
    hacq, hle, item, hitem, h⟩ := h
  cases h
  obtain ⟨h1, h2, h3, h4, h5⟩ := item_of_ok hitem
  obtain ⟨status, hs⟩ := check_acquisition_shape_status hshape
  obtain ⟨at_text, rfl⟩ := instant_or_raise_ok hacq
  obtain rfl := string_eq_ok.mp hidentifier
  refine ⟨item, rfl, records_item_of hitem hs hat, ⟨h1.trans hv.symm, h4⟩, ?_⟩
  have hstatus' : check_status_and_value item = .ok () := by
    rw [check_status_and_value_eq_ok] at hstatus ⊢
    rwa [h3, h5]
  unfold check_item
  have horder : python.eq (.int items.length) (.int items.length) = true := by
    simp [python.eq, eqBy, eqScalar]
  simp only [h1, h2, h4, ok_bind, string, hat, hacq, hstatus', horder, raiseIf_neg hdec,
    raiseIf_neg hseen, raiseIf_neg hle, not_true_eq_false, raiseIf_false, pure_eq_ok]

theorem checked_snoc {declarations : List (Str × Value)} {t : Int} {items : List Value}
    {seen seen' : List Str} {item : Value} (h : Checked declarations t items seen)
    (hi : check_item declarations t seen (item, items.length) = .ok seen') :
    Checked declarations t (items ++ [item]) seen' := by
  unfold Checked at h ⊢
  rw [List.zipIdx_append, List.foldlM_append, h]
  simpa using hi

/-- After the loop over the acquisitions there is one checked item for each. -/
theorem acquisitions_checked {declarations : List (Str × Value)} {t : Int}
    {acquisitions items : List Value} {seen : List Str}
    (h : acquisitions.zipIdx.foldlM (add_acquisition declarations t) ([], []) =
      .ok (items, seen)) :
    Checked declarations t items seen ∧ List.Forall₂ Records acquisitions items ∧
      List.Forall₂ SaysWhen acquisitions items := by
  induction acquisitions using List.reverseRecOn generalizing items seen with
  | nil =>
    cases h
    exact ⟨rfl, .nil, .nil⟩
  | append_singleton acquisitions acquisition ih =>
    rw [List.zipIdx_append, List.foldlM_append] at h
    obtain ⟨⟨items', seen'⟩, hrun, h⟩ := bind_eq_ok.mp h
    obtain ⟨hchecked, hrecords, hwhen⟩ := ih hrun
    have hone : add_acquisition declarations t (items', seen') (acquisition, items'.length) =
        .ok (items, seen) := by
      rw [← hrecords.length_eq]
      simpa using h
    obtain ⟨item, rfl, hitem, hsame, hcheck⟩ := add_acquisition_ok hone
    exact ⟨checked_snoc hchecked hcheck, List.rel_append hrecords (.cons hitem .nil),
      List.rel_append hwhen (.cons hsame .nil)⟩

/-! ## The evidence that was not acquired -/

/-- The item of required evidence that was not acquired. -/
def missingItem (identifier : Str) (position : Nat) (frozen_at : Str) : Value :=
  .dict [("id", .str identifier), ("order", .int position), ("status", .str "missing"),
    ("acquired_at", .str frozen_at)]

/-- The verifier accepts the item of missing evidence. -/
theorem check_missing {declarations : List (Str × Value)} {t : Int} {seen : List Str}
    {identifier frozen_at : Str} {position : Nat}
    (hd : (declarations.lookup identifier).isSome) (hs : identifier ∉ seen)
    (hf : instant (.str frozen_at) = .ok t) :
    check_item declarations t seen (missingItem identifier position frozen_at, position) =
      .ok (seen ++ [identifier]) := by
  have hnone : ¬ (declarations.lookup identifier).isNone = true := by
    simp [Option.isSome_iff_ne_none.mp hd]
  have horder : python.eq (.int position) (.int position) = true := by
    simp [python.eq, eqBy, eqScalar]
  have hstatus : check_status_and_value (missingItem identifier position frozen_at) = .ok () := by
    rw [check_status_and_value_eq_ok]
    exact ⟨.str "missing", by simp [missingItem], by
      simp [python.eq, eqBy, eqScalar], by simp [missingItem]⟩
  have hinstant : instant_or_raise (.str frozen_at) "acquired_at" = .ok t := by
    simp only [instant_or_raise, hf]
  have h1 : getItem (missingItem identifier position frozen_at) "id" = .ok (.str identifier) := by
    simp [missingItem]
  have h2 : getItem (missingItem identifier position frozen_at) "order" =
      .ok (.int position) := by
    simp [missingItem]
  have h3 : getItem (missingItem identifier position frozen_at) "acquired_at" =
      .ok (.str frozen_at) := by
    simp [missingItem]
  unfold check_item
  simp only [h1, h2, h3, ok_bind, string, raiseIf_neg hnone, raiseIf_neg hs, horder, hstatus,
    hinstant, not_true_eq_false, raiseIf_false, gt_iff_lt, lt_self_iff_false, pure_eq_ok]

theorem is_required_ok {declaration v : Value} (h : getItem declaration "id" = .ok v) :
    ∃ required, is_required declaration = .ok required := by
  cases declaration with
  | dict members => exact ⟨_, rfl⟩
  | _ => simp [getItem] at h

theorem add_missing_ok {frozen_at : Str} {seen : List Str} {items items' : List Value}
    {declaration : Str × Value} (h : add_missing frozen_at seen items declaration = .ok items') :
    (items' = items ∧ (declaration.1 ∈ seen ∨ is_required declaration.2 = .ok false)) ∨
      (declaration.1 ∉ seen ∧
        items' = items ++ [missingItem declaration.1 items.length frozen_at]) := by
  unfold add_missing at h
  split at h
  · rename_i hs
    cases h
    exact Or.inl ⟨rfl, Or.inl hs⟩
  · rename_i hs
    obtain ⟨required, hr, h⟩ := bind_eq_ok.mp h
    split at h
    · cases h
      exact Or.inr ⟨hs, rfl⟩
    · rename_i hb
      cases h
      exact Or.inl ⟨rfl, Or.inr (by rw [hr, Bool.eq_false_iff.mpr hb])⟩

/-- After the loop over the declarations the items are still checked, and every
required id was seen. -/
theorem missing_checked {declarations rest : List (Str × Value)} {t : Int} {frozen_at : Str}
    (hf : instant (.str frozen_at) = .ok t) (hd : Distinct rest)
    (hdec : ∀ d ∈ rest, (declarations.lookup d.1).isSome) {items items' : List Value}
    {seen : List Str} (hc : Checked declarations t items seen)
    (h : rest.foldlM (add_missing frozen_at seen) items = .ok items') :
    ∃ seen' added, Checked declarations t items' seen' ∧ items' = items ++ added ∧
      (∀ item ∈ added, ∃ identifier position, item = missingItem identifier position frozen_at) ∧
      seen ⊆ seen' ∧ (∀ s ∈ seen', s ∈ seen ∨ s ∈ rest.map Prod.fst) ∧
      ∀ d ∈ rest, is_required d.2 = .ok true → d.1 ∈ seen' := by
  induction rest using List.reverseRecOn generalizing items' with
  | nil =>
    cases h
    exact ⟨seen, [], hc, by simp, by simp, List.Subset.refl _, by simp, by simp⟩
  | append_singleton rest d ih =>
    rw [List.foldlM_append] at h
    obtain ⟨between, hrun, h⟩ := bind_eq_ok.mp h
    have hdist := List.nodup_append.mp (show (List.map Prod.fst rest ++ [d.1]).Nodup by
      simpa [Distinct] using hd)
    obtain ⟨seen', added, hchecked, rfl, hadded, hsub, hfrom, hall⟩ :=
      ih hdist.1 (fun d' hd' => hdec d' (by simp [hd'])) hrun
    have hone : add_missing frozen_at seen (items ++ added) d = .ok items' := by simpa using h
    rcases add_missing_ok hone with ⟨rfl, hskip⟩ | ⟨hnew, rfl⟩
    · refine ⟨seen', added, hchecked, rfl, hadded, hsub, ?_, ?_⟩
      · intro s hs
        rcases hfrom s hs with hs | hs <;> simp [hs]
      · intro d' hd' hr
        rcases List.mem_append.mp hd' with hd' | hd'
        · exact hall d' hd' hr
        · cases List.mem_singleton.mp hd'
          rcases hskip with hskip | hskip
          · exact hsub hskip
          · rw [hskip] at hr
            cases hr
    · have hnew' : d.1 ∉ seen' := by
        intro hs
        rcases hfrom _ hs with hs | hs
        · exact hnew hs
        · exact hdist.2.2 _ hs d.1 (by simp) rfl
      refine ⟨seen' ++ [d.1], added ++ [missingItem d.1 (items ++ added).length frozen_at],
        checked_snoc hchecked (check_missing (hdec d (by simp)) hnew' hf), by simp, ?_,
        fun s hs => by simp [hsub hs], ?_, ?_⟩
      · intro item hitem
        rcases List.mem_append.mp hitem with hitem | hitem
        · exact hadded item hitem
        · exact ⟨_, _, List.mem_singleton.mp hitem⟩
      · intro s hs
        rcases List.mem_append.mp hs with hs | hs
        · rcases hfrom s hs with hs | hs <;> simp [hs]
        · simp [List.mem_singleton.mp hs]
      · intro d' hd' hr
        rcases List.mem_append.mp hd' with hd' | hd'
        · simp [hall d' hd' hr]
        · simp [List.mem_singleton.mp hd']

/-! ## The sealed value -/

/-- The members that are digested. -/
def payload (snapshot_id rulebook_digest frozen_at : Str) (items : List Value) :
    List (Str × Value) :=
  [("snapshot_id", .str snapshot_id), ("rulebook_digest", .str rulebook_digest),
   ("frozen_at", .str frozen_at), ("items", .list items)]

/-- The members of a sealed snapshot. -/
def sealedMembers (snapshot_id rulebook_digest frozen_at : Str) (items : List Value)
    (digest : Str) : List (Str × Value) :=
  payload snapshot_id rulebook_digest frozen_at items ++ [(lit "snapshot_digest", .str digest)]

/-- The value of a sealed snapshot. -/
def completed (snapshot_id rulebook_digest frozen_at : Str) (items : List Value) (digest : Str) :
    Value :=
  .dict (sealedMembers snapshot_id rulebook_digest frozen_at items digest)

theorem seal_payload_eq_ok {snapshot_id rulebook_digest frozen_at : Str} {items : List Value}
    {registry : Registry} {S : FrozenSnapshot} :
    seal_payload snapshot_id rulebook_digest frozen_at items registry = .ok S ↔
      canon.digest (.dict (payload snapshot_id rulebook_digest frozen_at items)) = .ok S.digest ∧
      schema.validate (completed snapshot_id rulebook_digest frozen_at items S.digest)
        SNAPSHOT_SCHEMA_ID registry = .ok () ∧
      canon.canonicalize (completed snapshot_id rulebook_digest frozen_at items S.digest) =
        .ok S.canonical ∧ S.frozen_at = frozen_at ∧ S.snapshot_id = snapshot_id := by
  unfold seal_payload
  simp only [bind_eq_ok, exists_unit, pure_eq_ok]
  constructor
  · rintro ⟨digest, hd, hv, canonical, hc, rfl⟩
    exact ⟨hd, hv, hc, rfl, rfl⟩
  · rintro ⟨hd, hv, hc, rfl, rfl⟩
    exact ⟨_, hd, hv, _, hc, rfl⟩

theorem distinctKeys_completed {snapshot_id rulebook_digest frozen_at digest : Str}
    {items : List Value} (h : ∀ item ∈ items, item.DistinctKeys) :
    (completed snapshot_id rulebook_digest frozen_at items digest).DistinctKeys := by
  refine .dict (by simp [Distinct, sealedMembers, payload]) ?_
  simp only [sealedMembers, payload, List.cons_append, List.nil_append, List.mem_cons,
    List.not_mem_nil, or_false, forall_eq_or_imp, forall_eq]
  exact ⟨.str _, .str _, .str _, .list h, .str _⟩

/-- Without the embedded digest, a sealed value that was read back has the
digest of its payload. -/
theorem digest_of_payload {snapshot_id rulebook_digest frozen_at digest : Str}
    {items : List Value} (h : ∀ item ∈ items, item.DistinctKeys) :
    canon.digest (.dict ((sortByKey ((sealedMembers snapshot_id rulebook_digest frozen_at items
        digest).map fun m => (m.1, m.2.normalize))).filter fun m => m.1 ≠ lit "snapshot_digest")) =
      canon.digest (.dict (payload snapshot_id rulebook_digest frozen_at items)) := by
  have hpayload :
      (Value.dict (payload snapshot_id rulebook_digest frozen_at items)).DistinctKeys := by
    refine .dict (by simp [Distinct, payload]) ?_
    simp only [payload, List.mem_cons, List.not_mem_nil, or_false, forall_eq_or_imp, forall_eq]
    exact ⟨.str _, .str _, .str _, .list h⟩
  have hfilter : ((sealedMembers snapshot_id rulebook_digest frozen_at items digest).map
      fun m => (m.1, m.2.normalize)).filter (fun m => m.1 ≠ lit "snapshot_digest") =
      (payload snapshot_id rulebook_digest frozen_at items).map fun m => (m.1, m.2.normalize) := by
    simp [sealedMembers, payload]
  have hperm := (sortByKey_perm ((sealedMembers snapshot_id rulebook_digest frozen_at items
    digest).map fun m => (m.1, m.2.normalize))).filter fun m => m.1 ≠ lit "snapshot_digest"
  rw [hfilter] at hperm
  have hdistinct : Distinct ((payload snapshot_id rulebook_digest frozen_at items).map
      fun m => (m.1, m.2.normalize)) := by
    simp [Distinct, payload]
  rw [canon.digest_perm (hdistinct.perm hperm.symm) hperm, ← canon.digest_normalize hpayload,
    Value.normalize_dict, canon.digest_perm hdistinct.sortByKey (sortByKey_perm _)]

/-! ## The builder and the verifier agree -/

theorem checked_normalize {declarations : List (Str × Value)} {t : Int} {items : List Value}
    {seen : List Str} (hd : ∀ item ∈ items, item.DistinctKeys)
    (h : Checked declarations t items seen) :
    Checked declarations t (items.map Value.normalize) seen := by
  unfold Checked at h ⊢
  rw [List.zipIdx_map, List.foldlM_map, ← h]
  refine foldlM_congr (fun seen entry hentry => ?_) []
  exact check_item_normalize (hd _ (List.fst_mem_of_mem_zipIdx hentry)) _ _ _ _

section Verify

variable {pinned : LoadedRulebook} {registry : Registry} {snapshot_id frozen_at : Str}
variable {items : List Value} {S : FrozenSnapshot} {declarations : List (Str × Value)}

/-- The verifier accepts what was sealed over checked items, with the members in
any order, and yields the same snapshot. -/
theorem verify_sealed
    (hseal : seal_payload snapshot_id pinned.digest frozen_at items registry = .ok S)
    (hd : ∀ item ∈ items, item.DistinctKeys) {t : Int} (ht : instant (.str frozen_at) = .ok t)
    (ha : rulebook_applies pinned (.str frozen_at) = .ok true)
    (hdec : (do byId (← getItem (← pinned.value) "evidence")) = .ok declarations)
    {seen : List Str} (hc : Checked declarations t items seen)
    (hp : forM declarations (check_present seen) = .ok ()) :
    verify_snapshot_value
      (completed snapshot_id pinned.digest frozen_at items S.digest).normalize pinned registry =
        .ok S := by
  obtain ⟨hdigest, hvalid, hcanonical, rfl, rfl⟩ := seal_payload_eq_ok.mp hseal
  have hdk : (completed S.snapshot_id pinned.digest S.frozen_at items S.digest).DistinctKeys :=
    distinctKeys_completed hd
  have hform : (completed S.snapshot_id pinned.digest S.frozen_at items S.digest).normalize =
      .dict (sortByKey ((sealedMembers S.snapshot_id pinned.digest S.frozen_at items S.digest).map
        fun m => (m.1, m.2.normalize))) := Value.normalize_dict _
  have hget : ∀ (k : Str) (v : Value),
      (sealedMembers S.snapshot_id pinned.digest S.frozen_at items S.digest).lookup k = some v →
      getItem (completed S.snapshot_id pinned.digest S.frozen_at items S.digest).normalize k =
        .ok v.normalize := by
    intro k v hv
    rw [getItem_normalize hdk, getItem_eq_ok.mpr (show (completed _ _ _ _ _).get? k = some v
      from hv)]
    rfl
  have hsd := hget "snapshot_digest" (.str S.digest) (by simp [sealedMembers, payload])
  have hrd := hget "rulebook_digest" (.str pinned.digest) (by simp [sealedMembers, payload])
  have hfa := hget "frozen_at" (.str S.frozen_at) (by simp [sealedMembers, payload])
  have hsi := hget "snapshot_id" (.str S.snapshot_id) (by simp [sealedMembers, payload])
  have hits := hget "items" (.list items) (by simp [sealedMembers, payload])
  have hvalid' : schema.validate
      (completed S.snapshot_id pinned.digest S.frozen_at items S.digest).normalize
      SNAPSHOT_SCHEMA_ID registry = .ok () := by rw [validate_normalize hdk, hvalid]
  have hcanonical' : canon.canonicalize
      (completed S.snapshot_id pinned.digest S.frozen_at items S.digest).normalize =
        .ok S.canonical := by
    rw [canon.canonicalize_eq_encode, canon.encode_normalize hdk,
      ← canon.canonicalize_eq_encode, hcanonical]
  have hpayload := (@digest_of_payload S.snapshot_id pinned.digest S.frozen_at S.digest _ hd).trans
    hdigest
  have heq : ∀ s : Str, python.eq (.str s) (.str s) = true := by simp [python.eq, eqBy, eqScalar]
  have hinstant : instant_or_raise (.str S.frozen_at) "frozen_at" = .ok t := by
    simp only [instant_or_raise, ht]
  rw [hform] at hsd hrd hfa hsi hits hvalid' hcanonical' ⊢
  obtain ⟨v, hv, e, he, hby⟩ : ∃ v, pinned.value = .ok v ∧ ∃ e, getItem v "evidence" = .ok e ∧
      byId e = .ok declarations := by simpa only [bind_eq_ok] using hdec
  have hloop := checked_normalize hd hc
  unfold Checked at hloop
  simp only [verify_snapshot_value, hvalid', hpayload, hsd, hrd, hfa, hsi, hits, ok_bind,
    Value.normalize_str, Value.normalize_list, heq, hinstant, ha, hv, he, hby, iterate, hloop, hp,
    hcanonical', string, not_true_eq_false, raiseIf_false, pure_eq_ok]

end Verify

/-! ## How deep the sealed value is -/

/-- An acquisition holds a value of at most this depth, or none. -/
def NestsAtMost (d : Nat) (acquisition : Value) : Prop :=
  ∀ v, acquisition.get? "value" = some v → v.depth ≤ d

theorem Records.depth_le {acquisition item : Value} (h : Records acquisition item) (d : Nat) :
    item.depth ≤ d + 1 ↔ NestsAtMost d acquisition := by
  obtain ⟨identifier, status, acquired_at, position, rfl⟩ := h
  rw [Value.depth_dict_le]
  simp [NestsAtMost, Value.depth, or_imp, forall_and]

theorem Records.distinctKeys {acquisition item : Value} (h : Records acquisition item)
    (hd : acquisition.DistinctKeys) : item.DistinctKeys := by
  obtain ⟨identifier, status, acquired_at, position, rfl⟩ := h
  cases hv : acquisition.get? "value" with
  | none =>
    refine .dict (by simp [Distinct]) ?_
    simp only [Option.toList_none, List.map_nil, List.append_nil, List.mem_cons,
      List.not_mem_nil, or_false, forall_eq_or_imp, forall_eq]
    exact ⟨.str _, .int _, .str _, .str _⟩
  | some v =>
    refine .dict (by simp [Distinct]) ?_
    simp only [Option.toList_some, List.map_cons, List.map_nil, List.cons_append, List.nil_append,
      List.mem_cons, List.not_mem_nil, or_false, forall_eq_or_imp, forall_eq]
    exact ⟨.str _, .int _, .str _, .str _, hd.get? hv⟩

theorem missingItem_depth (identifier : Str) (position : Nat) (frozen_at : Str) :
    (missingItem identifier position frozen_at).depth = 1 := rfl

theorem missingItem_distinctKeys (identifier : Str) (position : Nat) (frozen_at : Str) :
    (missingItem identifier position frozen_at).DistinctKeys := by
  refine .dict (by simp [Distinct]) ?_
  simp only [List.mem_cons, List.not_mem_nil, or_false, forall_eq_or_imp, forall_eq]
  exact ⟨.str _, .int _, .str _, .str _⟩

theorem completed_depth_le {snapshot_id rulebook_digest frozen_at digest : Str}
    {items : List Value} (d : Nat) :
    (completed snapshot_id rulebook_digest frozen_at items digest).depth ≤ d + 2 ↔
      ∀ item ∈ items, item.depth ≤ d := by
  unfold completed
  rw [Value.depth_dict_le]
  simp only [sealedMembers, payload, List.cons_append, List.nil_append, List.mem_cons,
    List.not_mem_nil, or_false, forall_eq_or_imp, forall_eq, Value.depth_list_le]
  simp [Value.depth]

theorem forall₂_forall_iff {α β : Type} {R : α → β → Prop} {P : α → Prop} {Q : β → Prop}
    {as : List α} {bs : List β} (h : List.Forall₂ R as bs) (hpq : ∀ a b, R a b → (Q b ↔ P a)) :
    (∀ b ∈ bs, Q b) ↔ ∀ a ∈ as, P a := by
  induction h with
  | nil => simp
  | cons hab _ ih => simp [hpq _ _ hab, ih]

theorem forall₂_exists_left {α β : Type} {R : α → β → Prop} {as : List α} {bs : List β} {b : β}
    (h : List.Forall₂ R as bs) (hb : b ∈ bs) : ∃ a ∈ as, R a b := by
  induction h with
  | nil => simp at hb
  | @cons a' b' _ _ hab _ ih =>
    rcases List.mem_cons.mp hb with rfl | hb
    · exact ⟨a', by simp, hab⟩
    · obtain ⟨a, ha, hr⟩ := ih hb
      exact ⟨a, by simp [ha], hr⟩

/-- What the builder does: it checks, records, adds what is missing, and seals. -/
theorem build_snapshot_ok {pinned : LoadedRulebook} {snapshot_id frozen_at : Str}
    {acquisitions : List Value} {registry : Registry} {S : FrozenSnapshot}
    (h : build_snapshot pinned snapshot_id frozen_at acquisitions registry = .ok S) :
    ∃ t declarations items seen added,
      instant (.str frozen_at) = .ok t ∧ rulebook_applies pinned (.str frozen_at) = .ok true ∧
      (do byId (← getItem (← pinned.value) "evidence")) = .ok declarations ∧
      List.Forall₂ Records acquisitions items ∧ List.Forall₂ SaysWhen acquisitions items ∧
      (∀ item ∈ added, ∃ identifier position, item = missingItem identifier position frozen_at) ∧
      Checked declarations t (items ++ added) seen ∧
      forM declarations (check_present seen) = .ok () ∧
      seal_payload snapshot_id pinned.digest frozen_at (items ++ added) registry = .ok S := by
  simp only [build_snapshot, bind_eq_ok, exists_unit, raiseIf_eq_ok, not_not] at h
  obtain ⟨t, ht, applies, happ, rfl, v, hv, e, he, declarations, hby, ⟨items, seen⟩, hrun,
    items', hmissing, hseal⟩ := h
  have hinstant : instant (.str frozen_at) = .ok t := by
    unfold instant_or_raise at ht
    split at ht
    · rename_i t' h'
      cases ht
      exact h'
    · cases ht
    · cases ht
  obtain ⟨hchecked, hrecords, hwhen⟩ := acquisitions_checked hrun
  obtain ⟨hdist, hid⟩ := byId_spec hby
  have hdec : ∀ d ∈ declarations, (declarations.lookup d.1).isSome := by
    intro d hd
    rw [(lookup_eq_some_iff hdist d.1 d.2).mpr hd]
    rfl
  obtain ⟨seen', added, hchecked', rfl, hadded, -, -, hall⟩ :=
    missing_checked hinstant hdist hdec hchecked hmissing
  refine ⟨t, declarations, items, seen', added, hinstant, happ, ?_, hrecords, hwhen, hadded,
    hchecked', ?_, hseal⟩
  · simp only [bind_eq_ok]
    exact ⟨v, hv, e, he, hby⟩
  · rw [forM_eq_ok]
    intro d hd
    obtain ⟨required, hr⟩ := is_required_ok (hid d hd)
    rw [check_present, hr, ok_bind, raiseIf_eq_ok]
    rintro ⟨rfl, hn⟩
    exact hn (hall d hd hr)

/-- A sealed snapshot reads back as the value that was sealed. -/
theorem value_of_seal {snapshot_id rulebook_digest frozen_at : Str} {items : List Value}
    {S : FrozenSnapshot} (h : seal_payload snapshot_id rulebook_digest frozen_at items REGISTRY =
      .ok S) (hd : ∀ item ∈ items, item.DistinctKeys) (hdepth : ∀ item ∈ items, item.depth ≤ 62) :
    S.value = .ok (completed snapshot_id rulebook_digest frozen_at items S.digest).normalize := by
  obtain ⟨-, -, hcanonical, -, -⟩ := seal_payload_eq_ok.mp h
  have hcan := canon.canonical_of_encode (distinctKeys_completed hd)
    (canon.canonicalize_eq_encode _ ▸ hcanonical)
  have hbytes : canon.canonical_bytes
      (completed snapshot_id rulebook_digest frozen_at items S.digest) = .ok S.canonical_bytes := by
    rw [canon.canonical_bytes, hcanonical]
    rfl
  rw [FrozenSnapshot.value, load.load_canonical_bytes hcan hbytes,
    if_pos ((completed_depth_le 62).mpr hdepth)]

/-- What the loader says about a snapshot that was built: it reads a value that
the verifier accepts, unless an acquired value nests too deep. -/
theorem load_built {pinned : LoadedRulebook} {snapshot_id frozen_at : Str}
    {acquisitions : List Value} {registry : Registry} {S : FrozenSnapshot}
    (hd : ∀ acquisition ∈ acquisitions, acquisition.DistinctKeys)
    (h : build_snapshot pinned snapshot_id frozen_at acquisitions registry = .ok S) :
    ∃ v, verify_snapshot_value v pinned registry = .ok S ∧
      ((∀ acquisition ∈ acquisitions, NestsAtMost 61 acquisition) →
        load.load_json_bytes S.canonical_bytes = .ok v) ∧
      ((¬ ∀ acquisition ∈ acquisitions, NestsAtMost 61 acquisition) →
        load.load_json_bytes S.canonical_bytes = .error load.tooDeep) := by
  obtain ⟨t, declarations, items, seen, added, ht, ha, hdec, hrecords, -, hadded, hchecked,
    hpresent, hseal⟩ := build_snapshot_ok h
  have hitems : ∀ item ∈ items ++ added, item.DistinctKeys := by
    intro item hitem
    rcases List.mem_append.mp hitem with hitem | hitem
    · obtain ⟨acquisition, hacq, hr⟩ := forall₂_exists_left hrecords hitem
      exact hr.distinctKeys (hd _ hacq)
    · obtain ⟨identifier, position, rfl⟩ := hadded _ hitem
      exact missingItem_distinctKeys _ _ _
  have hverify := verify_sealed hseal hitems ht ha hdec hchecked hpresent
  obtain ⟨-, -, hcanonical, -, -⟩ := seal_payload_eq_ok.mp hseal
  have hcan := canon.canonical_of_encode (distinctKeys_completed hitems)
    (canon.canonicalize_eq_encode _ ▸ hcanonical)
  have hbytes : canon.canonical_bytes
      (completed snapshot_id pinned.digest frozen_at (items ++ added) S.digest) =
        .ok S.canonical_bytes := by
    rw [canon.canonical_bytes, hcanonical]
    rfl
  have hload := load.load_canonical_bytes hcan hbytes
  have hdepth :
      (completed snapshot_id pinned.digest frozen_at (items ++ added) S.digest).depth ≤ 64 ↔
        ∀ acquisition ∈ acquisitions, NestsAtMost 61 acquisition := by
    rw [completed_depth_le 62, List.forall_mem_append,
      forall₂_forall_iff hrecords fun _ _ hr => hr.depth_le 61]
    refine and_iff_left fun item hitem => ?_
    obtain ⟨identifier, position, rfl⟩ := hadded _ hitem
    rw [missingItem_depth]
    omega
  refine ⟨_, hverify, fun hle => ?_, fun hn => ?_⟩
  · rw [hload, if_pos (hdepth.mpr hle)]
  · rw [hload, if_neg fun hle => hn (hdepth.mp hle)]

/-- The verifier accepts what the builder returned, and yields it again, exactly
when no acquired value nests deeper than the loader still reads inside the
snapshot. -/
theorem verify_accepts_built_iff {pinned : LoadedRulebook} {snapshot_id frozen_at : Str}
    {acquisitions : List Value} {registry : Registry} {S : FrozenSnapshot}
    (hd : ∀ acquisition ∈ acquisitions, acquisition.DistinctKeys)
    (h : build_snapshot pinned snapshot_id frozen_at acquisitions registry = .ok S) :
    (∃ v, load.load_json_bytes S.canonical_bytes = .ok v ∧
        verify_snapshot_value v pinned registry = .ok S) ↔
      ∀ acquisition ∈ acquisitions, NestsAtMost 61 acquisition := by
  obtain ⟨v, hverify, hshallow, hdeep⟩ := load_built hd h
  constructor
  · rintro ⟨w, hw, -⟩
    by_contra hn
    rw [hdeep hn] at hw
    cases hw
  · intro hle
    exact ⟨v, hshallow hle, hverify⟩

/-! ## A snapshot of one value -/

/-- One value, acquired on a day. -/
def acquiredOn (day : Str) (v : Value) : Value :=
  .dict [("id", .str "report"), ("status", .str "ok"), ("acquired_at", .str day), ("value", v)]

/-- The item that records it. -/
def itemOn (day : Str) (v : Value) : Value :=
  .dict [("id", .str "report"), ("order", .int 0), ("status", .str "ok"),
    ("acquired_at", .str day), ("value", v)]

section Day

variable {day : Str} {t : Int}

theorem add_acquiredOn (ht : instant (.str day) = .ok t) (v d : Value) :
    add_acquisition [(lit "report", d)] t ([], []) (acquiredOn day v, 0) =
      .ok ([itemOn day v], [lit "report"]) := by
  have hreport : lit "report" = .scalar 'r' :: lit "eport" := rfl
  have hid : getItem (acquiredOn day v) "id" = .ok (.str "report") := by simp [acquiredOn]
  have hstatus : getItem (acquiredOn day v) "status" = .ok (.str "ok") := by simp [acquiredOn]
  have hat : getItem (acquiredOn day v) "acquired_at" = .ok (.str day) := by simp [acquiredOn]
  have hvalue : (acquiredOn day v).get? "value" = some v := by simp [acquiredOn]
  have hshape : check_acquisition_shape (acquiredOn day v) = .ok () := by
    simp [check_acquisition_shape, acquiredOn, ACQUISITION_REQUIRED, ACQUISITION_PERMITTED,
      STATUSES, hreport]
  have hfits : check_status_and_value (acquiredOn day v) = .ok () := by
    rw [check_status_and_value_eq_ok]
    exact ⟨_, hstatus, by simp [hvalue], by simp [python.eq, eqBy, eqScalar]⟩
  simp [add_acquisition, hshape, hid, hfits, hat, instant_or_raise, ht, item_of, hstatus,
    hvalue, itemOn, string]

theorem isItem_itemOn (hdate : is_date_time day = true) (v : Value) : IsItem (itemOn day v) := by
  refine ⟨_, rfl, by simp, ?_⟩
  simp [itemFields, IsText, IsOneOf, IsNatural, IsDate, hdate]

theorem canonical_itemOn (hday : Encodable day) {v : Value} (hv : v.Canonical) :
    (itemOn day v).Canonical := by
  simp [itemOn, Distinct, encodable_lit, hv, hday, Value.SafeInteger]

theorem seal_itemOn (hdate : is_date_time day = true) (hday : Encodable day)
    {rulebook_digest : Str} (hd : IsDigest (.str rulebook_digest))
    (he : Encodable rulebook_digest) {v : Value} (hv : v.Canonical) :
    ∃ S, seal_payload "run" rulebook_digest day [itemOn day v] REGISTRY = .ok S := by
  have hitem := canonical_itemOn hday hv
  have hpayload : (Value.dict (payload "run" rulebook_digest day [itemOn day v])).Canonical := by
    simp [payload, Distinct, encodable_lit, he, hday, hitem]
  obtain ⟨digest, hdigest, hde⟩ := canon.digest_of_canonical hpayload
  have hcompleted : (completed "run" rulebook_digest day [itemOn day v] digest).Canonical := by
    simp [completed, sealedMembers, payload, Distinct, encodable_lit, he, hday, hitem, hde]
  obtain ⟨t, ht⟩ := canon.encode_of_canonical hcompleted
  have hvalid : IsSnapshot (completed "run" rulebook_digest day [itemOn day v] digest) := by
    refine ⟨_, rfl, by simp [sealedMembers, payload], ?_⟩
    simp [sealedMembers, payload, snapshotFields, IsText, IsDate, IsList, hd, hdate,
      isDigest_digest hdigest, isItem_itemOn hdate]
  exact ⟨⟨t, digest, day, "run"⟩, seal_payload_eq_ok.mpr ⟨hdigest,
    (validate_snapshot_iff _).mpr hvalid, by rw [canon.canonicalize_eq_encode, ht], rfl, rfl⟩⟩

/-- The snapshot of one value is built on any day since the rulebook was adopted. -/
theorem build_acquiredOn {adopted_at when_ : Str} {P : LoadedRulebook}
    (ha : Encodable adopted_at) (hw : Encodable when_)
    (h : pin (rulebookSince adopted_at when_) REGISTRY = .ok P) {since : Int}
    (hsince : instant (.str adopted_at) = .ok since) (ht : instant (.str day) = .ok t)
    (hle : since ≤ t) (hdate : is_date_time day = true) (hday : Encodable day) {v : Value}
    (hv : v.Canonical) : ∃ S, build_snapshot P "run" day [acquiredOn day v] REGISTRY = .ok S ∧
      seal_payload "run" P.digest day [itemOn day v] REGISTRY = .ok S := by
  have hcanonical := canonical_rulebookSince ha hw
  have hvalue := value_of_pin hcanonical.distinctKeys h
  rw [normalize_rulebookSince] at hvalue
  obtain ⟨-, -, -, hdigest, -, -, hadopted⟩ := pin_eq_ok.mp h
  have hencodable : Encodable P.digest := by
    obtain ⟨d, hd, he⟩ := canon.digest_of_canonical hcanonical
    rw [hd] at hdigest
    exact Except.ok.inj hdigest ▸ he
  have hadopted' : adopted_at = P.adopted_at := by
    simpa [rulebookSince] using hadopted
  have happ : rulebook_applies P (.str day) = .ok true := by
    simp [rulebook_applies, ht, ← hadopted', hsince, hle]
  obtain ⟨S, hS⟩ := seal_itemOn hdate hday (isDigest_digest hdigest) hencodable hv
  refine ⟨S, ?_, hS⟩
  simp [build_snapshot, instant_or_raise, ht, ok_bind, happ, hvalue, rulebookSince,
    byId, iterate, string, dictOf, setItem, add_acquiredOn ht, add_missing, hS]

end Day

def FREEZE : Str := "2026-01-02T00:00:00Z"

/-- One acquired value. -/
def acquired (v : Value) : Value :=
  .dict [("id", .str "report"), ("status", .str "ok"), ("acquired_at", .str FREEZE), ("value", v)]

theorem instant_freeze : instant (.str FREEZE) = .ok 1767312000000000000 := by decide +kernel

theorem build_acquired {P : LoadedRulebook} (h : pin smallRulebook REGISTRY = .ok P)
    {v : Value} (hv : v.Canonical) :
    ∃ S, build_snapshot P "run" FREEZE [acquired v] REGISTRY = .ok S := by
  have hadopted : instant (.str "2026-01-01T00:00:00Z") = .ok 1767225600000000000 := by
    decide +kernel
  obtain ⟨S, hS, -⟩ := build_acquiredOn (encodable_lit _) (encodable_lit _) h hadopted
    instant_freeze (by norm_num) (by decide +kernel) (encodable_lit _) hv
  exact ⟨S, hS⟩

/-- The empty list inside so many lists. -/
def nest : Nat → Value
  | 0 => .list []
  | n + 1 => .list [nest n]

theorem canonical_nest (n : Nat) : (nest n).Canonical := by
  induction n with
  | zero => simp [nest]
  | succ n ih => simpa [nest] using ih

theorem depth_nest (n : Nat) : (nest n).depth = n + 1 := by
  induction n with
  | zero => rfl
  | succ n ih => simp [nest, Value.depth, Value.depthItems, ih]

theorem distinctKeys_acquired {v : Value} (h : v.Canonical) :
    ∀ acquisition ∈ [acquired v], acquisition.DistinctKeys := by
  have hfreeze : Encodable FREEZE := encodable_lit _
  have hc : (acquired v).Canonical := by
    simp [acquired, Distinct, encodable_lit, h, hfreeze]
  simpa using hc.distinctKeys

/-- A snapshot of a value of the greatest depth is read back. -/
theorem verify_accepts_shallow : ∃ P S, pin smallRulebook REGISTRY = .ok P ∧
    build_snapshot P "run" FREEZE [acquired (nest 60)] REGISTRY = .ok S ∧
    ∃ v, load.load_json_bytes S.canonical_bytes = .ok v ∧
      verify_snapshot_value v P REGISTRY = .ok S := by
  obtain ⟨P, hP, -⟩ := pin_smallRulebook
  obtain ⟨S, hS⟩ := build_acquired hP (canonical_nest 60)
  refine ⟨P, S, hP, hS, (verify_accepts_built_iff (distinctKeys_acquired (canonical_nest 60))
    hS).mpr ?_⟩
  simp [NestsAtMost, acquired, depth_nest]

/-- The loader reads the acquired value, but not the snapshot that was built
around it. -/
theorem built_snapshot_is_not_read_back : ∃ P S, pin smallRulebook REGISTRY = .ok P ∧
    (nest 61).Canonical ∧ (nest 61).depth ≤ 64 ∧
    build_snapshot P "run" FREEZE [acquired (nest 61)] REGISTRY = .ok S ∧
    ¬ ∃ v, load.load_json_bytes S.canonical_bytes = .ok v := by
  obtain ⟨P, hP, -⟩ := pin_smallRulebook
  obtain ⟨S, hS⟩ := build_acquired hP (canonical_nest 61)
  obtain ⟨_, -, -, hdeep⟩ := load_built (distinctKeys_acquired (canonical_nest 61)) hS
  have hload := hdeep (by simp [NestsAtMost, acquired, depth_nest])
  refine ⟨P, S, hP, canonical_nest 61, by simp [depth_nest], hS, ?_⟩
  rintro ⟨v, hv⟩
  rw [hload] at hv
  cases hv

end vfy.snapshot
