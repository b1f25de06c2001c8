-- The child-budget ledger keeps its budget: what a body holds is the sum of
-- what each child holds, a child goes through its events once and in order,
-- and a hold falls only to a measured amount.
import VerifyRun.ChildRecords

namespace vfy.child_ledger

open python keys outcomes load

/-! ## Axes -/

/-- One row of `axes`: its axis and its amount. -/
theorem add_axis_ok {field : Str} {result result' : Amounts} {row : Value}
    (h : add_axis field result row = .ok result') :
    ∃ name amount, result' = result ++ [(name, amount)] ∧ name ∉ result.map Prod.fst := by
  simp only [add_axis, bind_eq_ok, exists_unit, need_eq_ok] at h
  obtain ⟨_, -, name, -, ⟨-, hnew⟩, _, -, _, -, _, -, -, _, -, h⟩ := h
  split at h
  · exact ⟨name, none, (pure_eq_ok.mp h).symm, hnew⟩
  · obtain ⟨q, -, h⟩ := bind_eq_ok.mp h
    exact ⟨name, some q, (pure_eq_ok.mp h).symm, hnew⟩

theorem nodup_foldlM_axis {field : Str} {rows : List Value} : ∀ {result result' : Amounts},
    rows.foldlM (add_axis field) result = .ok result' → (result.map Prod.fst).Nodup →
      (result'.map Prod.fst).Nodup := by
  induction rows with
  | nil =>
    intro result result' h hn
    rw [List.foldlM_nil, pure_eq_ok] at h
    exact h ▸ hn
  | cons row rows ih =>
    intro result result' h hn
    rw [List.foldlM_cons, bind_eq_ok] at h
    obtain ⟨middle, hrow, h⟩ := h
    obtain ⟨name, q, rfl, hnew⟩ := add_axis_ok hrow
    refine ih h ?_
    rw [List.map_append, List.nodup_append]
    refine ⟨hn, by simp, ?_⟩
    rintro a ha b hb rfl
    simp at hb
    exact hnew (hb ▸ ha)

/-- No axis is named twice. -/
theorem nodup_axes {rows : Value} {field : Str} {amounts : Amounts}
    (h : axes rows field = .ok amounts) : (amounts.map Prod.fst).Nodup := by
  unfold axes at h
  split at h
  · simp only [bind_eq_ok, exists_unit] at h
    exact nodup_foldlM_axis h.2 List.nodup_nil
  · cases h

/-- What a settlement accounts on an axis, from what was measured. -/
def settledOf (performed : Str) (m : Str × Option ℚ) : Str × Option ℚ :=
  (m.1, if performed ≠ lit "UNKNOWN" then m.2 else none)

theorem map_fst_settledOf (performed : Str) (measured : Amounts) :
    (measured.map (settledOf performed)).map Prod.fst = measured.map Prod.fst := by
  rw [List.map_map]
  rfl

/-- A settlement's row is read as the row of the completion, or as unknown. -/
theorem add_axis_settlement {performed : Str} {result result' : Amounts} {row row' : Value}
    (h : add_axis "measured_amount" result row = .ok result')
    (hrow : settlement_row performed row = .ok row') :
    add_axis "settled_amount_or_UNKNOWN" (result.map (settledOf performed)) row' =
      .ok (result'.map (settledOf performed)) := by
  simp only [settlement_row, bind_eq_ok, lift_eq_ok, pure_eq_ok] at hrow
  obtain ⟨axis_id, haxis, unit, hunit, aggregation, haggregation, scope, hscope, measured,
    hmeasured, rfl⟩ := hrow
  simp only [add_axis, bind_eq_ok, exists_unit, need_eq_ok, lift_eq_ok, haxis, hunit, haggregation,
    hscope, hmeasured, Except.ok.injEq, exists_eq_left'] at h
  obtain ⟨_, -, name, hname, ⟨haxes, hnew⟩, hmatch, h⟩ := h
  have hkeys : ∀ amount : Value, needKeys (.dict [(lit "axis_id", axis_id), (lit "unit", unit),
      (lit "aggregation", aggregation), (lit "scope", scope), (lit "measured_amount", measured),
      (lit "settled_amount_or_UNKNOWN", amount)]) (rowKeys "settled_amount_or_UNKNOWN") = .ok _ :=
    fun amount => needKeys_eq_ok.mpr ⟨rfl, by simp [rowKeys, sameKeys]⟩
  have hnew' : name ∉ (result.map (settledOf performed)).map Prod.fst := by
    rw [map_fst_settledOf]
    exact hnew
  have hlift : lift (string axis_id) = .ok name := hname ▸ rfl
  unfold add_axis
  rw [hkeys, ok_bind]
  simp only [getItem_dict, List.lookup_cons_self, lookup_lit_ne, ne_eq, String.reduceEq,
    not_false_eq_true, ok_bind, lift_ok, hlift]
  rw [show need ((AXES.lookup name).isSome ∧ name ∉ (result.map (settledOf performed)).map Prod.fst)
    = .ok () from need_eq_ok.mpr ⟨haxes, hnew'⟩, ok_bind, need_eq_ok.mpr hmatch, ok_bind]
  by_cases hperformed : performed ≠ lit "UNKNOWN"
  · rw [if_pos hperformed]
    by_cases hunknown : isStr measured "UNKNOWN" = true
    · rw [if_pos hunknown] at h ⊢
      obtain rfl := pure_eq_ok.mp h
      simp [settledOf]
    · rw [if_neg hunknown] at h ⊢
      obtain ⟨q, hq, h⟩ := bind_eq_ok.mp h
      obtain rfl := pure_eq_ok.mp h
      rw [hq, ok_bind]
      simp [settledOf, hperformed]
  · rw [if_neg hperformed]
    have hname' : ∃ q, result' = result ++ [(name, q)] := by
      split at h
      · exact ⟨_, (pure_eq_ok.mp h).symm⟩
      · obtain ⟨q, -, h⟩ := bind_eq_ok.mp h
        exact ⟨_, (pure_eq_ok.mp h).symm⟩
    obtain ⟨q, rfl⟩ := hname'
    rw [if_pos (by simp)]
    simp [settledOf, hperformed]

theorem foldlM_settlement {performed : Str} {rows rows' : List Value}
    (hrows : List.Forall₂ (fun row row' => settlement_row performed row = .ok row') rows rows') :
    ∀ {result result' : Amounts}, rows.foldlM (add_axis "measured_amount") result = .ok result' →
      rows'.foldlM (add_axis "settled_amount_or_UNKNOWN") (result.map (settledOf performed)) =
        .ok (result'.map (settledOf performed)) := by
  induction hrows with
  | nil =>
    intro result result' h
    rw [List.foldlM_nil, pure_eq_ok] at h
    rw [List.foldlM_nil, h]
    rfl
  | cons hrow _ ih =>
    intro result result' h
    rw [List.foldlM_cons, bind_eq_ok] at h
    obtain ⟨middle, hmiddle, h⟩ := h
    rw [List.foldlM_cons, add_axis_settlement hmiddle hrow, ok_bind]
    exact ih h

/-- The rows of a settlement account what the completion measured, or nothing. -/
theorem axes_settlement {performed : Str} {v : Value} {rows rows' : List Value} {measured : Amounts}
    (h : axes v "measured_amount" = .ok measured) (hv : iterate v = .ok rows)
    (hrows : rows.mapM (settlement_row performed) = .ok rows') :
    axes (.list rows') "settled_amount_or_UNKNOWN" = .ok (measured.map (settledOf performed)) := by
  have hf := mapM_eq_ok.mp hrows
  have hlength := hf.length_eq
  unfold axes at h
  split at h
  · simp only [iterate, Except.ok.injEq] at hv
    subst hv
    simp only [bind_eq_ok, exists_unit, need_eq_ok] at h
    unfold axes
    simp only [bind_eq_ok, exists_unit, need_eq_ok]
    exact ⟨hlength ▸ h.1, foldlM_settlement hf h.2⟩
  · cases h

/-! ## What a child holds -/

/-- The amount of an event on an axis, if it is known. -/
def amountAt {φ : Type} (e : Option (Envelope (Event φ))) (rows : φ → Value) (field axis : Str) :
    Option ℚ :=
  match amountsOf e rows field with
  | .ok amounts => (amounts.lookup axis).join
  | .error _ => none

/-- What is reserved for the child on an axis. -/
def Child.reserved (c : Child) (axis : Str) : Option ℚ :=
  amountAt c.reservation ReservationFields.resource_rows "reserved_amount" axis

/-- What was measured of the child on an axis, if it is known. -/
def Child.measured (c : Child) (axis : Str) : Option ℚ :=
  amountAt c.completion CompletionFields.resource_rows "measured_amount" axis

/-- What is settled of the child on an axis, if it is known. -/
def Child.settled (c : Child) (axis : Str) : Option ℚ :=
  amountAt c.settlement SettlementFields.resource_rows "settled_amount_or_UNKNOWN" axis

/-- What the child holds on an axis: the settled amount where it is known, and
otherwise the larger of what is reserved and what was measured. -/
def Child.exposure (c : Child) (axis : Str) : ℚ :=
  match c.reserved axis with
  | none => 0
  | some reserved => (c.settled axis).getD (max reserved ((c.measured axis).getD 0))

/-- What the body holds on an axis. -/
def Body.exposure (body : Body) (axis : Str) : ℚ := (body.children.map (·.exposure axis)).sum

/-- The amounts of an event that is there are read. -/
def Readable {φ : Type} (e : Option (Envelope (Event φ))) (rows : φ → Value) (field : Str)
    (limits : Amounts) : Prop :=
  ∀ record, e = some record → ∃ amounts, axes (rows record.body.fields) field = .ok amounts ∧
    sameAxes amounts limits

/-- A child keeps the order of its events and the axes of its budget. -/
structure GoodChild (limits : Amounts) (c : Child) : Prop where
  attempt : c.reservation.isSome ↔ c.attempt_id.isSome
  dispatched : c.dispatch.isSome → c.reservation.isSome
  completed : c.completion.isSome → c.dispatch.isSome
  closed : c.settlement.isSome → c.completion.isSome
  reserved : ∀ r, c.reservation = some r → ∃ a, axes r.body.fields.resource_rows "reserved_amount" =
    .ok a ∧ sameAxes a limits ∧ allKnown a
  measured : Readable c.completion CompletionFields.resource_rows "measured_amount" limits
  settled : ∀ s, c.settlement = some s → ∃ e measured, c.completion = some e ∧
    axes e.body.fields.resource_rows "measured_amount" = .ok measured ∧
    axes s.body.fields.resource_rows "settled_amount_or_UNKNOWN" =
      .ok (measured.map (settledOf e.body.fields.service_performed))

/-- The body of a ledger: its budget has limits, and its children are good and
do not share an attempt. -/
structure Good (limits : Amounts) (body : Body) : Prop where
  budget : axes body.budget.resource_rows "limit" = .ok limits
  known : allKnown limits
  children : ∀ c ∈ body.children, GoodChild limits c
  attempts : (body.children.filterMap Child.attempt_id).Nodup

/-! ## The usage is the exposure -/

theorem lookup_of_mem {amounts : Amounts} (hn : (amounts.map Prod.fst).Nodup) {a : Str × Option ℚ}
    (ha : a ∈ amounts) : amounts.lookup a.1 = some a.2 :=
  (lookup_eq_some_iff hn a.1 a.2).mpr ha

/-- The totals have, for each of these axes, the amount of a function. -/
def Tracks (names : List Str) (used : List (Str × ℚ)) (total : Str → ℚ) : Prop :=
  ∀ k ∈ names, used.lookup k = some (total k)

theorem add_ok {names : List Str} {used : List (Str × ℚ)} {total : Str → ℚ}
    (h : Tracks names used total) {name : Str} (hname : name ∈ names) (q : ℚ) :
    ∃ used', add used name q = .ok used' ∧
      Tracks names used' fun k => total k + if k = name then q else 0 := by
  refine ⟨setItem used name (total name + q), ?_, ?_⟩
  · unfold add
    rw [h name hname]
    rfl
  · intro k hk
    rw [lookup_setItem]
    by_cases hkn : k = name
    · subst hkn
      simp
    · simp [hkn, h k hk]

/-- What the amounts held for a child contribute on an axis. -/
def contribution (held measured settled : Amounts) (axis : Str) : ℚ :=
  match (held.lookup axis).join with
  | none => 0
  | some reserved =>
    ((settled.lookup axis).join).getD (max reserved (((measured.lookup axis).join).getD 0))

theorem foldlM_held {names : List Str} (measured settled : Amounts) {held : Amounts} :
    ∀ {used : List (Str × ℚ)} {total : Str → ℚ}, (held.map Prod.fst).Nodup → allKnown held →
      (∀ a ∈ held, a.1 ∈ names) → Tracks names used total →
      ∃ used', held.foldlM (add_held measured settled) used = .ok used' ∧
        Tracks names used' fun k => total k + contribution held measured settled k := by
  induction held with
  | nil =>
    intro used total _ _ _ h
    exact ⟨used, rfl, by simpa [contribution] using h⟩
  | cons a held ih =>
    intro used total hn hknown hnames h
    obtain ⟨name, amount⟩ := a
    obtain ⟨reserved, hreserved⟩ := Option.isSome_iff_exists.mp (hknown _ List.mem_cons_self)
    have hnew : name ∉ held.map Prod.fst := (List.nodup_cons.mp hn).1
    let q := ((settled.lookup name).join).getD (max reserved (((measured.lookup name).join).getD 0))
    have hadd : add_held measured settled used (name, amount) = add used name q := by
      simp only at hreserved
      unfold add_held
      rw [hreserved]
      cases hs : (settled.lookup name).join with
      | none => simp [q, hs]
      | some v => simp [q, hs]
    obtain ⟨used₁, h₁, ht₁⟩ := add_ok h (hnames _ List.mem_cons_self) q
    obtain ⟨used₂, h₂, ht₂⟩ := ih (List.nodup_cons.mp hn).2
      (fun b hb => hknown b (List.mem_cons_of_mem _ hb))
      (fun b hb => hnames b (List.mem_cons_of_mem _ hb)) ht₁
    refine ⟨used₂, ?_, ?_⟩
    · rw [List.foldlM_cons, hadd, h₁, ok_bind, h₂]
    · intro k hk
      rw [ht₂ k hk]
      by_cases hkn : k = name
      · subst hkn
        have hnone : held.lookup k = none := (lookup_eq_none_iff k).mpr hnew
        simp only at hreserved
        simp [contribution, hnone, hreserved, q]
      · have hb : (k == name) = false := beq_false_of_ne hkn
        simp [contribution, List.lookup_cons, hb, hkn]

theorem sameAxes_mem {a b : Amounts} (h : sameAxes a b) : ∀ x ∈ a, x.1 ∈ b.map Prod.fst := h.1

/-- A child whose amounts are read adds what it holds. -/
theorem add_child_ok {limits : Amounts} {c : Child} (hc : GoodChild limits c)
    {used : List (Str × ℚ)} {total : Str → ℚ} (h : Tracks (limits.map Prod.fst) used total) :
    ∃ used', add_child used c = .ok used' ∧
      Tracks (limits.map Prod.fst) used' fun k => total k + c.exposure k := by
  unfold add_child
  cases hr : c.reservation with
  | none =>
    refine ⟨used, rfl, ?_⟩
    have hzero : ∀ k, c.exposure k = 0 := by
      intro k
      simp [Child.exposure, Child.reserved, amountAt, amountsOf, hr, pure, Except.pure]
    simpa [hzero] using h
  | some r =>
    obtain ⟨held, hheld, hsame, hknown⟩ := hc.reserved r hr
    obtain ⟨measured, hmeasured⟩ : ∃ measured, amountsOf c.completion
        CompletionFields.resource_rows "measured_amount" = .ok measured := by
      cases he : c.completion with
      | none => exact ⟨[], rfl⟩
      | some e =>
        obtain ⟨a, ha, -⟩ := hc.measured e he
        exact ⟨a, ha⟩
    obtain ⟨settled, hsettled⟩ : ∃ settled, amountsOf c.settlement
        SettlementFields.resource_rows "settled_amount_or_UNKNOWN" = .ok settled := by
      cases hs : c.settlement with
      | none => exact ⟨[], rfl⟩
      | some s =>
        obtain ⟨e, m, -, -, ha⟩ := hc.settled s hs
        exact ⟨_, ha⟩
    obtain ⟨used', hfold, ht⟩ :=
      foldlM_held measured settled (nodup_axes hheld) hknown (sameAxes_mem hsame) h
    refine ⟨used', ?_, ?_⟩
    · simp only [hheld, hmeasured, hsettled, ok_bind]
      exact hfold
    · have hcontribution : ∀ k, contribution held measured settled k = c.exposure k := by
        intro k
        have hread : amountsOf c.reservation ReservationFields.resource_rows "reserved_amount" =
            .ok held := by
          rw [hr]
          exact hheld
        simp only [contribution, Child.exposure, Child.reserved, Child.measured, Child.settled,
          amountAt, hread, hmeasured, hsettled]
      simpa [hcontribution] using ht

theorem foldlM_child {limits : Amounts} {children : List Child}
    (hc : ∀ c ∈ children, GoodChild limits c) : ∀ {used : List (Str × ℚ)} {total : Str → ℚ},
      Tracks (limits.map Prod.fst) used total →
      ∃ used', children.foldlM add_child used = .ok used' ∧
        Tracks (limits.map Prod.fst) used' fun k => total k + (children.map (·.exposure k)).sum := by
  induction children with
  | nil =>
    intro used total h
    exact ⟨used, rfl, by simpa using h⟩
  | cons c children ih =>
    intro used total h
    obtain ⟨used₁, h₁, ht₁⟩ := add_child_ok (hc c List.mem_cons_self) h
    obtain ⟨used₂, h₂, ht₂⟩ := ih (fun d hd => hc d (List.mem_cons_of_mem _ hd)) ht₁
    refine ⟨used₂, by rw [List.foldlM_cons, h₁, ok_bind, h₂], ?_⟩
    simpa [add_assoc] using ht₂

/-- The axis of a row. -/
def axisOf (row : Value) : Checked Str := lift (do string (← getItem row "axis_id"))

theorem foldlM_axis_names {field : Str} {rows : List Value} : ∀ {result result' : Amounts},
    rows.foldlM (add_axis field) result = .ok result' →
      ∃ names, rows.mapM axisOf = .ok names ∧
        result'.map Prod.fst = result.map Prod.fst ++ names := by
  induction rows with
  | nil =>
    intro result result' h
    rw [List.foldlM_nil, pure_eq_ok] at h
    exact ⟨[], rfl, by simp [h]⟩
  | cons row rows ih =>
    intro result result' h
    rw [List.foldlM_cons, bind_eq_ok] at h
    obtain ⟨middle, hrow, h⟩ := h
    obtain ⟨names, hnames, hmap⟩ := ih h
    simp only [add_axis, bind_eq_ok, exists_unit, need_eq_ok] at hrow
    obtain ⟨_, -, name, hname, -, _, -, _, -, _, -, -, _, -, hrow⟩ := hrow
    have hmiddle : middle.map Prod.fst = result.map Prod.fst ++ [name] := by
      split at hrow
      · rw [← pure_eq_ok.mp hrow]
        simp
      · obtain ⟨q, -, hrow⟩ := bind_eq_ok.mp hrow
        rw [← pure_eq_ok.mp hrow]
        simp
    refine ⟨name :: names, ?_, by rw [hmap, hmiddle]; simp⟩
    rw [List.mapM_cons, show axisOf row = .ok name from hname, ok_bind, hnames]
    rfl

/-- The usage of a good body is what its children hold. -/
theorem usage_good {limits : Amounts} {body : Body} (h : Good limits body) :
    ∃ used, usage body = .ok used ∧ Tracks (limits.map Prod.fst) used body.exposure := by
  have hbudget := h.budget
  unfold axes at hbudget
  split at hbudget
  · rename_i rows hrows
    simp only [bind_eq_ok, exists_unit] at hbudget
    obtain ⟨names, hnames, hmap⟩ := foldlM_axis_names hbudget.2
    rw [List.map_nil, List.nil_append] at hmap
    have hzero : Tracks (limits.map Prod.fst) (dictOf (names.map fun name => (name, (0 : ℚ))))
        fun _ => 0 := by
      intro k hk
      rw [hmap] at hk
      rw [lookup_dictOf, lookup_eq_some_iff]
      · simpa using hk
      · unfold Distinct
        rw [List.map_reverse, List.nodup_reverse, List.map_map]
        have hn := nodup_axes h.budget
        rw [hmap] at hn
        simpa [Function.comp_def] using hn
    obtain ⟨used, hfold, ht⟩ := foldlM_child h.children hzero
    refine ⟨used, ?_, fun k hk => by simpa [Body.exposure] using ht k hk⟩
    unfold usage
    rw [hrows]
    simp only [iterate, lift_ok, ok_bind]
    rw [show rows.mapM (fun r => lift (do string (← getItem r "axis_id"))) = .ok names from hnames,
      ok_bind]
    exact hfold
  · cases hbudget

/-! ## Amounts are not negative -/

theorem fraction_nonneg (s : Str) : 0 ≤ fraction s := by
  unfold fraction
  dsimp only
  split
  · positivity
  · positivity

theorem amount_nonneg {v : Value} {q : ℚ} (h : amount v = .ok q) : 0 ≤ q := by
  unfold amount at h
  split at h
  · simp only [bind_eq_ok, exists_unit, pure_eq_ok] at h
    obtain ⟨-, -, rfl⟩ := h
    exact fraction_nonneg _
  · cases h

theorem foldlM_axis_nonneg {field : Str} {rows : List Value} : ∀ {result result' : Amounts},
    rows.foldlM (add_axis field) result = .ok result' → (∀ a ∈ result, ∀ q ∈ a.2, 0 ≤ q) →
      ∀ a ∈ result', ∀ q ∈ a.2, 0 ≤ q := by
  induction rows with
  | nil =>
    intro result result' h hn
    rw [List.foldlM_nil, pure_eq_ok] at h
    exact h ▸ hn
  | cons row rows ih =>
    intro result result' h hn
    rw [List.foldlM_cons, bind_eq_ok] at h
    obtain ⟨middle, hrow, h⟩ := h
    refine ih h ?_
    simp only [add_axis, bind_eq_ok, exists_unit] at hrow
    obtain ⟨_, -, name, -, -, _, -, _, -, _, -, -, _, -, hrow⟩ := hrow
    split at hrow
    · rw [← pure_eq_ok.mp hrow]
      intro a ha q hq
      rcases List.mem_append.mp ha with ha | ha
      · exact hn a ha q hq
      · rw [List.mem_singleton] at ha
        subst ha
        cases hq
    · obtain ⟨q, hq, hrow⟩ := bind_eq_ok.mp hrow
      rw [← pure_eq_ok.mp hrow]
      intro a ha q' hq'
      rcases List.mem_append.mp ha with ha | ha
      · exact hn a ha q' hq'
      · rw [List.mem_singleton] at ha
        subst ha
        cases Option.mem_some.mp hq'
        exact amount_nonneg hq

theorem axes_nonneg {rows : Value} {field : Str} {amounts : Amounts}
    (h : axes rows field = .ok amounts) : ∀ a ∈ amounts, ∀ q ∈ a.2, 0 ≤ q := by
  unfold axes at h
  split at h
  · simp only [bind_eq_ok, exists_unit] at h
    exact foldlM_axis_nonneg h.2 (by simp)
  · cases h

theorem amountAt_nonneg {φ : Type} {e : Option (Envelope (Event φ))} {rows : φ → Value}
    {field axis : Str} {q : ℚ} (h : amountAt e rows field axis = some q) : 0 ≤ q := by
  unfold amountAt at h
  split at h
  · rename_i amounts hamounts
    rw [Option.join_eq_some_iff] at h
    have hmem := mem_of_lookup h
    unfold amountsOf at hamounts
    split at hamounts
    · exact axes_nonneg hamounts _ hmem q rfl
    · rw [← pure_eq_ok.mp hamounts] at hmem
      cases hmem
  · cases h

/-! ## What a call does to a child -/

/-- The kind of event that a call records. -/
def Op.kind : Op → Kind
  | .reserve .. => .reservation
  | .dispatch_record .. => .dispatch
  | .complete .. => .completion
  | .settle .. => .settlement

/-- The next event of a child of a body, recorded on it. -/
inductive Progress (limits : Amounts) (body : Body) : Kind → Child → Child → Prop where
  | reserve {c : Child} {attempt_id : Str} {r : Envelope (Event ReservationFields)} {a : Amounts} :
      c.reservation = none → (∀ d ∈ body.children, d.attempt_id ≠ some attempt_id) →
      axes r.body.fields.resource_rows "reserved_amount" = .ok a → sameAxes a limits →
      allKnown a →
      (∀ l ∈ limits, ∀ limit ∈ l.2, ∀ q ∈ (a.lookup l.1).join, body.exposure l.1 + q ≤ limit) →
      Progress limits body .reservation c
        { c with attempt_id := some attempt_id, reservation := some r }
  | dispatch {c : Child} {d : Envelope (Event DispatchFields)} : c.reservation.isSome →
      c.dispatch = none → Progress limits body .dispatch c { c with dispatch := some d }
  | complete {c : Child} {e : Envelope (Event CompletionFields)} {m : Amounts} :
      c.dispatch.isSome → c.completion = none →
      axes e.body.fields.resource_rows "measured_amount" = .ok m → sameAxes m limits →
      Progress limits body .completion c { c with completion := some e }
  | settle {c : Child} {s : Envelope (Event SettlementFields)}
      {e : Envelope (Event CompletionFields)} {m : Amounts} : c.completion = some e →
      c.settlement = none → axes e.body.fields.resource_rows "measured_amount" = .ok m →
      axes s.body.fields.resource_rows "settled_amount_or_UNKNOWN" =
        .ok (m.map (settledOf e.body.fields.service_performed)) →
      Progress limits body .settlement c { c with settlement := some s }

/-- One child of the body takes its next event, and nothing else of it changes. -/
def Advances (limits : Amounts) (kind : Kind) (body body' : Body) : Prop :=
  ∃ (i : Nat) (c c' : Child), body.children[i]? = some c ∧ Progress limits body kind c c' ∧
    body'.children = body.children.set i c' ∧ body'.budget = body.budget

theorem event_eq_ok {φ : Type} [Fields φ] {L : Ledger} {body : Body} {child : Child} {kind : Kind}
    {recorded_at : Str} {fields : φ} {record : Envelope (Event φ)}
    (h : event L body child kind recorded_at fields = .ok record) : record.body.fields = fields := by
  simp only [event, bind_eq_ok, exists_unit] at h
  obtain ⟨-, h⟩ := h
  split at h
  · cases h
  · obtain ⟨_, -, h⟩ := bind_eq_ok.mp h
    rw [envelope_eq_ok h]

theorem mem_of_find_zipIdx {α : Type} {l : List α} {p : α × Nat → Bool} {a : α} {i : Nat}
    (h : l.zipIdx.find? p = some (a, i)) : l[i]? = some a ∧ p (a, i) = true := by
  refine ⟨?_, List.find?_some h⟩
  simpa [List.mem_zipIdx_iff_getElem?] using List.mem_of_find?_eq_some h

theorem child_of_eq_ok {body : Body} {reservation_id : Str} {c : Child} {i : Nat}
    (h : child_of body reservation_id = .ok (c, i)) :
    body.children[i]? = some c ∧ c.reservation_id = some reservation_id := by
  unfold child_of at h
  split at h
  · rename_i found hfound
    have hmem : found ∈ body.children.zipIdx.filter
        fun p => p.1.reservation_id = some reservation_id := by
      rw [hfound]
      exact List.mem_singleton_self _
    rw [pure_eq_ok.mp h] at hmem
    simpa [List.mem_filter, List.mem_zipIdx_iff_getElem?] using hmem
  · cases h

theorem sameAxes_trans {a b c : Amounts} (h : sameAxes a b) (h' : sameAxes b c) : sameAxes a c := by
  refine ⟨fun x hx => ?_, fun z hz => ?_⟩
  · obtain ⟨y, hy, hxy⟩ := List.mem_map.mp (h.1 x hx)
    exact hxy ▸ h'.1 y hy
  · obtain ⟨y, hy, hzy⟩ := List.mem_map.mp (h'.2 z hz)
    exact hzy ▸ h.2 y hy

/-- A published record has the body after the action, one revision later. -/
theorem change_eq_ok {α : Type} {L : Ledger} {prior : Envelope Body}
    {action : Body → Checked (Body × α)} {next : Envelope Body} {result : α}
    (h : change L prior action = .ok (next, result)) :
    ∃ body, action prior.body = .ok (body, result) ∧ next.body =
      { body with revision := body.revision + 1, previous_snapshot_sha256 := some prior.sha256 } := by
  simp only [change, bind_eq_ok, exists_unit, pure_eq_ok] at h
  obtain ⟨_, -, prior_body, hprior, ⟨body, r⟩, haction, record, hrecord, _, -, -, hnext⟩ := h
  cases hnext
  rw [authenticate_eq_ok hprior] at haction
  exact ⟨body, haction, envelope_eq_ok hrecord⟩

theorem reserve_advances {L : Ledger} {limits requested : Amounts} {body body' : Body}
    {child_id attempt_id issued_at : Str} {rows : Value} {e : Envelope (Event ReservationFields)}
    (hg : Good limits body) (hrows : axes rows "reserved_amount" = .ok requested)
    (hknown : allKnown requested)
    (h : reserve_child L child_id attempt_id rows requested issued_at body = .ok (body', e)) :
    Advances limits .reservation body body' := by
  unfold reserve_child at h
  split at h
  · cases h
  · rename_i c i hfind
    simp only [bind_eq_ok, exists_unit, needOr_eq_ok, need_eq_ok, pure_eq_ok, Prod.mk.injEq,
      Option.isNone_iff_eq_none] at h
    obtain ⟨hnone, hfresh, limits', hlimits, used, hused, hsame, hfits, e₁, he₁, e₂, he₂, rfl,
      rfl⟩ := h
    obtain rfl : limits' = limits := Except.ok.inj (hlimits.symm.trans hg.budget)
    obtain ⟨used', hused', ht⟩ := usage_good hg
    obtain rfl : used = used' := Except.ok.inj (hused.symm.trans hused')
    have hfields : e₂.body.fields.resource_rows = rows := by
      rw [envelope_eq_ok he₂]
      exact congrArg ReservationFields.resource_rows (event_eq_ok he₁)
    refine ⟨i, c, _, (mem_of_find_zipIdx hfind).1, ?_, rfl, rfl⟩
    refine .reserve hnone hfresh (hfields ▸ hrows) hsame hknown ?_
    intro l hl limit hlimit q hq
    exact hfits l hl limit hlimit q hq _ (ht _ (List.mem_map_of_mem hl))

theorem dispatch_advances {L : Ledger} {limits : Amounts} {body body' : Body}
    {reservation_id recorded_at : Str} {e : Envelope (Event DispatchFields)}
    (h : dispatch_child L reservation_id recorded_at body = .ok (body', e)) :
    Advances limits .dispatch body body' := by
  simp only [dispatch_child, bind_eq_ok, exists_unit, need_eq_ok, pure_eq_ok, Prod.mk.injEq,
    Option.isNone_iff_eq_none] at h
  obtain ⟨⟨c, i⟩, hchild, hnone, e₁, -, rfl, -⟩ := h
  obtain ⟨hc, hid⟩ := child_of_eq_ok hchild
  refine ⟨i, c, _, hc, .dispatch ?_ hnone, rfl, rfl⟩
  cases hr : c.reservation with
  | none => simp [Child.reservation_id, hr] at hid
  | some r => rfl

theorem complete_advances {L : Ledger} {limits measured : Amounts} {body body' : Body}
    {reservation_id service_performed recorded_at : Str} {rows : Value} {observation : Artifact}
    {e : Envelope (Event CompletionFields)} (hg : Good limits body)
    (hrows : axes rows "measured_amount" = .ok measured)
    (h : complete_child L reservation_id service_performed rows measured observation recorded_at body
      = .ok (body', e)) :
    Advances limits .completion body body' := by
  simp only [complete_child, bind_eq_ok, exists_unit, need_eq_ok, pure_eq_ok, Prod.mk.injEq,
    Option.isNone_iff_eq_none] at h
  obtain ⟨⟨c, i⟩, hchild, ⟨hdispatch, hnone⟩, reserved, hreserved, hsame, e₁, he, rfl, -⟩ := h
  obtain ⟨hc, -⟩ := child_of_eq_ok hchild
  have hgood := hg.children c (List.mem_of_getElem? hc)
  have hlimits : sameAxes reserved limits := by
    obtain ⟨r, hr⟩ := Option.isSome_iff_exists.mp (hgood.dispatched hdispatch)
    obtain ⟨a, ha, hal, -⟩ := hgood.reserved r hr
    simp only [hr, amountsOf] at hreserved
    obtain rfl : reserved = a := Except.ok.inj (hreserved.symm.trans ha)
    exact hal
  refine ⟨i, c, _, hc, .complete hdispatch hnone ?_ (sameAxes_trans hsame hlimits), rfl, rfl⟩
  rw [event_eq_ok he]
  exact hrows

theorem settle_advances {L : Ledger} {limits : Amounts} {body body' : Body}
    {reservation_id completion_sha256 settled_at : Str} {e : Envelope (Event SettlementFields)}
    (hg : Good limits body)
    (h : settle_child L reservation_id completion_sha256 settled_at body = .ok (body', e)) :
    Advances limits .settlement body body' := by
  simp only [settle_child, bind_eq_ok] at h
  obtain ⟨⟨c, i⟩, hchild, h⟩ := h
  obtain ⟨hc, -⟩ := child_of_eq_ok hchild
  split at h
  · rename_i completion hcompletion hnone
    simp only [bind_eq_ok, exists_unit, lift_eq_ok, pure_eq_ok, Prod.mk.injEq] at h
    obtain ⟨-, rows, hrows, rows', hrows', _, -, e₁, he, rfl, -⟩ := h
    obtain ⟨m, hm, -⟩ := (hg.children c (List.mem_of_getElem? hc)).measured completion hcompletion
    refine ⟨i, c, _, hc, .settle hcompletion hnone hm ?_, rfl, rfl⟩
    rw [event_eq_ok he]
    exact axes_settlement hm hrows hrows'
  · cases h

/-- An accepted call records the event of its kind on one child. -/
theorem step_advances {L : Ledger} {limits : Amounts} {prior next : Envelope Body} {op : Op}
    (hg : Good limits prior.body) (h : step L prior op = .ok next) :
    Advances limits op.kind prior.body next.body := by
  have hrevision : ∀ {kind : Kind} {body : Body} {revision : Nat} {previous : Option Str},
      Advances limits kind prior.body body → Advances limits kind prior.body
        { body with revision := revision, previous_snapshot_sha256 := previous } := by
    rintro kind body revision previous ⟨i, c, c', hc, hp, hset, hbudget⟩
    exact ⟨i, c, c', hc, hp, hset, hbudget⟩
  cases op with
  | reserve child_id attempt_id resource_rows issued_at =>
    simp only [step, reserve, bind_eq_ok, exists_unit, need_eq_ok, pure_eq_ok] at h
    obtain ⟨⟨_, e⟩, ⟨rows, -, requested, hrows, ⟨hknown, -⟩, hchange⟩, rfl⟩ := h
    obtain ⟨body, hbody, hnext⟩ := change_eq_ok hchange
    rw [hnext]
    exact hrevision (reserve_advances hg hrows hknown hbody)
  | dispatch_record reservation_id recorded_at =>
    simp only [step, dispatch_record, bind_eq_ok, pure_eq_ok] at h
    obtain ⟨⟨_, e⟩, hchange, rfl⟩ := h
    obtain ⟨body, hbody, hnext⟩ := change_eq_ok hchange
    rw [hnext]
    exact hrevision (dispatch_advances hbody)
  | complete reservation_id service_performed resource_rows observation observation_bytes
      recorded_at =>
    simp only [step, complete, bind_eq_ok, exists_unit, pure_eq_ok] at h
    obtain ⟨⟨_, e⟩, ⟨rows, -, measured, hrows, -, -, h⟩, rfl⟩ := h
    split at h
    · cases h
    · simp only [bind_eq_ok, exists_unit] at h
      obtain ⟨-, -, -, hchange⟩ := h
      obtain ⟨body, hbody, hnext⟩ := change_eq_ok hchange
      rw [hnext]
      exact hrevision (complete_advances hg hrows hbody)
  | settle reservation_id completion_sha256 settled_at =>
    simp only [step, settle, bind_eq_ok, pure_eq_ok] at h
    obtain ⟨⟨_, e⟩, hchange, rfl⟩ := h
    obtain ⟨body, hbody, hnext⟩ := change_eq_ok hchange
    rw [hnext]
    exact hrevision (settle_advances hg hbody)

/-! ## A good body stays good -/

/-- A child of which nothing is reserved has no other event. -/
theorem GoodChild.fresh {limits : Amounts} {c : Child} (hc : GoodChild limits c)
    (h : c.reservation = none) :
    c.attempt_id = none ∧ c.dispatch = none ∧ c.completion = none ∧ c.settlement = none := by
  have hattempt : c.attempt_id = none := by
    have := hc.attempt
    simpa [h] using this
  have hdispatch : c.dispatch = none := by
    have := hc.dispatched
    simpa [h] using this
  have hcompletion : c.completion = none := by
    have := hc.completed
    simpa [hdispatch] using this
  have hsettlement : c.settlement = none := by
    have := hc.closed
    simpa [hcompletion] using this
  exact ⟨hattempt, hdispatch, hcompletion, hsettlement⟩

theorem goodChild_progress {limits : Amounts} {body : Body} {kind : Kind} {c c' : Child}
    (hc : GoodChild limits c) (h : Progress limits body kind c c') : GoodChild limits c' := by
  cases h with
  | reserve hnone _ hrows hsame hknown _ =>
    obtain ⟨-, hdispatch, hcompletion, hsettlement⟩ := hc.fresh hnone
    refine ⟨by simp, by simp, by simp [hcompletion], by simp [hsettlement], ?_, hc.measured,
      hc.settled⟩
    rintro r ⟨⟩
    exact ⟨_, hrows, hsame, hknown⟩
  | dispatch hreserved hnone =>
    exact ⟨hc.attempt, fun _ => hreserved, fun _ => rfl, hc.closed, hc.reserved, hc.measured,
      hc.settled⟩
  | complete hdispatch hnone hrows hsame =>
    have hsettlement : c.settlement = none := by
      have := hc.closed
      simpa [hnone] using this
    refine ⟨hc.attempt, hc.dispatched, fun _ => hdispatch, fun _ => rfl, hc.reserved, ?_, ?_⟩
    · rintro e ⟨⟩
      exact ⟨_, hrows, hsame⟩
    · intro s hs
      rw [hsettlement] at hs
      cases hs
  | settle hcompletion hnone hrows hsettled =>
    refine ⟨hc.attempt, hc.dispatched, hc.completed, fun _ => by simp [hcompletion], hc.reserved,
      hc.measured, ?_⟩
    rintro s ⟨⟩
    exact ⟨_, _, hcompletion, hrows, hsettled⟩

/-- An event changes no attempt, or gives one to a child that has none. -/
theorem attempt_progress {limits : Amounts} {body : Body} {kind : Kind} {c c' : Child}
    (hc : GoodChild limits c) (h : Progress limits body kind c c') :
    c'.attempt_id = c.attempt_id ∨
      c.attempt_id = none ∧ ∀ d ∈ body.children, ∀ id, d.attempt_id = some id →
        c'.attempt_id ≠ some id := by
  cases h with
  | reserve hnone hfresh _ _ _ _ =>
    refine .inr ⟨(hc.fresh hnone).1, fun d hd id hid h => ?_⟩
    cases h
    exact hfresh d hd hid
  | dispatch _ _ => exact .inl rfl
  | complete _ _ _ _ => exact .inl rfl
  | settle _ _ _ _ => exact .inl rfl

/-- A list at which one member is replaced. -/
theorem exists_split {α : Type} {l : List α} {i : Nat} {a : α} (h : l[i]? = some a) (b : α) :
    ∃ before after : List α, l = before ++ a :: after ∧ l.set i b = before ++ b :: after := by
  obtain ⟨hi, rfl⟩ := List.getElem?_eq_some_iff.mp h
  refine ⟨l.take i, l.drop (i + 1), ?_, List.set_eq_take_append_cons_drop.trans (if_pos hi)⟩
  rw [List.getElem_cons_drop, List.take_append_drop]

theorem good_advances {limits : Amounts} {kind : Kind} {body body' : Body} (hg : Good limits body)
    (h : Advances limits kind body body') : Good limits body' := by
  obtain ⟨i, c, c', hc, hp, hset, hbudget⟩ := h
  have hgood := hg.children c (List.mem_of_getElem? hc)
  obtain ⟨before, after, hbody, hbody'⟩ := exists_split hc c'
  refine ⟨hbudget ▸ hg.budget, hg.known, ?_, ?_⟩
  · intro d hd
    rw [hset] at hd
    rcases List.mem_or_eq_of_mem_set hd with hd | rfl
    · exact hg.children d hd
    · exact goodChild_progress hgood hp
  · have hn := hg.attempts
    rw [hset, hbody']
    rw [hbody] at hn
    rcases attempt_progress hgood hp with heq | ⟨hnone, hfresh⟩
    · simpa [List.filterMap_append, List.filterMap_cons, heq] using hn
    · cases hid : c'.attempt_id with
      | none => simpa [List.filterMap_append, List.filterMap_cons, hid, hnone] using hn
      | some id =>
        simp only [List.filterMap_append, List.filterMap_cons, hnone, hid] at hn ⊢
        refine List.nodup_middle.mpr (List.nodup_cons.mpr ⟨?_, hn⟩)
        rw [← List.filterMap_append]
        intro hmem
        obtain ⟨d, hd, hdid⟩ := List.mem_filterMap.mp hmem
        refine hfresh d ?_ id hdid hid
        rw [hbody]
        rcases List.mem_append.mp hd with hd | hd
        · exact List.mem_append_left _ hd
        · exact List.mem_append_right _ (List.mem_cons_of_mem _ hd)

/-! ## What a call does to the exposure -/

theorem exposure_advances {limits : Amounts} {kind : Kind} {body body' : Body}
    (h : Advances limits kind body body') (axis : Str) :
    ∃ (i : Nat) (c c' : Child), body.children[i]? = some c ∧ body'.children = body.children.set i c' ∧
      Progress limits body kind c c' ∧
      body'.exposure axis = body.exposure axis + (c'.exposure axis - c.exposure axis) := by
  obtain ⟨i, c, c', hc, hp, hset, -⟩ := h
  refine ⟨i, c, c', hc, hset, hp, ?_⟩
  obtain ⟨before, after, hbody, hbody'⟩ := exists_split hc c'
  unfold Body.exposure
  rw [hset, hbody', hbody]
  simp only [List.map_append, List.map_cons, List.sum_append, List.sum_cons]
  ring

/-- The amount of an event that is there, where its rows are read. -/
theorem amountAt_some {φ : Type} {e : Envelope (Event φ)} {rows : φ → Value} {field : Str}
    {amounts : Amounts} (h : axes (rows e.body.fields) field = .ok amounts) (axis : Str) :
    amountAt (some e) rows field axis = (amounts.lookup axis).join := by
  simp only [amountAt, amountsOf, h]

@[simp] theorem amountAt_none {φ : Type} (rows : φ → Value) (field axis : Str) :
    amountAt none rows field axis = none := rfl

theorem exposure_nonneg (c : Child) (axis : Str) : 0 ≤ c.exposure axis := by
  unfold Child.exposure
  split
  · exact le_refl _
  · rename_i reserved hreserved
    cases hs : c.settled axis with
    | none => exact le_max_of_le_left (amountAt_nonneg hreserved)
    | some q => exact amountAt_nonneg hs

theorem settledOf_lookup (performed : Str) (measured : Amounts) (axis : Str) :
    ((measured.map (settledOf performed)).lookup axis).join =
      if performed ≠ lit "UNKNOWN" then (measured.lookup axis).join else none := by
  have hlookup : (measured.map (settledOf performed)).lookup axis = (measured.lookup axis).map
      fun q => if performed ≠ lit "UNKNOWN" then q else none :=
    lookup_map_snd (fun q : Option ℚ => if performed ≠ lit "UNKNOWN" then q else none) measured axis
  rw [hlookup]
  cases measured.lookup axis with
  | none => simp
  | some q => by_cases hp : performed = lit "UNKNOWN" <;> simp [hp]

/-- A child that is not settled holds the larger of what is reserved and what was measured. -/
theorem exposure_unsettled {c : Child} {axis : Str} {reserved : ℚ}
    (hreserved : c.reserved axis = some reserved) (hsettled : c.settled axis = none) :
    c.exposure axis = max reserved ((c.measured axis).getD 0) := by
  simp [Child.exposure, hreserved, hsettled]

theorem exposure_unreserved {c : Child} {axis : Str} (h : c.reserved axis = none) :
    c.exposure axis = 0 := by
  simp [Child.exposure, h]

/-- What a settlement does to the exposure of its child. -/
theorem exposure_settle {c : Child} {s : Envelope (Event SettlementFields)}
    {e : Envelope (Event CompletionFields)} {m : Amounts} (hcompletion : c.completion = some e)
    (hnone : c.settlement = none)
    (hrows : axes e.body.fields.resource_rows "measured_amount" = .ok m)
    (hsettled : axes s.body.fields.resource_rows "settled_amount_or_UNKNOWN" =
      .ok (m.map (settledOf e.body.fields.service_performed))) (axis : Str) :
    Child.exposure { c with settlement := some s } axis = c.exposure axis ∨
      ∃ q, e.body.fields.service_performed ≠ lit "UNKNOWN" ∧ c.measured axis = some q ∧
        Child.exposure { c with settlement := some s } axis = q := by
  have hmeasured : c.measured axis = (m.lookup axis).join := by
    simp only [Child.measured, hcompletion]
    exact amountAt_some hrows axis
  have hnow : Child.settled { c with settlement := some s } axis =
      if e.body.fields.service_performed ≠ lit "UNKNOWN" then c.measured axis else none := by
    simp only [Child.settled]
    rw [amountAt_some hsettled, settledOf_lookup, hmeasured]
  have hbefore : c.settled axis = none := by simp [Child.settled, hnone]
  cases hreserved : c.reserved axis with
  | none =>
    left
    rw [exposure_unreserved hreserved]
    exact exposure_unreserved hreserved
  | some reserved =>
    by_cases hp : e.body.fields.service_performed = lit "UNKNOWN"
    · left
      rw [exposure_unsettled hreserved hbefore]
      exact exposure_unsettled hreserved (hnow.trans (if_neg (not_not_intro hp)))
    · rw [if_pos hp] at hnow
      cases hq : c.measured axis with
      | none =>
        left
        rw [exposure_unsettled hreserved hbefore]
        exact exposure_unsettled hreserved (hnow.trans hq)
      | some q =>
        refine .inr ⟨q, hp, rfl, ?_⟩
        rw [hq] at hnow
        have hkeep : Child.reserved { c with settlement := some s } axis = some reserved :=
          hreserved
        simp [Child.exposure, hkeep, hnow]

/-- A child that is only reserved holds its reservation. -/
theorem exposure_reserved {c : Child} {r : Envelope (Event ReservationFields)} {a : Amounts}
    {axis : Str} {q : ℚ} (hreservation : c.reservation = some r) (hcompletion : c.completion = none)
    (hsettlement : c.settlement = none)
    (hrows : axes r.body.fields.resource_rows "reserved_amount" = .ok a)
    (hq : (a.lookup axis).join = some q) : c.exposure axis = q := by
  have hreserved : c.reserved axis = some q := by
    unfold Child.reserved
    rw [hreservation, amountAt_some hrows, hq]
  have hsettled : c.settled axis = none := by simp [Child.settled, hsettlement]
  have hmeasured : c.measured axis = none := by simp [Child.measured, hcompletion]
  rw [exposure_unsettled hreserved hsettled, hmeasured]
  exact max_eq_left (amountAt_nonneg hreserved)

/-- What an event does to the exposure of its child. -/
theorem exposure_progress {limits : Amounts} {body : Body} {kind : Kind} {c c' : Child}
    (hc : GoodChild limits c) (h : Progress limits body kind c c') (axis : Str) :
    c.exposure axis ≤ c'.exposure axis ∨
      kind = .settlement ∧ c.settlement = none ∧ c'.settlement.isSome ∧ ∃ e q,
        c.completion = some e ∧ e.body.fields.service_performed ≠ lit "UNKNOWN" ∧
        c.measured axis = some q ∧ c'.exposure axis = q := by
  cases h with
  | reserve hnone _ _ _ _ _ =>
    left
    have hzero : c.reserved axis = none := by simp [Child.reserved, hnone]
    rw [exposure_unreserved hzero]
    exact exposure_nonneg _ _
  | dispatch _ _ => exact .inl (le_refl _)
  | complete hdispatch hnone hrows hsame =>
    rename_i e m
    left
    have hmeasured : c.measured axis = none := by simp [Child.measured, hnone]
    have hsettled : c.settled axis = none := by
      have hs : c.settlement = none := by
        have := hc.closed
        simpa [hnone] using this
      simp [Child.settled, hs]
    cases hreserved : c.reserved axis with
    | none =>
      rw [exposure_unreserved hreserved]
      exact exposure_nonneg _ _
    | some reserved =>
      have hnow : Child.exposure { c with completion := some e } axis =
          max reserved ((Child.measured { c with completion := some e } axis).getD 0) :=
        exposure_unsettled hreserved hsettled
      rw [exposure_unsettled hreserved hsettled, hnow, hmeasured]
      refine max_le_max (le_refl _) ?_
      cases hq : Child.measured { c with completion := some e } axis with
      | none => exact le_refl _
      | some q => exact amountAt_nonneg hq
  | settle hcompletion hnone hrows hsettled =>
    rename_i s e m
    rcases exposure_settle hcompletion hnone hrows hsettled axis with heq | ⟨q, hp, hq, hnow⟩
    · exact .inl heq.ge
    · exact .inr ⟨rfl, hnone, rfl, e, q, hcompletion, hp, hq, hnow⟩

/-- The budget holds: no axis is above its limit. -/
def WithinLimits (limits : Amounts) (body : Body) : Prop :=
  ∀ l ∈ limits, ∀ limit ∈ l.2, body.exposure l.1 ≤ limit

/-- No recorded measurement is above its reservation. -/
def MeasuredWithin (body : Body) : Prop :=
  ∀ c ∈ body.children, ∀ axis, ∀ reserved ∈ c.reserved axis, ∀ q ∈ c.measured axis, q ≤ reserved

/-- A reservation is admitted only where the budget then holds. -/
theorem within_reserve {limits : Amounts} {body body' : Body} (hg : Good limits body)
    (h : Advances limits .reservation body body') : WithinLimits limits body' := by
  intro l hl limit hlimit
  obtain ⟨i, c, c', hc, -, hp, hexposure⟩ := exposure_advances h l.1
  have hgood := hg.children c (List.mem_of_getElem? hc)
  cases hp with
  | reserve hnone hfresh hrows hsame hknown hfits =>
    rename_i attempt_id r a
    obtain ⟨-, -, hcompletion, hsettlement⟩ := hgood.fresh hnone
    -- the axis of the limit is one of the requested axes, with a known amount
    obtain ⟨⟨name, amount⟩, hmem, hname⟩ := List.mem_map.mp (hsame.2 l hl)
    obtain ⟨q, hq⟩ := Option.isSome_iff_exists.mp (hknown _ hmem)
    simp only at hname hq
    subst hname hq
    have hlookup : (a.lookup l.1).join = some q := by
      rw [lookup_of_mem (nodup_axes hrows) hmem]
      rfl
    have hbefore : c.exposure l.1 = 0 := exposure_unreserved (by simp [Child.reserved, hnone])
    have hafter := exposure_reserved
      (c := { c with attempt_id := some attempt_id, reservation := some r })
      rfl hcompletion hsettlement hrows hlookup
    rw [hexposure, hbefore, hafter, sub_zero]
    exact hfits l hl limit hlimit q hlookup

/-- Where measurements stay below reservations, no later event takes an axis
above its limit. -/
theorem within_advances {limits : Amounts} {kind : Kind} {body body' : Body} (hg : Good limits body)
    (h : Advances limits kind body body') (hbefore : WithinLimits limits body)
    (hmeasured : MeasuredWithin body') : WithinLimits limits body' := by
  by_cases hkind : kind = .reservation
  · subst hkind
    exact within_reserve hg h
  · intro l hl limit hlimit
    obtain ⟨i, c, c', hc, hset, hp, hexposure⟩ := exposure_advances h l.1
    have hgood := hg.children c (List.mem_of_getElem? hc)
    have hmem : c' ∈ body'.children := by
      rw [hset]
      exact List.mem_set (List.getElem?_eq_some_iff.mp hc).1 c'
    suffices c'.exposure l.1 ≤ c.exposure l.1 by
      rw [hexposure]
      have := hbefore l hl limit hlimit
      linarith
    have hwithin := hmeasured c' hmem l.1
    cases hp with
    | reserve _ _ _ _ _ _ => exact absurd rfl hkind
    | dispatch _ _ => exact le_refl _
    | complete hdispatch hnone hrows hsame =>
      rename_i e m
      have hsettled : c.settled l.1 = none := by
        have hs : c.settlement = none := by
          have := hgood.closed
          simpa [hnone] using this
        simp [Child.settled, hs]
      cases hreserved : c.reserved l.1 with
      | none =>
        have hnow : Child.exposure { c with completion := some e } l.1 = 0 :=
          exposure_unreserved hreserved
        rw [hnow]
        exact exposure_nonneg c l.1
      | some reserved =>
        have hnow : Child.exposure { c with completion := some e } l.1 =
            max reserved ((Child.measured { c with completion := some e } l.1).getD 0) :=
          exposure_unsettled hreserved hsettled
        rw [hnow, exposure_unsettled hreserved hsettled]
        refine max_le (le_max_left _ _) ?_
        cases hq : Child.measured { c with completion := some e } l.1 with
        | none => exact le_max_of_le_left (amountAt_nonneg hreserved)
        | some q => exact le_max_of_le_left (hwithin reserved hreserved q hq)
    | settle hcompletion hnone hrows hsettled =>
      rename_i s e m
      rcases exposure_settle hcompletion hnone hrows hsettled l.1 with heq | ⟨q, hp, hq, hnow⟩
      · exact heq.le
      · rw [hnow]
        have hbefore : c.settled l.1 = none := by simp [Child.settled, hnone]
        cases hreserved : c.reserved l.1 with
        | none =>
          have : Child.exposure { c with settlement := some s } l.1 = 0 :=
            exposure_unreserved hreserved
          rw [hnow] at this
          rw [this]
          exact exposure_nonneg c l.1
        | some reserved =>
          rw [exposure_unsettled hreserved hbefore, hq]
          exact le_max_right _ _

/-- Measurements that stay below reservations did so before. -/
theorem measuredWithin_before {limits : Amounts} {kind : Kind} {body body' : Body}
    (hg : Good limits body) (h : Advances limits kind body body') (hm : MeasuredWithin body') :
    MeasuredWithin body := by
  obtain ⟨i, c, c', hc, hp, hset, -⟩ := h
  intro d hd axis reserved hreserved q hq
  obtain ⟨j, hj⟩ := List.getElem?_of_mem hd
  by_cases hij : i = j
  · subst hij
    obtain rfl : d = c := Option.some.inj (hj.symm.trans hc)
    have hgood := hg.children d hd
    have hmem : c' ∈ body'.children := by
      rw [hset]
      exact List.mem_set (List.getElem?_eq_some_iff.mp hc).1 c'
    have hwithin := hm c' hmem axis
    cases hp with
    | reserve hnone _ _ _ _ _ => simp [Child.reserved, hnone] at hreserved
    | dispatch _ _ => exact hwithin reserved hreserved q hq
    | complete _ hnone _ _ => simp [Child.measured, hnone] at hq
    | settle _ _ _ _ => exact hwithin reserved hreserved q hq
  · refine hm d ?_ axis reserved hreserved q hq
    rw [hset]
    refine List.mem_of_getElem? (i := j) ?_
    rw [List.getElem?_set_ne hij, hj]

/-! ## Events are kept -/

/-- A child that has at least these events, unchanged. -/
structure Keeps (c c' : Child) : Prop where
  child_id : c'.child_id = c.child_id
  attempt_id : ∀ id, c.attempt_id = some id → c'.attempt_id = some id
  reservation : ∀ r, c.reservation = some r → c'.reservation = some r
  dispatch : ∀ d, c.dispatch = some d → c'.dispatch = some d
  completion : ∀ e, c.completion = some e → c'.completion = some e
  settlement : ∀ s, c.settlement = some s → c'.settlement = some s

theorem Keeps.refl (c : Child) : Keeps c c :=
  ⟨rfl, fun _ h => h, fun _ h => h, fun _ h => h, fun _ h => h, fun _ h => h⟩

theorem Keeps.trans {a b c : Child} (h : Keeps a b) (h' : Keeps b c) : Keeps a c :=
  ⟨h'.child_id.trans h.child_id, fun id hid => h'.attempt_id id (h.attempt_id id hid),
    fun r hr => h'.reservation r (h.reservation r hr),
    fun d hd => h'.dispatch d (h.dispatch d hd), fun e he => h'.completion e (h.completion e he),
    fun s hs => h'.settlement s (h.settlement s hs)⟩

theorem keeps_progress {limits : Amounts} {body : Body} {kind : Kind} {c c' : Child}
    (hc : GoodChild limits c) (h : Progress limits body kind c c') : Keeps c c' := by
  cases h with
  | reserve hnone _ _ _ _ _ =>
    refine ⟨rfl, ?_, ?_, fun _ h => h, fun _ h => h, fun _ h => h⟩
    · intro id hid
      rw [(hc.fresh hnone).1] at hid
      cases hid
    · intro r hr
      rw [hnone] at hr
      cases hr
  | dispatch _ hnone =>
    refine ⟨rfl, fun _ h => h, fun _ h => h, ?_, fun _ h => h, fun _ h => h⟩
    intro d hd
    rw [hnone] at hd
    cases hd
  | complete _ hnone _ _ =>
    refine ⟨rfl, fun _ h => h, fun _ h => h, fun _ h => h, ?_, fun _ h => h⟩
    intro e he
    rw [hnone] at he
    cases he
  | settle _ hnone _ _ =>
    refine ⟨rfl, fun _ h => h, fun _ h => h, fun _ h => h, fun _ h => h, ?_⟩
    intro s hs
    rw [hnone] at hs
    cases hs

/-- A body of the same budget, whose children keep their events. -/
def Kept (body body' : Body) : Prop :=
  body'.budget = body.budget ∧ List.Forall₂ Keeps body.children body'.children

theorem Kept.refl (body : Body) : Kept body body :=
  ⟨rfl, List.forall₂_same.mpr fun c _ => Keeps.refl c⟩

theorem Kept.trans {a b c : Body} (h : Kept a b) (h' : Kept b c) : Kept a c := by
  refine ⟨h'.1.trans h.1, ?_⟩
  have hcomp := List.forall₂_iff_get.mp h.2
  have hcomp' := List.forall₂_iff_get.mp h'.2
  refine List.forall₂_iff_get.mpr ⟨hcomp.1.trans hcomp'.1, fun i hi hi' => ?_⟩
  exact (hcomp.2 i hi (hcomp.1 ▸ hi)).trans (hcomp'.2 i (hcomp.1 ▸ hi) hi')

theorem kept_advances {limits : Amounts} {kind : Kind} {body body' : Body} (hg : Good limits body)
    (h : Advances limits kind body body') : Kept body body' := by
  obtain ⟨i, c, c', hc, hp, hset, hbudget⟩ := h
  refine ⟨hbudget, ?_⟩
  obtain ⟨before, after, hbody, hbody'⟩ := exists_split hc c'
  rw [hset, hbody', hbody]
  refine List.rel_append (List.forall₂_same.mpr fun d _ => Keeps.refl d) (.cons ?_ ?_)
  · exact keeps_progress (hg.children c (List.mem_of_getElem? hc)) hp
  · exact List.forall₂_same.mpr fun d _ => Keeps.refl d

theorem Kept.child {body body' : Body} (h : Kept body body') {i : Nat} {c c' : Child}
    (hc : body.children[i]? = some c) (hc' : body'.children[i]? = some c') : Keeps c c' := by
  obtain ⟨hi, rfl⟩ := List.getElem?_eq_some_iff.mp hc
  obtain ⟨hi', rfl⟩ := List.getElem?_eq_some_iff.mp hc'
  exact (List.forall₂_iff_get.mp h.2).2 i hi hi'

/-! ## What is unknown stays held -/

/-- The completion leaves the cost of this axis unknown. -/
def Unmeasured (c : Child) (axis : Str) : Prop :=
  ∃ e, c.completion = some e ∧
    (e.body.fields.service_performed = lit "UNKNOWN" ∨ c.measured axis = none)

theorem settled_unmeasured {limits : Amounts} {c : Child} (hc : GoodChild limits c) {axis : Str}
    (h : Unmeasured c axis) : c.settled axis = none := by
  obtain ⟨e, he, hunknown⟩ := h
  cases hs : c.settlement with
  | none => simp [Child.settled, hs]
  | some s =>
    obtain ⟨e', m, he', hrows, hsettled⟩ := hc.settled s hs
    obtain rfl : e = e' := Option.some.inj (he.symm.trans he')
    unfold Child.settled
    rw [hs, amountAt_some hsettled, settledOf_lookup]
    rcases hunknown with hunknown | hunknown
    · exact if_neg (not_not_intro hunknown)
    · have hmeasured : c.measured axis = (m.lookup axis).join := by
        simp only [Child.measured, he]
        exact amountAt_some hrows axis
      rw [← hmeasured, hunknown]
      exact ite_self _

theorem exposure_unmeasured {limits : Amounts} {c c' : Child} (hc : GoodChild limits c)
    (hc' : GoodChild limits c') (hk : Keeps c c') {axis : Str} (h : Unmeasured c axis) :
    c'.exposure axis = c.exposure axis := by
  obtain ⟨e, he, hunknown⟩ := h
  obtain ⟨r, hr⟩ := Option.isSome_iff_exists.mp
    (hc.dispatched (hc.completed (he ▸ Option.isSome_some)))
  have hreserved : c'.reserved axis = c.reserved axis := by
    simp only [Child.reserved, hr, hk.reservation r hr]
  have hmeasured : c'.measured axis = c.measured axis := by
    simp only [Child.measured, he, hk.completion e he]
  have hsettled : c.settled axis = none := settled_unmeasured hc ⟨e, he, hunknown⟩
  have hsettled' : c'.settled axis = none :=
    settled_unmeasured hc' ⟨e, hk.completion e he, hmeasured ▸ hunknown⟩
  simp only [Child.exposure, hreserved, hmeasured, hsettled, hsettled']

/-! ## Runs -/

theorem good_create {L : Ledger} {created : Envelope Body} (h : create L = .ok created) :
    ∃ limits, Good limits created.body ∧ ∀ c ∈ created.body.children, c.reservation = none := by
  simp only [create, bind_eq_ok, exists_unit] at h
  obtain ⟨bound, -, b, -, _, -, budget, hbudget, -, -, h⟩ := h
  rw [envelope_eq_ok h]
  simp only [check_budget, bind_eq_ok, exists_unit, need_eq_ok, pure_eq_ok] at hbudget
  obtain ⟨_, -, _, -, _, -, _, -, _, -, _, -, -, _, -, -, limits, hlimits, hknown, rfl⟩ := hbudget
  have hfresh : ∀ c ∈ bound.expected_child_ids.map freshChild, ∃ id, c = freshChild id := by
    intro c hc
    obtain ⟨id, -, rfl⟩ := List.mem_map.mp hc
    exact ⟨id, rfl⟩
  refine ⟨limits, ⟨hlimits, hknown, ?_, ?_⟩, ?_⟩
  · intro c hc
    obtain ⟨id, rfl⟩ := hfresh c hc
    constructor <;> simp [freshChild, Readable]
  · have hnone : (bound.expected_child_ids.map freshChild).filterMap Child.attempt_id = [] := by
      refine List.filterMap_eq_nil_iff.mpr fun c hc => ?_
      obtain ⟨id, rfl⟩ := hfresh c hc
      rfl
    rw [hnone]
    exact List.nodup_nil
  · intro c hc
    obtain ⟨id, rfl⟩ := hfresh c hc
    rfl

/-- A call that is refused changes nothing; the others advance a child. -/
theorem after_cases {L : Ledger} {limits : Amounts} {record : Envelope Body}
    (hg : Good limits record.body) (op : Op) : after L record op = record ∨
      Advances limits op.kind record.body (after L record op).body := by
  unfold after
  split
  · rename_i next hnext
    exact .inr (step_advances hg hnext)
  · exact .inl rfl

theorem good_run {L : Ledger} {limits : Amounts} {record : Envelope Body} (ops : List Op)
    (hg : Good limits record.body) :
    Good limits (run L record ops).body ∧ Kept record.body (run L record ops).body := by
  induction ops generalizing record with
  | nil => exact ⟨hg, Kept.refl _⟩
  | cons op ops ih =>
    have hstep : Good limits (after L record op).body ∧ Kept record.body (after L record op).body := by
      rcases after_cases (L := L) hg op with h | h
      · rw [h]
        exact ⟨hg, Kept.refl _⟩
      · exact ⟨good_advances hg h, kept_advances hg h⟩
    obtain ⟨hgood, hkept⟩ := ih hstep.1
    exact ⟨hgood, hstep.2.trans hkept⟩

/-- While measurements stay below reservations the budget holds. -/
theorem within_run {L : Ledger} {limits : Amounts} {record : Envelope Body} (ops : List Op)
    (hg : Good limits record.body) (hw : MeasuredWithin record.body → WithinLimits limits record.body) :
    MeasuredWithin (run L record ops).body → WithinLimits limits (run L record ops).body := by
  induction ops generalizing record with
  | nil => exact hw
  | cons op ops ih =>
    rcases after_cases (L := L) hg op with h | h
    · unfold run
      rw [List.foldl_cons, h]
      exact ih hg hw
    · refine ih (good_advances hg h) fun hm => ?_
      exact within_advances hg h (hw (measuredWithin_before hg h hm)) hm

end vfy.child_ledger
