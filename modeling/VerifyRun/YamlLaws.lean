-- The builder of the YAML subset, over every stream of events: what it
-- raises is typed, its stack never underflows, and the mappings that it
-- builds have distinct keys.
import VerifyRun.RoundTrip
import VerifyRun.Yaml

namespace vfy.load

open calls python keys outcomes canon

/-! ## The builder -/

/-- Every value inside an open collection has distinct keys. -/
def Frame.Good : Frame → Prop
  | .map members _ _ => Distinct members ∧ ∀ m ∈ members, m.2.DistinctKeys
  | .seq items => ∀ item ∈ items, item.DistinctKeys

structure Builder.Good (b : Builder) : Prop where
  frames : ∀ f ∈ b.stack, f.Good
  root : ∀ v, b.root = some v → v.DistinctKeys

/-- A node was built: the open collections are those of before, and outside
every collection the root is there. -/
structure Built (b b' : Builder) : Prop where
  good : b'.Good
  depth : b'.stack.length = b.stack.length
  root : b.stack = [] → b'.root ≠ none

theorem Frame.good_add {f f' : Frame} {v : Value} (hf : f.Good) (hv : v.DistinctKeys)
    (h : f.add v = .ok f') : f'.Good := by
  unfold Frame.add at h
  split at h
  · cases h
    intro item hitem
    rcases List.mem_append.mp hitem with hitem | hitem
    · exact hf item hitem
    · rw [List.mem_singleton.mp hitem]
      exact hv
  · cases h
    refine ⟨distinct_setItem hf.1 _ _, fun m hm => ?_⟩
    rcases mem_setItem hm with rfl | hm
    · exact hv
    · exact hf.2 m hm
  · split at h
    · split at h
      · cases h
      · split at h
        · cases h
        · cases h
          exact hf
    · cases h

theorem Frame.add_error {f : Frame} {v : Value} {e : Exn} (h : f.add v = .error e) :
    e.IsVerify := by
  unfold Frame.add at h
  split at h
  · cases h
  · cases h
  · split at h
    · split at h
      · exact ⟨_, (Except.error.inj h).symm⟩
      · split at h
        · exact ⟨_, (Except.error.inj h).symm⟩
        · cases h
    · exact ⟨_, (Except.error.inj h).symm⟩

theorem place_sat {b : Builder} (hb : b.Good) {v : Value} (hv : v.DistinctKeys) :
    (lift (place b v)).Sat Answers Exn.IsVerify (Built b) := by
  refine lift_sat (fun e he => ?_) fun b' hb' => ?_
  · unfold place at he
    split at he
    · cases he
    · rcases bind_eq_error.mp he with he | ⟨f, _, he⟩
      · exact Frame.add_error he
      · cases he
  · unfold place at hb'
    split at hb'
    · rename_i hnil
      cases hb'
      refine ⟨⟨?_, ?_⟩, rfl, fun _ => Option.some_ne_none v⟩
      · intro f hf
        rw [hnil] at hf
        cases hf
      · rintro w hw
        cases hw
        exact hv
    · rename_i f rest hstack
      obtain ⟨f', hf', hok⟩ := bind_eq_ok.mp hb'
      cases hok
      have hgood := hb.frames
      rw [hstack, List.forall_mem_cons] at hgood
      refine ⟨⟨?_, hb.root⟩, by simp [hstack], by simp [hstack]⟩
      exact List.forall_mem_cons.mpr ⟨Frame.good_add hgood.1 hv hf', hgood.2⟩

theorem Frame.value_error {f : Frame} {e : Exn} (h : f.value = .error e) : e.IsVerify := by
  unfold Frame.value at h
  split at h
  · exact ⟨_, (Except.error.inj h).symm⟩
  · cases h
  · cases h

theorem pop_sat {b : Builder} (hb : b.Good) {f : Frame} {rest : List Frame}
    (hstack : b.stack = f :: rest) :
    (lift (pop b)).Sat Answers Exn.IsVerify (Built { b with stack := rest }) := by
  have hgood := hb.frames
  rw [hstack, List.forall_mem_cons] at hgood
  have hrest : Builder.Good { b with stack := rest } := ⟨hgood.2, hb.root⟩
  have hclosed : ∀ v, f.value = .ok v → v.DistinctKeys := by
    intro v hv
    unfold Frame.value at hv
    split at hv
    · cases hv
    · cases hv
      exact .dict hgood.1.1 hgood.1.2
    · cases hv
      exact .list hgood.1
  have hpop : pop b = f.value >>= place { b with stack := rest } := by
    unfold pop
    rw [hstack]
  rw [hpop]
  cases hvalue : f.value with
  | error e =>
    refine lift_sat (fun e' he' => ?_) fun _ h => by cases h
    cases he'
    exact Frame.value_error hvalue
  | ok v => exact place_sat hrest (hclosed v hvalue)

theorem refuse_tag_error {tag : Option Str} {e : Exn} (h : refuse_tag tag = .error e) :
    e.IsVerify := by
  unfold refuse_tag at h
  split at h
  · exact ⟨_, (Except.error.inj h).symm⟩
  · cases h

theorem raiseIf_error {p : Prop} [Decidable p] {c : Code} {message : Str} {e : Exn}
    (h : raiseIf p (fail c message) = .error e) : e.IsVerify := by
  obtain ⟨-, rfl⟩ := raiseIf_eq_error.mp h
  exact ⟨_, rfl⟩

theorem raise_sat {α : Type} {Q : α → Prop} (c : Code) (message : Str) :
    (raise (fail c message) : Py α).Sat Answers Exn.IsVerify Q := ⟨_, rfl⟩

theorem integer_sat (text : Text) :
    (integer_within_interval text).Sat Answers Exn.IsVerify Value.DistinctKeys := by
  unfold integer_within_interval
  refine Prog.Sat.bind (Q := fun _ => True) (fun _ _ => trivial) fun n _ => ?_
  by_cases hout : n < canon.MIN_SAFE_INTEGER ∨ canon.MAX_SAFE_INTEGER < n
  · rw [if_pos hout]
    exact raise_sat _ _
  · rw [if_neg hout]
    exact Prog.Sat.pure (.int n)

theorem plain_scalar_sat (text : Str) :
    (plain_scalar text).Sat Answers Exn.IsVerify Value.DistinctKeys := by
  unfold plain_scalar
  by_cases htrue : text = lit "true"
  · rw [if_pos htrue]
    exact Prog.Sat.pure (.bool true)
  rw [if_neg htrue]
  by_cases hfalse : text = lit "false"
  · rw [if_pos hfalse]
    exact Prog.Sat.pure (.bool false)
  rw [if_neg hfalse]
  by_cases hnull : text = lit "null"
  · rw [if_pos hnull]
    exact Prog.Sat.pure .null
  rw [if_neg hnull]
  by_cases hinteger : matchesPattern CANONICAL_INTEGER text = true
  · rw [if_pos hinteger]
    exact integer_sat _
  rw [if_neg hinteger]
  by_cases hreserved : text ∈ RESERVED_BOOLEANS ∨ text ∈ RESERVED_NULLS
  · rw [if_pos hreserved]
    exact raise_sat _ _
  rw [if_neg hreserved]
  by_cases hnumber : matchesPattern RESERVED_INTEGER_NOTATION text = true ∨
      matchesPattern RESERVED_TIMESTAMP text = true
  · rw [if_pos hnumber]
    exact raise_sat _ _
  rw [if_neg hnumber]
  by_cases hfloat : matchesPattern RESERVED_FLOAT text = true
  · rw [if_pos hfloat]
    exact raise_sat _ _
  rw [if_neg hfloat]
  exact Prog.Sat.pure (.str text)

theorem yaml_scalar_value_sat (tag style : Option Str) (value : Str) :
    (yaml_scalar_value tag style value).Sat Answers Exn.IsVerify Value.DistinctKeys := by
  refine Prog.Sat.bind (Q := fun _ => True) (lift_sat (fun _ => refuse_tag_error) fun _ _ => trivial)
    fun _ _ => ?_
  split
  · exact plain_scalar_sat value
  · exact Prog.Sat.pure (.str value)

/-- A collection opens above the ones that are open. -/
theorem push_sat {b : Builder} (hb : b.Good) {f : Frame} (hf : f.Good) :
    (lift (push b f)).Sat Answers Exn.IsVerify
      fun b' => b'.Good ∧ b'.stack.length = b.stack.length + 1 := by
  refine lift_sat (fun e he => ?_) fun b' hb' => ?_
  · unfold push at he
    rcases bind_eq_error.mp he with he | ⟨_, _, he⟩
    · exact raiseIf_error he
    · cases he
  · unfold push at hb'
    obtain ⟨_, -, hok⟩ := bind_eq_ok.mp hb'
    cases hok
    exact ⟨⟨List.forall_mem_cons.mpr ⟨hf, hb.frames⟩, hb.root⟩, rfl⟩

/-- What follows a step follows from what the step leaves. -/
theorem build_cons_sat {Q : Builder → Prop} {b : Builder} {event : Event} {rest : List Event}
    {R : Builder → Prop} (hstep : (step b event).Sat Answers Exn.IsVerify R)
    (hrest : ∀ b', R b' → (build b' rest).Sat Answers Exn.IsVerify Q) :
    (build b (event :: rest)).Sat Answers Exn.IsVerify Q :=
  Prog.Sat.bind hstep hrest

/-- The events of a collection that was opened, then of what follows it. -/
theorem build_collection_sat {Q : Builder → Prop} {b : Builder} {last : Event}
    (hlast : ∀ b', step b' last = lift (pop b')) {nodes : List (List Event)} {rest : List Event}
    (hnodes : ∀ node ∈ nodes, ∀ rest b, b.Good →
      (∀ b', Built b b' → (build b' rest).Sat Answers Exn.IsVerify Q) →
        (build b (node ++ rest)).Sat Answers Exn.IsVerify Q)
    (hrest : ∀ b', Built b b' → (build b' rest).Sat Answers Exn.IsVerify Q) {c : Builder}
    (hc : c.Good) (hdepth : c.stack.length = b.stack.length + 1) :
    (build c (nodes.flatten ++ (last :: rest))).Sat Answers Exn.IsVerify Q := by
  induction nodes generalizing c with
  | nil =>
    obtain ⟨f, tail, hstack⟩ := List.exists_cons_of_length_eq_add_one hdepth
    refine build_cons_sat (hlast c ▸ pop_sat hc hstack) fun b' hb' => hrest b' ?_
    rw [hstack, List.length_cons, Nat.add_right_cancel_iff] at hdepth
    refine ⟨hb'.good, hb'.depth.trans hdepth, fun hnil => hb'.root ?_⟩
    rw [hnil] at hdepth
    exact List.length_eq_zero_iff.mp hdepth
  | cons node nodes ih =>
    rw [List.flatten_cons, List.append_assoc]
    refine hnodes node List.mem_cons_self _ c hc fun c' hc' => ?_
    exact ih (fun n hn => hnodes n (List.mem_cons_of_mem _ hn)) hc'.good
      (hc'.depth.trans hdepth)

/-- A node is built in its place, and then what follows it. -/
theorem build_node_sat {Q : Builder → Prop} {node : List Event} (h : IsNode node)
    (rest : List Event) (b : Builder) (hb : b.Good)
    (hrest : ∀ b', Built b b' → (build b' rest).Sat Answers Exn.IsVerify Q) :
    (build b (node ++ rest)).Sat Answers Exn.IsVerify Q := by
  induction h generalizing rest b with
  | aliased anchor =>
    exact build_cons_sat (R := fun _ => False) (raise_sat _ _) fun _ hf => hf.elim
  | scalar anchor tag style value =>
    refine build_cons_sat ?_ hrest
    refine Prog.Sat.bind (Q := fun _ => True) (lift_sat (fun _ => raiseIf_error) fun _ _ => trivial)
      fun _ _ => ?_
    exact Prog.Sat.bind (yaml_scalar_value_sat tag style value) fun v hv => place_sat hb hv
  | @sequence anchor tag nodes _ ih =>
    rw [List.cons_append, List.append_assoc]
    refine build_cons_sat (R := fun c => c.Good ∧ c.stack.length = b.stack.length + 1) ?_ ?_
    · refine Prog.Sat.bind (Q := fun _ => True) (lift_sat (fun _ => raiseIf_error) fun _ _ => trivial)
        fun _ _ => ?_
      refine Prog.Sat.bind (Q := fun _ => True)
        (lift_sat (fun _ => refuse_tag_error) fun _ _ => trivial) fun _ _ => ?_
      exact push_sat hb (List.forall_mem_nil _)
    · rintro c ⟨hc, hdepth⟩
      exact build_collection_sat (fun _ => rfl) ih hrest hc hdepth
  | @mapping anchor tag nodes _ ih =>
    rw [List.cons_append, List.append_assoc]
    refine build_cons_sat (R := fun c => c.Good ∧ c.stack.length = b.stack.length + 1) ?_ ?_
    · refine Prog.Sat.bind (Q := fun _ => True) (lift_sat (fun _ => raiseIf_error) fun _ _ => trivial)
        fun _ _ => ?_
      refine Prog.Sat.bind (Q := fun _ => True)
        (lift_sat (fun _ => refuse_tag_error) fun _ _ => trivial) fun _ _ => ?_
      exact push_sat hb ⟨List.nodup_nil, List.forall_mem_nil _⟩
    · rintro c ⟨hc, hdepth⟩
      exact build_collection_sat (fun _ => rfl) ih hrest hc hdepth

/-! ## The body of a stream -/

/-- A node holds no other document. -/
theorem IsNode.inside {node : List Event} (h : IsNode node) :
    .document_start ∉ node ∧ .document_end ∉ node := by
  induction h with
  | aliased anchor => simp
  | scalar anchor tag style value => simp
  | sequence anchor tag h ih =>
    simp only [List.mem_cons, List.mem_append, List.mem_flatten, reduceCtorEq, false_or, or_false,
      List.not_mem_nil, not_exists, not_and]
    exact ⟨fun n hn => (ih n hn).1, fun n hn => (ih n hn).2⟩
  | mapping anchor tag h ih =>
    simp only [List.mem_cons, List.mem_append, List.mem_flatten, reduceCtorEq, false_or, or_false,
      List.not_mem_nil, not_exists, not_and]
    exact ⟨fun n hn => (ih n hn).1, fun n hn => (ih n hn).2⟩

theorem count_start {nodes : List (List Event)} (h : ∀ node ∈ nodes, IsNode node) :
    (stream nodes).count .document_start = nodes.length := by
  have hdocuments : ((nodes.map document).flatten).count .document_start = nodes.length := by
    induction nodes with
    | nil => rfl
    | cons node nodes ih =>
      have hnode := (h node List.mem_cons_self).inside.1
      rw [List.map_cons, List.flatten_cons, List.count_append,
        ih fun n hn => h n (List.mem_cons_of_mem _ hn)]
      simp [document, List.count_eq_zero_of_not_mem hnode]
      omega
  simp [stream, hdocuments]

/-- The body of a stream with one document is its node. -/
theorem body_of_stream {node : List Event} (h : IsNode node) :
    body_of (stream [node]) = .ok node := by
  have hcount := @count_start [node] (by simpa using h)
  obtain ⟨hs, he⟩ := h.inside
  have hevents : stream [node] =
      (.stream_start :: .document_start :: node) ++ .document_end :: [.stream_end] := by
    simp [stream, document]
  have hend : (stream [node]).idxOf .document_end = node.length + 2 := by
    rw [hevents, List.idxOf_append_of_notMem (by simp [he])]
    simp
  have hstart : (stream [node]).idxOf .document_start = 1 := by
    rw [hevents]
    rfl
  unfold body_of
  dsimp only
  rw [hcount, raiseIf_neg (by simp), ok_bind, raiseIf_neg (by simp), ok_bind,
    raiseIf_neg (by simp [hevents]), ok_bind, hend, hstart, hevents,
    List.take_left' (by simp)]
  rfl

/-- What is not one document is refused. -/
theorem body_of_error {nodes : List (List Event)} (h : ∀ node ∈ nodes, IsNode node)
    (hn : nodes.length ≠ 1) : ∃ e, body_of (stream nodes) = .error e ∧ e.IsVerify := by
  unfold body_of
  dsimp only
  rw [count_start h]
  by_cases hnone : nodes.length = 0
  · rw [raiseIf_pos hnone]
    exact ⟨_, rfl, _, rfl⟩
  · rw [raiseIf_neg hnone, ok_bind, raiseIf_pos (by omega)]
    exact ⟨_, rfl, _, rfl⟩

/-! ## Loading -/

theorem value_from_yaml_events_sat {nodes : List (List Event)} (h : ∀ node ∈ nodes, IsNode node) :
    (value_from_yaml_events (stream nodes)).Sat Answers Exn.IsVerify Value.DistinctKeys := by
  by_cases hone : nodes.length = 1
  · obtain ⟨node, rfl⟩ := List.length_eq_one_iff.mp hone
    have hnode := h node List.mem_cons_self
    unfold value_from_yaml_events
    rw [body_of_stream hnode]
    refine Prog.Sat.bind (Q := fun body => body = node) (lift_sat (fun _ h => by cases h)
      fun _ h => (Except.ok.inj h).symm) fun body hbody => ?_
    subst hbody
    refine Prog.Sat.bind (Q := fun _ => True) (lift_sat (fun _ => raiseIf_error) fun _ _ => trivial)
      fun _ _ => ?_
    refine Prog.Sat.bind (Q := fun _ => True) (lift_sat (fun _ => raiseIf_error) fun _ _ => trivial)
      fun _ _ => ?_
    have hempty : Builder.Good { stack := [], root := none } := ⟨by simp, by simp⟩
    have hbuild := @build_node_sat (fun b => b.Good) body hnode [] _ hempty fun b' hb' =>
      Prog.Sat.pure hb'.good
    rw [List.append_nil] at hbuild
    refine Prog.Sat.bind hbuild fun b hb => ?_
    split
    · rename_i v _ hroot
      exact Prog.Sat.pure (hb.root v hroot)
    · exact raise_sat _ _
  · obtain ⟨e, he, hv⟩ := body_of_error h hone
    unfold value_from_yaml_events
    rw [he]
    exact hv

/-- Loading raises a typed failure and returns a canonical value; the runtime's
own `ValueError` is the only other exception it can let through. -/
theorem loading_yaml_sat {yaml : Yaml} (hy : yaml.Streams) (data : ByteArray) :
    (loading_yaml yaml data).Sat Answers Exn.IsVerify Value.Canonical := by
  unfold loading_yaml
  refine Prog.Sat.bind (Q := fun _ => True) (lift_sat (fun _ => decode_utf8_error) fun _ _ => trivial)
    fun text _ => ?_
  unfold events_of
  refine Prog.Sat.bind (Q := fun events => yaml text = some events) (lift_sat (fun e he => ?_)
    fun events he => ?_) fun events hevents => ?_
  · split at he
    · cases he
    · exact ⟨_, (Except.error.inj he).symm⟩
  · split at he
    · rename_i h
      rw [h, Except.ok.inj he]
    · cases he
  · obtain ⟨nodes, rfl, hnodes⟩ := hy text events hevents
    refine Prog.Sat.bind (value_from_yaml_events_sat hnodes) fun value hd => ?_
    refine Prog.Sat.bind (Q := fun _ => ∃ t, canon.encode value = .ok t) ?_ fun _ ⟨t, ht⟩ =>
      Prog.Sat.pure (canon.canonical_of_encode hd ht)
    rw [canon.canonicalize_eq_encode]
    exact lift_sat (fun e he => (canon.encode_error value e he).isVerify) fun t ht => ⟨t, ht⟩

/-! ## Canonical integers -/

def DIGITS : List (CodePoint × CodePoint) := [(.scalar '0', .scalar '9')]

theorem compile_canonical_integer : re.compile CANONICAL_INTEGER =
    some (.seq (.rep (.char (.scalar '-')) 0 (some 1))
      (.seq (.alt (.seq (.char (.scalar '0')) .empty)
        (.seq (.set false [(.scalar '1', .scalar '9')])
          (.seq (.rep (.set false DIGITS) 0 none) .empty))) .empty)) := by
  decide +kernel

/-- The digits of a canonical integer: a lone zero, or digits that no zero leads. -/
inductive IsNumeral : Text → Prop where
  | zero : IsNumeral ['0']
  | digits (d : Char) (ds : Text) (hd : re.inRanges [(.scalar '1', .scalar '9')] (.scalar d) = true)
      (hds : ∀ c ∈ ds, re.inRanges DIGITS (.scalar c) = true) : IsNumeral (d :: ds)

theorem IsNumeral.ends {t : Text} (h : IsNumeral t) (i : Nat) :
    (i + t.length, []) ∈ re.ends (.alt (.seq (.char (.scalar '0')) .empty)
        (.seq (.set false [(.scalar '1', .scalar '9')])
          (.seq (.rep (.set false DIGITS) 0 none) .empty))) (i, ofText t) := by
  cases h with
  | zero => simp [re.ends, ofText]
  | digits d ds hd hds =>
    have hstar := @re.mem_ends_star_set DIGITS (ofText ds) (by
      intro c hc
      obtain ⟨ch, hch, rfl⟩ := List.mem_map.mp hc
      exact hds ch hch) [] (i + 1)
    rw [List.append_nil] at hstar
    refine List.mem_append_right _ (re.mem_ends_seq (m := (i + 1, ofText ds)) ?_
      (re.mem_ends_seq hstar ?_))
    · simp [re.ends, ofText, hd]
    · simp [re.ends, ofText, Nat.add_assoc, Nat.add_comm 1]

/-- The pattern matches every numeral, with a sign or without one. -/
theorem matches_numeral {t : Text} (h : IsNumeral t) :
    matchesPattern CANONICAL_INTEGER (ofText t) = true ∧
      matchesPattern CANONICAL_INTEGER (ofText ('-' :: t)) = true := by
  unfold matchesPattern
  refine ⟨?_, ?_⟩
  · rw [re.fullmatch_eq_true (i := 0 + t.length) compile_canonical_integer, decide_eq_true rfl]
    refine re.mem_ends_seq (m := (0, ofText t)) ?_ (re.mem_ends_seq (h.ends 0) ?_)
    · simp [re.ends, re.times, re.upTo]
    · simp [re.ends]
  · rw [re.fullmatch_eq_true (i := 1 + t.length) compile_canonical_integer, decide_eq_true rfl]
    refine re.mem_ends_seq (m := (1, ofText t)) ?_ (re.mem_ends_seq (h.ends 1) ?_)
    · simp [re.ends, re.times, re.upTo, ofText]
    · simp [re.ends]

theorem inRanges_digit {c : Char} (h : c.isDigit = true) :
    re.inRanges DIGITS (.scalar c) = true := by
  simp only [Char.isDigit, Bool.and_eq_true, decide_eq_true_eq, ge_iff_le] at h
  simp only [re.inRanges, DIGITS, List.any_cons, List.any_nil, Bool.or_false, decide_eq_true_eq]
  exact h

theorem inRanges_nonzero {c : Char} (h : c.isDigit = true) (hne : c ≠ '0') :
    re.inRanges [(.scalar '1', .scalar '9')] (.scalar c) = true := by
  simp only [Char.isDigit, Bool.and_eq_true, decide_eq_true_eq, ge_iff_le] at h
  simp only [re.inRanges, List.any_cons, List.any_nil, Bool.or_false, decide_eq_true_eq]
  have hlow : 48 ≤ c.toNat := h.1
  have hzero : c.toNat ≠ 48 := fun heq => hne (Char.toNat_inj.mp heq)
  show 49 ≤ c.toNat ∧ c.toNat ≤ 57
  exact ⟨by omega, h.2⟩

theorem isNumeral_digits (n : Nat) : IsNumeral (Nat.toDigits 10 n) := by
  rcases toDigits_head n with h0 | ⟨c, ds, he, hc, hne⟩
  · rw [h0]
    exact .zero
  · have hall : ∀ d ∈ Nat.toDigits 10 n, d.isDigit = true := fun d hd =>
      Nat.isDigit_of_mem_toDigits (by norm_num) (by norm_num) hd
    rw [he] at hall ⊢
    exact .digits c ds (inRanges_nonzero hc hne) fun d hd =>
      inRanges_digit (hall d (List.mem_cons_of_mem _ hd))

/-- A plain scalar that is a decimal is an integer. -/
theorem plain_scalar_decimal (i : Int) :
    plain_scalar (ofText (decimal i)) = integer_within_interval (decimal i) := by
  obtain ⟨c, s, hcs, -, -, -, -⟩ := startsValue_decimal i
  have hmatch : matchesPattern CANONICAL_INTEGER (ofText (decimal i)) = true := by
    cases i with
    | ofNat n => exact (matches_numeral (isNumeral_digits n)).1
    | negSucc n => exact (matches_numeral (isNumeral_digits (n + 1))).2
  have hword : ∀ d t, decimal i = d :: t → d ≠ 't' ∧ d ≠ 'f' ∧ d ≠ 'n' := by
    intro d t hdt
    cases i with
    | ofNat n =>
      have hd : d ∈ Nat.toDigits 10 n := by
        rw [show Nat.toDigits 10 n = d :: t from hdt]
        exact List.mem_cons_self
      have hdigit := Nat.isDigit_of_mem_toDigits (by norm_num) (by norm_num) hd
      refine ⟨?_, ?_, ?_⟩ <;>
        (rintro rfl; cases hdigit)
    | negSucc n =>
      rw [decimal] at hdt
      obtain ⟨rfl, -⟩ := List.cons.inj hdt
      decide
  obtain ⟨ht, hf, hn⟩ := hword c s hcs
  have hne : ∀ (d : Char) (word : Text), c ≠ d → ofText (decimal i) ≠ ofText (d :: word) := by
    intro d word hd heq
    rw [hcs] at heq
    exact hd (List.cons.inj (ofText_injective heq)).1
  have htrue : ofText (decimal i) ≠ lit "true" := hne 't' "rue".toList ht
  have hfalse : ofText (decimal i) ≠ lit "false" := hne 'f' "alse".toList hf
  have hnull : ofText (decimal i) ≠ lit "null" := hne 'n' "ull".toList hn
  unfold plain_scalar
  rw [if_neg htrue, if_neg hfalse, if_neg hnull, if_pos hmatch, toText?_ofText, Option.getD_some]

end vfy.load
