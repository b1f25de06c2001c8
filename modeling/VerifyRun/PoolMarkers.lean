-- What a reservation of a shared pool writes: the state of the pool, and in the
-- child ledger the marker that ties it to this pool. The marker is written
-- before the last checks are made, so some refusals leave it behind.
import VerifyRun.CommonLaws
import VerifyRun.BudgetSafety

namespace vfy.common_capacity

open python keys outcomes child_ledger entries

/-! ## The pools and the ledgers -/

/-- The directory of a pool: its state, and whether `pending.json` is there. -/
structure Pool where
  state : Envelope Body
  pending : Bool

/-- Every pool by its root, and `common-owner.json` of every child ledger by
the root of the ledger. -/
structure World where
  pools : Str → Pool
  markers : Str → Option ByteArray

def World.publish (w : World) (root : Str) (state : Envelope Body) : World :=
  { w with pools := Function.update w.pools root { state, pending := false } }

def World.mark (w : World) (ledger_root : Str) (marker : ByteArray) : World :=
  { w with markers := Function.update w.markers ledger_root (some marker) }

@[simp] theorem World.publish_markers (w : World) (root : Str) (state : Envelope Body) :
    (w.publish root state).markers = w.markers := rfl

@[simp] theorem World.mark_pools (w : World) (ledger_root : Str) (marker : ByteArray) :
    (w.mark ledger_root marker).pools = w.pools := rfl

@[simp] theorem World.mark_markers (w : World) (ledger_root : Str) (marker : ByteArray) :
    (w.mark ledger_root marker).markers = Function.update w.markers ledger_root (some marker) := rfl

/-- What a call returns or raises, and what it has written by then. -/
abbrev Writing (α : Type) := ExceptT Refusal (StateM World) α

/-- A check, which writes nothing. -/
def checked {α : Type} (x : Checked α) : Writing α := fun w => (x, w)

/-- `locked`: there is no interrupted publication. -/
def locked (O : Owner) : Writing (Envelope Body) := fun w =>
  if (w.pools O.root).pending then
    (.error (.refused "Interrupted pool publication; UNKNOWN, no new dispatch."), w)
  else (.ok (w.pools O.root).state, w)

/-- The record that `_change` signs over a record, which has to fit the file. -/
def sign (O : Owner) (old : Envelope Body) (b : Body) : Checked (Envelope Body) := do
  let next ← envelope O.host { b with revision := b.revision + 1, previous := some old.sha256 }
    O.key O.issuer
  let data ← raw (value next)
  need (data.size ≤ MAX_BYTES)
  pure next

/-- The pending file takes the place of the state. -/
def publish (O : Owner) (next : Envelope Body) : Writing Unit := fun w =>
  (.ok (), w.publish O.root next)

/-- `_change`, with what it writes. -/
def change_in {α : Type} (O : Owner) (fn : Body → Writing (Body × α)) : Writing α := do
  let old ← locked O
  checked (load O old)
  let (b, result) ← fn old.body
  let next ← checked (sign O old b)
  publish O next
  pure result

/-- `if path.exists(): ... else: m.fresh(path, marker)`. -/
def bind_partition (ledger_root : Str) (marker : ByteArray) : Writing Unit := fun w =>
  match w.markers ledger_root with
  | some present => (check_partition marker (some present), w)
  | none => (.ok (), w.mark ledger_root marker)

/-- What `reserve` does to a body once the marker is there. -/
def hold (O : Owner) (binding : Binding) (key : Str) (b : Body) :
    Checked (Body × Envelope Ticket) := do
  -- Changing request bytes or partition store cannot buy a second attempt at same child.
  needOr (∀ e ∈ b.entries, ¬ sameChild e binding) "Child already held/consumed in this pool; no resend."
  let used := usage b
  needOr (used.dispatch_slots + 1 ≤ O.config.dispatch_slots ∧
    used.retained_output_bytes + OUTPUT_HOLD ≤ O.config.retained_output_bytes)
    "Common capacity exhausted; no dispatch."
  let ticket ← envelope O.host (ticketOf binding key) O.key O.issuer
  pure ({ b with entries := b.entries ++ [{ key, binding, ticket, dispatch := none,
                                            settlement := none,
                                            retained_bytes := OUTPUT_HOLD }] }, ticket)

/-- `change` of `reserve`, with what it writes. -/
def reserve_entry_in (O : Owner) (binding : Binding) (key : Str) (b : Body) :
    Writing (Body × Envelope Ticket) := do
  let marker ← checked (marker O binding.ledger_root)
  bind_partition binding.ledger_root marker
  checked (hold O binding key b)

/-- `reserve`, with what it writes. -/
def reserve_in (O : Owner) (ledger : Ledger) (ledger_root : Str) (request_bytes : ByteArray) :
    Writing (Envelope Ticket) := do
  let binding ← checked (bind_request O ledger ledger_root request_bytes)
  let key ← checked (digest (.dict binding.members))
  change_in O (reserve_entry_in O binding key)

/-- The first check of `dispatch_development`: without a common owner it is the
legacy path, which a marked ledger closes. -/
def check_path (common_owner : Option Owner) (ledger_root : Str) (w : World) : Checked Unit :=
  needOr (common_owner.isSome ∨ (w.markers ledger_root).isNone)
    "Common-pool partition requires common dispatch; legacy path refused."

/-! ## What a call writes -/

section Effects

variable {α β : Type}

theorem bind_apply (x : Writing α) (f : α → Writing β) (w : World) :
    (x >>= f) w = match x w with
      | (.ok a, w') => f a w'
      | (.error e, w') => (.error e, w') := by
  show (match x w with | (r, w') => ExceptT.bindCont f r w') = _
  rcases x w with ⟨_ | a, w'⟩ <;> rfl

theorem checked_ok_bind (a : α) (f : α → Writing β) (w : World) :
    (checked (.ok a) >>= f) w = f a w := rfl

theorem checked_error_bind (e : Refusal) (f : α → Writing β) (w : World) :
    (checked (.error e) >>= f) w = (.error e, w) := rfl

theorem locked_bind_pending {O : Owner} {w : World} (h : (w.pools O.root).pending = true)
    (f : Envelope Body → Writing β) : ∃ e, (locked O >>= f) w = (.error e, w) := by
  rw [bind_apply, locked, if_pos h]
  exact ⟨_, rfl⟩

theorem locked_bind_free {O : Owner} {w : World} (h : (w.pools O.root).pending = false)
    (f : Envelope Body → Writing β) : (locked O >>= f) w = f (w.pools O.root).state w := by
  rw [bind_apply, locked, if_neg (by simp [h])]

theorem change_eq_sign (O : Owner) (old : Envelope Body) (fn : Body → Checked (Body × α)) :
    change O old fn = (load O old >>= fun _ => fn old.body >>= fun r =>
      sign O old r.1 >>= fun next => pure (next, r.2)) := by
  simp [change, sign]

/-- A change that only computes publishes what `change` returns, and writes
nothing else. -/
theorem change_in_eq {O : Owner} {w : World} (h : (w.pools O.root).pending = false)
    (fn : Body → Checked (Body × α)) :
    change_in O (fun b => checked (fn b)) w = match change O (w.pools O.root).state fn with
      | .ok (next, a) => (.ok a, w.publish O.root next)
      | .error e => (.error e, w) := by
  rw [change_in, locked_bind_free h, change_eq_sign]
  cases load O (w.pools O.root).state with
  | error e => rfl
  | ok _ =>
    rw [checked_ok_bind, ok_bind]
    cases fn (w.pools O.root).state.body with
    | error e => rfl
    | ok r =>
      rw [checked_ok_bind, ok_bind]
      cases hsign : sign O (w.pools O.root).state r.1 with
      | error e => simp only [hsign]; rfl
      | ok next => simp only [hsign]; rfl

theorem change_in_cases (O : Owner) (w : World) (fn : Body → Checked (Body × α)) :
    (∃ e, change_in O (fun b => checked (fn b)) w = (.error e, w)) ∨
      ∃ next a, change_in O (fun b => checked (fn b)) w = (.ok a, w.publish O.root next) := by
  cases h : (w.pools O.root).pending with
  | true => exact .inl (locked_bind_pending h _)
  | false =>
    rw [change_in_eq h]
    cases change O (w.pools O.root).state fn with
    | error e => exact .inl ⟨e, rfl⟩
    | ok r => exact .inr ⟨r.1, r.2, rfl⟩

end Effects

/-! ## A reservation -/

theorem bind_request_root {O : Owner} {ledger : Ledger} {ledger_root : Str}
    {request_bytes : ByteArray} {binding : Binding}
    (h : bind_request O ledger ledger_root request_bytes = .ok binding) :
    binding.ledger_root = ledger_root := by
  unfold bind_request at h
  iterate 18 obtain ⟨_, -, h⟩ := bind_eq_ok.mp h
  split at h
  · iterate 4 obtain ⟨_, -, h⟩ := bind_eq_ok.mp h
    exact congrArg Binding.ledger_root (pure_eq_ok.mp h).symm
  · cases h

theorem reserve_entry_eq (O : Owner) (binding : Binding) (key : Str) (present : Option ByteArray)
    (b : Body) : reserve_entry O binding key present b =
      (common_capacity.marker O binding.ledger_root >>= fun marker =>
        check_partition marker present >>= fun _ => hold O binding key b) := rfl

/-- What is returned is what `reserve` computes from the marker that is there. -/
theorem reserve_in_returns {O : Owner} {ledger : Ledger} {ledger_root : Str}
    {request_bytes : ByteArray} {w : World} (hfree : (w.pools O.root).pending = false) :
    (reserve_in O ledger ledger_root request_bytes w).1 =
      (reserve O (w.pools O.root).state ledger ledger_root request_bytes
        (w.markers ledger_root)).map Prod.snd := by
  unfold reserve_in reserve
  cases hbound : bind_request O ledger ledger_root request_bytes with
  | error e => rfl
  | ok binding =>
    rw [checked_ok_bind, ok_bind]
    cases digest (.dict binding.members) with
    | error e => rfl
    | ok key =>
      rw [checked_ok_bind, ok_bind, change_in, locked_bind_free hfree, change_eq_sign]
      cases load O (w.pools O.root).state with
      | error e => rfl
      | ok _ =>
        rw [checked_ok_bind, ok_bind, reserve_entry_in, reserve_entry_eq, bind_request_root hbound,
          bind_apply, bind_apply]
        cases common_capacity.marker O ledger_root with
        | error e => rfl
        | ok marker =>
          have hpartition : (bind_partition ledger_root marker w).1 =
              check_partition marker (w.markers ledger_root) := by
            unfold bind_partition
            cases w.markers ledger_root <;> rfl
          dsimp only [checked]
          rw [ok_bind, ← hpartition, bind_apply]
          rcases bind_partition ledger_root marker w with ⟨_ | _, w'⟩
          · rfl
          · dsimp only
            rw [ok_bind]
            cases hold O binding key (w.pools O.root).state.body with
            | error e => rfl
            | ok r =>
              dsimp only [checked]
              rw [ok_bind, bind_apply]
              cases sign O (w.pools O.root).state r.1 <;> rfl

/-- A reservation gets as far as the marker. -/
structure Reaches (O : Owner) (ledger : Ledger) (ledger_root : Str) (request_bytes : ByteArray)
    (w : World) (binding : Binding) (key : Str) (marker : ByteArray) : Prop where
  bound : bind_request O ledger ledger_root request_bytes = .ok binding
  key : digest (.dict binding.members) = .ok key
  free : (w.pools O.root).pending = false
  loaded : load O (w.pools O.root).state = .ok ()
  marker : common_capacity.marker O ledger_root = .ok marker

/-- The pool takes the child: it does not hold it yet, there is room for it, and
the state that holds it fits the file. -/
structure Takes (O : Owner) (old : Envelope Body) (binding : Binding) (key : Str) : Prop where
  fresh : ∀ e ∈ old.body.entries, ¬ sameChild e binding
  slots : (usage old.body).dispatch_slots + 1 ≤ O.config.dispatch_slots
  bytes : (usage old.body).retained_output_bytes + OUTPUT_HOLD ≤ O.config.retained_output_bytes
  fits : ∃ ticket next data, envelope O.host (ticketOf binding key) O.key O.issuer = .ok ticket ∧
    envelope O.host
      ({ old.body with
         entries := old.body.entries ++ [{ key, binding, ticket, dispatch := none, settlement := none,
                                           retained_bytes := OUTPUT_HOLD }]
         revision := old.body.revision + 1
         previous := some old.sha256 } : Body) O.key O.issuer = .ok next ∧
    raw (value next) = .ok data ∧ data.size ≤ MAX_BYTES

/-- What is computed after the marker. -/
def grant (O : Owner) (old : Envelope Body) (binding : Binding) (key : Str) :
    Checked (Envelope Body × Envelope Ticket) :=
  hold O binding key old.body >>= fun r => sign O old r.1 >>= fun next => pure (next, r.2)

theorem grant_iff {O : Owner} {old : Envelope Body} {binding : Binding} {key : Str} :
    (∃ r, grant O old binding key = .ok r) ↔ Takes O old binding key := by
  simp only [grant, hold, sign, bind_eq_ok, exists_unit, needOr_eq_ok, need_eq_ok, pure_eq_ok]
  constructor
  · rintro ⟨_, _, ⟨hfresh, ⟨hslots, hbytes⟩, ticket, hticket, rfl⟩, _,
      ⟨next, hnext, data, hdata, hsize, rfl⟩, -⟩
    exact ⟨hfresh, hslots, hbytes, ticket, next, data, hticket, hnext, hdata, hsize⟩
  · rintro ⟨hfresh, hslots, hbytes, ticket, next, data, hticket, hnext, hdata, hsize⟩
    exact ⟨_, _, ⟨hfresh, ⟨hslots, hbytes⟩, ticket, hticket, rfl⟩, _,
      ⟨next, hnext, data, hdata, hsize, rfl⟩, rfl⟩

section Reservations

variable {O : Owner} {ledger : Ledger} {ledger_root : Str} {request_bytes : ByteArray} {w : World}
  {binding : Binding} {key : Str} {marker : ByteArray}

/-- A refusal before the marker writes nothing. -/
theorem reserve_in_early
    (h : ∀ binding key marker, ¬ Reaches O ledger ledger_root request_bytes w binding key marker) :
    ∃ e, reserve_in O ledger ledger_root request_bytes w = (.error e, w) := by
  unfold reserve_in
  cases hbound : bind_request O ledger ledger_root request_bytes with
  | error e => exact ⟨e, rfl⟩
  | ok binding =>
    rw [checked_ok_bind]
    cases hkey : digest (.dict binding.members) with
    | error e => exact ⟨e, rfl⟩
    | ok key =>
      rw [checked_ok_bind]
      cases hfree : (w.pools O.root).pending with
      | true => exact locked_bind_pending hfree _
      | false =>
        rw [change_in, locked_bind_free hfree]
        cases hload : load O (w.pools O.root).state with
        | error e => exact ⟨e, rfl⟩
        | ok _ =>
          cases hmarker : common_capacity.marker O ledger_root with
          | ok marker => exact absurd ⟨hbound, hkey, hfree, hload, hmarker⟩ (h binding key marker)
          | error e =>
            refine ⟨e, ?_⟩
            rw [checked_ok_bind, reserve_entry_in, bind_request_root hbound, hmarker]
            rfl

/-- From the marker on: the marker is checked or written, and what is granted is
published. -/
theorem reserve_in_marked (h : Reaches O ledger ledger_root request_bytes w binding key marker) :
    reserve_in O ledger ledger_root request_bytes w =
      match bind_partition ledger_root marker w with
      | (.error e, w') => (.error e, w')
      | (.ok _, w') => match grant O (w.pools O.root).state binding key with
        | .error e => (.error e, w')
        | .ok (next, ticket) => (.ok ticket, w'.publish O.root next) := by
  rw [reserve_in, h.bound, checked_ok_bind, h.key, checked_ok_bind, change_in,
    locked_bind_free h.free, h.loaded, checked_ok_bind, reserve_entry_in, bind_request_root h.bound,
    h.marker]
  rw [bind_apply, checked_ok_bind, bind_apply]
  rcases bind_partition ledger_root marker w with ⟨_ | _, w'⟩
  · rfl
  · unfold grant
    cases hold O binding key (w.pools O.root).state.body with
    | error e => rfl
    | ok r =>
      rw [ok_bind]
      show (checked (sign O (w.pools O.root).state r.1) >>= _) w' = _
      cases sign O (w.pools O.root).state r.1 <;> rfl

/-- A ledger that has no marker gets one only from a reservation that the pool
takes. -/
def MarksTaken (O : Owner) (ledger : Ledger) (ledger_root : Str) (request_bytes : ByteArray)
    (w : World) : Prop :=
  w.markers ledger_root = none → ∀ binding key marker,
    Reaches O ledger ledger_root request_bytes w binding key marker →
    Takes O (w.pools O.root).state binding key

/-- A refused call has written nothing. -/
def Unchanged {α : Type} (call : Writing α) (w : World) : Prop :=
  ∀ e, (call w).1 = .error e → (call w).2 = w

theorem mark_ne (h : w.markers ledger_root = none) : w.mark ledger_root marker ≠ w := by
  intro heq
  have hsome : (w.mark ledger_root marker).markers ledger_root = some marker := by simp
  rw [heq, h] at hsome
  cases hsome

/-- A refused reservation writes nothing, exactly where it does not mark a
ledger for a child that the pool does not take. -/
theorem unchanged_iff : Unchanged (reserve_in O ledger ledger_root request_bytes) w ↔
    MarksTaken O ledger ledger_root request_bytes w := by
  constructor
  · intro h hnone binding key marker hreach
    rw [← grant_iff]
    cases hgrant : grant O (w.pools O.root).state binding key with
    | ok r => exact ⟨r, rfl⟩
    | error e =>
      have hcall : reserve_in O ledger ledger_root request_bytes w =
          (.error e, w.mark ledger_root marker) := by
        rw [reserve_in_marked hreach, bind_partition, hnone]
        simp only [hgrant]
      have hsame := h e (by rw [hcall])
      rw [hcall] at hsame
      exact absurd hsame (mark_ne hnone)
  · intro h e he
    by_cases hreach : ∃ binding key marker,
        Reaches O ledger ledger_root request_bytes w binding key marker
    · obtain ⟨binding, key, marker, hreach⟩ := hreach
      rw [reserve_in_marked hreach, bind_partition] at he ⊢
      cases hmarker : w.markers ledger_root with
      | some present =>
        simp only [hmarker] at he ⊢
        cases hcheck : check_partition marker (some present) with
        | error e' => rfl
        | ok _ =>
          simp only [hcheck] at he ⊢
          cases hgrant : grant O (w.pools O.root).state binding key with
          | error e' => rfl
          | ok r => simp [hgrant] at he
      | none =>
        obtain ⟨r, hgrant⟩ := grant_iff.mpr (h hmarker binding key marker hreach)
        simp [hmarker, hgrant] at he
    · simp only [not_exists] at hreach
      obtain ⟨_, hcall⟩ := reserve_in_early hreach
      rw [hcall]

/-- A reservation that is published is marked with the marker of its pool, and no
other marker changes. -/
theorem reserve_in_published {ticket : Envelope Ticket}
    (h : (reserve_in O ledger ledger_root request_bytes w).1 = .ok ticket) :
    ∃ marker, common_capacity.marker O ledger_root = .ok marker ∧
      (reserve_in O ledger ledger_root request_bytes w).2.markers =
        Function.update w.markers ledger_root (some marker) ∧
      (w.markers ledger_root = none ∨ w.markers ledger_root = some marker) := by
  by_cases hreach : ∃ binding key marker,
      Reaches O ledger ledger_root request_bytes w binding key marker
  · obtain ⟨binding, key, marker, hreach⟩ := hreach
    refine ⟨marker, hreach.marker, ?_⟩
    rw [reserve_in_marked hreach, bind_partition] at h ⊢
    cases hmarker : w.markers ledger_root with
    | some present =>
      simp only [hmarker] at h ⊢
      cases hcheck : check_partition marker (some present) with
      | error e => simp [hcheck] at h
      | ok _ =>
        obtain rfl := needOr_eq_ok.mp hcheck
        simp only [hcheck] at h ⊢
        cases hgrant : grant O (w.pools O.root).state binding key with
        | error e => simp [hgrant] at h
        | ok r => simp [← hmarker]
    | none =>
      simp only [hmarker] at h ⊢
      cases hgrant : grant O (w.pools O.root).state binding key with
      | error e => simp [hgrant] at h
      | ok r => simp
  · simp only [not_exists] at hreach
    obtain ⟨_, hcall⟩ := reserve_in_early hreach
    rw [hcall] at h
    cases h

end Reservations

/-! ## Calls over many pools -/

/-- A call of the owner of a pool. -/
inductive Call where
  | reserve (O : Owner) (ledger : Ledger) (ledger_root : Str) (request_bytes : ByteArray)
  | bind_dispatch (O : Owner) (ticket : Envelope Ticket) (reservation binding_record : Envelope Value)
  | settle (O : Owner) (ticket : Envelope Ticket) (result : Result)

/-- What a call does. -/
def Call.perform : Call → Writing Unit
  | .reserve O ledger ledger_root request_bytes => do
    let _ ← reserve_in O ledger ledger_root request_bytes
  | .bind_dispatch O ticket reservation binding_record => do
    let _ ← change_in O fun b => checked (bind_entry O ticket reservation binding_record b)
  | .settle O ticket result => do
    let _ ← change_in O fun b => checked (settle_entry O ticket result b)

/-- The world after a run of calls, each of them returned or refused. -/
def run (w : World) (calls : List Call) : World := calls.foldl (fun w c => (c.perform w).2) w

/-- What holds of each call of a run in the world that it meets. -/
def Along (P : Call → World → Prop) : World → List Call → Prop
  | _, [] => True
  | w, c :: calls => P c w ∧ Along P (c.perform w).2 calls

/-- A call marks a ledger only with a reservation that is taken. -/
def Call.MarksTaken : Call → World → Prop
  | .reserve O ledger ledger_root request_bytes, w =>
    common_capacity.MarksTaken O ledger ledger_root request_bytes w
  | _, _ => True

/-- The reservation that a call publishes: its pool, and the root of the ledger. -/
def Call.published (c : Call) (w : World) : Option (Owner × Str) :=
  match c with
  | .reserve O ledger ledger_root request_bytes =>
    match (reserve_in O ledger ledger_root request_bytes w).1 with
    | .ok _ => some (O, ledger_root)
    | .error _ => none
  | _ => none

/-- The reservations that a run publishes. -/
def published : World → List Call → List (Owner × Str)
  | _, [] => []
  | w, c :: calls => (c.published w).toList ++ published (c.perform w).2 calls

theorem published_one (c : Call) (w : World) : published w [c] = (c.published w).toList := by
  simp [published]

theorem published_of_ok {O : Owner} {ledger : Ledger} {ledger_root : Str} {request_bytes : ByteArray}
    {w : World} {ticket : Envelope Ticket}
    (h : (reserve_in O ledger ledger_root request_bytes w).1 = .ok ticket) :
    (Call.reserve O ledger ledger_root request_bytes).published w = some (O, ledger_root) := by
  simp only [Call.published, h]

theorem discard_apply {α : Type} (x : Writing α) (w : World) :
    (do let _ ← x : Writing Unit) w = match x w with
      | (.ok _, w') => (.ok (), w')
      | (.error e, w') => (.error e, w') := by
  rw [bind_apply]
  rcases x w with ⟨_ | _, _⟩ <;> rfl

theorem discard_unchanged {α : Type} (x : Writing α) (w : World) :
    Unchanged (do let _ ← x : Writing Unit) w ↔ Unchanged x w := by
  unfold Unchanged
  rw [discard_apply]
  rcases x w with ⟨_ | _, _⟩ <;> simp

theorem change_in_unchanged {α : Type} (O : Owner) (fn : Body → Checked (Body × α)) (w : World) :
    Unchanged (change_in O fun b => checked (fn b)) w := by
  intro e he
  rcases change_in_cases O w fn with ⟨_, h⟩ | ⟨_, _, h⟩
  · rw [h]
  · rw [h] at he
    cases he

theorem change_in_markers {α : Type} (O : Owner) (fn : Body → Checked (Body × α)) (w : World) :
    (change_in O (fun b => checked (fn b)) w).2.markers = w.markers := by
  rcases change_in_cases O w fn with ⟨_, h⟩ | ⟨_, _, h⟩
  · rw [h]
  · rw [h]
    rfl

theorem discard_world {α : Type} (x : Writing α) (w : World) :
    ((do let _ ← x : Writing Unit) w).2 = (x w).2 := by
  rw [discard_apply]
  rcases x w with ⟨_ | _, _⟩ <;> rfl

theorem perform_unchanged_iff (c : Call) (w : World) : Unchanged c.perform w ↔ c.MarksTaken w := by
  cases c with
  | reserve O ledger ledger_root request_bytes => exact (discard_unchanged _ w).trans unchanged_iff
  | bind_dispatch O ticket reservation binding_record =>
    exact (discard_unchanged _ w).trans (iff_of_true (change_in_unchanged _ _ w) trivial)
  | settle O ticket result =>
    exact (discard_unchanged _ w).trans (iff_of_true (change_in_unchanged _ _ w) trivial)

/-- What a published reservation has marked. -/
theorem published_marker {c : Call} {w : World} {O : Owner} {root : Str}
    (h : c.published w = some (O, root)) :
    ∃ marker, common_capacity.marker O root = .ok marker ∧
      (c.perform w).2.markers = Function.update w.markers root (some marker) ∧
      (w.markers root = none ∨ w.markers root = some marker) := by
  cases c with
  | reserve O' ledger ledger_root request_bytes =>
    unfold Call.published at h
    dsimp only at h
    split at h
    · rename_i ticket hticket
      obtain ⟨rfl, rfl⟩ := Prod.mk.inj (Option.some.inj h)
      rw [Call.perform, discard_world]
      exact reserve_in_published hticket
    · cases h
  | bind_dispatch O' ticket reservation binding_record => cases h
  | settle O' ticket result => cases h

/-- A call that publishes no reservation leaves the markers. -/
theorem unpublished_markers {c : Call} {w : World} (hc : c.MarksTaken w)
    (h : c.published w = none) : (c.perform w).2.markers = w.markers := by
  cases c with
  | reserve O ledger ledger_root request_bytes =>
    unfold Call.published at h
    dsimp only at h
    split at h
    · cases h
    · rename_i e he
      rw [Call.perform, discard_world, unchanged_iff.mpr hc e he]
  | bind_dispatch O ticket reservation binding_record =>
    rw [Call.perform, discard_world]
    exact change_in_markers _ _ w
  | settle O ticket result =>
    rw [Call.perform, discard_world]
    exact change_in_markers _ _ w

/-- After a call a marker was there before, or is that of a reservation that the
call has published. -/
theorem perform_markers {c : Call} {w : World} (hc : c.MarksTaken w) (root : Str) (m : ByteArray) :
    (c.perform w).2.markers root = some m ↔ w.markers root = some m ∨
      ∃ O, (O, root) ∈ (c.published w).toList ∧ marker O root = .ok m := by
  cases hp : c.published w with
  | none => simp [unpublished_markers hc hp]
  | some p =>
    obtain ⟨O, ledger_root⟩ := p
    obtain ⟨marker, hmarker, hworld, hbefore⟩ := published_marker hp
    rw [hworld]
    by_cases hroot : root = ledger_root
    · subst hroot
      rcases hbefore with hbefore | hbefore <;> simp [hbefore, hmarker]
    · simp [hroot]

theorem run_markers {w : World} {calls : List Call} (h : Along Call.MarksTaken w calls) (root : Str)
    (m : ByteArray) : (run w calls).markers root = some m ↔ w.markers root = some m ∨
      ∃ O, (O, root) ∈ published w calls ∧ marker O root = .ok m := by
  induction calls generalizing w with
  | nil => simp [run, published]
  | cons c calls ih =>
    obtain ⟨hc, hcalls⟩ := h
    rw [run, List.foldl_cons]
    refine (ih hcalls).trans ?_
    rw [perform_markers hc]
    simp only [published, List.mem_append]
    grind

theorem marker_of_published {w : World} {calls : List Call} {O : Owner} {root : Str}
    (h : (O, root) ∈ published w calls) : ∃ marker, common_capacity.marker O root = .ok marker := by
  induction calls generalizing w with
  | nil => simp [published] at h
  | cons c calls ih =>
    rcases List.mem_append.mp h with h | h
    · obtain ⟨marker, hmarker, -⟩ := published_marker (Option.mem_toList.mp h)
      exact ⟨marker, hmarker⟩
    · exact ih h

theorem along_congr {P Q : Call → World → Prop} (h : ∀ c w, P c w ↔ Q c w) (w : World)
    (calls : List Call) : Along P w calls ↔ Along Q w calls := by
  induction calls generalizing w with
  | nil => exact Iff.rfl
  | cons c calls ih => exact and_congr (h c w) (ih _)

/-- In every run over every pool, each refused call has written nothing exactly
where each call marks a ledger only for a child that its pool takes. Then a
ledger is bound to a pool where a reservation for it was published, and the
legacy path of every other ledger is open. -/
theorem refused_reservations_write_nothing_iff (w : World) (calls : List Call) :
    (Along (fun c => Unchanged c.perform) w calls ↔ Along Call.MarksTaken w calls) ∧
      (Along Call.MarksTaken w calls → (∀ root, w.markers root = none) → ∀ root,
        (∀ m, (run w calls).markers root = some m ↔
          ∃ O, (O, root) ∈ published w calls ∧ marker O root = .ok m) ∧
        (check_path none root (run w calls) = .ok () ↔ ∀ O, (O, root) ∉ published w calls)) := by
  refine ⟨along_congr perform_unchanged_iff w calls, fun h hfresh root => ?_⟩
  have hbound : ∀ m, (run w calls).markers root = some m ↔
      ∃ O, (O, root) ∈ published w calls ∧ marker O root = .ok m := by
    intro m
    rw [run_markers h, hfresh]
    simp
  refine ⟨hbound, ?_⟩
  rw [check_path, needOr_eq_ok]
  simp only [Option.isSome_none, Bool.false_eq_true, false_or]
  constructor
  · intro hnone O hmem
    obtain ⟨m, hm⟩ := marker_of_published hmem
    rw [(hbound m).mpr ⟨O, hmem, hm⟩] at hnone
    cases hnone
  · intro hnever
    cases hm : (run w calls).markers root with
    | none => rfl
    | some m =>
      obtain ⟨O, hmem, -⟩ := (hbound m).mp hm
      exact absurd hmem (hnever O)

/-! ## A pool with no room -/

/-- A host with a key for the ledgers and another one for the pools. -/
def twoKeys : Host where
  public_key_hex key := if key.isEmpty then "k" else "p"
  sign _ _ := "s"
  verify _ signature _ := decide (signature = lit "s")
  producer := .dict [("source_sha256", .str zeros)]

/-- The pool signs what can be written. -/
theorem signed_twoKeys {β : Type} [Encoded β] {body : β} (h : (value body).Canonical) :
    ∃ record, envelope twoKeys body [1] "o" = .ok record ∧ (value record).Canonical := by
  refine envelope_canonical h ?_ ?_ ?_ _
  · simp [twoKeys, zeros, Distinct]
  · exact fun _ _ => encodable_lit _
  · exact encodable_lit _

def poolConfig (slots : Nat) : Value := .dict
  [("capacities", .dict [("dispatch_slots", .int slots), ("retained_output_bytes", .int 262144)]),
   ("owner_issuer", .str "o"), ("pool_id", .str "pool"), ("schema", .str PROFILE),
   ("scope", .str "REVIEWED_LOCAL_VERIFIER_ONLY")]

/-- The owner of a pool of some dispatch slots. -/
def smallPool (slots : Nat) : Owner where
  root := "/pool"
  host := twoKeys
  key := [1]
  issuer := "o"
  trust := [("o", { public_key_hex := "p", producer_identity := twoKeys.producer })]
  config_bytes := bytesOf (poolConfig slots)
  config := { pool_id := "pool", owner_issuer := "o", dispatch_slots := slots,
              retained_output_bytes := 262144 }
  child_trust := smallLedger.trust
  observer := .null
  owner_profile := .null

section SmallPool

variable {slots : Nat}

theorem canonical_poolConfig (h : slots ≤ 2 ^ 10) : (poolConfig slots).Canonical := by
  simp [poolConfig, PROFILE, Distinct, Value.SafeInteger]
  omega

/-- A pool may have few dispatch slots, or none. -/
theorem init_smallPool (h : slots ≤ 2 ^ 10) : init "/pool" twoKeys [1] "o" (smallPool slots).trust
    (smallPool slots).config_bytes smallLedger.trust .null .null = .ok (smallPool slots) := by
  have hcanonical := canonical_poolConfig h
  have hload : load.load_json_bytes (smallPool slots).config_bytes = .ok (poolConfig slots) := by
    rw [show (smallPool slots).config_bytes = bytesOf (poolConfig slots) from rfl,
      load.load_canonical_bytes hcanonical (bytesOf_eq hcanonical), if_pos]
    · rfl
    · simp [poolConfig, Value.depth, Value.depthMembers]
  have hslots : integerOf (.int slots) = .ok slots := by
    have hsmall : (0 : Int) ≤ slots ∧ integer (slots : Int).toNat := by
      unfold integer canon.MAX_SAFE_INTEGER
      omega
    exact seq_eq_ok.mpr ⟨need_eq_ok.mpr hsmall, rfl⟩
  have hconfig : read_config (smallPool slots).config_bytes "o" = .ok (smallPool slots).config := by
    refine bind_eq_ok.mpr ⟨_, lift_eq_ok.mpr hload, bind_eq_ok.mpr ⟨_, needKeys_eq_ok.mpr ⟨rfl, rfl⟩, ?_⟩⟩
    refine bind_eq_ok.mpr ⟨.str PROFILE, item_of_get rfl, bind_eq_ok.mpr ⟨.str "o", item_of_get rfl, ?_⟩⟩
    refine bind_eq_ok.mpr ⟨.str "pool", item_of_get rfl, bind_eq_ok.mpr ⟨lit "pool", rfl, ?_⟩⟩
    refine bind_eq_ok.mpr ⟨.str "REVIEWED_LOCAL_VERIFIER_ONLY", item_of_get rfl, ?_⟩
    refine seq_eq_ok.mpr ⟨need_eq_ok.mpr (by simp), bind_eq_ok.mpr ⟨_, item_of_get rfl, ?_⟩⟩
    refine bind_eq_ok.mpr ⟨_, needKeys_eq_ok.mpr ⟨rfl, rfl⟩, bind_eq_ok.mpr ⟨_, item_of_get rfl, ?_⟩⟩
    refine bind_eq_ok.mpr ⟨slots, hslots, bind_eq_ok.mpr ⟨_, item_of_get rfl, ?_⟩⟩
    exact bind_eq_ok.mpr ⟨262144, rfl, rfl⟩
  have hproducer : python.eq twoKeys.producer twoKeys.producer = true :=
    eq_same (by simp [twoKeys, Distinct])
  unfold init
  dsimp only
  rw [show (smallPool slots).trust.lookup (lit "o") = some _ from rfl]
  dsimp only
  rw [need_eq_ok.mpr ⟨rfl, hproducer⟩, ok_bind, needOr_eq_ok.mpr (by decide), ok_bind, hconfig, ok_bind]
  rfl

/-- The record of the new pool, with its digest. -/
def emptyRecord (slots : Nat) (sha256 : Str) : Envelope Body where
  issuer_identity := "o"
  producer_identity := twoKeys.producer
  body := { pool_root := "/pool", config_sha256 := sha (smallPool slots).config_bytes,
            owner_profile := .null, observer := .null, revision := 0, previous := none, entries := [] }
  signature := "s"
  sha256 := sha256

theorem create_smallPool : ∃ created, create (smallPool slots) = .ok created := by
  have hbody : (value (emptyRecord slots []).body).Canonical := by
    simp [value, emptyRecord, STATE, encodable_sha, Distinct, Value.SafeInteger]
  obtain ⟨record, hrecord, -⟩ := signed_twoKeys hbody
  exact ⟨record, hrecord⟩

theorem create_shape {created : Envelope Body} (h : create (smallPool slots) = .ok created) :
    ∃ b, created = emptyRecord slots (sha b) := by
  obtain ⟨_, b, rfl⟩ := envelope_shape h
  exact ⟨b, rfl⟩

theorem canonical_emptyRecord (b : ByteArray) : (value (emptyRecord slots (sha b))).Canonical := by
  simp [value, emptyRecord, STATE, Envelope.unsigned, Envelope.message, twoKeys, zeros,
    encodable_sha, Distinct, Value.SafeInteger]

theorem read_emptyRecord (b : ByteArray) : read_record (emptyRecord slots (sha b)) = .ok () := by
  refine read_small (canonical_emptyRecord b) ?_ ?_
  · simp [value, emptyRecord, STATE, Envelope.unsigned, Envelope.message, twoKeys, zeros,
      canon.textRoom, canon.textRoomMembers, canon.textRoomItems]
    decide
  · simp [value, emptyRecord, Envelope.unsigned, Envelope.message, twoKeys, Value.depth,
      Value.depthMembers, Value.depthItems]

/-- The state of the new pool is read back. -/
theorem load_smallPool {created : Envelope Body} (h : create (smallPool slots) = .ok created) :
    load (smallPool slots) created = .ok () := by
  have hauthenticate : authenticate twoKeys created (smallPool slots).trust = .ok created.body := by
    rw [envelope_eq_ok h]
    refine authenticate_envelope h rfl ?_ ?_ rfl
    · decide
    · exact fun bytes => rfl
  obtain ⟨b, rfl⟩ := create_shape h
  have hnull : python.eq .null .null = true := eq_same .null
  refine seq_eq_ok.mpr ⟨read_emptyRecord b, seq_eq_ok.mpr ⟨need_eq_ok.mpr rfl, ?_⟩⟩
  refine bind_eq_ok.mpr ⟨_, hauthenticate, ?_⟩
  refine seq_eq_ok.mpr ⟨need_eq_ok.mpr ⟨rfl, rfl⟩, seq_eq_ok.mpr ⟨need_eq_ok.mpr ⟨hnull, hnull⟩, ?_⟩⟩
  have hwithin : (usage (emptyRecord slots (sha b)).body).within (smallPool slots).config.capacities :=
    ⟨Nat.zero_le _, Nat.zero_le _, by simp [usage]⟩
  show (need (0 = 0) >>= fun _ =>
    need ((usage (emptyRecord slots (sha b)).body).within (smallPool slots).config.capacities)) = _
  rw [need_eq_ok.mpr rfl, ok_bind]
  exact need_eq_ok.mpr hwithin

/-- A request for the child of the small ledger, before its identity. -/
def smallUnsigned : List (Str × Value) :=
  [("attempt_id", .str "a"), ("authority_granted", .bool false), ("automatic_retry", .bool false),
   ("child_id", .str "c"), ("input_sha256", .str zeros), ("operation_id", .str "o"),
   ("parent_start", .dict [("sha256", .str (sha (bytesOf smallStart)))]),
   ("schema", .str "engineer.child-dispatch-request/1"), ("task_identity", smallIdentity),
   ("task_key", .str "t")]

def smallRequest : Value := .dict
  (smallUnsigned.insertIdx 4 (lit "identity_sha256", .str (sha (bytesOf (.dict smallUnsigned)))))

theorem canonical_smallUnsigned : (Value.dict smallUnsigned).Canonical := by
  simp [smallUnsigned, smallIdentity, zeros, encodable_sha, Distinct]

theorem canonical_smallRequest : smallRequest.Canonical := by
  simp [smallRequest, smallUnsigned, smallIdentity, zeros, encodable_sha, Distinct]

theorem load_smallRequest : load.load_json_bytes (bytesOf smallRequest) = .ok smallRequest := by
  rw [load.load_canonical_bytes canonical_smallRequest (bytesOf_eq canonical_smallRequest), if_pos]
  · rfl
  · simp [smallRequest, smallUnsigned, smallIdentity, Value.depth, Value.depthMembers]

def smallBinding (slots : Nat) : Binding where
  pool_id := "pool"
  config_sha256 := sha (smallPool slots).config_bytes
  pool_root := "/pool"
  task_key := "t"
  task_identity := smallIdentity
  parent_start_sha256 := sha (bytesOf smallStart)
  parent_operation_id := "o"
  parent_attempt_id := "a"
  child_id := "c"
  request_identity := sha (bytesOf (.dict smallUnsigned))
  request_sha256 := sha (bytesOf smallRequest)
  child_trust := smallLedger.trust
  input_sha256 := .str zeros
  ledger_root := "/ledger"
  budget_sha256 := sha (bytesOf smallBudget)
  observer := .null

/-- The request of the small ledger is bound to the pool. -/
theorem bind_smallRequest :
    bind_request (smallPool slots) smallLedger "/ledger" (bytesOf smallRequest) =
      .ok (smallBinding slots) := by
  have hget : ∀ (k : Str) (v : Value), smallRequest.get? k = some v → item smallRequest k = .ok v :=
    fun k v h => by rw [item, getItem_eq_ok.mpr h]; rfl
  have hidentity : python.eq smallIdentity smallIdentity = true :=
    eq_same (by simp [smallIdentity, Distinct])
  have htrust : python.eq (trustValue smallLedger.trust)
      (trustValue (smallPool slots).child_trust) = true := by
    show python.eq (trustValue smallLedger.trust) (trustValue smallLedger.trust) = true
    decide
  have hstart : item (.dict [("sha256", .str (sha (bytesOf smallStart)))]) "sha256" =
      .ok (.str (sha (bytesOf smallStart))) := rfl
  have hdumps : dumps (.dict smallUnsigned) = .ok (bytesOf (.dict smallUnsigned)) :=
    lift_eq_ok.mpr (bytesOf_eq canonical_smallUnsigned)
  unfold bind_request
  rw [load_smallRequest, lift_ok, ok_bind, smallStart_bound, ok_bind,
    hget "schema" (.str "engineer.child-dispatch-request/1") rfl, ok_bind,
    hget "authority_granted" (.bool false) rfl, ok_bind, hget "automatic_retry" (.bool false) rfl,
    ok_bind, need_eq_ok.mpr (by decide), ok_bind, hget "task_key" (.str "t") rfl, ok_bind,
    hget "task_identity" smallIdentity rfl, ok_bind, hget "operation_id" (.str "o") rfl, ok_bind,
    hget "attempt_id" (.str "a") rfl, ok_bind, need_eq_ok.mpr ⟨rfl, hidentity, rfl, rfl⟩, ok_bind,
    hget "parent_start" (.dict [("sha256", .str (sha (bytesOf smallStart)))]) rfl, ok_bind, hstart,
    ok_bind, hget "child_id" (.str "c") rfl, ok_bind, stringOf]
  have hchild : isStr (.str (sha (bytesOf smallStart))) (sha smallLedger.start_bytes) = true ∧
      lit "c" ∈ smallBound.expected_child_ids := ⟨by simp [smallLedger], by decide⟩
  refine bind_eq_ok.mpr ⟨lit "c", rfl, seq_eq_ok.mpr ⟨need_eq_ok.mpr hchild, ?_⟩⟩
  rw [hget "identity_sha256" (.str (sha (bytesOf (.dict smallUnsigned)))) rfl, ok_bind]
  refine bind_eq_ok.mpr ⟨sha (bytesOf (.dict smallUnsigned)), rfl, ?_⟩
  refine bind_eq_ok.mpr ⟨bytesOf (.dict smallUnsigned), hdumps, seq_eq_ok.mpr ⟨need_eq_ok.mpr rfl, ?_⟩⟩
  rw [needOr_eq_ok.mpr htrust, ok_bind, hget "input_sha256" (.str zeros) rfl]
  rfl

theorem canonical_smallBinding : (Value.dict (smallBinding slots).members).Canonical := by
  simp [smallBinding, Binding.members, smallIdentity, smallLedger, smallHost, trustValue, zeros,
    encodable_sha, Distinct]

/-- What the pool signs in the small ledger. -/
def smallMark (slots : Nat) : Value := .dict
  [("schema", .str "vfy.common-owner-binding/1"), ("pool_root", .str "/pool"),
   ("config_sha256", .str (sha (smallPool slots).config_bytes)), ("owner_issuer", .str "o"),
   ("ledger_root", .str "/ledger"), ("authority_granted", .bool false),
   ("automatic_retry", .bool false)]

theorem marker_smallPool :
    ∃ marker, common_capacity.marker (smallPool slots) "/ledger" = .ok marker := by
  have hmark : (value (smallMark slots)).Canonical := by
    simp [smallMark, value, encodable_sha, Distinct]
  obtain ⟨record, hrecord, hcanonical⟩ := signed_twoKeys hmark
  obtain ⟨b, hb⟩ := raw_of_canonical hcanonical
  exact ⟨b, bind_eq_ok.mpr ⟨record, hrecord, hb⟩⟩

theorem key_smallBinding :
    ∃ key, digest (.dict (smallBinding slots).members) = .ok (sha key) := by
  obtain ⟨b, hb⟩ := raw_of_canonical (@canonical_smallBinding slots)
  exact ⟨b, by rw [digest, hb]; rfl⟩

/-- What the pool signs is not large, either. -/
theorem small_owned {β : Type} [Encoded β] {body : β} {record : Envelope β} {room depth : Nat}
    (h : Small (value body) room (depth + 1)) (hrecord : envelope twoKeys body [1] "o" = .ok record) :
    Small (value record) (room + 2 ^ 12) (depth + 2) := by
  refine small_signed h ⟨?_, ?_, ?_⟩ (fun _ => rfl) hrecord
  · simp [twoKeys, zeros, Distinct]
  · decide
  · simp [twoKeys, Value.depth, Value.depthMembers]

theorem authenticate_owned {β : Type} [Encoded β] {body : β} {record : Envelope β}
    (h : envelope twoKeys body [1] "o" = .ok record)
    (hauthority : getMethod (value body) "authority_granted" = .ok (some (.bool false))) :
    authenticate twoKeys record (smallPool slots).trust = .ok body :=
  authenticate_envelope h rfl (eq_same (by simp [twoKeys, Distinct])) (fun _ => rfl) hauthority

/-- The pool has signed the ticket of the child of the small ledger. -/
abbrev Ticketed (slots : Nat) (key : ByteArray) (ticket : Envelope Ticket) : Prop :=
  envelope twoKeys (ticketOf (smallBinding slots) (sha key)) [1] "o" = .ok ticket

/-- The entry of the child. -/
def heldEntry (slots : Nat) (key : ByteArray) (ticket : Envelope Ticket) (dispatch : Option Dispatch) :
    Entry where
  key := sha key
  binding := smallBinding slots
  ticket := ticket
  dispatch := dispatch
  settlement := none
  retained_bytes := OUTPUT_HOLD

/-- The body of the pool that holds the child. -/
def heldBody (slots revision : Nat) (previous : Str) (e : Entry) : Body :=
  { (emptyRecord slots previous).body with entries := [e], revision := revision, previous := some previous }

theorem small_binding : Small (.dict (smallBinding slots).members) (2 ^ 14) 4 := by
  refine ⟨canonical_smallBinding, ?_, ?_⟩
  · simp [smallBinding, Binding.members, smallIdentity, smallLedger, smallHost, trustValue, zeros,
      canon.textRoom, canon.textRoomMembers]
    decide
  · simp [smallBinding, Binding.members, smallIdentity, smallLedger, smallHost, trustValue, Value.depth,
      Value.depthMembers]

theorem small_ticket (key : ByteArray) :
    Small (value (ticketOf (smallBinding slots) (sha key))) (2 ^ 15) 4 := by
  have htail : Small (.dict [("schema", .str RESERVATION), ("reservation_id", .str (sha key)),
      ("retained_output_bytes", .int OUTPUT_HOLD), ("dispatch_slots", .int 1),
      ("authority_granted", .bool false), ("automatic_retry", .bool false)]) (2 ^ 12) 4 := by
    refine ⟨?_, ?_, ?_⟩
    · simp [RESERVATION, OUTPUT_HOLD, encodable_sha, Distinct, Value.SafeInteger]
    · simp [RESERVATION, canon.textRoom, canon.textRoomMembers]
      decide
    · simp [Value.depth, Value.depthMembers]
  have hall := (@small_binding slots).append htail (by simp [Binding.members])
  exact hall.mono (by decide) le_rfl

theorem small_entry {key : ByteArray} {ticket : Envelope Ticket} (ht : Ticketed slots key ticket)
    {dispatch : Option Dispatch} {room : Nat}
    (hdispatch : Small ((dispatch.map Dispatch.value).getD .null) room 5) :
    Small (heldEntry slots key ticket dispatch).value (room + 2 ^ 17) 6 := by
  have hkey : Small (.dict [("key", .str (sha key))]) (2 ^ 10) 6 := by
    refine ⟨?_, ?_, ?_⟩
    · simp [encodable_sha, Distinct]
    · simp [canon.textRoom, canon.textRoomMembers]
      decide
    · simp [Value.depth, Value.depthMembers]
  have htail : Small (.dict [("settlement", .null), ("retained_bytes", .int OUTPUT_HOLD)]) (2 ^ 10) 6 := by
    refine ⟨?_, ?_, ?_⟩
    · simp [OUTPUT_HOLD, Distinct, Value.SafeInteger]
    · decide
    · simp [Value.depth, Value.depthMembers]
  have hbinding := (@small_binding slots).mono le_rfl (by decide : 4 ≤ 5)
  have hticket : Small (value ticket) (2 ^ 15 + 2 ^ 12) 5 := small_owned (small_ticket key) ht
  have hheld := (hbinding.member "binding" (by decide)).append (hticket.member "ticket" (by decide))
    (by simp)
  have hall := ((hkey.append hheld (by simp)).append (hdispatch.member "dispatch" (by decide))
    (by simp)).append htail (by simp)
  exact hall.mono (by omega) le_rfl

theorem small_heldBody {e : Entry} {room revision : Nat} {b : ByteArray} (hrevision : revision ≤ 2 ^ 10)
    (he : Small e.value room 6) :
    Small (value (heldBody slots revision (sha b) e)) (room + 2 ^ 14) 8 := by
  have hhead : Small (.dict [("schema", .str STATE), ("pool_root", .str "/pool"),
      ("config_sha256", .str (sha (smallPool slots).config_bytes)), ("owner_profile", .null),
      ("observer", .null), ("revision", .int revision), ("previous", .str (sha b))]) (2 ^ 12) 8 := by
    refine ⟨?_, ?_, ?_⟩
    · simp [STATE, encodable_sha, Distinct, Value.SafeInteger]
      omega
    · simp [STATE, canon.textRoom, canon.textRoomMembers]
      decide
    · simp [Value.depth, Value.depthMembers]
  have hentries : Small (.list [e.value]) (room + 3) 7 := by
    refine ⟨by simp [he.canonical], ?_, ?_⟩
    · have hroom := he.room
      simp only [canon.textRoom, canon.textRoomItems]
      omega
    · rw [Value.depth_list_le]
      simpa using he.depth
  have htail : Small (.dict [("authority_granted", .bool false), ("automatic_retry", .bool false)])
      (2 ^ 10) 8 :=
    ⟨by simp [Distinct], by decide, by simp [Value.depth, Value.depthMembers]⟩
  have hall := (hhead.append (hentries.member "entries" (by decide)) (by simp)).append htail (by simp)
  exact hall.mono (by omega) le_rfl

/-- A state that the pool signs, writes and can read again. -/
structure Issued (body : Body) (record : Envelope Body) : Prop where
  signed : envelope twoKeys body [1] "o" = .ok record
  canonical : (value record).Canonical
  fits : ∃ data, raw (value record) = .ok data ∧ data.size ≤ MAX_BYTES
  read : read_record record = .ok ()

/-- A state with an entry that is not large fits the file. -/
theorem issued_heldBody {e : Entry} {revision : Nat} {b : ByteArray} (hrevision : revision ≤ 2 ^ 10)
    (he : Small e.value (2 ^ 18) 6) : ∃ next, Issued (heldBody slots revision (sha b) e) next := by
  have hsmall : Small (value (heldBody slots revision (sha b) e)) (2 ^ 19) 8 :=
    (small_heldBody hrevision he).mono (by decide) le_rfl
  obtain ⟨next, hnext, hcanonical⟩ := signed_twoKeys hsmall.canonical
  have hlarge := small_owned hsmall hnext
  obtain ⟨data, hdata⟩ := raw_of_canonical hcanonical
  have hsize : data.size ≤ MAX_BYTES := by
    have hroom := hlarge.room
    have hbound := size_raw hdata
    unfold MAX_BYTES
    omega
  refine ⟨next, hnext, hcanonical, ⟨data, hdata, hsize⟩, ?_⟩
  exact read_small hcanonical (hlarge.room.trans (by decide)) (hlarge.depth.trans (by decide))

/-- What the pool issues when it takes the child. -/
theorem issued_small {created : Envelope Body} (h : create (smallPool slots) = .ok created)
    (key : ByteArray) : ∃ ticket next, Ticketed slots key ticket ∧
      Issued (heldBody slots 1 created.sha256 (heldEntry slots key ticket none)) next := by
  obtain ⟨ticket, hticket, -⟩ := signed_twoKeys (@small_ticket slots key).canonical
  obtain ⟨b, rfl⟩ := create_shape h
  have hentry := small_entry hticket (show Small ((none.map Dispatch.value).getD .null) 4 5 from
    small_null.mono le_rfl (by decide))
  obtain ⟨next, hnext⟩ := @issued_heldBody slots _ 1 b (by decide) (hentry.mono (by decide) le_rfl)
  exact ⟨ticket, next, hticket, hnext⟩

/-- The pool takes the child of the small ledger, where it has a slot. -/
theorem takes_small {created : Envelope Body} (h : create (smallPool (slots + 1)) = .ok created)
    (key : ByteArray) :
    Takes (smallPool (slots + 1)) created (smallBinding (slots + 1)) (sha key) := by
  obtain ⟨ticket, next, hticket, hnext⟩ := issued_small h key
  obtain ⟨data, hdata, hsize⟩ := hnext.fits
  have hsigned := hnext.signed
  obtain ⟨b, rfl⟩ := create_shape h
  have hused : usage (emptyRecord (slots + 1) (sha b)).body = ⟨0, 0, none⟩ := rfl
  have hslots : (smallPool (slots + 1)).config.dispatch_slots = slots + 1 := rfl
  have hbytes : (smallPool (slots + 1)).config.retained_output_bytes = OUTPUT_HOLD := rfl
  exact ⟨by simp [emptyRecord], by simp [hused, hslots], by simp [hused, hbytes], ticket, next, data,
    hticket, hsigned, hdata, hsize⟩

theorem ticketOf_authority (key : Str) :
    getMethod (value (ticketOf (smallBinding slots) key)) "authority_granted" =
      .ok (some (.bool false)) := by
  simp [value, getMethod, Binding.members, lookup_lit_ne]

/-- The entry of the child passes the reader. -/
theorem check_held {key : ByteArray} {ticket : Envelope Ticket}
    (hkey : digest (.dict (smallBinding slots).members) = .ok (sha key)) (ht : Ticketed slots key ticket) :
    check_entry (smallPool slots) "p" ⟨[], [], 0⟩ (heldEntry slots key ticket none) =
      .ok ⟨[sha key], [(smallBinding slots).logical_key], 1⟩ := by
  have hissuer : ticket.issuer_identity = lit "o" := by
    obtain ⟨_, b, rfl⟩ := envelope_shape ht
    rfl
  have hsame : python.eq (value (ticketOf (smallBinding slots) (sha key)))
      (value (ticketOf (smallBinding slots) (sha key))) = true :=
    eq_same (small_ticket key).canonical.distinctKeys
  have hindependent : independent smallLedger.trust (lit "p") := by decide
  refine seq_eq_ok.mpr ⟨need_eq_ok.mpr (by simp), seq_eq_ok.mpr ⟨need_eq_ok.mpr (by simp), ?_⟩⟩
  refine bind_eq_ok.mpr ⟨_, hkey, seq_eq_ok.mpr ⟨need_eq_ok.mpr rfl, ?_⟩⟩
  refine seq_eq_ok.mpr ⟨need_eq_ok.mpr hindependent, seq_eq_ok.mpr ⟨need_eq_ok.mpr hissuer, ?_⟩⟩
  refine bind_eq_ok.mpr ⟨_, authenticate_owned ht (ticketOf_authority _), ?_⟩
  refine seq_eq_ok.mpr ⟨need_eq_ok.mpr hsame, ?_⟩
  refine seq_eq_ok.mpr ⟨need_eq_ok.mpr ⟨(by decide : integer OUTPUT_HOLD), le_refl _⟩, ?_⟩
  exact seq_eq_ok.mpr ⟨need_eq_ok.mpr rfl, rfl⟩

/-- The pool that holds the child is read back. -/
theorem load_held {key : ByteArray} {ticket : Envelope Ticket} {previous : Str} {record : Envelope Body}
    (hkey : digest (.dict (smallBinding (slots + 1)).members) = .ok (sha key))
    (ht : Ticketed (slots + 1) key ticket)
    (h : Issued (heldBody (slots + 1) 1 previous (heldEntry (slots + 1) key ticket none)) record) :
    load (smallPool (slots + 1)) record = .ok () := by
  have hauthority : getMethod (value (heldBody (slots + 1) 1 previous
      (heldEntry (slots + 1) key ticket none))) "authority_granted" = .ok (some (.bool false)) := by
    simp [value, getMethod, lookup_lit_ne]
  have hnull : python.eq .null .null = true := eq_same .null
  have hissuer : record.issuer_identity = lit "o" := by
    obtain ⟨_, b, rfl⟩ := envelope_shape h.signed
    rfl
  have hwithin : (usage (heldBody (slots + 1) 1 previous (heldEntry (slots + 1) key ticket none))).within
      (smallPool (slots + 1)).config.capacities := by
    refine ⟨?_, ?_, ?_⟩
    · exact Nat.le_add_left 1 slots
    · exact le_refl _
    · simp [usage]
  refine seq_eq_ok.mpr ⟨h.read, seq_eq_ok.mpr ⟨need_eq_ok.mpr hissuer, ?_⟩⟩
  refine bind_eq_ok.mpr ⟨_, authenticate_owned h.signed hauthority, ?_⟩
  refine seq_eq_ok.mpr ⟨need_eq_ok.mpr ⟨rfl, rfl⟩, seq_eq_ok.mpr ⟨need_eq_ok.mpr ⟨hnull, hnull⟩, ?_⟩⟩
  show ([heldEntry (slots + 1) key ticket none].foldlM (check_entry (smallPool (slots + 1)) "p")
    ⟨[], [], 0⟩ >>= fun seen => need (1 = seen.event_count) >>= fun _ => need _) = _
  rw [List.foldlM_cons, check_held hkey ht, ok_bind, List.foldlM_nil, pure_bind]
  exact seq_eq_ok.mpr ⟨need_eq_ok.mpr rfl, need_eq_ok.mpr hwithin⟩

/-- A state that holds the child with this ticket, and that the pool reads. -/
structure Held (slots : Nat) (ticket : Envelope Ticket) (record : Envelope Body) : Prop where
  issued : ∃ key previous, Ticketed (slots + 1) key ticket ∧
    Issued (heldBody (slots + 1) 1 previous (heldEntry (slots + 1) key ticket none)) record
  loaded : load (smallPool (slots + 1)) record = .ok ()

/-- The new pool grants the child a ticket. -/
theorem grant_small {created : Envelope Body} (h : create (smallPool (slots + 1)) = .ok created)
    {key : ByteArray} (hkey : digest (.dict (smallBinding (slots + 1)).members) = .ok (sha key)) :
    ∃ next ticket, grant (smallPool (slots + 1)) created (smallBinding (slots + 1)) (sha key) =
      .ok (next, ticket) ∧ Held slots ticket next := by
  obtain ⟨ticket, next, hticket, hnext⟩ := issued_small h key
  obtain ⟨data, hdata, hsize⟩ := hnext.fits
  have hsigned := hnext.signed
  have htakes := takes_small h key
  refine ⟨next, ticket, ?_, ⟨key, _, hticket, hnext⟩, load_held hkey hticket hnext⟩
  obtain ⟨b, rfl⟩ := create_shape h
  simp only [grant, hold, sign, bind_eq_ok, exists_unit, needOr_eq_ok, need_eq_ok, pure_eq_ok]
  exact ⟨_, ⟨htakes.fresh, ⟨htakes.slots, htakes.bytes⟩, ticket, hticket, rfl⟩, next,
    ⟨next, hsigned, data, hdata, hsize, rfl⟩, rfl⟩

/-- The pool grants the child nothing more. -/
theorem grant_held {ticket : Envelope Ticket} {record : Envelope Body} (h : Held slots ticket record)
    (key : Str) : grant (smallPool (slots + 1)) record (smallBinding (slots + 1)) key =
      .error (.refused "Child already held/consumed in this pool; no resend.") := by
  obtain ⟨_, _, -, hissued⟩ := h.issued
  have hheld : ¬ ∀ e ∈ record.body.entries, ¬ sameChild e (smallBinding (slots + 1)) := by
    rw [envelope_eq_ok hissued.signed]
    exact fun hnone => hnone _ (List.mem_singleton.mpr rfl) (.inl ⟨rfl, rfl⟩)
  rw [grant, hold, needOr, raiseIf, if_pos hheld]
  rfl

end SmallPool

/-- A world of one new pool, and no marker. -/
def freshWorld (created : Envelope Body) : World where
  pools _ := { state := created, pending := false }
  markers _ := none

/-- A reservation that is refused for want of capacity binds the ledger to the
pool, and its legacy path is closed. -/
theorem refused_reservation_marks : ∃ created marker, create (smallPool 0) = .ok created ∧
    common_capacity.marker (smallPool 0) "/ledger" = .ok marker ∧
    init "/pool" twoKeys [1] "o" (smallPool 0).trust (smallPool 0).config_bytes smallLedger.trust .null
      .null = .ok (smallPool 0) ∧
    reserve_in (smallPool 0) smallLedger "/ledger" (bytesOf smallRequest) (freshWorld created) =
      (.error (.refused "Common capacity exhausted; no dispatch."),
       (freshWorld created).mark "/ledger" marker) ∧
    check_path none "/ledger" (freshWorld created) = .ok () ∧
    check_path none "/ledger" ((freshWorld created).mark "/ledger" marker) =
      .error (.refused "Common-pool partition requires common dispatch; legacy path refused.") := by
  obtain ⟨created, hcreated⟩ := @create_smallPool 0
  obtain ⟨marker, hmarker⟩ := @marker_smallPool 0
  obtain ⟨key, hkey⟩ := @key_smallBinding 0
  have hload := load_smallPool hcreated
  refine ⟨created, marker, hcreated, hmarker, init_smallPool (Nat.zero_le _), ?_, ?_, ?_⟩
  · have hgrant : grant (smallPool 0) created (smallBinding 0) (sha key) =
        .error (.refused "Common capacity exhausted; no dispatch.") := by
      obtain ⟨b, rfl⟩ := create_shape hcreated
      rfl
    rw [reserve_in_marked ⟨bind_smallRequest, hkey, rfl, hload, hmarker⟩]
    simp only [bind_partition, freshWorld, hgrant]
  · exact needOr_eq_ok.mpr (by simp [freshWorld])
  · simp only [check_path, World.mark_markers, Function.update_self]
    rfl

/-- The world after the child is taken. -/
def heldWorld (created record : Envelope Body) (marker : ByteArray) : World :=
  ((freshWorld created).mark "/ledger" marker).publish "/pool" record

/-- The same reservation, twice. -/
def smallCalls : List Call :=
  List.replicate 2 (.reserve (smallPool 1) smallLedger "/ledger" (bytesOf smallRequest))

/-- A pool of one slot takes the child, and refuses it when it is asked again: it
binds this ledger, and no other one. -/
theorem refused_reservations_write_nothing_small : ∃ created record marker ticket,
    create (smallPool 1) = .ok created ∧ common_capacity.marker (smallPool 1) "/ledger" = .ok marker ∧
    reserve_in (smallPool 1) smallLedger "/ledger" (bytesOf smallRequest) (freshWorld created) =
      (.ok ticket, heldWorld created record marker) ∧
    reserve_in (smallPool 1) smallLedger "/ledger" (bytesOf smallRequest)
      (heldWorld created record marker) =
        (.error (.refused "Child already held/consumed in this pool; no resend."),
         heldWorld created record marker) ∧
    (run (freshWorld created) smallCalls).markers "/ledger" = some marker ∧
    check_path none "/other" (run (freshWorld created) smallCalls) = .ok () := by
  obtain ⟨created, hcreated⟩ := @create_smallPool 1
  obtain ⟨marker, hmarker⟩ := @marker_smallPool 1
  obtain ⟨key, hkey⟩ := @key_smallBinding 1
  obtain ⟨record, ticket, hgrant, hheld⟩ := @grant_small 0 created hcreated key hkey
  have hreach : Reaches (smallPool 1) smallLedger "/ledger" (bytesOf smallRequest)
      (freshWorld created) (smallBinding 1) (sha key) marker :=
    ⟨bind_smallRequest, hkey, rfl, load_smallPool hcreated, hmarker⟩
  have hpool : (heldWorld created record marker).pools (smallPool 1).root =
      { state := record, pending := false } := by
    rw [show (smallPool 1).root = lit "/pool" from rfl]
    simp [heldWorld, World.publish]
  have hmarked : (heldWorld created record marker).markers "/ledger" = some marker := by
    simp [heldWorld]
  have hagain : Reaches (smallPool 1) smallLedger "/ledger" (bytesOf smallRequest)
      (heldWorld created record marker) (smallBinding 1) (sha key) marker := by
    refine ⟨bind_smallRequest, hkey, by rw [hpool], ?_, hmarker⟩
    rw [hpool]
    exact hheld.loaded
  have hfirst : reserve_in (smallPool 1) smallLedger "/ledger" (bytesOf smallRequest)
      (freshWorld created) = (.ok ticket, heldWorld created record marker) := by
    rw [reserve_in_marked hreach]
    simp only [bind_partition, freshWorld, hgrant]
    rfl
  have hsecond : reserve_in (smallPool 1) smallLedger "/ledger" (bytesOf smallRequest)
      (heldWorld created record marker) =
        (.error (.refused "Child already held/consumed in this pool; no resend."),
         heldWorld created record marker) := by
    have hpartition : bind_partition "/ledger" marker (heldWorld created record marker) =
        (.ok (), heldWorld created record marker) := by
      simp only [bind_partition, hmarked, check_partition, needOr_eq_ok.mpr]
    rw [reserve_in_marked hagain, hpartition]
    simp only [hpool, grant_held hheld]
  have hworld : ((Call.reserve (smallPool 1) smallLedger "/ledger" (bytesOf smallRequest)).perform
      (freshWorld created)).2 = heldWorld created record marker := by
    rw [Call.perform, discard_world, hfirst]
  have hmarks : Along Call.MarksTaken (freshWorld created) smallCalls := by
    refine ⟨fun _ binding k m h => ?_, fun hnone => ?_, trivial⟩
    · obtain rfl := Except.ok.inj (h.bound.symm.trans hreach.bound)
      obtain rfl := Except.ok.inj (h.key.symm.trans hreach.key)
      exact takes_small hcreated key
    · rw [hworld, hmarked] at hnone
      cases hnone
  have hpublished : published (freshWorld created) smallCalls = [(smallPool 1, lit "/ledger")] := by
    have hnone : (Call.reserve (smallPool 1) smallLedger "/ledger" (bytesOf smallRequest)).published
        (heldWorld created record marker) = none := by
      rw [Call.published, hsecond]
    show (Call.published _ _).toList ++ ((Call.published _ _).toList ++ []) = _
    rw [hworld, hnone, published_of_ok (congrArg Prod.fst hfirst)]
    rfl
  have hrun := (refused_reservations_write_nothing_iff (freshWorld created) smallCalls).2 hmarks
    fun _ => rfl
  refine ⟨created, record, marker, ticket, hcreated, hmarker, hfirst, hsecond, ?_, ?_⟩
  · refine ((hrun "/ledger").1 marker).mpr ⟨smallPool 1, ?_, hmarker⟩
    rw [hpublished]
    exact List.mem_singleton.mpr rfl
  · refine (hrun "/other").2.mpr fun O hmem => ?_
    rw [hpublished] at hmem
    have hroot : lit "/other" = lit "/ledger" := congrArg Prod.snd (List.mem_singleton.mp hmem)
    exact absurd hroot (by decide)

end vfy.common_capacity
