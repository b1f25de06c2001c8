-- The laws of a service pool. What a record that is accepted says, what one
-- publication can do to an attempt, and from that every run of the calls.
import VerifyRun.ServiceAttempt
import VerifyRun.ManagedLaws

namespace vfy.service_attempt

open python keys outcomes child_ledger common_capacity managed_capacity entries

/-! ## A record that is accepted -/

/-- An attempt shows its state: what it shows is written once, in order. -/
structure Entry.Sound (e : Entry) : Prop where
  key : e.request_sha256 = sha e.request_raw
  state : e.state = e.expected
  result : e.result.isSome → e.start_sha256.isSome
  observed : ∀ r ∈ e.result, r.classification ≠ .ADMITTED ∧ r.classification ≠ .CONSUMED

/-- What the reader has met, and met only once. -/
structure Seen.Of (P : ServicePool) (seen : Seen) (es : List Entry) (qs : List Request) : Prop where
  requests : List.Forall₂ (fun e q => read_request P e.request_raw = .ok q) es qs
  sound : ∀ e ∈ es, e.Sound
  ids : seen.ids = qs.map Request.attempt_id ∧ seen.ids.Nodup
  roots : seen.roots = qs.map Request.attempt_root ∧ seen.roots.Nodup
  previews : seen.previews = qs.map Request.preview_sha256 ∧ seen.previews.Nodup
  events : seen.events = 1 + (es.map Entry.events).sum

theorem check_result_eq_ok {q : Request} {r : Result} (h : check_result q r = .ok ()) :
    r.classification ≠ .ADMITTED ∧ r.classification ≠ .CONSUMED := by
  obtain ⟨h, -⟩ := seq_eq_ok.mp h
  obtain ⟨-, -, -, -, -, -, -, hadmitted, hconsumed, -⟩ := need_eq_ok.mp h
  exact ⟨hadmitted, hconsumed⟩

theorem check_observation_eq_ok {q : Request} {e : Entry} (h : check_observation q e = .ok ()) :
    ∀ r ∈ e.result, e.start_sha256.isSome ∧ r.classification ≠ .ADMITTED ∧
      r.classification ≠ .CONSUMED := by
  unfold check_observation at h
  split at h
  · rename_i r hr
    simp only [bind_eq_ok, exists_unit, need_eq_ok] at h
    rw [hr]
    rintro _ ⟨⟩
    exact ⟨h.1, check_result_eq_ok h.2⟩
  · rename_i hr
    rw [hr]
    simp

/-- One turn of the reader. -/
theorem check_entry_eq_ok {P : ServicePool} {seen seen' : Seen} {e : Entry}
    (h : check_entry P seen e = .ok seen') :
    ∃ q, read_request P e.request_raw = .ok q ∧ e.Sound ∧ q.attempt_id ∉ seen.ids ∧
      q.attempt_root ∉ seen.roots ∧ q.preview_sha256 ∉ seen.previews ∧
      seen' = { ids := seen.ids ++ [q.attempt_id], roots := seen.roots ++ [q.attempt_root],
                previews := seen.previews ++ [q.preview_sha256], events := seen.events + e.events } := by
  unfold check_entry at h
  simp only [bind_eq_ok, exists_unit, need_eq_ok, needOr_eq_ok] at h
  obtain ⟨q, hq, ⟨hkey, -⟩, ⟨hid, hroot, hpreview⟩, -, -, -, -, hobservation, hstate, h⟩ := h
  obtain rfl := pure_eq_ok.mp h
  refine ⟨q, hq, ⟨hkey, hstate, ?_, ?_⟩, hid, hroot, hpreview, rfl⟩
  · intro hresult
    obtain ⟨r, hr⟩ := Option.isSome_iff_exists.mp hresult
    exact (check_observation_eq_ok hobservation r hr).1
  · intro r hr
    exact (check_observation_eq_ok hobservation r hr).2

theorem check_entries {P : ServicePool} {es before : List Entry} {qs : List Request}
    {seen seen' : Seen} (hseen : seen.Of P before qs)
    (h : es.foldlM (check_entry P) seen = .ok seen') : ∃ qs', seen'.Of P (before ++ es) qs' := by
  induction es generalizing seen before qs with
  | nil =>
    obtain rfl := pure_eq_ok.mp h
    exact ⟨qs, by simpa using hseen⟩
  | cons e es ih =>
    rw [List.foldlM_cons] at h
    obtain ⟨next, hnext, h⟩ := bind_eq_ok.mp h
    obtain ⟨q, hq, hsound, hid, hroot, hpreview, rfl⟩ := check_entry_eq_ok hnext
    rw [show before ++ e :: es = (before ++ [e]) ++ es by simp]
    have hrequests := List.rel_append hseen.requests (.cons hq .nil)
    refine ih ⟨hrequests, ?_, ?_, ?_, ?_, ?_⟩ h
    · intro x hx
      rcases List.mem_append.mp hx with hx | hx
      · exact hseen.sound x hx
      · obtain rfl := List.mem_singleton.mp hx
        exact hsound
    · exact ⟨by simp [hseen.ids.1], nodup_concat hseen.ids.2 hid⟩
    · exact ⟨by simp [hseen.roots.1], nodup_concat hseen.roots.2 hroot⟩
    · exact ⟨by simp [hseen.previews.1], nodup_concat hseen.previews.2 hpreview⟩
    · simp [hseen.events, Nat.add_assoc]

/-- What a record that is accepted says of its body. -/
structure Body.Sound (P : ServicePool) (b : Body) : Prop where
  sound : ∀ e ∈ b.entries, e.Sound
  /-- No attempt, root or preview is charged twice. -/
  charged : ∃ qs, List.Forall₂ (fun e q => read_request P e.request_raw = .ok q) b.entries qs ∧
    (qs.map Request.attempt_id).Nodup ∧ (qs.map Request.attempt_root).Nodup ∧
    (qs.map Request.preview_sha256).Nodup
  predecessor : b.predecessor_raw = P.head
  revision : b.revision = P.predecessor.revision + 1 + (b.entries.map Entry.events).sum
  totals : ∃ t, totals P b = .ok t

theorem validate_eq_ok {P : ServicePool} {record : Envelope Body} (h : validate P record = .ok ()) :
    record.body.Sound P := by
  unfold validate at h
  simp only [bind_eq_ok, exists_unit, need_eq_ok, pure_eq_ok] at h
  obtain ⟨b, hb, -, ⟨-, -, -, hpredecessor, -, -⟩, seen, hseen, hrevision, t, ht, -⟩ := h
  obtain rfl := authenticate_eq_ok hb
  have hstart : Seen.Of P ⟨[], [], [], 1⟩ [] [] :=
    ⟨.nil, by simp, by simp, by simp, by simp, by simp⟩
  obtain ⟨qs, hof⟩ := check_entries hstart hseen
  rw [List.nil_append] at hof
  refine ⟨hof.sound, ⟨qs, hof.requests, hof.ids.1 ▸ hof.ids.2, hof.roots.1 ▸ hof.roots.2,
    hof.previews.1 ▸ hof.previews.2⟩, hpredecessor, ?_, t, ht⟩
  rw [hrevision, hof.events, Nat.add_assoc]

/-! ## What is published -/

theorem publish_eq_ok {P : ServicePool} {b : Body} {record : Envelope Body}
    (h : publish P b = .ok record) : record.body = b ∧ validate P record = .ok () := by
  unfold publish at h
  simp only [bind_eq_ok, exists_unit, pure_eq_ok] at h
  obtain ⟨_, henvelope, hvalid, _, -, -, rfl⟩ := h
  exact ⟨envelope_eq_ok henvelope, hvalid⟩

theorem attach_eq_ok {P : ServicePool} {bytes : ByteArray} {next : Envelope Body}
    (h : attach P bytes = .ok next) :
    bytes = P.head ∧ validate P next = .ok () ∧ next.body.entries = [] := by
  unfold attach at h
  simp only [bind_eq_ok, exists_unit, needOr_eq_ok] at h
  obtain ⟨hbytes, h⟩ := h
  obtain ⟨hbody, hvalid⟩ := publish_eq_ok h
  exact ⟨hbytes, hvalid, by rw [hbody]⟩

theorem change_eq_ok {P : ServicePool} {old next : Envelope Body} {fn : Body → Checked Body}
    (h : change P old fn = .ok next) : validate P old = .ok () ∧ validate P next = .ok () ∧
      ∃ b, fn old.body = .ok b ∧
        next.body = { b with revision := b.revision + 1, previous := old.sha256 } := by
  unfold change at h
  simp only [bind_eq_ok, exists_unit] at h
  obtain ⟨-, hold, b, hfn, hpublish⟩ := h
  obtain ⟨hbody, hvalid⟩ := publish_eq_ok hpublish
  exact ⟨hold, hvalid, b, hfn, hbody⟩

/-! ## What one publication does to an attempt -/

/-- An attempt that was just charged. -/
structure Entry.New (request_bytes : ByteArray) (e : Entry) : Prop where
  request_raw : e.request_raw = request_bytes
  key : e.request_sha256 = sha request_bytes
  state : e.state = .ADMITTED
  start_sha256 : e.start_sha256 = none
  unknown : e.unknown = none
  result : e.result = none

/-- The three ways in which an attempt moves on. -/
inductive Moves : Entry → Entry → Prop where
  | consumed (e : Entry) (start recorded_at : Str) : e.state = .ADMITTED →
      Moves e { e with start_sha256 := some start, consumed_at := some recorded_at, state := .CONSUMED }
  | unknown (e : Entry) (u : Unknown) : e.result = none → e.unknown = none →
      Moves e { e with unknown := some u, state := .UNKNOWN }
  | settled (e : Entry) (r : Result) : e.result = none → e.start_sha256.isSome →
      Moves e { e with result := some r,
                       state := if e.unknown.isSome then .UNKNOWN else r.classification }

/-- The state goes on in one direction. -/
inductive Edge : EntryState → EntryState → Prop where
  | consumed : Edge .ADMITTED .CONSUMED
  | observed (s : EntryState) : s = .OBSERVED_EXIT_ZERO ∨ s = .OBSERVED_EXIT_NONZERO ∨
      s = .OBSERVED_SIGNAL → Edge .CONSUMED s
  | unknown (s : EntryState) : s = .ADMITTED ∨ s = .CONSUMED → Edge s .UNKNOWN

/-- A move that leads to a record that is accepted goes along one edge, or adds
a result to an attempt that is unknown. -/
theorem Moves.edge {e e' : Entry} (h : Moves e e') (he : e.Sound) (he' : e'.Sound) :
    Edge e.state e'.state ∨ e.state = .UNKNOWN ∧ e'.state = .UNKNOWN := by
  have hstate := he.state
  unfold Entry.expected at hstate
  cases h with
  | consumed start recorded_at hadmitted =>
    left
    rw [hadmitted]
    exact .consumed
  | unknown u hresult hunknown =>
    left
    rw [hunknown, hresult] at hstate
    apply Edge.unknown
    cases hstart : e.start_sha256 with
    | none =>
      left
      simpa [hstart] using hstate
    | some start =>
      right
      simpa [hstart] using hstate
  | settled r hresult hstart =>
    rw [hresult] at hstate
    cases hunknown : e.unknown with
    | some u =>
      right
      simpa [hunknown] using hstate
    | none =>
      left
      have hconsumed : e.state = .CONSUMED := by simpa [hunknown, hstart] using hstate
      obtain ⟨hadmitted, hnot⟩ := he'.observed r rfl
      rw [hconsumed]
      simp only [Option.isSome_none, Bool.false_eq_true, if_false]
      cases hr : r.classification with
      | ADMITTED => exact absurd hr hadmitted
      | CONSUMED => exact absurd hr hnot
      | UNKNOWN => exact .unknown _ (.inr rfl)
      | OBSERVED_EXIT_ZERO => exact .observed _ (.inl rfl)
      | OBSERVED_EXIT_NONZERO => exact .observed _ (.inr (.inl rfl))
      | OBSERVED_SIGNAL => exact .observed _ (.inr (.inr rfl))

/-- The one entry of a key. -/
def Single (es : List Entry) (key : Str) (i : Nat) : Prop :=
  ∀ (j : Nat) (e : Entry), es[j]? = some e → e.request_sha256 = key → j = i

theorem entry_of_eq_ok {b : Body} {key : Str} {e : Entry} {i : Nat}
    (h : entry_of b key = .ok (e, i)) :
    b.entries[i]? = some e ∧ e.request_sha256 = key ∧ Single b.entries key i := by
  unfold entry_of at h
  split at h
  · rename_i found hfound
    obtain rfl := pure_eq_ok.mp h
    obtain ⟨hi, hkey⟩ := mem_of_filter_zipIdx hfound
    refine ⟨hi, by simpa using hkey, fun j x hj hx => ?_⟩
    exact eq_of_filter_zipIdx hfound hj (by simpa using hx)
  · cases h

theorem admit_eq_ok {P : ServicePool} {F : Files} {request_bytes preview_bytes approval_bytes : ByteArray}
    {recorded_at : Str} {fn : Body → Checked Body} {b b' : Body}
    (h : admit_request P F request_bytes preview_bytes approval_bytes recorded_at = .ok fn)
    (hb : fn b = .ok b') : ∃ e : Entry, e.New request_bytes ∧ b'.entries = b.entries ++ [e] := by
  unfold admit_request at h
  simp only [bind_eq_ok, exists_unit, pure_eq_ok] at h
  obtain ⟨-, _, -, -, rfl⟩ := h
  unfold admit_entry at hb
  simp only [bind_eq_ok, exists_unit, pure_eq_ok] at hb
  obtain ⟨_, -, -, rfl⟩ := hb
  exact ⟨_, ⟨rfl, rfl, rfl, rfl, rfl, rfl⟩, rfl⟩

theorem consume_entry_eq_ok {P : ServicePool} {F : Files} {key : Str} {S : Start} {b b' : Body}
    (h : consume_entry P F key S b = .ok b') :
    ∃ (i : Nat) (e e' : Entry), b.entries[i]? = some e ∧ e.request_sha256 = key ∧
      Single b.entries key i ∧ Moves e e' ∧ b' = b.setEntry i e' := by
  unfold consume_entry at h
  simp only [bind_eq_ok, exists_unit, need_eq_ok, pure_eq_ok] at h
  obtain ⟨⟨e, i⟩, hentry, ⟨hadmitted, -, -⟩, _, -, _, -, _, -, -, _, -, -, rfl⟩ := h
  obtain ⟨hi, hkey, hsingle⟩ := entry_of_eq_ok hentry
  exact ⟨i, e, _, hi, hkey, hsingle, .consumed e _ _ hadmitted, rfl⟩

theorem unknown_entry_eq_ok {key reason recorded_at : Str} {b b' : Body}
    (h : unknown_entry key reason recorded_at b = .ok b') :
    ∃ (i : Nat) (e e' : Entry), b.entries[i]? = some e ∧ Moves e e' ∧
      e'.start_sha256 = e.start_sha256 ∧ b' = b.setEntry i e' := by
  unfold unknown_entry at h
  simp only [bind_eq_ok, exists_unit, need_eq_ok, pure_eq_ok] at h
  obtain ⟨⟨e, i⟩, hentry, ⟨hresult, hunknown⟩, rfl⟩ := h
  exact ⟨i, e, _, (entry_of_eq_ok hentry).1,
    .unknown e _ (by simpa using hresult) (by simpa using hunknown), rfl, rfl⟩

theorem settle_entry_eq_ok {P : ServicePool} {F : Files} {key : Str} {R : Observed} {b b' : Body}
    (h : settle_entry P F key R b = .ok b') :
    ∃ (i : Nat) (e e' : Entry), b.entries[i]? = some e ∧ Moves e e' ∧
      e'.start_sha256 = e.start_sha256 ∧ b' = b.setEntry i e' := by
  unfold settle_entry at h
  simp only [bind_eq_ok, exists_unit, need_eq_ok] at h
  obtain ⟨⟨e, i⟩, hentry, hresult, h⟩ := h
  split at h
  · cases h
  · rename_i start hstart
    simp only [bind_eq_ok, exists_unit, pure_eq_ok] at h
    obtain ⟨_, -, _, -, _, -, _, -, -, r, -, _, -, -, -, -, -, exit, -, rfl⟩ := h
    refine ⟨i, e, _, (entry_of_eq_ok hentry).1, ?_, ?_, rfl⟩
    · exact .settled e (R.result r exit) (by simpa using hresult) (by rw [hstart]; rfl)
    · rfl

/-! ## What one publication does to the files -/

/-- The attempts in the state file. -/
def World.entries (w : World) : List Entry :=
  match w.disk.state with
  | .whole (.service record) => record.body.entries
  | _ => []

theorem World.entries_of_state {w : World} {record : Envelope Body}
    (h : w.disk.state = .whole (.service record)) : w.entries = record.body.entries := by
  unfold World.entries
  rw [h]

/-- A publication leaves the state file, or puts a whole record there. It
returns only where the record is there. -/
theorem World.publish_cases (w : World) (next : Checked (Envelope Body)) (fault : Option journal.Fault) :
    (w.publish next fault).1.live = w.live ∧
      ((w.publish next fault).1.disk.state = w.disk.state ∧
          ((w.publish next fault).2 = true → w.disk.pending ≠ none) ∨
        ∃ record, next = .ok record ∧
          (w.publish next fault).1.disk.state = .whole (.service record)) := by
  unfold World.publish
  split
  · rename_i record
    refine ⟨rfl, ?_⟩
    by_cases hpending : w.disk.pending = none
    · by_cases hfault : fault = none
      · right
        refine ⟨record, rfl, ?_⟩
        rw [hfault, journal.publish_none hpending]
      · rcases journal.publish_cases (.service record) fault w.disk with h | h | h
        · exact .inl ⟨congrArg journal.Disk.state h, fun hdone => absurd (by simpa using hdone) hfault⟩
        · exact .inl ⟨h.1, fun hdone => absurd (by simpa using hdone) hfault⟩
        · exact .inr ⟨record, rfl, congrArg journal.Disk.state h⟩
    · rcases journal.publish_cases (.service record) fault w.disk with h | h | h
      · exact .inl ⟨congrArg journal.Disk.state h, fun _ => hpending⟩
      · exact .inl ⟨h.1, fun _ => hpending⟩
      · exact .inr ⟨record, rfl, congrArg journal.Disk.state h⟩
  · exact ⟨rfl, .inl ⟨rfl, by simp⟩⟩

theorem World.state_eq_ok {w : World} {state : State} (h : w.state = .ok state) :
    w.disk = { state := .whole state, pending := none } := by
  unfold World.state at h
  split at h
  · rename_i state' hdisk
    obtain rfl := pure_eq_ok.mp h
    exact hdisk
  · cases h

/-- What a change puts in the state file. -/
inductive Publishes (P : ServicePool) (w w' : World) (fn : Checked (Body → Checked Body)) : Prop where
  | mk (old next : Envelope Body) (f : Body → Checked Body) (b : Body) :
      w.disk.state = .whole (.service old) → w'.disk.state = .whole (.service next) →
      validate P old = .ok () → validate P next = .ok () → fn = .ok f → f old.body = .ok b →
      next.body.entries = b.entries → Publishes P w w' fn

theorem World.next_eq_ok {P : ServicePool} {w : World} {fn : Checked (Body → Checked Body)}
    {record : Envelope Body} (h : w.next P fn = .ok record) :
    ∃ old f, w.disk = { state := .whole (.service old), pending := none } ∧ fn = .ok f ∧
      service_attempt.change P old f = .ok record := by
  unfold World.next at h
  simp only [bind_eq_ok] at h
  obtain ⟨f, hf, state, hstate, h⟩ := h
  split at h
  · rename_i old
    exact ⟨old, f, World.state_eq_ok hstate, hf, h⟩
  · cases h

theorem World.change_cases (P : ServicePool) (w : World) (fn : Checked (Body → Checked Body))
    (fault : Option journal.Fault) : (w.change P fn fault).1.live = w.live ∧
      ((w.change P fn fault).1.disk.state = w.disk.state ∧ (w.change P fn fault).2 = false ∨
        Publishes P w (w.change P fn fault).1 fn) := by
  obtain ⟨hlive, hcases⟩ := w.publish_cases (w.next P fn) fault
  refine ⟨hlive, ?_⟩
  rcases hcases with ⟨hsame, hreturned⟩ | ⟨record, hok, hstate⟩
  · left
    refine ⟨hsame, ?_⟩
    by_contra hdone
    rw [Bool.not_eq_false] at hdone
    have hpending := hreturned hdone
    unfold World.change World.publish at hdone
    split at hdone
    · rename_i record hrecord
      obtain ⟨old, f, hdisk, -⟩ := World.next_eq_ok hrecord
      exact hpending (by rw [hdisk])
    · cases hdone
  · right
    obtain ⟨old, f, hdisk, hf, hchange⟩ := World.next_eq_ok hok
    obtain ⟨hold, hvalid, b, hb, hbody⟩ := change_eq_ok hchange
    exact .mk old record f b (congrArg journal.Disk.state hdisk) hstate hold hvalid hf hb (by rw [hbody])

/-! ## What one call does -/

/-- One publication of a pool: what it adds and what it moves on. -/
inductive Stage (P : ServicePool) (New : Entry → Prop) (Move : Entry → Entry → Prop) (w w' : World) :
    Prop where
  | same : w'.disk.state = w.disk.state → Stage P New Move w w'
  | attached (bytes : ByteArray) (next : Envelope Body) : w.disk.state = .whole (.prior bytes) →
      w'.disk.state = .whole (.service next) → bytes = P.head → validate P next = .ok () →
      next.body.entries = [] → Stage P New Move w w'
  | changed (old next : Envelope Body) : w.disk.state = .whole (.service old) →
      w'.disk.state = .whole (.service next) → validate P old = .ok () → validate P next = .ok () →
      Change New Move old.body.entries next.body.entries → Stage P New Move w w'

theorem Stage.entries {P : ServicePool} {New : Entry → Prop} {Move : Entry → Entry → Prop}
    {w w' : World} (h : Stage P New Move w w') :
    w'.entries = w.entries ∨ Change New Move w.entries w'.entries := by
  cases h with
  | same hstate =>
    left
    unfold World.entries
    rw [hstate]
  | attached bytes next hstate hstate' hbytes hvalid hentries =>
    left
    rw [World.entries_of_state hstate', hentries]
    unfold World.entries
    rw [hstate]
  | changed old next hstate hstate' hold hvalid hchange =>
    right
    rw [World.entries_of_state hstate, World.entries_of_state hstate']
    exact hchange

theorem Publishes.stage {P : ServicePool} {w w' : World} {fn : Checked (Body → Checked Body)}
    {New : Entry → Prop} {Move : Entry → Entry → Prop} (h : Publishes P w w' fn)
    (hfn : ∀ f b b', fn = .ok f → b.entries = w.entries → f b = .ok b' →
      Change New Move b.entries b'.entries) : Stage P New Move w w' := by
  obtain ⟨old, next, f, b, hstate, hstate', hold, hvalid, hf, hb, hentries⟩ := h
  refine .changed old next hstate hstate' hold hvalid ?_
  rw [hentries]
  exact hfn f old.body b hf (World.entries_of_state hstate).symm hb

/-- A call that admits an attempt, and an attempt that it admits. -/
def Takes (c : Call) (e : Entry) : Prop :=
  ∃ pool request_bytes preview_bytes approval_bytes recorded_at,
    c = .admit_request pool request_bytes preview_bytes approval_bytes recorded_at ∧ e.New request_bytes

/-- The call starts the attempt of a key that is live in its pool object. -/
def Consumes (P : Nat → ServicePool) (w : World) (c : Call) (key : Str) : Prop :=
  ∃ pool ticket S handler, c = .consume pool ticket S handler ∧ keyOf (P pool) ticket = .ok key ∧
    key ∈ w.live pool ∧ ∃ i, Single w.entries key i

/-- An attempt moves on in a call, and starts only with its capability. -/
def Goes (P : Nat → ServicePool) (w : World) (c : Call) (e e' : Entry) : Prop :=
  Moves e e' ∧ (e'.start_sha256 ≠ e.start_sha256 → Consumes P w c e.request_sha256)

/-- An attempt moves on and does not start. -/
def Quiet (e e' : Entry) : Prop := Moves e e' ∧ e'.start_sha256 = e.start_sha256

theorem stage_mark_unknown (P : ServicePool) (w : World) (ticket : Envelope Body)
    (reason recorded_at : Str) (fault : Option journal.Fault) (New : Entry → Prop) :
    Stage P New Quiet w (w.mark_unknown P ticket reason recorded_at fault).1 := by
  unfold World.mark_unknown
  rcases (w.change_cases P (do
    let key ← keyOf P ticket
    need (text reason ∧ text recorded_at)
    pure (unknown_entry key reason recorded_at)) fault).2 with ⟨h, -⟩ | h
  · exact .same h
  · refine h.stage fun f b b' hf hw hb => ?_
    simp only [bind_eq_ok, exists_unit, pure_eq_ok] at hf
    obtain ⟨key, -, -, rfl⟩ := hf
    obtain ⟨i, e, e', hi, hmoves, hstart, rfl⟩ := unknown_entry_eq_ok hb
    exact .move i e e' hi ⟨hmoves, hstart⟩

theorem Stage.mono {P : ServicePool} {New : Entry → Prop} {Move Move' : Entry → Entry → Prop}
    {w w' : World} (h : Stage P New Move w w') (hmove : ∀ e e', Move e e' → Move' e e') :
    Stage P New Move' w w' := by
  cases h with
  | same hstate => exact .same hstate
  | attached bytes next hstate hstate' hbytes hvalid hentries =>
    exact .attached bytes next hstate hstate' hbytes hvalid hentries
  | changed old next hstate hstate' hold hvalid hchange =>
    refine .changed old next hstate hstate' hold hvalid ?_
    exact hchange.mono (fun _ h => h) fun e _ e' => hmove e e'

theorem Quiet.goes {P : Nat → ServicePool} {w : World} {c : Call} {e e' : Entry} (h : Quiet e e') :
    Goes P w c e e' := ⟨h.1, fun hne => absurd h.2 hne⟩

/-- A call publishes at most twice: the second time only to mark what it could
not start. -/
theorem step_stages (P : Nat → ServicePool) (F : Files) (fault : Option journal.Fault) (w : World)
    (c : Call) : ∃ mid, Stage (P c.pool) (Takes c) (Goes P w c) w mid ∧
      Stage (P c.pool) (fun _ => False) Quiet mid (step P F fault w c) ∧
      (mid = step P F fault w c ∨ ∀ e, ¬ Takes c e) := by
  cases c with
  | attach pool =>
    refine ⟨_, ?_, .same rfl, .inl rfl⟩
    unfold step
    dsimp only
    rcases (w.publish_cases _ fault).2 with ⟨h, -⟩ | ⟨record, hrecord, h⟩
    · exact .same h
    · unfold World.attach at hrecord
      obtain ⟨state, hstate, hattach⟩ := bind_eq_ok.mp hrecord
      split at hattach
      · rename_i bytes
        obtain ⟨hbytes, hvalid, hentries⟩ := attach_eq_ok hattach
        exact .attached bytes record (congrArg journal.Disk.state (World.state_eq_ok hstate)) h hbytes
          hvalid hentries
      · cases hattach
  | admit_request pool request_bytes preview_bytes approval_bytes recorded_at =>
    refine ⟨_, ?_, .same rfl, .inl rfl⟩
    have hstage : Stage (P pool) (Takes (.admit_request pool request_bytes preview_bytes approval_bytes recorded_at))
        (Goes P w (.admit_request pool request_bytes preview_bytes approval_bytes recorded_at)) w
        (w.change (P pool) (admit_request (P pool) F request_bytes preview_bytes approval_bytes recorded_at)
          fault).1 := by
      rcases (w.change_cases (P pool)
        (admit_request (P pool) F request_bytes preview_bytes approval_bytes recorded_at) fault).2 with ⟨h, -⟩ | h
      · exact .same h
      · refine h.stage fun f b b' hf hw hb => ?_
        obtain ⟨e, hnew, hentries⟩ := admit_eq_ok hf hb
        rw [hentries]
        exact .add e ⟨pool, request_bytes, preview_bytes, approval_bytes, recorded_at, rfl, hnew⟩
    unfold step
    dsimp only
    split
    · rename_i w' hw'
      rw [hw'] at hstage
      cases hstage with
      | same hstate => exact .same hstate
      | attached bytes next hstate hstate' hbytes hvalid hentries =>
        exact .attached bytes next hstate hstate' hbytes hvalid hentries
      | changed old next hstate hstate' hold hvalid hchange =>
        exact .changed old next hstate hstate' hold hvalid hchange
    · rename_i w' hw'
      rw [hw'] at hstage
      exact hstage
  | consume pool ticket S handler =>
    unfold step
    dsimp only
    split
    · exact ⟨w, .same rfl, .same rfl, .inl rfl⟩
    · rename_i key hkey
      split
      · rename_i hlive
        have hstage : Stage (P pool) (Takes (.consume pool ticket S handler))
            (Goes P w (.consume pool ticket S handler)) w
            ((w.remove pool key).change (P pool) (pure (consume_entry (P pool) F key S)) fault).1 := by
          rcases ((w.remove pool key).change_cases (P pool)
            (pure (consume_entry (P pool) F key S)) fault).2 with ⟨h, -⟩ | h
          · exact .same h
          · obtain ⟨old, next, f, b, hstate, hstate', hold, hvalid, hf, hb, hentries⟩ := h
            obtain rfl := pure_eq_ok.mp hf
            obtain ⟨i, e, e', hi, hk, hsingle, hmoves, rfl⟩ := consume_entry_eq_ok hb
            refine .changed old next hstate hstate' hold hvalid ?_
            rw [hentries]
            have hw : w.entries = old.body.entries := World.entries_of_state hstate
            refine .move i e e' hi ⟨hmoves, fun _ => ⟨pool, ticket, S, handler, rfl, ?_, ?_, i, ?_⟩⟩
            · rw [hk]
              exact hkey
            · rw [hk]
              exact hlive
            · rw [hk, hw]
              exact hsingle
        split
        · rename_i w' hw'
          rw [hw'] at hstage
          exact ⟨w', hstage, .same rfl, .inl rfl⟩
        · rename_i w' hw'
          rw [hw'] at hstage
          refine ⟨w', hstage, ?_, .inr ?_⟩
          · split
            · exact stage_mark_unknown _ _ _ _ _ _ _
            · exact .same rfl
          · rintro e ⟨_, _, _, _, _, ⟨⟩, -⟩
      · exact ⟨w, .same rfl, .same rfl, .inl rfl⟩
  | mark_unknown pool ticket reason recorded_at =>
    refine ⟨_, ?_, .same rfl, .inl rfl⟩
    exact (stage_mark_unknown (P pool) w ticket reason recorded_at fault _).mono fun _ _ => Quiet.goes
  | settle pool ticket R =>
    refine ⟨_, ?_, .same rfl, .inl rfl⟩
    unfold step
    dsimp only
    rcases (w.change_cases (P pool) (do
      let key ← keyOf (P pool) ticket
      need (text R.recorded_at)
      pure (settle_entry (P pool) F key R)) fault).2 with ⟨h, -⟩ | h
    · exact .same h
    · refine h.stage fun f b b' hf hw hb => ?_
      simp only [bind_eq_ok, exists_unit, pure_eq_ok] at hf
      obtain ⟨key, -, -, rfl⟩ := hf
      obtain ⟨i, e, e', hi, hmoves, hstart, rfl⟩ := settle_entry_eq_ok hb
      exact .move i e e' hi (Quiet.goes ⟨hmoves, hstart⟩)
  | restart pool =>
    exact ⟨step P F fault w (.restart pool), .same rfl, .same rfl, .inl rfl⟩

/-! ## What becomes of an attempt -/

/-- The way an attempt goes on: its request and its start are written once, and
its state goes along the edges. -/
structure Later (e e' : Entry) : Prop where
  request_raw : e'.request_raw = e.request_raw
  request_sha256 : e'.request_sha256 = e.request_sha256
  start_sha256 : e.start_sha256.isSome → e'.start_sha256 = e.start_sha256
  state : Relation.ReflTransGen Edge e.state e'.state

theorem Later.refl (e : Entry) : Later e e := ⟨rfl, rfl, fun _ => rfl, .refl⟩

theorem Later.trans {e e' e'' : Entry} (h : Later e e') (h' : Later e' e'') : Later e e'' where
  request_raw := h'.request_raw.trans h.request_raw
  request_sha256 := h'.request_sha256.trans h.request_sha256
  start_sha256 hs := by
    have hs' := h.start_sha256 hs
    rw [h'.start_sha256 (by rw [hs']; exact hs), hs']
  state := h.state.trans h'.state

/-- No edge leaves the unknown state. -/
theorem unknown_stays {s : EntryState} (h : Relation.ReflTransGen Edge .UNKNOWN s) : s = .UNKNOWN := by
  induction h with
  | refl => rfl
  | tail _ hedge ih =>
    subst ih
    cases hedge with
    | unknown _ h => rcases h with h | h <;> cases h

/-- An attempt that is admitted shows nothing else. -/
theorem Entry.Sound.fresh {e : Entry} (h : e.Sound) (hadmitted : e.state = .ADMITTED) :
    e.start_sha256 = none := by
  have hstate := h.state
  rw [hadmitted] at hstate
  unfold Entry.expected at hstate
  by_cases hunknown : e.unknown.isSome
  · rw [if_pos hunknown] at hstate
    cases hstate
  · rw [if_neg hunknown] at hstate
    split at hstate
    · rename_i r hr
      exact absurd hstate.symm (h.observed r hr).1
    · by_cases hstart : e.start_sha256.isSome
      · rw [if_pos hstart] at hstate
        cases hstate
      · simpa using hstart

theorem Moves.later {e e' : Entry} (h : Moves e e') (he : e.Sound) (he' : e'.Sound) : Later e e' := by
  have hstate : Relation.ReflTransGen Edge e.state e'.state := by
    rcases h.edge he he' with hedge | ⟨h₁, h₂⟩
    · exact .single hedge
    · rw [h₁, h₂]
  cases h with
  | consumed start recorded_at hadmitted =>
    refine ⟨rfl, rfl, fun hs => ?_, hstate⟩
    rw [he.fresh hadmitted] at hs
    cases hs
  | unknown u hresult hunknown => exact ⟨rfl, rfl, fun _ => rfl, hstate⟩
  | settled r hresult hstart => exact ⟨rfl, rfl, fun _ => rfl, hstate⟩

/-- An attempt stays where it is in a publication, or moves on there. -/
theorem Stage.kept {P : ServicePool} {New : Entry → Prop} {Move : Entry → Entry → Prop} {w w' : World}
    (h : Stage P New Move w w') (hmove : ∀ e e', Move e e' → Moves e e') {i : Nat} {e : Entry}
    (hi : w.entries[i]? = some e) :
    ∃ e', w'.entries[i]? = some e' ∧ (e' = e ∨ Move e e') ∧ Later e e' := by
  cases h with
  | same hstate =>
    refine ⟨e, ?_, .inl rfl, .refl e⟩
    unfold World.entries at hi ⊢
    rw [hstate]
    exact hi
  | attached bytes next hstate hstate' hbytes hvalid hentries =>
    unfold World.entries at hi
    rw [hstate] at hi
    simp at hi
  | changed old next hstate hstate' hold hvalid hchange =>
    rw [World.entries_of_state hstate] at hi
    obtain ⟨e', hi', hkept⟩ := hchange.kept hi
    rw [← World.entries_of_state hstate'] at hi'
    refine ⟨e', hi', hkept, ?_⟩
    rcases hkept with rfl | h
    · exact .refl _
    · have he := (validate_eq_ok hold).sound e (List.mem_of_getElem? hi)
      have he' := (validate_eq_ok hvalid).sound e' (by
        rw [← World.entries_of_state hstate']
        exact List.mem_of_getElem? hi')
      exact (hmove e e' h).later he he'

/-- An attempt goes on in one call, and starts only with its capability. -/
theorem step_kept (P : Nat → ServicePool) (F : Files) (fault : Option journal.Fault) (w : World)
    (c : Call) {i : Nat} {e : Entry} (hi : w.entries[i]? = some e) :
    ∃ e', (step P F fault w c).entries[i]? = some e' ∧ Later e e' ∧
      (e'.start_sha256 ≠ e.start_sha256 → Consumes P w c e.request_sha256) := by
  obtain ⟨mid, hfirst, hsecond, -⟩ := step_stages P F fault w c
  obtain ⟨e₁, hi₁, hkept₁, hlater₁⟩ := hfirst.kept (fun _ _ h => h.1) hi
  obtain ⟨e₂, hi₂, hkept₂, hlater₂⟩ := hsecond.kept (fun _ _ h => h.1) hi₁
  refine ⟨e₂, hi₂, hlater₁.trans hlater₂, fun hne => ?_⟩
  have hsame : e₂.start_sha256 = e₁.start_sha256 := by
    rcases hkept₂ with rfl | hquiet
    · rfl
    · exact hquiet.2
  rw [hsame] at hne
  rcases hkept₁ with rfl | hgoes
  · exact absurd rfl hne
  · exact hgoes.2 hne

/-! ## What one call does to the capabilities -/

theorem stage_live_mark_unknown (P : ServicePool) (w : World) (ticket : Envelope Body)
    (reason recorded_at : Str) (fault : Option journal.Fault) :
    (w.mark_unknown P ticket reason recorded_at fault).1.live = w.live := (w.change_cases P _ fault).1

/-- A capability comes with an attempt that its pool object admits. A restart
loses those of its object, and an attempt to start takes the one it asks for. -/
theorem step_live (P : Nat → ServicePool) (F : Files) (fault : Option journal.Fault) (w : World)
    (c : Call) :
    (∀ i key, key ∈ (step P F fault w c).live i → key ∈ w.live i ∧ c ≠ .restart i ∧
      ∀ ticket S handler, c = .consume i ticket S handler → keyOf (P i) ticket ≠ .ok key) ∨
    ∃ pool request_bytes preview_bytes approval_bytes recorded_at e,
      c = .admit_request pool request_bytes preview_bytes approval_bytes recorded_at ∧
        e.New request_bytes ∧ (step P F fault w c).entries = w.entries ++ [e] ∧
        (step P F fault w c).live =
          Function.update w.live pool (sha request_bytes :: w.live pool) := by
  have hsame : ∀ w' : World, w'.live = w.live → ∀ i key, key ∈ w'.live i → key ∈ w.live i := by
    intro w' hlive i key hkey
    rw [hlive] at hkey
    exact hkey
  cases c with
  | attach pool =>
    left
    intro i key hkey
    exact ⟨hsame _ (w.publish_cases _ fault).1 i key hkey, by simp, by simp⟩
  | admit_request pool request_bytes preview_bytes approval_bytes recorded_at =>
    unfold step
    dsimp only
    obtain ⟨hlive, hcases⟩ := w.change_cases (P pool)
      (admit_request (P pool) F request_bytes preview_bytes approval_bytes recorded_at) fault
    split
    · rename_i w' hw'
      right
      rw [hw'] at hlive hcases
      rcases hcases with ⟨-, hdone⟩ | ⟨old, next, f, b, hstate, hstate', hold, hvalid, hf, hb, hentries⟩
      · cases hdone
      · obtain ⟨e, hnew, hadded⟩ := admit_eq_ok hf hb
        refine ⟨pool, request_bytes, preview_bytes, approval_bytes, recorded_at, e, rfl, hnew, ?_, ?_⟩
        · rw [World.entries_of_state hstate, ← hadded, ← hentries]
          exact World.entries_of_state hstate'
        · unfold World.add
          dsimp only at hlive ⊢
          rw [hlive]
    · rename_i w' hw'
      left
      rw [hw'] at hlive
      intro i key hkey
      exact ⟨hsame w' hlive i key hkey, by simp, by simp⟩
  | consume pool ticket S handler =>
    left
    unfold step
    dsimp only
    split
    · rename_i e he
      intro i key hkey
      refine ⟨hkey, by simp, ?_⟩
      rintro _ _ _ ⟨⟩ hok
      rw [he] at hok
      cases hok
    · rename_i key hkey
      split
      · rename_i hin
        obtain ⟨hlive, -⟩ := (w.remove pool key).change_cases (P pool)
          (pure (consume_entry (P pool) F key S)) fault
        have hgone : ∀ w' : World, w'.live = (w.remove pool key).live → ∀ i k, k ∈ w'.live i →
            k ∈ w.live i ∧ Call.consume pool ticket S handler ≠ .restart i ∧
              ∀ ticket' S' handler', Call.consume pool ticket S handler = .consume i ticket' S' handler' →
                keyOf (P i) ticket' ≠ .ok k := by
          intro w' hw' i k hk
          rw [hw'] at hk
          unfold World.remove at hk
          dsimp only at hk
          by_cases hi : i = pool
          · subst hi
            rw [Function.update_self, List.mem_filter] at hk
            refine ⟨hk.1, by simp, ?_⟩
            rintro _ _ _ ⟨⟩ hok
            rw [hkey] at hok
            obtain rfl := Except.ok.inj hok
            simp at hk
          · rw [Function.update_of_ne hi] at hk
            refine ⟨hk, by simp, ?_⟩
            rintro _ _ _ ⟨⟩
            exact absurd rfl hi
        split
        · rename_i w' hw'
          rw [hw'] at hlive
          exact hgone w' hlive
        · rename_i w' hw'
          rw [hw'] at hlive
          split
          · exact hgone _ ((stage_live_mark_unknown _ _ _ _ _ _).trans hlive)
          · exact hgone w' hlive
      · rename_i hnot
        intro i k hk
        refine ⟨hk, by simp, ?_⟩
        rintro _ _ _ ⟨⟩ hok
        rw [hkey] at hok
        obtain rfl := Except.ok.inj hok
        exact hnot hk
  | mark_unknown pool ticket reason recorded_at =>
    left
    intro i key hkey
    exact ⟨hsame _ (stage_live_mark_unknown _ _ _ _ _ _) i key hkey, by simp, by simp⟩
  | settle pool ticket R =>
    left
    intro i key hkey
    exact ⟨hsame _ (w.change_cases _ _ fault).1 i key hkey, by simp, by simp⟩
  | restart pool =>
    left
    intro i key hkey
    unfold step at hkey
    dsimp only at hkey
    by_cases hi : i = pool
    · subst hi
      simp at hkey
    · rw [Function.update_of_ne hi] at hkey
      refine ⟨hkey, ?_, by simp⟩
      rintro ⟨⟩
      exact hi rfl

/-! ## Runs -/

theorem run_append (P : Nat → ServicePool) (w : World) (turns more : List Turn) :
    run P w (turns ++ more) = run P (run P w turns) more := List.foldl_append

theorem run_concat (P : Nat → ServicePool) (w : World) (turns : List Turn) (t : Turn) :
    run P w (turns ++ [t]) = step P t.files t.fault (run P w turns) t.call := by
  rw [run_append]
  rfl

theorem run_later (P : Nat → ServicePool) (turns : List Turn) {w : World} {i : Nat} {e : Entry}
    (hi : w.entries[i]? = some e) : ∃ e', (run P w turns).entries[i]? = some e' ∧ Later e e' := by
  induction turns generalizing w e with
  | nil => exact ⟨e, hi, .refl e⟩
  | cons t turns ih =>
    obtain ⟨e₁, hi₁, h₁, -⟩ := step_kept P t.files t.fault w t.call hi
    obtain ⟨e₂, hi₂, h₂⟩ := ih hi₁
    exact ⟨e₂, hi₂, h₁.trans h₂⟩

/-- The turn that admitted the attempt at a place, in this pool object, which
has not restarted since. -/
def Admitted (P : Nat → ServicePool) (bytes : ByteArray) (turns : List Turn) (pool : Nat) (key : Str)
    (place : Nat) : Prop :=
  ∃ before admission after request_bytes preview_bytes approval_bytes recorded_at e,
    turns = before ++ admission :: after ∧
    admission.call = .admit_request pool request_bytes preview_bytes approval_bytes recorded_at ∧
    sha request_bytes = key ∧ (run P (start bytes) before).entries.length = place ∧
    (run P (start bytes) (before ++ [admission])).entries =
      (run P (start bytes) before).entries ++ [e] ∧ e.New request_bytes ∧
    ∀ t ∈ after, t.call ≠ .restart pool

/-- The record in the state file was checked when it was published, and every
capability comes from an admission. -/
structure Good (P : Nat → ServicePool) (bytes : ByteArray) (turns : List Turn) (w : World) : Prop where
  state : w.disk.state = .whole (.prior bytes) ∨ ∃ record, w.disk.state = .whole (.service record) ∧
    ∃ t ∈ turns, validate (P t.call.pool) record = .ok ()
  admitted : ∀ i key, key ∈ w.live i → ∃ place, Admitted P bytes turns i key place

variable {P : Nat → ServicePool} {bytes : ByteArray} {turns : List Turn}

theorem Admitted.concat {pool place : Nat} {key : Str} (h : Admitted P bytes turns pool key place)
    {t : Turn} (ht : t.call ≠ .restart pool) : Admitted P bytes (turns ++ [t]) pool key place := by
  obtain ⟨before, admission, after, request_bytes, preview_bytes, approval_bytes, recorded_at, e, rfl,
    hcall, hkey, hplace, hentries, hnew, hafter⟩ := h
  refine ⟨before, admission, after ++ [t], request_bytes, preview_bytes, approval_bytes, recorded_at, e,
    by simp, hcall, hkey, hplace, hentries, hnew, ?_⟩
  intro x hx
  rcases List.mem_append.mp hx with hx | hx
  · exact hafter x hx
  · obtain rfl := List.mem_singleton.mp hx
    exact ht

/-- The attempt that a capability was made for is still there, at its place. -/
theorem Admitted.entry {pool place : Nat} {key : Str} (h : Admitted P bytes turns pool key place) :
    ∃ e, (run P (start bytes) turns).entries[place]? = some e ∧ e.request_sha256 = key := by
  obtain ⟨before, admission, after, request_bytes, preview_bytes, approval_bytes, recorded_at, e, rfl,
    hcall, hkey, rfl, hentries, hnew, hafter⟩ := h
  have hi : (run P (start bytes) (before ++ [admission])).entries[
      (run P (start bytes) before).entries.length]? = some e := by
    rw [hentries, List.getElem?_concat_length]
  obtain ⟨e', he', hlater⟩ := run_later P after hi
  rw [← run_append, List.append_assoc] at he'
  exact ⟨e', he', hlater.request_sha256.trans (hnew.key.trans hkey)⟩

theorem good_start : Good P bytes [] (start bytes) where
  state := .inl rfl
  admitted i key h := by simp [start] at h

/-- The state file is checked at every stage of a call. -/
theorem Stage.state {Q : ServicePool} {New : Entry → Prop} {Move : Entry → Entry → Prop} {w w' : World}
    (h : Stage Q New Move w w') :
    w'.disk.state = w.disk.state ∨
      ∃ record, w'.disk.state = .whole (.service record) ∧ validate Q record = .ok () := by
  cases h with
  | same hstate => exact .inl hstate
  | attached bytes next hstate hstate' hbytes hvalid hentries => exact .inr ⟨next, hstate', hvalid⟩
  | changed old next hstate hstate' hold hvalid hchange => exact .inr ⟨next, hstate', hvalid⟩

theorem good_concat (h : Good P bytes turns (run P (start bytes) turns)) (t : Turn) :
    Good P bytes (turns ++ [t]) (run P (start bytes) (turns ++ [t])) := by
  rw [run_concat]
  refine ⟨?_, fun i key hkey => ?_⟩
  · obtain ⟨mid, hfirst, hsecond, -⟩ := step_stages P t.files t.fault (run P (start bytes) turns) t.call
    rcases hsecond.state with hsame | ⟨record, hstate, hvalid⟩
    · rw [hsame]
      rcases hfirst.state with hsame | ⟨record, hstate, hvalid⟩
      · rw [hsame]
        rcases h.state with hstate | ⟨record, hstate, x, hx, hvalid⟩
        · exact .inl hstate
        · exact .inr ⟨record, hstate, x, List.mem_append_left _ hx, hvalid⟩
      · exact .inr ⟨record, hstate, t, by simp, hvalid⟩
    · exact .inr ⟨record, hstate, t, by simp, hvalid⟩
  · rcases step_live P t.files t.fault (run P (start bytes) turns) t.call with
      hless | ⟨pool, request_bytes, preview_bytes, approval_bytes, recorded_at, e, hcall, hnew, hentries,
        hlive⟩
    · obtain ⟨hkey, hne, -⟩ := hless i key hkey
      obtain ⟨place, hplace⟩ := h.admitted i key hkey
      exact ⟨place, hplace.concat hne⟩
    · rw [hlive] at hkey
      by_cases hi : i = pool
      · subst hi
        rw [Function.update_self] at hkey
        rcases List.mem_cons.mp hkey with rfl | hkey
        · refine ⟨_, turns, t, [], request_bytes, preview_bytes, approval_bytes, recorded_at, e, rfl,
            hcall, rfl, rfl, ?_, hnew, by simp⟩
          rw [run_concat]
          exact hentries
        · obtain ⟨place, hplace⟩ := h.admitted i key hkey
          refine ⟨place, hplace.concat ?_⟩
          rw [hcall]
          simp
      · rw [Function.update_of_ne hi] at hkey
        obtain ⟨place, hplace⟩ := h.admitted i key hkey
        refine ⟨place, hplace.concat ?_⟩
        rw [hcall]
        simp

theorem good_run (P : Nat → ServicePool) (bytes : ByteArray) (turns : List Turn) :
    Good P bytes turns (run P (start bytes) turns) := by
  induction turns using List.reverseRecOn with
  | nil => exact good_start
  | append_singleton turns t ih => exact good_concat ih t

/-! ## Every run -/

/-- What holds of every run of the calls, from the record of an owner on. -/
structure Safe (P : Nat → ServicePool) (bytes : ByteArray) (turns : List Turn) : Prop where
  /-- The state file is whole. A record of the pool in it was checked when it was
  published: nothing is charged twice, and the revision counts the events. -/
  published : (run P (start bytes) turns).disk.state = .whole (.prior bytes) ∨
    ∃ record, (run P (start bytes) turns).disk.state = .whole (.service record) ∧
      ∃ t ∈ turns, validate (P t.call.pool) record = .ok () ∧ record.body.Sound (P t.call.pool)
  /-- Nothing is lost: requests and starts are written once, and states go along
  the edges. -/
  kept : ∀ (more : List Turn) (i : Nat) (e : Entry), (run P (start bytes) turns).entries[i]? = some e →
    ∃ e', (run P (start bytes) (turns ++ more)).entries[i]? = some e' ∧ Later e e' ∧
      (e.state = .UNKNOWN → e'.state = .UNKNOWN)
  /-- What is new is admitted, in a call that admits it. -/
  new : ∀ (t : Turn) (i : Nat) (e : Entry), (run P (start bytes) turns).entries[i]? = none →
    (run P (start bytes) (turns ++ [t])).entries[i]? = some e → Takes t.call e
  /-- An attempt starts in a call that has the capability of its own admission. -/
  consumed : ∀ (t : Turn) (i : Nat) (e e' : Entry), (run P (start bytes) turns).entries[i]? = some e →
    (run P (start bytes) (turns ++ [t])).entries[i]? = some e' → e'.start_sha256 ≠ e.start_sha256 →
    ∃ pool ticket S handler, t.call = .consume pool ticket S handler ∧
      keyOf (P pool) ticket = .ok e.request_sha256 ∧
      e.request_sha256 ∈ (run P (start bytes) turns).live pool ∧
      Admitted P bytes turns pool e.request_sha256 i
  /-- An attempt to start leaves no capability, however it ends. -/
  burned : ∀ (t : Turn) pool ticket S handler key, t.call = .consume pool ticket S handler →
    keyOf (P pool) ticket = .ok key → key ∉ (run P (start bytes) (turns ++ [t])).live pool

/-- A service pool keeps its attempts, over every sequence of calls, accepted or
refused, stopped anywhere, and across restarts. -/
theorem service_is_safe (P : Nat → ServicePool) (bytes : ByteArray) (turns : List Turn) :
    Safe P bytes turns where
  published := by
    rcases (good_run P bytes turns).state with h | ⟨record, h, t, ht, hvalid⟩
    · exact .inl h
    · exact .inr ⟨record, h, t, ht, hvalid, validate_eq_ok hvalid⟩
  kept more i e hi := by
    rw [run_append]
    obtain ⟨e', hi', hlater⟩ := run_later P more hi
    refine ⟨e', hi', hlater, fun hunknown => ?_⟩
    have hstate := hlater.state
    rw [hunknown] at hstate
    exact unknown_stays hstate
  new t i e hnone hi := by
    rw [run_concat] at hi
    obtain ⟨mid, hfirst, hsecond, hlast⟩ := step_stages P t.files t.fault (run P (start bytes) turns) t.call
    have hfirst' : ∀ e₁, mid.entries[i]? = some e₁ → Takes t.call e₁ := by
      intro e₁ hi₁
      rcases hfirst.entries with hsame | hchange
      · rw [hsame, hnone] at hi₁
        cases hi₁
      · rcases hchange.came hi₁ with ⟨_, hold, -⟩ | ⟨-, htakes⟩
        · rw [hnone] at hold
          cases hold
        · exact htakes
    rcases hlast with rfl | hnothing
    · exact hfirst' e hi
    · -- What is marked in the second publication was there before the call.
      rcases hsecond.entries with hsame | hchange
      · rw [hsame] at hi
        exact hfirst' e hi
      · rcases hchange.came hi with ⟨e₁, hi₁, -⟩ | ⟨-, hfalse⟩
        · exact absurd (hfirst' e₁ hi₁) (hnothing e₁)
        · exact hfalse.elim
  consumed t i e e' hi hi' hne := by
    have hgood := good_run P bytes turns
    rw [run_concat] at hi'
    obtain ⟨e₁, hi₁, -, hstarts⟩ := step_kept P t.files t.fault (run P (start bytes) turns) t.call hi
    obtain rfl : e₁ = e' := Option.some.inj (hi₁.symm.trans hi')
    obtain ⟨pool, ticket, S, handler, hcall, hkey, hlive, j, hsingle⟩ := hstarts hne
    obtain ⟨place, hplace⟩ := hgood.admitted pool _ hlive
    obtain ⟨e₂, hi₂, hkey₂⟩ := hplace.entry
    -- The key has one entry, so the capability is the one of its own admission.
    obtain rfl : i = place := (hsingle i e hi rfl).trans (hsingle place e₂ hi₂ hkey₂).symm
    exact ⟨pool, ticket, S, handler, hcall, hkey, hlive, hplace⟩
  burned t pool ticket S handler key hcall hkey hlive := by
    rw [run_concat] at hlive
    rcases step_live P t.files t.fault (run P (start bytes) turns) t.call with
      hless | ⟨_, _, _, _, _, _, hadmit, -⟩
    · exact (hless pool key hlive).2.2 ticket S handler hcall hkey
    · rw [hcall] at hadmit
      cases hadmit

end vfy.service_attempt
