-- The laws of the managed epoch. What a record that is accepted says, what one
-- call can do to the record and to the tokens, and from that every run.
import VerifyRun.Lib.Entries
import VerifyRun.ManagedCapacity
import VerifyRun.ChildRecords

namespace vfy.managed_capacity

open python keys outcomes child_ledger common_capacity entries

/-! ## The texts of paths -/

/-- What `str` writes of an absolute path with these parts. -/
def textOfParts (p : List Str) : Str := .scalar '/' :: [CodePoint.scalar '/'].intercalate p

/-- A text that names its path as `str` does. -/
def CanonicalText (v : Str) : Prop := v = textOfParts (parts v)

instance (v : Str) : Decidable (CanonicalText v) := inferInstanceAs (Decidable (_ = _))

/-- No path has two of these texts. -/
theorem CanonicalText.eq_of_parts {v w : Str} (hv : CanonicalText v) (hw : CanonicalText w)
    (h : parts v = parts w) : v = w := by
  unfold CanonicalText at hv hw
  rw [hv, hw, h]

/-! ## A record that is accepted -/

/-- What is held is what is owed: everything until a receipt is known. -/
structure Entry.Held (e : Entry) : Prop where
  receipt : ∀ r ∈ e.consumption, r = e.binding.receipt_sha256
  unsettled : e.settlement = none → e.retained_bytes = HOLD
  settled : ∀ s ∈ e.settlement,
    s.state = KNOWN ∧ e.consumption.isSome ∧ e.retained_bytes = e.binding.receipt_bytes ∨
      s.state = UNKNOWN_HOLD ∧ e.retained_bytes = HOLD

theorem check_settlement_eq_ok {e : Entry} {s : Settlement} (h : check_settlement e s = .ok ()) :
    s.state = KNOWN ∧ e.consumption.isSome ∧ e.retained_bytes = e.binding.receipt_bytes ∨
      s.state = UNKNOWN_HOLD ∧ e.retained_bytes = HOLD := by
  unfold check_settlement at h
  obtain ⟨-, h⟩ := seq_eq_ok.mp h
  split at h
  · rename_i hknown
    obtain ⟨hconsumed, -, -, -, hretained⟩ := need_eq_ok.mp h
    exact .inl ⟨hknown, hconsumed, hretained⟩
  · obtain ⟨hunknown, -, -, -, hretained⟩ := need_eq_ok.mp h
    exact .inr ⟨hunknown, hretained⟩

/-- One turn of the reader: the entry is held as it should be, and its key and
its claims are new. -/
theorem check_entry_eq_ok {M : ManagedOwner} {F : Files} {seen seen' : Seen} {e : Entry}
    (h : check_entry M F seen e = .ok seen') :
    e.Held ∧ e.key ∉ seen.keys ∧ e.binding.capture_identity ∉ seen.captures ∧
      e.binding.managed_attempt ∉ seen.attempts ∧ e.binding.destination ∉ seen.destinations ∧
      seen' = { keys := seen.keys ++ [e.key], captures := seen.captures ++ [e.binding.capture_identity],
                attempts := seen.attempts ++ [e.binding.managed_attempt],
                destinations := seen.destinations ++ [e.binding.destination],
                events := seen.events + e.events } := by
  unfold check_entry at h
  simp only [bind_eq_ok, exists_unit, need_eq_ok, needOr_eq_ok] at h
  obtain ⟨-, -, _, -, ⟨-, hkey⟩, ⟨hcapture, hattempt, hdestination⟩, -, hreceipt, h⟩ := h
  split at h
  · rename_i hnone
    simp only [bind_eq_ok, exists_unit, need_eq_ok, pure_eq_ok] at h
    obtain ⟨hretained, rfl⟩ := h
    refine ⟨⟨hreceipt, fun _ => hretained, ?_⟩, hkey, hcapture, hattempt, hdestination, rfl⟩
    rw [hnone]
    simp
  · rename_i s hsome
    simp only [bind_eq_ok, exists_unit, pure_eq_ok] at h
    obtain ⟨hsettled, rfl⟩ := h
    refine ⟨⟨hreceipt, ?_, ?_⟩, hkey, hcapture, hattempt, hdestination, rfl⟩
    · rw [hsome]
      simp
    · rw [hsome]
      rintro _ ⟨⟩
      exact check_settlement_eq_ok hsettled

/-- What the reader has met, and met only once. -/
structure Seen.Of (seen : Seen) (es : List Entry) : Prop where
  held : ∀ e ∈ es, e.Held
  keys : seen.keys = es.map Entry.key ∧ seen.keys.Nodup
  captures : seen.captures = es.map (·.binding.capture_identity) ∧ seen.captures.Nodup
  attempts : seen.attempts = es.map (·.binding.managed_attempt) ∧ seen.attempts.Nodup
  destinations : seen.destinations = es.map (·.binding.destination) ∧ seen.destinations.Nodup

theorem check_entries {M : ManagedOwner} {F : Files} {es before : List Entry} {seen seen' : Seen}
    (hseen : seen.Of before) (h : es.foldlM (check_entry M F) seen = .ok seen') :
    seen'.Of (before ++ es) := by
  induction es generalizing seen before with
  | nil =>
    obtain rfl := pure_eq_ok.mp h
    simpa using hseen
  | cons e es ih =>
    rw [List.foldlM_cons] at h
    obtain ⟨next, hnext, h⟩ := bind_eq_ok.mp h
    obtain ⟨hheld, hkey, hcapture, hattempt, hdestination, rfl⟩ := check_entry_eq_ok hnext
    rw [show before ++ e :: es = (before ++ [e]) ++ es by simp]
    refine ih ⟨?_, ?_, ?_, ?_, ?_⟩ h
    · intro x hx
      rcases List.mem_append.mp hx with hx | hx
      · exact hseen.held x hx
      · obtain rfl := List.mem_singleton.mp hx
        exact hheld
    · exact ⟨by simp [hseen.keys.1], nodup_concat hseen.keys.2 hkey⟩
    · exact ⟨by simp [hseen.captures.1], nodup_concat hseen.captures.2 hcapture⟩
    · exact ⟨by simp [hseen.attempts.1], nodup_concat hseen.attempts.2 hattempt⟩
    · exact ⟨by simp [hseen.destinations.1], nodup_concat hseen.destinations.2 hdestination⟩

/-- What a record that is accepted says of its body. -/
structure Body.Sound (M : ManagedOwner) (b : Body) : Prop where
  held : ∀ e ∈ b.managed_entries, e.Held
  keys : (b.managed_entries.map Entry.key).Nodup
  captures : (b.managed_entries.map (·.binding.capture_identity)).Nodup
  attempts : (b.managed_entries.map (·.binding.managed_attempt)).Nodup
  destinations : (b.managed_entries.map (·.binding.destination)).Nodup
  legacy : b.legacy_raw = M.legacy_bytes
  within : ∃ revision used caps, legacy_view M = .ok (revision, used) ∧ capacities M b = .ok caps ∧
    fitsWithin (usage used b) caps

theorem validate_record_eq_ok {M : ManagedOwner} {F : Files} {record : Envelope Body}
    (h : validate_record M F record = .ok ()) : record.body.Sound M := by
  unfold validate_record at h
  simp only [bind_eq_ok, exists_unit, need_eq_ok, needOr_eq_ok] at h
  obtain ⟨b, hb, -, -, hlegacy, ⟨revision, used⟩, hview, h⟩ := h
  obtain rfl := authenticate_eq_ok hb
  split at h
  · simp only [bind_eq_ok, exists_unit, need_eq_ok] at h
    obtain ⟨-, -, -, seen, hseen, -, -, caps, hcaps, hfits⟩ := h
    have hstart : Seen.Of ⟨[], [], [], [], 1⟩ [] := ⟨by simp, by simp, by simp, by simp, by simp⟩
    have hof := check_entries hstart hseen
    rw [List.nil_append] at hof
    exact ⟨hof.held, hof.keys.1 ▸ hof.keys.2, hof.captures.1 ▸ hof.captures.2,
      hof.attempts.1 ▸ hof.attempts.2, hof.destinations.1 ▸ hof.destinations.2, hlegacy,
      ⟨revision, used, caps, hview, hcaps, hfits⟩⟩
  · cases h

/-! ## What is published -/

theorem publish_eq_ok {M : ManagedOwner} {F : Files} {b : Body} {record : Envelope Body}
    (h : publish M F b = .ok record) : record.body = b ∧ validate_record M F record = .ok () := by
  unfold publish at h
  simp only [bind_eq_ok, exists_unit, pure_eq_ok] at h
  obtain ⟨_, henvelope, hvalid, _, -, -, rfl⟩ := h
  exact ⟨envelope_eq_ok henvelope, hvalid⟩

theorem change_eq_ok {α : Type} {M : ManagedOwner} {F : Files} {old next : Envelope Body}
    {fn : Body → Checked (Body × α)} {a : α} (h : change M F old fn = .ok (next, a)) :
    load M F old = .ok () ∧ validate_record M F next = .ok () ∧ ∃ b, fn old.body = .ok (b, a) ∧
      next.body = { b with revision := b.revision + 1, previous := old.sha256 } := by
  unfold change at h
  simp only [bind_eq_ok, exists_unit, pure_eq_ok] at h
  obtain ⟨hload, ⟨b, r⟩, hfn, _, hpublish, h⟩ := h
  obtain ⟨rfl, rfl⟩ := Prod.mk.inj h
  obtain ⟨hbody, hvalid⟩ := publish_eq_ok hpublish
  exact ⟨hload, hvalid, b, hfn, hbody⟩

theorem apply_grant_eq_ok {M : ManagedOwner} {F : Files} {current : Envelope common_capacity.Body}
    {grant_request_bytes : ByteArray} {recorded_at : Str} {next : Envelope Body}
    (h : apply_grant M F current grant_request_bytes recorded_at = .ok next) :
    validate_record M F next = .ok () ∧ next.body.managed_entries = [] ∧
      raw (value current) = .ok next.body.legacy_raw := by
  unfold apply_grant at h
  simp only [bind_eq_ok, exists_unit] at h
  obtain ⟨_, -, -, -, _, -, bytes, hbytes, -, -, h⟩ := h
  obtain ⟨hbody, hvalid⟩ := publish_eq_ok h
  refine ⟨hvalid, ?_, ?_⟩
  · rw [hbody]
  · rw [hbody]
    exact hbytes

/-! ## What one call does to the entries -/

/-- A hold that was just taken. -/
structure Entry.New (key : Str) (e : Entry) : Prop where
  key : e.key = key
  consumption : e.consumption = none
  settlement : e.settlement = none
  retained_bytes : e.retained_bytes = HOLD

/-- The three ways in which a hold moves on, each under its own call. -/
inductive Moves (w : World) : Call → Entry → Entry → Prop where
  | consumed (g : Guard) (A : Callbacks) (token : Nat) (e : Entry) :
      g.token = some token → w.memory.holds g.owner g.key token → e.key = g.key →
      e.consumption = none → e.settlement = none →
      Moves w (.before_callback g A) e { e with consumption := some e.binding.receipt_sha256 }
  | known (g : Guard) (callback_bytes complete_bytes : ByteArray) (recorded_at : Str) (e : Entry)
      (s : Settlement) : e.key = g.key → e.consumption.isSome → e.settlement = none →
      s.state = KNOWN → callback_bytes.size = e.binding.receipt_bytes →
      Moves w (.settle g callback_bytes complete_bytes recorded_at) e
        { e with retained_bytes := callback_bytes.size, settlement := some s }
  | unknown (g : Guard) (reason recorded_at : Str) (e : Entry) (s : Settlement) : e.key = g.key →
      e.settlement = none → s.state = UNKNOWN_HOLD →
      Moves w (.mark_unknown g reason recorded_at) e { e with settlement := some s }

theorem entry_of_eq_ok {b : Body} {key : Str} {e : Entry} {i : Nat}
    (h : entry_of b key = .ok (e, i)) : b.managed_entries[i]? = some e ∧ e.key = key := by
  unfold entry_of at h
  split at h
  · rename_i found hfound
    obtain rfl := pure_eq_ok.mp h
    simpa using mem_of_filter_zipIdx hfound
  · cases h

theorem hold_entry_eq_ok {M : ManagedOwner} {q : Binding} {key recorded_at : Str} {b b' : Body}
    (h : hold_entry M q key recorded_at b = .ok (b', ())) :
    ∃ e : Entry, e.New key ∧ e.binding = q ∧ b'.managed_entries = b.managed_entries ++ [e] := by
  unfold hold_entry at h
  simp only [bind_eq_ok, exists_unit, pure_eq_ok] at h
  obtain ⟨-, _, -, _, -, -, h⟩ := h
  obtain ⟨rfl, -⟩ := Prod.mk.inj h
  exact ⟨_, ⟨rfl, rfl, rfl, rfl⟩, rfl, rfl⟩

theorem consume_entry_eq_ok {F : Files} {key : Str} {A : Callbacks} {b b' : Body}
    (h : consume_entry F key A b = .ok (b', ())) :
    ∃ (i : Nat) (e : Entry), b.managed_entries[i]? = some e ∧ e.key = key ∧ e.consumption = none ∧
      e.settlement = none ∧ b' = b.setEntry i { e with consumption := some e.binding.receipt_sha256 } := by
  unfold consume_entry at h
  simp only [bind_eq_ok, exists_unit, needOr_eq_ok, pure_eq_ok] at h
  obtain ⟨⟨e, i⟩, hentry, ⟨hconsumption, hsettlement⟩, h⟩ := h
  obtain ⟨hi, hkey⟩ := entry_of_eq_ok hentry
  obtain ⟨-, _, -, _, -, _, -, _, -, -, -, _, -, -, h⟩ := h
  obtain ⟨rfl, -⟩ := Prod.mk.inj h
  exact ⟨i, e, hi, hkey, by simpa using hconsumption, by simpa using hsettlement, rfl⟩

theorem settle_entry_eq_ok {F : Files} {key : Str} {callback_bytes complete_bytes : ByteArray}
    {recorded_at : Str} {b b' : Body}
    (h : settle_entry F key callback_bytes complete_bytes recorded_at b = .ok (b', ())) :
    ∃ (i : Nat) (e : Entry) (s : Settlement), b.managed_entries[i]? = some e ∧ e.key = key ∧
      e.consumption.isSome ∧ e.settlement = none ∧ s.state = KNOWN ∧
      callback_bytes.size = e.binding.receipt_bytes ∧
      b' = b.setEntry i { e with retained_bytes := callback_bytes.size, settlement := some s } := by
  unfold settle_entry at h
  simp only [bind_eq_ok, exists_unit, need_eq_ok, needOr_eq_ok, pure_eq_ok] at h
  obtain ⟨⟨e, i⟩, hentry, ⟨hconsumption, hsettlement⟩, ⟨-, hsize, -, -⟩, h⟩ := h
  obtain ⟨hi, hkey⟩ := entry_of_eq_ok hentry
  obtain ⟨_, -, _, -, _, -, _, -, -, h⟩ := h
  obtain ⟨rfl, -⟩ := Prod.mk.inj h
  exact ⟨i, e, _, hi, hkey, hconsumption, by simpa using hsettlement, rfl, hsize, rfl⟩

theorem unknown_entry_eq_ok {key reason recorded_at : Str} {b b' : Body}
    (h : unknown_entry key reason recorded_at b = .ok (b', ())) :
    ∃ (i : Nat) (e : Entry) (s : Settlement), b.managed_entries[i]? = some e ∧ e.key = key ∧
      e.settlement = none ∧ s.state = UNKNOWN_HOLD ∧
      b' = b.setEntry i { e with settlement := some s } := by
  unfold unknown_entry at h
  simp only [bind_eq_ok, exists_unit, need_eq_ok, pure_eq_ok] at h
  obtain ⟨⟨e, i⟩, hentry, hsettlement, h⟩ := h
  obtain ⟨hi, hkey⟩ := entry_of_eq_ok hentry
  obtain ⟨rfl, -⟩ := Prod.mk.inj h
  exact ⟨i, e, _, hi, hkey, by simpa using hsettlement, rfl, rfl⟩

/-! ## What one call does to the files -/

/-- The holds in the state file. -/
def World.entries (w : World) : List Entry :=
  match w.disk.state with
  | .whole (.managed record) => record.body.managed_entries
  | _ => []

/-- A call that takes a hold, and a hold that it takes. -/
def Takes (c : Call) (e : Entry) : Prop :=
  ∃ owner R recorded_at key, c = .prepare_managed owner R recorded_at ∧ e.New key ∧
    read_request R.request_bytes = .ok e.binding

/-- What a call publishes over what is in the state file. -/
inductive Publishes (M : ManagedOwner) (F : Files) (w : World) (c : Call) (next : Envelope Body) :
    Prop where
  | granted (current : Envelope common_capacity.Body) : w.disk.state = .whole (.legacy current) →
      raw (value current) = .ok next.body.legacy_raw → next.body.managed_entries = [] →
      Publishes M F w c next
  | changed (old : Envelope Body) : w.disk.state = .whole (.managed old) → load M F old = .ok () →
      Change (Takes c) (Moves w c) old.body.managed_entries next.body.managed_entries →
      Publishes M F w c next

theorem World.after_memory (w : World) (next : Checked (Envelope Body)) (fault : Option journal.Fault) :
    (w.after next fault).memory = w.memory := by
  unfold World.after
  split <;> rfl

theorem World.after_cases (w : World) (next : Checked (Envelope Body)) (fault : Option journal.Fault) :
    (w.after next fault).disk.state = w.disk.state ∨
      ∃ record, next = .ok record ∧ (w.after next fault).disk.state = .whole (.managed record) := by
  unfold World.after
  split
  · rename_i record
    rcases journal.publish_cases (.managed record) fault w.disk with h | h | h
    · exact .inl (congrArg journal.Disk.state h)
    · exact .inl h.1
    · exact .inr ⟨record, rfl, congrArg journal.Disk.state h⟩
  · exact .inl rfl

theorem World.record_eq_ok {w : World} {old : Envelope Body} (h : w.record = .ok old) :
    w.disk = { state := .whole (.managed old), pending := none } := by
  unfold World.record at h
  split at h
  · rename_i record hdisk
    obtain rfl := pure_eq_ok.mp h
    exact hdisk
  · cases h

theorem World.change_eq_ok {M : ManagedOwner} {F : Files} {w : World}
    {fn : Body → Checked (Body × Unit)} {next : Envelope Body} (h : w.change M F fn = .ok next) :
    ∃ (old : Envelope Body) (b : Body), w.disk.state = .whole (.managed old) ∧
      load M F old = .ok () ∧ validate_record M F next = .ok () ∧ fn old.body = .ok (b, ()) ∧
      next.body.managed_entries = b.managed_entries := by
  unfold World.change at h
  simp only [bind_eq_ok, pure_eq_ok] at h
  obtain ⟨old, hold, ⟨_, _⟩, hchange, rfl⟩ := h
  obtain ⟨hload, hvalid, b, hfn, hbody⟩ := managed_capacity.change_eq_ok hchange
  exact ⟨old, b, congrArg journal.Disk.state (World.record_eq_ok hold), hload, hvalid, hfn,
    by rw [hbody]⟩

/-- A change that moves one hold on is published as such. -/
theorem publishes_of_change {M : ManagedOwner} {F : Files} {w : World} {c : Call}
    {fn : Body → Checked (Body × Unit)} {next : Envelope Body} (h : w.change M F fn = .ok next)
    (hfn : ∀ b b', fn b = .ok (b', ()) → ∃ (i : Nat) (e e' : Entry), b.managed_entries[i]? = some e ∧
      Moves w c e e' ∧ b' = b.setEntry i e') :
    validate_record M F next = .ok () ∧ Publishes M F w c next := by
  obtain ⟨old, b, hstate, hload, hvalid, hb, hentries⟩ := World.change_eq_ok h
  obtain ⟨i, e, e', hi, hmove, rfl⟩ := hfn _ _ hb
  refine ⟨hvalid, .changed old hstate hload ?_⟩
  rw [hentries]
  exact .move i e e' hi hmove

theorem inspect_eq_ok {M : ManagedOwner} {F : Files} {R : Request} {q : Binding}
    (h : inspect_managed_request M F R = .ok q) : read_request R.request_bytes = .ok q := by
  unfold inspect_managed_request at h
  simp only [bind_eq_ok, exists_unit, pure_eq_ok] at h
  obtain ⟨q', hq', -, -, _, -, _, -, -, _, -, -, -, _, -, _, -, _, -, -, -, -, -, -, -, -, -, _, -, -, rfl⟩ := h
  exact hq'

theorem prepare_eq_ok {M : ManagedOwner} {F : Files} {w : World} {R : Request} {recorded_at : Str}
    {next : Envelope Body} {key : Str}
    (h : (do prepare_managed M F (← w.record) R recorded_at) = Except.ok (next, key)) :
    validate_record M F next = .ok () ∧ ∃ (old : Envelope Body) (e : Entry),
      w.disk = { state := .whole (.managed old), pending := none } ∧ load M F old = .ok () ∧
      e.New key ∧ read_request R.request_bytes = .ok e.binding ∧
      next.body.managed_entries = old.body.managed_entries ++ [e] := by
  obtain ⟨old, hold, h⟩ := bind_eq_ok.mp h
  unfold prepare_managed at h
  simp only [bind_eq_ok, exists_unit, pure_eq_ok] at h
  obtain ⟨-, q, hinspect, _, -, ⟨_, _⟩, hchange, h⟩ := h
  obtain ⟨rfl, rfl⟩ := Prod.mk.inj h
  obtain ⟨hload, hvalid, b, hfn, hbody⟩ := change_eq_ok hchange
  obtain ⟨e, hnew, rfl, hentries⟩ := hold_entry_eq_ok hfn
  refine ⟨hvalid, old, e, World.record_eq_ok hold, hload, hnew, inspect_eq_ok hinspect, ?_⟩
  rw [hbody]
  exact hentries

/-- The state file stays as it is, or holds what the call published, which was
checked first. -/
theorem step_state (M : Nat → ManagedOwner) (F : Files) (fault : Option journal.Fault) (w : World)
    (c : Call) :
    (step M F fault w c).disk.state = w.disk.state ∨
      ∃ next, (step M F fault w c).disk.state = .whole (.managed next) ∧
        validate_record (M c.owner) F next = .ok () ∧ Publishes (M c.owner) F w c next := by
  cases c with
  | apply_grant owner grant_request_bytes recorded_at =>
    unfold step
    dsimp only
    split
    · rename_i current hdisk
      rcases w.after_cases (apply_grant (M owner) F current grant_request_bytes recorded_at) fault with
        h | ⟨next, hnext, h⟩
      · exact .inl h
      · obtain ⟨hvalid, hentries, hbytes⟩ := apply_grant_eq_ok hnext
        exact .inr ⟨next, h, hvalid, .granted current (congrArg journal.Disk.state hdisk) hbytes hentries⟩
    · exact .inl rfl
  | prepare_managed owner R recorded_at =>
    unfold step
    dsimp only
    split
    · rename_i next key hprepare
      obtain ⟨hvalid, old, e, hdisk, hload, hnew, hasked, hentries⟩ := prepare_eq_ok hprepare
      have hstate : (if fault = none then
          ({ w.after (.ok next) fault with memory := (w.after (.ok next) fault).memory.issue owner key })
          else w.after (.ok next) fault).disk = (w.after (.ok next) fault).disk := by
        split <;> rfl
      rw [hstate]
      rcases w.after_cases (.ok next) fault with h | ⟨record, hrecord, h⟩
      · exact .inl h
      · obtain rfl := Except.ok.inj hrecord
        refine .inr ⟨next, h, hvalid, .changed old (congrArg journal.Disk.state hdisk) hload ?_⟩
        rw [hentries]
        exact .add e ⟨owner, R, recorded_at, key, rfl, hnew, hasked⟩
    · exact .inl rfl
  | guard owner key =>
    unfold step
    dsimp only
    split <;> exact .inl rfl
  | before_callback g A =>
    unfold step
    dsimp only
    split
    · rename_i token htoken
      split
      · rename_i hlive
        rcases World.after_cases { w with memory := w.memory.burn g.owner g.key }
          (World.change (M g.owner) F { w with memory := w.memory.burn g.owner g.key }
            (consume_entry F g.key A)) fault with h | ⟨next, hnext, h⟩
        · exact .inl h
        · refine .inr ⟨next, h, ?_⟩
          have hnext' : w.change (M g.owner) F (consume_entry F g.key A) = .ok next := hnext
          refine publishes_of_change hnext' fun b b' hb => ?_
          obtain ⟨i, e, hi, hkey, hconsumption, hsettlement, rfl⟩ := consume_entry_eq_ok hb
          exact ⟨i, e, _, hi, .consumed g A token e htoken hlive.2 hkey hconsumption hsettlement, rfl⟩
      · exact .inl rfl
    · exact .inl rfl
  | settle g callback_bytes complete_bytes recorded_at =>
    unfold step
    dsimp only
    split
    · rcases w.after_cases (w.change (M g.owner) F
        (settle_entry F g.key callback_bytes complete_bytes recorded_at)) fault with h | ⟨next, hnext, h⟩
      · exact .inl h
      · refine .inr ⟨next, h, publishes_of_change hnext fun b b' hb => ?_⟩
        obtain ⟨i, e, s, hi, hkey, hconsumption, hsettlement, hs, hsize, rfl⟩ := settle_entry_eq_ok hb
        exact ⟨i, e, _, hi,
          .known g callback_bytes complete_bytes recorded_at e s hkey hconsumption hsettlement hs hsize, rfl⟩
    · exact .inl rfl
  | mark_unknown g reason recorded_at =>
    unfold step
    dsimp only
    split
    · rcases w.after_cases (w.change (M g.owner) F (unknown_entry g.key reason recorded_at)) fault with
        h | ⟨next, hnext, h⟩
      · exact .inl h
      · refine .inr ⟨next, h, publishes_of_change hnext fun b b' hb => ?_⟩
        obtain ⟨i, e, s, hi, hkey, hsettlement, hs, rfl⟩ := unknown_entry_eq_ok hb
        exact ⟨i, e, _, hi, .unknown g reason recorded_at e s hkey hsettlement hs, rfl⟩
    · exact .inl rfl
  | restart owner => exact .inl rfl

theorem World.entries_of_state {w : World} {record : Envelope Body}
    (h : w.disk.state = .whole (.managed record)) : w.entries = record.body.managed_entries := by
  unfold World.entries
  rw [h]

/-- The holds stay as they are, or one is taken, or one moves on. -/
theorem step_entries (M : Nat → ManagedOwner) (F : Files) (fault : Option journal.Fault) (w : World)
    (c : Call) : (step M F fault w c).entries = w.entries ∨
      Change (Takes c) (Moves w c) w.entries (step M F fault w c).entries := by
  rcases step_state M F fault w c with h | ⟨next, hnext, -, hpublishes⟩
  · left
    unfold World.entries
    rw [h]
  · rw [World.entries_of_state hnext]
    cases hpublishes with
    | granted current hstate hbytes hentries =>
      left
      rw [hentries]
      unfold World.entries
      rw [hstate]
    | changed old hstate hload hchange =>
      right
      rw [World.entries_of_state hstate]
      exact hchange

/-! ## What one call does to the tokens -/

theorem Memory.holds_issue {m : Memory} {owner i : Nat} {key k : Str} {token : Nat} :
    (m.issue owner key).holds i k token ↔
      if i = owner ∧ k = key then token = m.tokens else m.holds i k token := by
  unfold Memory.holds Memory.issue
  dsimp only
  by_cases hi : i = owner
  · subst hi
    rw [Function.update_self, lookup_setItem]
    by_cases hk : k = key
    · simp [hk, eq_comm]
    · simp [hk]
  · simp [hi]

theorem lookup_filter_ne {l : List (Str × Nat)} {key k : Str} :
    (l.filter fun p => p.1 ≠ key).lookup k = if k = key then none else l.lookup k := by
  induction l with
  | nil => simp
  | cons p l ih =>
    obtain ⟨q, n⟩ := p
    by_cases hq : q = key
    · subst hq
      rw [List.filter_cons_of_neg (by simp), ih]
      by_cases hk : k = q
      · simp [hk]
      · rw [if_neg hk, if_neg hk, List.lookup_cons, beq_eq_false_iff_ne.mpr hk]
    · rw [List.filter_cons_of_pos (by simpa using hq), List.lookup_cons, List.lookup_cons, ih]
      by_cases hk : k = q
      · subst hk
        simp [hq]
      · rw [beq_eq_false_iff_ne.mpr hk]

theorem Memory.holds_burn {m : Memory} {owner i : Nat} {key k : Str} {token : Nat} :
    (m.burn owner key).holds i k token ↔ ¬ (i = owner ∧ k = key) ∧ m.holds i k token := by
  unfold Memory.holds Memory.burn
  dsimp only
  by_cases hi : i = owner
  · subst hi
    rw [Function.update_self, lookup_filter_ne]
    by_cases hk : k = key
    · simp [hk]
    · simp [hk]
  · simp [hi]

theorem Memory.holds_forget {m : Memory} {owner i : Nat} {k : Str} {token : Nat} :
    (m.forget owner).holds i k token ↔ i ≠ owner ∧ m.holds i k token := by
  unfold Memory.holds Memory.forget
  dsimp only
  by_cases hi : i = owner
  · subst hi
    simp
  · simp [hi]

/-- A call makes a token with the hold that it takes, or only loses tokens: a
restart those of its object, and an attempt to consume the one it was made with. -/
theorem step_memory (M : Nat → ManagedOwner) (F : Files) (fault : Option journal.Fault) (w : World)
    (c : Call) :
    (∀ i k token, (step M F fault w c).memory.holds i k token →
      w.memory.holds i k token ∧ c ≠ .restart i ∧
        ∀ g A, c = .before_callback g A → g ∈ w.memory.guards → g.token = some token →
          ¬ (g.owner = i ∧ g.key = k)) ∨
      ∃ owner R recorded_at key e, c = .prepare_managed owner R recorded_at ∧ fault = none ∧
        e.key = key ∧ (step M F fault w c).memory = w.memory.issue owner key ∧
        (step M F fault w c).entries = w.entries ++ [e] ∧
        ∃ next, (step M F fault w c).disk.state = .whole (.managed next) ∧
          validate_record (M owner) F next = .ok () := by
  cases c with
  | apply_grant owner grant_request_bytes recorded_at =>
    left
    unfold step
    dsimp only
    split
    · rw [World.after_memory]
      simp
    · simp
  | prepare_managed owner R recorded_at =>
    unfold step
    dsimp only
    split
    · rename_i next key hprepare
      by_cases hfault : fault = none
      · right
        obtain ⟨hvalid, old, e, hdisk, -, hnew, -, hentries⟩ := prepare_eq_ok hprepare
        have hstate : (w.after (.ok next) fault).disk.state = .whole (.managed next) := by
          unfold World.after
          dsimp only
          rw [hfault, journal.publish_none (by rw [hdisk])]
        refine ⟨owner, R, recorded_at, key, e, rfl, hfault, hnew.key, ?_, ?_, next, ?_, hvalid⟩
        · rw [if_pos hfault, World.after_memory]
        · rw [if_pos hfault, World.entries_of_state (congrArg journal.Disk.state hdisk), ← hentries]
          exact World.entries_of_state hstate
        · rw [if_pos hfault]
          exact hstate
      · left
        rw [if_neg hfault, World.after_memory]
        simp
    · left
      simp
  | guard owner key =>
    left
    unfold step
    dsimp only
    split
    · intro i k token h
      exact ⟨h, by simp, by simp⟩
    · simp
  | before_callback g A =>
    left
    unfold step
    dsimp only
    split
    · rename_i token htoken
      split
      · intro i k token' h
        rw [World.after_memory] at h
        obtain ⟨hne, h⟩ := Memory.holds_burn.mp h
        refine ⟨h, by simp, ?_⟩
        rintro _ _ ⟨⟩ - - ⟨rfl, rfl⟩
        exact hne ⟨rfl, rfl⟩
      · rename_i hlive
        intro i k token' h
        refine ⟨h, by simp, ?_⟩
        rintro _ _ ⟨⟩ hmem htoken' ⟨rfl, rfl⟩
        obtain rfl := Option.some.inj (htoken.symm.trans htoken')
        exact hlive ⟨hmem, h⟩
    · rename_i htoken
      intro i k token' h
      refine ⟨h, by simp, ?_⟩
      rintro _ _ ⟨⟩ - htoken' -
      rw [htoken] at htoken'
      cases htoken'
  | settle g callback_bytes complete_bytes recorded_at =>
    left
    unfold step
    dsimp only
    split
    · rw [World.after_memory]
      simp
    · simp
  | mark_unknown g reason recorded_at =>
    left
    unfold step
    dsimp only
    split
    · rw [World.after_memory]
      simp
    · simp
  | restart owner =>
    left
    intro i k token h
    obtain ⟨hi, h⟩ := Memory.holds_forget.mp h
    refine ⟨h, ?_, by simp⟩
    rintro ⟨⟩
    exact hi rfl

/-! ## Runs -/

theorem run_append (M : Nat → ManagedOwner) (w : World) (turns more : List Turn) :
    run M w (turns ++ more) = run M (run M w turns) more := List.foldl_append

theorem run_concat (M : Nat → ManagedOwner) (w : World) (turns : List Turn) (t : Turn) :
    run M w (turns ++ [t]) = step M t.files t.fault (run M w turns) t.call := by
  rw [run_append]
  rfl

/-- The way a hold can go on, under whatever calls: its receipt and its end are
written once, and an ended hold stays as it is. -/
structure Later (e e' : Entry) : Prop where
  key : e'.key = e.key
  binding : e'.binding = e.binding
  consumption : e.consumption.isSome → e'.consumption = e.consumption
  settlement : e.settlement.isSome → e' = e

theorem Later.refl (e : Entry) : Later e e := ⟨rfl, rfl, fun _ => rfl, fun _ => rfl⟩

theorem Later.trans {e e' e'' : Entry} (h : Later e e') (h' : Later e' e'') : Later e e'' where
  key := h'.key.trans h.key
  binding := h'.binding.trans h.binding
  consumption hc := by
    have hc' := h.consumption hc
    rw [h'.consumption (by rw [hc']; exact hc), hc']
  settlement hs := by
    obtain rfl := h.settlement hs
    exact h'.settlement hs

theorem Moves.later {w : World} {c : Call} {e e' : Entry} (h : Moves w c e e') : Later e e' := by
  cases h with
  | consumed g A token e htoken hlive hkey hconsumption hsettlement =>
    refine ⟨rfl, rfl, ?_, ?_⟩
    · simp [hconsumption]
    · simp [hsettlement]
  | known g callback_bytes complete_bytes recorded_at e s hkey hconsumption hsettlement hs hsize =>
    refine ⟨rfl, rfl, fun _ => rfl, ?_⟩
    simp [hsettlement]
  | unknown g reason recorded_at e s hkey hsettlement hs =>
    refine ⟨rfl, rfl, fun _ => rfl, ?_⟩
    simp [hsettlement]

theorem step_kept (M : Nat → ManagedOwner) (F : Files) (fault : Option journal.Fault) (w : World)
    (c : Call) {i : Nat} {e : Entry} (hi : w.entries[i]? = some e) :
    ∃ e', (step M F fault w c).entries[i]? = some e' ∧ (e' = e ∨ Moves w c e e') := by
  rcases step_entries M F fault w c with h | h
  · rw [h]
    exact ⟨e, hi, .inl rfl⟩
  · exact h.kept hi

theorem run_later (M : Nat → ManagedOwner) (turns : List Turn) {w : World} {i : Nat} {e : Entry}
    (hi : w.entries[i]? = some e) : ∃ e', (run M w turns).entries[i]? = some e' ∧ Later e e' := by
  induction turns generalizing w e with
  | nil => exact ⟨e, hi, .refl e⟩
  | cons t turns ih =>
    obtain ⟨e₁, hi₁, h₁⟩ := step_kept M t.files t.fault w t.call hi
    obtain ⟨e₂, hi₂, h₂⟩ := ih hi₁
    refine ⟨e₂, hi₂, Later.trans ?_ h₂⟩
    rcases h₁ with rfl | h₁
    · exact .refl _
    · exact h₁.later

/-- The turn that took the hold at a place, and made this token for its guard.
The owner object has not restarted since. -/
def Prepared (M : Nat → ManagedOwner) (legacy : Envelope common_capacity.Body) (turns : List Turn)
    (owner : Nat) (key : Str) (token place : Nat) : Prop :=
  ∃ before prepare after R recorded_at e, turns = before ++ prepare :: after ∧
    prepare.call = .prepare_managed owner R recorded_at ∧ prepare.fault = none ∧
    (run M (start legacy) before).memory.tokens = token ∧
    (run M (start legacy) before).entries.length = place ∧
    (run M (start legacy) (before ++ [prepare])).entries =
      (run M (start legacy) before).entries ++ [e] ∧ e.key = key ∧
    ∀ t ∈ after, t.call ≠ .restart owner

/-- The record in the state file was checked when it was published, and it
embeds the legacy bytes. Every token was made with the hold of its key, and a
key has no other. -/
structure Good (M : Nat → ManagedOwner) (legacy : Envelope common_capacity.Body) (turns : List Turn)
    (w : World) : Prop where
  state : w.disk.state = .whole (.legacy legacy) ∨
    ∃ record, w.disk.state = .whole (.managed record) ∧
      raw (value legacy) = .ok record.body.legacy_raw ∧
      ∃ t ∈ turns, validate_record (M t.call.owner) t.files record = .ok ()
  prepared : ∀ i k token, w.memory.holds i k token →
    ∃ place, Prepared M legacy turns i k token place
  once : ∀ i j k token token', w.memory.holds i k token → w.memory.holds j k token' → i = j

variable {M : Nat → ManagedOwner} {legacy : Envelope common_capacity.Body} {turns : List Turn}

theorem Good.keys {w : World} (h : Good M legacy turns w) : (w.entries.map Entry.key).Nodup := by
  unfold World.entries
  rcases h.state with hstate | ⟨record, hstate, -, t, -, hvalid⟩
  · rw [hstate]
    exact List.nodup_nil
  · rw [hstate]
    exact (validate_record_eq_ok hvalid).keys

theorem Prepared.concat {owner place token : Nat} {key : Str}
    (h : Prepared M legacy turns owner key token place) {t : Turn} (ht : t.call ≠ .restart owner) :
    Prepared M legacy (turns ++ [t]) owner key token place := by
  obtain ⟨before, prepare, after, R, recorded_at, e, rfl, hcall, hfault, htoken, hplace, hentries,
    hkey, hafter⟩ := h
  refine ⟨before, prepare, after ++ [t], R, recorded_at, e, by simp, hcall, hfault, htoken, hplace,
    hentries, hkey, ?_⟩
  intro x hx
  rcases List.mem_append.mp hx with hx | hx
  · exact hafter x hx
  · obtain rfl := List.mem_singleton.mp hx
    exact ht

/-- The hold that a token was made with is still there, at its place. -/
theorem Prepared.entry {owner place token : Nat} {key : Str}
    (h : Prepared M legacy turns owner key token place) :
    ∃ e, (run M (start legacy) turns).entries[place]? = some e ∧ e.key = key := by
  obtain ⟨before, prepare, after, R, recorded_at, e, rfl, hcall, hfault, htoken, rfl, hentries, rfl,
    hafter⟩ := h
  have hi : (run M (start legacy) (before ++ [prepare])).entries[
      (run M (start legacy) before).entries.length]? = some e := by
    rw [hentries, List.getElem?_concat_length]
  obtain ⟨e', he', hlater⟩ := run_later M after hi
  rw [← run_append, List.append_assoc] at he'
  exact ⟨e', he', hlater.key⟩

theorem good_start : Good M legacy [] (start legacy) where
  state := .inl rfl
  prepared i k token h := by simp [start, Memory.holds] at h
  once i j k token token' h := by simp [start, Memory.holds] at h

theorem good_concat (h : Good M legacy turns (run M (start legacy) turns)) (t : Turn) :
    Good M legacy (turns ++ [t]) (run M (start legacy) (turns ++ [t])) := by
  have hkeys := h.keys
  rw [run_concat]
  refine ⟨?_, ?_, ?_⟩
  · rcases step_state M t.files t.fault (run M (start legacy) turns) t.call with
      hsame | ⟨next, hnext, hvalid, hpublishes⟩
    · rw [hsame]
      rcases h.state with hstate | ⟨record, hstate, hbytes, x, hx, hx'⟩
      · exact .inl hstate
      · exact .inr ⟨record, hstate, hbytes, x, List.mem_append_left _ hx, hx'⟩
    · refine .inr ⟨next, hnext, ?_, t, by simp, hvalid⟩
      cases hpublishes with
      | granted current hstate hbytes hentries =>
        rcases h.state with hlegacy | ⟨record, hrecord, -⟩
        · rw [hstate] at hlegacy
          obtain rfl : current = legacy := by injection hlegacy with h; injection h
          exact hbytes
        · rw [hstate] at hrecord
          cases hrecord
      | changed old hstate hload hchange =>
        rcases h.state with hlegacy | ⟨record, hrecord, hbytes, -⟩
        · rw [hstate] at hlegacy
          cases hlegacy
        · rw [hstate] at hrecord
          obtain rfl : old = record := by injection hrecord with h; injection h
          have hold := (validate_record_eq_ok (seq_eq_ok.mp hload).2).legacy
          rw [hbytes, hold, (validate_record_eq_ok hvalid).legacy]
  · intro i k token hi
    rcases step_memory M t.files t.fault (run M (start legacy) turns) t.call with
      hless | ⟨owner, R, recorded_at, key, e, hcall, hfault, hkey, hmemory, hentries, -⟩
    · obtain ⟨hi, hne, -⟩ := hless i k token hi
      obtain ⟨place, hplace⟩ := h.prepared i k token hi
      exact ⟨place, hplace.concat hne⟩
    · rw [hmemory, Memory.holds_issue] at hi
      split at hi
      · rename_i hnew
        obtain ⟨rfl, rfl⟩ := hnew
        refine ⟨(run M (start legacy) turns).entries.length, turns, t, [], R, recorded_at, e, rfl,
          hcall, hfault, hi.symm, rfl, ?_, hkey, by simp⟩
        rw [run_concat]
        exact hentries
      · obtain ⟨place, hplace⟩ := h.prepared i k token hi
        refine ⟨place, hplace.concat ?_⟩
        rw [hcall]
        simp
  · intro i j k token token' hi hj
    rcases step_memory M t.files t.fault (run M (start legacy) turns) t.call with
      hless | ⟨owner, R, recorded_at, key, e, hcall, hfault, hkey, hmemory, hentries, next, hnext, hvalid⟩
    · exact h.once i j k token token' (hless i k token hi).1 (hless j k token' hj).1
    · -- The key is not one that an earlier hold has.
      have hfresh : ∀ i token, ¬ (run M (start legacy) turns).memory.holds i key token := by
        intro i token hold
        obtain ⟨place, hplace⟩ := h.prepared i key token hold
        obtain ⟨e', he', hkey'⟩ := hplace.entry
        have hnodup := (validate_record_eq_ok hvalid).keys
        rw [← World.entries_of_state hnext, hentries, List.map_append, List.nodup_append] at hnodup
        refine hnodup.2.2 e'.key (List.mem_map_of_mem (List.mem_of_getElem? he')) e.key (by simp) ?_
        rw [hkey', hkey]
      rw [hmemory, Memory.holds_issue] at hi hj
      split at hi
      · rename_i hnew
        obtain ⟨rfl, rfl⟩ := hnew
        split at hj
        · rename_i hnew'
          exact hnew'.1.symm
        · exact absurd hj (hfresh j token')
      · split at hj
        · rename_i hnew'
          obtain ⟨rfl, rfl⟩ := hnew'
          exact absurd hi (hfresh i token)
        · exact h.once i j k token token' hi hj

theorem good_run (M : Nat → ManagedOwner) (legacy : Envelope common_capacity.Body)
    (turns : List Turn) : Good M legacy turns (run M (start legacy) turns) := by
  induction turns using List.reverseRecOn with
  | nil => exact good_start
  | append_singleton turns t ih => exact good_concat ih t

/-! ## A token that is gone -/

/-- The key has a hold, and nobody has a token for it. -/
structure Spent (w : World) (key : Str) : Prop where
  held : key ∈ w.entries.map Entry.key
  gone : ∀ i token, ¬ w.memory.holds i key token

theorem spent_step {w : World} {key : Str} (h : Spent w key) (F : Files)
    (fault : Option journal.Fault) (c : Call) : Spent (step M F fault w c) key := by
  obtain ⟨e, he, rfl⟩ := List.mem_map.mp h.held
  obtain ⟨i, hi⟩ := List.mem_iff_getElem?.mp he
  obtain ⟨e', hi', hkept⟩ := step_kept M F fault w c hi
  refine ⟨?_, fun j token hj => ?_⟩
  · have hkey : e'.key = e.key := by
      rcases hkept with rfl | hmove
      · rfl
      · exact hmove.later.key
    exact List.mem_map.mpr ⟨e', List.mem_of_getElem? hi', hkey⟩
  · rcases step_memory M F fault w c with
      hless | ⟨owner, R, recorded_at, key, new, hcall, hfault, hkey, hmemory, hentries, next, hnext, hvalid⟩
    · exact h.gone j token (hless j _ token hj).1
    · rw [hmemory, Memory.holds_issue] at hj
      split at hj
      · rename_i hnew
        have hnodup := (validate_record_eq_ok hvalid).keys
        rw [← World.entries_of_state hnext, hentries, List.map_append, List.nodup_append] at hnodup
        refine hnodup.2.2 e.key h.held new.key (by simp) ?_
        rw [hnew.2, hkey]
      · exact h.gone j token hj

/-- Without a token nothing consumes the hold. -/
theorem spent_run {key : Str} (more : List Turn) {w : World} (h : Spent w key) {i : Nat} {e : Entry}
    (hi : w.entries[i]? = some e) (hkey : e.key = key) :
    ∃ e', (run M w more).entries[i]? = some e' ∧ e'.consumption = e.consumption := by
  induction more generalizing w e with
  | nil => exact ⟨e, hi, rfl⟩
  | cons t more ih =>
    obtain ⟨e₁, hi₁, h₁⟩ := step_kept M t.files t.fault w t.call hi
    have hsame : e₁.key = key ∧ e₁.consumption = e.consumption := by
      rcases h₁ with rfl | hmove
      · exact ⟨hkey, rfl⟩
      · refine ⟨hmove.later.key.trans hkey, ?_⟩
        generalize t.call = c at hmove
        cases hmove with
        | consumed g A token e htoken hlive hk hconsumption hsettlement =>
          rw [← hk, hkey] at hlive
          exact absurd hlive (h.gone _ _)
        | known g callback_bytes complete_bytes recorded_at e s hk hconsumption hsettlement hs hsize => rfl
        | unknown g reason recorded_at e s hk hsettlement hs => rfl
    obtain ⟨e₂, hi₂, h₂⟩ := ih (spent_step h t.files t.fault t.call) hi₁ hsame.1
    exact ⟨e₂, hi₂, h₂.trans hsame.2⟩

/-- An attempt to consume takes the token away, however it ends. -/
theorem spent_of_attempt (h : Good M legacy turns (run M (start legacy) turns)) {t : Turn} {g : Guard}
    {A : Callbacks} {token : Nat} (ht : t.call = .before_callback g A)
    (hg : g ∈ (run M (start legacy) turns).memory.guards) (htoken : g.token = some token)
    (hlive : (run M (start legacy) turns).memory.holds g.owner g.key token) :
    Spent (run M (start legacy) (turns ++ [t])) g.key := by
  obtain ⟨place, hplace⟩ := h.prepared _ _ _ hlive
  obtain ⟨e, hi, hkey⟩ := hplace.entry
  rw [run_concat]
  obtain ⟨e', hi', hkept⟩ := step_kept M t.files t.fault (run M (start legacy) turns) t.call hi
  refine ⟨?_, fun j token' hj => ?_⟩
  · have hkey' : e'.key = e.key := by
      rcases hkept with rfl | hmove
      · rfl
      · exact hmove.later.key
    exact List.mem_map.mpr ⟨e', List.mem_of_getElem? hi', hkey'.trans hkey⟩
  · rcases step_memory M t.files t.fault (run M (start legacy) turns) t.call with
      hless | ⟨owner, R, recorded_at, key, new, hcall, -⟩
    · obtain ⟨hj, -, hnot⟩ := hless j _ token' hj
      obtain rfl : g.owner = j := h.once _ _ _ _ _ hlive hj
      obtain rfl : token = token' := Option.some.inj (hlive.symm.trans hj)
      exact hnot g A ht hg htoken ⟨rfl, rfl⟩
    · rw [ht] at hcall
      cases hcall

/-! ## Every run -/

/-- What holds of every run of the calls, from a legacy pool on. -/
structure Safe (M : Nat → ManagedOwner) (legacy : Envelope common_capacity.Body) (turns : List Turn) :
    Prop where
  /-- The state file is whole. A record of the epoch in it was checked, in the
  files of the turn that published it: no capture, attempt or destination stands
  in two holds, every hold is what is owed, and the usage is within the grant. -/
  published : (run M (start legacy) turns).disk.state = .whole (.legacy legacy) ∨
    ∃ record, (run M (start legacy) turns).disk.state = .whole (.managed record) ∧
      raw (value legacy) = .ok record.body.legacy_raw ∧
      ∃ t ∈ turns, validate_record (M t.call.owner) t.files record = .ok () ∧
        record.body.Sound (M t.call.owner)
  /-- One more call takes a new hold, or moves one on in one of the three ways. -/
  step : ∀ t, (run M (start legacy) (turns ++ [t])).entries = (run M (start legacy) turns).entries ∨
    Change (Takes t.call) (Moves (run M (start legacy) turns) t.call)
      (run M (start legacy) turns).entries (run M (start legacy) (turns ++ [t])).entries
  /-- Nothing is lost: a receipt is written once, and an ended hold stays. -/
  kept : ∀ (more : List Turn) (i : Nat) (e : Entry), (run M (start legacy) turns).entries[i]? = some e →
    ∃ e', (run M (start legacy) (turns ++ more)).entries[i]? = some e' ∧ Later e e'
  /-- A hold is consumed with the token that its own preparation made, through a
  guard that has it, and the owner object has not restarted in between. -/
  consumed : ∀ (t : Turn) (i : Nat) (e e' : Entry), (run M (start legacy) turns).entries[i]? = some e →
    (run M (start legacy) (turns ++ [t])).entries[i]? = some e' → e'.consumption ≠ e.consumption →
    ∃ g A token, t.call = .before_callback g A ∧ g.key = e.key ∧ g.token = some token ∧
      Prepared M legacy turns g.owner g.key token i
  /-- After an attempt with a live token, however it ends, what is consumed of
  the hold stays as it is. -/
  burned : ∀ t g A token, t.call = .before_callback g A →
    g ∈ (run M (start legacy) turns).memory.guards → g.token = some token →
    (run M (start legacy) turns).memory.holds g.owner g.key token →
    ∀ (more : List Turn) (i : Nat) (e : Entry), (run M (start legacy) (turns ++ [t])).entries[i]? = some e → e.key = g.key →
      ∃ e', (run M (start legacy) (turns ++ [t] ++ more)).entries[i]? = some e' ∧
        e'.consumption = e.consumption

/-- The managed epoch keeps its holds, over every sequence of calls, accepted or
refused, stopped anywhere, and across restarts. -/
theorem epoch_is_safe (M : Nat → ManagedOwner) (legacy : Envelope common_capacity.Body)
    (turns : List Turn) : Safe M legacy turns where
  published := by
    rcases (good_run M legacy turns).state with h | ⟨record, h, hbytes, t, ht, hvalid⟩
    · exact .inl h
    · exact .inr ⟨record, h, hbytes, t, ht, hvalid, validate_record_eq_ok hvalid⟩
  step t := by
    rw [run_concat]
    exact step_entries M t.files t.fault _ t.call
  kept more i e hi := by
    rw [run_append]
    exact run_later M more hi
  consumed t i e e' hi hi' hne := by
    have hgood := good_run M legacy turns
    rw [run_concat] at hi'
    obtain ⟨e₁, hi₁, hkept⟩ := step_kept M t.files t.fault (run M (start legacy) turns) t.call hi
    obtain rfl : e₁ = e' := Option.some.inj (hi₁.symm.trans hi')
    rcases hkept with rfl | hmove
    · exact absurd rfl hne
    · generalize hcall : t.call = c at hmove
      cases hmove with
      | consumed g A token e htoken hlive hkey hconsumption hsettlement =>
        obtain ⟨place, hplace⟩ := hgood.prepared _ _ _ hlive
        obtain ⟨e₂, hi₂, hkey₂⟩ := hplace.entry
        -- Keys are distinct, so the hold of the token is the one that was consumed.
        obtain rfl : i = place := by
          have hlt := (List.getElem?_eq_some_iff.mp hi).1
          have hlt₂ := (List.getElem?_eq_some_iff.mp hi₂).1
          rw [← List.length_map Entry.key] at hlt hlt₂
          have hinj := @List.Nodup.getElem_inj_iff _ _ hgood.keys i hlt place hlt₂
          refine hinj.mp ?_
          rw [List.getElem_map, List.getElem_map, (List.getElem?_eq_some_iff.mp hi).2,
            (List.getElem?_eq_some_iff.mp hi₂).2, hkey, hkey₂]
        exact ⟨g, A, token, rfl, hkey.symm, htoken, hplace⟩
      | known g callback_bytes complete_bytes recorded_at e s hk hconsumption hsettlement hs hsize =>
        exact absurd rfl hne
      | unknown g reason recorded_at e s hk hsettlement hs => exact absurd rfl hne
  burned t g A token ht hg htoken hlive more i e hi hkey := by
    rw [run_append]
    exact spent_run more (spent_of_attempt (good_run M legacy turns) ht hg htoken hlive) hi hkey

end vfy.managed_capacity
