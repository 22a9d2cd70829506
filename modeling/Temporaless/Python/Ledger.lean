import Temporaless.Python.Store
import Temporaless.Storage.TimerLedger

/-!
# The ledger entries of the two stores

A timer record that carries the key of its location passes the checks of both stores. The Python
entry always has its deadline set, so that it is the Go entry exactly when the record has one.
-/

namespace Temporaless.Python

open PathTree Effects OpenDALStore

variable {k : TimerKey} {path : Path}

theorem validate_eq_ok {message : String} {violations : List Violation} :
    validate message violations = .ok () ↔ violations = [] := by
  cases violations <;> simp [validate]

variable {text : String} {expected : Expectation TimerKey} {expectedKey : Option TimerKey}
  {expectedRun : Option WorkflowKey} {ns : Option String}

theorem require_eq_ok {ok : Bool} : require ok text = .ok () ↔ ok = true := by
  cases ok <;> simp [require]

theorem whenGiven_eq_ok {α : Type} {expected : Option α} {check : α → Except Err Unit} :
    whenGiven expected check = .ok () ↔ ∀ a, expected = some a → check a = .ok () := by
  cases expected <;> simp [whenGiven]

theorem validateUserScope_eq_ok {ns workflowID : String} :
    validateUserScope ns workflowID = .ok () ↔
      startsWithUnderscore ns = false ∧ startsWithUnderscore workflowID = false := by
  unfold validateUserScope
  cases startsWithUnderscore ns <;> cases startsWithUnderscore workflowID <;>
    simp [bind, Except.bind, throw, throwThe, MonadExceptOf.throw, pure, Except.pure]

theorem validateWorkflowKey_of_stored (run : RunKey) : validateWorkflowKey run.val = .ok () := by
  have hvalid := (validationError_eq_ok _).1 run.property.1
  have hplain := run.property.1.plain
  rw [run.withDefaults] at hvalid hplain
  rw [validateWorkflowKey, bind_eq_ok_unit, validate_eq_ok, validateUserScope_eq_ok]
  exact ⟨hvalid, hplain.2.2.2.1, hplain.2.2.2.2⟩

theorem workflowPath_of_stored (run : RunKey) : workflowPath run.val = .ok run.val.location := by
  rw [workflowPath, validateWorkflowKey_of_stored]
  rfl

theorem validateTimerKey_of_stored (key : RecordKey .timer) : validateTimerKey key.val = .ok () := by
  have hvalid := (validationError_eq_ok _).1 key.property.1
  have hplain := (key.property.1.run (by decide)).plain
  rw [key.withDefaults] at hvalid
  rw [← ItemKey.run_withDefaults, key.withDefaults] at hplain
  rw [validateTimerKey, bind_eq_ok_unit, validate_eq_ok, validateUserScope_eq_ok]
  exact ⟨hvalid, hplain.2.2.2.1, hplain.2.2.2.2⟩

theorem stored_of_validateTimerKey {key : TimerKey} (h : validate "TimerKey" key.violations = .ok ()) :
    key.Valid ∧ key.ns ≠ "" := by
  have hviolations := validate_eq_ok.1 h
  have hns : key.ns ≠ "" := by
    simp only [ItemKey.violations, List.append_eq_nil_iff] at hviolations
    exact (plain_of_identifierViolations hviolations.1.1.1).ne_nil
  refine ⟨(validationError_eq_ok _).2 ?_, hns⟩
  rw [ItemKey.withDefaults_of_ne hns]
  exact hviolations

theorem stored_of_validateWorkflowKey {key : WorkflowKey}
    (h : validate "WorkflowKey" key.violations = .ok ()) : key.Valid ∧ key.ns ≠ "" := by
  have hviolations := validate_eq_ok.1 h
  have hns : key.ns ≠ "" := by
    simp only [WorkflowKey.violations, List.append_eq_nil_iff] at hviolations
    exact (plain_of_identifierViolations hviolations.1.1).ne_nil
  refine ⟨(validationError_eq_ok _).2 ?_, hns⟩
  rw [WorkflowKey.withDefaults, if_neg hns]
  exact hviolations

section Paths

variable (key : RecordKey .timer)

theorem timerPath_of_stored : timerPath key.val = .ok key.val.location := by
  rw [timerPath, validateTimerKey_of_stored]
  rfl

theorem timerDirPath_of_stored : timerDirPath key.val = .ok key.val.directory := by
  rw [timerDirPath, validateTimerKey_of_stored]
  rfl

theorem dueEntryPath_of_stored : dueEntryPath key.val = .ok key.val.dueLocation := by
  rw [dueEntryPath, validateTimerKey_of_stored]
  rfl

theorem validateWorkflowKey_run : validateWorkflowKey key.val.run = .ok () :=
  validateWorkflowKey_of_stored ⟨key.val.run, key.property.1.run (by decide), key.property.2⟩

end Paths

structure Carries (record : TimerRecord) (key : RecordKey .timer) : Prop where
  schemaVersion : record.schemaVersion = .timer
  key : record.key = some key.val

theorem bind_eq_ok {α β : Type} {x : Except Err α} {f : α → Except Err β} {b : β} :
    (x >>= f) = .ok b ↔ ∃ a, x = .ok a ∧ f a = .ok b := by
  cases x with
  | error err => simp [bind, Except.bind]
  | ok a => simp [bind, Except.bind]

section Records

variable {record : TimerRecord} {key : RecordKey .timer}

theorem Carries.timerKeyFromProto (h : Carries record key) :
    timerKeyFromProto record.key = key.val := by
  rw [h.key]
  exact key.withDefaults

theorem Carries.valid (h : Carries record key) :
    Temporaless.validateTimerRecord record key.val = .ok () := by
  apply validateItem_eq_ok.2
  rw [h.key]
  exact ⟨h.schemaVersion, key.property.1, rfl⟩

theorem Carries.validateTimerRecord (h : Carries record key) (expected : Expectation TimerKey)
    (hkey : ∀ k, expected.key = some k → k = key.val)
    (hrun : ∀ run, expected.run = some run → run = key.val.run)
    (hpath : ∀ path, expected.path = some path → path = key.val.location) :
    validateTimerRecord record expected = .ok key.val := by
  have hviolations : ItemKey.violations key.val = [] := by
    have hvalid := (validationError_eq_ok _).1 key.property.1
    rwa [key.withDefaults] at hvalid
  have hlocation : validateRecordLocation key.val key.val.run (timerPath key.val) "timer" expected =
      .ok () := by
    simp only [validateRecordLocation, bind_eq_ok_unit, whenGiven_eq_ok, require_eq_ok,
      validateRunIdentity, beq_iff_eq, timerPath_of_stored]
    refine ⟨fun k hk => (hkey k hk).symm, fun run hr => (hrun run hr).symm, fun path hp => ?_⟩
    rw [hpath path hp]
    exact require_eq_ok.2 (beq_self_eq_true _)
  simp only [Python.validateTimerRecord, h.timerKeyFromProto, bind_eq_ok_unit, hlocation,
    validateTimerKey_of_stored, validateRecordSchema, require_eq_ok, validate_eq_ok, true_and]
  rw [h.key, h.schemaVersion]
  exact ⟨rfl, hviolations, rfl⟩

theorem carries_of_validateTimerRecord (h : validateTimerRecord record expected = .ok k) :
    ∃ key : RecordKey .timer, key.val = k ∧ Carries record key := by
  simp only [Python.validateTimerRecord, bind_eq_ok_unit, validateRecordSchema, require_eq_ok,
    beq_iff_eq] at h
  obtain ⟨hschema, hkey, -, -, hk⟩ := h
  obtain ⟨hvalid, hns⟩ := stored_of_validateTimerKey hkey
  cases hproto : record.key with
  | none =>
    rw [hproto] at hns
    exact absurd rfl hns
  | some key =>
    rw [hproto] at hvalid hns
    refine ⟨⟨key, hvalid, hns⟩, ?_, hschema, hproto⟩
    rw [← Except.ok.inj hk, Python.timerKeyFromProto, hproto]
    exact (ItemKey.withDefaults_of_ne hns).symm

theorem expected_of_validateTimerRecord (h : validateTimerRecord record expected = .ok key.val) :
    (∀ k, expected.key = some k → k = key.val) ∧ (∀ run, expected.run = some run → run = key.val.run) ∧
      ∀ path, expected.path = some path → path = key.val.location := by
  simp only [Python.validateTimerRecord, bind_eq_ok_unit] at h
  obtain ⟨-, -, -, hlocation, hk⟩ := h
  rw [Except.ok.inj hk] at hlocation
  simp only [validateRecordLocation, bind_eq_ok_unit, whenGiven_eq_ok, require_eq_ok,
    validateRunIdentity, beq_iff_eq, timerPath_of_stored] at hlocation
  obtain ⟨hkey, hrun, hpath⟩ := hlocation
  refine ⟨fun k hk => (hkey k hk).symm, fun run hr => (hrun run hr).symm, ?_⟩
  intro path hp
  have hlocation : key.val.location = path := by simpa using require_eq_ok.1 (hpath path hp)
  exact hlocation.symm

end Records

section Entries

variable {record : TimerRecord} {key : RecordKey .timer}

theorem validateEntryStatus_eq_ok : validateEntryStatus record = .ok () ↔
    record.status ≠ .unspecified ∧
      (record.status = .scheduled → ∃ t, record.fireAt = some t ∧ t.checkValid = true) := by
  unfold validateEntryStatus
  rcases hstatus : record.status with _ | _ | _ | _
  · simp [throw, throwThe, MonadExceptOf.throw]
  · rcases hfire : record.fireAt with _ | t
    · simp [throw, throwThe, MonadExceptOf.throw]
    · cases hcheck : t.checkValid <;> simp [checkTimestamp, timestampFromProto, hcheck]
  · simp
  · simp

/-- An entry with the keys of a record that it carries passes the checks of the Python store when
its deadline reads as that of the record. -/
theorem Carries.validateDueEntry (h : Carries record key)
    (hstatus : validateEntryStatus record = .ok ())
    {fireAt : Option Timestamp} (hfire : fireAtOf fireAt = fireAtOf record.fireAt)
    (hkey : ∀ k, expectedKey = some k → k = key.val)
    (hrun : ∀ run, expectedRun = some run → run = key.val.run) (hns : ∀ n, ns = some n → n = key.val.ns)
    {path : Option Path} (hpath : ∀ p, path = some p → p = key.val.dueLocation) :
    validateDueEntry ⟨some key.val, some key.val.run, fireAt, some record⟩ expectedKey expectedRun ns
      path = .ok key.val := by
  have hrecord := h.validateTimerRecord ⟨expectedKey, expectedRun, none⟩ hkey hrun (by simp)
  have hviolations : ItemKey.violations key.val = [] := by
    have hvalid := (validationError_eq_ok _).1 key.property.1
    rwa [key.withDefaults] at hvalid
  have hworkflow : WorkflowKey.violations key.val.run = [] :=
    validate_eq_ok.1 (bind_eq_ok_unit.1 (validateWorkflowKey_run key)).1
  have hdefaults : workflowKeyFromProto (some key.val.run) = key.val.run :=
    WorkflowKey.withDefaults_of_ne key.property.2
  have hentry : entryViolations ⟨some key.val, some key.val.run, fireAt, some record⟩ = [] := by
    simp [entryViolations, hviolations, hworkflow, h.key]
  refine bind_eq_ok_unit.2 ⟨hstatus, bind_eq_ok_unit.2 ⟨validate_eq_ok.2 hentry, ?_⟩⟩
  refine bind_eq_ok_unit.2 ⟨validate_eq_ok.2 hviolations, ?_⟩
  refine bind_eq_ok_unit.2 ⟨validate_eq_ok.2 hworkflow, bind_eq_ok.2 ⟨key.val, hrecord, ?_⟩⟩
  simp only [hdefaults, bind_eq_ok_unit, validateWorkflowKey_run, require_eq_ok, whenGiven_eq_ok,
    beq_iff_eq, true_and, entryRecord, Option.getD_some, h.key, hfire, dueEntryPath_of_stored]
  refine ⟨fun n hn => (hns n hn).symm, fun p hp => ?_, rfl⟩
  rw [hpath p hp]
  exact require_eq_ok.2 (beq_self_eq_true _)

theorem carries_of_validateDueEntry {entry : DueTimerEntry} {path : Option Path}
    (h : validateDueEntry entry expectedKey expectedRun ns path = .ok k) :
    ∃ key : RecordKey .timer, key.val = k ∧ Carries (entryRecord entry) key ∧
      validateEntryStatus (entryRecord entry) = .ok () ∧
      ∀ p, path = some p → p = key.val.dueLocation := by
  rw [Python.validateDueEntry, bind_eq_ok_unit, bind_eq_ok_unit, bind_eq_ok_unit, bind_eq_ok_unit,
    bind_eq_ok] at h
  obtain ⟨hstatus, -, -, -, timerKey, hrecord, h⟩ := h
  obtain ⟨key, rfl, hcarries⟩ := carries_of_validateTimerRecord hrecord
  simp only [bind_eq_ok_unit, whenGiven_eq_ok, dueEntryPath_of_stored] at h
  obtain ⟨-, -, -, -, -, hpath, hk⟩ := h
  refine ⟨key, Except.ok.inj hk, hcarries, hstatus, ?_⟩
  intro p hp
  simpa using require_eq_ok.1 (hpath p hp)

theorem validateTimerRecord_eq_ok :
    Python.validateTimerRecord record expected = .ok k ↔
      Python.validateTimerRecord record ⟨none, none, none⟩ = .ok k ∧
        (∀ k', expected.key = some k' → k' = k) ∧ (∀ run, expected.run = some run → run = k.run) ∧
          ∀ path, expected.path = some path → path = k.location := by
  constructor
  · intro h
    obtain ⟨key, rfl, hcarries⟩ := carries_of_validateTimerRecord h
    exact ⟨hcarries.validateTimerRecord _ (by simp) (by simp) (by simp),
      expected_of_validateTimerRecord h⟩
  · intro h
    obtain ⟨hvalid, hkey, hrun, hpath⟩ := h
    obtain ⟨key, rfl, hcarries⟩ := carries_of_validateTimerRecord hvalid
    exact hcarries.validateTimerRecord expected hkey hrun hpath

theorem validateDueEntry_eq_ok {entry : DueTimerEntry} {path : Option Path} :
    Python.validateDueEntry entry expectedKey expectedRun ns path = .ok k ↔
      Python.validateDueEntry entry none none none none = .ok k ∧
        (∀ k', expectedKey = some k' → k' = k) ∧ (∀ run, expectedRun = some run → run = k.run) ∧
          (∀ n, ns = some n → n = k.ns) ∧ ∀ p, path = some p → p = k.dueLocation := by
  simp only [Python.validateDueEntry, bind_eq_ok_unit, bind_eq_ok (α := TimerKey), whenGiven_eq_ok]
  constructor
  · intro h
    obtain ⟨hstatus, hentry, hkey, hworkflow, timerKey, hrecord, hrun, hsame, hown, hns, hfire, hpath,
      hk⟩ := h
    obtain rfl : timerKey = k := Except.ok.inj hk
    obtain ⟨hvalid, hexpected, hexpectedRun, -⟩ := validateTimerRecord_eq_ok.1 hrecord
    obtain ⟨key, rfl, -⟩ := carries_of_validateTimerRecord hvalid
    refine ⟨⟨hstatus, hentry, hkey, hworkflow, key.val, hvalid, hrun, hsame, hown, by simp, hfire,
      by simp, rfl⟩, hexpected, hexpectedRun, ?_, ?_⟩
    · intro n hn
      have hspace : key.val.ns = n := by simpa using require_eq_ok.1 (hns n hn)
      exact hspace.symm
    · intro p hp
      have hlocation := hpath p hp
      rw [dueEntryPath_of_stored] at hlocation
      simpa using require_eq_ok.1 hlocation
  · intro h
    obtain ⟨⟨hstatus, hentry, hkey, hworkflow, timerKey, hrecord, hrun, hsame, hown, -, hfire, -, hk⟩,
      hexpected, hexpectedRun, hns, hpath⟩ := h
    obtain rfl : timerKey = k := Except.ok.inj hk
    obtain ⟨key, rfl, -⟩ := carries_of_validateTimerRecord hrecord
    refine ⟨hstatus, hentry, hkey, hworkflow, key.val, validateTimerRecord_eq_ok.2 ⟨hrecord, hexpected,
      hexpectedRun, by simp⟩, hrun, hsame, hown, ?_, hfire, ?_, rfl⟩
    · intro n hn
      rw [hns n hn]
      exact require_eq_ok.2 (beq_self_eq_true _)
    · intro p hp
      rw [dueEntryPath_of_stored, hpath p hp]
      exact require_eq_ok.2 (beq_self_eq_true _)

structure Shareable (record : TimerRecord) (key : RecordKey .timer) : Prop where
  preparable : Preparable record key
  key : record.key = some key.val

theorem Shareable.carries (h : Shareable record key) : Carries record key :=
  ⟨(validateItem_eq_ok.1 h.preparable.valid).1, h.key⟩

theorem Shareable.status (h : Shareable record key) : validateEntryStatus record = .ok () := by
  refine validateEntryStatus_eq_ok.2 ⟨h.preparable.status, fun hscheduled => ?_⟩
  obtain ⟨t, ht⟩ := Option.isSome_iff_exists.1 (h.preparable.fireAt hscheduled)
  have hchecked := h.preparable.checked
  rw [ht] at hchecked
  exact ⟨t, ht, Timestamp.check_eq_ok.1 hchecked⟩

theorem Shareable.of_carries (h : Carries record key) (hstatus : validateEntryStatus record = .ok ())
    (hchecked : checkOptional record.fireAt = .ok ()) : Shareable record key := by
  obtain ⟨hspecified, hscheduled⟩ := validateEntryStatus_eq_ok.1 hstatus
  refine ⟨⟨h.valid, hspecified, fun hs => ?_, hchecked⟩, h.key⟩
  obtain ⟨t, ht, -⟩ := hscheduled hs
  rw [ht]
  rfl

theorem Carries.tombstone (h : Carries record key) : Carries (tombstone record) key :=
  ⟨h.schemaVersion, h.key⟩

theorem validateEntryStatus_tombstone : validateEntryStatus (OpenDALStore.tombstone record) = .ok () :=
  validateEntryStatus_eq_ok.2 ⟨nofun, nofun⟩

theorem Shareable.tombstone (h : Carries record key) (hchecked : checkOptional record.fireAt = .ok ()) :
    Shareable (OpenDALStore.tombstone record) key :=
  .of_carries h.tombstone validateEntryStatus_tombstone hchecked

theorem Carries.dueEntry_eq (h : Carries record key) (hfire : record.fireAt.isSome) :
    dueEntry record key.val.run = OpenDALStore.dueEntry record := by
  obtain ⟨t, ht⟩ := Option.isSome_iff_exists.1 hfire
  have hkey : (itemKeyFromProto record.key).withDefaults = key.val := h.timerKeyFromProto
  simp only [dueEntry, OpenDALStore.dueEntry, hkey]
  rw [ht, h.key]
  rfl

theorem Carries.validateDueEntry_ne (h : Carries record key) (hstatus : record.status ≠ .unspecified)
    (hfire : record.fireAt = none) :
    OpenDALStore.validateDueEntry (dueRoot key.val.ns) key.val.dueLocation
      (dueEntry record key.val.run) key.val key.val.run ≠ .ok () := by
  have hkey : key.val.validate = .ok () := key.property.1
  have hrun : key.val.run.validate = .ok () := key.property.1.run (by decide)
  have hsame : sameWorkflowRun key.val.run key.val.run = true := by simp [sameWorkflowRun]
  rcases hstat : record.status with _ | _ | _ | _
  · exact absurd hstat hstatus
  all_goals
    simp [OpenDALStore.validateDueEntry, dueEntry, hkey, hrun, hsame, h.valid, hstat, hfire,
      Except.mapError, bind, Except.bind, throw, throwThe, MonadExceptOf.throw]

end Entries

section Objects

variable {wire : Wire} {α : Type} {b : Bucket wire.Bytes}

@[grind ←] theorem readOnly_readMessage (codec : Codec wire.Bytes α) (path : Path) :
    ReadOnly (readMessage codec path) := by
  unfold readMessage
  grind

variable {codec : Codec wire.Bytes α} {data : wire.Bytes}

theorem exec_readMessage_none
    (h : b.objects.lookup path = none) : b.exec (readMessage codec path) = (.ok none, b) := by
  have hread : b.exec (readObject path) = (.error (notFoundError path), b) := by
    change b.step (.read path) = _
    simp [Bucket.step, h]
  simp [readMessage, exec_bind, hread]

theorem exec_readMessage_error (h : b.objects.lookup path = some data)
    (hdata : codec.unmarshal data = .error text) :
    b.exec (readMessage codec path) = (.error (exception .decodeError text), b) := by
  simp [readMessage, exec_bind, exec_readObject b h, hdata]

theorem exec_readMessage_some
    {record : α} (h : b.objects.lookup path = some data) (hdata : codec.unmarshal data = .ok record) :
    b.exec (readMessage codec path) = (.ok (some record), b) := by
  simp [readMessage, exec_bind, exec_readObject b h, hdata]

variable {key : RecordKey .timer}

@[grind ←] theorem readOnly_readDueEntry (k : TimerKey) : ReadOnly (readDueEntry wire k) := by
  unfold readDueEntry
  grind

@[grind ←] theorem readOnly_getCanonicalTimer (k : TimerKey) :
    ReadOnly (getCanonicalTimer wire k) := by
  unfold getCanonicalTimer
  grind

@[grind ←] theorem readOnly_getWorkflow (run : WorkflowKey) :
    ReadOnly (getWorkflow wire run) := by
  unfold getWorkflow
  grind

@[grind ←] theorem readOnly_dueWake (now : Int) (path : Path) (timerKey : TimerKey) (run : WorkflowKey)
    (record : TimerRecord) : ReadOnly (dueWake wire now path timerKey run record) := by
  unfold dueWake
  grind

theorem exec_readDueEntry_none (h : b.objects.lookup key.val.dueLocation = none) :
    b.exec (readDueEntry wire key.val) = (.ok none, b) := by
  simp [readDueEntry, exec_bind, dueEntryPath_of_stored, exec_readMessage_none h]

theorem exec_readDueEntry_some {record : TimerRecord} (hrecord : Shareable record key)
    (h : b.objects.lookup key.val.dueLocation =
      some (wire.due.marshal (OpenDALStore.dueEntry record))) :
    b.exec (readDueEntry wire key.val) = (.ok (some (OpenDALStore.dueEntry record)), b) := by
  have hread := exec_readMessage_some h (wire.due.unmarshal_marshal _)
  have hvalid : validateDueEntry (OpenDALStore.dueEntry record) (some key.val) none none
      (some key.val.dueLocation) = .ok key.val := by
    rw [hrecord.preparable.dueEntry_key]
    exact hrecord.carries.validateDueEntry hrecord.status rfl (by simp) (by simp) (by simp) (by simp)
  simp [readDueEntry, exec_bind, dueEntryPath_of_stored, hread, hvalid, Except.map]

theorem exec_getCanonicalTimer_none (h : b.objects.lookup key.val.location = none) :
    b.exec (getCanonicalTimer wire key.val) = (.ok none, b) := by
  simp [getCanonicalTimer, exec_bind, timerPath_of_stored, exec_readMessage_none h]

theorem exec_getCanonicalTimer_error (h : b.objects.lookup key.val.location = some data)
    (hdata : wire.timer.unmarshal data = .error text) :
    b.exec (getCanonicalTimer wire key.val) = (.error (exception .decodeError text), b) := by
  simp [getCanonicalTimer, exec_bind, timerPath_of_stored, exec_readMessage_error h hdata]

theorem exec_getCanonicalTimer_some {record : TimerRecord}
    (h : b.objects.lookup key.val.location = some data)
    (hdata : wire.timer.unmarshal data = .ok record) (hrecord : Carries record key) :
    b.exec (getCanonicalTimer wire key.val) = (.ok (some record), b) := by
  have hvalid := hrecord.validateTimerRecord ⟨some key.val, none, some key.val.location⟩
    (by simp) (by simp) (by simp)
  simp [getCanonicalTimer, exec_bind, timerPath_of_stored, exec_readMessage_some h hdata, hvalid,
    Except.map]

end Objects

section Writes

variable {wire : Wire} {b : Bucket wire.Bytes} {I : Bucket wire.Bytes → Prop}
variable {key : RecordKey .timer} {record : TimerRecord}

def prepare (objects : Objects wire) (key : RecordKey .timer) (record : TimerRecord) :
    Objects wire :=
  objects.insert (Address.due key).path (wire.due.marshal (dueEntry record key.val.run))

theorem Carries.dueEntry_fields (h : Carries record key) : dueEntry record key.val.run =
    ⟨some key.val, some key.val.run, some (fireAtOf record.fireAt), some record⟩ := by
  rw [dueEntry, h.key]
  rfl

theorem putDueEntry_eq (h : Carries record key) (hstatus : validateEntryStatus record = .ok ()) :
    putDueEntry wire record = createDir key.val.dueLocation.dropLast >>= fun _ =>
      writeObject key.val.dueLocation (wire.due.marshal (dueEntry record key.val.run)) := by
  have hvalid : validateDueEntry (dueEntry record key.val.run) none none none
      (some key.val.dueLocation) = .ok key.val := by
    rw [h.dueEntry_fields]
    exact h.validateDueEntry hstatus rfl (by simp) (by simp) (by simp) (by simp)
  simp only [putDueEntry, h.timerKeyFromProto, validateWorkflowKey_run, dueEntryPath_of_stored,
    liftOk_bind, hvalid]

theorem putTimer_eq (h : Carries record key) :
    putTimer wire record = putDueEntry wire record >>= fun _ =>
      createDir key.val.directory >>= fun _ =>
        writeObject key.val.location (wire.timer.marshal record) := by
  have hvalid := h.validateTimerRecord ⟨none, none, none⟩ (by simp) (by simp) (by simp)
  simp only [putTimer, hvalid, timerDirPath_of_stored, timerPath_of_stored, liftOk_bind]

variable (wire) in
theorem putTimer_rejected
    (h : ∀ key : RecordKey .timer, Carries record key → validateEntryStatus record ≠ .ok ()) :
    ∃ err, putTimer wire record = throw err := by
  rcases hvalid : validateTimerRecord record ⟨none, none, none⟩ with err | k
  · refine ⟨err, ?_⟩
    simp only [putTimer, hvalid, liftError_bind]
  · obtain ⟨key, rfl, hcarries⟩ := carries_of_validateTimerRecord hvalid
    rcases hstatus : validateEntryStatus record with err | u
    · refine ⟨err, ?_⟩
      have hentry : validateDueEntry (dueEntry record key.val.run) none none none
          (some key.val.dueLocation) = .error err := by
        change (validateEntryStatus record >>= _) = _
        rw [hstatus]
        rfl
      simp only [putTimer, hvalid, putDueEntry, hcarries.timerKeyFromProto, validateWorkflowKey_run,
        dueEntryPath_of_stored, liftOk_bind, hentry, liftError_bind]
      rfl
    · exact absurd hstatus (h key hcarries)

theorem putCanonicalTimer_eq (h : Carries record key) :
    putCanonicalTimer wire record = createDir key.val.directory >>= fun _ =>
      writeObject key.val.location (wire.timer.marshal record) := by
  have hvalid := h.validateTimerRecord ⟨none, none, none⟩ (by simp) (by simp) (by simp)
  simp only [putCanonicalTimer, hvalid, timerDirPath_of_stored, timerPath_of_stored, liftOk_bind]

variable {Q : Except Err Unit → Bucket wire.Bytes → Prop}

theorem runs_putDueEntry (h : Carries record key)
    (hstatus : validateEntryStatus record = .ok ()) (hsame : ∀ b', b'.objects = b.objects → I b')
    (hput : ∀ b', b'.objects = prepare b.objects key record → I b' ∧ Q (.ok ()) b') :
    b.Runs I (putDueEntry wire record) Q := by
  rw [putDueEntry_eq h hstatus]
  simp only [runs_bind, runs_createDir, runs_writeObject]
  exact ⟨hsame _ rfl, hput _ rfl⟩

theorem runs_putCanonicalTimer
    (h : Carries record key) (hsame : ∀ b', b'.objects = b.objects → I b')
    (hput : ∀ b', b'.objects = publish b.objects key record → I b' ∧ Q (.ok ()) b') :
    b.Runs I (putCanonicalTimer wire record) Q := by
  rw [putCanonicalTimer_eq h]
  simp only [runs_bind, runs_createDir, runs_writeObject]
  exact ⟨hsame _ rfl, hput _ rfl⟩

theorem runs_putTimer (h : Carries record key)
    (hstatus : validateEntryStatus record = .ok ()) (hsame : ∀ b', b'.objects = b.objects → I b')
    (hprepared : ∀ b', b'.objects = prepare b.objects key record → I b')
    (hput : ∀ b', b'.objects = publish (prepare b.objects key record) key record →
      I b' ∧ Q (.ok ()) b') : b.Runs I (putTimer wire record) Q := by
  rw [putTimer_eq h, runs_bind]
  apply runs_putDueEntry h hstatus hsame
  intro b' hb'
  refine ⟨hprepared b' hb', ?_⟩
  simp only [runs_bind, runs_createDir, runs_writeObject]
  refine ⟨hprepared _ hb', hput _ ?_⟩
  rw [publish, ← hb']
  rfl

theorem runs_putTimer_rejected
    (h : ∀ key : RecordKey .timer, Carries record key → validateEntryStatus record ≠ .ok ())
    (hQ : ∀ err, Q (.error err) b) : b.Runs I (putTimer wire record) Q := by
  obtain ⟨err, hput⟩ := putTimer_rejected wire h
  rw [hput]
  exact runs_throw.2 (hQ err)

theorem runs_deleteIfExists {Q : Except Err Bool → Bucket wire.Bytes → Prop}
    (hsame : I b) (habsent : b.objects.lookup path = none → Q (.ok false) b)
    (hdeleted : ∀ b', b'.objects = b.objects.erase path → I b' ∧ Q (.ok true) b') :
    b.Runs I (deleteIfExists path) Q := by
  refine runs_bind.2 (runs_attempt.2 (runs_isExist.2 ⟨hsame, ?_⟩))
  rcases hlookup : b.objects.lookup path with _ | data
  · simpa [hlookup] using habsent hlookup
  · obtain ⟨hI, hQ⟩ := hdeleted { b with objects := b.objects.erase path } rfl
    simp only [Option.isSome_some, Bool.not_true, Bool.false_eq_true,
      if_false, runs_bind, runs_attempt]
    exact runs_deleteObject hlookup hI (runs_pure.2 hQ)

@[grind ←] theorem readOnly_usableCanonical (k : TimerKey) (canonicalExists : Bool) :
    ReadOnly (usableCanonical wire k canonicalExists) := by
  unfold usableCanonical
  grind

theorem liveRecord_ledger {objects : Objects wire} :
    ((ledgerRecord wire objects key).map OpenDALStore.dueEntry).bind liveRecord =
      timerState wire objects key := by
  rw [timerState]
  cases ledgerRecord wire objects key with
  | none => rfl
  | some record =>
    by_cases hstatus : record.status = .canceled <;>
      simp [liveRecord, entryRecord, OpenDALStore.dueEntry, Option.filter_some, hstatus]

theorem runs_deleteTimer {Q : Except Err Bool → Bucket wire.Bytes → Prop}
    {canonical : Option TimerRecord} {ledger : Option DueTimerEntry}
    (hcanonical : b.exec (usableCanonical wire key.val (b.objects.lookup key.val.location).isSome) =
      (.ok canonical, b)) (hledger : b.exec (readDueEntry wire key.val) = (.ok ledger, b))
    (hsource : ¬ (b.objects.lookup key.val.location = none ∧ ledger.bind liveRecord = none) →
      Carries (tombstoneSource key.val canonical ledger) key)
    (hsame : ∀ b', b'.objects = b.objects → I b')
    (hgone : b.objects.lookup key.val.location = none → ledger.bind liveRecord = none →
      Q (.ok false) b)
    (htomb : ¬ (b.objects.lookup key.val.location = none ∧ ledger.bind liveRecord = none) →
      ∀ b', b'.objects = prepare b.objects key
        (tombstone (tombstoneSource key.val canonical ledger)) →
          I b' ∧ (b.objects.lookup key.val.location = none → ∀ r, Q (.ok r) b'))
    (hdone : ¬ (b.objects.lookup key.val.location = none ∧ ledger.bind liveRecord = none) →
      ∀ b', b'.objects = (prepare b.objects key
        (tombstone (tombstoneSource key.val canonical ledger))).erase key.val.location →
          I b' ∧ ∀ r, Q (.ok r) b') : b.Runs I (deleteTimer wire key.val) Q := by
  have hI : I b := hsame b rfl
  have hstatus : validateEntryStatus (tombstone (tombstoneSource key.val canonical ledger)) =
      .ok () := validateEntryStatus_tombstone
  simp only [deleteTimer, runs_bind, runs_liftExcept, validateTimerKey_of_stored,
    timerPath_of_stored]
  refine (readOnly_isExist _).runs hI ?_
  simp only [exec_isExist]
  refine (readOnly_usableCanonical key.val _).runs hI ?_
  rw [hcanonical]
  refine (readOnly_readDueEntry key.val).runs hI ?_
  rw [hledger]
  dsimp only
  split
  · next habsent =>
      simp only [Bool.and_eq_true, Bool.not_eq_true', Option.isSome_eq_false_iff,
        Option.isNone_iff_eq_none] at habsent
      exact runs_pure.2 (hgone habsent.1 habsent.2)
  · next hfound =>
      simp only [Bool.and_eq_true, Bool.not_eq_true', Option.isSome_eq_false_iff,
        Option.isNone_iff_eq_none] at hfound
      rw [runs_bind]
      apply runs_putDueEntry (hsource hfound).tombstone hstatus hsame
      intro b' hb'
      refine ⟨(htomb hfound b' hb').1, runs_bind.2 ?_⟩
      apply runs_deleteIfExists (htomb hfound b' hb').1
      · intro habsent
        have hsameLookup : b'.objects.lookup key.val.location = b.objects.lookup key.val.location := by
          rw [hb']
          exact lookup_insert_address (a := .item .timer key) (by simp) _
        exact runs_pure.2 ((htomb hfound b' hb').2 (hsameLookup.symm.trans habsent) _)
      · intro b'' hb''
        rw [hb'] at hb''
        exact ⟨(hdone hfound b'' hb'').1, runs_pure.2 ((hdone hfound b'' hb'').2 _)⟩

end Writes

end Temporaless.Python
