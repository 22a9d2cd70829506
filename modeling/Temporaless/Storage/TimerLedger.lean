import Mathlib.Data.Finmap
import Temporaless.Storage.Address
import Temporaless.Storage.OpenDAL

/-!
# Timers as atomic registers

A timer lives in two objects, its ledger entry and its point record. Every write publishes the
ledger entry first and every read consults it first, so the ledger alone decides what a timer is.
-/

namespace Temporaless.OpenDALStore

open PathTree Effects

variable {a a' : Address} {path : Path}

abbrev Objects (wire : Wire) := AList fun _ : Path => wire.Bytes

structure Preparable (record : TimerRecord) (key : RecordKey .timer) : Prop where
  valid : validateTimerRecord record key.val = .ok ()
  status : record.status ≠ .unspecified
  fireAt : record.status = .scheduled → record.fireAt.isSome
  checked : checkOptional record.fireAt = .ok ()

variable (wire : Wire)

/-- What the object at each address may hold. -/
def WellStored : Address → wire.Bytes → Prop
  | .workflow key, data =>
    ∃ record, data = wire.workflow.marshal record ∧ validateWorkflowRecord record key.val = .ok ()
  | .item .activity key, data =>
    ∃ record, data = wire.activity.marshal record ∧ validateActivityRecord record key.val = .ok ()
  | .item .timer key, data =>
    ∃ record, data = wire.timer.marshal record ∧ validateTimerRecord record key.val = .ok ()
  | .item .event key, data =>
    ∃ record, data = wire.event.marshal record ∧ validateEventRecord record key.val = .ok ()
  | .due key, data => ∃ record, data = wire.due.marshal (dueEntry record) ∧ Preparable record key
  | _, _ => True

/-- Every object is where it belongs, and no timer point lacks its ledger entry. -/
structure Tidy (objects : Objects wire) : Prop where
  placed : ∀ path data, objects.lookup path = some data →
    ∃ address : Address, path = address.path ∧ WellStored wire address data
  shadowed : ∀ key : RecordKey .timer, (objects.lookup key.val.location).isSome →
    (objects.lookup key.val.dueLocation).isSome

theorem tidy_empty : Tidy wire ∅ := by
  constructor
  · intro path data h
    simp at h
  · intro key h
    simp at h

section Update

variable {wire} {objects : Objects wire}

theorem lookup_insert_address (h : a ≠ a') (data : wire.Bytes) :
    (objects.insert a'.path data).lookup a.path = objects.lookup a.path :=
  AList.lookup_insert_ne (Address.path_ne h)

theorem lookup_erase_address (h : a ≠ a') :
    (objects.erase a'.path).lookup a.path = objects.lookup a.path :=
  AList.lookup_erase_ne (Address.path_ne h)

theorem Tidy.wellStored (h : Tidy wire objects) {data : wire.Bytes}
    (hdata : objects.lookup a.path = some data) : WellStored wire a data := by
  obtain ⟨a', hpath, hstored⟩ := h.placed _ _ hdata
  rwa [Address.path_injective hpath]

theorem Tidy.insert (h : Tidy wire objects) {data : wire.Bytes} (hdata : WellStored wire a data)
    (hpoint : ∀ key, a = .item .timer key → (objects.lookup key.val.dueLocation).isSome) :
    Tidy wire (objects.insert a.path data) := by
  constructor
  · intro path data' hlookup
    by_cases hpath : path = a.path
    · subst hpath
      rw [AList.lookup_insert] at hlookup
      exact ⟨a, rfl, by rwa [← Option.some.inj hlookup]⟩
    · rw [AList.lookup_insert_ne hpath] at hlookup
      exact h.placed path data' hlookup
  · intro key hkey
    change ((objects.insert a.path data).lookup (Address.due key).path).isSome
    by_cases hdue : Address.due key = a
    · rw [hdue, AList.lookup_insert]
      rfl
    · rw [lookup_insert_address hdue]
      by_cases hitem : Address.item .timer key = a
      · exact hpoint key hitem.symm
      · apply h.shadowed key
        change (objects.lookup (Address.item .timer key).path).isSome
        rwa [← lookup_insert_address hitem data]

theorem Tidy.erase (h : Tidy wire objects) (hdue : ∀ key, a ≠ .due key) :
    Tidy wire (objects.erase a.path) := by
  constructor
  · intro path data hlookup
    by_cases hpath : path = a.path
    · subst hpath
      rw [AList.lookup_erase] at hlookup
      cases hlookup
    · rw [AList.lookup_erase_ne hpath] at hlookup
      exact h.placed path data hlookup
  · intro key hkey
    change ((objects.erase a.path).lookup (Address.due key).path).isSome
    rw [lookup_erase_address (hdue key).symm]
    by_cases hitem : Address.item .timer key = a
    · change ((objects.erase a.path).lookup (Address.item .timer key).path).isSome at hkey
      rw [hitem, AList.lookup_erase] at hkey
      cases hkey
    · apply h.shadowed key
      change (objects.lookup (Address.item .timer key).path).isSome
      rwa [← lookup_erase_address hitem]

end Update

section Views

variable {wire} {α : Type}

def storedRecord (codec : Codec wire.Bytes α) (objects : Objects wire) (path : Path) : Option α :=
  (objects.lookup path).bind fun data => (codec.unmarshal data).toOption

theorem storedRecord_none {codec : Codec wire.Bytes α} {objects : Objects wire}
    (h : objects.lookup path = none) : storedRecord codec objects path = none := by
  rw [storedRecord, h]
  rfl

theorem storedRecord_some {codec : Codec wire.Bytes α} {objects : Objects wire}
    {record : α} (h : objects.lookup path = some (codec.marshal record)) :
    storedRecord codec objects path = some record := by
  rw [storedRecord, h, Option.bind_some, codec.unmarshal_marshal]
  rfl

theorem exec_getRecord {codec : Codec wire.Bytes α} {what : String}
    {validate : α → Except Err Unit} {b : Bucket wire.Bytes}
    (h : ∀ data, b.objects.lookup path = some data →
      ∃ record, data = codec.marshal record ∧ validate record = .ok ()) :
    b.exec (getRecord codec what (.ok path) validate) =
      (.ok (storedRecord codec b.objects path), b) := by
  rcases hlookup : b.objects.lookup path with _ | data
  · rw [storedRecord_none hlookup]
    simp only [getRecord, exec_bind, exec_liftExcept, exec_isExist, hlookup]
    rfl
  · obtain ⟨record, rfl, hvalid⟩ := h data hlookup
    rw [storedRecord_some hlookup]
    simp [getRecord, exec_bind, hlookup, exec_readObject b hlookup, codec.unmarshal_marshal, hvalid,
      Except.map]

end Views

def ledgerRecord (objects : Objects wire) (key : RecordKey .timer) : Option TimerRecord :=
  (storedRecord wire.due objects key.val.dueLocation).bind (·.record)

def pointRecord (objects : Objects wire) (key : RecordKey .timer) : Option TimerRecord :=
  storedRecord wire.timer objects key.val.location

def workflowRecord (objects : Objects wire) (key : RunKey) : Option WorkflowRecord :=
  storedRecord wire.workflow objects key.val.location

/-- The timer a read finds: a CANCELED entry hides it. -/
def timerState (objects : Objects wire) (key : RecordKey .timer) : Option TimerRecord :=
  (ledgerRecord wire objects key).filter (·.status ≠ .canceled)

section Reads

variable {wire} {objects : Objects wire} {b : Bucket wire.Bytes}

theorem Tidy.ledger_cases (h : Tidy wire objects) (key : RecordKey .timer) :
    (objects.lookup key.val.dueLocation = none ∧ ledgerRecord wire objects key = none) ∨
      ∃ record, objects.lookup key.val.dueLocation = some (wire.due.marshal (dueEntry record)) ∧
        ledgerRecord wire objects key = some record ∧ Preparable record key := by
  rcases hlookup : objects.lookup key.val.dueLocation with _ | data
  · left
    refine ⟨rfl, ?_⟩
    rw [ledgerRecord, storedRecord_none hlookup]
    rfl
  · right
    obtain ⟨record, rfl, hrecord⟩ := h.wellStored (a := .due key) hlookup
    refine ⟨record, rfl, ?_, hrecord⟩
    rw [ledgerRecord, storedRecord_some hlookup]
    rfl

theorem Tidy.pointRecord_none (h : Tidy wire objects) {key : RecordKey .timer}
    (hkey : objects.lookup key.val.dueLocation = none) :
    objects.lookup key.val.location = none := by
  rcases hpoint : objects.lookup key.val.location with _ | data
  · rfl
  · have hshadow := h.shadowed key (by rw [hpoint]; rfl)
    rw [hkey] at hshadow
    cases hshadow

theorem Preparable.key {record : TimerRecord} {key : RecordKey .timer}
    (h : Preparable record key) : (itemKeyFromProto record.key).withDefaults = key.val := by
  have hvalid := validateItem_eq_ok.1 h.valid
  rw [hvalid.2.2, key.withDefaults]

theorem Preparable.dueEntry_key {record : TimerRecord} {key : RecordKey .timer}
    (h : Preparable record key) :
    dueEntry record = ⟨some key.val, some key.val.run, record.fireAt, some record⟩ := by
  simp only [dueEntry, h.key]

theorem Preparable.entryTimerKey {record : TimerRecord} {key : RecordKey .timer}
    (h : Preparable record key) : OpenDALStore.entryTimerKey (dueEntry record) = key.val := by
  rw [h.dueEntry_key]
  exact key.withDefaults

theorem Preparable.entryWorkflowKey {record : TimerRecord} {key : RecordKey .timer}
    (h : Preparable record key) :
    OpenDALStore.entryWorkflowKey (dueEntry record) = key.val.run := by
  rw [h.dueEntry_key]
  change key.val.run.withDefaults = _
  rw [← ItemKey.run_withDefaults, key.withDefaults]

def DeadlinesAgree : Option Timestamp → Option Timestamp → Prop
  | none, none => True
  | some prepared, some fireAt =>
    prepared.checkValid = true ∧ fireAt.checkValid = true ∧ prepared.asTime = fireAt.asTime
  | _, _ => False

theorem deadlinesAgree_self {fireAt : Option Timestamp} (h : checkOptional fireAt = .ok ()) :
    DeadlinesAgree fireAt fireAt := by
  cases fireAt with
  | none => trivial
  | some t => exact ⟨Timestamp.check_eq_ok.1 h, Timestamp.check_eq_ok.1 h, rfl⟩

theorem validateDueEntry_eq_ok {root ledgerPath : Path} {entry : DueTimerEntry} {timerKey : TimerKey}
    {workflowKey : WorkflowKey} :
    validateDueEntry root ledgerPath entry timerKey workflowKey = .ok () ↔
      ∃ record, entry.record = some record ∧ timerKey.Valid ∧ workflowKey.Valid ∧
        workflowKey.withDefaults = timerKey.run.withDefaults ∧ dueRoot timerKey.ns = root ∧
        validateTimerRecord record timerKey = .ok () ∧ record.status ≠ .unspecified ∧
        (record.status = .scheduled → record.fireAt.isSome) ∧
        DeadlinesAgree record.fireAt entry.fireAt ∧ timerKey.withDefaults.dueLocation = ledgerPath := by
  unfold validateDueEntry
  cases hrecord : entry.record with
  | none => simp [throw_eq_ok]
  | some record =>
    simp only [bind_eq_ok_unit, mapError_eq_ok, throw_bind, ite_throw_eq_ok]
    by_cases hkey : timerKey.Valid
    · have hcheck : timerKey.validate = .ok () := hkey
      -- every path through the checks ends at the comparison of the two locations
      have hend : ((do
          let expected ← dueEntryPath timerKey
          if expected ≠ ledgerPath then
            throw (errorf ("due timer entry payload does not match its storage location at " ++
              render ledgerPath))
          else pure ()) = Except.ok ()) ↔ timerKey.withDefaults.dueLocation = ledgerPath := by
        rw [ItemKey.dueEntryPath_of_valid hkey]
        change (if _ then _ else _) = _ ↔ _
        rw [ite_throw_eq_ok]
        simp [pure, Except.pure]
      simp only [Option.some.injEq, exists_eq_left', hcheck, hkey, true_and, WorkflowKey.Valid,
        Bool.not_eq_true', Bool.not_eq_false, sameWorkflowRun_iff, ne_eq, not_not]
      refine and_congr_right fun _ => and_congr_right fun _ => and_congr_right fun _ =>
        and_congr_right fun _ => ?_
      cases record.status <;> cases record.fireAt <;> cases entry.fireAt <;>
        simp only [bind_eq_ok_unit, mapError_eq_ok, ite_throw_eq_ok, hend, throw_eq_ok,
          DeadlinesAgree, Timestamp.check_eq_ok] <;>
        simp [and_assoc]
    · have hcheck : ¬ timerKey.validate = .ok () := hkey
      simp [hcheck, hkey]

theorem Preparable.validateDueEntry {record : TimerRecord} {key : RecordKey .timer}
    (h : Preparable record key) :
    OpenDALStore.validateDueEntry (dueRoot key.val.ns) key.val.dueLocation (dueEntry record)
      key.val key.val.run = .ok () := by
  have hlocation : key.val.withDefaults.dueLocation = key.val.dueLocation := by rw [key.withDefaults]
  rw [h.dueEntry_key, validateDueEntry_eq_ok]
  exact ⟨record, rfl, key.property.1, key.property.1.run (by decide), rfl, rfl, h.valid, h.status,
    h.fireAt, deadlinesAgree_self h.checked, hlocation⟩

theorem location_of_validateDueEntry {root ledgerPath : Path} {entry : DueTimerEntry}
    {timerKey : TimerKey} {workflowKey : WorkflowKey}
    (h : validateDueEntry root ledgerPath entry timerKey workflowKey = .ok ()) :
    ∃ hkey : timerKey.Valid, ledgerPath = (Address.due (timerKey.stored hkey)).path := by
  obtain ⟨-, -, hkey, -, -, -, -, -, -, -, hlocation⟩ := validateDueEntry_eq_ok.1 h
  exact ⟨hkey, hlocation.symm⟩

theorem calls_getRecord {α : Type} (codec : Codec wire.Bytes α) (what : String)
    (path : Except Err Path) (validate : α → Except Err Unit) :
    (getRecord codec what path validate).run.Calls
      fun op : BucketOp wire.Bytes => ∃ p, path = .ok p ∧ (op = .isExist p ∨ op = .read p) := by
  apply calls_liftExcept_bind
  intro p hp
  apply Program.Calls.bindExcept
  · exact ⟨⟨p, hp, Or.inl rfl⟩, fun _ => trivial⟩
  · intro present
    split
    · exact trivial
    · apply Program.Calls.bindExcept
      · exact ⟨⟨p, hp, Or.inr rfl⟩, fun _ => trivial⟩
      · intro data
        split
        · exact trivial
        · apply Program.Calls.bindExcept (calls_liftExcept _ _)
          intro _
          exact trivial

@[grind ←] theorem readOnly_getRecord {α : Type} (codec : Codec wire.Bytes α) (what : String)
    (path : Except Err Path) (validate : α → Except Err Unit) :
    ReadOnly (getRecord codec what path validate) := by
  apply (calls_getRecord codec what path validate).imp
  intro op hop
  obtain ⟨p, -, rfl | rfl⟩ := hop
  · exact trivial
  · exact trivial

@[grind ←] theorem readOnly_readListedProto {α : Type} (codec : Codec wire.Bytes α) (path : Path) :
    ReadOnly (readListedProto codec path) := by
  unfold readListedProto
  grind

@[grind ←] theorem readOnly_getDueEntry (key : TimerKey) : ReadOnly (getDueEntry wire key) := by
  unfold getDueEntry
  grind

theorem exec_readListedProto {α : Type} {codec : Codec wire.Bytes α} {record : α}
    (h : b.objects.lookup path = some (codec.marshal record)) :
    b.exec (readListedProto codec path) = (.ok record, b) := by
  simp [readListedProto, exec_bind, exec_readObject b h, codec.unmarshal_marshal]

theorem exec_getDueEntry_none {key : TimerKey} (hkey : key.Valid)
    (h : b.objects.lookup (key.stored hkey).val.dueLocation = none) :
    b.exec (getDueEntry wire key) = (.ok none, b) := by
  have hpath := ItemKey.dueEntryPath_of_valid hkey
  have hlookup : b.objects.lookup key.withDefaults.dueLocation = none := h
  simp [getDueEntry, exec_bind, hpath, hlookup]

theorem exec_getDueEntry_some {key : TimerKey} (hkey : key.Valid) {record : TimerRecord}
    (hprep : Preparable record (key.stored hkey))
    (hlookup : b.objects.lookup (key.stored hkey).val.dueLocation =
      some (wire.due.marshal (dueEntry record))) :
    b.exec (getDueEntry wire key) = (.ok (some (dueEntry record)), b) := by
  have hpath := ItemKey.dueEntryPath_of_valid hkey
  have hval : (key.stored hkey).val = key.withDefaults := rfl
  have hvalid := hprep.validateDueEntry
  have hread := exec_readListedProto hlookup
  have htimer := hprep.entryTimerKey
  have hworkflow := hprep.entryWorkflowKey
  rw [hval] at hlookup hvalid hread htimer hworkflow
  simp [getDueEntry, exec_bind, hpath, hlookup, hread, htimer, hworkflow, hvalid, Except.mapError,
    guardCorrupt, Except.map]

theorem exec_getDueEntry (hb : Tidy wire b.objects) (key : TimerKey) (hkey : key.Valid) :
    b.exec (getDueEntry wire key) =
      (.ok ((ledgerRecord wire b.objects (key.stored hkey)).map dueEntry), b) := by
  rcases hb.ledger_cases (key.stored hkey) with ⟨hlookup, hrecord⟩ | ⟨record, hlookup, hrecord, hprep⟩
  · rw [hrecord]
    exact exec_getDueEntry_none hkey hlookup
  · rw [hrecord]
    exact exec_getDueEntry_some hkey hprep hlookup

theorem exec_getTimerPoint (hb : Tidy wire b.objects) (key : TimerKey) (hkey : key.Valid) :
    b.exec (getTimerPoint wire key) =
      (.ok (pointRecord wire b.objects (key.stored hkey)), b) := by
  rw [getTimerPoint, ItemKey.path_of_valid hkey]
  refine exec_getRecord fun data hdata => ?_
  obtain ⟨record, hrecord, hvalid⟩ := hb.wellStored (a := .item .timer (key.stored hkey)) hdata
  exact ⟨record, hrecord, by rwa [validateTimerRecord, ← validateItem_withDefaults]⟩

theorem exec_getTimer (hb : Tidy wire b.objects) (key : TimerKey) (hkey : key.Valid) :
    b.exec (getTimer wire key) = (.ok (timerState wire b.objects (key.stored hkey)), b) := by
  rw [getTimer, exec_bind, exec_getDueEntry hb key hkey]
  rcases hb.ledger_cases (key.stored hkey) with ⟨hlookup, hrecord⟩ | ⟨record, hlookup, hrecord, hprep⟩
  · have hpoint : storedRecord wire.timer b.objects (key.stored hkey).val.location = none :=
      storedRecord_none (hb.pointRecord_none hlookup)
    simp only [hrecord, Option.map_none, exec_getTimerPoint hb key hkey, pointRecord, hpoint,
      timerState]
    rfl
  · simp only [hrecord, Option.map_some, exec_pure, timerState, preparedRecord, hprep.dueEntry_key]

end Reads

section Writes

variable {wire} {b : Bucket wire.Bytes} {I : Bucket wire.Bytes → Prop}

theorem checkPrepared_eq_ok {record : TimerRecord} :
    checkPrepared record = .ok () ↔ record.status ≠ .unspecified ∧
      (record.status = .scheduled → record.fireAt.isSome) ∧
      checkOptional record.fireAt = .ok () := by
  have hcheck : (checkOptional record.fireAt).mapError (wrapf "invalid due timer fire_at: ") =
      .ok () ↔ checkOptional record.fireAt = .ok () := by
    cases checkOptional record.fireAt <;> simp [Except.mapError]
  unfold checkPrepared
  rcases hstatus : record.status with _ | _ | _ | _
  · simp [bind, Except.bind, throw, throwThe, MonadExceptOf.throw]
  · rcases hfire : record.fireAt with _ | t
    · simp [bind, Except.bind, throw, throwThe, MonadExceptOf.throw]
    · rw [hfire] at hcheck
      simpa [bind, Except.bind, pure, Except.pure] using hcheck
  · simpa [bind, Except.bind, pure, Except.pure] using hcheck
  · simpa [bind, Except.bind, pure, Except.pure] using hcheck

theorem Preparable.check_eq {record : TimerRecord} {key : RecordKey .timer}
    (h : Preparable record key) :
    checkPrepared record = .ok () := checkPrepared_eq_ok.2 ⟨h.status, h.fireAt, h.checked⟩

theorem exists_preparable_iff {record : TimerRecord} :
    (∃ key, Preparable record key) ↔
      validateTimerRecord record (itemKeyFromProto record.key).withDefaults = .ok () ∧
        checkPrepared record = .ok () := by
  constructor
  · rintro ⟨key, hprep⟩
    rw [hprep.key]
    exact ⟨hprep.valid, hprep.check_eq⟩
  · rintro ⟨hvalid, hcheck⟩
    obtain ⟨hstatus, hfire, hchecked⟩ := checkPrepared_eq_ok.1 hcheck
    have hkey := (validateItem_eq_ok.1 hvalid).2.1
    exact ⟨(itemKeyFromProto record.key).stored hkey, hvalid, hstatus, hfire, hchecked⟩

def prepare (objects : Objects wire) (key : RecordKey .timer) (record : TimerRecord) :
    Objects wire :=
  objects.insert (Address.due key).path (wire.due.marshal (dueEntry record))

def publish (objects : Objects wire) (key : RecordKey .timer) (record : TimerRecord) :
    Objects wire :=
  objects.insert (Address.item .timer key).path (wire.timer.marshal record)

theorem runs_putDueEntry {record : TimerRecord} {key : RecordKey .timer}
    {Q : Except Err Path → Bucket wire.Bytes → Prop} (hprep : Preparable record key)
    (hsame : ∀ b', b'.objects = b.objects → I b')
    (hput : ∀ b', b'.objects = prepare b.objects key record →
      I b' ∧ Q (.ok key.val.dueLocation) b') : b.Runs I (putDueEntry wire record) Q := by
  simp only [putDueEntry, hprep.key, runs_bind, runs_liftExcept, hprep.valid,
    hprep.check_eq, key.dueEntryPath_eq, runs_createDir, runs_writeObject, runs_pure]
  refine ⟨hsame _ rfl, ?_⟩
  exact hput _ rfl

theorem runs_putTimer {record : TimerRecord} {key : RecordKey .timer}
    {Q : Except Err Unit → Bucket wire.Bytes → Prop} (hprep : Preparable record key)
    (hsame : ∀ b', b'.objects = b.objects → I b')
    (hprepared : ∀ b', b'.objects = prepare b.objects key record → I b')
    (hput : ∀ b', b'.objects = publish (prepare b.objects key record) key record →
      I b' ∧ Q (.ok ()) b') : b.Runs I (putTimer wire record) Q := by
  simp only [putTimer, hprep.key, runs_bind, runs_liftExcept, hprep.valid,
    key.path_eq, key.dirPath_eq, runs_createDir]
  refine ⟨hsame _ rfl, ?_⟩
  refine runs_putDueEntry hprep (fun b' hb' => hsame b' hb') fun b' hb' => ?_
  refine ⟨hprepared b' hb', runs_writeObject.2 ?_⟩
  refine hput _ ?_
  rw [publish, ← hb']
  rfl

theorem runs_putTimer_rejected {record : TimerRecord}
    {Q : Except Err Unit → Bucket wire.Bytes → Prop} (hprep : ¬∃ key, Preparable record key)
    (hsame : ∀ b', b'.objects = b.objects → I b' ∧ ∀ err, Q (.error err) b') :
    b.Runs I (putTimer wire record) Q := by
  rw [exists_preparable_iff, not_and] at hprep
  simp only [putTimer, runs_bind, runs_liftExcept]
  rcases hvalid : validateTimerRecord record (itemKeyFromProto record.key).withDefaults with err | u
  · exact (hsame b rfl).2 err
  · rcases hcheck : checkPrepared record with err | u'
    · have hkey := (validateItem_eq_ok.1 hvalid).2.1
      have hpath := ItemKey.path_of_valid (ItemKey.valid_withDefaults.2 hkey)
      have hdir := ItemKey.dirPath_of_valid (ItemKey.valid_withDefaults.2 hkey)
      simp only [hpath, hdir, runs_createDir, putDueEntry, runs_bind,
        runs_liftExcept, hvalid, hcheck]
      refine ⟨(hsame _ ?_).1, (hsame _ ?_).2 err⟩ <;> rfl
    · exact absurd hcheck (hprep hvalid)

theorem runs_deleteIfExists {Q : Except Err Bool → Bucket wire.Bytes → Prop}
    (hsame : I b) (habsent : b.objects.lookup path = none → Q (.ok false) b)
    (hdeleted : (b.objects.lookup path).isSome → ∀ b', b'.objects = b.objects.erase path →
      I b' ∧ Q (.ok true) b') : b.Runs I (deleteIfExists path) Q := by
  refine runs_bind.2 (runs_isExist.2 ⟨hsame, ?_⟩)
  rcases hlookup : b.objects.lookup path with _ | data
  · simpa [hlookup] using habsent hlookup
  · obtain ⟨hI, hQ⟩ := hdeleted (by rw [hlookup]; rfl)
      { b with objects := b.objects.erase path } rfl
    simp only [Option.isSome_some, Bool.not_true, Bool.false_eq_true,
      if_false, runs_bind, runs_attempt]
    exact runs_deleteObject hlookup hI (runs_pure.2 hQ)

end Writes

section Effects

variable {wire} {objects : Objects wire} {key : RecordKey .timer} {record : TimerRecord}

theorem storedRecord_insert_ne {α : Type} (codec : Codec wire.Bytes α)
    (h : a ≠ a') (data : wire.Bytes) :
    storedRecord codec (objects.insert a'.path data) a.path = storedRecord codec objects a.path := by
  rw [storedRecord, lookup_insert_address h, storedRecord]

theorem storedRecord_erase_ne {α : Type} (codec : Codec wire.Bytes α) (h : a ≠ a') :
    storedRecord codec (objects.erase a'.path) a.path = storedRecord codec objects a.path := by
  rw [storedRecord, lookup_erase_address h, storedRecord]

theorem lookup_prepare : (prepare objects key record).lookup key.val.dueLocation =
    some (wire.due.marshal (dueEntry record)) := AList.lookup_insert objects

theorem lookup_publish : (publish objects key record).lookup key.val.location =
    some (wire.timer.marshal record) := AList.lookup_insert objects

theorem ledgerRecord_prepare (k : RecordKey .timer) :
    ledgerRecord wire (prepare objects key record) k =
      if k = key then some record else ledgerRecord wire objects k := by
  split
  · next hk =>
      subst hk
      rw [ledgerRecord, storedRecord_some lookup_prepare]
      rfl
  · next hk =>
      have hne : Address.due k ≠ Address.due key := fun h => hk (Address.due.inj h)
      exact congrArg (Option.bind · _) (storedRecord_insert_ne wire.due hne _)

theorem ledgerRecord_publish (k : RecordKey .timer) :
    ledgerRecord wire (publish objects key record) k = ledgerRecord wire objects k := by
  have hne : Address.due k ≠ Address.item .timer key := by simp
  exact congrArg (Option.bind · _) (storedRecord_insert_ne wire.due hne _)

theorem ledgerRecord_erase (k : RecordKey .timer) :
    ledgerRecord wire (objects.erase (Address.item .timer key).path) k =
      ledgerRecord wire objects k := by
  have hne : Address.due k ≠ Address.item .timer key := by simp
  exact congrArg (Option.bind · _) (storedRecord_erase_ne wire.due hne)

theorem Tidy.prepare (h : Tidy wire objects) (hprep : Preparable record key) :
    Tidy wire (OpenDALStore.prepare objects key record) :=
  h.insert (a := .due key) ⟨record, rfl, hprep⟩ (by simp)

theorem Tidy.publish (h : Tidy wire objects) (hprep : Preparable record key)
    (hledger : (objects.lookup key.val.dueLocation).isSome) :
    Tidy wire (OpenDALStore.publish objects key record) := by
  refine h.insert (a := .item .timer key) ⟨record, rfl, hprep.valid⟩ ?_
  intro key' hkey'
  simp only [Address.item.injEq, heq_eq_eq, true_and] at hkey'
  rwa [← hkey']

theorem Preparable.tombstone (h : Preparable record key) :
    Preparable (OpenDALStore.tombstone record) key :=
  ⟨h.valid, by simp [OpenDALStore.tombstone], by simp [OpenDALStore.tombstone], h.checked⟩

@[grind ←] theorem readOnly_tombstoneSource (k : TimerKey) (entry : Option DueTimerEntry) :
    ReadOnly (tombstoneSource wire k entry) := by
  unfold tombstoneSource getTimerPoint
  grind

theorem runs_deleteTimer_of_source {b : Bucket wire.Bytes} {I : Bucket wire.Bytes → Prop}
    {Q : Except Err Bool → Bucket wire.Bytes → Prop} {k : TimerKey} (hk : k.Valid)
    {entry : Option DueTimerEntry} (hentry : b.exec (getDueEntry wire k) = (.ok entry, b))
    (hsame : ∀ b', b'.objects = b.objects → I b')
    (hgone : b.objects.lookup (k.stored hk).val.location = none → entry.bind preparedRecord = none →
      Q (.ok false) b)
    (hfound : (b.objects.lookup (k.stored hk).val.location).isSome ∨
      (entry.bind preparedRecord).isSome → ∃ source,
        b.exec (tombstoneSource wire k entry) = (.ok (some source), b) ∧
        Preparable (tombstone source) (k.stored hk) ∧
        (∀ b', b'.objects = prepare b.objects (k.stored hk) (tombstone source) → I b' ∧
          (b.objects.lookup (k.stored hk).val.location = none → (entry.bind preparedRecord).isSome →
            Q (.ok true) b')) ∧
        ∀ b', b'.objects = (prepare b.objects (k.stored hk) (tombstone source)).erase
            (Address.item .timer (k.stored hk)).path → I b' ∧
          ((b.objects.lookup (k.stored hk).val.location).isSome → Q (.ok true) b')) :
    b.Runs I (deleteTimer wire k) Q := by
  have hI : I b := hsame b rfl
  have hpath : k.path = .ok (k.stored hk).val.location := ItemKey.path_of_valid hk
  simp only [deleteTimer, runs_bind, runs_liftExcept, hpath]
  refine (readOnly_isExist _).runs hI ?_
  simp only [exec_isExist]
  refine (readOnly_getDueEntry k).runs hI ?_
  rw [hentry]
  dsimp only
  split
  · next hgoes =>
      simp only [Bool.and_eq_true, Bool.not_eq_true', Option.isSome_eq_false_iff,
        Option.isNone_iff_eq_none] at hgoes
      exact runs_pure.2 (hgone hgoes.1 hgoes.2)
  · next hstays =>
      have hstays : (b.objects.lookup (k.stored hk).val.location).isSome ∨
          (entry.bind preparedRecord).isSome := by
        rw [Bool.and_eq_true, not_and_or, Bool.not_eq_true', Bool.not_eq_false] at hstays
        exact hstays.imp id fun h => by simpa [Option.isSome_iff_ne_none] using h
      obtain ⟨source, hfind, hprep, htomb, hdone⟩ := hfound hstays
      rw [runs_bind]
      refine (readOnly_tombstoneSource k entry).runs hI ?_
      rw [hfind]
      dsimp only
      rw [runs_bind]
      refine runs_putDueEntry hprep hsame fun b' hb' => ?_
      refine ⟨(htomb b' hb').1, runs_bind.2 ?_⟩
      have hpoint : b'.objects.lookup (k.stored hk).val.location =
          b.objects.lookup (k.stored hk).val.location := by
        rw [hb', prepare]
        exact lookup_insert_address (a := .item .timer (k.stored hk)) (by simp) _
      refine runs_deleteIfExists (htomb b' hb').1 ?_ ?_
      · intro hnone
        rw [hpoint] at hnone
        have hlive := hstays.resolve_left (by rw [hnone]; exact Bool.false_ne_true)
        exact runs_pure.2 ((htomb b' hb').2 hnone hlive)
      · intro hsome b'' hb''
        rw [hpoint] at hsome
        rw [hb'] at hb''
        exact ⟨(hdone b'' hb'').1, runs_pure.2 ((hdone b'' hb'').2 hsome)⟩

theorem runs_deleteTimer_invalid {Q : Except Err Bool → Bucket wire.Bytes → Prop} {k : TimerKey}
    (hk : ¬ k.Valid) (hQ : ∀ err, Q (.error err) b) : b.Runs I (deleteTimer wire k) Q := by
  rcases hpath : k.path with err | path
  · simp only [deleteTimer, runs_bind, runs_liftExcept, hpath]
    exact hQ err
  · exact absurd (ItemKey.valid_of_path hpath).1 hk

theorem runs_deleteTimer {b : Bucket wire.Bytes} {I : Bucket wire.Bytes → Prop}
    {Q : Except Err Bool → Bucket wire.Bytes → Prop} (hb : Tidy wire b.objects) {k : TimerKey}
    (hk : k.Valid) (hsame : ∀ b', b'.objects = b.objects → I b')
    (habsent : b.objects.lookup (k.stored hk).val.location = none →
      timerState wire b.objects (k.stored hk) = none → Q (.ok false) b)
    (htomb : ∀ record b', ledgerRecord wire b.objects (k.stored hk) = some record →
      b'.objects = prepare b.objects (k.stored hk) (tombstone record) → I b' ∧
        (b.objects.lookup (k.stored hk).val.location = none →
          (timerState wire b.objects (k.stored hk)).isSome → Q (.ok true) b'))
    (hdone : ∀ record b', ledgerRecord wire b.objects (k.stored hk) = some record →
      b'.objects = (prepare b.objects (k.stored hk) (tombstone record)).erase
        (Address.item .timer (k.stored hk)).path → I b' ∧
        ((b.objects.lookup (k.stored hk).val.location).isSome → Q (.ok true) b')) :
    b.Runs I (deleteTimer wire k) Q := by
  have hentry := exec_getDueEntry hb k hk
  rcases hb.ledger_cases (k.stored hk) with ⟨hlookup, hrecord⟩ | ⟨record, hlookup, hrecord, hprep⟩
  · -- no ledger entry, hence no point record either
    have hpoint := hb.pointRecord_none hlookup
    have hstate : timerState wire b.objects (k.stored hk) = none := by simp [timerState, hrecord]
    rw [hrecord] at hentry
    refine runs_deleteTimer_of_source hk hentry hsame (fun _ _ => habsent hpoint hstate) ?_
    simp [hpoint]
  · rw [hrecord] at hentry
    have hprepared : (Option.map dueEntry (some record)).bind preparedRecord =
        timerState wire b.objects (k.stored hk) := by
      rw [timerState, hrecord]
      rfl
    apply runs_deleteTimer_of_source hk hentry hsame
    · rw [hprepared]
      exact habsent
    · intro _
      refine ⟨record, rfl, hprep.tombstone, ?_, fun b' => hdone record b' hrecord⟩
      rw [hprepared]
      exact fun b' => htomb record b' hrecord

end Effects

end Temporaless.OpenDALStore
