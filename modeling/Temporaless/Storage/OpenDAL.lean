import Temporaless.Storage.Bucket
import Temporaless.Storage.Validate

/-!
# The OpenDAL record store

The methods of `OpenDALStore`, as code over the operations of a bucket. The context of every call is
live; what a cancelled call leaves behind is what `Bucket.cut` describes. The wire format is a
parameter: all that is known of it is that a marshalled message can be read back.
-/

namespace Temporaless

open PathTree Effects

/-- A message format whose decoder reads back what its encoder wrote. -/
structure Codec (Bytes α : Type) where
  marshal : α → Bytes
  unmarshal : Bytes → Except String α
  unmarshal_marshal : ∀ a, unmarshal (marshal a) = .ok a

structure Wire where
  Bytes : Type
  activity : Codec Bytes ActivityRecord
  workflow : Codec Bytes WorkflowRecord
  timer : Codec Bytes TimerRecord
  event : Codec Bytes EventRecord
  latest : Codec Bytes LatestWorkflowRunPointer
  due : Codec Bytes DueTimerEntry
  /-- The hexadecimal SHA-256 digest of a path. -/
  digest : String → String

structure RecordWire extends Wire where
  claim : Codec Bytes ClaimRecord

inductive Payload where
  | activity (record : ActivityRecord)
  | workflow (record : WorkflowRecord)
  | timer (record : TimerRecord)
  | event (record : EventRecord)
  | latest (pointer : LatestWorkflowRunPointer)
  | due (entry : DueTimerEntry)
  deriving DecidableEq

abbrev garbled {α : Type} : Except String α := .error "proto: cannot parse invalid wire-format data"

def taggedWire : Wire where
  Bytes := Payload
  activity := ⟨.activity, fun
    | .activity record => .ok record
    | _ => garbled, fun _ => rfl⟩
  workflow := ⟨.workflow, fun
    | .workflow record => .ok record
    | _ => garbled, fun _ => rfl⟩
  timer := ⟨.timer, fun
    | .timer record => .ok record
    | _ => garbled, fun _ => rfl⟩
  event := ⟨.event, fun
    | .event record => .ok record
    | _ => garbled, fun _ => rfl⟩
  latest := ⟨.latest, fun
    | .latest pointer => .ok pointer
    | _ => garbled, fun _ => rfl⟩
  due := ⟨.due, fun
    | .due entry => .ok entry
    | _ => garbled, fun _ => rfl⟩
  digest := id

def Codec.besideClaims {α : Type} (codec : Codec Payload α) : Codec (Payload ⊕ ClaimRecord) α where
  marshal a := .inl (codec.marshal a)
  unmarshal
    | .inl data => codec.unmarshal data
    | .inr _ => garbled
  unmarshal_marshal := codec.unmarshal_marshal

def claimedWire : Wire where
  Bytes := Payload ⊕ ClaimRecord
  activity := taggedWire.activity.besideClaims
  workflow := taggedWire.workflow.besideClaims
  timer := taggedWire.timer.besideClaims
  event := taggedWire.event.besideClaims
  latest := taggedWire.latest.besideClaims
  due := taggedWire.due.besideClaims
  digest := id

def claimCodec : Codec claimedWire.Bytes ClaimRecord where
  marshal := .inr
  unmarshal
    | .inl _ => garbled
    | .inr record => .ok record
  unmarshal_marshal := fun _ => rfl

/-- Messages tagged with their type, claims among them. -/
def taggedRecordWire : RecordWire := { claimedWire with claim := claimCodec }

namespace OpenDALStore

section Parts

variable {Bytes α : Type}

def getRecord (codec : Codec Bytes α) (what : String) (path : Except Err Path)
    (validate : α → Except Err Unit) : BucketM Bytes (Option α) := do
  let path ← path
  let present ← isExist path
  if !present then
    return none
  let data ← readObject path
  match codec.unmarshal data with
  | .error text =>
    throw (corruptRecordf ("decode " ++ what ++ " at " ++ render path ++ ": " ++ text))
  | .ok record =>
    validate record
    return some record

def putRecord (codec : Codec Bytes α) (validation : Except Err Unit) (path dir : Except Err Path)
    (record : α) : BucketM Bytes Unit := do
  validation
  let path ← path
  let dir ← dir
  createDir dir
  writeObject path (codec.marshal record)

def deleteIfExists (path : Path) : BucketM Bytes Bool := do
  let present ← isExist path
  if !present then
    return false
  match ← attempt (deleteObject path) with
  | .error err => if isOpenDALNotFound err then return false else throw err
  | .ok _ => return true

def readListedProto (codec : Codec Bytes α) (path : Path) : BucketM Bytes α := do
  let data ← readObject path
  match codec.unmarshal data with
  | .error text => throw (corruptRecordf ("decode listed protobuf " ++ render path ++ ": " ++ text))
  | .ok record => return record

def validateListed {kind : RecordKind} (path : Path) (target : WorkflowKey)
    (key : Option (ItemKey kind)) (validation : Except Err Unit) : Except Err Unit := do
  let key := itemKeyFromProto key
  validation.mapError fun err : Err =>
    .node (.formatted (err.message ++ " at " ++ render path)) [err]
  guardCorrupt (sameWorkflowRun target key.run)
    (kind.name ++ " payload key does not match listed workflow run at " ++ render path)
  let expected ← key.path
  guardCorrupt (expected == path)
    (kind.name ++ " payload key does not match its storage location at " ++ render path)

def readListed (codec : Codec Bytes α) (validate : Path → α → Except Err Unit) :
    List Path → BucketM Bytes (List α)
  | [] => return []
  | path :: paths => do
    if !hasBinpbSuffix path then
      readListed codec validate paths
    else
      let record ← readListedProto codec path
      validate path record
      let records ← readListed codec validate paths
      return record :: records

end Parts

def validateListedActivity (path : Path) (target : WorkflowKey) (record : ActivityRecord) :
    Except Err Unit :=
  validateListed path target record.key
    (validateActivityRecord record (itemKeyFromProto record.key))

def validateListedTimer (path : Path) (target : WorkflowKey) (record : TimerRecord) :
    Except Err Unit :=
  validateListed path target record.key (validateTimerRecord record (itemKeyFromProto record.key))

def validateListedEvent (path : Path) (target : WorkflowKey) (record : EventRecord) :
    Except Err Unit :=
  validateListed path target record.key (validateEventRecord record (itemKeyFromProto record.key))

def entryTimerKey (entry : DueTimerEntry) : TimerKey := (itemKeyFromProto entry.key).withDefaults

def entryWorkflowKey (entry : DueTimerEntry) : WorkflowKey :=
  (workflowKeyFromProto entry.workflowKey).withDefaults

/-- The checks of a ledger entry found at `ledgerPath` below `root`. -/
def validateDueEntry (root ledgerPath : Path) (entry : DueTimerEntry) (timerKey : TimerKey)
    (workflowKey : WorkflowKey) : Except Err Unit := do
  let place := "due timer entry at " ++ render ledgerPath
  match entry.record with
  | none => throw (errorf (place ++ " has no prepared record"))
  | some record =>
    timerKey.validate.mapError (wrapf (place ++ " has invalid timer key: "))
    workflowKey.validate.mapError (wrapf (place ++ " has invalid workflow key: "))
    if !sameWorkflowRun workflowKey timerKey.run then
      throw (errorf (place ++ " crosses workflow runs"))
    if dueRoot timerKey.ns ≠ root then
      throw (errorf (place ++ " is stored under the wrong namespace"))
    (validateTimerRecord record timerKey).mapError (wrapf (place ++ " has invalid prepared record: "))
    match record.status with
    | .scheduled =>
      if record.fireAt.isNone then
        throw (errorf ("scheduled " ++ place ++ " has no prepared fire_at"))
    | .fired | .canceled => pure ()
    | .unspecified => throw (errorf (place ++ " has invalid prepared status"))
    match record.fireAt, entry.fireAt with
    | none, none => pure ()
    | some prepared, some fireAt =>
      prepared.check.mapError (wrapf (place ++ " has invalid prepared fire_at: "))
      fireAt.check.mapError (wrapf (place ++ " has invalid fire_at: "))
      if prepared.asTime ≠ fireAt.asTime then
        throw (errorf (place ++ " has mismatched prepared fire_at"))
    | _, _ => throw (errorf (place ++ " has mismatched prepared fire_at"))
    let expected ← dueEntryPath timerKey
    if expected ≠ ledgerPath then
      throw (errorf ("due timer entry payload does not match its storage location at " ++
        render ledgerPath))

section Store

variable (wire : Wire)

def getActivity (key : ActivityKey) : BucketM wire.Bytes (Option ActivityRecord) :=
  getRecord wire.activity "activity payload" key.path fun record => validateActivityRecord record key

def getWorkflow (key : WorkflowKey) : BucketM wire.Bytes (Option WorkflowRecord) :=
  getRecord wire.workflow "workflow payload" key.path fun record => validateWorkflowRecord record key

def getEvent (key : EventKey) : BucketM wire.Bytes (Option EventRecord) :=
  getRecord wire.event "event payload" key.path fun record => validateEventRecord record key

def getTimerPoint (key : TimerKey) : BucketM wire.Bytes (Option TimerRecord) :=
  getRecord wire.timer "timer payload" key.path fun record => validateTimerRecord record key

def getDueEntry (key : TimerKey) : BucketM wire.Bytes (Option DueTimerEntry) := do
  let path ← dueEntryPath key
  let present ← isExist path
  if !present then
    return none
  let entry ← readListedProto wire.due path
  let timerKey := entryTimerKey entry
  let workflowKey := entryWorkflowKey entry
  (validateDueEntry (dueRoot key.withDefaults.ns) path entry timerKey workflowKey).mapError
    fun err => corruptRecordf ("invalid prepared due timer: " ++ err.message)
  guardCorrupt (timerKey == key.withDefaults) "prepared due timer key does not match requested key"
  return some entry

def preparedRecord (entry : DueTimerEntry) : Option TimerRecord :=
  entry.record.filter (·.status ≠ .canceled)

def getTimer (key : TimerKey) : BucketM wire.Bytes (Option TimerRecord) := do
  match ← getDueEntry wire key with
  | some entry => return preparedRecord entry
  | none => getTimerPoint wire key

def putActivity (record : ActivityRecord) : BucketM wire.Bytes Unit :=
  let key := itemKeyFromProto record.key
  putRecord wire.activity (validateActivityRecord record key) key.path key.dirPath record

def putEvent (record : EventRecord) : BucketM wire.Bytes Unit :=
  let key := itemKeyFromProto record.key
  putRecord wire.event (validateEventRecord record key) key.path key.dirPath record

def dueEntry (record : TimerRecord) : DueTimerEntry :=
  let key := (itemKeyFromProto record.key).withDefaults
  { key := some key, workflowKey := some key.run, fireAt := record.fireAt, record := some record }

/-- The part of `putDueEntry` that looks at the status and the deadline. -/
def checkPrepared (record : TimerRecord) : Except Err Unit := do
  match record.status with
  | .scheduled =>
    if record.fireAt.isNone then
      throw (errorf "scheduled due timer fire_at is required")
  | .fired | .canceled => pure ()
  | .unspecified => throw (errorf "due timer status must be SCHEDULED, FIRED, or CANCELED")
  (checkOptional record.fireAt).mapError (wrapf "invalid due timer fire_at: ")

def putDueEntry (record : TimerRecord) : BucketM wire.Bytes Path := do
  let key := (itemKeyFromProto record.key).withDefaults
  validateTimerRecord record key
  checkPrepared record
  let path ← dueEntryPath key
  createDir path.dropLast
  writeObject path (wire.due.marshal (dueEntry record))
  return path

def putTimer (record : TimerRecord) : BucketM wire.Bytes Unit := do
  let key := (itemKeyFromProto record.key).withDefaults
  validateTimerRecord record key
  let path ← key.path
  let dir ← key.dirPath
  createDir dir
  let _ ← putDueEntry wire record
  writeObject path (wire.timer.marshal record)

/-- What `DeleteTimer` publishes before it deletes the point record. -/
def tombstone (record : TimerRecord) : TimerRecord :=
  { record with status := .canceled, firedAt := none }

def minimalTombstone (key : TimerKey) : TimerRecord :=
  { schemaVersion := .timer, key := some key.withDefaults, timerKind := .unspecified,
    duration := none, status := .canceled, fireAt := none, createdAt := none, firedAt := none,
    retryActivityId := "" }

def tombstoneSource (key : TimerKey) (entry : Option DueTimerEntry) :
    BucketM wire.Bytes (Option TimerRecord) := do
  match entry with
  | some entry => return entry.record
  | none =>
    match ← attempt (getTimerPoint wire key) with
    | .error err => if err.is .errCorruptRecord then return some (minimalTombstone key) else throw err
    | .ok record => return record

def deleteTimer (key : TimerKey) : BucketM wire.Bytes Bool := do
  let path ← key.path
  let pointExists ← isExist path
  let entry ← getDueEntry wire key
  if !pointExists && (entry.bind preparedRecord).isNone then
    return false
  match ← tombstoneSource wire key entry with
  | some record =>
    let _ ← putDueEntry wire (tombstone record)
  | none => pure ()
  let _ ← deleteIfExists path
  return true

/-! #### The pointer to the latest run -/

def getLatestWorkflowRunPointer (ns workflowID : String) :
    BucketM wire.Bytes (Option LatestWorkflowRunPointer) :=
  getRecord wire.latest "latest workflow run pointer" (latestWorkflowRunPointerPath ns workflowID)
    fun pointer => validateLatestWorkflowRunPointer pointer ns workflowID

def getLatestWorkflowRun (ns workflowID : String) :
    BucketM wire.Bytes (Option LatestWorkflowRunPointer) := do
  match ← getLatestWorkflowRunPointer wire ns workflowID with
  | none => return none
  | some pointer =>
    match ← getWorkflow wire (workflowKeyFromProto pointer.key) with
    | none => return none
    | some reference =>
      match validateLatestWorkflowRunReference pointer reference with
      | .error err => if err.is .errStaleLatestPointer then return none else throw err
      | .ok _ => return some pointer

def shouldReplaceLatestWorkflowRun (existing : LatestWorkflowRunPointer)
    (incomingRunOrderTime incomingRecordTime : Int) : Except Err Bool := do
  match existing.runOrderTime with
  | none => throw (errorf "latest workflow run pointer has no run_order_time")
  | some order =>
    order.check.mapError (wrapf "latest workflow run pointer has invalid run_order_time: ")
    match existing.recordTime with
    | none => throw (errorf "latest workflow run pointer has no record_time")
    | some time =>
      time.check.mapError (wrapf "latest workflow run pointer has invalid record_time: ")
      if incomingRunOrderTime ≠ order.asTime then
        return order.asTime < incomingRunOrderTime
      return time.asTime ≤ incomingRecordTime

def workflowCreatedTime (record : WorkflowRecord) : BucketM wire.Bytes Int := do
  match record.createdAt with
  | some t =>
    t.check.mapError (wrapf "invalid workflow created_at: ")
    return t.asTime
  | none => clock

def workflowLatestPointerRecordTime (record : WorkflowRecord) : BucketM wire.Bytes Int := do
  match record.status, record.completedAt with
  | .completed, some t | .failed, some t =>
    t.check.mapError (wrapf "invalid workflow completed_at: ")
    return t.asTime
  | _, _ => workflowCreatedTime wire record

def latestPointerMoves (key : WorkflowKey) (recordTime runOrderTime : Int) :
    BucketM wire.Bytes Bool := do
  match ← getLatestWorkflowRunPointer wire key.ns key.workflowID with
  | some existing => shouldReplaceLatestWorkflowRun existing runOrderTime recordTime
  | none => return true

def putLatestWorkflowRun (record : WorkflowRecord) (recordTime runOrderTime : Int) :
    BucketM wire.Bytes Unit := do
  let key := (workflowKeyFromProto record.key).withDefaults
  let moves ← latestPointerMoves wire key recordTime runOrderTime
  if !moves then
    return
  let updatedAt ← clock
  let path ← latestWorkflowRunPointerPath key.ns key.workflowID
  createDir path.dropLast
  writeObject path (wire.latest.marshal {
    key := some key, status := record.status, recordTime := some (.new recordTime)
    updatedAt := some (.new updatedAt), runOrderTime := some (.new runOrderTime) })

def latestPointerTimes (record : WorkflowRecord) : BucketM wire.Bytes (Option (Int × Int)) := do
  if workflowStatusHasLatestPointer record.status then
    let recordTime ← workflowLatestPointerRecordTime wire record
    return some (recordTime, (record.runOrderTime.map Timestamp.asTime).getD recordTime)
  else return none

def putWorkflow (record : WorkflowRecord) : BucketM wire.Bytes Unit := do
  let key := workflowKeyFromProto record.key
  validateWorkflowRecord record key
  let pointerTimes ← latestPointerTimes wire record
  let path ← key.path
  let dir ← key.dirPath
  createDir dir
  writeObject path (wire.workflow.marshal record)
  match pointerTimes with
  | none => return
  | some (recordTime, runOrderTime) => putLatestWorkflowRun wire record recordTime runOrderTime

def deleteWorkflow (key : WorkflowKey) : BucketM wire.Bytes Bool := do
  let path ← key.path
  deleteIfExists path

def deleteActivity (key : ActivityKey) : BucketM wire.Bytes Bool := do
  let path ← key.path
  deleteIfExists path

def deleteEvent (key : EventKey) : BucketM wire.Bytes Bool := do
  let path ← key.path
  deleteIfExists path

/-! #### Listings -/

def listActivities (fuel : Nat) (key : WorkflowKey) : BucketM wire.Bytes (List ActivityRecord) := do
  let dir ← (key.item .activity "placeholder").dirPath
  let paths ← walkOpenDAL fuel dir
  readListed wire.activity (fun path record => validateListedActivity path key record) paths

def listEvents (fuel : Nat) (key : WorkflowKey) : BucketM wire.Bytes (List EventRecord) := do
  let dir ← (key.item .event "placeholder").dirPath
  let paths ← walkOpenDAL fuel dir
  readListed wire.event (fun path record => validateListedEvent path key record) paths

/-- The maps that `ListTimers` fills: the records by timer identifier, and the point paths that
a ledger entry covers. -/
structure TimerListing where
  recordsByID : List (String × TimerRecord)
  shadowPointPaths : List Path

def TimerListing.insert (listing : TimerListing) (id : String) (record : TimerRecord) :
    TimerListing :=
  { listing with
    recordsByID := (id, record) :: listing.recordsByID.filter fun entry => entry.1 != id }

/-- The loop of `ListTimers` over the ledger entries of the run. -/
def listDueShadows (key : WorkflowKey) : List Path → TimerListing → BucketM wire.Bytes TimerListing
  | [], listing => return listing
  | duePath :: duePaths, listing => do
    let entry ← readListedProto wire.due duePath
    let timerKey := entryTimerKey entry
    let workflowKey := entryWorkflowKey entry
    (validateDueEntry (dueRoot key.withDefaults.ns) duePath entry timerKey workflowKey).mapError
      fun err => corruptRecordf ("invalid due entry in timer run listing: " ++ err.message)
    guardCorrupt (sameWorkflowRun key workflowKey)
      ("due entry payload key does not match listed workflow run at " ++ render duePath)
    let pointPath ← timerKey.path
    let listing := { listing with shadowPointPaths := pointPath :: listing.shadowPointPaths }
    match preparedRecord entry with
    | none => listDueShadows key duePaths listing
    | some record => listDueShadows key duePaths (listing.insert timerKey.id record)

/-- The loop of `ListTimers` over the point records of the run. -/
def listTimerPoints (key : WorkflowKey) : List Path → TimerListing → BucketM wire.Bytes TimerListing
  | [], listing => return listing
  | path :: paths, listing => do
    if !hasBinpbSuffix path then
      listTimerPoints key paths listing
    else
      let checked ← attempt do
        let record ← readListedProto wire.timer path
        validateListedTimer path key record
        return record
      match checked with
      | .error err =>
        if listing.shadowPointPaths.contains path && err.is .errCorruptRecord then
          listTimerPoints key paths listing
        else throw err
      | .ok record =>
        let timerKey := itemKeyFromProto record.key
        let pointPath ← timerKey.path
        if listing.shadowPointPaths.contains pointPath then
          listTimerPoints key paths listing
        else listTimerPoints key paths (listing.insert timerKey.id record)

def timerID (record : TimerRecord) : String := (itemKeyFromProto record.key).id

def listTimers (fuel : Nat) (key : WorkflowKey) (status : TimerStatus) :
    BucketM wire.Bytes (List TimerRecord) := do
  let dueDir ← dueRunRoot key
  let duePaths ← walkOpenDAL fuel dueDir
  let listing ← listDueShadows wire key duePaths ⟨[], []⟩
  let dir ← (key.item .timer "placeholder").dirPath
  let paths ← walkOpenDAL fuel dir
  let listing ← listTimerPoints wire key paths listing
  let records := (listing.recordsByID.map Prod.snd).filter fun record =>
    status = .unspecified ∨ record.status = status
  return records.insertionSort (timerID · ≤ timerID ·)

/-! #### The due scan -/

structure DueLedgerRoot where
  path : Path
  quarantinePath : Path

def dueRoots (ns : String) : BucketM wire.Bytes (List DueLedgerRoot) := do
  if ns ≠ "" then
    (WorkflowKey.mk ns "placeholder" "placeholder").validate
    return [⟨dueRoot ns, dueInvalidRoot ns⟩]
  match ← attempt (listDir storageRoot) with
  | .error err => if isOpenDALNotFound err then return [] else throw err
  | .ok listing =>
    match listing.failure with
    | some err => throw err
    | none =>
      let roots := (subdirectories storageRoot listing.entries).map fun namespaceRoot =>
        (⟨namespaceRoot ++ ["_due"], namespaceRoot ++ ["_due_invalid"]⟩ : DueLedgerRoot)
      return roots.insertionSort (render ·.path ≤ render ·.path)

def quarantineDueEntry (quarantineRoot ledgerPath : Path) : BucketM wire.Bytes Unit := do
  match ← attempt (readObject ledgerPath) with
  | .error err => if isOpenDALNotFound err then return else throw err
  | .ok data =>
    let target := quarantineRoot ++ [binpb (wire.digest (render ledgerPath))]
    createDir target.dropLast
    writeObject target data

def rejectDueEntry {α : Type} (root : DueLedgerRoot) (ledgerPath : Path) (scanErr : Err) :
    BucketM wire.Bytes α := do
  match ← attempt (quarantineDueEntry wire root.quarantinePath ledgerPath) with
  | .error err =>
    throw (joinErrors [scanErr, wrapf ("quarantine invalid due timer entry at " ++
      render ledgerPath ++ ": ") err])
  | .ok _ => throw scanErr

def completeDelete (timerKey : TimerKey) (point : Except Err (Option TimerRecord)) :
    BucketM wire.Bytes Unit := do
  match point with
  | .ok none => return
  | _ =>
    let pointPath ← timerKey.path
    let _ ← deleteIfExists pointPath

def dueWorkflow (timerKey : TimerKey) (workflowKey : WorkflowKey) :
    BucketM wire.Bytes (Option WorkflowRecord) := do
  match ← attempt (getWorkflow wire workflowKey) with
  | .error err =>
    if err.is .errCorruptRecord then
      throw (wrapf ("read parent workflow " ++ quoted workflowKey.workflowID ++ "/" ++
        quoted workflowKey.runID ++ " for due timer " ++ quoted timerKey.id ++ ": ") err)
    else throw err
  | .ok workflow => return workflow.filter (·.status = .inProgress)

def repairOrReport (now : Int) (entry : DueTimerEntry) (prepared : TimerRecord)
    (point : Except Err (Option TimerRecord)) : BucketM wire.Bytes (Option DueTimer) := do
  let timerKey := entryTimerKey entry
  if prepared.status = .canceled then
    completeDelete wire timerKey point
    return none
  if point.toOption.join ≠ some prepared then
    putTimer wire prepared
    return none
  if prepared.status ≠ .scheduled || now < timeOf entry.fireAt then
    return none
  let workflow ← dueWorkflow wire timerKey (entryWorkflowKey entry)
  return workflow.map fun workflow => ⟨timerKey, prepared, workflow⟩

def scanPrepared (now : Int) (entry : DueTimerEntry) (prepared : TimerRecord) :
    BucketM wire.Bytes (Option DueTimer) := do
  let point ← attempt (getTimerPoint wire (entryTimerKey entry))
  match point with
  | .error err => if !err.is .errCorruptRecord then throw err
  | .ok _ => pure ()
  repairOrReport wire now entry prepared point

def scanEntry (now : Int) (root : DueLedgerRoot) (ledgerPath : Path) :
    BucketM wire.Bytes (Option DueTimer) := do
  match ← attempt (readListedProto wire.due ledgerPath) with
  | .error err =>
    let scanErr := wrapf ("read due timer entry at " ++ render ledgerPath ++ ": ") err
    if isOpenDALNotFound err then return none else rejectDueEntry wire root ledgerPath scanErr
  | .ok entry =>
    match validateDueEntry root.path ledgerPath entry (entryTimerKey entry)
        (entryWorkflowKey entry), entry.record with
    | .error err, _ =>
      let scanErr := corruptRecordf
        ("invalid due timer entry at " ++ render ledgerPath ++ ": " ++ Err.message err)
      rejectDueEntry wire root ledgerPath scanErr
    | .ok _, none => return none
    | .ok _, some prepared => scanPrepared wire now entry prepared

def scanPaths (now : Int) (root : DueLedgerRoot) : List Path → BucketM wire.Bytes (List DueTimer)
  | [] => return []
  | ledgerPath :: paths => do
    let found ← scanEntry wire now root ledgerPath
    let due ← scanPaths now root paths
    return found.toList ++ due

def scanRoots (fuel : Nat) (now : Int) : List DueLedgerRoot → BucketM wire.Bytes (List DueTimer)
  | [] => return []
  | root :: roots => do
    let paths ← walkOpenDAL fuel root.path
    let due ← scanPaths wire now root paths
    let rest ← scanRoots fuel now roots
    return due ++ rest

end Store

def dueBefore (left right : DueTimer) : Bool :=
  if timeOf left.record.fireAt ≠ timeOf right.record.fireAt then
    timeOf left.record.fireAt < timeOf right.record.fireAt
  else if left.key.ns ≠ right.key.ns then left.key.ns < right.key.ns
  else if left.key.workflowID ≠ right.key.workflowID then
    left.key.workflowID < right.key.workflowID
  else if left.key.runID ≠ right.key.runID then left.key.runID < right.key.runID
  else left.key.id < right.key.id

def dueTimers (wire : Wire) (fuel : Nat) (ns : String) (now : Int) :
    BucketM wire.Bytes (List DueTimer) := do
  if now = zeroTime then
    throw (errorf "now is required")
  let roots ← dueRoots wire ns
  let due ← scanRoots wire fuel now roots
  return due.insertionSort fun left right => !dueBefore right left

end OpenDALStore

end Temporaless
