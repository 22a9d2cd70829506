import Mathlib.Data.Prod.Lex
import Temporaless.Storage.OpenDAL

/-!
# The timers of the Python record store

The timer methods of the Python `OpenDALStore`, over the same bucket and the same layout as the Go
store. A key of the Python SDK has to carry its namespace; a key read from a payload is given the
default one. The ledger entry is built and checked by rules of its own.
-/

namespace Temporaless.Python

open PathTree Effects OpenDALStore

def exception (cls : ExceptionClass) (text : String) : Err := .node (.exception cls text) []

/-- The exceptions named in `except DecodeError, ValidationError, ValueError, OverflowError`. -/
def recoverable : Err → Bool
  | .node (.exception cls _) _ => cls.recoverable
  | _ => false

def recordError (text : String) : Err := exception .runRecordValidationError text

/-- Raise a `RunRecordValidationError` unless the check passes. -/
def require (ok : Bool) (text : String) : Except Err Unit :=
  if ok then .ok () else .error (recordError text)

/-- `if expected is not None: …`. -/
def whenGiven {α : Type} (expected : Option α) (check : α → Except Err Unit) : Except Err Unit :=
  match expected with
  | none => .ok ()
  | some a => check a

/-- `protovalidate.validate`, given the violations of the message. -/
def validate (message : String) (violations : List Violation) : Except Err Unit :=
  if violations.isEmpty then .ok () else .error (exception .validationError ("invalid " ++ message))

def validateUserScope (ns workflowID : String) : Except Err Unit := do
  if startsWithUnderscore ns then
    throw (exception .valueError
      "namespace values starting with '_' are reserved for Temporaless")
  if startsWithUnderscore workflowID then
    throw (exception .valueError
      "workflow_id values starting with '_' are reserved for Temporaless")

def validateWorkflowKey (key : WorkflowKey) : Except Err Unit := do
  validate "WorkflowKey" key.violations
  validateUserScope key.ns key.workflowID

def workflowPath (key : WorkflowKey) : Except Err Path :=
  (validateWorkflowKey key).map fun _ => key.location

def validateTimerKey (key : TimerKey) : Except Err Unit := do
  validate "TimerKey" key.violations
  validateUserScope key.ns key.workflowID

def timerPath (key : TimerKey) : Except Err Path := (validateTimerKey key).map fun _ => key.location

def timerDirPath (key : TimerKey) : Except Err Path :=
  (validateTimerKey key).map fun _ => key.directory

def dueEntryPath (key : TimerKey) : Except Err Path :=
  (validateTimerKey key).map fun _ => key.dueLocation

def workflowKeyFromProto (key : Option WorkflowKey) : WorkflowKey :=
  (Temporaless.workflowKeyFromProto key).withDefaults

def timerKeyFromProto (key : Option TimerKey) : TimerKey := (itemKeyFromProto key).withDefaults

def schemaNumber : RecordSchemaVersion → Nat
  | .unspecified => 0
  | .activity => 1
  | .workflow => 2
  | .timer => 3
  | .claim => 4
  | .event => 5

def validateRecordSchema (actual expected : RecordSchemaVersion) (recordKind : String) :
    Except Err Unit :=
  require (actual == expected) (recordKind ++ " record has schema_version " ++
    toString (schemaNumber actual) ++ ", expected " ++ toString (schemaNumber expected))

/-- The microseconds since the epoch of `ToDatetime`. -/
def timestampFromProto (t : Timestamp) : Except Err Int :=
  if t.checkValid then .ok (t.seconds * 1000000 + t.nanos / 1000)
  else .error (exception .valueError ("Timestamp is not valid: " ++ t.text))

def checkTimestamp (t : Timestamp) (text : String) : Except Err Unit :=
  match timestampFromProto t with
  | .ok _ => .ok ()
  | .error err => .error (recordError (text ++ err.message))

def validateRunIdentity (expected run : WorkflowKey) (recordKind : String) : Except Err Unit :=
  require (run == expected) (recordKind ++ " payload key does not match requested workflow run")

structure Expectation (Key : Type) where
  key : Option Key
  run : Option WorkflowKey
  path : Option Path

def validateRecordLocation {Key : Type} [DecidableEq Key] (recordKey : Key) (run : WorkflowKey)
    (path : Except Err Path) (recordKind : String) (expected : Expectation Key) :
    Except Err Unit := do
  whenGiven expected.key fun key =>
    require (recordKey == key) (recordKind ++ " payload key does not match requested key")
  whenGiven expected.run fun expectedRun => validateRunIdentity expectedRun run recordKind
  whenGiven expected.path fun storagePath => do
    let actual ← path
    require (actual == storagePath)
      (recordKind ++ " payload key does not match its object location")

def validateWorkflowRecord (record : WorkflowRecord) (expected : Expectation WorkflowKey) :
    Except Err WorkflowKey := do
  validateRecordSchema record.schemaVersion .workflow "workflow"
  validate "WorkflowKey" (Temporaless.workflowKeyFromProto record.key).violations
  let key := workflowKeyFromProto record.key
  validateWorkflowKey key
  validateRecordLocation key key (workflowPath key) "workflow" expected
  whenGiven record.runOrderTime fun t =>
    checkTimestamp t "workflow payload has invalid run_order_time: "
  return key

def validateTimerRecord (record : TimerRecord) (expected : Expectation TimerKey) :
    Except Err TimerKey := do
  validateRecordSchema record.schemaVersion .timer "timer"
  validate "TimerKey" (itemKeyFromProto record.key).violations
  let key := timerKeyFromProto record.key
  validateTimerKey key
  validateRecordLocation key key.run (timerPath key) "timer" expected
  return key

def emptyTimer : TimerRecord where
  schemaVersion := .unspecified
  key := none
  timerKind := .unspecified
  duration := none
  status := .unspecified
  fireAt := none
  createdAt := none
  firedAt := none
  retryActivityId := ""

def entryRecord (entry : DueTimerEntry) : TimerRecord := entry.record.getD emptyTimer

def fireAtOf (t : Option Timestamp) : Timestamp := t.getD ⟨0, 0⟩

def entryViolations (entry : DueTimerEntry) : List Violation :=
  (entry.key.map ItemKey.violations).getD [] ++
    (entry.workflowKey.map WorkflowKey.violations).getD [] ++
    match entry.record with
    | none => [⟨"record", "value is required", "required"⟩]
    | some record => (record.key.map ItemKey.violations).getD []

def validateEntryStatus (record : TimerRecord) : Except Err Unit :=
  match record.status with
  | .unspecified =>
    throw (recordError "due-timer ledger record has an invalid persisted timer status")
  | .scheduled =>
    match record.fireAt with
    | none => throw (recordError "scheduled due-timer ledger record has no fire_at")
    | some t => checkTimestamp t "scheduled due-timer ledger record has invalid fire_at: "
  | .fired | .canceled => .ok ()

def validateDueEntry (entry : DueTimerEntry) (expectedKey : Option TimerKey)
    (expectedRun : Option WorkflowKey) (expectedNamespace : Option String)
    (storagePath : Option Path) : Except Err TimerKey := do
  validateEntryStatus (entryRecord entry)
  validate "DueTimerEntry" (entryViolations entry)
  validate "TimerKey" (itemKeyFromProto entry.key).violations
  validate "WorkflowKey" (Temporaless.workflowKeyFromProto entry.workflowKey).violations
  let timerKey ← validateTimerRecord (entryRecord entry) ⟨expectedKey, expectedRun, none⟩
  let workflowKey := workflowKeyFromProto entry.workflowKey
  validateWorkflowKey workflowKey
  require (itemKeyFromProto entry.key == itemKeyFromProto (entryRecord entry).key)
    "due-timer ledger key does not match its embedded timer record"
  require (workflowKey == timerKey.run)
    "due-timer ledger timer and workflow keys do not own the same run"
  whenGiven expectedNamespace fun ns =>
    require (timerKey.ns == ns) "due-timer ledger key does not belong to the scanned namespace"
  require (fireAtOf entry.fireAt == fireAtOf (entryRecord entry).fireAt)
    "due-timer ledger fire_at does not match its embedded timer record"
  whenGiven storagePath fun path => do
    let expected ← dueEntryPath timerKey
    require (path == expected)
      "due-timer ledger payload identity does not match its object location"
  return timerKey

section Messages

variable {Bytes α σ : Type}

def readMessage (codec : Codec Bytes α) (path : Path) : BucketM Bytes (Option α) := do
  match ← attempt (readObject path) with
  | .error err => if isOpenDALNotFound err then return none else throw err
  | .ok data =>
    match codec.unmarshal data with
    | .error text => throw (exception .decodeError text)
    | .ok record => return some record

/-- `_delete_if_exists`. -/
def deleteIfExists (path : Path) : BucketM Bytes Bool := do
  match ← attempt (isExist path) with
  | .error err => if isOpenDALNotFound err then return false else throw err
  | .ok present =>
    if !present then
      return false
    match ← attempt (deleteObject path) with
    | .error err => if isOpenDALNotFound err then return false else throw err
    | .ok _ => return true

def entryText : ListEntry → String
  | .directory path => render path ++ "/"
  | .object path => render path

def sortedEntries (entries : List ListEntry) : List ListEntry :=
  entries.insertionSort (entryText · ≤ entryText ·)

def listEntries (dir : Path) : BucketM Bytes (Option (List ListEntry)) := do
  match ← attempt (listDir dir) with
  | .error err => if isOpenDALNotFound err then return none else throw err
  | .ok listing =>
    match listing.failure with
    | some err => throw err
    | none => return some (sortedEntries listing.entries)

def forEach (body : σ → Path → BucketM Bytes σ) : List Path → σ → BucketM Bytes σ
  | [], state => pure state
  | path :: paths, state => do
    let state ← body state path
    forEach body paths state

/-- `async for path in _walk_binpb(queue)`: the body runs on the files of a directory before the
next directory is listed. At most `fuel` directories are listed. -/
def walkBinpb (body : σ → Path → BucketM Bytes σ) : Nat → List Path → σ → BucketM Bytes σ
  | _, [], state => pure state
  | 0, _ :: _, _ => throw walkUnfinished
  | fuel + 1, current :: queue, state => do
    match ← listEntries current with
    | none => walkBinpb body fuel queue state
    | some entries =>
      let state ← forEach body (recordFiles entries) state
      walkBinpb body fuel (queue ++ subdirectories current entries) state

end Messages

section Store

variable (wire : Wire)

def readDueEntry (key : TimerKey) : BucketM wire.Bytes (Option DueTimerEntry) := do
  let path ← dueEntryPath key
  match ← readMessage wire.due path with
  | none => return none
  | some entry =>
    let _ ← validateDueEntry entry (some key) none none (some path)
    return some entry

def getCanonicalTimer (key : TimerKey) : BucketM wire.Bytes (Option TimerRecord) := do
  let path ← timerPath key
  match ← readMessage wire.timer path with
  | none => return none
  | some record =>
    let _ ← validateTimerRecord record ⟨some key, none, some path⟩
    return some record

def liveRecord (entry : DueTimerEntry) : Option TimerRecord :=
  if (entryRecord entry).status = .canceled then none else some (entryRecord entry)

def getTimer (key : TimerKey) : BucketM wire.Bytes (Option TimerRecord) := do
  let ledger ← readDueEntry wire key
  match ← attempt (getCanonicalTimer wire key), ledger with
  | .error err, none => throw err
  | .error err, some entry => if recoverable err then return liveRecord entry else throw err
  | .ok record, none => return record
  | .ok record, some entry =>
    -- The deterministic encodings are equal exactly when the records are.
    if record = some (entryRecord entry) then return record
    return liveRecord entry

/-- The ledger entry of a record. A message given to the constructor is set in the new one, also
where it was read from a field that is not. -/
def dueEntry (record : TimerRecord) (workflowKey : WorkflowKey) : DueTimerEntry where
  key := some (itemKeyFromProto record.key)
  workflowKey := some workflowKey
  fireAt := some (fireAtOf record.fireAt)
  record := some record

def putDueEntry (record : TimerRecord) : BucketM wire.Bytes Unit := do
  let key := timerKeyFromProto record.key
  validateWorkflowKey key.run
  let entry := dueEntry record key.run
  let path ← dueEntryPath key
  let _ ← validateDueEntry entry none none none (some path)
  createDir path.dropLast
  writeObject path (wire.due.marshal entry)

def putCanonicalTimer (record : TimerRecord) : BucketM wire.Bytes Unit := do
  let key ← validateTimerRecord record ⟨none, none, none⟩
  let dir ← timerDirPath key
  createDir dir
  let path ← timerPath key
  writeObject path (wire.timer.marshal record)

def putTimer (record : TimerRecord) : BucketM wire.Bytes Unit := do
  let key ← validateTimerRecord record ⟨none, none, none⟩
  putDueEntry wire record
  let dir ← timerDirPath key
  createDir dir
  let path ← timerPath key
  writeObject path (wire.timer.marshal record)

/-- The record a tombstone is made from: the point record where it can be read, else the live
ledger record, else the smallest record of the key. -/
def tombstoneSource (key : TimerKey) (canonical : Option TimerRecord)
    (ledger : Option DueTimerEntry) : TimerRecord :=
  match canonical, ledger.bind liveRecord with
  | some record, _ => record
  | none, some record => record
  | none, none => { emptyTimer with schemaVersion := .timer, key := some key }

def usableCanonical (key : TimerKey) (canonicalExists : Bool) :
    BucketM wire.Bytes (Option TimerRecord) := do
  if !canonicalExists then
    return none
  match ← attempt (getCanonicalTimer wire key) with
  | .error err => if recoverable err then return none else throw err
  | .ok record => return record

def deleteTimer (key : TimerKey) : BucketM wire.Bytes Bool := do
  validateTimerKey key
  let path ← timerPath key
  let canonicalExists ← isExist path
  let canonical ← usableCanonical wire key canonicalExists
  let ledger ← readDueEntry wire key
  if !canonicalExists && (ledger.bind liveRecord).isNone then
    return false
  putDueEntry wire (tombstone (tombstoneSource key canonical ledger))
  let _ ← deleteIfExists path
  return canonicalExists || ledger.isSome

def quarantineDueEntry (ns : String) (ledgerPath : Path) : BucketM wire.Bytes Unit := do
  match ← attempt (readObject ledgerPath) with
  | .error _ => return
  | .ok data =>
    let path := dueInvalidRoot ns ++ [binpb (wire.digest (render ledgerPath))]
    let _ ← attempt do
      createDir path.dropLast
      writeObject path data
    return

abbrev Records := List (TimerKey × TimerRecord)

def Records.get (records : Records) (key : TimerKey) : Option TimerRecord := records.lookup key

def Records.pop (records : Records) (key : TimerKey) : Records :=
  records.filter fun entry => entry.1 != key

def Records.set (records : Records) (key : TimerKey) (record : TimerRecord) : Records :=
  records.pop key ++ [(key, record)]

/-- The loop of `list_timers` over the ledger entries of the run. -/
def listShadow (run : WorkflowKey) (shadowByKey : Records) (ledgerPath : Path) :
    BucketM wire.Bytes Records := do
  let checked ← attempt do
    match ← readMessage wire.due ledgerPath with
    | none => return none
    | some entry =>
      let timerKey ← validateDueEntry entry none (some run) none (some ledgerPath)
      return some (timerKey, entryRecord entry)
  match checked with
  | .error err =>
    if recoverable err then
      quarantineDueEntry wire run.ns ledgerPath
      return shadowByKey
    throw err
  | .ok none => return shadowByKey
  | .ok (some (timerKey, record)) => return shadowByKey.set timerKey record

/-- The loop of `list_timers` over the point records of the run. -/
def listPoint (run : WorkflowKey) (canonicalPaths : List Path) (recordsByKey : Records)
    (path : Path) : BucketM wire.Bytes Records := do
  let checked ← attempt do
    match ← readMessage wire.timer path with
    | none => return none
    | some record =>
      let timerKey ← validateTimerRecord record ⟨none, some run, some path⟩
      return some (timerKey, record)
  match checked with
  | .error err =>
    if recoverable err && canonicalPaths.contains path then return recordsByKey else throw err
  | .ok none => return recordsByKey
  | .ok (some (timerKey, record)) => return recordsByKey.set timerKey record

def overlay (recordsByKey : Records) (shadow : TimerKey × TimerRecord) : Records :=
  if recordsByKey.get shadow.1 = some shadow.2 then recordsByKey
  else if shadow.2.status = .canceled then recordsByKey.pop shadow.1
  else recordsByKey.set shadow.1 shadow.2

def keyOrder (key : TimerKey) : String ×ₗ String ×ₗ String ×ₗ String :=
  toLex (key.ns, toLex (key.workflowID, toLex (key.runID, key.id)))

def listTimers (fuel : Nat) (key : WorkflowKey) (status : TimerStatus) :
    BucketM wire.Bytes (List TimerRecord) := do
  validateWorkflowKey key
  let ledgerRoot := dueRoot key.ns ++ [key.workflowID, key.runID]
  let shadowByKey ← walkBinpb (listShadow wire key) fuel [ledgerRoot] []
  let canonicalPaths ← shadowByKey.mapM fun shadow => timerPath shadow.1
  let dir ← timerDirPath (key.item .timer "placeholder")
  let entries := (← listEntries dir).getD []
  let recordsByKey ← forEach (listPoint wire key canonicalPaths) (recordFiles entries) []
  let recordsByKey := shadowByKey.foldl overlay recordsByKey
  let records :=
    (recordsByKey.insertionSort fun left right => keyOrder left.1 ≤ keyOrder right.1).map Prod.snd
  if status = .unspecified then return records
  return records.filter (·.status = status)

def getWorkflow (key : WorkflowKey) : BucketM wire.Bytes (Option WorkflowRecord) := do
  let path ← workflowPath key
  match ← readMessage wire.workflow path with
  | none => return none
  | some record =>
    let _ ← validateWorkflowRecord record ⟨some key, none, some path⟩
    return some record

def repairPoint (timerKey : TimerKey) (record : TimerRecord) : BucketM wire.Bytes Unit := do
  if record.status = .canceled then
    let path ← timerPath timerKey
    let _ ← deleteIfExists path
  else putCanonicalTimer wire record

def dueWake (now : Int) (ledgerPath : Path) (timerKey : TimerKey) (workflowKey : WorkflowKey)
    (record : TimerRecord) : BucketM wire.Bytes (Option DueTimer) := do
  if record.status ≠ .scheduled then
    return none
  let fireAt ← timestampFromProto (fireAtOf record.fireAt)
  if now < fireAt then
    return none
  match ← attempt (getWorkflow wire workflowKey) with
  | .error err =>
    if recoverable err then
      throw (recordError ("due timer " ++ render ledgerPath ++ " has an invalid parent workflow: " ++
        err.message))
    else throw err
  | .ok workflow => return (workflow.filter (·.status = .inProgress)).map fun workflow =>
      ⟨timerKey, record, workflow⟩

def scanPrepared (now : Int) (ledgerPath : Path) (timerKey : TimerKey) (workflowKey : WorkflowKey)
    (record : TimerRecord) : BucketM wire.Bytes (Option DueTimer) := do
  match ← attempt (getCanonicalTimer wire timerKey) with
  | .error err =>
    if recoverable err then
      repairPoint wire timerKey record
      return none
    throw err
  | .ok none =>
    if record.status = .scheduled then
      putCanonicalTimer wire record
    return none
  | .ok (some timer) =>
    if timer = record then dueWake wire now ledgerPath timerKey workflowKey record
    else
      repairPoint wire timerKey record
      return none

def scanEntry (now : Int) (ns : String) (due : List DueTimer) (ledgerPath : Path) :
    BucketM wire.Bytes (List DueTimer) := do
  let checked ← attempt do
    match ← readMessage wire.due ledgerPath with
    | none => return none
    | some entry =>
      let timerKey ← validateDueEntry entry none none (some ns) (some ledgerPath)
      return some (timerKey, workflowKeyFromProto entry.workflowKey, entryRecord entry)
  match checked with
  | .error err =>
    if recoverable err then
      quarantineDueEntry wire ns ledgerPath
      throw (recordError ("invalid due-timer ledger entry " ++ render ledgerPath ++ ": " ++
        err.message))
    throw err
  | .ok none => return due
  | .ok (some (timerKey, workflowKey, record)) =>
    let wake ← scanPrepared wire now ledgerPath timerKey workflowKey record
    return due ++ wake.toList

def validatePointerKey (ns workflowID : String) : Except Err Unit :=
  validateWorkflowKey (WorkflowKey.withDefaults ⟨ns, workflowID, "placeholder"⟩)

def namespacePartitions (entries : List ListEntry) : List String :=
  (subdirectories storageRoot entries).filterMap fun path =>
    match path.drop storageRoot.length with
    | [ns] => if (validatePointerKey ns "placeholder").isOk then some ns else none
    | _ => none

def dueScanNamespaces (ns : String) : BucketM wire.Bytes (List String) := do
  if ns ≠ "" then
    validatePointerKey ns "placeholder"
    return [ns]
  match ← listEntries storageRoot with
  | none => return []
  | some entries => return (namespacePartitions entries).dedup.insertionSort (· ≤ ·)

def scanNamespaces (fuel : Nat) (now : Int) : List String → BucketM wire.Bytes (List DueTimer)
  | [] => return []
  | ns :: rest => do
    let due ← walkBinpb (scanEntry wire now ns) fuel [dueRoot ns] []
    let later ← scanNamespaces fuel now rest
    return due ++ later

def dueOrder (due : DueTimer) : Int ×ₗ String ×ₗ String ×ₗ String ×ₗ String :=
  toLex (timeOf due.record.fireAt / 1000, keyOrder due.key)

def dueTimers (fuel : Nat) (ns : String) (now : Int) : BucketM wire.Bytes (List DueTimer) := do
  let namespaces ← dueScanNamespaces wire ns
  let due ← scanNamespaces wire fuel now namespaces
  return due.insertionSort fun left right => dueOrder left ≤ dueOrder right

end Store

end Temporaless.Python
