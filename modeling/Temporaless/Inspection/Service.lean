import Temporaless.Framework.ByteCode
import Temporaless.Framework.Consult
import Temporaless.Inspection.History
import Temporaless.Storage.OpenDAL

/-!
# The inspection service

`RunInspectionService` over registered stores: who may see a store, what a run is waiting for, the
bounded listings and the point reads. The service only reads, so its code is a program over four
read operations and the clock. Reads that the source makes side by side are made one after the other
here.
-/

namespace Temporaless.Inspection

open PathTree Effects KeySort

/-- The reads of the service. `list` and `read` are the methods of `Bucket`, the others those of the
point store; all but the clock name the store they go to. -/
inductive ReadOp where
  | list (store : String) (dir : Path)
  | read (store : String) (path : Path)
  | getWorkflow (store : String) (key : WorkflowKey)
  | listTimers (store : String) (key : WorkflowKey) (status : TimerStatus)
  | now

abbrev ReadOp.Reply (Bytes : Type) : ReadOp → Type
  | .list _ _ => Except Err (List ListEntry)
  | .read _ _ => Except Err (Option Bytes)
  | .getWorkflow _ _ => Except Err (Option WorkflowRecord)
  | .listTimers _ _ _ => Except Err (List TimerRecord)
  | .now => Int

abbrev readSignature (Bytes : Type) : Signature := ⟨ReadOp, ReadOp.Reply Bytes⟩

abbrev ReadM (Bytes ε α : Type) := ExceptT ε (Program (readSignature Bytes)) α

inductive Code where
  | invalidArgument | notFound | permissionDenied | failedPrecondition | internal | unavailable | dataLoss
  deriving DecidableEq, Repr

/-- How a call fails: with a status, with an error that is passed on, or by a panic of the runtime. -/
inductive Failure where
  | status (code : Code) (message : String)
  | other (err : Err)
  | panic

/-- A registered store. Its point store and its bucket are reached through the reads that name it. -/
structure Store where
  id : String
  namespaces : List String
  listClaims : Bool
  overdueGrace : Int
  deriving DecidableEq, Repr

structure Grant where
  namespaces : List String
  payloads : Bool
  deriving DecidableEq, Repr

/-- The decision of `Access` for the caller: a grant and whether the store is visible. -/
abbrev Access := Store → Except Failure (Grant × Bool)

/-- `PageTokens` as one caller sees it. What a token holds need not be a text. -/
structure PageTokens where
  sealToken : String → String → Except Err String
  openToken : String → String → Except Err ByteCode.Bytes

structure Limits where
  defaultPageSize : Nat
  maxPageSize : Nat
  readBudget : Nat
  maxListedRuns : Nat
  maxListedObjects : Nat
  maxRunRecords : Nat
  concurrency : Nat
  deriving DecidableEq, Repr

/-- A service as one caller sees it. `hasStatus` tells the errors that carry a gRPC status other than
`Unknown`. -/
structure Service where
  stores : List Store
  access : Access
  tokens : PageTokens
  limits : Limits
  hasStatus : Err → Bool

section Operations

variable {Bytes ε α β : Type}

def listDir (store : Store) (dir : Path) : ReadM Bytes Err (List ListEntry) :=
  ExceptT.mk (Program.call (σ := readSignature Bytes) (.list store.id dir) .done)

def readPath (store : Store) (path : Path) : ReadM Bytes Err (Option Bytes) :=
  ExceptT.mk (Program.call (σ := readSignature Bytes) (.read store.id path) .done)

def getWorkflow (store : Store) (key : WorkflowKey) : ReadM Bytes Err (Option WorkflowRecord) :=
  ExceptT.mk (Program.call (σ := readSignature Bytes) (.getWorkflow store.id key) .done)

def listTimers (store : Store) (key : WorkflowKey) (status : TimerStatus) :
    ReadM Bytes Err (List TimerRecord) :=
  ExceptT.mk (Program.call (σ := readSignature Bytes) (.listTimers store.id key status) .done)

def now : ReadM Bytes ε Int :=
  ExceptT.mk (Program.call (σ := readSignature Bytes) .now fun t => .done (.ok t))

/-- `forEach`: the results in the order of the items. -/
def forEach (items : List α) (fn : α → ReadM Bytes ε β) : ReadM Bytes ε (List β) :=
  match items with
  | [] => return []
  | item :: items => do
    let result ← fn item
    let results ← forEach items fn
    return result :: results

end Operations

def overdueGrace (store : Store) : Int :=
  if store.overdueGrace > 0 then store.overdueGrace else 120 * nanosPerSecond

def grantedNamespaces (store : Store) (grant : Grant) : List String :=
  (store.namespaces.filter fun ns => grant.namespaces.isEmpty || grant.namespaces.contains ns).insertionSort
    (· ≤ ·)

namespace Service

variable (service : Service) {Bytes α : Type}

def notAvailable (id : String) : Failure :=
  .status .notFound ("store " ++ quoted id ++ " is not available")

def storeScope (id : String) : Except Failure (Store × Grant) :=
  match service.stores.find? (·.id = id) with
  | none => .error (notAvailable id)
  | some store => do
    let (grant, visible) ← service.access store
    if visible then return (store, grant) else throw (notAvailable id)

def namespaceScope (id ns : String) : Except Failure (Store × Grant) := do
  let (store, grant) ← service.storeScope id
  if ns = "" then
    throw (.status .invalidArgument "namespace is required")
  if (grantedNamespaces store grant).contains ns then return (store, grant)
  else throw (.status .permissionDenied
    ("namespace " ++ quoted ns ++ " is not inspectable in store " ++ quoted store.id))

def pageSize (requested : Nat) : Nat :=
  min (if requested = 0 then service.limits.defaultPageSize else requested) service.limits.maxPageSize

def openCursor (binding token : String) : Except Failure ByteCode.Bytes :=
  if token = "" then .ok []
  else (service.tokens.openToken binding token).mapError fun err =>
    .status .invalidArgument ("invalid page_token: " ++ err.message)

def sealCursor (binding cursor : String) : Except Failure String :=
  if cursor = "" then .ok ""
  else (service.tokens.sealToken binding cursor).mapError .other

def storeError (err : Err) : Failure :=
  if err.is .contextCanceled || err.is .contextDeadlineExceeded then .other err
  else if service.hasStatus err then .other err
  else if err.is .errCorruptRecord then .status .dataLoss err.message
  else if err.is .errTooManyObjects then
    .status .failedPrecondition (err.message ++ "; use an indexed query store for this scope")
  else .status .unavailable "the record store could not be read"

def reading (code : ReadM Bytes Err α) : ReadM Bytes Failure α := ExceptT.adapt service.storeError code

end Service

inductive RunPendingReason where
  | unspecified | terminal | overdueWake | retrying | staleClaim | executing | sleeping | polling
  | waitingNoWake
  deriving DecidableEq, Repr

structure RunPendingState where
  reason : RunPendingReason
  resourceId : String := ""
  at_ : Option Timestamp := none
  attempt : Nat := 0
  maximumAttempts : Nat := 0
  lastFailure : Option ActivityFailure := none
  deriving DecidableEq, Repr

/-- `AsTime` of a field, on the scale of `Timestamp.instant`; an absent one reads as the epoch. -/
def instantOf (t : Option Timestamp) : Int := (t.getD ⟨0, 0⟩).instant

/-- A reading of the clock on the scale of `Timestamp.instant`. -/
def clockInstant (now : Int) : Int := now - zeroTime

def scheduledTimers (timers : List TimerRecord) : List TimerRecord :=
  sortedBy (fun timer => instantOf timer.fireAt)
    (timers.filter fun timer => timer.status = .scheduled && timer.fireAt.isSome)

def retryingState (activity : ActivityRecord) : RunPendingState :=
  { reason := .retrying, resourceId := activityId activity, at_ := activity.nextAttemptAt
    attempt := activity.attempts.length % 2 ^ 32
    maximumAttempts := (activity.retryPolicy.map RetryPolicy.maximumAttempts).getD 0
    lastFailure := activity.attempts.getLast?.bind ActivityAttempt.failure }

def timerState (reason : RunPendingReason) (resource : TimerRecord → String) (timer : TimerRecord) :
    RunPendingState :=
  { reason := reason, resourceId := resource timer, at_ := timer.fireAt }

def claimState (reason : RunPendingReason) (claim : ClaimRecord) : RunPendingState :=
  { reason := reason, resourceId := claimId claim, at_ := claim.leaseExpiresAt }

def pendingReasons (records : RunRecords) (now grace : Int) : List (Option RunPendingState) :=
  let scheduled := scheduledTimers records.timers
  let claims := if records.claimsInspected then records.claims else []
  let ofKind (kind : TimerKind) (reason : RunPendingReason) (resource : TimerRecord → String) :=
    (scheduled.find? (·.timerKind = kind)).map (timerState reason resource)
  [ (scheduled.find? fun timer => instantOf timer.fireAt < clockInstant (now - grace)).map
      (timerState .overdueWake timerId),
    (records.activities.find? (·.status = .retrying)).map retryingState,
    ofKind .activityRetry .retrying TimerRecord.retryActivityId,
    (claims.find? fun claim => claim.leaseExpiresAt.isSome &&
      instantOf claim.leaseExpiresAt < clockInstant now).map (claimState .staleClaim),
    (claims.find? (·.resourceType = .workflow)).map (claimState .executing),
    ofKind .sleep .sleeping timerId,
    ofKind .poll .polling timerId ]

def derivePending (records : RunRecords) (now grace : Int) : RunPendingState :=
  match records.workflow with
  | none => { reason := .unspecified }
  | some workflow =>
    match workflow.status with
    | .completed | .failed => { reason := .terminal }
    | .unspecified => { reason := .unspecified }
    | .inProgress =>
      ((pendingReasons records now grace).findSome? id).getD { reason := .waitingNoWake }

def entryText : ListEntry → String
  | .directory path => render path ++ "/"
  | .object path => render path

def latestDir (ns : String) : Path := storageRoot ++ [ns, "_latest"]

def latestPath (ns workflowID : String) : Path := latestDir ns ++ [binpb workflowID]

def workflowDir (ns workflowID : String) : Path := storageRoot ++ [ns, workflowID]

section Walk

variable {Bytes : Type} (store : Store) (root : Path) (limit : Nat)

def tooManyFiles : Err :=
  sentinelf .errTooManyObjects ("more than " ++ toString limit ++ " objects under " ++ render root ++ "/")

/-- The queue loop of `walkFiles`; `none` when the fuel is spent. The limit is checked once for each
directory, which is as good as once for each child since nothing is read in between. -/
def walkFilesLoop : Nat → List Path → List Path → ReadM Bytes Err (Option (List Path))
  | _, [], files => return some files
  | 0, _ :: _, _ => return none
  | fuel + 1, current :: queue, files => do
    let children ← listDir store current
    let files := files ++ recordFiles children
    if limit < files.length then
      throw (tooManyFiles root limit)
    walkFilesLoop fuel (queue ++ subdirectories current children) files

def walkFiles (fuel : Nat) : ReadM Bytes Err (Option (List Path)) := do
  let files ← walkFilesLoop store root limit fuel [root] []
  return files.map (sortedBy render)

end Walk

def sameRunPath {kind : RecordKind} (run : WorkflowKey) (key : ItemKey kind) : Except Err Path :=
  if key.run ≠ run then .error (errorf "record belongs to another run") else key.path

section Run

variable {Bytes α : Type}

/-- The body of the loop of `readRunScoped`: the record at a path, whose own key must construct it. -/
def readScopedRecord (store : Store) (codec : Codec Bytes α) (check : α → Except Err Path)
    (path : Path) : ReadM Bytes Err (Option α) := do
  match ← readPath store path with
  | none => return none
  | some data =>
    match codec.unmarshal data with
    | .error text =>
      throw (sentinelCausef .errCorruptRecord ("decode " ++ render path ++ ": ") (errorf text))
    | .ok record =>
      match check record with
      | .error err => throw (sentinelCausef .errCorruptRecord (render path ++ ": ") err)
      | .ok expected =>
        if expected ≠ path then
          throw (sentinelf .errCorruptRecord
            ("record at " ++ render path ++ " belongs at " ++ render expected))
        return some record

def readRunScoped (store : Store) (limit : Nat) (dir : Path) (codec : Codec Bytes α)
    (check : α → Except Err Path) : ReadM Bytes Err (List α × Bool) := do
  let children ← listDir store dir
  let paths := recordFiles children
  let records ← forEach (paths.take limit) (readScopedRecord store codec check)
  return (records.reduceOption, limit < paths.length)

end Run

section Store

variable (formats : RecordWire) (service : Service)

def checkActivity (run : WorkflowKey) (record : ActivityRecord) : Except Err Path := do
  let key := itemKeyFromProto record.key
  validateActivityRecord record key
  sameRunPath run key

def checkEvent (run : WorkflowKey) (record : EventRecord) : Except Err Path := do
  let key := itemKeyFromProto record.key
  validateEventRecord record key
  sameRunPath run key

def checkClaim (run : WorkflowKey) (record : ClaimRecord) : Except Err Path := do
  let key := itemKeyFromProto record.key
  validateClaimRecord record key
  sameRunPath run key

def readClaims (store : Store) (key : WorkflowKey) (runDir : Path) :
    ReadM formats.Bytes Err (List ClaimRecord × Bool) := do
  if store.listClaims then
    readRunScoped store service.limits.maxRunRecords (runDir ++ ["claim"]) formats.claim (checkClaim key)
  else return ([], false)

def readRun (store : Store) (key : WorkflowKey) (workflow : Option WorkflowRecord) :
    ReadM formats.Bytes Err (RunRecords × Bool) := do
  let limit := service.limits.maxRunRecords
  let runDir ← key.dirPath
  let (activities, activitiesCut) ←
    readRunScoped store limit (runDir ++ ["activity"]) formats.activity (checkActivity key)
  let (events, eventsCut) ←
    readRunScoped store limit (runDir ++ ["event"]) formats.event (checkEvent key)
  let (claims, claimsCut) ← readClaims formats service store key runDir
  let timers ← listTimers store key .unspecified
  let records : RunRecords :=
    { workflow := workflow, activities := sortedBy activityId activities, timers := (sortedBy timerId timers).take limit
      events := sortedBy eventId events, claims := sortedBy claimId claims
      claimsInspected := store.listClaims }
  return (records, activitiesCut || eventsCut || claimsCut || limit < timers.length)

structure WorkflowRunSummary where
  key : Option WorkflowKey
  workflowType : String
  status : WorkflowStatus
  failure : Option ActivityFailure
  createdAt : Option Timestamp
  completedAt : Option Timestamp
  runOrderTime : Option Timestamp
  annotations : Annotations
  deriving DecidableEq

def runSummary (record : WorkflowRecord) : WorkflowRunSummary :=
  { key := record.key, workflowType := record.workflowType, status := record.status
    failure := record.failure, createdAt := record.createdAt, completedAt := record.completedAt
    runOrderTime := record.runOrderTime, annotations := record.annotations }

structure WorkflowDirectoryEntry where
  pointer : LatestWorkflowRunPointer
  run : Option WorkflowRunSummary := none
  pending : Option RunPendingState := none
  stalePointer : Bool := false
  deriving DecidableEq

def statusNumber : WorkflowStatus → Int
  | .unspecified => 0
  | .completed => 1
  | .failed => 2
  | .inProgress => 3

def directoryStatusMatches (entry : WorkflowDirectoryEntry) (want : Int) : Bool :=
  want == 0 ||
    match entry.run with
    | some run => statusNumber run.status == want
    | none => statusNumber entry.pointer.status == want

/-- The part of `directoryEntry` that follows the checks of the pointer. -/
def resolvePointer (store : Store) (pointer : LatestWorkflowRunPointer) :
    ReadM formats.Bytes Err WorkflowDirectoryEntry := do
  let key := workflowKeyFromProto pointer.key
  match ← attempt (getWorkflow store key) with
  | .error err =>
    if err.is .errCorruptRecord then return { pointer := pointer, stalePointer := true } else throw err
  | .ok none => return { pointer := pointer, stalePointer := true }
  | .ok (some record) =>
    let entry : WorkflowDirectoryEntry :=
      { pointer := pointer, run := some (runSummary record)
        stalePointer := !(validateLatestWorkflowRunReference pointer record).isOk }
    if record.status ≠ .inProgress then
      let records : RunRecords := ⟨some record, [], [], [], [], false⟩
      return { entry with pending := some (derivePending records (← now) (overdueGrace store)) }
    match ← attempt (readRun formats service store key (some record)) with
    | .error err => if err.is .errCorruptRecord then return entry else throw err
    | .ok (records, _) =>
      return { entry with pending := some (derivePending records (← now) (overdueGrace store)) }

def directoryEntry (store : Store) (ns : String) (path : Path) :
    ReadM formats.Bytes Err (Option WorkflowDirectoryEntry) := do
  match ← readPath store path with
  | none => return none
  | some data =>
    match formats.latest.unmarshal data with
    | .error _ => return none
    | .ok pointer =>
      let key := workflowKeyFromProto pointer.key
      if (validateLatestWorkflowRunPointer pointer ns key.workflowID).isOk &&
          latestPath ns key.workflowID == path then
        return some (← resolvePointer formats service store pointer)
      return none

def runDirSummary (store : Store) (ns workflowID : String) (dir : Path) :
    ReadM formats.Bytes Err (Option WorkflowRunSummary) := do
  let path := dir ++ ["workflow.binpb"]
  match ← readPath store path with
  | none => return none
  | some data =>
    match formats.workflow.unmarshal data with
    | .error _ => return none
    | .ok record =>
      let key := workflowKeyFromProto record.key
      if (validateWorkflowRecord record key).isOk && key.path.toOption == some path && key.ns == ns &&
          key.workflowID == workflowID then
        return some (runSummary record)
      return none

inductive WakeLedgerState where
  | unspecified | agrees | canonicalMissing | canonicalDiffers | canonicalUnreadable
  deriving DecidableEq, Repr

structure ScheduledWake where
  timer : TimerRecord
  workflowKey : Option WorkflowKey
  overdue : Bool := false
  ledgerState : WakeLedgerState := .unspecified
  workflowStatus : WorkflowStatus := .unspecified
  deriving DecidableEq, Repr

inductive WakeCheck where
  | invalid
  | unscheduled
  | scheduled (record : TimerRecord)

/-- The checks that `scheduledWake` makes on a decoded entry. -/
def checkWake (ns : String) (path : Path) (entry : DueTimerEntry) : WakeCheck :=
  let timerKey := itemKeyFromProto entry.key
  let workflowKey := workflowKeyFromProto entry.workflowKey
  match entry.record with
  | none => .invalid
  | some record =>
    if !timerKey.validate.isOk || !workflowKey.validate.isOk || timerKey.ns != ns ||
        timerKey.dueLocation != path || workflowKey != timerKey.run ||
        !(validateTimerRecord record timerKey).isOk then .invalid
    else if record.status ≠ .scheduled then .unscheduled
    else if record.fireAt.isNone || entry.fireAt.isNone ||
        instantOf record.fireAt != instantOf entry.fireAt then .invalid
    else .scheduled record

def ledgerState (timerKey : TimerKey) (record : TimerRecord) : Option formats.Bytes → WakeLedgerState
  | none => .canonicalMissing
  | some data =>
    match formats.timer.unmarshal data with
    | .error _ => .canonicalUnreadable
    | .ok point =>
      if !(validateTimerRecord point timerKey).isOk then .canonicalUnreadable
      else if point ≠ record then .canonicalDiffers
      else .agrees

def wakeWorkflowStatus (store : Store) (key : WorkflowKey) : ReadM formats.Bytes Err WorkflowStatus := do
  match ← attempt (getWorkflow store key) with
  | .error err => if err.is .errCorruptRecord then return .unspecified else throw err
  | .ok none => return .unspecified
  | .ok (some workflow) => return workflow.status

/-- The result of `scheduledWake`: the wake, and whether the entry is valid. -/
def scheduledWake (store : Store) (ns : String) (path : Path) :
    ReadM formats.Bytes Err (Option ScheduledWake × Bool) := do
  match ← readPath store path with
  | none => return (none, true)
  | some data =>
    match formats.due.unmarshal data with
    | .error _ => return (none, false)
    | .ok entry =>
      match checkWake ns path entry with
      | .invalid => return (none, false)
      | .unscheduled => return (none, true)
      | .scheduled record =>
        let timerKey := itemKeyFromProto entry.key
        match timerKey.path with
        | .error _ => return (none, false)
        | .ok pointPath =>
          let point ← readPath store pointPath
          let status ← wakeWorkflowStatus formats store (workflowKeyFromProto entry.workflowKey)
          return (some
            { timer := record, workflowKey := entry.workflowKey
              ledgerState := ledgerState formats timerKey record point, workflowStatus := status }, true)

inductive Verdict (β : Type) where
  | skipped
  | invalid
  | kept (entry : β)

/-- The variables of the scan loops. `scanned` and `invalid` are 32-bit counters of the response. -/
structure Scan (β : Type) where
  entries : List β := []
  scanned : Nat := 0
  invalid : Nat := 0
  next : Nat := 0
  lastProcessed : String := ""

def Scan.note {β : Type} (scan : Scan β) (path : Path) : Verdict β → Scan β
  | .skipped =>
    { scan with scanned := (scan.scanned + 1) % 2 ^ 32, lastProcessed := render path, next := scan.next + 1 }
  | .invalid =>
    { scan with scanned := (scan.scanned + 1) % 2 ^ 32, lastProcessed := render path, next := scan.next + 1
                invalid := (scan.invalid + 1) % 2 ^ 32 }
  | .kept entry =>
    { scan with scanned := (scan.scanned + 1) % 2 ^ 32, lastProcessed := render path, next := scan.next + 1
                entries := scan.entries ++ [entry] }

def consume {β : Type} (pageSize : Nat) : List (Path × Verdict β) → Scan β → Scan β
  | [], scan => scan
  | (path, verdict) :: results, scan =>
    let scan := scan.note path verdict
    match verdict with
    | .kept _ => if scan.entries.length = pageSize then scan else consume pageSize results scan
    | _ => consume pageSize results scan

/-- The sum of two `int` values. -/
def int64 (n : Int) : Int := Int.bmod n (2 ^ 64)

def batchEnd {β : Type} (limits : Limits) (candidates : List Path) (scan : Scan β) : Int :=
  min (min (int64 (scan.next + limits.concurrency)) candidates.length)
    (int64 (scan.next + limits.readBudget - scan.scanned))

def Scan.Open {β : Type} (limits : Limits) (pageSize : Nat) (candidates : List Path) (scan : Scan β) :
    Prop :=
  scan.next < candidates.length ∧ scan.entries.length < pageSize ∧ scan.scanned < limits.readBudget

instance {β : Type} (limits : Limits) (pageSize : Nat) (candidates : List Path) (scan : Scan β) :
    Decidable (scan.Open limits pageSize candidates) := inferInstanceAs (Decidable (_ ∧ _))

/-- The scan loop of `ListWorkflowDirectory` and `ListScheduledWakes`; `none` when the fuel is spent. A
batch that ends before it begins is a slice out of range. -/
def scanLoop {Bytes β : Type} (service : Service) (pageSize : Nat) (candidates : List Path)
    (read : Path → ReadM Bytes Err (Verdict β)) : Nat → Scan β → ReadM Bytes Failure (Option (Scan β))
  | fuel, scan =>
    if scan.Open service.limits pageSize candidates then
      match fuel with
      | 0 => return none
      | fuel + 1 => do
        let stop := batchEnd service.limits candidates scan
        if stop < scan.next then
          throw .panic
        let batch := (candidates.drop scan.next).take (stop.toNat - scan.next)
        let verdicts ← service.reading (forEach batch read)
        scanLoop service pageSize candidates read fuel (consume pageSize (batch.zip verdicts) scan)
    else return some scan

/-- A response, with the listed candidates that no read has reached, which the response does not
carry. -/
structure Listed (Response : Type) where
  response : Response
  unscanned : List Path

structure WorkflowDirectoryResponse where
  entries : List WorkflowDirectoryEntry
  nextPageToken : String
  scanned : Nat

structure WorkflowRunsResponse where
  runs : List WorkflowRunSummary
  nextPageToken : String
  totalListed : Nat
  runsWithoutWorkflowRecord : Nat

structure ScheduledWakesResponse where
  wakes : List ScheduledWake
  nextPageToken : String
  scanned : Nat
  quarantinedEntries : Nat
  invalidEntries : Nat

def Service.scanToken {β : Type} (service : Service) (binding : String) (candidates : List Path)
    (scan : Scan β) : Except Failure String :=
  if scan.next < candidates.length then service.sealCursor binding scan.lastProcessed else .ok ""

def directoryVerdict (status : Int) : Option WorkflowDirectoryEntry → Verdict WorkflowDirectoryEntry
  | none => .skipped
  | some entry => if directoryStatusMatches entry status then .kept entry else .skipped

def directoryCandidates (ns workflowIDPrefix : String) (cursor : ByteCode.Bytes)
    (names : List ListEntry) : List Path :=
  (recordFiles names).filter fun path => cursor < ByteCode.textBytes (render path) &&
    (render (latestDir ns) ++ "/" ++ workflowIDPrefix).toList.isPrefixOf (render path).toList

def listWorkflowDirectory (fuel : Nat) (storeID ns workflowIDPrefix : String) (status : Int)
    (pageSize : Nat) (pageToken : String) :
    ReadM formats.Bytes Failure (Option (Listed WorkflowDirectoryResponse)) := do
  let (store, _) ← service.namespaceScope storeID ns
  if !idPrefixPattern workflowIDPrefix then
    throw (.status .invalidArgument
      "workflow_id_prefix may contain only letters, digits, and . _ : = -")
  let binding := (PageRequest.directory store.id ns workflowIDPrefix status).binding
  let cursor ← service.openCursor binding pageToken
  let names ← service.reading (listDir store (latestDir ns))
  if service.limits.maxListedObjects < names.length then
    throw (service.storeError (sentinelf .errTooManyObjects
      (toString names.length ++ " latest-run pointers in namespace " ++ quoted ns)))
  let candidates := directoryCandidates ns workflowIDPrefix cursor names
  match ← scanLoop service (service.pageSize pageSize) candidates
      (fun path => directoryVerdict status <$> directoryEntry formats service store ns path) fuel {} with
  | none => return none
  | some scan =>
    let nextPageToken ← service.scanToken binding candidates scan
    return some ⟨⟨scan.entries, nextPageToken, scan.scanned⟩, candidates.drop scan.next⟩

def runDirectories (names : List ListEntry) : List Path :=
  names.filterMap fun
    | .directory path => some path
    | .object _ => none

def orderedRuns (ascending : Bool) (names : List ListEntry) : List Path :=
  if ascending then runDirectories names else (runDirectories names).reverse

/-- `sort.Search`: the first index that follows the cursor. -/
def runsStart (ascending : Bool) (cursor : ByteCode.Bytes) (runDirs : List Path) : Nat :=
  if cursor = [] then 0
  else runDirs.findIdx fun dir =>
    let text := ByteCode.textBytes (entryText (.directory dir))
    if ascending then cursor < text else text < cursor

def runsEnd (start size length : Nat) : Int := min (int64 (start + size)) length

def Service.tooManyRuns (service : Service) (workflowID : String) (count : Nat) : Failure :=
  .status .failedPrecondition ("workflow " ++ quoted workflowID ++ " has " ++ toString count ++
    " runs, more than the " ++ toString service.limits.maxListedRuns ++
    " a bucket listing serves; use an indexed query store")

def Service.runsToken (service : Service) (binding : String) (page unscanned : List Path) :
    Except Failure String :=
  match page.getLast? with
  | some last => if unscanned.isEmpty then .ok "" else service.sealCursor binding (entryText (.directory last))
  | none => .ok ""

def runsResponse (runDirs : List Path) (summaries : List (Option WorkflowRunSummary))
    (nextPageToken : String) : WorkflowRunsResponse :=
  ⟨summaries.reduceOption, nextPageToken, runDirs.length % 2 ^ 32, summaries.countP (·.isNone) % 2 ^ 32⟩

def listWorkflowRuns (storeID ns workflowID : String) (ascending : Bool) (pageSize : Nat)
    (pageToken : String) : ReadM formats.Bytes Failure (Listed WorkflowRunsResponse) := do
  let (store, _) ← service.namespaceScope storeID ns
  (validateScopeSegments ns workflowID).mapError fun err =>
    Failure.status .invalidArgument ("invalid workflow_id: " ++ err.message)
  let binding := (PageRequest.runs store.id ns workflowID ascending).binding
  let cursor ← service.openCursor binding pageToken
  let children ← service.reading (listDir store (workflowDir ns workflowID))
  let runDirs := orderedRuns ascending children
  if service.limits.maxListedRuns < runDirs.length then
    throw (service.tooManyRuns workflowID runDirs.length)
  let start := runsStart ascending cursor runDirs
  let stop := runsEnd start (service.pageSize pageSize) runDirs.length
  if stop < start then
    throw .panic
  let page := (runDirs.drop start).take (stop.toNat - start)
  let summaries ← service.reading (forEach page (runDirSummary formats store ns workflowID))
  let unscanned := runDirs.drop (start + page.length)
  let nextPageToken ← service.runsToken binding page unscanned
  return ⟨runsResponse runDirs summaries nextPageToken, unscanned⟩

def wakeVerdict (overdueBefore : Int) (overdueOnly : Bool) :
    Option ScheduledWake × Bool → Verdict ScheduledWake
  | (_, false) => .invalid
  | (none, true) => .skipped
  | (some wake, true) =>
    let wake := { wake with overdue := instantOf wake.timer.fireAt < overdueBefore }
    if overdueOnly && !wake.overdue then .skipped else .kept wake

def listScheduledWakes (fuel : Nat) (storeID ns : String) (overdueOnly : Bool) (pageSize : Nat)
    (pageToken : String) : ReadM formats.Bytes Failure (Option (Listed ScheduledWakesResponse)) := do
  let (store, _) ← service.namespaceScope storeID ns
  let binding := (PageRequest.wakes store.id ns overdueOnly).binding
  let cursor ← service.openCursor binding pageToken
  match ← service.reading (walkFiles store (dueRoot ns) service.limits.maxListedObjects fuel) with
  | none => return none
  | some paths =>
    let quarantined ← service.reading (listDir store (dueInvalidRoot ns))
    if service.limits.maxListedObjects < quarantined.length then
      throw (service.storeError (sentinelf .errTooManyObjects
        (toString quarantined.length ++ " quarantined ledger entries in namespace " ++ quoted ns)))
    let candidates := if cursor = [] then paths
      else paths.filter fun path => cursor < ByteCode.textBytes (render path)
    let overdueBefore := clockInstant ((← now) - overdueGrace store)
    match ← scanLoop service (service.pageSize pageSize) candidates
        (fun path => wakeVerdict overdueBefore overdueOnly <$> scheduledWake formats store ns path)
        fuel {} with
    | none => return none
    | some scan =>
      let nextPageToken ← service.scanToken binding candidates scan
      return some ⟨⟨scan.entries, nextPageToken, scan.scanned,
        (recordFiles quarantined).length % 2 ^ 32, scan.invalid⟩, candidates.drop scan.next⟩

end Store

def plainPageTokens : PageTokens where
  sealToken binding cursor :=
    .ok (String.ofList (ByteCode.encode (ByteCode.textBytes (binding ++ "\x00" ++ cursor))))
  openToken binding token :=
    let other := errorf "page token does not belong to this request"
    match ByteCode.decode token.toList with
    | none => .error (errorf "malformed page token")
    | some data =>
      match data.span (· ≠ 0) with
      | (_, []) => .error other
      | (gotBinding, _ :: cursor) =>
        if gotBinding ≠ ByteCode.textBytes binding then .error other else .ok cursor

def defaultLimits : Limits where
  defaultPageSize := 50
  maxPageSize := 100
  readBudget := 500
  maxListedRuns := 20000
  maxListedObjects := 50000
  maxRunRecords := 2000
  concurrency := 8

def zeroLimits : Limits := ⟨0, 0, 0, 0, 0, 0, 0⟩

/-- Options with an `Access`, which is required. -/
structure Options where
  access : Access
  tokens : Option PageTokens
  limits : Limits

def checkRegistration (registered : List String) (store : Store) : Except Err Unit := do
  if store.id = "" then
    throw (errorf "inspection: every store needs an ID")
  if registered.contains store.id then
    throw (errorf ("inspection: duplicate store " ++ quoted store.id))
  if store.namespaces.isEmpty then
    throw (errorf ("inspection: store " ++ quoted store.id ++ " needs at least one namespace"))
  store.namespaces.forM fun ns =>
    (validateScopeSegments ns "").mapError fun err =>
      wrapf ("inspection: store " ++ quoted store.id ++ " namespace " ++ quoted ns ++ ": ") err

def checkRegistrations (registered : List String) : List Store → Except Err Unit
  | [] => .ok ()
  | store :: stores => do
    checkRegistration registered store
    checkRegistrations (store.id :: registered) stores

def newService (stores : List Store) (options : Options) (hasStatus : Err → Bool) : Except Err Service := do
  if stores.isEmpty then
    throw (errorf "inspection: at least one store is required")
  checkRegistrations [] stores
  return { stores := stores, access := options.access, tokens := options.tokens.getD plainPageTokens
           limits := if options.limits = zeroLimits then defaultLimits else options.limits
           hasStatus := hasStatus }

end Temporaless.Inspection
