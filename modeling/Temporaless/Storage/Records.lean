import Temporaless.Framework.Binary64
import Temporaless.Storage.Time

/-!
# Persisted records

The messages of `temporaless.proto` that the stores read and write. A message field that may be
absent is an `Option` and a map is the list of its entries. The keys of activities, timers,
events and claims have one shape, so they are one structure indexed by the record family.
-/

namespace Temporaless

inductive RecordSchemaVersion where
  | unspecified | activity | workflow | timer | claim | event
  deriving DecidableEq, Repr

inductive ActivityStatus where
  | unspecified | completed | failed | retrying
  deriving DecidableEq, Repr

inductive WorkflowStatus where
  | unspecified | completed | failed | inProgress
  deriving DecidableEq, Repr

inductive TimerStatus where
  | unspecified | scheduled | fired | canceled
  deriving DecidableEq, Repr

inductive TimerKind where
  | unspecified | sleep | activityRetry | poll
  deriving DecidableEq, Repr

inductive ClaimResourceType where
  | unspecified | workflow | activity | timer | concurrencyKey
  deriving DecidableEq, Repr

inductive ClaimCapability where
  | unspecified | noClaims | createOnlyClaims | casClaims
  deriving DecidableEq, Repr

def RecordSchemaVersion.name : RecordSchemaVersion → String
  | .unspecified => "RECORD_SCHEMA_VERSION_UNSPECIFIED"
  | .activity => "RECORD_SCHEMA_VERSION_ACTIVITY"
  | .workflow => "RECORD_SCHEMA_VERSION_WORKFLOW"
  | .timer => "RECORD_SCHEMA_VERSION_TIMER"
  | .claim => "RECORD_SCHEMA_VERSION_CLAIM"
  | .event => "RECORD_SCHEMA_VERSION_EVENT"

def WorkflowStatus.name : WorkflowStatus → String
  | .unspecified => "WORKFLOW_STATUS_UNSPECIFIED"
  | .completed => "WORKFLOW_STATUS_COMPLETED"
  | .failed => "WORKFLOW_STATUS_FAILED"
  | .inProgress => "WORKFLOW_STATUS_IN_PROGRESS"

def ClaimCapability.name : ClaimCapability → String
  | .unspecified => "CLAIM_CAPABILITY_UNSPECIFIED"
  | .noClaims => "CLAIM_CAPABILITY_NO_CLAIMS"
  | .createOnlyClaims => "CLAIM_CAPABILITY_CREATE_ONLY_CLAIMS"
  | .casClaims => "CLAIM_CAPABILITY_CAS_CLAIMS"

/-- The record families that live below a run and are named by an identifier of their own. -/
inductive RecordKind where
  | activity | timer | event | claim
  deriving DecidableEq, Repr

structure WorkflowKey where
  ns : String
  workflowID : String
  runID : String
  deriving DecidableEq, Repr

/-- The key of an activity, timer, event or claim record. -/
structure ItemKey (kind : RecordKind) where
  ns : String
  workflowID : String
  runID : String
  id : String
  deriving DecidableEq, Repr

abbrev ActivityKey := ItemKey .activity

abbrev TimerKey := ItemKey .timer

abbrev EventKey := ItemKey .event

abbrev ClaimKey := ItemKey .claim

def ItemKey.run {kind : RecordKind} (key : ItemKey kind) : WorkflowKey :=
  ⟨key.ns, key.workflowID, key.runID⟩

/-- The record of a run with the given identifier. -/
def WorkflowKey.item (key : WorkflowKey) (kind : RecordKind) (id : String) : ItemKey kind :=
  ⟨key.ns, key.workflowID, key.runID, id⟩

/-- A `google.protobuf.Any`. -/
structure Any where
  typeURL : String
  value : List UInt8
  deriving DecidableEq, Repr

/-- An application message: its protobuf type and its wire form. -/
structure Message where
  fullName : String
  wire : List UInt8
  deriving DecidableEq, Repr

def anyTypeRoot : String := "type.googleapis.com/"

/-- `anypb.New`. -/
def Message.toAny (m : Message) : Any := ⟨anyTypeRoot ++ m.fullName, m.wire⟩

abbrev Annotations := List (String × String)

structure RetryPolicy where
  initialInterval : Option DurationMessage
  backoffCoefficient : Binary64
  maximumInterval : Option DurationMessage
  maximumAttempts : Nat
  nonRetryableErrorCodes : List String
  durableBackoffThreshold : Option DurationMessage
  deriving DecidableEq

structure ActivityFailure where
  code : String
  message : String
  retryAfter : Option DurationMessage
  deriving DecidableEq, Repr

structure ActivityAttempt where
  attempt : Nat
  startedAt : Option Timestamp
  completedAt : Option Timestamp
  failure : Option ActivityFailure
  deriving DecidableEq, Repr

structure ActivityRecord where
  schemaVersion : RecordSchemaVersion
  key : Option ActivityKey
  activityType : String
  input : Option Any
  status : ActivityStatus
  result : Option Any
  failure : Option ActivityFailure
  createdAt : Option Timestamp
  completedAt : Option Timestamp
  attempts : List ActivityAttempt
  annotations : Annotations
  nextAttemptAt : Option Timestamp
  retryPolicy : Option RetryPolicy
  retryTimerId : String
  deriving DecidableEq

structure WorkflowRecord where
  schemaVersion : RecordSchemaVersion
  key : Option WorkflowKey
  workflowType : String
  input : Option Any
  status : WorkflowStatus
  result : Option Any
  failure : Option ActivityFailure
  createdAt : Option Timestamp
  completedAt : Option Timestamp
  annotations : Annotations
  runOrderTime : Option Timestamp
  deriving DecidableEq, Repr

structure TimerRecord where
  schemaVersion : RecordSchemaVersion
  key : Option TimerKey
  timerKind : TimerKind
  duration : Option DurationMessage
  status : TimerStatus
  fireAt : Option Timestamp
  createdAt : Option Timestamp
  firedAt : Option Timestamp
  retryActivityId : String
  deriving DecidableEq, Repr

structure EventRecord where
  schemaVersion : RecordSchemaVersion
  key : Option EventKey
  payload : Option Any
  receivedAt : Option Timestamp
  deriving DecidableEq, Repr

structure ClaimRecord where
  schemaVersion : RecordSchemaVersion
  key : Option ClaimKey
  ownerId : String
  resourceType : ClaimResourceType
  resourceId : String
  leaseExpiresAt : Option Timestamp
  createdAt : Option Timestamp
  heartbeatAt : Option Timestamp
  deriving DecidableEq, Repr

structure LatestWorkflowRunPointer where
  key : Option WorkflowKey
  status : WorkflowStatus
  recordTime : Option Timestamp
  updatedAt : Option Timestamp
  runOrderTime : Option Timestamp
  deriving DecidableEq, Repr

/-- The write-ahead object of a timer: the full prepared record, with its due instant. -/
structure DueTimerEntry where
  key : Option TimerKey
  workflowKey : Option WorkflowKey
  fireAt : Option Timestamp
  record : Option TimerRecord
  deriving DecidableEq, Repr

def ItemKey.empty (kind : RecordKind) : ItemKey kind := ⟨"", "", "", ""⟩

def WorkflowKey.empty : WorkflowKey := ⟨"", "", ""⟩

/-- `ActivityKeyFromProto` and its siblings: a missing key is the empty one. -/
def itemKeyFromProto {kind : RecordKind} (key : Option (ItemKey kind)) : ItemKey kind :=
  key.getD (ItemKey.empty kind)

def workflowKeyFromProto (key : Option WorkflowKey) : WorkflowKey := key.getD WorkflowKey.empty

end Temporaless
