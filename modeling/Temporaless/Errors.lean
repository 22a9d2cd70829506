import Temporaless.Framework.ErrorTree
import Temporaless.Storage.Records

/-!
# Error values of the runtime

The sentinel errors and the typed errors of the storage and workflow packages. Errors of application
code may answer `errors.Is` for any sentinel and `errors.As` for the typed errors through methods of
their own. The exceptions of the Python SDK are errors without a cause.
-/

namespace Temporaless

open ErrorTree

inductive Sentinel where
  | errActivityConflict | errActivityFailed | errClaimBusy | errClaimRelease | errEventPending
  | errTimerConflict | errTimerPending | errWorkflowConflict | errWorkflowDependencyPending
  | errWorkflowDependencyFailed | errWorkflowInfrastructure | errUserPanic
  | errConcurrencyBusy | errClaimCapabilityUnsupported | errCorruptRecord
  | errStaleLatestPointer | errFencedExecutionUnsupported | errInvalidQuery | errTooManyObjects
  | contextCanceled | contextDeadlineExceeded
  deriving DecidableEq, Repr

/-- The text given to `errors.New`. -/
def Sentinel.text : Sentinel → String
  | .errActivityConflict => "activity record conflicts with requested activity"
  | .errActivityFailed => "activity failed"
  | .errClaimBusy => "claim is busy"
  | .errClaimRelease => "claim release failed"
  | .errEventPending => "event is pending"
  | .errTimerConflict => "timer record conflicts with requested timer"
  | .errTimerPending => "timer is pending"
  | .errWorkflowConflict => "workflow record conflicts with requested workflow"
  | .errWorkflowDependencyPending => "workflow dependency has not completed"
  | .errWorkflowDependencyFailed =>
    "workflow dependency ended in a non-COMPLETED terminal state"
  | .errWorkflowInfrastructure => "workflow infrastructure operation failed"
  | .errUserPanic => "user callback panicked"
  | .errConcurrencyBusy => "concurrency cap is busy"
  | .errClaimCapabilityUnsupported =>
    "claim capability does not support requested coordination"
  | .errCorruptRecord => "corrupt storage record"
  | .errStaleLatestPointer => "stale latest workflow run pointer"
  | .errFencedExecutionUnsupported => "fenced execution is not implemented"
  | .errInvalidQuery => "invalid query"
  | .errTooManyObjects => "listing exceeds the inspection bound"
  | .contextCanceled => "context canceled"
  | .contextDeadlineExceeded => "context deadline exceeded"

/-- The fields of an `ActivityError` other than its cause. -/
structure ActivityErrorFields where
  code : String
  message : String
  retryAfter : Int
  deriving DecidableEq, Repr

structure UserPanicFields where
  boundary : String
  panicValue : String
  message : String
  deriving DecidableEq, Repr

inductive ExceptionClass where
  | decodeError | validationError | valueError | overflowError | runRecordValidationError
  | runtimeError | operationalError | eventDeliveryConflictError | eventDeliveryUnsupportedError
  | workflowInfrastructureError | workflowConflictError | eventPendingError
  deriving DecidableEq, Repr

/-- The classes below `DecodeError`, `ValidationError`, `ValueError` and `OverflowError`. -/
def ExceptionClass.recoverable : ExceptionClass → Bool
  | .decodeError | .validationError | .valueError | .overflowError
  | .runRecordValidationError => true
  | .runtimeError | .operationalError | .eventDeliveryConflictError | .eventDeliveryUnsupportedError
  | .workflowInfrastructureError | .workflowConflictError | .eventPendingError => false

/-- The node of an error value, apart from the errors it unwraps to. -/
inductive ErrorNode where
  | sentinel (s : Sentinel)
  | formatted (text : String)
  | joined
  | activityError (fields : ActivityErrorFields)
  | infrastructure (operation : String)
  | timerPending (timerID : String) (wakeAt : Int)
  | eventPending (eventID : String) (wakeAt : Option Int)
  | claimBusy (claimID ownerID : String) (leaseExpiresAt : Option Int)
      (capability : ClaimCapability)
  | concurrencyBusy (key : String) (limit : Nat)
  | claimCapability (capability : ClaimCapability) (option : String)
  | userPanic (fields : UserPanicFields)
  | opendal (notFound : Bool) (text : String)
  | exception (cls : ExceptionClass) (text : String)
  | application (text : String) (is : List Sentinel) (asActivityError : Option ActivityErrorFields)
      (asUserPanic : Option UserPanicFields)
  deriving DecidableEq, Repr

abbrev Err := Error ErrorNode

/-- `strconv.Quote` on text without control characters. -/
def quoted (s : String) : String :=
  let escaped := s.toList.flatMap fun c => if c = '"' || c = '\\' then ['\\', c] else [c]
  String.ofList ('"' :: escaped ++ ['"'])

def UserPanicFields.text (panic : UserPanicFields) : String :=
  if panic.message ≠ "" then panic.message
  else (if panic.boundary = "" then "user" else panic.boundary) ++ " callback panicked: " ++
    panic.panicValue

/-- The `Error` method of each node, given the texts of the errors below it. -/
def ErrorNode.render : ErrorNode → List String → String
  | .sentinel s, _ => s.text
  | .formatted text, _ => text
  | .joined, texts => "\n".intercalate texts
  | .activityError e, _ =>
    if e.code ≠ "" then "activity error [" ++ e.code ++ "]: " ++ e.message
    else "activity error: " ++ e.message
  | .infrastructure operation, texts =>
    let cause := texts.headD ""
    if operation = "" then "workflow infrastructure operation failed: " ++ cause
    else "workflow infrastructure operation " ++ quoted operation ++ " failed: " ++ cause
  | .timerPending timerID wakeAt, _ =>
    "timer " ++ quoted timerID ++ " is pending until " ++ rfc3339Nano wakeAt
  | .eventPending eventID none, _ => "event " ++ quoted eventID ++ " is pending"
  | .eventPending eventID (some wakeAt), _ =>
    "event " ++ quoted eventID ++ " is pending; next poll at " ++ rfc3339Nano wakeAt
  | .claimBusy claimID _ none _, _ => "claim " ++ quoted claimID ++ " is busy"
  | .claimBusy claimID _ (some expiry) _, _ =>
    "claim " ++ quoted claimID ++ " is busy (recorded lease expiry " ++ rfc3339Nano expiry ++ ")"
  | .concurrencyBusy key limit, _ =>
    "concurrency cap " ++ quoted key ++ " at limit " ++ toString limit
  | .claimCapability capability option, _ =>
    "claim capability " ++ capability.name ++ " does not support " ++ option
  | .userPanic panic, _ => panic.text
  | .opendal _ text, _ => text
  | .exception _ text, _ => text
  | .application text _ _ _, _ => text

/-- The `Error` method. -/
def Err.message (err : Err) : String := Error.text ErrorNode.render err

/-- Does the node equal the target of `errors.Is`, or say so in its `Is` method? -/
def ErrorNode.matchesTarget (target : Sentinel) : ErrorNode → Bool
  | .sentinel s => s == target
  | .infrastructure _ => target == .errWorkflowInfrastructure
  | .userPanic _ => target == .errUserPanic
  | .application _ is _ _ => is.contains target
  | _ => false

/-- `errors.Is`. -/
def Err.is (err : Err) (target : Sentinel) : Bool := Error.contains (·.matchesTarget target) err

def ErrorNode.asActivityError : ErrorNode → Option ActivityErrorFields
  | .activityError fields => some fields
  | .application _ _ as _ => as
  | _ => none

/-- `errors.As` with a target of type `*ActivityError`, together with the causes of the match. -/
def Err.asActivityError (err : Err) : Option (ActivityErrorFields × List Err) :=
  Error.first ErrorNode.asActivityError err

def Err.ofSentinel (s : Sentinel) : Err := .node (.sentinel s) []

/-- `fmt.Errorf` without a wrapped error. -/
def errorf (text : String) : Err := .node (.formatted text) []

/-- `fmt.Errorf("%w: …", s)`. -/
def sentinelf (s : Sentinel) (text : String) : Err :=
  .node (.formatted (s.text ++ ": " ++ text)) [Err.ofSentinel s]

/-- `fmt.Errorf("%w: …: %w", s, cause)`. -/
def sentinelCausef (s : Sentinel) (text : String) (cause : Err) : Err :=
  .node (.formatted (s.text ++ ": " ++ text ++ cause.message)) [Err.ofSentinel s, cause]

/-- `fmt.Errorf("…: %w", cause)`. -/
def wrapf (text : String) (cause : Err) : Err :=
  .node (.formatted (text ++ cause.message)) [cause]

/-- `errors.Join` of errors none of which is nil. -/
def joinErrors (errs : List Err) : Err := .node .joined errs

def corruptRecordf (text : String) : Err := sentinelf .errCorruptRecord text

def staleLatestPointerf (text : String) : Err := sentinelf .errStaleLatestPointer text

section Search

variable (own : ErrorNode) (causes : List Err) (target : Sentinel)

theorem is_node : Err.is (.node own causes) target =
    (own.matchesTarget target || Error.containsAny (·.matchesTarget target) causes) :=
  Error.contains_node _ own causes

@[simp] theorem is_sentinelf (s : Sentinel) (text : String) :
    (sentinelf s text).is target = (s == target) := by
  simp [Err.is, sentinelf, Err.ofSentinel, ErrorNode.matchesTarget]

@[simp] theorem is_corruptRecordf (text : String) :
    (corruptRecordf text).is target = (Sentinel.errCorruptRecord == target) := by
  simp [corruptRecordf]

end Search

end Temporaless
