import Temporaless.Storage.Filed

/-!
# Offline queries over a bucket

`scanquery` walks the bucket and picks records by the text of their paths. Identifiers are chosen by
callers, so a path of another layout can be picked too; its payload then fails validation and the
whole query fails.
-/

namespace Temporaless.ScanQuery

open PathTree Effects OpenDALStore

structure ListWorkflowsRequest where
  ns : String
  workflowID : String
  status : WorkflowStatus
  orderBy : String
  pageSize : Int
  pageToken : String

structure ListActivitiesRequest where
  ns : String
  workflowID : String
  runID : String
  status : ActivityStatus
  orderBy : String
  pageSize : Int
  pageToken : String

def rejectPagination (orderBy : String) (pageSize : Int) (pageToken : String) : Except Err Unit :=
  if orderBy ≠ "" ∨ pageSize ≠ 0 ∨ pageToken ≠ "" then
    .error (sentinelf .errInvalidQuery "scan query does not support order_by or pagination")
  else .ok ()

def namespaceOrDefault (ns : String) : String := if ns = "" then defaultNamespace else ns

def validateQueryScope (ns workflowID : String) : Except Err Unit :=
  let probeNamespace := namespaceOrDefault ns
  let probeWorkflowID := if workflowID = "" then "placeholder" else workflowID
  (WorkflowKey.validate ⟨probeNamespace, probeWorkflowID, "placeholder"⟩).mapError
    (sentinelCausef .errInvalidQuery "")

def validatePayloadLocation (kind : String) (actual : Path) (expectedPath : Except Err Path)
    (validation : Except Err Unit) : Except Err Unit := do
  validation.mapError
    (sentinelCausef .errCorruptRecord ("invalid " ++ kind ++ " payload key at " ++ render actual ++ ": "))
  let expected ← expectedPath
  if expected ≠ actual then
    throw (sentinelf .errCorruptRecord
      (kind ++ " payload key does not match its storage location at " ++ render actual))

/-- The narrowest directory that holds every record of the scope. -/
def scanRoot (ns workflowID : String) : Path :=
  if ns = "" then storageRoot
  else if workflowID = "" then storageRoot ++ [ns]
  else storageRoot ++ [ns, workflowID]

def inScope (ns workflowID keyNamespace keyWorkflowID : String) : Bool :=
  (ns == "" || namespaceOrDefault keyNamespace == ns) &&
    (workflowID == "" || keyWorkflowID == workflowID)

section Scan

variable {Bytes α : Type}

/-- The same loop as `walkOpenDAL`. -/
def walk (fuel : Nat) (root : Path) : BucketM Bytes (List Path) := walkOpenDAL fuel root

def readProto (codec : Codec Bytes α) (path : Path) : BucketM Bytes α := do
  let data ← readObject path
  match codec.unmarshal data with
  | .error text => throw (errorf ("decode listed protobuf " ++ render path ++ ": " ++ text))
  | .ok record => return record

def scan (codec : Codec Bytes α) (selects : String → Bool) (check : Path → α → Except Err Unit)
    (keeps : α → Bool) : List Path → BucketM Bytes (List α)
  | [] => return []
  | path :: paths => do
    if !selects (render path) then
      scan codec selects check keeps paths
    else
      let record ← readProto codec path
      check path record
      let records ← scan codec selects check keeps paths
      return if keeps record then record :: records else records

end Scan

/-- `strings.HasSuffix`. -/
def hasSuffix (text suffix : String) : Bool := suffix.toList.isSuffixOf text.toList

/-- `strings.Contains`. -/
def containsText (text part : String) : Bool := decide (part.toList <:+: text.toList)

def selectsWorkflow (text : String) : Bool := hasSuffix text "/workflow.binpb"

def selectsActivity (text : String) : Bool :=
  containsText text "/activity/" && hasSuffix text ".binpb"

def checkWorkflow (path : Path) (record : WorkflowRecord) : Except Err Unit := do
  let key := workflowKeyFromProto record.key
  validateWorkflowRecord record key
  validatePayloadLocation "workflow" path key.path key.validate

def checkActivity (path : Path) (record : ActivityRecord) : Except Err Unit := do
  let key := itemKeyFromProto record.key
  validateActivityRecord record key
  validatePayloadLocation "activity" path key.path key.validate

def keepsWorkflow (ns workflowID : String) (status : WorkflowStatus) (record : WorkflowRecord) :
    Bool :=
  let key := workflowKeyFromProto record.key
  inScope ns workflowID key.ns key.workflowID && (status == .unspecified || record.status == status)

def keepsActivity (ns workflowID : String) (status : ActivityStatus) (record : ActivityRecord) :
    Bool :=
  let key := itemKeyFromProto record.key
  inScope ns workflowID key.ns key.workflowID && (status == .unspecified || record.status == status)

def filterActivities (records : List ActivityRecord) (status : ActivityStatus) :
    List ActivityRecord :=
  if status = .unspecified then records else records.filter (·.status == status)

section Queries

variable (wire : Wire)

def listWorkflows (fuel : Nat) (request : Option ListWorkflowsRequest) :
    BucketM wire.Bytes (List WorkflowRecord) := do
  match request with
  | none => throw (sentinelf .errInvalidQuery "list workflows request is required")
  | some request =>
    rejectPagination request.orderBy request.pageSize request.pageToken
    validateQueryScope request.ns request.workflowID
    let paths ← walk fuel (scanRoot request.ns request.workflowID)
    scan wire.workflow selectsWorkflow checkWorkflow
      (keepsWorkflow request.ns request.workflowID request.status) paths

def listActivitiesQuery (fuel : Nat) (request : Option ListActivitiesRequest) :
    BucketM wire.Bytes (List ActivityRecord) := do
  match request with
  | none => throw (sentinelf .errInvalidQuery "list activities request is required")
  | some request =>
    rejectPagination request.orderBy request.pageSize request.pageToken
    if request.runID ≠ "" ∧ request.workflowID = "" then
      throw (sentinelf .errInvalidQuery "workflow_id is required when run_id is set")
    validateQueryScope request.ns request.workflowID
    if request.runID ≠ "" then
      let key : WorkflowKey := ⟨namespaceOrDefault request.ns, request.workflowID, request.runID⟩
      key.validate.mapError (sentinelCausef .errInvalidQuery "")
      let records ← listActivities wire fuel key
      return filterActivities records request.status
    let paths ← walk fuel (scanRoot request.ns request.workflowID)
    scan wire.activity selectsActivity checkActivity
      (keepsActivity request.ns request.workflowID request.status) paths

end Queries

end Temporaless.ScanQuery
