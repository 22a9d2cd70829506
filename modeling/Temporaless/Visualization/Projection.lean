import Temporaless.Framework.KeySort
import Temporaless.Visualization.Inspection

/-!
# The run projections of the three SDKs

`Project` of the Go adapter, `project_workflow_run` of the Python SDK and `projectWorkflowRun` of the
TypeScript SDK join a plan to the records of a run. The Go adapter assigns the records one by one, the
Python SDK looks them up by id, and the TypeScript SDK filters them anew for every node.
-/

namespace Temporaless.Visualization

open KeySort

structure Evidence where
  activities : List ActivityRecord
  timers : List TimerRecord
  events : List EventRecord
  claims : List ClaimRecord

structure NodeProjection where
  node : PlanNode
  activity : Option ActivityRecord
  timers : List TimerRecord
  event : Option EventRecord
  claims : List ClaimRecord

structure RunProjection where
  plan : WorkflowPlan
  key : WorkflowKey
  workflow : Option WorkflowRecord
  nodes : List NodeProjection
  unplannedActivities : List ActivityRecord
  unplannedTimers : List TimerRecord
  unplannedEvents : List EventRecord
  runClaims : List ClaimRecord
  unplannedClaims : List ClaimRecord
  claimsInspected : Bool

def NodeProjection.empty (node : PlanNode) : NodeProjection := ⟨node, none, [], none, []⟩

def checkedProjection {α : Type} (plan : Option (Except PlanError Unit)) (records : Except Err Unit)
    (projection : α) : Option (Except ProjectError α) :=
  plan.map fun verdict => do
    verdict.mapError .plan
    records.mapError .inspection
    return projection

def utf8Bytes (s : String) : List Nat := (s.toList.flatMap String.utf8EncodeChar).map UInt8.toNat

def sortedActivities (records : List ActivityRecord) : List ActivityRecord :=
  sortedBy (fun record => utf8Bytes (activityID record)) records

def sortedTimers (records : List TimerRecord) : List TimerRecord :=
  sortedBy (fun record => utf8Bytes (timerID record)) records

def sortedEvents (records : List EventRecord) : List EventRecord :=
  sortedBy (fun record => utf8Bytes (eventID record)) records

def sortedClaims (records : List ClaimRecord) : List ClaimRecord :=
  sortedBy (fun record => utf8Bytes (claimID record)) records

def timerMatchesNode (timer : TimerRecord) (node : PlanNode) : Bool :=
  match node.kind with
  | .sleep => timer.timerKind = .sleep
  | .waitEvent | .waitWorkflow => timer.timerKind = .poll
  | _ => false

def claimMatchesNode (claim : ClaimRecord) (node : PlanNode) : Bool :=
  match claim.resourceType with
  | .activity => node.kind = .activity || node.kind = .branch
  | .timer => node.kind = .sleep || node.kind = .waitEvent || node.kind = .waitWorkflow
  | _ => false

/-- The end of each loop over records: the node with the given id takes the record if it fits, and
otherwise the record is unplanned. The ids of an accepted plan are distinct, so that the map from ids
points to one node each. -/
def assign {ρ : Type} (state : List NodeProjection × List ρ) (record : ρ) (id : String)
    (fits : NodeProjection → Bool) (put : NodeProjection → NodeProjection) :
    List NodeProjection × List ρ :=
  if (state.1.find? fun node => node.node.nodeID = id).any fits then
    (state.1.map fun node => if node.node.nodeID = id then put node else node, state.2)
  else (state.1, state.2 ++ [record])

def assignActivity (state : List NodeProjection × List ActivityRecord) (record : ActivityRecord) :
    List NodeProjection × List ActivityRecord :=
  assign state record (activityID record)
    (fun node => (node.node.kind = .activity || node.node.kind = .branch) && node.activity.isNone)
    fun node => { node with activity := some record }

def assignTimer (state : List NodeProjection × List TimerRecord) (record : TimerRecord) :
    List NodeProjection × List TimerRecord :=
  if record.timerKind = .activityRetry then
    assign state record record.retryActivityId
      (fun node => node.node.kind = .activity || node.node.kind = .branch)
      fun node => { node with timers := node.timers ++ [record] }
  else
    assign state record (timerID record) (fun node => timerMatchesNode record node.node)
      fun node => { node with timers := node.timers ++ [record] }

def assignEvent (state : List NodeProjection × List EventRecord) (record : EventRecord) :
    List NodeProjection × List EventRecord :=
  assign state record (eventID record)
    (fun node => node.node.kind = .waitEvent && node.event.isNone)
    fun node => { node with event := some record }

def assignClaim (state : List ClaimRecord × List NodeProjection × List ClaimRecord)
    (record : ClaimRecord) : List ClaimRecord × List NodeProjection × List ClaimRecord :=
  if record.resourceType = .workflow then (state.1 ++ [record], state.2)
  else
    (state.1, assign state.2 record record.resourceId
      (fun node => claimMatchesNode record node.node)
      fun node => { node with claims := node.claims ++ [record] })

/-- `Project` after its checks. -/
def joinRun (plan : WorkflowPlan) (inspection : RunInspection) : RunProjection :=
  let nodes := sortedBy (fun node => utf8Bytes node.node.nodeID) (plan.nodes.map .empty)
  let activities := (sortedActivities inspection.activities).foldl assignActivity (nodes, [])
  let timers := (sortedTimers inspection.timers).foldl assignTimer (activities.1, [])
  let events := (sortedEvents inspection.events).foldl assignEvent (timers.1, [])
  let claims := (sortedClaims inspection.claims).foldl assignClaim ([], events.1, [])
  { plan
    key := inspection.key.withDefaults
    workflow := inspection.workflow
    nodes := claims.2.1.map fun node =>
      { node with timers := sortedTimers node.timers, claims := sortedClaims node.claims }
    unplannedActivities := activities.2
    unplannedTimers := timers.2
    unplannedEvents := events.2
    runClaims := claims.1
    unplannedClaims := claims.2.2
    claimsInspected := inspection.claimsInspected }

def project (order : IterationOrder) (plan : WorkflowPlan) (inspection : RunInspection) :
    Option (Except ProjectError RunProjection) :=
  checkedProjection (validatePlan order plan)
    (wrapUnless "visualization: invalid run inspection: "
      (validateInspectionRecords inspection.toRunSnapshot))
    (joinRun plan inspection)

end Temporaless.Visualization

namespace Temporaless.Visualization.Python

open KeySort

structure Matched where
  activityIDs : List String
  timerIDs : List String
  eventIDs : List String
  claimIDs : List String

def byID {ρ : Type} (id : ρ → String) (records : List ρ) (wanted : String) : Option ρ :=
  records.reverse.find? fun record => id record = wanted

def retryTimersByActivity (timers : List TimerRecord) (id : String) : List TimerRecord :=
  timers.filter fun record => record.timerKind = .activityRetry && record.retryActivityId != "" &&
    record.retryActivityId = id

def claimsByResource (type : ClaimResourceType) (claims : List ClaimRecord) (id : String) :
    List ClaimRecord :=
  claims.filter fun record => record.resourceType = type && record.resourceId = id

def foundID {ρ : Type} (id : String) (record : Option ρ) : List String :=
  if record.isSome then [id] else []

def takeBoundary (inspection : RunSnapshot) (matched : Matched) (node : PlanNode) :
    Matched × NodeProjection :=
  match node.kind with
  | .activity | .branch =>
    let activity := byID activityID inspection.activities node.nodeID
    let timers := sortedBy timerID (retryTimersByActivity inspection.timers node.nodeID)
    let claims := sortedBy claimID (claimsByResource .activity inspection.claims node.nodeID)
    ({ matched with
        activityIDs := matched.activityIDs ++ foundID node.nodeID activity
        timerIDs := matched.timerIDs ++ timers.map timerID
        claimIDs := matched.claimIDs ++ claims.map claimID },
      ⟨node, activity, timers, none, claims⟩)
  | .sleep | .waitEvent | .waitWorkflow =>
    let expectedTimerKind := if node.kind = .sleep then TimerKind.sleep else TimerKind.poll
    let exactTimer := (byID timerID inspection.timers node.nodeID).filter fun record =>
      record.timerKind = expectedTimerKind
    let claims := sortedBy claimID (claimsByResource .timer inspection.claims node.nodeID)
    ({ matched with
        timerIDs := matched.timerIDs ++ foundID node.nodeID exactTimer
        claimIDs := matched.claimIDs ++ claims.map claimID },
      ⟨node, none, exactTimer.toList, none, claims⟩)
  | _ => (matched, .empty node)

def takeEvent (inspection : RunSnapshot) (state : Matched × NodeProjection) :
    Matched × NodeProjection :=
  if state.2.node.kind = .waitEvent then
    let event := byID eventID inspection.events state.2.node.nodeID
    ({ state.1 with eventIDs := state.1.eventIDs ++ foundID state.2.node.nodeID event },
      { state.2 with event := event })
  else state

def projectNode (inspection : RunSnapshot) (state : Matched × List NodeProjection) (node : PlanNode) :
    Matched × List NodeProjection :=
  let taken := takeEvent inspection (takeBoundary inspection state.1 node)
  (taken.1, state.2 ++ [taken.2])

/-- `project_workflow_run` after its checks. -/
def joinRun (plan : WorkflowPlan) (inspection : RunInspection) : RunProjection :=
  let runClaims := sortedBy claimID (inspection.claims.filter fun record => record.resourceType = .workflow)
  let taken := (sortedBy PlanNode.nodeID plan.nodes).foldl (projectNode inspection.toRunSnapshot)
    (⟨[], [], [], runClaims.map claimID⟩, [])
  { plan
    key := inspection.key
    workflow := inspection.workflow
    nodes := taken.2
    runClaims
    unplannedActivities := sortedBy activityID
      (inspection.activities.filter fun record => activityID record ∉ taken.1.activityIDs)
    unplannedTimers := sortedBy timerID
      (inspection.timers.filter fun record => timerID record ∉ taken.1.timerIDs)
    unplannedEvents := sortedBy eventID
      (inspection.events.filter fun record => eventID record ∉ taken.1.eventIDs)
    unplannedClaims := sortedBy claimID
      (inspection.claims.filter fun record => claimID record ∉ taken.1.claimIDs)
    claimsInspected := inspection.claimsInspected }

def projectWorkflowRun (order : String → IterationOrder) (plan : WorkflowPlan)
    (inspection : RunInspection) : Option (Except ProjectError RunProjection) :=
  checkedProjection (validatePlan order plan) (validateInspectionKeys inspection.toRunSnapshot)
    (joinRun plan inspection)

end Temporaless.Visualization.Python

namespace Temporaless.Visualization.TypeScript

structure ProjectedNode extends Evidence where
  node : PlanNode

structure RunProjection where
  plan : WorkflowPlan
  snapshot : RunSnapshot
  runClaims : List ClaimRecord
  nodes : List ProjectedNode
  unplanned : Evidence

def compareBytes : List Nat → List Nat → Int
  | left :: lefts, right :: rights =>
    if (left : Int) - right ≠ 0 then (left : Int) - right else compareBytes lefts rights
  | lefts, rights => (lefts.length : Int) - rights.length

def compareUtf8 (left right : String) : Int := compareBytes (utf8Bytes left) (utf8Bytes right)

def sortedBy {ρ : Type} (identity : ρ → String) (values : List ρ) : List ρ :=
  values.insertionSort fun left right => compareUtf8 (identity left) (identity right) ≤ 0

def isActivity (node : PlanNode) : Bool := node.kind = .activity || node.kind = .branch

def hasBoundaryTimer (node : PlanNode) : Bool :=
  node.kind = .sleep || node.kind = .waitEvent || node.kind = .waitWorkflow

/-- `record.key?.id === id`. -/
def hasID {kind : RecordKind} (key : Option (ItemKey kind)) (id : String) : Bool :=
  key.map ItemKey.id = some id

def projectNode (snapshot : RunSnapshot) (node : PlanNode) : ProjectedNode where
  node := node
  activities :=
    if isActivity node then
      sortedBy activityID (snapshot.activities.filter fun record => hasID record.key node.nodeID)
    else []
  timers := sortedBy timerID (snapshot.timers.filter fun record =>
    (isActivity node && record.timerKind = .activityRetry && record.retryActivityId = node.nodeID) ||
    (node.kind = .sleep && record.timerKind = .sleep && hasID record.key node.nodeID) ||
    ((node.kind = .waitEvent || node.kind = .waitWorkflow) && record.timerKind = .poll &&
      hasID record.key node.nodeID))
  events :=
    if node.kind = .waitEvent then
      sortedBy eventID (snapshot.events.filter fun record => hasID record.key node.nodeID)
    else []
  claims :=
    if isActivity node || hasBoundaryTimer node then
      sortedBy claimID (snapshot.claims.filter fun record =>
        ((isActivity node && record.resourceType = .activity) ||
          (hasBoundaryTimer node && record.resourceType = .timer)) &&
        record.resourceId = node.nodeID)
    else []

def nodeIDs (plan : WorkflowPlan) (wanted : PlanNode → Bool) : List String :=
  (plan.nodes.filter wanted).map PlanNode.nodeID

/-- `record.key !== undefined && ids.has(record.key.id)`. -/
def keyIn {kind : RecordKind} (key : Option (ItemKey kind)) (ids : List String) : Bool :=
  key.any fun key => key.id ∈ ids

/-- `projectWorkflowRun` after its checks. -/
def joinRun (plan : WorkflowPlan) (snapshot : RunSnapshot) : RunProjection :=
  let activityNodeIDs := nodeIDs plan fun node => node.kind = .activity || node.kind = .branch
  let sleepNodeIDs := nodeIDs plan fun node => node.kind = .sleep
  let pollNodeIDs := nodeIDs plan fun node => node.kind = .waitEvent || node.kind = .waitWorkflow
  let eventNodeIDs := nodeIDs plan fun node => node.kind = .waitEvent
  { plan
    snapshot
    runClaims := sortedBy claimID (snapshot.claims.filter fun record => record.resourceType = .workflow)
    nodes := (sortedBy PlanNode.nodeID plan.nodes).map (projectNode snapshot)
    unplanned :=
      { activities := sortedBy activityID
          (snapshot.activities.filter fun record => !keyIn record.key activityNodeIDs)
        timers := sortedBy timerID (snapshot.timers.filter fun record =>
          !((record.timerKind = .sleep && keyIn record.key sleepNodeIDs) ||
            (record.timerKind = .poll && keyIn record.key pollNodeIDs) ||
            (record.timerKind = .activityRetry && record.retryActivityId ∈ activityNodeIDs)))
        events := sortedBy eventID
          (snapshot.events.filter fun record => !keyIn record.key eventNodeIDs)
        claims := sortedBy claimID (snapshot.claims.filter fun record =>
          record.resourceType ≠ .workflow &&
          (record.resourceType ≠ .activity || record.resourceId ∉ activityNodeIDs) &&
          (record.resourceType ≠ .timer ||
            (record.resourceId ∉ sleepNodeIDs && record.resourceId ∉ pollNodeIDs))) } }

def projectWorkflowRun (plan : WorkflowPlan) (snapshot : RunSnapshot) :
    Option (Except ProjectError RunProjection) :=
  checkedProjection (validateWorkflowPlan plan) (validateSnapshotKeys snapshot) (joinRun plan snapshot)

end Temporaless.Visualization.TypeScript
