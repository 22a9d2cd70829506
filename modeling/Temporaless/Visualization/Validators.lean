import Temporaless.Framework.Topological
import Temporaless.Visualization.Plan

/-!
# The plan validators of the three SDKs

`ValidatePlan` of the Go adapter, `validate_plan` of the Python SDK and `validateWorkflowPlan` of the
TypeScript SDK. Where the source iterates over a map without a fixed order, the validator takes the
order as an argument. A validator has no answer where the loop that visits the nodes would not end.
-/

namespace Temporaless.Visualization

open Topological

/-- Why a plan is rejected, with the values that the message names. -/
inductive PlanError where
  | tooManyNodes | tooManyEdges | tooManyAnnotations
  | tooManyNodeAnnotations (index : Nat)
  | constraints
  | badField (owner field : String)
  | duplicateNode (id : String)
  | callableRequires (id : String) (fields : List String)
  | duplicateEdge (edge : PlanEdge)
  | unknownSource (id : String)
  | unknownTarget (id : String)
  | labelRequired (edge : PlanEdge)
  | notFromBranch (edge : PlanEdge)
  | duplicateLabel (id label : String)
  | dataEndpoints (edge : PlanEdge)
  | dataTypes (edge : PlanEdge)
  | secondDataEdge (id : String)
  | loopBackWithoutLoop (edge : PlanEdge)
  | cycle
  deriving DecidableEq, Repr

/-- An order in which a map or a set is iterated. -/
structure IterationOrder where
  order : List String → List String
  perm : ∀ ids, (order ids).Perm ids

abbrev NodeMap := List PlanNode

def NodeMap.get (nodes : NodeMap) (id : String) : Option PlanNode :=
  nodes.find? fun node => node.nodeID = id

def NodeMap.ids (nodes : NodeMap) : List String := nodes.map PlanNode.nodeID

def checkSizes (plan : WorkflowPlan) : Except PlanError Unit := do
  if plan.nodes.length > 64 then
    throw .tooManyNodes
  if plan.edges.length > 128 then
    throw .tooManyEdges
  if plan.annotations.length > 64 then
    throw .tooManyAnnotations
  plan.nodes.zipIdx.forM fun (node, index) => do
    if node.annotations.length > 32 then
      throw (.tooManyNodeAnnotations index)

/-- The sets that the loops over the edges keep, and the graph of the forward edges. -/
structure EdgeState where
  seenEdges : List (String × String × EdgeKind × String)
  conditionalLabels : List (String × String)
  dataTargets : List String
  adjacency : String → List String
  indegree : String → Int

def EdgeState.empty : EdgeState := ⟨[], [], [], fun _ => [], fun _ => 0⟩

def checkVisited (nodes visited : Nat) : Except PlanError Unit :=
  if visited ≠ nodes then throw .cycle else return

def collectNode (nodes : NodeMap) (node : PlanNode) : Except PlanError NodeMap := do
  if (nodes.get node.nodeID).isSome then
    throw (.duplicateNode node.nodeID)
  if node.kind.callable then
    if node.operation = "" then
      throw (.callableRequires node.nodeID ["operation"])
    if node.requestType = "" then
      throw (.callableRequires node.nodeID ["request_type"])
    if node.responseType = "" then
      throw (.callableRequires node.nodeID ["response_type"])
  return nodes ++ [node]

def checkEdge (nodes : NodeMap) (state : EdgeState) (edge : PlanEdge) : Except PlanError EdgeState := do
  let identity := (edge.sourceNodeID, edge.targetNodeID, edge.kind, edge.label)
  if identity ∈ state.seenEdges then
    throw (.duplicateEdge edge)
  let state := { state with seenEdges := identity :: state.seenEdges }
  let some source := nodes.get edge.sourceNodeID | throw (.unknownSource edge.sourceNodeID)
  let some target := nodes.get edge.targetNodeID | throw (.unknownTarget edge.targetNodeID)
  if edge.kind = .conditional ∧ edge.label = "" then
    throw (.labelRequired edge)
  let mut state := state
  if edge.kind = .conditional then
    if source.kind ≠ .branch then
      throw (.notFromBranch edge)
    if (edge.sourceNodeID, edge.label) ∈ state.conditionalLabels then
      throw (.duplicateLabel edge.sourceNodeID edge.label)
    state := { state with
      conditionalLabels := (edge.sourceNodeID, edge.label) :: state.conditionalLabels }
  if edge.kind = .data then
    if !source.kind.callable || !target.kind.callable then
      throw (.dataEndpoints edge)
    if source.responseType = "" ∨ target.requestType = "" ∨ source.responseType ≠ target.requestType then
      throw (.dataTypes edge)
    if edge.targetNodeID ∈ state.dataTargets then
      throw (.secondDataEdge edge.targetNodeID)
    state := { state with dataTargets := edge.targetNodeID :: state.dataTargets }
  if edge.kind = .loopBack then
    if source.kind ≠ .loop ∧ target.kind ≠ .loop then
      throw (.loopBackWithoutLoop edge)
    return state
  return { state with
    adjacency := Function.update state.adjacency edge.sourceNodeID
      (state.adjacency edge.sourceNodeID ++ [edge.targetNodeID])
    indegree := Function.update state.indegree edge.targetNodeID
      (state.indegree edge.targetNodeID + 1) }

def gatherGraph (plan : WorkflowPlan) : Except PlanError (NodeMap × EdgeState) := do
  checkSizes plan
  if !plan.fieldsOk then
    throw .constraints
  let nodes ← plan.nodes.foldlM collectNode []
  let state ← plan.edges.foldlM (checkEdge nodes) .empty
  return (nodes, state)

/-- `ValidatePlan`. The ready nodes are gathered from a map and then visited in the order in which they
became ready. -/
def validatePlan (order : IterationOrder) (plan : WorkflowPlan) : Option (Except PlanError Unit) :=
  match gatherGraph plan with
  | .error err => some (.error err)
  | .ok (nodes, state) =>
    let ready := (order.order nodes.ids).filter (state.indegree · = 0)
    (drain popFirst state.adjacency nodes.ids.length ⟨state.indegree, ready⟩ 0).map
      (checkVisited nodes.length)

end Temporaless.Visualization

namespace Temporaless.Visualization.Python

open Topological

def collectNode (nodes : NodeMap) (node : PlanNode) : Except PlanError NodeMap := do
  if (nodes.get node.nodeID).isSome then
    throw (.duplicateNode node.nodeID)
  let nodes := nodes ++ [node]
  if node.kind.callable && [node.operation, node.requestType, node.responseType].any (· = "") then
    throw (.callableRequires node.nodeID ["operation", "request_type", "response_type"])
  return nodes

def checkEdge (nodes : NodeMap) (state : EdgeState) (edge : PlanEdge) : Except PlanError EdgeState := do
  let some source := nodes.get edge.sourceNodeID | throw (.unknownSource edge.sourceNodeID)
  let some target := nodes.get edge.targetNodeID | throw (.unknownTarget edge.targetNodeID)
  let identity := (edge.sourceNodeID, edge.targetNodeID, edge.kind, edge.label)
  if identity ∈ state.seenEdges then
    throw (.duplicateEdge edge)
  let mut state := { state with seenEdges := identity :: state.seenEdges }
  if edge.kind = .conditional ∧ edge.label = "" then
    throw (.labelRequired edge)
  if edge.kind = .conditional then
    if source.kind ≠ .branch then
      throw (.notFromBranch edge)
    if (edge.sourceNodeID, edge.label) ∈ state.conditionalLabels then
      throw (.duplicateLabel edge.sourceNodeID edge.label)
    state := { state with
      conditionalLabels := (edge.sourceNodeID, edge.label) :: state.conditionalLabels }
  if edge.kind = .loopBack then
    if source.kind ≠ .loop ∧ target.kind ≠ .loop then
      throw (.loopBackWithoutLoop edge)
    return state
  if edge.kind = .data then
    if !source.kind.callable || !target.kind.callable then
      throw (.dataEndpoints edge)
    if source.responseType = "" ∨ target.requestType = "" ∨ source.responseType ≠ target.requestType then
      throw (.dataTypes edge)
    if edge.targetNodeID ∈ state.dataTargets then
      throw (.secondDataEdge edge.targetNodeID)
    state := { state with dataTargets := edge.targetNodeID :: state.dataTargets }
  if edge.kind ∈ [EdgeKind.control, .data, .conditional] ∧
      edge.targetNodeID ∉ state.adjacency edge.sourceNodeID then
    return { state with
      adjacency := Function.update state.adjacency edge.sourceNodeID
        (state.adjacency edge.sourceNodeID ++ [edge.targetNodeID])
      indegree := Function.update state.indegree edge.targetNodeID
        (state.indegree edge.targetNodeID + 1) }
  return state

def gatherGraph (plan : WorkflowPlan) : Except PlanError (NodeMap × EdgeState) := do
  checkSizes plan
  if !plan.fieldsOk then
    throw .constraints
  let nodes ← plan.nodes.foldlM collectNode []
  let state ← plan.edges.foldlM (checkEdge nodes) .empty
  return (nodes, state)

/-- `validate_plan`. The targets of a node are a set, and the node that became ready last is visited
next. -/
def validatePlan (order : String → IterationOrder) (plan : WorkflowPlan) :
    Option (Except PlanError Unit) :=
  match gatherGraph plan with
  | .error err => some (.error err)
  | .ok (nodes, state) =>
    let ready := nodes.ids.filter (state.indegree · = 0)
    let targets := fun id => (order id).order (state.adjacency id)
    (drain popLast targets nodes.ids.length ⟨state.indegree, ready⟩ 0).map (checkVisited nodes.length)

end Temporaless.Visualization.Python

namespace Temporaless.Visualization.TypeScript

open Topological

def utf16Length (s : String) : Nat :=
  (s.toList.map fun c => if c.val < 0x10000 then 1 else 2).sum

def utf8Length (s : String) : Nat := s.utf8ByteSize

def pathSegment (s : String) : Bool := s != "" && s.toList.all segmentChar

def validateIdentifier (field value : String) : Except PlanError Unit :=
  if utf16Length value = 0 ∨ utf16Length value > 256 ∨ !pathSegment value ∨ value = "." ∨ value = ".." then
    throw (.badField "" field)
  else return

def validateAnnotations (owner : String) (annotations : Annotations) (maxPairs : Nat) :
    Except PlanError Unit := do
  if annotations.length > maxPairs then
    throw (.badField owner "annotations")
  annotations.forM fun (key, value) => do
    if key = "__proto__" then
      throw (.badField owner "annotation key")
    if utf8Length key > 128 then
      throw (.badField owner "annotation key")
    if utf8Length value > 1024 then
      throw (.badField owner "annotation value")

/-- `NODE_KINDS`. -/
def nodeKinds : List NodeKind :=
  [.activity, .branch, .fanOut, .loop, .sleep, .waitEvent, .waitWorkflow]

/-- `EDGE_KINDS`. -/
def edgeKinds : List EdgeKind := [.control, .data, .conditional, .loopBack]

/-- `CALLABLE_NODE_KINDS`. -/
def callableNodeKinds : List NodeKind := [.activity, .branch]

def checkTypeName (node : PlanNode) (field value : String) : Except PlanError Unit := do
  if utf8Length value > 512 then
    throw (.badField node.nodeID field)
  if utf16Length value > 0 ∧ !isFullName value then
    throw (.badField node.nodeID field)

def requireField (node : PlanNode) (field value : String) : Except PlanError Unit :=
  if utf16Length value = 0 then throw (.callableRequires node.nodeID [field]) else return

def collectNode (nodes : NodeMap) (node : PlanNode) : Except PlanError NodeMap := do
  validateIdentifier "node_id" node.nodeID
  if (nodes.get node.nodeID).isSome then
    throw (.duplicateNode node.nodeID)
  if utf16Length node.displayName = 0 then
    throw (.badField node.nodeID "display_name")
  if utf8Length node.displayName > 256 then
    throw (.badField node.nodeID "display_name")
  if utf8Length node.description > 4096 then
    throw (.badField node.nodeID "description")
  if utf8Length node.operation > 512 then
    throw (.badField node.nodeID "operation")
  validateAnnotations node.nodeID node.annotations 32
  if node.kind ∉ nodeKinds then
    throw (.badField node.nodeID "kind")
  checkTypeName node "request_type" node.requestType
  checkTypeName node "response_type" node.responseType
  if node.kind ∈ callableNodeKinds then
    requireField node "operation" node.operation
    requireField node "request_type" node.requestType
    requireField node "response_type" node.responseType
  return nodes ++ [node]

def edgeKindNumber : EdgeKind → Int
  | .unspecified => 0
  | .control => 1
  | .data => 2
  | .conditional => 3
  | .loopBack => 4
  | .unrecognized number => number

def edgeIdentity (edge : PlanEdge) : String :=
  edge.sourceNodeID ++ "\x00" ++ edge.targetNodeID ++ "\x00" ++ toString (edgeKindNumber edge.kind) ++
    "\x00" ++ edge.label

structure EdgeState where
  edgeIdentities : List String
  conditionalLabels : String → List String
  dataTargets : List String
  forwardTargets : String → List String

def EdgeState.empty : EdgeState := ⟨[], fun _ => [], [], fun _ => []⟩

def checkEdge (nodes : NodeMap) (state : EdgeState) (edge : PlanEdge) : Except PlanError EdgeState := do
  validateIdentifier "source_node_id" edge.sourceNodeID
  validateIdentifier "target_node_id" edge.targetNodeID
  if utf8Length edge.label > 256 then
    throw (.badField "" "label")
  if edge.kind ∉ edgeKinds then
    throw (.badField "" "kind")
  if edgeIdentity edge ∈ state.edgeIdentities then
    throw (.duplicateEdge edge)
  let mut state := { state with edgeIdentities := edgeIdentity edge :: state.edgeIdentities }
  let some source := nodes.get edge.sourceNodeID | throw (.unknownSource edge.sourceNodeID)
  let some target := nodes.get edge.targetNodeID | throw (.unknownTarget edge.targetNodeID)
  if edge.kind = .conditional ∧ utf16Length edge.label = 0 then
    throw (.labelRequired edge)
  if edge.kind = .conditional then
    if source.kind ≠ .branch then
      throw (.notFromBranch edge)
    if edge.label ∈ state.conditionalLabels edge.sourceNodeID then
      throw (.duplicateLabel edge.sourceNodeID edge.label)
    state := { state with
      conditionalLabels := Function.update state.conditionalLabels edge.sourceNodeID
        (edge.label :: state.conditionalLabels edge.sourceNodeID) }
  if edge.kind = .data then
    if source.kind ∉ callableNodeKinds ∨ target.kind ∉ callableNodeKinds then
      throw (.dataEndpoints edge)
    if utf16Length source.responseType = 0 ∨ utf16Length target.requestType = 0 ∨
        source.responseType ≠ target.requestType then
      throw (.dataTypes edge)
    if edge.targetNodeID ∈ state.dataTargets then
      throw (.secondDataEdge edge.targetNodeID)
    state := { state with dataTargets := edge.targetNodeID :: state.dataTargets }
  if edge.kind = .loopBack ∧ source.kind ≠ .loop ∧ target.kind ≠ .loop then
    throw (.loopBackWithoutLoop edge)
  if edge.kind ≠ .loopBack then
    return { state with
      forwardTargets := Function.update state.forwardTargets edge.sourceNodeID
        (state.forwardTargets edge.sourceNodeID ++ [edge.targetNodeID]) }
  return state

def countIndegree (ids : List String) (targets : String → List String) : String → Int :=
  (ids.flatMap targets).foldl
    (fun indegree target => Function.update indegree target (indegree target + 1)) fun _ => 0

def assertAcyclicForwardGraph (ids : List String) (targets : String → List String) :
    Option (Except PlanError Unit) :=
  let indegree := countIndegree ids targets
  let ready := ids.filter (indegree · = 0)
  (drain popLast targets ids.length ⟨indegree, ready⟩ 0).map (checkVisited ids.length)

def gatherGraph (plan : WorkflowPlan) : Except PlanError (NodeMap × EdgeState) := do
  validateIdentifier "plan_id" plan.planID
  if plan.revision.toNat = 0 then
    throw (.badField "" "revision")
  if plan.revision.toNat > 0xffffffffffffffff then
    throw (.badField "" "revision")
  if plan.nodes.length = 0 then
    throw (.badField "" "nodes")
  if plan.nodes.length > 64 then
    throw .tooManyNodes
  if plan.edges.length > 128 then
    throw .tooManyEdges
  validateAnnotations "plan" plan.annotations 64
  let nodes ← plan.nodes.foldlM collectNode []
  let state ← plan.edges.foldlM (checkEdge nodes) .empty
  return (nodes, state)

def validateWorkflowPlan (plan : WorkflowPlan) : Option (Except PlanError Unit) :=
  match gatherGraph plan with
  | .error err => some (.error err)
  | .ok (nodes, state) => assertAcyclicForwardGraph nodes.ids state.forwardTargets

end Temporaless.Visualization.TypeScript
