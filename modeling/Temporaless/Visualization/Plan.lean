import Temporaless.Storage.Keys

/-!
# Workflow plans

A plan is a graph that user interfaces draw. `WorkflowPlan.fieldsOk` are the constraints that
`temporaless.proto` declares on its fields, `WellFormed` the rules for the graph as a whole.
-/

namespace Temporaless.Visualization

inductive NodeKind where
  | unspecified | activity | branch | fanOut | loop | sleep | waitEvent | waitWorkflow
  | unrecognized (number : Int)
  deriving DecidableEq, Repr

inductive EdgeKind where
  | unspecified | control | data | conditional | loopBack
  | unrecognized (number : Int)
  deriving DecidableEq, Repr

abbrev Annotations := List (String × String)

structure PlanNode where
  nodeID : String
  displayName : String
  description : String
  kind : NodeKind
  operation : String
  requestType : String
  responseType : String
  annotations : Annotations
  deriving DecidableEq, Repr

structure PlanEdge where
  sourceNodeID : String
  targetNodeID : String
  kind : EdgeKind
  label : String
  deriving DecidableEq, Repr

structure WorkflowPlan where
  planID : String
  revision : UInt64
  nodes : List PlanNode
  edges : List PlanEdge
  annotations : Annotations
  deriving DecidableEq, Repr

def NodeKind.callable : NodeKind → Bool
  | .activity | .branch => true
  | _ => false

/-- `defined_only` without the zero value. -/
def NodeKind.defined : NodeKind → Bool
  | .unspecified | .unrecognized _ => false
  | _ => true

def EdgeKind.defined : EdgeKind → Bool
  | .unspecified | .unrecognized _ => false
  | _ => true

def identifierOk (s : String) : Bool :=
  1 ≤ s.length && s.length ≤ 256 && s != "" && s.toList.all segmentChar && s != "." && s != ".."

def bytesOk (limit : Nat) (s : String) : Bool := s.utf8ByteSize ≤ limit

def nameStart (c : Char) : Bool := c.isAlpha || c == '_'

def nameChar (c : Char) : Bool := c.isAlphanum || c == '_'

def nameSegment : List Char → Bool
  | [] => false
  | c :: rest => nameStart c && rest.all nameChar

/-- `^[A-Za-z_][A-Za-z_0-9]*(\.[A-Za-z_][A-Za-z_0-9]*)*$` -/
def isFullName (s : String) : Bool := (s.toList.splitOn '.').all nameSegment

def typeNameOk (s : String) : Bool := bytesOk 512 s && (s == "" || isFullName s)

def annotationsOk (limit : Nat) (annotations : Annotations) : Bool :=
  annotations.length ≤ limit && annotations.all fun entry =>
    bytesOk 128 entry.1 && entry.1 != "__proto__" && bytesOk 1024 entry.2

def PlanNode.fieldsOk (node : PlanNode) : Bool :=
  identifierOk node.nodeID && 1 ≤ node.displayName.length && bytesOk 256 node.displayName &&
    bytesOk 4096 node.description && node.kind.defined && bytesOk 512 node.operation &&
    typeNameOk node.requestType && typeNameOk node.responseType && annotationsOk 32 node.annotations

def PlanEdge.fieldsOk (edge : PlanEdge) : Bool :=
  identifierOk edge.sourceNodeID && identifierOk edge.targetNodeID && edge.kind.defined &&
    bytesOk 256 edge.label

def WorkflowPlan.fieldsOk (plan : WorkflowPlan) : Bool :=
  identifierOk plan.planID && 0 < plan.revision && 1 ≤ plan.nodes.length && plan.nodes.length ≤ 64 &&
    plan.nodes.all PlanNode.fieldsOk && plan.edges.length ≤ 128 && plan.edges.all PlanEdge.fieldsOk &&
    annotationsOk 64 plan.annotations

theorem WorkflowPlan.fieldsOk_iff {plan : WorkflowPlan} : plan.fieldsOk = true ↔
    identifierOk plan.planID = true ∧ 0 < plan.revision ∧ 1 ≤ plan.nodes.length ∧
      plan.nodes.length ≤ 64 ∧ (∀ node ∈ plan.nodes, node.fieldsOk = true) ∧
      plan.edges.length ≤ 128 ∧ (∀ edge ∈ plan.edges, edge.fieldsOk = true) ∧
      annotationsOk 64 plan.annotations = true := by
  simp [WorkflowPlan.fieldsOk, and_assoc]

theorem PlanNode.fieldsOk_iff {node : PlanNode} : node.fieldsOk = true ↔
    identifierOk node.nodeID = true ∧ 1 ≤ node.displayName.length ∧
      bytesOk 256 node.displayName = true ∧ bytesOk 4096 node.description = true ∧
      node.kind.defined = true ∧ bytesOk 512 node.operation = true ∧
      typeNameOk node.requestType = true ∧ typeNameOk node.responseType = true ∧
      annotationsOk 32 node.annotations = true := by
  simp [PlanNode.fieldsOk, and_assoc]

theorem PlanEdge.fieldsOk_iff {edge : PlanEdge} : edge.fieldsOk = true ↔
    identifierOk edge.sourceNodeID = true ∧ identifierOk edge.targetNodeID = true ∧
      edge.kind.defined = true ∧ bytesOk 256 edge.label = true := by
  simp [PlanEdge.fieldsOk, and_assoc]

theorem plain_of_identifierOk {s : String} (h : identifierOk s = true) : Plain s := by
  simp only [identifierOk, Bool.and_eq_true, bne_iff_ne] at h
  exact ⟨h.1.1.1.2, h.1.1.2⟩

def WorkflowPlan.Forward (plan : WorkflowPlan) (source target : String) : Prop :=
  ∃ edge ∈ plan.edges, edge.kind ≠ .loopBack ∧ edge.sourceNodeID = source ∧ edge.targetNodeID = target

/-- The rules of a plan, stated of its nodes and edges. -/
structure WellFormed (plan : WorkflowPlan) : Prop where
  distinct : (plan.nodes.map PlanNode.nodeID).Nodup
  callable : ∀ node ∈ plan.nodes, node.kind.callable = true →
    node.operation ≠ "" ∧ node.requestType ≠ "" ∧ node.responseType ≠ ""
  joined : ∀ edge ∈ plan.edges, (∃ source ∈ plan.nodes, source.nodeID = edge.sourceNodeID) ∧
    ∃ target ∈ plan.nodes, target.nodeID = edge.targetNodeID
  edges : plan.edges.Nodup
  conditional : ∀ edge ∈ plan.edges, edge.kind = .conditional → edge.label ≠ "" ∧
    ∀ source ∈ plan.nodes, source.nodeID = edge.sourceNodeID → source.kind = .branch
  labels : plan.edges.Pairwise fun left right => left.kind = .conditional → right.kind = .conditional →
    left.sourceNodeID = right.sourceNodeID → left.label ≠ right.label
  data : ∀ edge ∈ plan.edges, edge.kind = .data →
    ∀ source ∈ plan.nodes, source.nodeID = edge.sourceNodeID →
    ∀ target ∈ plan.nodes, target.nodeID = edge.targetNodeID →
      source.kind.callable = true ∧ target.kind.callable = true ∧
        source.responseType = target.requestType
  dataTargets : plan.edges.Pairwise fun left right => left.kind = .data → right.kind = .data →
    left.targetNodeID ≠ right.targetNodeID
  loopBack : ∀ edge ∈ plan.edges, edge.kind = .loopBack →
    ∀ source ∈ plan.nodes, source.nodeID = edge.sourceNodeID →
    ∀ target ∈ plan.nodes, target.nodeID = edge.targetNodeID →
      source.kind = .loop ∨ target.kind = .loop
  acyclic : ∀ id, ¬ Relation.TransGen plan.Forward id id

end Temporaless.Visualization
