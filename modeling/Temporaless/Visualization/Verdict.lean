import Temporaless.Framework.Loop
import Temporaless.Framework.Separated
import Temporaless.Visualization.Validators

/-!
# The verdict of the validators

Each validator accepts exactly the well-formed plans. Its loops accept what the rules for single nodes
and edges and for pairs of them allow, and the graph they leave is the one of the forward edges.
-/

namespace Temporaless.Visualization

open Topological

section Nodes

variable {nodes : NodeMap} {node : PlanNode} {id : String}

def Callable (node : PlanNode) : Prop :=
  node.kind.callable = true → node.operation ≠ "" ∧ node.requestType ≠ "" ∧ node.responseType ≠ ""

theorem get_eq_none : nodes.get id = none ↔ id ∉ nodes.ids := by
  simp [NodeMap.get, NodeMap.ids]

theorem get_eq_some (h : nodes.ids.Nodup) :
    nodes.get id = some node ↔ node ∈ nodes ∧ node.nodeID = id := by
  constructor
  · intro hget
    exact ⟨List.mem_of_find?_eq_some hget, by simpa using List.find?_some hget⟩
  · intro hnode
    obtain ⟨hmem, rfl⟩ := hnode
    obtain ⟨found, hget⟩ : ∃ found, nodes.get node.nodeID = some found := by
      apply Option.ne_none_iff_exists'.1
      rw [Ne, get_eq_none, not_not]
      exact List.mem_map_of_mem hmem
    have hfound : found ∈ nodes ∧ found.nodeID = node.nodeID :=
      ⟨List.mem_of_find?_eq_some hget, by simpa using List.find?_some hget⟩
    rw [hget, List.inj_on_of_nodup_map h hfound.1 hmem hfound.2]

theorem collectNode_eq_ok (nodes : NodeMap) (node : PlanNode) (nodes' : NodeMap) :
    collectNode nodes node = .ok nodes' ↔
      (node.nodeID ∉ nodes.ids ∧ Callable node) ∧ nodes ++ [node] = nodes' := by
  rw [← get_eq_none, Callable]
  unfold collectNode
  cases nodes.get node.nodeID <;> cases node.kind.callable <;>
    by_cases hoperation : node.operation = "" <;> by_cases hrequest : node.requestType = "" <;>
    by_cases hresponse : node.responseType = "" <;>
    simp [hoperation, hrequest, hresponse, bind, Except.bind, throw, throwThe, MonadExceptOf.throw, pure,
      Except.pure]

end Nodes

section Edges

def Fits (nodes : NodeMap) (edge : PlanEdge) : Prop :=
  ∃ source target, nodes.get edge.sourceNodeID = some source ∧
    nodes.get edge.targetNodeID = some target ∧
    (edge.kind = .conditional → edge.label ≠ "" ∧ source.kind = .branch) ∧
    (edge.kind = .data → source.kind.callable = true ∧ target.kind.callable = true ∧
      source.responseType ≠ "" ∧ target.requestType ≠ "" ∧ source.responseType = target.requestType) ∧
    (edge.kind = .loopBack → source.kind = .loop ∨ target.kind = .loop)

/-- What an edge must not share with an earlier one. -/
structure Apart (earlier edge : PlanEdge) : Prop where
  edges : earlier ≠ edge
  labels : earlier.kind = .conditional → edge.kind = .conditional →
    earlier.sourceNodeID = edge.sourceNodeID → earlier.label ≠ edge.label
  dataTargets : earlier.kind = .data → edge.kind = .data → earlier.targetNodeID ≠ edge.targetNodeID

def identity (edge : PlanEdge) : String × String × EdgeKind × String :=
  (edge.sourceNodeID, edge.targetNodeID, edge.kind, edge.label)

/-- The edge is not in conflict with those that are in the sets. -/
@[mk_iff]
structure Fresh (state : EdgeState) (edge : PlanEdge) : Prop where
  edges : identity edge ∉ state.seenEdges
  labels : edge.kind = .conditional → (edge.sourceNodeID, edge.label) ∉ state.conditionalLabels
  dataTargets : edge.kind = .data → edge.targetNodeID ∉ state.dataTargets

def note (state : EdgeState) (edge : PlanEdge) : EdgeState :=
  { state with
    seenEdges := identity edge :: state.seenEdges
    conditionalLabels := if edge.kind = .conditional then
      (edge.sourceNodeID, edge.label) :: state.conditionalLabels else state.conditionalLabels
    dataTargets := if edge.kind = .data then edge.targetNodeID :: state.dataTargets
      else state.dataTargets }

def link (state : EdgeState) (edge : PlanEdge) : EdgeState :=
  { state with
    adjacency := Function.update state.adjacency edge.sourceNodeID
      (state.adjacency edge.sourceNodeID ++ [edge.targetNodeID])
    indegree := Function.update state.indegree edge.targetNodeID
      (state.indegree edge.targetNodeID + 1) }

def addEdge (state : EdgeState) (edge : PlanEdge) : EdgeState :=
  if edge.kind = .loopBack then note state edge else link (note state edge) edge

theorem checkEdge_eq_ok (nodes : NodeMap) (state : EdgeState) (edge : PlanEdge) (state' : EdgeState) :
    checkEdge nodes state edge = .ok state' ↔
      (Fits nodes edge ∧ Fresh state edge) ∧ addEdge state edge = state' := by
  unfold checkEdge
  simp only [bind, Except.bind, throw, throwThe, MonadExceptOf.throw, pure, Except.pure,
    Loop.guard_eq_ok]
  cases hsource : nodes.get edge.sourceNodeID with
  | none => simp [Fits, hsource]
  | some source =>
    cases htarget : nodes.get edge.targetNodeID with
    | none => simp [Fits, hsource, htarget]
    | some target =>
      cases hkind : edge.kind <;>
        simp [Fits, fresh_iff, hsource, htarget, hkind, addEdge, note, link, identity,
          Loop.guard_eq_ok, Loop.unless_eq_ok, and_assoc] <;> tauto

def Python.addEdge (state : EdgeState) (edge : PlanEdge) : EdgeState :=
  if edge.kind ∈ [EdgeKind.control, .data, .conditional] ∧
      edge.targetNodeID ∉ state.adjacency edge.sourceNodeID then link (note state edge) edge
  else note state edge

theorem Python.collectNode_eq_ok (nodes : NodeMap) (node : PlanNode) (nodes' : NodeMap) :
    Python.collectNode nodes node = .ok nodes' ↔
      (node.nodeID ∉ nodes.ids ∧ Callable node) ∧ nodes ++ [node] = nodes' := by
  rw [← get_eq_none, Callable]
  unfold Python.collectNode
  cases nodes.get node.nodeID <;> cases node.kind.callable <;>
    by_cases hoperation : node.operation = "" <;> by_cases hrequest : node.requestType = "" <;>
    by_cases hresponse : node.responseType = "" <;>
    simp [hoperation, hrequest, hresponse, bind, Except.bind, throw, throwThe, MonadExceptOf.throw, pure,
      Except.pure]

theorem Python.checkEdge_eq_ok (nodes : NodeMap) (state : EdgeState) (edge : PlanEdge)
    (state' : EdgeState) : Python.checkEdge nodes state edge = .ok state' ↔
      (Fits nodes edge ∧ Fresh state edge) ∧ Python.addEdge state edge = state' := by
  unfold Python.checkEdge
  simp only [bind, Except.bind, throw, throwThe, MonadExceptOf.throw, pure, Except.pure]
  cases hsource : nodes.get edge.sourceNodeID with
  | none => simp [Fits, hsource]
  | some source =>
    cases htarget : nodes.get edge.targetNodeID with
    | none => simp [Fits, hsource, htarget]
    | some target =>
      by_cases hknown : edge.targetNodeID ∈ state.adjacency edge.sourceNodeID <;>
        cases hkind : edge.kind <;>
        simp [Fits, fresh_iff, hsource, htarget, hkind, hknown, Python.addEdge, note, link, identity,
          Loop.guard_eq_ok, Loop.unless_eq_ok, and_assoc] <;> tauto

end Edges

section Loops

variable {nodes : NodeMap} {edges before : List PlanEdge} {edge : PlanEdge}

theorem foldlM_nodes {collect : NodeMap → PlanNode → Except PlanError NodeMap} {list : List PlanNode}
    (hcollect : ∀ node ∈ list, ∀ nodes nodes', collect nodes node = .ok nodes' ↔
      (node.nodeID ∉ nodes.ids ∧ Callable node) ∧ nodes ++ [node] = nodes') :
    list.foldlM collect [] = .ok nodes ↔
      list = nodes ∧ (list.map PlanNode.nodeID).Nodup ∧ ∀ node ∈ list, Callable node := by
  have hgather : ∀ l : List PlanNode, l.foldl (fun nodes node => nodes ++ [node]) [] = l := by
    intro l
    induction l using List.reverseRecOn with
    | nil => rfl
    | append_singleton l node ih => rw [List.foldl_append, ih]; rfl
  rw [Loop.foldlM_eq_ok hcollect]
  simp only [hgather, ← Loop.forall_middle_iff (p := Callable)]
  rw [List.Nodup, List.pairwise_map, ← Loop.forall_before_iff_pairwise]
  apply and_congr_right
  intro _
  constructor
  · intro h
    refine ⟨?_, fun before node after heq => (h before node after heq).2⟩
    intro before node after heq earlier hearlier hsame
    exact (h before node after heq).1 (List.mem_map.2 ⟨earlier, hearlier, hsame⟩)
  · intro h before node after heq
    refine ⟨?_, h.2 before node after heq⟩
    intro hmem
    obtain ⟨earlier, hearlier, hsame⟩ := List.mem_map.1 hmem
    exact h.1 before node after heq earlier hearlier hsame

structure EdgesFit (nodes : NodeMap) (edges : List PlanEdge) : Prop where
  fits : ∀ edge ∈ edges, Fits nodes edge
  apart : edges.Pairwise Apart

/-- A loop whose state tells which edges were seen accepts the edges that follow the rules. -/
theorem foldlM_edges {σ : Type} {check : σ → PlanEdge → Except PlanError σ} {add : σ → PlanEdge → σ}
    {logged : List PlanEdge → σ → Prop} {fresh : σ → PlanEdge → Prop} {start state : σ}
    (hstart : logged [] start) (hadd : ∀ before state edge, logged before state →
      logged (before ++ [edge]) (add state edge))
    (hcheck : ∀ edge ∈ edges, ∀ state state', check state edge = .ok state' ↔
      (Fits nodes edge ∧ fresh state edge) ∧ add state edge = state')
    (hfresh : ∀ before edge state, before ++ [edge] ⊆ edges → logged before state →
      (fresh state edge ↔ ∀ earlier ∈ before, Apart earlier edge)) :
    edges.foldlM check start = .ok state ↔ edges.foldl add start = state ∧ EdgesFit nodes edges := by
  have hlogged : ∀ before, logged before (before.foldl add start) := by
    intro before
    induction before using List.reverseRecOn with
    | nil => exact hstart
    | append_singleton before edge ih =>
      rw [List.foldl_append]
      exact hadd before _ edge ih
  have hturn : ∀ before edge after, edges = before ++ edge :: after →
      (fresh (before.foldl add start) edge ↔ ∀ earlier ∈ before, Apart earlier edge) := by
    intro before edge after heq
    apply hfresh before edge _ _ (hlogged before)
    intro e he
    rw [heq]
    rcases List.mem_append.1 he with hmem | hmem
    · exact List.mem_append_left _ hmem
    · rw [List.mem_singleton.1 hmem]
      simp
  rw [Loop.foldlM_eq_ok hcheck]
  apply and_congr_right
  intro _
  constructor
  · intro h
    refine ⟨Loop.forall_middle_iff.1 fun before edge after heq => (h before edge after heq).1,
      Loop.forall_before_iff_pairwise.1 ?_⟩
    intro before edge after heq
    exact (hturn before edge after heq).1 (h before edge after heq).2
  · intro h before edge after heq
    refine ⟨h.fits edge (by simp [heq]), (hturn before edge after heq).2 ?_⟩
    exact Loop.forall_before_iff_pairwise.2 h.apart before edge after heq

theorem fresh_iff_apart {seen : Prop} {labels : String → String → Prop} {targets : String → Prop}
    (hseen : seen ↔ edge ∈ before) (hlabels : ∀ id label, labels id label ↔
      ∃ edge ∈ before, edge.kind = .conditional ∧ edge.sourceNodeID = id ∧ edge.label = label)
    (htargets : ∀ id, targets id ↔ ∃ edge ∈ before, edge.kind = .data ∧ edge.targetNodeID = id) :
    (¬ seen ∧ (edge.kind = .conditional → ¬ labels edge.sourceNodeID edge.label) ∧
      (edge.kind = .data → ¬ targets edge.targetNodeID)) ↔ ∀ earlier ∈ before, Apart earlier edge := by
  rw [hseen]
  constructor
  · intro hfresh earlier hearlier
    obtain ⟨hnew, hlabel, htarget⟩ := hfresh
    refine ⟨fun heq => hnew (heq ▸ hearlier), ?_, ?_⟩
    · intro hkind hkind' hsource hsame
      exact hlabel hkind' ((hlabels _ _).2 ⟨earlier, hearlier, hkind, hsource, hsame⟩)
    · intro hkind hkind' hsame
      exact htarget hkind' ((htargets _).2 ⟨earlier, hearlier, hkind, hsame⟩)
  · intro hapart
    refine ⟨fun hmem => (hapart edge hmem).edges rfl, ?_, ?_⟩
    · intro hkind hmem
      obtain ⟨earlier, hearlier, hkind', hsource, hsame⟩ := (hlabels _ _).1 hmem
      exact (hapart earlier hearlier).labels hkind' hkind hsource hsame
    · intro hkind hmem
      obtain ⟨earlier, hearlier, hkind', hsame⟩ := (htargets _).1 hmem
      exact (hapart earlier hearlier).dataTargets hkind' hkind hsame

structure Logged (edges : List PlanEdge) (state : EdgeState) : Prop where
  seen : ∀ edge, identity edge ∈ state.seenEdges ↔ edge ∈ edges
  labels : ∀ id label, (id, label) ∈ state.conditionalLabels ↔
    ∃ edge ∈ edges, edge.kind = .conditional ∧ edge.sourceNodeID = id ∧ edge.label = label
  dataTargets : ∀ id, id ∈ state.dataTargets ↔
    ∃ edge ∈ edges, edge.kind = .data ∧ edge.targetNodeID = id

theorem identity_inj {left right : PlanEdge} : identity left = identity right ↔ left = right := by
  cases left
  cases right
  simp [identity]

theorem logged_empty : Logged [] .empty := by
  constructor <;> simp [EdgeState.empty]

theorem Logged.note {state : EdgeState} (h : Logged before state) (edge : PlanEdge) :
    Logged (before ++ [edge]) (note state edge) := by
  constructor
  · intro other
    simp [Visualization.note, identity_inj, h.seen, or_comm]
  · intro id label
    by_cases hkind : edge.kind = .conditional
    · simp [Visualization.note, hkind, h.labels, or_and_right, exists_or, or_comm, eq_comm]
    · simp [Visualization.note, hkind, h.labels, or_and_right, exists_or]
  · intro id
    by_cases hkind : edge.kind = .data
    · simp [Visualization.note, hkind, h.dataTargets, or_and_right, exists_or, or_comm, eq_comm]
    · simp [Visualization.note, hkind, h.dataTargets, or_and_right, exists_or]

theorem Logged.fresh {state : EdgeState} (h : Logged before state) (edge : PlanEdge) :
    Fresh state edge ↔ ∀ earlier ∈ before, Apart earlier edge := by
  rw [fresh_iff]
  exact fresh_iff_apart (h.seen edge) h.labels h.dataTargets

theorem Logged.addEdge {state : EdgeState} (h : Logged before state) (edge : PlanEdge) :
    Logged (before ++ [edge]) (addEdge state edge) := by
  rw [Visualization.addEdge]
  split
  · exact h.note edge
  · exact ⟨(h.note edge).seen, (h.note edge).labels, (h.note edge).dataTargets⟩

theorem Logged.addEdgePython {state : EdgeState} (h : Logged before state) (edge : PlanEdge) :
    Logged (before ++ [edge]) (Python.addEdge state edge) := by
  rw [Python.addEdge]
  split
  · exact ⟨(h.note edge).seen, (h.note edge).labels, (h.note edge).dataTargets⟩
  · exact h.note edge

theorem foldlM_checkEdge {state : EdgeState} : edges.foldlM (checkEdge nodes) .empty = .ok state ↔
    edges.foldl addEdge .empty = state ∧ EdgesFit nodes edges :=
  foldlM_edges logged_empty (fun _ _ edge h => h.addEdge edge)
    (fun edge _ state state' => checkEdge_eq_ok nodes state edge state')
    fun _ edge _ _ h => h.fresh edge

theorem Python.foldlM_checkEdge {state : EdgeState} :
    edges.foldlM (Python.checkEdge nodes) .empty = .ok state ↔
      edges.foldl Python.addEdge .empty = state ∧ EdgesFit nodes edges :=
  foldlM_edges logged_empty (fun _ _ edge h => h.addEdgePython edge)
    (fun edge _ state state' => Python.checkEdge_eq_ok nodes state edge state')
    fun _ edge _ _ h => h.fresh edge

end Loops

section Graph

variable {ids : List String} {edges before : List PlanEdge} {edge : PlanEdge} {state : EdgeState}

def Joins (edges : List PlanEdge) (targets : String → List String) : Prop :=
  ∀ source target, target ∈ targets source ↔
    ∃ edge ∈ edges, edge.kind ≠ .loopBack ∧ edge.sourceNodeID = source ∧ edge.targetNodeID = target

theorem joins_empty : Joins [] fun _ => [] := by
  simp [Joins]

theorem Joins.skip {targets : String → List String} (h : Joins before targets)
    (hskip : edge.kind ≠ .loopBack → edge.targetNodeID ∈ targets edge.sourceNodeID) :
    Joins (before ++ [edge]) targets := by
  intro source target
  constructor
  · intro hmem
    obtain ⟨e, he, hedge⟩ := (h source target).1 hmem
    exact ⟨e, by simp [he], hedge⟩
  · intro hedge
    obtain ⟨e, he, hkind, rfl, rfl⟩ := hedge
    rcases List.mem_append.1 he with hmem | hmem
    · exact (h _ _).2 ⟨e, hmem, hkind, rfl, rfl⟩
    · obtain rfl := List.mem_singleton.1 hmem
      exact hskip hkind

theorem Joins.update {targets : String → List String} (h : Joins before targets)
    (hkind : edge.kind ≠ .loopBack) : Joins (before ++ [edge]) (Function.update targets
      edge.sourceNodeID (targets edge.sourceNodeID ++ [edge.targetNodeID])) := by
  intro source target
  simp only [List.mem_append, List.mem_singleton, or_and_right, exists_or, exists_eq_left, hkind,
    ne_eq, not_false_eq_true, true_and]
  rw [← h]
  by_cases hsame : source = edge.sourceNodeID
  · subst hsame
    simp [eq_comm]
  · have hne : edge.sourceNodeID ≠ source := fun heq => hsame heq.symm
    simp [Function.update_of_ne hsame, hne]

structure Linked (ids : List String) (edges : List PlanEdge) (state : EdgeState) : Prop where
  adjacency : Joins edges state.adjacency
  indegree : ∀ id, state.indegree id = indegree ids state.adjacency id

theorem linked_empty (ids : List String) : Linked ids [] .empty := by
  refine ⟨joins_empty, ?_⟩
  intro id
  exact (indegree_empty id).symm

theorem Linked.skip (h : Linked ids before state)
    (hskip : edge.kind ≠ .loopBack → edge.targetNodeID ∈ state.adjacency edge.sourceNodeID) :
    Linked ids (before ++ [edge]) state := ⟨h.adjacency.skip hskip, h.indegree⟩

theorem Linked.link (hnodup : ids.Nodup) (h : Linked ids before state) (hkind : edge.kind ≠ .loopBack)
    (hsource : edge.sourceNodeID ∈ ids) : Linked ids (before ++ [edge]) (link state edge) := by
  refine ⟨h.adjacency.update hkind, ?_⟩
  intro id
  rw [Visualization.link, indegree_update hnodup hsource, ← h.indegree]
  by_cases hsame : id = edge.targetNodeID
  · subst hsame
    simp
  · simp [hsame]

theorem Linked.note (h : Linked ids before state) (edge : PlanEdge) :
    Linked ids before (note state edge) := ⟨h.adjacency, h.indegree⟩

theorem Linked.addEdge (hnodup : ids.Nodup) (h : Linked ids before state)
    (hsource : edge.sourceNodeID ∈ ids) : Linked ids (before ++ [edge]) (addEdge state edge) := by
  rw [Visualization.addEdge]
  split
  · next hkind => exact (h.note edge).skip fun hne => absurd hkind hne
  · next hkind => exact (h.note edge).link hnodup hkind hsource

theorem Linked.addEdgePython (hnodup : ids.Nodup) (h : Linked ids before state)
    (hsource : edge.sourceNodeID ∈ ids) (hdefined : edge.kind.defined = true) :
    Linked ids (before ++ [edge]) (Python.addEdge state edge) := by
  rw [Python.addEdge]
  split
  · next hnew =>
      refine (h.note edge).link hnodup ?_ hsource
      intro hkind
      rw [hkind] at hnew
      simp at hnew
  · next hold =>
      apply (h.note edge).skip
      intro hkind
      by_contra hmem
      apply hold
      refine ⟨?_, hmem⟩
      cases hkind' : edge.kind <;> simp_all [EdgeKind.defined]

theorem linked_foldl {add : EdgeState → PlanEdge → EdgeState}
    (hadd : ∀ before, ∀ edge ∈ edges, ∀ state, Linked ids before state →
      Linked ids (before ++ [edge]) (add state edge)) : Linked ids edges (edges.foldl add .empty) := by
  induction edges using List.reverseRecOn with
  | nil => exact linked_empty ids
  | append_singleton edges edge ih =>
    rw [List.foldl_append]
    refine hadd edges edge (by simp) _ (ih ?_)
    intro before e he
    exact hadd before e (by simp [he])

theorem Fits.source_mem {nodes : NodeMap} (h : Fits nodes edge) : edge.sourceNodeID ∈ nodes.ids := by
  obtain ⟨source, -, hsource, -⟩ := h
  by_contra hmem
  rw [get_eq_none.2 hmem] at hsource
  cases hsource

theorem Fits.target_mem {nodes : NodeMap} (h : Fits nodes edge) : edge.targetNodeID ∈ nodes.ids := by
  obtain ⟨-, target, -, htarget, -⟩ := h
  by_contra hmem
  rw [get_eq_none.2 hmem] at htarget
  cases htarget

end Graph

section Verdict

variable {plan : WorkflowPlan}

theorem wellFormed_iff : WellFormed plan ↔ (plan.nodes.map PlanNode.nodeID).Nodup ∧
    (∀ node ∈ plan.nodes, Callable node) ∧ EdgesFit plan.nodes plan.edges ∧
    ∀ id, ¬ Relation.TransGen plan.Forward id id := by
  constructor
  · intro h
    refine ⟨h.distinct, h.callable, ⟨?_, ?_⟩, h.acyclic⟩
    · intro edge hedge
      obtain ⟨⟨source, hsource, hsourceID⟩, target, htarget, htargetID⟩ := h.joined edge hedge
      refine ⟨source, target, (get_eq_some h.distinct).2 ⟨hsource, hsourceID⟩,
        (get_eq_some h.distinct).2 ⟨htarget, htargetID⟩, ?_, ?_, ?_⟩
      · intro hkind
        obtain ⟨hlabel, hbranch⟩ := h.conditional edge hedge hkind
        exact ⟨hlabel, hbranch source hsource hsourceID⟩
      · intro hkind
        obtain ⟨hcallable, hcallable', htypes⟩ :=
          h.data edge hedge hkind source hsource hsourceID target htarget htargetID
        exact ⟨hcallable, hcallable', (h.callable source hsource hcallable).2.2,
          (h.callable target htarget hcallable').2.1, htypes⟩
      · intro hkind
        exact h.loopBack edge hedge hkind source hsource hsourceID target htarget htargetID
    · have hedges : plan.edges.Pairwise (· ≠ ·) := h.edges
      apply (hedges.and (h.labels.and h.dataTargets)).imp
      intro left right hboth
      exact ⟨hboth.1, hboth.2.1, hboth.2.2⟩
  · intro h
    obtain ⟨hdistinct, hcallable, hedges, hacyclic⟩ := h
    have hget : ∀ node ∈ plan.nodes, ∀ id found, node.nodeID = id →
        NodeMap.get plan.nodes id = some found → found = node := by
      intro node hnode id found hid hfound
      rw [(get_eq_some hdistinct).2 ⟨hnode, hid⟩] at hfound
      exact (Option.some.inj hfound).symm
    constructor
    · exact hdistinct
    · exact hcallable
    · intro edge hedge
      have hfits := hedges.fits edge hedge
      exact ⟨List.mem_map.1 hfits.source_mem, List.mem_map.1 hfits.target_mem⟩
    · exact hedges.apart.imp fun h => h.edges
    · intro edge hedge hkind
      obtain ⟨source, target, hsource, -, hconditional, -⟩ := hedges.fits edge hedge
      refine ⟨(hconditional hkind).1, ?_⟩
      intro node hnode hid
      rw [← hget node hnode _ _ hid hsource]
      exact (hconditional hkind).2
    · exact hedges.apart.imp fun h => h.labels
    · intro edge hedge hkind node hnode hid node' hnode' hid'
      obtain ⟨source, target, hsource, htarget, -, hdata, -⟩ := hedges.fits edge hedge
      rw [← hget node hnode _ _ hid hsource, ← hget node' hnode' _ _ hid' htarget]
      obtain ⟨hcallable, hcallable', -, -, htypes⟩ := hdata hkind
      exact ⟨hcallable, hcallable', htypes⟩
    · exact hedges.apart.imp fun h => h.dataTargets
    · intro edge hedge hkind node hnode hid node' hnode' hid'
      obtain ⟨source, target, hsource, htarget, -, -, hloop⟩ := hedges.fits edge hedge
      rw [← hget node hnode _ _ hid hsource, ← hget node' hnode' _ _ hid' htarget]
      exact hloop hkind
    · exact hacyclic

theorem drain_forward (hdistinct : (NodeMap.ids plan.nodes).Nodup)
    (hfits : ∀ edge ∈ plan.edges, Fits plan.nodes edge)
    {pop : List String → Option (String × List String)}
    (hpops : Pops pop) {targets : String → List String} (htargets : Joins plan.edges targets)
    {degree : String → Int}
    (hdegree : ∀ id, degree id = indegree (NodeMap.ids plan.nodes) targets id) {ready : List String}
    (hready : ready.Perm ((NodeMap.ids plan.nodes).filter (degree · = 0))) :
    ∃ visited, drain pop targets (NodeMap.ids plan.nodes).length ⟨degree, ready⟩ 0 = some visited ∧
      (checkVisited plan.nodes.length visited = .ok () ↔
        ∀ id, ¬ Relation.TransGen plan.Forward id id) := by
  have hedge : Edge (NodeMap.ids plan.nodes) targets = plan.Forward := by
    funext source target
    rw [Edge, htargets, eq_iff_iff]
    constructor
    · intro h
      exact h.2
    · intro h
      refine ⟨?_, h⟩
      obtain ⟨edge, hmem, -, rfl, -⟩ := h
      exact (hfits edge hmem).source_mem
  have hclosed : ∀ source ∈ NodeMap.ids plan.nodes, ∀ target ∈ targets source,
      target ∈ NodeMap.ids plan.nodes := by
    intro source _ target htarget
    obtain ⟨edge, hmem, -, -, rfl⟩ := (htargets source target).1 htarget
    exact (hfits edge hmem).target_mem
  obtain ⟨visited, hdrain, hiff⟩ := drain_eq_length_iff hdistinct hclosed hpops hdegree hready
  refine ⟨visited, hdrain, ?_⟩
  rw [← hedge, ← hiff, NodeMap.ids, List.length_map, checkVisited]
  by_cases hall : visited = plan.nodes.length
  · simp [hall, pure, Except.pure]
  · simp [hall, throw, throwThe, MonadExceptOf.throw]

/-- What the loops of a validator accept, with the state they end in. -/
def Gathers {σ : Type} (plan : WorkflowPlan) (gathered : Except PlanError (NodeMap × σ)) (final : σ) :
    Prop :=
  ∀ graph, gathered = .ok graph ↔ (plan.nodes, final) = graph ∧
    (NodeMap.ids plan.nodes).Nodup ∧ (∀ node ∈ plan.nodes, Callable node) ∧ EdgesFit plan.nodes plan.edges

theorem gathers_bind {σ : Type} {collect : NodeMap → PlanNode → Except PlanError NodeMap}
    {check : NodeMap → σ → PlanEdge → Except PlanError σ} {start final : σ}
    (hnodes : ∀ nodes, plan.nodes.foldlM collect [] = .ok nodes ↔
      plan.nodes = nodes ∧ (NodeMap.ids plan.nodes).Nodup ∧ ∀ node ∈ plan.nodes, Callable node)
    (hcheck : ∀ state, plan.edges.foldlM (check plan.nodes) start = .ok state ↔
      final = state ∧ EdgesFit plan.nodes plan.edges) :
    Gathers plan (do
      let nodes ← plan.nodes.foldlM collect []
      let state ← plan.edges.foldlM (check nodes) start
      return (nodes, state)) final := by
  intro graph
  rw [Loop.bind_eq_ok]
  constructor
  · intro h
    obtain ⟨nodes, hcollected, hrest⟩ := h
    obtain ⟨rfl, hdistinct, hcallable⟩ := (hnodes nodes).1 hcollected
    obtain ⟨state, hstate, hgraph⟩ := Loop.bind_eq_ok.1 hrest
    obtain ⟨rfl, hedges⟩ := (hcheck state).1 hstate
    exact ⟨Except.ok.inj hgraph, hdistinct, hcallable, hedges⟩
  · intro h
    obtain ⟨rfl, hdistinct, hcallable, hedges⟩ := h
    refine ⟨plan.nodes, (hnodes _).2 ⟨rfl, hdistinct, hcallable⟩, ?_⟩
    exact Loop.bind_eq_ok.2 ⟨final, (hcheck _).2 ⟨rfl, hedges⟩, rfl⟩

theorem verdict_of_gathers {σ : Type} {gathered : Except PlanError (NodeMap × σ)} {final : σ}
    {result : Option (Except PlanError Unit)} (hgathers : Gathers plan gathered final)
    (hreject : ∀ err, gathered = .error err → result = some (.error err))
    (hsort : (NodeMap.ids plan.nodes).Nodup → EdgesFit plan.nodes plan.edges →
      gathered = .ok (plan.nodes, final) → ∃ verdict, result = some verdict ∧
        (verdict = .ok () ↔ ∀ id, ¬ Relation.TransGen plan.Forward id id)) :
    ∃ verdict, result = some verdict ∧ (verdict = .ok () ↔ WellFormed plan) := by
  rw [wellFormed_iff]
  cases hgathered : gathered with
  | error err =>
    refine ⟨.error err, hreject err hgathered, ?_⟩
    apply iff_of_false
    · simp
    · intro h
      have hok := (hgathers (plan.nodes, final)).2 ⟨rfl, h.1, h.2.1, h.2.2.1⟩
      rw [hgathered] at hok
      cases hok
  | ok graph =>
    obtain ⟨rfl, hdistinct, hcallable, hedges⟩ := (hgathers graph).1 hgathered
    obtain ⟨verdict, hresult, hiff⟩ := hsort hdistinct hedges hgathered
    refine ⟨verdict, hresult, ?_⟩
    rw [hiff]
    constructor
    · intro hacyclic
      exact ⟨hdistinct, hcallable, hedges, hacyclic⟩
    · intro h
      exact h.2.2.2

section Fields

variable (hfields : plan.fieldsOk = true)
include hfields

theorem checkSizes_eq_ok : checkSizes plan = .ok () := by
  obtain ⟨-, -, -, hnodes, hnodeFields, hedges, -, hannotations⟩ := WorkflowPlan.fieldsOk_iff.1 hfields
  have hplan : plan.annotations.length ≤ 64 := by
    simp only [annotationsOk, Bool.and_eq_true, decide_eq_true_iff] at hannotations
    exact hannotations.1
  have hnode : ∀ node ∈ plan.nodes, node.annotations.length ≤ 32 := by
    intro node hmem
    have hok := (PlanNode.fieldsOk_iff.1 (hnodeFields node hmem)).2.2.2.2.2.2.2.2
    simp only [annotationsOk, Bool.and_eq_true, decide_eq_true_iff] at hok
    exact hok.1
  unfold checkSizes
  rw [if_neg (by omega), if_neg (by omega), if_neg (by omega)]
  apply Loop.forM_eq_ok.2
  intro entry hentry
  obtain ⟨node, index⟩ := entry
  have hmem := hnode node (List.fst_mem_of_mem_zipIdx hentry)
  exact if_neg (by omega)

theorem gathers_of_loops {collect : NodeMap → PlanNode → Except PlanError NodeMap}
    {check : NodeMap → EdgeState → PlanEdge → Except PlanError EdgeState}
    {add : EdgeState → PlanEdge → EdgeState}
    (hcollect : ∀ nodes node nodes', collect nodes node = .ok nodes' ↔
      (node.nodeID ∉ nodes.ids ∧ Callable node) ∧ nodes ++ [node] = nodes')
    (hcheck : ∀ state, plan.edges.foldlM (check plan.nodes) .empty = .ok state ↔
      plan.edges.foldl add .empty = state ∧ EdgesFit plan.nodes plan.edges) :
    Gathers plan (do
      checkSizes plan
      if !plan.fieldsOk then
        throw .constraints
      let nodes ← plan.nodes.foldlM collect []
      let state ← plan.edges.foldlM (check nodes) .empty
      return (nodes, state)) (plan.edges.foldl add .empty) := by
  rw [checkSizes_eq_ok hfields, hfields]
  exact gathers_bind (fun _ => foldlM_nodes fun node _ nodes nodes' => hcollect nodes node nodes') hcheck

theorem gathers_gatherGraph : Gathers plan (gatherGraph plan) (plan.edges.foldl addEdge .empty) :=
  gathers_of_loops hfields collectNode_eq_ok fun _ => foldlM_checkEdge

theorem verdict_validatePlan (order : IterationOrder) :
    ∃ verdict, validatePlan order plan = some verdict ∧ (verdict = .ok () ↔ WellFormed plan) := by
  apply verdict_of_gathers (gathers_gatherGraph hfields)
  · intro err herror
    simp [validatePlan, herror]
  · intro hdistinct hedges hgather
    have hlinked : Linked (NodeMap.ids plan.nodes) plan.edges (plan.edges.foldl addEdge .empty) :=
      linked_foldl fun before edge hedge state h => h.addEdge hdistinct (hedges.fits edge hedge).source_mem
    obtain ⟨visited, hdrain, hiff⟩ := drain_forward hdistinct hedges.fits pops_popFirst hlinked.adjacency
      hlinked.indegree ((order.perm _).filter _)
    exact ⟨_, by simp [validatePlan, hgather, hdrain], hiff⟩

theorem Python.gathers_gatherGraph :
    Gathers plan (Python.gatherGraph plan) (plan.edges.foldl Python.addEdge .empty) :=
  gathers_of_loops hfields Python.collectNode_eq_ok fun _ => Python.foldlM_checkEdge

theorem Python.verdict_validatePlan (order : String → IterationOrder) :
    ∃ verdict, Python.validatePlan order plan = some verdict ∧ (verdict = .ok () ↔ WellFormed plan) := by
  have hdefined : ∀ edge ∈ plan.edges, edge.kind.defined = true := by
    intro edge hedge
    have hok := (WorkflowPlan.fieldsOk_iff.1 hfields).2.2.2.2.2.2.1 edge hedge
    exact (PlanEdge.fieldsOk_iff.1 hok).2.2.1
  apply verdict_of_gathers (Python.gathers_gatherGraph hfields)
  · intro err herror
    simp [Python.validatePlan, herror]
  · intro hdistinct hedges hgather
    have hlinked : Linked (NodeMap.ids plan.nodes) plan.edges (plan.edges.foldl Python.addEdge .empty) :=
      linked_foldl fun before edge hedge state h =>
        h.addEdgePython hdistinct (hedges.fits edge hedge).source_mem (hdefined edge hedge)
    have htargets : Joins plan.edges fun id =>
        (order id).order ((plan.edges.foldl Python.addEdge .empty).adjacency id) := by
      intro source target
      rw [((order source).perm _).mem_iff]
      exact hlinked.adjacency source target
    have hdegree : ∀ id, (plan.edges.foldl Python.addEdge .empty).indegree id =
        indegree (NodeMap.ids plan.nodes) (fun id =>
          (order id).order ((plan.edges.foldl Python.addEdge .empty).adjacency id)) id := by
      intro id
      rw [hlinked.indegree]
      apply indegree_congr
      intro source _ target
      exact (((order source).perm _).count_eq target).symm
    obtain ⟨visited, hdrain, hiff⟩ :=
      drain_forward hdistinct hedges.fits pops_popLast htargets hdegree (.refl _)
    exact ⟨_, by simp [Python.validatePlan, hgather, hdrain], hiff⟩

end Fields

end Verdict

end Temporaless.Visualization
