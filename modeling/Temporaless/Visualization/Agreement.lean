import Temporaless.Visualization.Verdict

/-!
# The validators agree

The TypeScript validator checks the fields itself, keeps joined texts in place of tuples, and counts
the indegrees after the loop. On plans that satisfy the constraints of their fields it gives the verdict
of the other two.
-/

namespace Temporaless.Visualization.TypeScript

open Topological

section Fields

variable {s : String}

theorem utf16Length_eq_zero : utf16Length s = 0 ↔ s = "" := by
  rw [utf16Length, ← String.toList_eq_nil_iff]
  cases s.toList with
  | nil => simp
  | cons c rest =>
    have hpos : 0 < if c.val < 0x10000 then 1 else 2 := by split <;> decide
    simp only [List.map_cons, List.sum_cons, reduceCtorEq, iff_false]
    omega

theorem isAlphanum_eq (c : Char) : c.isAlphanum =
    ((decide (c.val ≥ 'A'.val ∧ c.val ≤ 'Z'.val) || (c.val ≥ 'a'.val && c.val ≤ 'z'.val)) ||
      (c.val ≥ '0'.val && c.val ≤ '9'.val)) := rfl

theorem ascii_of_segmentChar {c : Char} (h : segmentChar c = true) : c.val < 0x80 := by
  simp only [segmentChar, isAlphanum_eq, Bool.or_eq_true, Bool.and_eq_true, decide_eq_true_iff,
    beq_iff_eq] at h
  rcases h with ((((((h | h) | h) | rfl) | rfl) | rfl) | rfl) | rfl
  · exact UInt32.lt_of_le_of_lt h.2 (by decide)
  · exact UInt32.lt_of_le_of_lt h.2 (by decide)
  · exact UInt32.lt_of_le_of_lt h.2 (by decide)
  all_goals decide

theorem utf16Length_of_plain (h : Plain s) : utf16Length s = s.length := by
  have hone : s.toList.map (fun c => if c.val < 0x10000 then 1 else 2) = s.toList.map fun _ => 1 := by
    apply List.map_congr_left
    intro c hc
    have hascii := ascii_of_segmentChar (List.all_eq_true.1 h.2 c hc)
    exact if_pos (UInt32.lt_trans hascii (by decide))
  rw [utf16Length, hone]
  simp [String.length_toList]

theorem validateIdentifier_eq_ok (field : String) (h : identifierOk s = true) :
    validateIdentifier field s = .ok () := by
  have hplain := plain_of_identifierOk h
  simp only [identifierOk, Bool.and_eq_true, decide_eq_true_iff, bne_iff_ne] at h
  obtain ⟨⟨⟨⟨⟨hmin, hmax⟩, -⟩, -⟩, hdot⟩, hdots⟩ := h
  have hsegment : pathSegment s = true := by
    simp [pathSegment, hplain.1, hplain.2]
  rw [validateIdentifier, utf16Length_of_plain hplain, if_neg]
  · rfl
  · simp only [hsegment, hdot, hdots, Bool.not_true, Bool.false_eq_true, or_false]
    omega

theorem validateAnnotations_eq_ok (owner : String) {annotations : Annotations} {limit : Nat}
    (h : annotationsOk limit annotations = true) :
    validateAnnotations owner annotations limit = .ok () := by
  simp only [annotationsOk, bytesOk, Bool.and_eq_true, decide_eq_true_iff, List.all_eq_true,
    bne_iff_ne] at h
  unfold validateAnnotations
  rw [if_neg (by omega)]
  apply Loop.forM_eq_ok.2
  intro entry hentry
  obtain ⟨key, value⟩ := entry
  obtain ⟨⟨hkey, hproto⟩, hvalue⟩ := h.2 _ hentry
  have hkey' : ¬ utf8Length key > 128 := not_lt_of_ge hkey
  have hvalue' : ¬ utf8Length value > 1024 := not_lt_of_ge hvalue
  exact (if_neg hproto).trans ((if_neg hkey').trans (if_neg hvalue'))

theorem checkTypeName_eq_ok (node : PlanNode) (field : String) (h : typeNameOk s = true) :
    checkTypeName node field s = .ok () := by
  simp only [typeNameOk, bytesOk, Bool.and_eq_true, Bool.or_eq_true, decide_eq_true_iff,
    beq_iff_eq] at h
  have hbytes : ¬ utf8Length s > 512 := not_lt_of_ge h.1
  have hname : ¬ (utf16Length s > 0 ∧ (!isFullName s) = true) := by
    intro hbad
    rcases h.2 with hempty | hname
    · rw [utf16Length_eq_zero.2 hempty] at hbad
      exact absurd hbad.1 (lt_irrefl 0)
    · simp [hname] at hbad
  exact (if_neg hbytes).trans (if_neg hname)

theorem requireField_eq_ok {node : PlanNode} {field : String} {done : Unit} :
    requireField node field s = .ok done ↔ s ≠ "" := by
  rw [requireField, Ne, ← utf16Length_eq_zero]
  split <;> simp_all [throw, throwThe, MonadExceptOf.throw, pure, Except.pure]

theorem mem_nodeKinds {kind : NodeKind} : kind ∈ nodeKinds ↔ kind.defined = true := by
  cases kind <;> simp [nodeKinds, NodeKind.defined]

theorem mem_edgeKinds {kind : EdgeKind} : kind ∈ edgeKinds ↔ kind.defined = true := by
  cases kind <;> simp [edgeKinds, EdgeKind.defined]

theorem mem_callableNodeKinds {kind : NodeKind} : kind ∈ callableNodeKinds ↔ kind.callable = true := by
  cases kind <;> simp [callableNodeKinds, NodeKind.callable]

end Fields

theorem collectNode_eq_ok {node : PlanNode} (h : node.fieldsOk = true) (nodes nodes' : NodeMap) :
    collectNode nodes node = .ok nodes' ↔
      (node.nodeID ∉ nodes.ids ∧ Callable node) ∧ nodes ++ [node] = nodes' := by
  obtain ⟨hid, hname, hnameBytes, hdescription, hkind, hoperation, hrequest, hresponse, hannotations⟩ :=
    PlanNode.fieldsOk_iff.1 h
  have hdisplay : utf16Length node.displayName ≠ 0 := by
    intro hzero
    rw [utf16Length_eq_zero.1 hzero] at hname
    exact absurd hname (by decide)
  have hnameBytes : ¬ utf8Length node.displayName > 256 := by simpa [bytesOk, utf8Length] using hnameBytes
  have hdescription : ¬ utf8Length node.description > 4096 := by simpa [bytesOk, utf8Length] using hdescription
  have hoperation : ¬ utf8Length node.operation > 512 := by simpa [bytesOk, utf8Length] using hoperation
  rw [← get_eq_none, Callable]
  unfold collectNode
  simp only [validateIdentifier_eq_ok _ hid, validateAnnotations_eq_ok _ hannotations,
    checkTypeName_eq_ok _ _ hrequest, checkTypeName_eq_ok _ _ hresponse, mem_nodeKinds, hkind,
    mem_callableNodeKinds, hdisplay, hnameBytes, hdescription, hoperation, if_false, not_true_eq_false]
  cases nodes.get node.nodeID <;> cases node.kind.callable <;>
    simp [Loop.bind_eq_ok, requireField_eq_ok, throw, throwThe, MonadExceptOf.throw, pure, Except.pure,
      and_assoc]

/-- The edge is not in conflict with those that are in the sets. -/
@[mk_iff]
structure Fresh (state : EdgeState) (edge : PlanEdge) : Prop where
  edges : edgeIdentity edge ∉ state.edgeIdentities
  labels : edge.kind = .conditional → edge.label ∉ state.conditionalLabels edge.sourceNodeID
  dataTargets : edge.kind = .data → edge.targetNodeID ∉ state.dataTargets

def addEdge (state : EdgeState) (edge : PlanEdge) : EdgeState where
  edgeIdentities := edgeIdentity edge :: state.edgeIdentities
  conditionalLabels := if edge.kind = .conditional then
    Function.update state.conditionalLabels edge.sourceNodeID
      (edge.label :: state.conditionalLabels edge.sourceNodeID) else state.conditionalLabels
  dataTargets := if edge.kind = .data then edge.targetNodeID :: state.dataTargets else state.dataTargets
  forwardTargets := if edge.kind = .loopBack then state.forwardTargets else
    Function.update state.forwardTargets edge.sourceNodeID
      (state.forwardTargets edge.sourceNodeID ++ [edge.targetNodeID])

theorem checkEdge_eq_ok {edge : PlanEdge} (h : edge.fieldsOk = true) (nodes : NodeMap)
    (state state' : EdgeState) : checkEdge nodes state edge = .ok state' ↔
      (Fits nodes edge ∧ Fresh state edge) ∧ addEdge state edge = state' := by
  obtain ⟨hsourceID, htargetID, hdefined, hlabel⟩ := PlanEdge.fieldsOk_iff.1 h
  have hlabel : ¬ utf8Length edge.label > 256 := by simpa [bytesOk, utf8Length] using hlabel
  unfold checkEdge
  simp only [validateIdentifier_eq_ok _ hsourceID, validateIdentifier_eq_ok _ htargetID, hlabel,
    mem_edgeKinds, hdefined, mem_callableNodeKinds, utf16Length_eq_zero, if_false, not_true_eq_false,
    bind, Except.bind, throw, throwThe, MonadExceptOf.throw, pure, Except.pure]
  cases hsource : nodes.get edge.sourceNodeID with
  | none => simp [Fits, hsource, Loop.guard_eq_ok]
  | some source =>
    cases htarget : nodes.get edge.targetNodeID with
    | none => simp [Fits, hsource, htarget, Loop.guard_eq_ok]
    | some target =>
      cases hkind : edge.kind <;>
        simp [Fits, fresh_iff, hsource, htarget, hkind, addEdge, Loop.guard_eq_ok, Loop.unless_eq_ok,
          and_assoc] <;> tauto

theorem nul_not_mem {s : String} (h : identifierOk s = true) : '\x00' ∉ s.toList := by
  intro hmem
  have hchar := List.all_eq_true.1 (plain_of_identifierOk h).2 _ hmem
  exact absurd hchar (by decide)

def kindText (kind : EdgeKind) : List Char := (toString (edgeKindNumber kind)).toList

theorem nul_not_mem_kindText {kind : EdgeKind} (h : kind.defined = true) : '\x00' ∉ kindText kind := by
  cases kind with
  | unspecified => cases h
  | unrecognized number => cases h
  | control | data | conditional | loopBack => decide

theorem kindText_inj {left right : EdgeKind} (hleft : left.defined = true)
    (hright : right.defined = true)
    (h : kindText left = kindText right) : left = right := by
  cases left <;> cases right <;> first
    | rfl
    | exact absurd h (by decide)
    | exact absurd hleft Bool.false_ne_true
    | exact absurd hright Bool.false_ne_true

/-- The joined text of an edge tells its four values, since only the label can hold a NUL. -/
theorem edgeIdentity_inj {left right : PlanEdge} (hleft : left.fieldsOk = true)
    (hright : right.fieldsOk = true) : edgeIdentity left = edgeIdentity right ↔ left = right := by
  obtain ⟨hsource, htarget, hkind, -⟩ := PlanEdge.fieldsOk_iff.1 hleft
  obtain ⟨hsource', htarget', hkind', -⟩ := PlanEdge.fieldsOk_iff.1 hright
  constructor
  · intro heq
    have hlist := congrArg String.toList heq
    have hnul : "\x00".toList = ['\x00'] := rfl
    simp only [edgeIdentity, String.toList_append, hnul, List.append_assoc, List.singleton_append] at hlist
    obtain ⟨hsources, hlist⟩ :=
      Separated.append_cons_inj (nul_not_mem hsource) (nul_not_mem hsource') hlist
    obtain ⟨htargets, hlist⟩ :=
      Separated.append_cons_inj (nul_not_mem htarget) (nul_not_mem htarget') hlist
    obtain ⟨hnumbers, hlabels⟩ :=
      Separated.append_cons_inj (nul_not_mem_kindText hkind) (nul_not_mem_kindText hkind') hlist
    have hkinds := kindText_inj hkind hkind' hnumbers
    cases left
    cases right
    simp only [PlanEdge.mk.injEq]
    exact ⟨String.toList_injective hsources, String.toList_injective htargets, hkinds,
      String.toList_injective hlabels⟩
  · intro heq
    rw [heq]

section Loops

variable {nodes : NodeMap} {edges before : List PlanEdge} {edge : PlanEdge} {state : EdgeState}

/-- The sets and the targets hold what they are to hold of the edges. -/
structure Logged (edges : List PlanEdge) (state : EdgeState) : Prop where
  seen : state.edgeIdentities = (edges.map edgeIdentity).reverse
  labels : ∀ id label, label ∈ state.conditionalLabels id ↔
    ∃ edge ∈ edges, edge.kind = .conditional ∧ edge.sourceNodeID = id ∧ edge.label = label
  dataTargets : ∀ id, id ∈ state.dataTargets ↔
    ∃ edge ∈ edges, edge.kind = .data ∧ edge.targetNodeID = id
  forwardTargets : Joins edges state.forwardTargets

theorem logged_empty : Logged [] .empty :=
  ⟨rfl, by simp [EdgeState.empty], by simp [EdgeState.empty], joins_empty⟩

theorem Logged.addEdge (h : Logged before state) (edge : PlanEdge) :
    Logged (before ++ [edge]) (addEdge state edge) := by
  constructor
  · simp [TypeScript.addEdge, h.seen]
  · intro id label
    by_cases hkind : edge.kind = .conditional
    · by_cases hid : id = edge.sourceNodeID
      · subst hid
        simp [TypeScript.addEdge, hkind, h.labels, or_and_right, exists_or, or_comm, eq_comm]
      · have hne : edge.sourceNodeID ≠ id := fun heq => hid heq.symm
        simp [TypeScript.addEdge, hkind, h.labels, or_and_right, exists_or, hid, hne]
    · simp [TypeScript.addEdge, hkind, h.labels, or_and_right, exists_or]
  · intro id
    by_cases hkind : edge.kind = .data
    · simp [TypeScript.addEdge, hkind, h.dataTargets, or_and_right, exists_or, or_comm, eq_comm]
    · simp [TypeScript.addEdge, hkind, h.dataTargets, or_and_right, exists_or]
  · simp only [TypeScript.addEdge]
    split
    · next hkind => exact h.forwardTargets.skip fun hne => absurd hkind hne
    · next hkind => exact h.forwardTargets.update hkind

theorem Logged.fresh (hfields : ∀ e ∈ before ++ [edge], e.fieldsOk = true) (h : Logged before state) :
    Fresh state edge ↔ ∀ earlier ∈ before, Apart earlier edge := by
  have hedge := hfields edge (by simp)
  have hseen : edgeIdentity edge ∈ state.edgeIdentities ↔ edge ∈ before := by
    rw [h.seen, List.mem_reverse, List.mem_map]
    constructor
    · intro hmem
      obtain ⟨earlier, hearlier, hsame⟩ := hmem
      rwa [← (edgeIdentity_inj (hfields earlier (by simp [hearlier])) hedge).1 hsame]
    · intro hmem
      exact ⟨edge, hmem, rfl⟩
  rw [fresh_iff]
  exact fresh_iff_apart hseen h.labels h.dataTargets

theorem logged_foldl (edges : List PlanEdge) : Logged edges (edges.foldl addEdge .empty) := by
  induction edges using List.reverseRecOn with
  | nil => exact logged_empty
  | append_singleton edges edge ih =>
    rw [List.foldl_append]
    exact ih.addEdge edge

theorem foldlM_checkEdge (hfields : ∀ edge ∈ edges, edge.fieldsOk = true) :
    edges.foldlM (checkEdge nodes) .empty = .ok state ↔
      edges.foldl addEdge .empty = state ∧ EdgesFit nodes edges :=
  foldlM_edges logged_empty (fun _ _ edge h => h.addEdge edge)
    (fun edge hedge state state' => checkEdge_eq_ok (hfields edge hedge) nodes state state')
    fun _ _ _ hsubset h => h.fresh fun e he => hfields e (hsubset he)

theorem countIndegree_eq (ids : List String) (targets : String → List String) (id : String) :
    countIndegree ids targets id = indegree ids targets id := by
  have hcount : ∀ (list : List String) (degree : String → Int),
      list.foldl (fun indegree target => Function.update indegree target (indegree target + 1)) degree id =
        degree id + list.count id := by
    intro list
    induction list with
    | nil => simp
    | cons target list ih =>
      intro degree
      rw [List.foldl_cons, ih]
      by_cases hsame : id = target
      · subst hsame
        rw [Function.update_self, List.count_cons_self]
        omega
      · rw [Function.update_of_ne hsame, List.count_cons_of_ne fun heq => hsame heq.symm]
  rw [countIndegree, hcount, indegree_eq_count]
  simp

end Loops

section Verdict

variable {plan : WorkflowPlan} (hfields : plan.fieldsOk = true)
include hfields

theorem gathers_gatherGraph : Gathers plan (gatherGraph plan) (plan.edges.foldl addEdge .empty) := by
  obtain ⟨hid, hrevision, hmin, hmax, hnodeFields, hedgeCount, hedgeFields, hannotations⟩ :=
    WorkflowPlan.fieldsOk_iff.1 hfields
  have hpositive : plan.revision.toNat ≠ 0 := by
    have hlt := UInt64.lt_iff_toNat_lt.1 hrevision
    exact Nat.ne_of_gt hlt
  have hbounded : ¬ plan.revision.toNat > 0xffffffffffffffff := by
    have hlt := plan.revision.toNat_lt
    omega
  unfold gatherGraph
  rw [validateIdentifier_eq_ok _ hid, validateAnnotations_eq_ok _ hannotations, if_neg hpositive,
    if_neg hbounded, if_neg (by omega), if_neg (by omega), if_neg (by omega)]
  apply gathers_bind
  · intro nodes
    exact foldlM_nodes fun node hnode => collectNode_eq_ok (hnodeFields node hnode)
  · intro state
    exact foldlM_checkEdge hedgeFields

theorem verdict_validateWorkflowPlan :
    ∃ verdict, validateWorkflowPlan plan = some verdict ∧ (verdict = .ok () ↔ WellFormed plan) := by
  apply verdict_of_gathers (gathers_gatherGraph hfields)
  · intro err herror
    simp [validateWorkflowPlan, herror]
  · intro hdistinct hedges hgather
    have hlogged := logged_foldl plan.edges
    obtain ⟨visited, hdrain, hiff⟩ := drain_forward hdistinct hedges.fits pops_popLast
      hlogged.forwardTargets (countIndegree_eq _ _) (.refl _)
    have hlength : (NodeMap.ids plan.nodes).length = plan.nodes.length := List.length_map ..
    rw [hlength] at hdrain
    refine ⟨_, ?_, hiff⟩
    simp [validateWorkflowPlan, assertAcyclicForwardGraph, hgather, hdrain, hlength]

end Verdict

end Temporaless.Visualization.TypeScript

namespace Temporaless.Visualization

/-- The three validators end on every plan whose fields satisfy their constraints, and each accepts it
exactly if it is well-formed, whatever the orders of iteration. -/
theorem validators_agree (plan : WorkflowPlan) (hfields : plan.fieldsOk = true) (order : IterationOrder)
    (pythonOrder : String → IterationOrder) :
    ∃ goVerdict pythonVerdict typeScriptVerdict : Except PlanError Unit,
      validatePlan order plan = some goVerdict ∧
      Python.validatePlan pythonOrder plan = some pythonVerdict ∧
      TypeScript.validateWorkflowPlan plan = some typeScriptVerdict ∧
      (goVerdict = .ok () ↔ WellFormed plan) ∧ (pythonVerdict = .ok () ↔ WellFormed plan) ∧
      (typeScriptVerdict = .ok () ↔ WellFormed plan) := by
  obtain ⟨goVerdict, hgo, hgoIff⟩ := verdict_validatePlan hfields order
  obtain ⟨pythonVerdict, hpython, hpythonIff⟩ := Python.verdict_validatePlan hfields pythonOrder
  obtain ⟨typeScriptVerdict, htypeScript, htypeScriptIff⟩ :=
    TypeScript.verdict_validateWorkflowPlan hfields
  exact ⟨goVerdict, pythonVerdict, typeScriptVerdict, hgo, hpython, htypeScript, hgoIff, hpythonIff,
    htypeScriptIff⟩

def insertionOrder : IterationOrder := ⟨id, fun _ => .refl _⟩

/-- A bell that is rung again until someone answers. -/
def bellPlan : WorkflowPlan where
  planID := "bell"
  revision := 1
  nodes := [⟨"again", "Again", "", .loop, "", "", "", []⟩,
    ⟨"ring", "Ring", "", .branch, "bell.v1.Bell.Ring", "bell.v1.Request", "bell.v1.Reply", []⟩,
    ⟨"answer", "Answer", "", .waitEvent, "", "", "", []⟩]
  edges := [⟨"again", "ring", .control, ""⟩, ⟨"ring", "answer", .conditional, "heard"⟩,
    ⟨"answer", "again", .loopBack, ""⟩]
  annotations := []

theorem fieldsOk_bellPlan : bellPlan.fieldsOk = true := by decide +kernel

theorem validators_agree_bellPlan : bellPlan.fieldsOk = true ∧
    ∃ goVerdict pythonVerdict typeScriptVerdict : Except PlanError Unit,
      validatePlan insertionOrder bellPlan = some goVerdict ∧
      Python.validatePlan (fun _ => insertionOrder) bellPlan = some pythonVerdict ∧
      TypeScript.validateWorkflowPlan bellPlan = some typeScriptVerdict ∧
      (goVerdict = .ok () ↔ WellFormed bellPlan) ∧ (pythonVerdict = .ok () ↔ WellFormed bellPlan) ∧
      (typeScriptVerdict = .ok () ↔ WellFormed bellPlan) :=
  ⟨fieldsOk_bellPlan, validators_agree bellPlan fieldsOk_bellPlan insertionOrder fun _ => insertionOrder⟩

theorem accepted_bellPlan : validatePlan insertionOrder bellPlan = some (.ok ()) := by decide +kernel

end Temporaless.Visualization
