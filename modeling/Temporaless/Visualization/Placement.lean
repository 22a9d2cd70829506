import Temporaless.Visualization.Projection

/-!
# Where the records of a run belong

Which records fit a node, and the layout in which every node has the records that fit it. In a plan with
distinct ids each record has one place in the layout, which does not depend on the order of the nodes or
of the records.
-/

namespace Temporaless.Visualization

open KeySort

def activityFits (node : PlanNode) (record : ActivityRecord) : Bool :=
  node.kind.callable && activityID record = node.nodeID

def timerFits (node : PlanNode) (record : TimerRecord) : Bool :=
  match node.kind with
  | .activity | .branch => record.timerKind = .activityRetry && record.retryActivityId = node.nodeID
  | .sleep => record.timerKind = .sleep && timerID record = node.nodeID
  | .waitEvent | .waitWorkflow => record.timerKind = .poll && timerID record = node.nodeID
  | _ => false

def eventFits (node : PlanNode) (record : EventRecord) : Bool :=
  node.kind = .waitEvent && eventID record = node.nodeID

def claimFits (node : PlanNode) (record : ClaimRecord) : Bool :=
  match node.kind with
  | .activity | .branch => record.resourceType = .activity && record.resourceId = node.nodeID
  | .sleep | .waitEvent | .waitWorkflow =>
    record.resourceType = .timer && record.resourceId = node.nodeID
  | _ => false

/-- The records of a run, each at a node, at the run or unplanned. -/
@[ext] structure Layout where
  nodes : List (PlanNode × Evidence)
  runClaims : List ClaimRecord
  unplanned : Evidence

def NodeProjection.entry (projection : NodeProjection) : PlanNode × Evidence :=
  (projection.node, ⟨projection.activity.toList, projection.timers, projection.event.toList,
    projection.claims⟩)

def RunProjection.layout (projection : RunProjection) : Layout where
  nodes := projection.nodes.map NodeProjection.entry
  runClaims := projection.runClaims
  unplanned := ⟨projection.unplannedActivities, projection.unplannedTimers, projection.unplannedEvents,
    projection.unplannedClaims⟩

def TypeScript.RunProjection.layout (projection : TypeScript.RunProjection) : Layout where
  nodes := projection.nodes.map fun entry => (entry.node, entry.toEvidence)
  runClaims := projection.runClaims
  unplanned := projection.unplanned

section Placement

variable (plan : WorkflowPlan) (snapshot : RunSnapshot)

def evidenceAt (node : PlanNode) : Evidence where
  activities := sortedBy activityID (snapshot.activities.filter (activityFits node))
  timers := sortedBy timerID (snapshot.timers.filter (timerFits node))
  events := sortedBy eventID (snapshot.events.filter (eventFits node))
  claims := sortedBy claimID (snapshot.claims.filter (claimFits node))

def unplannedEvidence : Evidence where
  activities := sortedBy activityID
    (snapshot.activities.filter fun record => !plan.nodes.any (activityFits · record))
  timers := sortedBy timerID
    (snapshot.timers.filter fun record => !plan.nodes.any (timerFits · record))
  events := sortedBy eventID
    (snapshot.events.filter fun record => !plan.nodes.any (eventFits · record))
  claims := sortedBy claimID (snapshot.claims.filter fun record =>
    record.resourceType ≠ .workflow && !plan.nodes.any (claimFits · record))

def placement : Layout where
  nodes := (sortedBy PlanNode.nodeID plan.nodes).map fun node => (node, evidenceAt snapshot node)
  runClaims := sortedBy claimID (snapshot.claims.filter fun record => record.resourceType = .workflow)
  unplanned := unplannedEvidence plan snapshot

end Placement

/-- Every node and every record of the run has exactly one place. -/
structure Layout.Covers (layout : Layout) (plan : WorkflowPlan) (snapshot : RunSnapshot) : Prop where
  nodes : (layout.nodes.map Prod.fst).Perm plan.nodes
  activities : ((layout.nodes.flatMap fun entry => entry.2.activities) ++
    layout.unplanned.activities).Perm snapshot.activities
  timers : ((layout.nodes.flatMap fun entry => entry.2.timers) ++
    layout.unplanned.timers).Perm snapshot.timers
  events : ((layout.nodes.flatMap fun entry => entry.2.events) ++
    layout.unplanned.events).Perm snapshot.events
  claims : (layout.runClaims ++ ((layout.nodes.flatMap fun entry => entry.2.claims) ++
    layout.unplanned.claims)).Perm snapshot.claims

/-- Every record of the evidence belongs to the node. -/
structure Evidence.Fits (evidence : Evidence) (node : PlanNode) : Prop where
  activities : ∀ record ∈ evidence.activities, activityFits node record = true
  timers : ∀ record ∈ evidence.timers, timerFits node record = true
  events : ∀ record ∈ evidence.events, eventFits node record = true
  claims : ∀ record ∈ evidence.claims, claimFits node record = true

structure Evidence.Sorted (evidence : Evidence) : Prop where
  activities : Rising activityID evidence.activities
  timers : Rising timerID evidence.timers
  events : Rising eventID evidence.events
  claims : Rising claimID evidence.claims

structure Layout.Sorted (layout : Layout) : Prop where
  nodes : Rising (fun entry : PlanNode × Evidence => entry.1.nodeID) layout.nodes
  evidence : ∀ entry ∈ layout.nodes, entry.2.Sorted
  runClaims : Rising claimID layout.runClaims
  unplanned : layout.unplanned.Sorted

/-- The same plan with its nodes in another order. -/
structure WorkflowPlan.Reordered (plan plan' : WorkflowPlan) : Prop where
  planID : plan.planID = plan'.planID
  revision : plan.revision = plan'.revision
  nodes : plan.nodes.Perm plan'.nodes
  edges : plan.edges = plan'.edges
  annotations : plan.annotations = plan'.annotations

/-- The same run with its records in another order. -/
structure RunSnapshot.Reordered (snapshot snapshot' : RunSnapshot) : Prop where
  key : snapshot.key = snapshot'.key
  workflow : snapshot.workflow = snapshot'.workflow
  activities : snapshot.activities.Perm snapshot'.activities
  timers : snapshot.timers.Perm snapshot'.timers
  events : snapshot.events.Perm snapshot'.events
  claims : snapshot.claims.Perm snapshot'.claims

section Fits

variable (node : PlanNode)

theorem nodeID_of_activityFits (record : ActivityRecord) (h : activityFits node record = true) :
    node.nodeID = activityID record := by
  simp only [activityFits, Bool.and_eq_true, decide_eq_true_iff] at h
  exact h.2.symm

def timerTarget (record : TimerRecord) : String :=
  if record.timerKind = .activityRetry then record.retryActivityId else timerID record

theorem nodeID_of_timerFits (record : TimerRecord) (h : timerFits node record = true) :
    node.nodeID = timerTarget record := by
  unfold timerFits at h
  split at h <;> simp_all [timerTarget]

theorem nodeID_of_eventFits (record : EventRecord) (h : eventFits node record = true) :
    node.nodeID = eventID record := by
  simp only [eventFits, Bool.and_eq_true, decide_eq_true_iff] at h
  exact h.2.symm

theorem nodeID_of_claimFits (record : ClaimRecord) (h : claimFits node record = true) :
    node.nodeID = record.resourceId := by
  unfold claimFits at h
  split at h <;> simp_all

variable {node} in
theorem not_workflow_of_claimFits {record : ClaimRecord} (h : claimFits node record = true) :
    record.resourceType ≠ .workflow := by
  unfold claimFits at h
  split at h <;> simp_all

end Fits

theorem fits_pairwise {ρ : Type} {fits : PlanNode → ρ → Bool} {target : ρ → String}
    {nodes : List PlanNode} (hdistinct : (nodes.map PlanNode.nodeID).Nodup)
    (htarget : ∀ node record, fits node record = true → node.nodeID = target record) (record : ρ) :
    nodes.Pairwise fun n m => ¬ (fits n record = true ∧ fits m record = true) := by
  refine List.Pairwise.imp ?_ (List.pairwise_map.1 hdistinct)
  intro n m hne h
  exact hne ((htarget n record h.1).trans (htarget m record h.2).symm)

section Layout

variable {plan : WorkflowPlan} {snapshot : RunSnapshot}

theorem perm_placement {ρ : Type} {fits : PlanNode → ρ → Bool} {target : ρ → String}
    (id : ρ → String) (records : List ρ) (hdistinct : (plan.nodes.map PlanNode.nodeID).Nodup)
    (htarget : ∀ node record, fits node record = true → node.nodeID = target record) :
    (((sortedBy PlanNode.nodeID plan.nodes).flatMap fun node =>
      sortedBy id (records.filter (fits node))) ++
      sortedBy id (records.filter fun record => !plan.nodes.any (fits · record))).Perm records := by
  have hnodes : ((sortedBy PlanNode.nodeID plan.nodes).map PlanNode.nodeID).Nodup :=
    (sortedBy_perm.map _).nodup_iff.2 hdistinct
  have hany : ∀ record, plan.nodes.any (fits · record) =
      (sortedBy PlanNode.nodeID plan.nodes).any (fits · record) := fun record =>
    (sortedBy_perm.any_eq).symm
  have hfibres := perm_fibres (l := records) fun record _ => fits_pairwise hnodes htarget record
  have hsorted : ((sortedBy PlanNode.nodeID plan.nodes).flatMap fun node =>
      sortedBy id (records.filter (fits node))).Perm
      ((sortedBy PlanNode.nodeID plan.nodes).flatMap fun node => records.filter (fits node)) :=
    List.Perm.flatMap_left _ fun node _ => sortedBy_perm
  simp only [hany]
  exact (hsorted.append sortedBy_perm).trans hfibres

theorem perm_claims (hdistinct : (plan.nodes.map PlanNode.nodeID).Nodup) (claims : List ClaimRecord) :
    (sortedBy claimID (claims.filter fun record => record.resourceType = .workflow) ++
      (((sortedBy PlanNode.nodeID plan.nodes).flatMap fun node =>
        sortedBy claimID (claims.filter (claimFits node))) ++
      sortedBy claimID (claims.filter fun record =>
        record.resourceType ≠ .workflow && !plan.nodes.any (claimFits · record)))).Perm claims := by
  have hfits : ∀ node, (claims.filter fun record => !decide (record.resourceType = .workflow)).filter
      (claimFits node) = claims.filter (claimFits node) := by
    intro node
    rw [List.filter_filter]
    apply List.filter_congr
    intro record _
    cases hfit : claimFits node record with
    | false => rfl
    | true => simp [not_workflow_of_claimFits hfit]
  have hrest := perm_placement claimID
    (claims.filter fun record => !decide (record.resourceType = .workflow)) hdistinct
    nodeID_of_claimFits
  simp only [hfits, List.filter_filter] at hrest
  have hnone : (fun record : ClaimRecord =>
      decide (record.resourceType ≠ .workflow) && !plan.nodes.any (claimFits · record)) =
      fun record => (!plan.nodes.any (claimFits · record)) && !decide (record.resourceType = .workflow) := by
    funext record
    rw [decide_not, Bool.and_comm]
  rw [hnone]
  exact (sortedBy_perm.append hrest).trans (List.filter_append_perm _ claims)

theorem covers_placement (hdistinct : (plan.nodes.map PlanNode.nodeID).Nodup) :
    (placement plan snapshot).Covers plan snapshot := by
  constructor
  · simp only [placement, List.map_map]
    exact (List.Perm.of_eq (List.map_id' _)).trans sortedBy_perm
  · simp only [placement, evidenceAt, unplannedEvidence, List.flatMap_map]
    exact perm_placement _ _ hdistinct nodeID_of_activityFits
  · simp only [placement, evidenceAt, unplannedEvidence, List.flatMap_map]
    exact perm_placement _ _ hdistinct nodeID_of_timerFits
  · simp only [placement, evidenceAt, unplannedEvidence, List.flatMap_map]
    exact perm_placement _ _ hdistinct nodeID_of_eventFits
  · simp only [placement, evidenceAt, unplannedEvidence, List.flatMap_map]
    exact perm_claims hdistinct snapshot.claims

theorem fits_evidenceAt (node : PlanNode) : (evidenceAt snapshot node).Fits node := by
  constructor
  all_goals
    intro record hrecord
    exact List.of_mem_filter (mem_sortedBy.1 hrecord)

theorem fits_placement {entry : PlanNode × Evidence}
    (hentry : entry ∈ (placement plan snapshot).nodes) :
    entry.2.Fits entry.1 := by
  obtain ⟨node, _, rfl⟩ := List.mem_map.1 hentry
  exact fits_evidenceAt node

theorem sorted_placement (hnodes : (plan.nodes.map PlanNode.nodeID).Nodup) (hwhole : snapshot.Whole) :
    (placement plan snapshot).Sorted := by
  have hactivities := fun p => rising_sortedBy (nodup_map_filter hwhole.activityIDs p)
  have htimers := fun p => rising_sortedBy (nodup_map_filter hwhole.timerIDs p)
  have hevents := fun p => rising_sortedBy (nodup_map_filter hwhole.eventIDs p)
  have hclaims := fun p => rising_sortedBy (nodup_map_filter hwhole.claimIDs p)
  constructor
  · exact List.pairwise_map.2 (rising_sortedBy hnodes)
  · intro entry hentry
    obtain ⟨node, _, rfl⟩ := List.mem_map.1 hentry
    exact ⟨hactivities _, htimers _, hevents _, hclaims _⟩
  · exact hclaims _
  · exact ⟨hactivities _, htimers _, hevents _, hclaims _⟩

section Reordered

variable {plan' : WorkflowPlan} {snapshot' : RunSnapshot}

theorem sortedBy_filter_of_perm {ρ : Type} {id : ρ → String} {records records' : List ρ}
    {p p' : ρ → Bool} (hdistinct : (records.map id).Nodup) (hperm : records.Perm records')
    (hp : ∀ record, p record = p' record) :
    sortedBy id (records'.filter p') = sortedBy id (records.filter p) := by
  rw [← funext hp]
  exact sortedBy_eq_of_perm (nodup_map_filter hdistinct p) (hperm.symm.filter p)

theorem placement_of_reordered (hnodes : (plan.nodes.map PlanNode.nodeID).Nodup)
    (hwhole : snapshot.Whole) (hplan : plan.Reordered plan')
    (hsnapshot : snapshot.Reordered snapshot') :
    placement plan' snapshot' = placement plan snapshot := by
  have hany : ∀ {ρ : Type} (fits : PlanNode → ρ → Bool) record,
      plan.nodes.any (fits · record) = plan'.nodes.any (fits · record) := fun fits record =>
    hplan.nodes.any_eq
  have hevidence : ∀ node, evidenceAt snapshot' node = evidenceAt snapshot node := by
    intro node
    simp only [evidenceAt, Evidence.mk.injEq]
    exact ⟨sortedBy_filter_of_perm hwhole.activityIDs hsnapshot.activities fun _ => rfl,
      sortedBy_filter_of_perm hwhole.timerIDs hsnapshot.timers fun _ => rfl,
      sortedBy_filter_of_perm hwhole.eventIDs hsnapshot.events fun _ => rfl,
      sortedBy_filter_of_perm hwhole.claimIDs hsnapshot.claims fun _ => rfl⟩
  ext1
  · simp only [placement, hevidence]
    rw [sortedBy_eq_of_perm hnodes hplan.nodes.symm]
  · exact sortedBy_filter_of_perm hwhole.claimIDs hsnapshot.claims fun _ => rfl
  · simp only [placement, unplannedEvidence, Evidence.mk.injEq]
    refine ⟨?_, ?_, ?_, ?_⟩
    · exact sortedBy_filter_of_perm hwhole.activityIDs hsnapshot.activities fun record => by rw [hany]
    · exact sortedBy_filter_of_perm hwhole.timerIDs hsnapshot.timers fun record => by rw [hany]
    · exact sortedBy_filter_of_perm hwhole.eventIDs hsnapshot.events fun record => by rw [hany]
    · exact sortedBy_filter_of_perm hwhole.claimIDs hsnapshot.claims fun record => by rw [hany]

theorem RunSnapshot.Whole.of_reordered (hwhole : snapshot.Whole)
    (hsnapshot : snapshot.Reordered snapshot') : snapshot'.Whole where
  key := hsnapshot.key ▸ hwhole.key
  workflow := hsnapshot.key ▸ hsnapshot.workflow ▸ hwhole.workflow
  activity record hrecord :=
    hsnapshot.key ▸ hwhole.activity record (hsnapshot.activities.mem_iff.2 hrecord)
  timer record hrecord := hsnapshot.key ▸ hwhole.timer record (hsnapshot.timers.mem_iff.2 hrecord)
  event record hrecord := hsnapshot.key ▸ hwhole.event record (hsnapshot.events.mem_iff.2 hrecord)
  claim record hrecord := hsnapshot.key ▸ hwhole.claim record (hsnapshot.claims.mem_iff.2 hrecord)
  activityIDs := (hsnapshot.activities.map _).nodup_iff.1 hwhole.activityIDs
  timerIDs := (hsnapshot.timers.map _).nodup_iff.1 hwhole.timerIDs
  eventIDs := (hsnapshot.events.map _).nodup_iff.1 hwhole.eventIDs
  claimIDs := (hsnapshot.claims.map _).nodup_iff.1 hwhole.claimIDs

theorem WorkflowPlan.Reordered.forward (hplan : plan.Reordered plan') :
    plan.Forward = plan'.Forward := by
  funext source target
  rw [WorkflowPlan.Forward, WorkflowPlan.Forward, hplan.edges]

theorem WellFormed.of_reordered (h : WellFormed plan) (hplan : plan.Reordered plan') :
    WellFormed plan' := by
  have hmem : ∀ node, node ∈ plan'.nodes ↔ node ∈ plan.nodes := fun node => hplan.nodes.mem_iff.symm
  constructor
  · exact (hplan.nodes.map _).nodup_iff.1 h.distinct
  all_goals simp only [hmem, ← hplan.edges, ← hplan.forward]
  · exact h.callable
  · exact h.joined
  · exact h.edges
  · exact h.conditional
  · exact h.labels
  · exact h.data
  · exact h.dataTargets
  · exact h.loopBack
  · exact h.acyclic

theorem fieldsOk_of_reordered (h : plan.fieldsOk = true) (hplan : plan.Reordered plan') :
    plan'.fieldsOk = true := by
  have hmem : ∀ node, node ∈ plan'.nodes ↔ node ∈ plan.nodes := fun node => hplan.nodes.mem_iff.symm
  rw [WorkflowPlan.fieldsOk_iff] at h ⊢
  simpa only [hmem, ← hplan.edges, ← hplan.planID, ← hplan.revision, ← hplan.annotations,
    ← hplan.nodes.length_eq] using h

end Reordered

end Layout

end Temporaless.Visualization
