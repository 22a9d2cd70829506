import Temporaless.Visualization.Placement

/-!
# The three projections compute the layout

Each SDK ends with the layout of the plan: the Go adapter by a loop whose state is the layout of the
records so far, the Python SDK by nodes that do not depend on what earlier ones have taken, the
TypeScript SDK by filters that say where a record belongs.
-/

namespace Temporaless.Visualization

open KeySort

variable {node : PlanNode} {wanted : String}

section Bytes

variable {s t : String}

theorem utf8EncodeChar_of_segmentChar {c : Char} (h : segmentChar c = true) :
    (String.utf8EncodeChar c).map UInt8.toNat = [c.toNat] := by
  have hascii : c.val.toNat < 128 := UInt32.lt_iff_toNat_lt.1 (TypeScript.ascii_of_segmentChar h)
  have hsmall : c.val.toNat ≤ 127 := by omega
  have hbyte : c.toNat % 2 ^ 8 = c.toNat := Nat.mod_eq_of_lt (by change c.val.toNat < 256; omega)
  simp only [String.utf8EncodeChar, hsmall, if_true, List.map_cons, List.map_nil, UInt8.toNat_ofNat']
  rw [← hbyte]
  rfl

theorem utf8Bytes_of_plain (h : Plain s) : utf8Bytes s = s.toList.map Char.toNat := by
  have hchars : ∀ chars : List Char, chars.all segmentChar = true →
      (chars.flatMap String.utf8EncodeChar).map UInt8.toNat = chars.map Char.toNat := by
    intro chars
    induction chars with
    | nil => simp
    | cons c chars ih =>
      intro hall
      rw [List.all_cons, Bool.and_eq_true] at hall
      rw [List.flatMap_cons, List.map_append, utf8EncodeChar_of_segmentChar hall.1, ih hall.2]
      rfl
  exact hchars s.toList h.2

theorem map_toNat_lt {chars chars' : List Char} (h : chars < chars') :
    chars.map Char.toNat < chars'.map Char.toNat := by
  induction chars generalizing chars' with
  | nil =>
    cases chars' with
    | nil => exact absurd h (lt_irrefl _)
    | cons c' chars' => exact List.nil_lt_cons _ _
  | cons c chars ih =>
    cases chars' with
    | nil => exact absurd h (List.not_lt_nil _)
    | cons c' chars' =>
      rw [List.map_cons, List.map_cons, List.cons_lt_cons_iff]
      rcases List.cons_lt_cons_iff.1 h with hlt | ⟨heq, hlt⟩
      · exact .inl (UInt32.lt_iff_toNat_lt.1 hlt)
      · exact .inr ⟨by rw [heq], ih hlt⟩

theorem utf8Bytes_lt (hs : Plain s) (ht : Plain t) (h : s < t) : utf8Bytes s < utf8Bytes t := by
  rw [utf8Bytes_of_plain hs, utf8Bytes_of_plain ht]
  exact map_toNat_lt (String.lt_iff_toList_lt.1 h)

theorem TypeScript.compareBytes_nonpos {left right : List Nat} :
    TypeScript.compareBytes left right ≤ 0 ↔ left ≤ right := by
  induction left generalizing right with
  | nil =>
    cases right with
    | nil => simp [TypeScript.compareBytes]
    | cons b right =>
      simp only [TypeScript.compareBytes, List.length_nil, List.length_cons]
      exact iff_of_true (by omega) (not_lt.1 (List.not_lt_nil _))
  | cons a left ih =>
    cases right with
    | nil =>
      simp only [TypeScript.compareBytes, List.length_nil, List.length_cons]
      exact iff_of_false (by omega) (not_le_of_gt (List.nil_lt_cons _ _))
    | cons b right =>
      have hle : a :: left ≤ b :: right ↔ ¬ b :: right < a :: left := not_lt.symm
      rw [TypeScript.compareBytes, hle, List.cons_lt_cons_iff]
      by_cases hab : a = b
      · subst hab
        simp [ih]
      · have hne : (a : Int) - b ≠ 0 := by omega
        have hba : ¬ b = a := fun h => hab h.symm
        simp only [hne, if_true, ne_eq, not_false_eq_true, hba, false_and, or_false]
        omega

theorem sortedBy_utf8 {ρ : Type} {id : ρ → String} {records : List ρ}
    (hdistinct : (records.map id).Nodup) (hplain : ∀ record ∈ records, Plain (id record)) :
    sortedBy (fun record => utf8Bytes (id record)) records = sortedBy id records :=
  sortedBy_eq_of_lt hdistinct fun a ha b hb => utf8Bytes_lt (hplain a ha) (hplain b hb)

theorem TypeScript.sortedBy_eq {ρ : Type} {id : ρ → String} {records : List ρ}
    (hdistinct : (records.map id).Nodup) (hplain : ∀ record ∈ records, Plain (id record)) :
    TypeScript.sortedBy id records = KeySort.sortedBy id records := by
  have horder : (fun left right : ρ => TypeScript.compareUtf8 (id left) (id right) ≤ 0) =
      fun left right => utf8Bytes (id left) ≤ utf8Bytes (id right) := by
    funext left right
    exact propext TypeScript.compareBytes_nonpos
  rw [← sortedBy_utf8 hdistinct hplain, TypeScript.sortedBy, KeySort.sortedBy]
  simp only [horder]

end Bytes

section Go

variable {ρ : Type} {nodes : List PlanNode} {fits : PlanNode → ρ → Bool} {unplanned : List ρ}

theorem assign_map (hdistinct : (nodes.map PlanNode.nodeID).Nodup) {gather : PlanNode → NodeProjection}
    (hgather : ∀ node, (gather node).node = node) {record : ρ} {id : String}
    {accepts : NodeProjection → Bool} {put : NodeProjection → NodeProjection}
    (hid : ∀ node, fits node record = true → node.nodeID = id)
    (haccepts : ∀ node ∈ nodes, node.nodeID = id → accepts (gather node) = fits node record) :
    assign (nodes.map gather, unplanned) record id accepts put =
      if nodes.any (fits · record) then
        (nodes.map fun node => if fits node record then put (gather node) else gather node, unplanned)
      else (nodes.map gather, unplanned ++ [record]) := by
  have hfind : ((nodes.map gather).find? fun node => node.node.nodeID = id) =
      (NodeMap.get nodes id).map gather := by
    rw [List.find?_map, NodeMap.get]
    congr 2
    funext node
    simp [hgather]
  have hget : ∀ node, NodeMap.get nodes id = some node ↔ node ∈ nodes ∧ node.nodeID = id :=
    fun node => get_eq_some hdistinct
  have hany : ((NodeMap.get nodes id).map gather).any accepts = nodes.any (fits · record) := by
    rw [Bool.eq_iff_iff, List.any_eq_true, Option.any_eq_true]
    constructor
    · intro h
      obtain ⟨projection, hsome, haccept⟩ := h
      obtain ⟨node, hnode, rfl⟩ := Option.map_eq_some_iff.1 hsome
      obtain ⟨hmem, hsame⟩ := (hget node).1 hnode
      exact ⟨node, hmem, by rw [← haccepts node hmem hsame, haccept]⟩
    · intro h
      obtain ⟨node, hmem, hfit⟩ := h
      refine ⟨gather node, ?_, by rw [haccepts node hmem (hid node hfit), hfit]⟩
      rw [(hget node).2 ⟨hmem, hid node hfit⟩]
      rfl
  rw [assign, hfind, hany]
  split
  next h =>
    obtain ⟨fitting, hmem, hfit⟩ := List.any_eq_true.1 h
    have hsame : ∀ node ∈ nodes, node.nodeID = id ↔ fits node record = true := by
      intro node hnode
      constructor
      · intro heq
        have hfound := (hget node).2 ⟨hnode, heq⟩
        rw [(hget fitting).2 ⟨hmem, hid fitting hfit⟩] at hfound
        rw [← Option.some.inj hfound, hfit]
      · exact hid node
    rw [List.map_map]
    congr 1
    apply List.map_congr_left
    intro node hnode
    simp only [Function.comp_apply, hgather, hsame node hnode]
  next => rfl

theorem assign_gather (hdistinct : (nodes.map PlanNode.nodeID).Nodup)
    {gather : List ρ → PlanNode → NodeProjection} {done : List ρ} {record : ρ} {id : String}
    {accepts : NodeProjection → Bool} {put : NodeProjection → NodeProjection}
    (hgather : ∀ node, (gather done node).node = node)
    (hid : ∀ node, fits node record = true → node.nodeID = id)
    (haccepts : ∀ node ∈ nodes, node.nodeID = id → accepts (gather done node) = fits node record)
    (hput : ∀ node, gather (done ++ [record]) node =
      if fits node record then put (gather done node) else gather done node) :
    assign (nodes.map (gather done), unplanned) record id accepts put =
      (nodes.map (gather (done ++ [record])),
        if nodes.any (fits · record) then unplanned else unplanned ++ [record]) := by
  rw [assign_map hdistinct hgather hid haccepts, funext hput]
  split
  next h => rfl
  next h =>
    have hnone : ∀ node ∈ nodes, fits node record = false := by
      intro node hnode
      simpa using fun hfit => h (List.any_eq_true.2 ⟨node, hnode, hfit⟩)
    have hsame : nodes.map (fun node => if fits node record = true then put (gather done node)
        else gather done node) = nodes.map (gather done) := by
      apply List.map_congr_left
      intro node hnode
      simp [hnone node hnode]
    rw [hsame]

theorem callable_eq (kind : NodeKind) :
    kind.callable = (decide (kind = .activity) || decide (kind = .branch)) := by
  cases kind <;> rfl

theorem find?_eq_none_of_distinct {id : ρ → String} {done rest : List ρ} {record : ρ}
    (hdistinct : ((done ++ record :: rest).map id).Nodup) (hnode : node.nodeID = id record)
    (hid : ∀ record, fits node record = true → node.nodeID = id record) :
    done.find? (fits node) = none := by
  rw [List.find?_eq_none]
  intro earlier hearlier hfit
  rw [List.map_append, List.nodup_append] at hdistinct
  exact hdistinct.2.2 _ (List.mem_map_of_mem hearlier) _ (by simp) ((hid earlier hfit).symm.trans hnode)

theorem filter_append_singleton {p : ρ → Bool} (done : List ρ) (record : ρ) :
    (done ++ [record]).filter p = if p record then done.filter p ++ [record] else done.filter p := by
  rw [List.filter_append]
  split
  next h => simp [h]
  next h => simp [h]

theorem filter_unplanned (done : List ρ) (record : ρ) :
    (done ++ [record]).filter (fun record => !nodes.any (fits · record)) =
      if nodes.any (fits · record) then done.filter fun record => !nodes.any (fits · record)
      else done.filter (fun record => !nodes.any (fits · record)) ++ [record] := by
  rw [filter_append_singleton]
  cases nodes.any (fits · record) <;> rfl

/-! The nodes after a loop over some of the records. -/

variable (base : PlanNode → NodeProjection)

def withActivities (done : List ActivityRecord) (node : PlanNode) : NodeProjection :=
  { base node with activity := done.find? (activityFits node) }

def withTimers (done : List TimerRecord) (node : PlanNode) : NodeProjection :=
  { base node with timers := done.filter (timerFits node) }

def withEvents (done : List EventRecord) (node : PlanNode) : NodeProjection :=
  { base node with event := done.find? (eventFits node) }

def withClaims (done : List ClaimRecord) (node : PlanNode) : NodeProjection :=
  { base node with claims := done.filter (claimFits node) }

variable (hnodes : (nodes.map PlanNode.nodeID).Nodup) (hnode : ∀ node, (base node).node = node)
include hnodes hnode

theorem foldl_assignActivity {records : List ActivityRecord}
    (hrecords : (records.map activityID).Nodup) :
    records.foldl assignActivity (nodes.map (withActivities base []), []) =
      (nodes.map (withActivities base records),
        records.filter fun record => !nodes.any (activityFits · record)) := by
  apply Loop.foldl_eq fun done => (nodes.map (withActivities base done),
    done.filter fun record => !nodes.any (activityFits · record))
  intro done record rest hsplit
  rw [hsplit] at hrecords
  have hnone : ∀ node, node.nodeID = activityID record → done.find? (activityFits node) = none :=
    fun node hid => find?_eq_none_of_distinct hrecords hid (nodeID_of_activityFits node)
  rw [filter_unplanned]
  refine assign_gather hnodes hnode (fun node => nodeID_of_activityFits node record) ?_ ?_
  · intro node _ hid
    simp [withActivities, activityFits, hnone node hid, hnode, hid, callable_eq]
  · intro node
    rw [withActivities, List.find?_append]
    split
    next hfit => simp [withActivities, hnone node (nodeID_of_activityFits node record hfit), hfit]
    next hfit => simp [withActivities, hfit]

theorem foldl_assignEvent {records : List EventRecord} (hrecords : (records.map eventID).Nodup) :
    records.foldl assignEvent (nodes.map (withEvents base []), []) =
      (nodes.map (withEvents base records),
        records.filter fun record => !nodes.any (eventFits · record)) := by
  apply Loop.foldl_eq fun done => (nodes.map (withEvents base done),
    done.filter fun record => !nodes.any (eventFits · record))
  intro done record rest hsplit
  rw [hsplit] at hrecords
  have hnone : ∀ node, node.nodeID = eventID record → done.find? (eventFits node) = none :=
    fun node hid => find?_eq_none_of_distinct hrecords hid (nodeID_of_eventFits node)
  rw [filter_unplanned]
  refine assign_gather hnodes hnode (fun node => nodeID_of_eventFits node record) ?_ ?_
  · intro node _ hid
    simp [withEvents, eventFits, hnone node hid, hnode, hid]
  · intro node
    rw [withEvents, List.find?_append]
    split
    next hfit => simp [withEvents, hnone node (nodeID_of_eventFits node record hfit), hfit]
    next hfit => simp [withEvents, hfit]

omit hnodes hnode in
theorem assignTimer_eq (state : List NodeProjection × List TimerRecord) (record : TimerRecord) :
    assignTimer state record = assign state record (timerTarget record)
      (fun node => if record.timerKind = .activityRetry then node.node.kind.callable
        else timerMatchesNode record node.node)
      fun node => { node with timers := node.timers ++ [record] } := by
  unfold assignTimer timerTarget
  split
  next h => simp only [callable_eq]
  next h => rfl

omit hnodes hnode in
theorem timerFits_eq {record : TimerRecord} (h : node.nodeID = timerTarget record) :
    timerFits node record = if record.timerKind = .activityRetry then node.kind.callable
      else timerMatchesNode record node := by
  unfold timerTarget at h
  cases hrecord : record.timerKind <;> cases hkind : node.kind <;>
    simp_all [timerFits, timerMatchesNode, NodeKind.callable]

theorem foldl_assignTimer (records : List TimerRecord) :
    records.foldl assignTimer (nodes.map (withTimers base []), []) =
      (nodes.map (withTimers base records),
        records.filter fun record => !nodes.any (timerFits · record)) := by
  apply Loop.foldl_eq fun done => (nodes.map (withTimers base done),
    done.filter fun record => !nodes.any (timerFits · record))
  intro done record rest _
  rw [assignTimer_eq, filter_unplanned]
  refine assign_gather hnodes hnode (fun node => nodeID_of_timerFits node record) ?_ ?_
  · intro node _ hid
    simp only [withTimers, hnode, timerFits_eq hid]
  · intro node
    rw [withTimers, filter_append_singleton]
    split <;> rfl

omit hnodes hnode in
theorem claimFits_eq {record : ClaimRecord} (h : node.nodeID = record.resourceId) :
    claimFits node record = claimMatchesNode record node := by
  cases hrecord : record.resourceType <;> cases hkind : node.kind <;>
    simp_all [claimFits, claimMatchesNode]

theorem foldl_assignClaim (records : List ClaimRecord) :
    records.foldl assignClaim ([], nodes.map (withClaims base []), []) =
      (records.filter fun record => record.resourceType = .workflow,
        nodes.map (withClaims base records),
        records.filter fun record =>
          record.resourceType ≠ .workflow && !nodes.any (claimFits · record)) := by
  apply Loop.foldl_eq fun done => (done.filter fun record => record.resourceType = .workflow,
    nodes.map (withClaims base done),
    done.filter fun record => record.resourceType ≠ .workflow && !nodes.any (claimFits · record))
  intro done record rest _
  simp only [assignClaim, filter_append_singleton]
  split
  next hrun =>
    have hnone : ∀ node, claimFits node record = false := by
      intro node
      simpa using fun hfit => not_workflow_of_claimFits hfit hrun
    have hsame : withClaims base (done ++ [record]) = withClaims base done := by
      funext node
      rw [withClaims, withClaims, filter_append_singleton, hnone]
      rfl
    simp [hrun, hsame]
  next hrun =>
    rw [assign_gather hnodes hnode (fun node => nodeID_of_claimFits node record)]
    · cases hany : nodes.any (claimFits · record) <;> simp [hrun]
    · intro node _ hid
      simp only [withClaims, hnode, claimFits_eq hid]
    · intro node
      rw [withClaims, filter_append_singleton]
      split <;> rfl

end Go

section Records

variable {snapshot : RunSnapshot} (hwhole : snapshot.Whole)
include hwhole

theorem plain_activityID : ∀ record ∈ snapshot.activities, Plain (activityID record) :=
  fun record hrecord => plain_recordID (hwhole.activity record hrecord).1

theorem plain_timerID : ∀ record ∈ snapshot.timers, Plain (timerID record) :=
  fun record hrecord => plain_recordID (hwhole.timer record hrecord).1

theorem plain_eventID : ∀ record ∈ snapshot.events, Plain (eventID record) :=
  fun record hrecord => plain_recordID (hwhole.event record hrecord).1

theorem plain_claimID : ∀ record ∈ snapshot.claims, Plain (claimID record) :=
  fun record hrecord => plain_recordID (hwhole.claim record hrecord).1

end Records

section Lists

variable {ρ : Type} {id : ρ → String} {records : List ρ} (hdistinct : (records.map id).Nodup)
include hdistinct

theorem filter_eq_find?_of_distinct {p : ρ → Bool}
    (hid : ∀ record, p record = true → wanted = id record) :
    records.filter p = (records.find? p).toList := by
  apply filter_eq_find?
  refine List.Pairwise.imp ?_ (List.pairwise_map.1 hdistinct)
  intro a b hne h
  exact hne ((hid a h.1).symm.trans (hid b h.2))

theorem toList_find?_sortedBy {p : ρ → Bool}
    (hid : ∀ record, p record = true → wanted = id record) :
    ((sortedBy id records).find? p).toList = sortedBy id (records.filter p) := by
  have hsorted : ((sortedBy id records).map id).Nodup := (sortedBy_perm.map id).nodup_iff.2 hdistinct
  rw [← filter_eq_find?_of_distinct hsorted hid, filter_sortedBy hdistinct]

theorem sortedBy_utf8_filter (hplain : ∀ record ∈ records, Plain (id record)) (p : ρ → Bool) :
    sortedBy (fun record => utf8Bytes (id record)) ((sortedBy id records).filter p) =
      sortedBy id (records.filter p) := by
  have hfilter := nodup_map_filter hdistinct p
  rw [filter_sortedBy hdistinct, sortedBy_utf8]
  · exact sortedBy_eq_of_perm hfilter sortedBy_perm
  · exact (sortedBy_perm.map id).nodup_iff.2 hfilter
  · intro record hrecord
    exact hplain record (List.mem_of_mem_filter (mem_sortedBy.1 hrecord))

end Lists

section GoLayout

variable {plan : WorkflowPlan} {inspection : RunInspection}

theorem layout_joinRun (hdistinct : (plan.nodes.map PlanNode.nodeID).Nodup)
    (hplain : ∀ node ∈ plan.nodes, Plain node.nodeID) (hwhole : inspection.Whole) :
    (joinRun plan inspection).layout = placement plan inspection.toRunSnapshot := by
  have hnodes : ((sortedBy PlanNode.nodeID plan.nodes).map PlanNode.nodeID).Nodup :=
    (sortedBy_perm.map _).nodup_iff.2 hdistinct
  have hsorted : sortedBy (fun projection : NodeProjection => utf8Bytes projection.node.nodeID)
      (plan.nodes.map .empty) = (sortedBy PlanNode.nodeID plan.nodes).map .empty := by
    rw [← map_sortedBy, ← sortedBy_utf8 hdistinct hplain]
    rfl
  have hactivities : sortedActivities inspection.activities = sortedBy activityID inspection.activities :=
    sortedBy_utf8 hwhole.activityIDs (plain_activityID hwhole)
  have htimers : sortedTimers inspection.timers = sortedBy timerID inspection.timers :=
    sortedBy_utf8 hwhole.timerIDs (plain_timerID hwhole)
  have hevents : sortedEvents inspection.events = sortedBy eventID inspection.events :=
    sortedBy_utf8 hwhole.eventIDs (plain_eventID hwhole)
  have hclaims : sortedClaims inspection.claims = sortedBy claimID inspection.claims :=
    sortedBy_utf8 hwhole.claimIDs (plain_claimID hwhole)
  -- The nodes after each of the four loops.
  have hfirst : (sortedBy activityID inspection.activities).foldl assignActivity
      ((sortedBy PlanNode.nodeID plan.nodes).map .empty, []) = _ :=
    foldl_assignActivity .empty hnodes (fun _ => rfl) ((sortedBy_perm.map _).nodup_iff.2 hwhole.activityIDs)
  have hsecond : (sortedBy timerID inspection.timers).foldl assignTimer
      ((sortedBy PlanNode.nodeID plan.nodes).map
        (withActivities .empty (sortedBy activityID inspection.activities)), []) = _ :=
    foldl_assignTimer (withActivities .empty _) hnodes (fun _ => rfl) _
  have hthird : (sortedBy eventID inspection.events).foldl assignEvent
      ((sortedBy PlanNode.nodeID plan.nodes).map (withTimers
        (withActivities .empty (sortedBy activityID inspection.activities))
        (sortedBy timerID inspection.timers)), []) = _ :=
    foldl_assignEvent (withTimers (withActivities .empty _) _) hnodes (fun _ => rfl) ((sortedBy_perm.map _).nodup_iff.2 hwhole.eventIDs)
  have hlast : (sortedBy claimID inspection.claims).foldl assignClaim
      ([], (sortedBy PlanNode.nodeID plan.nodes).map (withEvents (withTimers
        (withActivities .empty (sortedBy activityID inspection.activities))
        (sortedBy timerID inspection.timers)) (sortedBy eventID inspection.events)), []) = _ :=
    foldl_assignClaim (withEvents (withTimers (withActivities .empty _) _) _) hnodes (fun _ => rfl) _
  have hany : ∀ {ρ : Type} (fits : PlanNode → ρ → Bool) record,
      (sortedBy PlanNode.nodeID plan.nodes).any (fits · record) = plan.nodes.any (fits · record) :=
    fun fits record => sortedBy_perm.any_eq
  simp only [joinRun, RunProjection.layout, hsorted, hactivities, htimers, hevents, hclaims, hfirst,
    hsecond, hthird, hlast, hany, List.map_map]
  ext1
  · apply List.map_congr_left
    intro node _
    simp only [Function.comp_apply, NodeProjection.entry, withClaims, withEvents, withTimers,
      withActivities, evidenceAt, NodeProjection.empty]
    rw [toList_find?_sortedBy hwhole.activityIDs (nodeID_of_activityFits node),
      toList_find?_sortedBy hwhole.eventIDs (nodeID_of_eventFits node)]
    rw [sortedTimers, sortedBy_utf8_filter hwhole.timerIDs (plain_timerID hwhole), sortedClaims,
      sortedBy_utf8_filter hwhole.claimIDs (plain_claimID hwhole)]
  · exact filter_sortedBy hwhole.claimIDs _
  · simp only [placement, unplannedEvidence, Evidence.mk.injEq]
    exact ⟨filter_sortedBy hwhole.activityIDs _, filter_sortedBy hwhole.timerIDs _,
      filter_sortedBy hwhole.eventIDs _, filter_sortedBy hwhole.claimIDs _⟩

end GoLayout

section Python

variable {ρ : Type} {id : ρ → String} {records : List ρ}

theorem Python.id_of_byID {record : ρ} (h : Python.byID id records wanted = some record) :
    id record = wanted := by
  simpa using List.find?_some h

theorem Python.toList_byID (hdistinct : (records.map id).Nodup) (wanted : String) :
    (Python.byID id records wanted).toList = records.filter fun record => id record = wanted := by
  have hid : ∀ record, decide (id record = wanted) = true → wanted = id record := by
    intro record h
    exact (of_decide_eq_true h).symm
  have hreverse : (records.reverse.map id).Nodup := by
    rw [List.map_reverse]
    exact List.nodup_reverse.2 hdistinct
  have hone : ∀ o : Option ρ, o.toList.reverse = o.toList := by
    intro o
    cases o <;> rfl
  rw [Python.byID, ← filter_eq_find?_of_distinct hreverse hid, List.filter_reverse,
    filter_eq_find?_of_distinct hdistinct hid, hone]

theorem Python.foundID_eq {record : Option ρ}
    (h : ∀ found, record = some found → id found = wanted) :
    Python.foundID wanted record = record.toList.map id := by
  cases record with
  | none => rfl
  | some found => simp [Python.foundID, h found rfl]

def Python.taken (inspection : RunSnapshot) (node : PlanNode) : NodeProjection :=
  (Python.takeEvent inspection (Python.takeBoundary inspection ⟨[], [], [], []⟩ node)).2

theorem Python.projectNode_eq (inspection : RunSnapshot) (matched : Python.Matched)
    (projected : List NodeProjection) (node : PlanNode) :
    Python.projectNode inspection (matched, projected) node =
      (⟨matched.activityIDs ++ (Python.taken inspection node).entry.2.activities.map activityID,
        matched.timerIDs ++ (Python.taken inspection node).entry.2.timers.map timerID,
        matched.eventIDs ++ (Python.taken inspection node).entry.2.events.map eventID,
        matched.claimIDs ++ (Python.taken inspection node).entry.2.claims.map claimID⟩,
        projected ++ [Python.taken inspection node]) := by
  have hactivity : Python.foundID node.nodeID (Python.byID activityID inspection.activities node.nodeID) =
      _ := Python.foundID_eq fun _ => Python.id_of_byID
  have hevent : Python.foundID node.nodeID (Python.byID eventID inspection.events node.nodeID) = _ :=
    Python.foundID_eq fun _ => Python.id_of_byID
  have htimer : ∀ p, Python.foundID node.nodeID
      ((Python.byID timerID inspection.timers node.nodeID).filter p) =
      ((Python.byID timerID inspection.timers node.nodeID).filter p).toList.map timerID := fun p =>
    Python.foundID_eq fun _ hfound => Python.id_of_byID (Option.filter_eq_some_iff.1 hfound).1
  cases hkind : node.kind <;>
    simp [Python.projectNode, Python.taken, Python.takeEvent, Python.takeBoundary, hkind,
      NodeProjection.empty, NodeProjection.entry, hactivity, hevent, htimer]

theorem Python.foldl_projectNode (inspection : RunSnapshot) (nodes : List PlanNode)
    (matched : Python.Matched) (projected : List NodeProjection) :
    nodes.foldl (Python.projectNode inspection) (matched, projected) =
      (⟨matched.activityIDs ++ nodes.flatMap fun node =>
          (Python.taken inspection node).entry.2.activities.map activityID,
        matched.timerIDs ++ nodes.flatMap fun node =>
          (Python.taken inspection node).entry.2.timers.map timerID,
        matched.eventIDs ++ nodes.flatMap fun node =>
          (Python.taken inspection node).entry.2.events.map eventID,
        matched.claimIDs ++ nodes.flatMap fun node =>
          (Python.taken inspection node).entry.2.claims.map claimID⟩,
        projected ++ nodes.map (Python.taken inspection)) := by
  induction nodes generalizing matched projected with
  | nil => simp
  | cons node nodes ih =>
    rw [List.foldl_cons, Python.projectNode_eq, ih]
    simp [List.append_assoc]

theorem filter_not_taken (hdistinct : (records.map id).Nodup) {fits : PlanNode → ρ → Bool}
    (nodes : List PlanNode) :
    (records.filter fun record =>
      id record ∉ nodes.flatMap fun node => (sortedBy id (records.filter (fits node))).map id) =
      records.filter fun record => !nodes.any (fits · record) := by
  apply List.filter_congr
  intro record hrecord
  rw [Bool.eq_iff_iff, decide_eq_true_iff, Bool.not_eq_true', ← Bool.not_eq_true, List.any_eq_true,
    not_iff_not, List.mem_flatMap]
  constructor
  · intro h
    obtain ⟨node, hnode, hid⟩ := h
    obtain ⟨other, hother, heq⟩ := List.mem_map.1 hid
    obtain ⟨hmem, hfit⟩ := List.mem_filter.1 (mem_sortedBy.1 hother)
    rw [List.inj_on_of_nodup_map hdistinct hmem hrecord heq] at hfit
    exact ⟨node, hnode, hfit⟩
  · intro h
    obtain ⟨node, hnode, hfit⟩ := h
    exact ⟨node, hnode, List.mem_map_of_mem (mem_sortedBy.2 (List.mem_filter.2 ⟨hrecord, hfit⟩))⟩

section Layout

variable {plan : WorkflowPlan} {inspection : RunInspection} (hwhole : inspection.Whole)
include hwhole

theorem Python.entry_taken (hplain : Plain node.nodeID) :
    (Python.taken inspection.toRunSnapshot node).entry =
      (node, evidenceAt inspection.toRunSnapshot node) := by
  have hactivity := Python.toList_byID hwhole.activityIDs node.nodeID
  have hevent := Python.toList_byID hwhole.eventIDs node.nodeID
  have htimer : ∀ kind : TimerKind, ((Python.byID timerID inspection.timers node.nodeID).filter fun record =>
      decide (record.timerKind = kind)).toList = inspection.timers.filter fun record =>
        decide (record.timerKind = kind) && decide (timerID record = node.nodeID) := by
    intro kind
    rw [← List.filter_filter, ← Python.toList_byID hwhole.timerIDs]
    cases Python.byID timerID inspection.timers node.nodeID with
    | none => rfl
    | some record =>
      cases hkind : decide (record.timerKind = kind) <;> simp [hkind, Option.filter]
  have hretry : Python.retryTimersByActivity inspection.timers node.nodeID =
      inspection.timers.filter fun record =>
        decide (record.timerKind = .activityRetry) && decide (record.retryActivityId = node.nodeID) := by
    apply List.filter_congr
    intro record _
    by_cases hid : record.retryActivityId = node.nodeID
    · simp [hid, hplain.1]
    · simp [hid]
  have hA : activityFits node = fun record =>
    node.kind.callable && decide (activityID record = node.nodeID) := rfl
  have hT : timerFits node = fun record => timerFits node record := rfl
  have hE : eventFits node = fun record =>
    decide (node.kind = .waitEvent) && decide (eventID record = node.nodeID) := rfl
  have hC : claimFits node = fun record => claimFits node record := rfl
  rw [evidenceAt, hA, hT, hE, hC]
  cases hkind : node.kind <;>
    simp [Python.taken, Python.takeEvent, Python.takeBoundary, hkind, NodeProjection.empty,
      NodeProjection.entry, timerFits, claimFits, Python.claimsByResource, NodeKind.callable,
      ← hactivity, hretry, ← htimer, ← hevent]

omit hwhole in
theorem filter_claims_not_taken {claims : List ClaimRecord} (hdistinct : (claims.map claimID).Nodup)
    (nodes : List PlanNode) :
    (claims.filter fun record => claimID record ∉
      (sortedBy claimID (claims.filter fun record => record.resourceType = .workflow)).map claimID ++
        nodes.flatMap fun node => (sortedBy claimID (claims.filter (claimFits node))).map claimID) =
      claims.filter fun record => record.resourceType ≠ .workflow && !nodes.any (claimFits · record) := by
  simp only [List.mem_append, not_or, Bool.decide_and]
  rw [← List.filter_filter, filter_not_taken hdistinct, List.filter_filter]
  apply List.filter_congr
  intro record hrecord
  have hrun : claimID record ∈ (sortedBy claimID
      (claims.filter fun record => record.resourceType = .workflow)).map claimID ↔
      record.resourceType = .workflow := by
    constructor
    · intro h
      obtain ⟨other, hother, heq⟩ := List.mem_map.1 h
      obtain ⟨hmem, htype⟩ := List.mem_filter.1 (mem_sortedBy.1 hother)
      rw [List.inj_on_of_nodup_map hdistinct hmem hrecord heq] at htype
      exact of_decide_eq_true htype
    · intro h
      exact List.mem_map_of_mem (mem_sortedBy.2 (List.mem_filter.2 ⟨hrecord, decide_eq_true h⟩))
  simp only [hrun, ne_eq]

theorem Python.layout_joinRun (hplain : ∀ node ∈ plan.nodes, Plain node.nodeID) :
    (Python.joinRun plan inspection).layout = placement plan inspection.toRunSnapshot := by
  have hentry : ∀ node ∈ sortedBy PlanNode.nodeID plan.nodes,
      (Python.taken inspection.toRunSnapshot node).entry =
        (node, evidenceAt inspection.toRunSnapshot node) := fun node hnode =>
    Python.entry_taken hwhole (hplain node (mem_sortedBy.1 hnode))
  have hany : ∀ {ρ : Type} (fits : PlanNode → ρ → Bool) record,
      (sortedBy PlanNode.nodeID plan.nodes).any (fits · record) = plan.nodes.any (fits · record) :=
    fun fits record => sortedBy_perm.any_eq
  have hids : ∀ ids : Evidence → List String, ((sortedBy PlanNode.nodeID plan.nodes).flatMap fun node =>
      ids (Python.taken inspection.toRunSnapshot node).entry.2) =
      (sortedBy PlanNode.nodeID plan.nodes).flatMap fun node =>
        ids (evidenceAt inspection.toRunSnapshot node) := fun ids =>
    List.flatMap_congr fun node hnode => by rw [hentry node hnode]
  have hactivities := hids fun evidence => evidence.activities.map activityID
  have htimers := hids fun evidence => evidence.timers.map timerID
  have hevents := hids fun evidence => evidence.events.map eventID
  have hclaims := hids fun evidence => evidence.claims.map claimID
  simp only [Python.joinRun, RunProjection.layout, Python.foldl_projectNode, hactivities, htimers, hevents,
    hclaims, List.nil_append, evidenceAt, filter_not_taken hwhole.activityIDs,
    filter_not_taken hwhole.timerIDs, filter_not_taken hwhole.eventIDs,
    filter_claims_not_taken hwhole.claimIDs, hany, List.map_map]
  ext1
  · exact List.map_congr_left hentry
  · rfl
  · rfl

end Layout

end Python

section TypeScript

variable {plan : WorkflowPlan} {snapshot : RunSnapshot}

theorem TypeScript.hasID_eq {kind : RecordKind} {key : Option (ItemKey kind)} {run : WorkflowKey}
    (h : key.map ItemKey.run = some run) (id : String) :
    TypeScript.hasID key id = decide (recordID key = id) := by
  obtain ⟨item, rfl, -⟩ := Option.map_eq_some_iff.1 h
  rw [Bool.eq_iff_iff, decide_eq_true_iff, TypeScript.hasID, decide_eq_true_iff]
  exact Option.some_inj

theorem TypeScript.keyIn_eq {kind : RecordKind} {key : Option (ItemKey kind)} {run : WorkflowKey}
    (h : key.map ItemKey.run = some run) (ids : List String) :
    TypeScript.keyIn key ids = decide (recordID key ∈ ids) := by
  obtain ⟨item, rfl, -⟩ := Option.map_eq_some_iff.1 h
  rfl

theorem TypeScript.mem_nodeIDs (wanted : PlanNode → Bool) (id : String) :
    decide (id ∈ TypeScript.nodeIDs plan wanted) =
      plan.nodes.any fun node => wanted node && decide (id = node.nodeID) := by
  rw [Bool.eq_iff_iff, decide_eq_true_iff, TypeScript.nodeIDs, List.mem_map, List.any_eq_true]
  constructor
  · intro h
    obtain ⟨node, hnode, rfl⟩ := h
    obtain ⟨hmem, hwanted⟩ := List.mem_filter.1 hnode
    exact ⟨node, hmem, by simp [hwanted]⟩
  · intro h
    obtain ⟨node, hmem, hnode⟩ := h
    rw [Bool.and_eq_true, decide_eq_true_iff] at hnode
    exact ⟨node, List.mem_filter.2 ⟨hmem, hnode.1⟩, hnode.2.symm⟩

theorem TypeScript.sortedBy_filter {ρ : Type} {id : ρ → String} {records : List ρ}
    (hdistinct : (records.map id).Nodup) (hplain : ∀ record ∈ records, Plain (id record))
    {p q : ρ → Bool} (hpq : ∀ record ∈ records, p record = q record) :
    TypeScript.sortedBy id (records.filter p) = KeySort.sortedBy id (records.filter q) := by
  rw [List.filter_congr hpq]
  exact TypeScript.sortedBy_eq (nodup_map_filter hdistinct q) fun record hrecord =>
    hplain record (List.mem_of_mem_filter hrecord)

variable (hwhole : snapshot.Whole)
include hwhole

theorem TypeScript.evidence_projectNode (node : PlanNode) :
    (TypeScript.projectNode snapshot node).toEvidence = evidenceAt snapshot node := by
  have hactivity : ∀ record ∈ snapshot.activities,
      TypeScript.hasID record.key node.nodeID = decide (activityID record = node.nodeID) :=
    fun record hrecord => TypeScript.hasID_eq (hwhole.activity record hrecord).2 node.nodeID
  have htimer : ∀ record ∈ snapshot.timers,
      TypeScript.hasID record.key node.nodeID = decide (timerID record = node.nodeID) :=
    fun record hrecord => TypeScript.hasID_eq (hwhole.timer record hrecord).2 node.nodeID
  have hevent : ∀ record ∈ snapshot.events,
      TypeScript.hasID record.key node.nodeID = decide (eventID record = node.nodeID) :=
    fun record hrecord => TypeScript.hasID_eq (hwhole.event record hrecord).2 node.nodeID
  simp only [TypeScript.projectNode, evidenceAt, Evidence.mk.injEq]
  refine ⟨?_, ?_, ?_, ?_⟩
  · split
    next hcallable =>
      apply TypeScript.sortedBy_filter hwhole.activityIDs (plain_activityID hwhole)
      intro record hrecord
      rw [hactivity record hrecord, activityFits, callable_eq]
      simp only [TypeScript.isActivity] at hcallable
      simp [hcallable]
    next hcallable =>
      simp only [TypeScript.isActivity, ← callable_eq, Bool.not_eq_true] at hcallable
      rw [List.filter_eq_nil_iff.2, sortedBy_nil]
      simp [activityFits, hcallable]
  · apply TypeScript.sortedBy_filter hwhole.timerIDs (plain_timerID hwhole)
    intro record hrecord
    rw [htimer record hrecord]
    cases hkind : node.kind <;> simp [TypeScript.isActivity, timerFits, hkind]
  · split
    next hkind =>
      apply TypeScript.sortedBy_filter hwhole.eventIDs (plain_eventID hwhole)
      intro record hrecord
      simp [hevent record hrecord, eventFits, hkind]
    next hkind =>
      rw [List.filter_eq_nil_iff.2, sortedBy_nil]
      simp [eventFits, hkind]
  · split
    next =>
      apply TypeScript.sortedBy_filter hwhole.claimIDs (plain_claimID hwhole)
      intro record hrecord
      cases hkind : node.kind <;>
        simp [TypeScript.isActivity, TypeScript.hasBoundaryTimer, claimFits, hkind]
    next hkind =>
      rw [List.filter_eq_nil_iff.2, sortedBy_nil]
      intro record _
      cases hnode : node.kind <;>
        simp_all [TypeScript.isActivity, TypeScript.hasBoundaryTimer, claimFits]

omit hwhole in
theorem TypeScript.timer_planned (record : TimerRecord) :
    ((decide (record.timerKind = .sleep) &&
        decide (timerID record ∈ TypeScript.nodeIDs plan fun node => node.kind = .sleep)) ||
      (decide (record.timerKind = .poll) &&
        decide (timerID record ∈ TypeScript.nodeIDs plan fun node =>
          node.kind = .waitEvent || node.kind = .waitWorkflow)) ||
      (decide (record.timerKind = .activityRetry) &&
        decide (record.retryActivityId ∈ TypeScript.nodeIDs plan fun node =>
          node.kind = .activity || node.kind = .branch))) =
      plan.nodes.any (timerFits · record) := by
  simp only [TypeScript.mem_nodeIDs]
  cases hrecord : record.timerKind with
  | unspecified =>
    have hnone : ∀ node, timerFits node record = false := by
      intro node
      cases hkind : node.kind <;> simp [timerFits, hkind, hrecord]
    simp [hnone]
  | sleep | activityRetry | poll =>
    simp only [decide_true, Bool.true_and, reduceCtorEq, decide_false, Bool.false_and, Bool.or_false,
      Bool.false_or]
    congr 1
    funext node
    cases hkind : node.kind <;> simp [timerFits, hkind, hrecord]

omit hwhole in
theorem any_or_any {α : Type} (f g : α → Bool) (l : List α) :
    (l.any f || l.any g) = l.any fun a => f a || g a := by
  induction l with
  | nil => rfl
  | cons a l ih => simp only [List.any_cons, ← ih, Bool.or_assoc, Bool.or_left_comm]

omit hwhole in
theorem TypeScript.claim_unplanned (record : ClaimRecord) :
    (decide (record.resourceType ≠ .workflow) &&
      (decide (record.resourceType ≠ .activity) ||
        decide (record.resourceId ∉ TypeScript.nodeIDs plan fun node =>
          node.kind = .activity || node.kind = .branch)) &&
      (decide (record.resourceType ≠ .timer) ||
        (decide (record.resourceId ∉ TypeScript.nodeIDs plan fun node => node.kind = .sleep) &&
          decide (record.resourceId ∉ TypeScript.nodeIDs plan fun node =>
            node.kind = .waitEvent || node.kind = .waitWorkflow)))) =
      (decide (record.resourceType ≠ .workflow) && !plan.nodes.any (claimFits · record)) := by
  simp only [decide_not, TypeScript.mem_nodeIDs]
  cases hrecord : record.resourceType with
  | unspecified | workflow | concurrencyKey =>
    have hnone : ∀ node, claimFits node record = false := by
      intro node
      cases hkind : node.kind <;> simp [claimFits, hkind, hrecord]
    simp [hnone]
  | activity =>
    simp only [decide_true, reduceCtorEq, decide_false, Bool.not_false, Bool.not_true, Bool.true_and,
      Bool.false_or, Bool.true_or, Bool.and_true]
    congr 2
    funext node
    cases hkind : node.kind <;> simp [claimFits, hkind, hrecord]
  | timer =>
    simp only [decide_true, reduceCtorEq, decide_false, Bool.not_false, Bool.not_true, Bool.true_and,
      Bool.false_or, Bool.true_or, ← Bool.not_or, any_or_any]
    congr 2
    funext node
    cases hkind : node.kind <;> simp [claimFits, hkind, hrecord]

theorem TypeScript.layout_joinRun (hdistinct : (plan.nodes.map PlanNode.nodeID).Nodup)
    (hplain : ∀ node ∈ plan.nodes, Plain node.nodeID) :
    (TypeScript.joinRun plan snapshot).layout = placement plan snapshot := by
  simp only [TypeScript.joinRun, TypeScript.RunProjection.layout, List.map_map,
    TypeScript.sortedBy_eq hdistinct hplain]
  ext1
  · apply List.map_congr_left
    intro node _
    simp only [Function.comp_apply, TypeScript.evidence_projectNode hwhole]
    rfl
  · exact TypeScript.sortedBy_filter hwhole.claimIDs (plain_claimID hwhole) fun _ _ => rfl
  · simp only [placement, unplannedEvidence, Evidence.mk.injEq]
    refine ⟨?_, ?_, ?_, ?_⟩
    · apply TypeScript.sortedBy_filter hwhole.activityIDs (plain_activityID hwhole)
      intro record hrecord
      rw [TypeScript.keyIn_eq (hwhole.activity record hrecord).2, TypeScript.mem_nodeIDs]
      simp only [activityFits, callable_eq]
      rfl
    · apply TypeScript.sortedBy_filter hwhole.timerIDs (plain_timerID hwhole)
      intro record hrecord
      rw [TypeScript.keyIn_eq (hwhole.timer record hrecord).2,
        TypeScript.keyIn_eq (hwhole.timer record hrecord).2, ← TypeScript.timer_planned]
      rfl
    · apply TypeScript.sortedBy_filter hwhole.eventIDs (plain_eventID hwhole)
      intro record hrecord
      rw [TypeScript.keyIn_eq (hwhole.event record hrecord).2, TypeScript.mem_nodeIDs]
      rfl
    · apply TypeScript.sortedBy_filter hwhole.claimIDs (plain_claimID hwhole)
      intro record _
      exact TypeScript.claim_unplanned record

end TypeScript

theorem fieldsOk_of_validatePlan {order : IterationOrder} {plan : WorkflowPlan}
    (h : validatePlan order plan = some (.ok ())) : plan.fieldsOk = true := by
  cases hfields : plan.fieldsOk with
  | true => rfl
  | false =>
    obtain ⟨err, hgather⟩ : ∃ err, gatherGraph plan = .error err := by
      unfold gatherGraph
      cases checkSizes plan with
      | error err => exact ⟨err, rfl⟩
      | ok _ => exact ⟨.constraints, by rw [hfields]; rfl⟩
    simp [validatePlan, hgather] at h

theorem accepted_of_validatePlan {order : IterationOrder} {plan : WorkflowPlan}
    (h : validatePlan order plan = some (.ok ())) : plan.fieldsOk = true ∧ WellFormed plan := by
  have hfields := fieldsOk_of_validatePlan h
  obtain ⟨verdict, hverdict, hiff⟩ := verdict_validatePlan hfields order
  rw [h] at hverdict
  exact ⟨hfields, hiff.1 (Option.some.inj hverdict).symm⟩

theorem checkedProjection_ok {α : Type} {plan : Option (Except PlanError Unit)}
    {records : Except Err Unit} (hplan : plan = some (.ok ())) (hrecords : records = .ok ())
    (projection : α) : checkedProjection plan records projection = some (.ok projection) := by
  rw [hplan, hrecords]
  rfl

theorem plain_nodeID {plan : WorkflowPlan} (hfields : plan.fieldsOk = true) :
    ∀ node ∈ plan.nodes, Plain node.nodeID := by
  intro node hnode
  have hnodes := (WorkflowPlan.fieldsOk_iff.1 hfields).2.2.2.2.1
  exact plain_of_identifierOk (PlanNode.fieldsOk_iff.1 (hnodes node hnode)).1

section Accepted

variable {plan : WorkflowPlan} {inspection : RunInspection} (hfields : plan.fieldsOk = true)
  (hwell : WellFormed plan) (hwhole : inspection.Whole)
include hfields hwell hwhole

theorem project_eq (order : IterationOrder) :
    ∃ projection, project order plan inspection = some (.ok projection) ∧
      projection.layout = placement plan inspection.toRunSnapshot := by
  obtain ⟨verdict, hverdict, hiff⟩ := verdict_validatePlan hfields order
  rw [hiff.2 hwell] at hverdict
  refine ⟨joinRun plan inspection, ?_, layout_joinRun hwell.distinct (plain_nodeID hfields) hwhole⟩
  exact checkedProjection_ok hverdict (wrapUnless_eq_ok.2 (validateInspectionRecords_eq_ok hwhole)) _

theorem Python.projectWorkflowRun_eq (order : String → IterationOrder) :
    ∃ projection, Python.projectWorkflowRun order plan inspection = some (.ok projection) ∧
      projection.layout = placement plan inspection.toRunSnapshot := by
  obtain ⟨verdict, hverdict, hiff⟩ := Python.verdict_validatePlan hfields order
  rw [hiff.2 hwell] at hverdict
  refine ⟨Python.joinRun plan inspection, ?_, Python.layout_joinRun hwhole (plain_nodeID hfields)⟩
  exact checkedProjection_ok hverdict (Python.validateInspectionKeys_eq_ok hwhole) _

theorem TypeScript.projectWorkflowRun_eq :
    ∃ projection, TypeScript.projectWorkflowRun plan inspection.toRunSnapshot = some (.ok projection) ∧
      projection.layout = placement plan inspection.toRunSnapshot := by
  obtain ⟨verdict, hverdict, hiff⟩ := TypeScript.verdict_validateWorkflowPlan hfields
  rw [hiff.2 hwell] at hverdict
  refine ⟨TypeScript.joinRun plan inspection.toRunSnapshot, ?_,
    TypeScript.layout_joinRun hwhole hwell.distinct (plain_nodeID hfields)⟩
  exact checkedProjection_ok hverdict (TypeScript.validateSnapshotKeys_eq_ok hwhole) _

end Accepted

/-- There is one layout of an accepted plan and of the whole records of a run, and the three projections
compute it, in whatever order they are given the nodes and the records. -/
theorem projections_agree (plan : WorkflowPlan) (inspection : RunInspection) (order : IterationOrder)
    (haccepted : validatePlan order plan = some (.ok ())) (hwhole : inspection.Whole) :
    ∃ layout : Layout, layout.Covers plan inspection.toRunSnapshot ∧
      (∀ entry ∈ layout.nodes, entry.2.Fits entry.1) ∧ layout.Sorted ∧
      ∀ (goOrder : IterationOrder) (pythonOrder : String → IterationOrder) (plan' : WorkflowPlan)
        (inspection' : RunInspection), plan.Reordered plan' →
        inspection.Reordered inspection'.toRunSnapshot →
        (∃ projection, project goOrder plan' inspection' = some (.ok projection) ∧
          projection.layout = layout) ∧
        (∃ projection, Python.projectWorkflowRun pythonOrder plan' inspection' = some (.ok projection) ∧
          projection.layout = layout) ∧
        ∃ projection, TypeScript.projectWorkflowRun plan' inspection'.toRunSnapshot =
          some (.ok projection) ∧ projection.layout = layout := by
  obtain ⟨hfields, hwell⟩ := accepted_of_validatePlan haccepted
  refine ⟨placement plan inspection.toRunSnapshot, covers_placement hwell.distinct,
    fun entry hentry => fits_placement hentry, sorted_placement hwell.distinct hwhole, ?_⟩
  intro goOrder pythonOrder plan' inspection' hplan hinspection
  have hfields' := fieldsOk_of_reordered hfields hplan
  have hwell' := hwell.of_reordered hplan
  have hwhole' := hwhole.of_reordered hinspection
  rw [← placement_of_reordered hwell.distinct hwhole hplan hinspection]
  exact ⟨project_eq hfields' hwell' hwhole' goOrder,
    Python.projectWorkflowRun_eq hfields' hwell' hwhole' pythonOrder,
    TypeScript.projectWorkflowRun_eq hfields' hwell' hwhole'⟩

def bellKey : WorkflowKey := ⟨"default", "bell", "monday"⟩

/-- A run that rings for the second time, with a claim of the run and one of the call. -/
def bellInspection : RunInspection where
  key := bellKey
  workflow := none
  activities := [⟨.activity, some (bellKey.item .activity "ring"), "", none, .retrying, none, none, none,
    none, [], [], none, none, ""⟩]
  timers := [⟨.timer, some (bellKey.item .timer "retry-1"), .activityRetry, none, .scheduled, none, none,
    none, "ring"⟩]
  events := [⟨.event, some (bellKey.item .event "answer"), none, none⟩,
    ⟨.event, some (bellKey.item .event "knock"), none, none⟩]
  claims := [⟨.claim, some (bellKey.item .claim "run"), "", .workflow, "bell", none, none, none⟩,
    ⟨.claim, some (bellKey.item .claim "ring"), "", .activity, "ring", none, none, none⟩]
  claimsInspected := true

theorem whole_bellInspection : bellInspection.Whole where
  key := by decide
  workflow := by simp [bellInspection]
  activity := by
    intro record hrecord
    rw [List.mem_singleton.1 hrecord]
    exact ⟨validateItem_eq_ok.2 ⟨rfl, by decide, rfl⟩, rfl⟩
  timer := by
    intro record hrecord
    rw [List.mem_singleton.1 hrecord]
    exact ⟨validateItem_eq_ok.2 ⟨rfl, by decide, rfl⟩, rfl⟩
  event := by
    intro record hrecord
    rcases List.mem_pair.1 hrecord with rfl | rfl
    · exact ⟨validateItem_eq_ok.2 ⟨rfl, by decide, rfl⟩, rfl⟩
    · exact ⟨validateItem_eq_ok.2 ⟨rfl, by decide, rfl⟩, rfl⟩
  claim := by
    intro record hrecord
    rcases List.mem_pair.1 hrecord with rfl | rfl
    · exact ⟨validateItem_eq_ok.2 ⟨rfl, by decide, rfl⟩, rfl⟩
    · exact ⟨validateItem_eq_ok.2 ⟨rfl, by decide, rfl⟩, rfl⟩
  activityIDs := by decide
  timerIDs := by decide
  eventIDs := by decide
  claimIDs := by decide

theorem projections_agree_bell :
    ∃ layout : Layout, layout.Covers bellPlan bellInspection.toRunSnapshot ∧
      ∃ projection, project insertionOrder bellPlan bellInspection = some (.ok projection) ∧
        projection.layout = layout := by
  obtain ⟨layout, hcovers, -, -, hprojections⟩ :=
    projections_agree bellPlan bellInspection insertionOrder accepted_bellPlan whole_bellInspection
  refine ⟨layout, hcovers, (hprojections insertionOrder (fun _ => insertionOrder) bellPlan bellInspection
    ?_ ?_).1⟩
  · exact ⟨rfl, rfl, .refl _, rfl, rfl⟩
  · exact ⟨rfl, rfl, .refl _, .refl _, .refl _, .refl _⟩

end Temporaless.Visualization
