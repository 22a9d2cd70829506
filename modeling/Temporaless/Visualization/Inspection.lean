import Temporaless.Python.Ledger
import Temporaless.Visualization.Agreement

/-!
# The records of an inspected run

What a projection reads besides the plan, and the checks that the three SDKs make on it. The Go
adapter validates every record against the run; the other two only compare the keys, without giving
an empty namespace its default.
-/

namespace Temporaless.Visualization

structure RunSnapshot where
  key : WorkflowKey
  workflow : Option WorkflowRecord
  activities : List ActivityRecord
  timers : List TimerRecord
  events : List EventRecord
  claims : List ClaimRecord

structure RunInspection extends RunSnapshot where
  claimsInspected : Bool

def recordID {kind : RecordKind} (key : Option (ItemKey kind)) : String := (itemKeyFromProto key).id

def activityID (record : ActivityRecord) : String := recordID record.key

def timerID (record : TimerRecord) : String := recordID record.key

def eventID (record : EventRecord) : String := recordID record.key

def claimID (record : ClaimRecord) : String := recordID record.key

/-- A projection stops at the plan or at the records. -/
inductive ProjectError where
  | plan (err : PlanError)
  | inspection (err : Err)

/-- `fmt.Errorf("…: %w", err)` of a check that failed. -/
def wrapUnless (text : String) (check : Except Err Unit) : Except Err Unit :=
  check.mapError (wrapf text)

/-- One loop of `validateInspectionRecords`. -/
def validateRecords {ρ : Type} (kind : RecordKind) (records : List ρ) (check : ρ → Except Err Unit) :
    Except Err Unit :=
  records.zipIdx.forM fun (record, index) =>
    wrapUnless (kind.name ++ " record at index " ++ toString index ++ ": ") (check record)

def validateInspectionRecords (inspection : RunSnapshot) : Except Err Unit := do
  wrapUnless "invalid inspected workflow key: " inspection.key.validate
  let key := inspection.key.withDefaults
  inspection.workflow.forM fun record => wrapUnless "workflow record: " (validateWorkflowRecord record key)
  validateRecords .activity inspection.activities fun record =>
    validateActivityRecord record (key.item .activity (activityID record))
  validateRecords .timer inspection.timers fun record =>
    validateTimerRecord record (key.item .timer (timerID record))
  validateRecords .event inspection.events fun record =>
    validateEventRecord record (key.item .event (eventID record))
  validateRecords .claim inspection.claims fun record =>
    validateClaimRecord record (key.item .claim (claimID record))

end Temporaless.Visualization

namespace Temporaless.Visualization.Python

open Temporaless.Python (exception)

def repr (s : String) : String := "'" ++ s ++ "'"

def assertRunKey (recordKind : String) (actual : Option WorkflowKey) (expected : WorkflowKey) :
    Except Err Unit :=
  match actual with
  | none => .error (exception .valueError (recordKind ++ " record key is required"))
  | some actual =>
    if actual.ns ≠ expected.ns ∨ actual.workflowID ≠ expected.workflowID ∨
        actual.runID ≠ expected.runID then
      .error (exception .valueError (recordKind ++ " record key does not match inspection run " ++
        repr expected.ns ++ "/" ++ repr expected.workflowID ++ "/" ++ repr expected.runID))
    else .ok ()

def validateInspectionKeys (inspection : RunSnapshot) : Except Err Unit := do
  Temporaless.Python.validateWorkflowKey inspection.key
  inspection.workflow.forM fun record => assertRunKey "workflow" record.key inspection.key
  inspection.activities.forM fun record =>
    assertRunKey "activity" (record.key.map ItemKey.run) inspection.key
  inspection.timers.forM fun record => assertRunKey "timer" (record.key.map ItemKey.run) inspection.key
  inspection.events.forM fun record => assertRunKey "event" (record.key.map ItemKey.run) inspection.key
  inspection.claims.forM fun record => assertRunKey "claim" (record.key.map ItemKey.run) inspection.key

end Temporaless.Visualization.Python

namespace Temporaless.Visualization.TypeScript

def checkKeyField (field : String × String) : Except Err Unit :=
  if utf16Length field.2 = 0 ∨ !pathSegment field.2 ∨ field.2 = "." ∨ field.2 = ".." then
    .error (errorf ("workflow key " ++ field.1 ++ " must be a non-empty storage-safe identifier"))
  else .ok ()

def validateWorkflowKey (key : WorkflowKey) : Except Err Unit := do
  [("namespace", key.ns), ("workflow_id", key.workflowID), ("run_id", key.runID)].forM checkKeyField
  if startsWithUnderscore key.ns then
    throw (errorf "workflow key namespace must not start with _")
  if startsWithUnderscore key.workflowID then
    throw (errorf "workflow key workflow_id must not start with _")

/-- `JSON.stringify` of a text without quotes, backslashes and control characters. -/
def quote (s : String) : String := "\"" ++ s ++ "\""

def assertRunKey (recordKind : String) (actual : Option WorkflowKey) (expected : WorkflowKey) :
    Except Err Unit :=
  match actual with
  | none => .error (errorf (recordKind ++ " record key is required"))
  | some actual =>
    if actual.ns ≠ expected.ns ∨ actual.workflowID ≠ expected.workflowID ∨
        actual.runID ≠ expected.runID then
      .error (errorf (recordKind ++ " record key does not match snapshot run " ++
        quote expected.ns ++ "/" ++ quote expected.workflowID ++ "/" ++ quote expected.runID))
    else .ok ()

def validateSnapshotKeys (snapshot : RunSnapshot) : Except Err Unit := do
  validateWorkflowKey snapshot.key
  snapshot.workflow.forM fun record => assertRunKey "workflow" record.key snapshot.key
  snapshot.activities.forM fun record =>
    assertRunKey "activity" (record.key.map ItemKey.run) snapshot.key
  snapshot.timers.forM fun record => assertRunKey "timer" (record.key.map ItemKey.run) snapshot.key
  snapshot.events.forM fun record => assertRunKey "event" (record.key.map ItemKey.run) snapshot.key
  snapshot.claims.forM fun record => assertRunKey "claim" (record.key.map ItemKey.run) snapshot.key

end Temporaless.Visualization.TypeScript

namespace Temporaless.Visualization

/-- The records are valid, carry the full key of the run and have distinct ids. -/
structure RunSnapshot.Whole (snapshot : RunSnapshot) : Prop where
  key : snapshot.key.Valid ∧ snapshot.key.ns ≠ ""
  workflow : ∀ record, snapshot.workflow = some record →
    validateWorkflowRecord record snapshot.key = .ok () ∧ record.key = some snapshot.key
  activity : ∀ record ∈ snapshot.activities,
    validateActivityRecord record (snapshot.key.item .activity (activityID record)) = .ok () ∧
      record.key.map ItemKey.run = some snapshot.key
  timer : ∀ record ∈ snapshot.timers,
    validateTimerRecord record (snapshot.key.item .timer (timerID record)) = .ok () ∧
      record.key.map ItemKey.run = some snapshot.key
  event : ∀ record ∈ snapshot.events,
    validateEventRecord record (snapshot.key.item .event (eventID record)) = .ok () ∧
      record.key.map ItemKey.run = some snapshot.key
  claim : ∀ record ∈ snapshot.claims,
    validateClaimRecord record (snapshot.key.item .claim (claimID record)) = .ok () ∧
      record.key.map ItemKey.run = some snapshot.key
  activityIDs : (snapshot.activities.map activityID).Nodup
  timerIDs : (snapshot.timers.map timerID).Nodup
  eventIDs : (snapshot.events.map eventID).Nodup
  claimIDs : (snapshot.claims.map claimID).Nodup

theorem plain_recordID {kind : RecordKind} {version expected : RecordSchemaVersion}
    {key : Option (ItemKey kind)} {requested : ItemKey kind}
    (h : validateItem version expected key requested = .ok ()) : Plain (recordID key) :=
  (validateItem_eq_ok.1 h).2.1.plain.2.2.2

section Checks

theorem wrapUnless_eq_ok {text : String} {check : Except Err Unit} :
    wrapUnless text check = .ok () ↔ check = .ok () := by
  cases check <;> simp [wrapUnless, Except.mapError]

theorem validateRecords_eq_ok {ρ : Type} {kind : RecordKind} {records : List ρ}
    {check : ρ → Except Err Unit} (h : ∀ record ∈ records, check record = .ok ()) :
    validateRecords kind records check = .ok () := by
  rw [validateRecords, Loop.forM_eq_ok]
  intro entry hentry
  exact wrapUnless_eq_ok.2 (h _ (List.fst_mem_of_mem_zipIdx hentry))

theorem option_forM_eq_ok {α : Type} {o : Option α} {check : α → Except Err Unit}
    (h : ∀ a, o = some a → check a = .ok ()) : o.forM check = .ok () := by
  cases o with
  | none => rfl
  | some a => exact h a rfl

theorem Python.assertRunKey_eq_ok (recordKind : String) (key : WorkflowKey) :
    Python.assertRunKey recordKind (some key) key = .ok () := by
  simp [Python.assertRunKey]

theorem TypeScript.assertRunKey_eq_ok (recordKind : String) (key : WorkflowKey) :
    TypeScript.assertRunKey recordKind (some key) key = .ok () := by
  simp [TypeScript.assertRunKey]

theorem checkKeyField_eq_ok {message field s : String} {system : List Violation}
    (h : identifierViolations message field s system = []) :
    TypeScript.checkKeyField (field, s) = .ok () := by
  have hplain := plain_of_identifierViolations h
  simp only [identifierViolations, List.append_eq_nil_iff, violationUnless_eq_nil, Bool.and_eq_true,
    bne_iff_ne] at h
  have hlength : TypeScript.utf16Length s ≠ 0 := fun hzero =>
    hplain.1 (TypeScript.utf16Length_eq_zero.1 hzero)
  have hsegment : TypeScript.pathSegment s = true := by
    simp [TypeScript.pathSegment, hplain.1, hplain.2]
  simp [TypeScript.checkKeyField, hlength, hsegment, h.1.1.1]

theorem TypeScript.validateWorkflowKey_eq_ok {key : WorkflowKey} (h : key.Valid) (hns : key.ns ≠ "") :
    TypeScript.validateWorkflowKey key = .ok () := by
  have hviolations := (validationError_eq_ok _).1 h
  have hplain := h.plain
  rw [WorkflowKey.withDefaults_of_ne hns] at hviolations hplain
  simp only [WorkflowKey.violations, List.append_eq_nil_iff] at hviolations
  rw [TypeScript.validateWorkflowKey, bind_eq_ok_unit, Loop.forM_eq_ok]
  refine ⟨?_, ?_⟩
  · intro field hfield
    simp only [List.mem_cons, List.not_mem_nil, or_false] at hfield
    rcases hfield with rfl | rfl | rfl
    · exact checkKeyField_eq_ok hviolations.1.1
    · exact checkKeyField_eq_ok hviolations.1.2
    · exact checkKeyField_eq_ok hviolations.2
  · rw [hplain.2.2.2.1, hplain.2.2.2.2]
    rfl

variable {snapshot : RunSnapshot} (hwhole : snapshot.Whole)
include hwhole

theorem validateInspectionRecords_eq_ok : validateInspectionRecords snapshot = .ok () := by
  have hkey := WorkflowKey.withDefaults_of_ne hwhole.key.2
  simp only [validateInspectionRecords, hkey, bind_eq_ok_unit]
  refine ⟨wrapUnless_eq_ok.2 hwhole.key.1, ?_, ?_, ?_, ?_, ?_⟩
  · exact option_forM_eq_ok fun record hrecord => wrapUnless_eq_ok.2 (hwhole.workflow record hrecord).1
  · exact validateRecords_eq_ok fun record hrecord => (hwhole.activity record hrecord).1
  · exact validateRecords_eq_ok fun record hrecord => (hwhole.timer record hrecord).1
  · exact validateRecords_eq_ok fun record hrecord => (hwhole.event record hrecord).1
  · exact validateRecords_eq_ok fun record hrecord => (hwhole.claim record hrecord).1

theorem Python.validateInspectionKeys_eq_ok : Python.validateInspectionKeys snapshot = .ok () := by
  have hrun : ∀ recordKind actual, actual = some snapshot.key →
      Python.assertRunKey recordKind actual snapshot.key = .ok () := by
    intro recordKind actual hactual
    rw [hactual, Python.assertRunKey_eq_ok]
  simp only [Python.validateInspectionKeys, bind_eq_ok_unit, Loop.forM_eq_ok]
  refine ⟨Temporaless.Python.validateWorkflowKey_of_stored ⟨snapshot.key, hwhole.key⟩, ?_, ?_, ?_, ?_, ?_⟩
  · exact option_forM_eq_ok fun record hrecord => hrun _ _ (hwhole.workflow record hrecord).2
  · exact fun record hrecord => hrun _ _ (hwhole.activity record hrecord).2
  · exact fun record hrecord => hrun _ _ (hwhole.timer record hrecord).2
  · exact fun record hrecord => hrun _ _ (hwhole.event record hrecord).2
  · exact fun record hrecord => hrun _ _ (hwhole.claim record hrecord).2

theorem TypeScript.validateSnapshotKeys_eq_ok : TypeScript.validateSnapshotKeys snapshot = .ok () := by
  have hrun : ∀ recordKind actual, actual = some snapshot.key →
      TypeScript.assertRunKey recordKind actual snapshot.key = .ok () := by
    intro recordKind actual hactual
    rw [hactual, TypeScript.assertRunKey_eq_ok]
  simp only [TypeScript.validateSnapshotKeys, bind_eq_ok_unit, Loop.forM_eq_ok]
  refine ⟨TypeScript.validateWorkflowKey_eq_ok hwhole.key.1 hwhole.key.2, ?_, ?_, ?_, ?_, ?_⟩
  · exact option_forM_eq_ok fun record hrecord => hrun _ _ (hwhole.workflow record hrecord).2
  · exact fun record hrecord => hrun _ _ (hwhole.activity record hrecord).2
  · exact fun record hrecord => hrun _ _ (hwhole.timer record hrecord).2
  · exact fun record hrecord => hrun _ _ (hwhole.event record hrecord).2
  · exact fun record hrecord => hrun _ _ (hwhole.claim record hrecord).2

end Checks

end Temporaless.Visualization
