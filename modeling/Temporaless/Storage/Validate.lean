import Temporaless.Storage.Keys

/-!
# Validation of record payloads

The checks that every store makes on a payload before it writes it and after it reads it: the
schema version, the key, and that the key is the one whose location was addressed.
-/

namespace Temporaless

def Timestamp.text (t : Timestamp) : String :=
  "seconds:" ++ toString t.seconds ++ " nanos:" ++ toString t.nanos

/-- `CheckValid`, with its error. -/
def Timestamp.check (t : Timestamp) : Except Err Unit :=
  if t.checkValid then .ok ()
  else .error (errorf ("proto: timestamp (" ++ t.text ++
    if t.seconds < -62135596800 then ") before 0001-01-01"
    else if 253402300799 < t.seconds then ") after 9999-12-31"
    else ") has out-of-range nanos"))

theorem Timestamp.check_eq_ok {t : Timestamp} : t.check = .ok () ↔ t.checkValid = true := by
  unfold Timestamp.check
  split <;> simp_all

def corruptUnless (check : Except Err Unit) (text : String) : Except Err Unit :=
  check.mapError fun err => corruptRecordf (text ++ err.message)

theorem corruptUnless_eq_ok {check : Except Err Unit} {text : String} :
    corruptUnless check text = .ok () ↔ check = .ok () := by
  cases check <;> simp [corruptUnless, Except.mapError]

def checkOptional (t : Option Timestamp) : Except Err Unit :=
  match t with
  | none => .ok ()
  | some t => t.check

def guardCorrupt (ok : Bool) (text : String) : Except Err Unit :=
  if ok then .ok () else .error (corruptRecordf text)

theorem guardCorrupt_eq_ok {ok : Bool} {text : String} :
    guardCorrupt ok text = .ok () ↔ ok = true := by
  cases ok <;> simp [guardCorrupt]

def validateItem {kind : RecordKind} (version expected : RecordSchemaVersion)
    (key : Option (ItemKey kind)) (requested : ItemKey kind) : Except Err Unit := do
  guardCorrupt (version == expected)
    (kind.name ++ " payload has schema_version " ++ version.name ++ ", want " ++ expected.name)
  let actual := (itemKeyFromProto key).withDefaults
  corruptUnless actual.validate (kind.name ++ " payload has invalid key: ")
  guardCorrupt (actual == requested.withDefaults)
    (kind.name ++ " payload key does not match requested location")

def validateActivityRecord (record : ActivityRecord) (requested : ActivityKey) : Except Err Unit :=
  validateItem record.schemaVersion .activity record.key requested

def validateTimerRecord (record : TimerRecord) (requested : TimerKey) : Except Err Unit :=
  validateItem record.schemaVersion .timer record.key requested

def validateEventRecord (record : EventRecord) (requested : EventKey) : Except Err Unit :=
  validateItem record.schemaVersion .event record.key requested

def validateClaimRecord (record : ClaimRecord) (requested : ClaimKey) : Except Err Unit :=
  validateItem record.schemaVersion .claim record.key requested

def validateWorkflowRecord (record : WorkflowRecord) (requested : WorkflowKey) :
    Except Err Unit := do
  guardCorrupt (record.schemaVersion == .workflow)
    ("workflow payload has schema_version " ++ record.schemaVersion.name ++ ", want " ++
      RecordSchemaVersion.workflow.name)
  let actual := (workflowKeyFromProto record.key).withDefaults
  corruptUnless actual.validate "workflow payload has invalid key: "
  guardCorrupt (actual == requested.withDefaults)
    "workflow payload key does not match requested location"
  corruptUnless (checkOptional record.runOrderTime) "workflow payload has invalid run_order_time: "

def workflowStatusHasLatestPointer (status : WorkflowStatus) : Bool :=
  status == .inProgress || status == .completed || status == .failed

def requireTimestamp (t : Option Timestamp) (missing invalid : String) : Except Err Unit :=
  match t with
  | none => .error (corruptRecordf missing)
  | some t => corruptUnless t.check invalid

def validateLatestWorkflowRunPointer (pointer : LatestWorkflowRunPointer)
    (ns workflowID : String) : Except Err Unit := do
  let requested := WorkflowKey.withDefaults ⟨ns, workflowID, "placeholder"⟩
  requested.validate
  let actual := (workflowKeyFromProto pointer.key).withDefaults
  corruptUnless actual.validate "latest workflow run pointer has invalid key: "
  guardCorrupt (actual.ns == requested.ns && actual.workflowID == requested.workflowID)
    "latest workflow run pointer key does not match requested location"
  guardCorrupt (workflowStatusHasLatestPointer pointer.status)
    ("latest workflow run pointer has invalid status " ++ pointer.status.name)
  requireTimestamp pointer.recordTime "latest workflow run pointer has no record_time"
    "latest workflow run pointer has invalid record_time: "
  requireTimestamp pointer.updatedAt "latest workflow run pointer has no updated_at"
    "latest workflow run pointer has invalid updated_at: "
  requireTimestamp pointer.runOrderTime "latest workflow run pointer has no run_order_time"
    "latest workflow run pointer has invalid run_order_time: "

/-- `AsTime` of a timestamp field: an absent one reads as the epoch. -/
def timeOf (t : Option Timestamp) : Int := (t.map Timestamp.asTime).getD 0

def persistedWorkflowRecordTime (record : WorkflowRecord) : Except Err (Option Int) :=
  let created : Except Err (Option Int) :=
    match record.createdAt with
    | none => .ok none
    | some t => (corruptUnless t.check "referenced workflow has invalid created_at: ").map
        fun _ => some t.asTime
  match record.status, record.completedAt with
  | .completed, some t | .failed, some t =>
    (corruptUnless t.check "referenced workflow has invalid completed_at: ").map
      fun _ => some t.asTime
  | _, _ => created

def validateLatestWorkflowRunReference (pointer : LatestWorkflowRunPointer)
    (record : WorkflowRecord) : Except Err Unit := do
  validateWorkflowRecord record (workflowKeyFromProto pointer.key)
  if pointer.status ≠ record.status then
    throw (staleLatestPointerf "status does not match its referenced workflow")
  match ← persistedWorkflowRecordTime record with
  | none => return
  | some expected =>
    if timeOf pointer.recordTime ≠ expected then
      throw (staleLatestPointerf "record_time does not match its referenced workflow")
    corruptUnless (checkOptional record.runOrderTime)
      "referenced workflow has invalid run_order_time: "
    let expectedOrder := (record.runOrderTime.map Timestamp.asTime).getD expected
    if timeOf pointer.runOrderTime ≠ expectedOrder then
      throw (staleLatestPointerf "run_order_time does not match its referenced workflow")

structure DueTimer where
  key : TimerKey
  record : TimerRecord
  workflow : WorkflowRecord
  deriving DecidableEq

theorem bind_eq_ok_unit {α : Type} {x : Except Err Unit} {f : Unit → Except Err α} {a : α} :
    (x >>= f) = .ok a ↔ x = .ok () ∧ f () = .ok a := by
  cases x with
  | error err => simp [bind, Except.bind]
  | ok u => simp [bind, Except.bind]

theorem mapError_eq_ok {ε ε' α : Type} {f : ε → ε'} {r : Except ε α} {a : α} :
    r.mapError f = .ok a ↔ r = .ok a := by
  cases r <;> simp [Except.mapError]

theorem throw_bind {α β : Type} (err : Err) (f : α → Except Err β) :
    ((throw err : Except Err α) >>= f) = throw err := rfl

theorem throw_eq_ok {α : Type} {err : Err} {a : α} : (throw err : Except Err α) = .ok a ↔ False := by
  simp [throw, throwThe, MonadExceptOf.throw]

theorem ite_throw_eq_ok {α : Type} {c : Prop} [Decidable c] {err : Err} {r : Except Err α} {a : α} :
    (if c then throw err else r) = .ok a ↔ ¬ c ∧ r = .ok a := by
  by_cases hc : c <;> simp [hc, throw_eq_ok]

/-- A payload passes exactly when its schema, its key and the location it was read from agree. -/
theorem validateItem_eq_ok {kind : RecordKind} {version expected : RecordSchemaVersion}
    {key : Option (ItemKey kind)} {requested : ItemKey kind} :
    validateItem version expected key requested = .ok () ↔
      version = expected ∧ (itemKeyFromProto key).Valid ∧
        (itemKeyFromProto key).withDefaults = requested.withDefaults := by
  simp only [validateItem, bind_eq_ok_unit, guardCorrupt_eq_ok, corruptUnless_eq_ok, beq_iff_eq,
    ItemKey.validate_withDefaults, ItemKey.Valid]

@[simp] theorem validateItem_withDefaults {kind : RecordKind}
    (version expected : RecordSchemaVersion) (key : Option (ItemKey kind))
    (requested : ItemKey kind) :
    validateItem version expected key requested.withDefaults =
      validateItem version expected key requested := by
  simp only [validateItem, ItemKey.withDefaults_withDefaults]

theorem validateWorkflowRecord_eq_ok {record : WorkflowRecord} {requested : WorkflowKey} :
    validateWorkflowRecord record requested = .ok () ↔
      record.schemaVersion = .workflow ∧ (workflowKeyFromProto record.key).Valid ∧
        (workflowKeyFromProto record.key).withDefaults = requested.withDefaults ∧
        checkOptional record.runOrderTime = .ok () := by
  simp only [validateWorkflowRecord, bind_eq_ok_unit, guardCorrupt_eq_ok, corruptUnless_eq_ok,
    beq_iff_eq, WorkflowKey.validate_withDefaults, WorkflowKey.Valid]

end Temporaless
