import Temporaless.Python.Decoding
import Temporaless.Python.Walks

/-!
# The other records of the Python record store

The checks, point reads, deletes and listings of activities, events and claims. The families of the
source differ in the message type and in one rule: a claim may belong to the synthetic workflow of
the concurrency slots.
-/

namespace Temporaless.Python

open PathTree Effects OpenDALStore

section Keys

variable {kind : RecordKind}

def keyMessage : RecordKind → String
  | .activity => "ActivityKey"
  | .timer => "TimerKey"
  | .event => "EventKey"
  | .claim => "ClaimKey"

def systemWorkflowIDs : RecordKind → List String
  | .claim => [concurrencyWorkflowID]
  | .activity | .timer | .event => []

/-- `_validate_user_scope` with its `allowed_system_workflow_ids`. -/
def validateSystemScope (ns workflowID : String) (allowed : List String) : Except Err Unit := do
  if startsWithUnderscore ns then
    throw (exception .valueError
      "namespace values starting with '_' are reserved for Temporaless")
  if startsWithUnderscore workflowID && !allowed.contains workflowID then
    throw (exception .valueError
      "workflow_id values starting with '_' are reserved for Temporaless")

def validateItemKey (key : ItemKey kind) : Except Err Unit := do
  validate (keyMessage kind) key.violations
  validateSystemScope key.ns key.workflowID (systemWorkflowIDs kind)

def itemPath (key : ItemKey kind) : Except Err Path :=
  (validateItemKey key).map fun _ => key.location

def itemDirPath (key : ItemKey kind) : Except Err Path :=
  (validateItemKey key).map fun _ => key.directory

def keyFromProto (key : Option (ItemKey kind)) : ItemKey kind := (itemKeyFromProto key).withDefaults

end Keys

def schemaVersionOf : RecordKind → RecordSchemaVersion
  | .activity => .activity
  | .timer => .timer
  | .event => .event
  | .claim => .claim

def validateItemRecord {kind : RecordKind} (version : RecordSchemaVersion)
    (recordKey : Option (ItemKey kind)) (expected : Expectation (ItemKey kind)) :
    Except Err (ItemKey kind) := do
  validateRecordSchema version (schemaVersionOf kind) kind.name
  validate (keyMessage kind) (itemKeyFromProto recordKey).violations
  let key := keyFromProto recordKey
  validateItemKey key
  validateRecordLocation key key.run (itemPath key) kind.name expected
  return key

def validateActivityRecord (record : ActivityRecord) (expected : Expectation ActivityKey) :
    Except Err ActivityKey := validateItemRecord record.schemaVersion record.key expected

def validateEventRecord (record : EventRecord) (expected : Expectation EventKey) :
    Except Err EventKey := validateItemRecord record.schemaVersion record.key expected

def validateClaimRecord (record : ClaimRecord) (expected : Expectation ClaimKey) :
    Except Err ClaimKey := validateItemRecord record.schemaVersion record.key expected

structure Expectation.Admits {kind : RecordKind} (expected : Expectation (ItemKey kind))
    (actual : ItemKey kind) : Prop where
  key : ∀ k, expected.key = some k → k = actual
  run : ∀ run, expected.run = some run → run = actual.run
  path : ∀ path, expected.path = some path → path = actual.location

section Checks

variable {kind : RecordKind}

theorem validateSystemScope_eq_ok {ns workflowID : String} {allowed : List String} :
    validateSystemScope ns workflowID allowed = .ok () ↔ startsWithUnderscore ns = false ∧
      (startsWithUnderscore workflowID = true → workflowID ∈ allowed) := by
  unfold validateSystemScope
  cases startsWithUnderscore ns <;> cases startsWithUnderscore workflowID <;>
    by_cases hmem : workflowID ∈ allowed <;>
    simp [hmem, bind, Except.bind, throw, throwThe, MonadExceptOf.throw, pure, Except.pure]

theorem validateItemKey_eq_ok {key : ItemKey kind} :
    validateItemKey key = .ok () ↔ key.Valid ∧ key.ns ≠ "" := by
  rw [validateItemKey, bind_eq_ok_unit, validate_eq_ok, validateSystemScope_eq_ok]
  constructor
  · intro h
    have hns : key.ns ≠ "" := by
      have hviolations := h.1
      simp only [ItemKey.violations, List.append_eq_nil_iff] at hviolations
      exact (plain_of_identifierViolations hviolations.1.1.1).ne_nil
    refine ⟨(validationError_eq_ok _).2 ?_, hns⟩
    rw [ItemKey.withDefaults_of_ne hns]
    exact h.1
  · intro h
    have hviolations := (validationError_eq_ok _).1 h.1
    rw [ItemKey.withDefaults_of_ne h.2] at hviolations
    refine ⟨hviolations, ?_⟩
    simp only [ItemKey.violations, identifierViolations, ownedViolations, systemViolations,
      List.append_eq_nil_iff, violationUnless_eq_nil] at hviolations
    obtain ⟨⟨⟨hns, hworkflow⟩, -⟩, -⟩ := hviolations
    refine ⟨by simpa using hns.1.1.2, ?_⟩
    cases kind with
    | claim =>
      have hsystem := hworkflow.1.1.2
      simp only [RecordKind.workflowViolations, systemViolations, violationUnless_eq_nil] at hsystem
      intro hunderscore
      simpa [systemWorkflowIDs, hunderscore] using hsystem
    | activity | timer | event =>
      have howned := hworkflow.1.1.2
      simp only [RecordKind.workflowViolations, ownedViolations, systemViolations,
        violationUnless_eq_nil] at howned
      intro hunderscore
      simp [hunderscore] at howned

theorem itemPath_of_stored (key : RecordKey kind) : itemPath key.val = .ok key.val.location := by
  rw [itemPath, validateItemKey_eq_ok.2 key.property]
  rfl

theorem itemDirPath_of_stored (key : RecordKey kind) :
    itemDirPath key.val = .ok key.val.directory := by
  rw [itemDirPath, validateItemKey_eq_ok.2 key.property]
  rfl

theorem validateRecordLocation_eq_ok {key : ItemKey kind} (hkey : key.Valid ∧ key.ns ≠ "")
    {recordKind : String} {expected : Expectation (ItemKey kind)} :
    validateRecordLocation key key.run (itemPath key) recordKind expected = .ok () ↔
      expected.Admits key := by
  have hpath : itemPath key = .ok key.location := itemPath_of_stored ⟨key, hkey⟩
  simp only [validateRecordLocation, bind_eq_ok_unit, whenGiven_eq_ok, require_eq_ok,
    validateRunIdentity, beq_iff_eq, hpath]
  constructor
  · intro h
    refine ⟨fun k hk => (h.1 k hk).symm, fun run hr => (h.2.1 run hr).symm, ?_⟩
    intro path hp
    have hlocation : key.location = path := by simpa using require_eq_ok.1 (h.2.2 path hp)
    exact hlocation.symm
  · intro h
    refine ⟨fun k hk => (h.key k hk).symm, fun run hr => (h.run run hr).symm, ?_⟩
    intro path hp
    rw [h.path path hp]
    exact require_eq_ok.2 (beq_self_eq_true _)

/-- A record passes the checks when it has the schema version of its kind and carries the key of
a stored record that agrees with what is expected. -/
theorem validateItemRecord_eq_ok {version : RecordSchemaVersion} {recordKey : Option (ItemKey kind)}
    {expected : Expectation (ItemKey kind)} {k : ItemKey kind} :
    validateItemRecord version recordKey expected = .ok k ↔ version = schemaVersionOf kind ∧
      recordKey = some k ∧ (k.Valid ∧ k.ns ≠ "") ∧ expected.Admits k := by
  simp only [validateItemRecord, bind_eq_ok_unit, validateRecordSchema, require_eq_ok, beq_iff_eq,
    validate_eq_ok]
  constructor
  · intro h
    obtain ⟨hversion, hviolations, hkey, hlocation, hk⟩ := h
    have hstored := validateItemKey_eq_ok.1 hkey
    have hns : (itemKeyFromProto recordKey).ns ≠ "" := by
      simp only [ItemKey.violations, List.append_eq_nil_iff] at hviolations
      exact (plain_of_identifierViolations hviolations.1.1.1).ne_nil
    have hsame : keyFromProto recordKey = itemKeyFromProto recordKey := ItemKey.withDefaults_of_ne hns
    cases recordKey with
    | none => exact absurd rfl hns
    | some key =>
      have hkeyval : key = k := hsame.symm.trans (Except.ok.inj hk)
      subst hkeyval
      rw [hsame] at hstored hlocation
      exact ⟨hversion, rfl, hstored, (validateRecordLocation_eq_ok hstored).1 hlocation⟩
  · intro h
    obtain ⟨rfl, rfl, hstored, hadmits⟩ := h
    have hsame : keyFromProto (some k) = k := ItemKey.withDefaults_of_ne hstored.2
    have hviolations := (validationError_eq_ok _).1 hstored.1
    rw [ItemKey.withDefaults_of_ne hstored.2] at hviolations
    rw [hsame]
    exact ⟨rfl, hviolations, validateItemKey_eq_ok.2 hstored,
      (validateRecordLocation_eq_ok hstored).2 hadmits, rfl⟩

end Checks

section Items

variable {Bytes α : Type} {kind : RecordKind}
variable (codec : Codec Bytes α) (validateRecord : α → Expectation (ItemKey kind) → Except Err (ItemKey kind))

def getItem (key : ItemKey kind) : BucketM Bytes (Option α) := do
  let path ← itemPath key
  match ← readMessage codec path with
  | none => return none
  | some record =>
    let _ ← validateRecord record ⟨some key, none, some path⟩
    return some record

/-- The loop of `_list_messages`. -/
def listMessage (key : WorkflowKey) (records : List α) (path : Path) : BucketM Bytes (List α) := do
  match ← readMessage codec path with
  | none => return records
  | some record =>
    let _ ← validateRecord record ⟨none, some key, some path⟩
    return records ++ [record]

def listItems (key : WorkflowKey) : BucketM Bytes (List α) := do
  let dir ← itemDirPath (key.item kind "placeholder")
  match ← listEntries dir with
  | none => return []
  | some entries => forEach (listMessage codec validateRecord key) (recordFiles entries) []

def keysForRun (key : WorkflowKey) (records : List α) : Except Err (List (ItemKey kind)) :=
  records.mapM fun record => validateRecord record ⟨none, some key, none⟩

@[grind ←] theorem readOnly_getItem {wire : Wire} {codec : Codec wire.Bytes α} (key : ItemKey kind) :
    ReadOnly (getItem codec validateRecord key) := by
  unfold getItem
  grind

theorem validateRecord_of_keysForRun {key : WorkflowKey} {records : List α}
    {keys : List (ItemKey kind)} (h : keysForRun validateRecord key records = .ok keys) :
    ∀ entry ∈ keys.zip records, validateRecord entry.2 ⟨none, some key, none⟩ = .ok entry.1 := by
  induction records generalizing keys with
  | nil => simp
  | cons record records ih =>
    rw [keysForRun, List.mapM_cons, bind_eq_ok] at h
    obtain ⟨k, hk, h⟩ := h
    rw [bind_eq_ok] at h
    obtain ⟨rest, hrest, h⟩ := h
    obtain rfl : k :: rest = keys := Except.ok.inj h
    intro entry hmem
    rw [List.zip_cons_cons, List.mem_cons] at hmem
    rcases hmem with rfl | hmem
    · exact hk
    · exact ih hrest entry hmem

end Items

def deleteItem {Bytes : Type} {kind : RecordKind} (key : ItemKey kind) : BucketM Bytes Bool := do
  let path ← itemPath key
  deleteIfExists path

section Store

variable (wire : Wire)

def getEvent (key : EventKey) : BucketM wire.Bytes (Option EventRecord) :=
  getItem wire.event validateEventRecord key

def listEvents (key : WorkflowKey) : BucketM wire.Bytes (List EventRecord) :=
  listItems wire.event validateEventRecord key

def eventKeysForRun (key : WorkflowKey) (records : List EventRecord) : Except Err (List EventKey) :=
  keysForRun validateEventRecord key records

end Store

end Temporaless.Python
