import Temporaless.Errors
import Temporaless.Framework.PathTree

/-!
# Keys and storage paths

Key validation as annotated in `temporaless.proto`, and the flat storage layout. Paths are lists
of segments; `PathTree.render` is their text, and on valid keys no two paths share it.
-/

namespace Temporaless

open PathTree

variable {s : String} {key : WorkflowKey}

def defaultNamespace : String := "default"

/-- A violation reported by `protovalidate`. -/
structure Violation where
  field : String
  message : String
  ruleID : String
  deriving DecidableEq, Repr

/-- The rule stands in for a message that is empty. -/
def Violation.text (v : Violation) : String :=
  (if v.field = "" then "" else v.field ++ ": ") ++
    if v.message = "" then "[" ++ v.ruleID ++ "]" else v.message

def validationText : List Violation → String
  | [v] => "validation error: " ++ v.text
  | violations => "validation errors:" ++ String.join (violations.map fun v => "\n - " ++ v.text)

/-- `protovalidate.Validate`, given the violations of the message. -/
def validationError (violations : List Violation) : Except Err Unit :=
  if violations.isEmpty then .ok () else .error (errorf (validationText violations))

def segmentChar (c : Char) : Bool :=
  c.isAlphanum || c == '.' || c == '_' || c == ':' || c == '=' || c == '-'

def startsWithUnderscore (s : String) : Bool := s.toList.head? == some '_'

section Rules

variable (message field : String)

def violationUnless (ok : Bool) (text ruleID : String) : List Violation :=
  if ok then [] else [⟨field, text, ruleID⟩]

def systemViolations (ok : Bool) (text : String) : List Violation :=
  violationUnless field ok (field ++ text)
    ("temporaless." ++ message ++ "." ++ field ++ ".not_system_prefix")

/-- The rules of one identifier of a key, with the `system` rule where it has one. -/
def identifierViolations (s : String) (system : List Violation) : List Violation :=
  violationUnless field (s != "." && s != "..") (field ++ " must not be . or ..")
      ("temporaless." ++ message ++ "." ++ field ++ ".not_dot_path") ++
    system ++
    violationUnless field (1 ≤ s.length) "value length must be at least 1 characters"
      "string.min_len" ++
    violationUnless field (s != "" && s.toList.all segmentChar)
      "value does not match regex pattern `^[A-Za-z0-9._:=-]+$`" "string.pattern"

def ownedViolations (s : String) : List Violation :=
  systemViolations message field (!startsWithUnderscore s) " must not start with _"

end Rules

def RecordKind.name : RecordKind → String
  | .activity => "activity"
  | .timer => "timer"
  | .event => "event"
  | .claim => "claim"

def concurrencyWorkflowID : String := "__concurrency__"

def RecordKind.workflowViolations (kind : RecordKind) (s : String) : List Violation :=
  match kind with
  | .claim => systemViolations "claim_key" "workflow_id"
      (s == concurrencyWorkflowID || !startsWithUnderscore s)
      " must not start with _ unless it is framework-owned"
  | _ => ownedViolations (kind.name ++ "_key") "workflow_id" s

namespace WorkflowKey

def withDefaults (key : WorkflowKey) : WorkflowKey :=
  if key.ns = "" then { key with ns := defaultNamespace } else key

def violations (key : WorkflowKey) : List Violation :=
  identifierViolations "workflow_key" "namespace" key.ns
      (ownedViolations "workflow_key" "namespace" key.ns) ++
    identifierViolations "workflow_key" "workflow_id" key.workflowID
      (ownedViolations "workflow_key" "workflow_id" key.workflowID) ++
    identifierViolations "workflow_key" "run_id" key.runID []

def validate (key : WorkflowKey) : Except Err Unit := validationError key.withDefaults.violations

end WorkflowKey

namespace ItemKey

variable {kind : RecordKind}

def withDefaults (key : ItemKey kind) : ItemKey kind :=
  if key.ns = "" then { key with ns := defaultNamespace } else key

def violations (key : ItemKey kind) : List Violation :=
  let message := kind.name ++ "_key"
  identifierViolations message "namespace" key.ns (ownedViolations message "namespace" key.ns) ++
    identifierViolations message "workflow_id" key.workflowID
      (kind.workflowViolations key.workflowID) ++
    identifierViolations message "run_id" key.runID [] ++
    identifierViolations message (kind.name ++ "_id") key.id []

def validate (key : ItemKey kind) : Except Err Unit := validationError key.withDefaults.violations

end ItemKey

def storageRoot : Path := ["temporaless", "v2"]

def binpb (name : String) : String := name ++ ".binpb"

def runDir (ns workflowID runID : String) : Path := storageRoot ++ [ns, workflowID, runID]

namespace WorkflowKey

/-- The location of a valid key, its namespace already defaulted. -/
def location (key : WorkflowKey) : Path :=
  runDir key.ns key.workflowID key.runID ++ ["workflow.binpb"]

def path (key : WorkflowKey) : Except Err Path :=
  key.validate.map fun _ => key.withDefaults.location

def dirPath (key : WorkflowKey) : Except Err Path :=
  let key := key.withDefaults
  key.validate.map fun _ => runDir key.ns key.workflowID key.runID

end WorkflowKey

namespace ItemKey

variable {kind : RecordKind}

def directory (key : ItemKey kind) : Path :=
  runDir key.ns key.workflowID key.runID ++ [kind.name]

def location (key : ItemKey kind) : Path := key.directory ++ [binpb key.id]

def path (key : ItemKey kind) : Except Err Path :=
  key.validate.map fun _ => key.withDefaults.location

def dirPath (key : ItemKey kind) : Except Err Path :=
  key.validate.map fun _ => key.withDefaults.directory

end ItemKey

def latestWorkflowRunPointerPath (ns workflowID : String) : Except Err Path :=
  let key := WorkflowKey.withDefaults ⟨ns, workflowID, "placeholder"⟩
  key.validate.map fun _ => storageRoot ++ [key.ns, "_latest", binpb key.workflowID]

def dueRoot (ns : String) : Path := storageRoot ++ [ns, "_due"]

def dueInvalidRoot (ns : String) : Path := storageRoot ++ [ns, "_due_invalid"]

def ItemKey.dueLocation (key : TimerKey) : Path :=
  dueRoot key.ns ++ [key.workflowID, key.runID, binpb key.id]

def dueEntryPath (key : TimerKey) : Except Err Path :=
  key.validate.map fun _ => key.withDefaults.dueLocation

def dueRunRoot (key : WorkflowKey) : Except Err Path :=
  let key := key.withDefaults
  key.validate.map fun _ => dueRoot key.ns ++ [key.workflowID, key.runID]

def sameWorkflowRun (left right : WorkflowKey) : Bool :=
  let leftNamespace := if left.ns = "" then defaultNamespace else left.ns
  let rightNamespace := if right.ns = "" then defaultNamespace else right.ns
  leftNamespace == rightNamespace && left.workflowID == right.workflowID &&
    left.runID == right.runID

def Plain (s : String) : Prop := s ≠ "" ∧ s.toList.all segmentChar = true

theorem validationError_eq_ok (violations : List Violation) :
    validationError violations = .ok () ↔ violations = [] := by
  cases violations <;> simp [validationError]

theorem violationUnless_eq_nil (field text ruleID : String) (ok : Bool) :
    violationUnless field ok text ruleID = [] ↔ ok = true := by
  cases ok <;> simp [violationUnless]

theorem plain_of_identifierViolations {message field : String} {system : List Violation}
    (h : identifierViolations message field s system = []) : Plain s := by
  simp only [identifierViolations, List.append_eq_nil_iff, violationUnless_eq_nil,
    Bool.and_eq_true, bne_iff_ne] at h
  exact h.2

theorem not_underscore_of_identifierViolations {message field : String}
    (h : identifierViolations message field s (ownedViolations message field s) = []) :
    startsWithUnderscore s = false := by
  simp only [identifierViolations, List.append_eq_nil_iff, ownedViolations, systemViolations,
    violationUnless_eq_nil, Bool.not_eq_true'] at h
  exact h.1.1.2

theorem Plain.slashFree (h : Plain s) : slashFree s = true := by
  have hslash : segmentChar '/' = false := by decide
  simp only [PathTree.slashFree, Bool.not_eq_true', List.contains_eq_mem, decide_eq_false_iff_not]
  intro hmem
  have := List.all_eq_true.1 h.2 _ hmem
  rw [hslash] at this
  cases this

theorem Plain.ne_nil (h : Plain s) : s ≠ "" := h.1

namespace WorkflowKey

theorem withDefaults_ns_ne (key : WorkflowKey) : key.withDefaults.ns ≠ "" := by
  unfold withDefaults
  split
  · exact (by decide : defaultNamespace ≠ "")
  · assumption

@[simp] theorem withDefaults_workflowID (key : WorkflowKey) :
    key.withDefaults.workflowID = key.workflowID := by unfold withDefaults; split <;> rfl

@[simp] theorem withDefaults_runID (key : WorkflowKey) :
    key.withDefaults.runID = key.runID := by unfold withDefaults; split <;> rfl

theorem withDefaults_of_ne (h : key.ns ≠ "") : key.withDefaults = key := by
  rw [withDefaults, if_neg h]

@[simp] theorem withDefaults_withDefaults (key : WorkflowKey) :
    key.withDefaults.withDefaults = key.withDefaults := withDefaults_of_ne key.withDefaults_ns_ne

@[simp] theorem validate_withDefaults (key : WorkflowKey) :
    key.withDefaults.validate = key.validate := by
  rw [validate, withDefaults_withDefaults, validate]

def Valid (key : WorkflowKey) : Prop := key.validate = .ok ()

instance (key : WorkflowKey) : Decidable key.Valid :=
  decidable_of_iff (key.withDefaults.violations = []) (validationError_eq_ok _).symm

theorem Valid.plain (h : key.Valid) :
    Plain key.withDefaults.ns ∧ Plain key.workflowID ∧ Plain key.runID ∧
      startsWithUnderscore key.withDefaults.ns = false ∧
      startsWithUnderscore key.workflowID = false := by
  have hv := (validationError_eq_ok _).1 h
  simp only [violations, List.append_eq_nil_iff, withDefaults_workflowID, withDefaults_runID] at hv
  obtain ⟨⟨hns, hwf⟩, hrun⟩ := hv
  exact ⟨plain_of_identifierViolations hns, plain_of_identifierViolations hwf,
    plain_of_identifierViolations hrun, not_underscore_of_identifierViolations hns,
    not_underscore_of_identifierViolations hwf⟩

theorem path_of_valid (h : key.Valid) : key.path = .ok key.withDefaults.location := by
  rw [path, show key.validate = .ok () from h]
  rfl

theorem exists_dirPath (h : key.Valid) : ∃ dir, key.dirPath = .ok dir := by
  rw [dirPath, validate_withDefaults, show key.validate = .ok () from h]
  exact ⟨_, rfl⟩

theorem valid_of_path {path : Path} (h : key.path = .ok path) :
    key.Valid ∧ path = key.withDefaults.location := by
  rcases hvalid : key.validate with err | u
  · rw [WorkflowKey.path, hvalid] at h
    cases h
  · rw [path_of_valid hvalid] at h
    cases h
    exact ⟨hvalid, rfl⟩

theorem location_injective {k l : WorkflowKey} (h : k.location = l.location) : k = l := by
  simp only [location, runDir, storageRoot, List.cons_append, List.nil_append,
    List.cons.injEq] at h
  cases k
  cases l
  simp_all

end WorkflowKey

theorem sameWorkflowRun_iff {left right : WorkflowKey} :
    sameWorkflowRun left right = true ↔ left.withDefaults = right.withDefaults := by
  cases left
  cases right
  simp only [sameWorkflowRun, WorkflowKey.withDefaults, Bool.and_eq_true, beq_iff_eq]
  split <;> split <;> simp_all [and_assoc]

namespace ItemKey

variable {kind : RecordKind}

theorem withDefaults_ns_ne (key : ItemKey kind) : key.withDefaults.ns ≠ "" := by
  unfold withDefaults
  split
  · exact (by decide : defaultNamespace ≠ "")
  · assumption

@[simp] theorem withDefaults_workflowID (key : ItemKey kind) :
    key.withDefaults.workflowID = key.workflowID := by unfold withDefaults; split <;> rfl

@[simp] theorem withDefaults_runID (key : ItemKey kind) :
    key.withDefaults.runID = key.runID := by unfold withDefaults; split <;> rfl

@[simp] theorem withDefaults_id (key : ItemKey kind) :
    key.withDefaults.id = key.id := by unfold withDefaults; split <;> rfl

theorem withDefaults_of_ne {key : ItemKey kind} (h : key.ns ≠ "") : key.withDefaults = key := by
  rw [withDefaults, if_neg h]

@[simp] theorem withDefaults_withDefaults (key : ItemKey kind) :
    key.withDefaults.withDefaults = key.withDefaults := withDefaults_of_ne key.withDefaults_ns_ne

@[simp] theorem validate_withDefaults (key : ItemKey kind) :
    key.withDefaults.validate = key.validate := by
  rw [validate, withDefaults_withDefaults, validate]

theorem run_withDefaults (key : ItemKey kind) : key.withDefaults.run = key.run.withDefaults := by
  unfold withDefaults WorkflowKey.withDefaults run
  split <;> rfl

def Valid (key : ItemKey kind) : Prop := key.validate = .ok ()

instance (key : ItemKey kind) : Decidable key.Valid :=
  decidable_of_iff (key.withDefaults.violations = []) (validationError_eq_ok _).symm

theorem valid_withDefaults {key : ItemKey kind} : key.withDefaults.Valid ↔ key.Valid := by
  rw [Valid, validate_withDefaults, Valid]

theorem Valid.plain {key : ItemKey kind} (h : key.Valid) :
    Plain key.withDefaults.ns ∧ Plain key.workflowID ∧ Plain key.runID ∧ Plain key.id := by
  have hv := (validationError_eq_ok _).1 h
  simp only [violations, List.append_eq_nil_iff, withDefaults_workflowID, withDefaults_runID,
    withDefaults_id] at hv
  obtain ⟨⟨⟨hns, hwf⟩, hrun⟩, hid⟩ := hv
  exact ⟨plain_of_identifierViolations hns, plain_of_identifierViolations hwf,
    plain_of_identifierViolations hrun, plain_of_identifierViolations hid⟩

theorem Valid.workflowID {key : ItemKey kind} (h : key.Valid) :
    key.workflowID = concurrencyWorkflowID ∨ startsWithUnderscore key.workflowID = false := by
  have hv := (validationError_eq_ok _).1 h
  simp only [violations, List.append_eq_nil_iff, withDefaults_workflowID] at hv
  have hwf := hv.1.1.2
  cases kind with
  | claim =>
    simp only [identifierViolations, List.append_eq_nil_iff, RecordKind.workflowViolations,
      systemViolations, violationUnless_eq_nil, Bool.or_eq_true, beq_iff_eq,
      Bool.not_eq_true'] at hwf
    exact hwf.1.1.2
  | activity | timer | event => exact .inr (not_underscore_of_identifierViolations hwf)

theorem Valid.workflowID_ne_due {key : ItemKey kind} (h : key.Valid) : key.workflowID ≠ "_due" := by
  intro heq
  have howned := h.workflowID
  rw [heq] at howned
  revert howned
  decide

theorem path_of_valid {key : ItemKey kind} (h : key.Valid) :
    key.path = .ok key.withDefaults.location := by
  rw [path, show key.validate = .ok () from h]
  rfl

theorem valid_of_path {key : ItemKey kind} {path : Path} (h : key.path = .ok path) :
    key.Valid ∧ path = key.withDefaults.location := by
  rcases hvalid : key.validate with err | u
  · rw [ItemKey.path, hvalid] at h
    cases h
  · rw [path_of_valid hvalid] at h
    cases h
    exact ⟨hvalid, rfl⟩

theorem dirPath_of_valid {key : ItemKey kind} (h : key.Valid) :
    key.dirPath = .ok key.withDefaults.directory := by
  rw [dirPath, show key.validate = .ok () from h]
  rfl

theorem dueEntryPath_of_valid {key : TimerKey} (h : key.Valid) :
    dueEntryPath key = .ok key.withDefaults.dueLocation := by
  rw [dueEntryPath, show key.validate = .ok () from h]
  rfl

theorem binpb_injective {t : String} (h : binpb s = binpb t) : s = t := by
  have hlist := congrArg String.toList h
  simp only [binpb, String.toList_append] at hlist
  exact String.toList_inj.1 (List.append_cancel_right hlist)

theorem location_injective {k l : ItemKey kind} (h : k.location = l.location) : k = l := by
  simp only [location, directory, runDir, storageRoot, List.cons_append,
    List.nil_append, List.cons.injEq, and_true, true_and] at h
  obtain ⟨hns, hwf, hrun, hid⟩ := h
  have hid := binpb_injective hid
  cases k
  cases l
  simp_all

theorem dueLocation_injective {k l : TimerKey} (h : k.dueLocation = l.dueLocation) : k = l := by
  simp only [dueLocation, dueRoot, storageRoot, List.cons_append,
    List.nil_append, List.cons.injEq, and_true, true_and] at h
  obtain ⟨hns, hwf, hrun, hid⟩ := h
  have hid := binpb_injective hid
  cases k
  cases l
  simp_all

theorem dueLocation_ne_location {k : TimerKey} {l : ItemKey kind} (hl : l.Valid) :
    k.dueLocation ≠ l.location := by
  intro h
  simp only [dueLocation, dueRoot, location, directory, runDir, storageRoot,
    List.cons_append, List.nil_append, List.cons.injEq, true_and] at h
  exact hl.workflowID_ne_due h.2.1.symm

end ItemKey

theorem WorkflowKey.withDefaults_item (run : WorkflowKey) (kind : RecordKind) (id : String) :
    (run.item kind id).withDefaults = run.withDefaults.item kind id := by
  unfold WorkflowKey.item ItemKey.withDefaults WorkflowKey.withDefaults
  split <;> rfl

end Temporaless
