import Temporaless.Storage.Keys

/-!
# Addresses of objects

The locations the record stores write to. A stored key is valid and has its namespace filled in,
so distinct addresses never share a path.
-/

namespace Temporaless

open PathTree

/-- A valid key of a run with an explicit namespace. -/
abbrev RunKey : Type := { key : WorkflowKey // key.Valid ∧ key.ns ≠ "" }

/-- A valid key of a record below a run with an explicit namespace. -/
abbrev RecordKey (kind : RecordKind) : Type := { key : ItemKey kind // key.Valid ∧ key.ns ≠ "" }

def WorkflowKey.stored (key : WorkflowKey) (h : key.Valid) : RunKey :=
  ⟨key.withDefaults, by rwa [WorkflowKey.Valid, WorkflowKey.validate_withDefaults],
    key.withDefaults_ns_ne⟩

def ItemKey.stored {kind : RecordKind} (key : ItemKey kind) (h : key.Valid) : RecordKey kind :=
  ⟨key.withDefaults, ItemKey.valid_withDefaults.2 h, key.withDefaults_ns_ne⟩

theorem RunKey.withDefaults (k : RunKey) : k.val.withDefaults = k.val :=
  WorkflowKey.withDefaults_of_ne k.property.2

theorem RecordKey.withDefaults {kind : RecordKind} (k : RecordKey kind) :
    k.val.withDefaults = k.val := ItemKey.withDefaults_of_ne k.property.2

theorem RunKey.path_eq (k : RunKey) : k.val.path = .ok k.val.location := by
  rw [WorkflowKey.path_of_valid k.property.1, k.withDefaults]

theorem RecordKey.path_eq {kind : RecordKind} (k : RecordKey kind) :
    k.val.path = .ok k.val.location := by rw [ItemKey.path_of_valid k.property.1, k.withDefaults]

theorem RecordKey.dirPath_eq {kind : RecordKind} (k : RecordKey kind) :
    k.val.dirPath = .ok k.val.directory := by
  rw [ItemKey.dirPath_of_valid k.property.1, k.withDefaults]

theorem RecordKey.dueEntryPath_eq (k : RecordKey .timer) :
    dueEntryPath k.val = .ok k.val.dueLocation := by
  rw [ItemKey.dueEntryPath_of_valid k.property.1, k.withDefaults]

@[simp] theorem RecordKey.stored {kind : RecordKind} (k : RecordKey kind) (h : k.val.Valid) :
    k.val.stored h = k := Subtype.ext k.withDefaults

@[simp] theorem RunKey.stored (k : RunKey) (h : k.val.Valid) : k.val.stored h = k :=
  Subtype.ext k.withDefaults

theorem ItemKey.Valid.run {kind : RecordKind} {key : ItemKey kind} (h : key.Valid)
    (hkind : kind ≠ .claim) : key.run.Valid := by
  have hv := (validationError_eq_ok _).1 h
  refine (validationError_eq_ok _).2 ?_
  rw [← ItemKey.run_withDefaults]
  simp only [ItemKey.violations, List.append_eq_nil_iff] at hv
  obtain ⟨⟨⟨hns, hwf⟩, hrun⟩, -⟩ := hv
  cases kind with
  | claim => exact absurd rfl hkind
  | activity | timer | event =>
    simp only [RecordKind.workflowViolations, identifierViolations, ownedViolations,
      systemViolations, List.append_eq_nil_iff, violationUnless_eq_nil] at hns hwf hrun
    simp only [WorkflowKey.violations, identifierViolations, ownedViolations, systemViolations,
      List.append_eq_nil_iff, violationUnless_eq_nil, ItemKey.run]
    exact ⟨⟨hns, hwf⟩, hrun⟩

inductive Address where
  | workflow (key : RunKey)
  | item (kind : RecordKind) (key : RecordKey kind)
  | due (key : RecordKey .timer)
  | latest (ns workflowID : String)
  | quarantine (ns digest : String)

namespace Address

def path : Address → Path
  | .workflow key => key.val.location
  | .item _ key => key.val.location
  | .due key => key.val.dueLocation
  | .latest ns workflowID => storageRoot ++ [ns, "_latest", binpb workflowID]
  | .quarantine ns digest => dueInvalidRoot ns ++ [binpb digest]

private theorem kind_of_location {kind kind' : RecordKind} {k : ItemKey kind} {l : ItemKey kind'}
    (h : k.location = l.location) : kind = kind' := by
  simp only [ItemKey.location, ItemKey.directory, runDir, storageRoot, List.cons_append,
    List.nil_append, List.cons.injEq, true_and] at h
  have hname : kind.name = kind'.name := h.2.2.2.1
  revert hname
  cases kind <;> cases kind' <;> decide

theorem path_injective {a a' : Address} (h : a.path = a'.path) : a = a' := by
  have hlength := congrArg List.length h
  cases a with
  | workflow k =>
    cases a' with
    | workflow l => exact congrArg Address.workflow (Subtype.ext (WorkflowKey.location_injective h))
    | _ => simp [path, WorkflowKey.location, ItemKey.location, ItemKey.directory, runDir,
        storageRoot, ItemKey.dueLocation, dueRoot, dueInvalidRoot] at hlength
  | item kind k =>
    cases a' with
    | item kind' l =>
      obtain rfl := kind_of_location h
      exact congrArg (Address.item kind) (Subtype.ext (ItemKey.location_injective h))
    | due l => exact absurd h.symm (ItemKey.dueLocation_ne_location k.property.1)
    | _ => simp [path, WorkflowKey.location, ItemKey.location, ItemKey.directory, runDir,
        storageRoot, dueInvalidRoot] at hlength
  | due k =>
    cases a' with
    | due l => exact congrArg Address.due (Subtype.ext (ItemKey.dueLocation_injective h))
    | item kind' l => exact absurd h (ItemKey.dueLocation_ne_location l.property.1)
    | _ => simp [path, WorkflowKey.location, runDir, storageRoot, ItemKey.dueLocation, dueRoot,
        dueInvalidRoot] at hlength
  | latest ns workflowID =>
    cases a' with
    | latest ns' workflowID' =>
      simp only [path, storageRoot, List.cons_append, List.nil_append, List.cons.injEq,
        and_true, true_and] at h
      rw [h.1, ItemKey.binpb_injective h.2]
    | quarantine ns' digest =>
      simp [path, storageRoot, dueInvalidRoot] at h
    | _ => simp [path, WorkflowKey.location, ItemKey.location, ItemKey.directory, runDir,
        storageRoot, ItemKey.dueLocation, dueRoot] at hlength
  | quarantine ns digest =>
    cases a' with
    | quarantine ns' digest' =>
      simp only [path, storageRoot, dueInvalidRoot, List.cons_append, List.nil_append,
        List.cons.injEq, and_true, true_and] at h
      rw [h.1, ItemKey.binpb_injective h.2]
    | latest ns' workflowID =>
      simp [path, storageRoot, dueInvalidRoot] at h
    | _ => simp [path, WorkflowKey.location, ItemKey.location, ItemKey.directory, runDir,
        storageRoot, ItemKey.dueLocation, dueRoot, dueInvalidRoot] at hlength

theorem path_ne {a a' : Address} (h : a ≠ a') : a.path ≠ a'.path :=
  fun hpath => h (path_injective hpath)

end Address

end Temporaless
