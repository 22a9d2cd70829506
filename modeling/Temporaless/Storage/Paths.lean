import Temporaless.Storage.Address

/-!
# Texts of storage paths

The seven layouts as the texts the store hands to the bucket. What keeps the texts apart is that no
identifier holds a slash and that the directories of the framework start with an underscore.
-/

namespace Temporaless

open PathTree

/-- The key of an object, of any of the seven layouts, as a caller gives it. -/
inductive ObjectKey where
  | workflow (key : WorkflowKey)
  | item (kind : RecordKind) (key : ItemKey kind)
  | latest (ns workflowID : String)
  | due (key : TimerKey)

/-- A text that starts with the text of a directory and a slash. -/
def LiesUnder (dir : String) (text : String) : Prop := (dir ++ "/").toList <+: text.toList

variable {key : ObjectKey} {kind : RecordKind} {rest : Path}

instance (dir text : String) : Decidable (LiesUnder dir text) :=
  inferInstanceAs (Decidable (_ <+: _))

namespace ObjectKey

def validate : ObjectKey → Except Err Unit
  | .workflow key => key.validate
  | .item _ key => key.validate
  | .latest ns workflowID => WorkflowKey.validate ⟨ns, workflowID, "placeholder"⟩
  | .due key => key.validate

def path : ObjectKey → Except Err Path
  | .workflow key => key.path
  | .item _ key => key.path
  | .latest ns workflowID => latestWorkflowRunPointerPath ns workflowID
  | .due key => dueEntryPath key

def pathText (key : ObjectKey) : Except Err String := key.path.map render

def withDefaults : ObjectKey → ObjectKey
  | .workflow key => .workflow key.withDefaults
  | .item kind key => .item kind key.withDefaults
  | .latest ns workflowID =>
      .latest (WorkflowKey.withDefaults ⟨ns, workflowID, "placeholder"⟩).ns workflowID
  | .due key => .due key.withDefaults

/-- The run a key belongs to, where it belongs to one. -/
def run : ObjectKey → Option WorkflowKey
  | .workflow key => some key.withDefaults
  | .item _ key => some key.run.withDefaults
  | .latest _ _ => none
  | .due key => some key.run.withDefaults

def Valid (key : ObjectKey) : Prop := key.validate = .ok ()

def address : (key : ObjectKey) → key.Valid → Address
  | .workflow key, h => .workflow (key.stored h)
  | .item kind key, h => .item kind (key.stored h)
  | .latest ns workflowID, _ =>
      .latest (WorkflowKey.withDefaults ⟨ns, workflowID, "placeholder"⟩).ns workflowID
  | .due key, h => .due (key.stored h)

theorem path_of_valid (h : key.Valid) : key.path = .ok (key.address h).path := by
  cases key with
  | workflow key => exact WorkflowKey.path_of_valid h
  | item kind key => exact ItemKey.path_of_valid h
  | latest ns workflowID =>
    have hvalid : WorkflowKey.validate ⟨ns, workflowID, "placeholder"⟩ = .ok () := h
    rw [path, latestWorkflowRunPointerPath, WorkflowKey.validate_withDefaults, hvalid,
      WorkflowKey.withDefaults_workflowID]
    rfl
  | due key => exact ItemKey.dueEntryPath_of_valid h

theorem address_workflow (key : RunKey) (h : (workflow key.val).Valid) :
    address (.workflow key.val) h = .workflow key := congrArg Address.workflow (key.stored h)

theorem address_item (key : RecordKey kind) (h : (item kind key.val).Valid) :
    address (.item kind key.val) h = .item kind key :=
  congrArg (Address.item kind) (RecordKey.stored key h)

theorem path_of_invalid {err : Err} (h : key.validate = .error err) : key.path = .error err := by
  cases key with
  | workflow key =>
    rw [path, WorkflowKey.path, show key.validate = .error err from h]
    rfl
  | item kind key =>
    rw [path, ItemKey.path, show key.validate = .error err from h]
    rfl
  | latest ns workflowID =>
    rw [path, latestWorkflowRunPointerPath, WorkflowKey.validate_withDefaults,
      show WorkflowKey.validate ⟨ns, workflowID, "placeholder"⟩ = .error err from h]
    rfl
  | due key =>
    rw [path, dueEntryPath, show key.validate = .error err from h]
    rfl

theorem valid_of_path {p : Path} (h : key.path = .ok p) :
    ∃ hvalid : key.Valid, p = (key.address hvalid).path := by
  rcases hcheck : key.validate with err | u
  · rw [path_of_invalid hcheck] at h
    cases h
  · have hvalid : key.Valid := hcheck
    rw [path_of_valid hvalid] at h
    exact ⟨hvalid, (Except.ok.inj h).symm⟩

theorem address_eq_iff {k l : ObjectKey} (hk : k.Valid) (hl : l.Valid) :
    k.address hk = l.address hl ↔ k.withDefaults = l.withDefaults := by
  cases k <;> cases l <;>
    simp [address, withDefaults, WorkflowKey.stored, ItemKey.stored, Subtype.ext_iff]
  case item.item kind k kind' l =>
    intro hkind
    subst hkind
    simp [Subtype.ext_iff]

end ObjectKey

namespace ObjectKey

@[simp] theorem segments_workflow {key : WorkflowKey} (h : (workflow key).Valid) :
    (address (.workflow key) h).path = ["temporaless", "v2", key.withDefaults.ns, key.workflowID,
      key.runID, "workflow.binpb"] := by
  simp [address, Address.path, WorkflowKey.stored, WorkflowKey.location, runDir, storageRoot]

@[simp] theorem segments_item {key : ItemKey kind} (h : (item kind key).Valid) :
    (address (.item kind key) h).path = ["temporaless", "v2", key.withDefaults.ns, key.workflowID,
      key.runID, kind.name, binpb key.id] := by
  simp [address, Address.path, ItemKey.stored, ItemKey.location, ItemKey.directory, runDir,
    storageRoot]

@[simp] theorem segments_latest {ns workflowID : String} (h : (latest ns workflowID).Valid) :
    (address (.latest ns workflowID) h).path = ["temporaless", "v2",
      (WorkflowKey.withDefaults ⟨ns, workflowID, "placeholder"⟩).ns, "_latest",
      binpb workflowID] := by
  simp [address, Address.path, storageRoot]

@[simp] theorem segments_due {key : TimerKey} (h : (due key).Valid) :
    (address (.due key) h).path = ["temporaless", "v2", key.withDefaults.ns, "_due",
      key.workflowID, key.runID, binpb key.id] := by
  simp [address, Address.path, ItemKey.stored, ItemKey.dueLocation, dueRoot, storageRoot]

end ObjectKey

def WorkflowKey.directory (key : WorkflowKey) : Path := runDir key.ns key.workflowID key.runID

def WorkflowKey.dueDirectory (key : WorkflowKey) : Path :=
  dueRoot key.ns ++ [key.workflowID, key.runID]

theorem slashFree_binpb {s : String} (h : slashFree s = true) : slashFree (binpb s) = true := by
  simp only [slashFree, Bool.not_eq_true', List.contains_eq_mem, decide_eq_false_iff_not] at h ⊢
  simpa [binpb] using h

theorem RecordKind.slashFree_name (kind : RecordKind) : slashFree kind.name = true := by
  cases kind <;> decide

theorem slashFree_fixed :
    slashFree "temporaless" = true ∧ slashFree "v2" = true ∧ slashFree "_due" = true ∧
      slashFree "_latest" = true ∧ slashFree "workflow.binpb" = true := by decide

theorem WorkflowKey.Valid.legible {key : WorkflowKey} (h : key.Valid) :
    Legible key.withDefaults.directory ∧ Legible key.withDefaults.dueDirectory := by
  obtain ⟨hns, hwf, hrun, -, -⟩ := h.plain
  constructor <;>
    simp [Legible, directory, runDir, dueDirectory, dueRoot, storageRoot, slashFree_fixed,
      hns.slashFree, hwf.slashFree, hrun.slashFree]

theorem ObjectKey.legible (h : key.Valid) : Legible (key.address h).path := by
  cases key with
  | workflow key =>
    obtain ⟨hns, hwf, hrun, -, -⟩ := WorkflowKey.Valid.plain h
    simp [Legible, slashFree_fixed, hns.slashFree, hwf.slashFree, hrun.slashFree]
  | item kind key =>
    obtain ⟨hns, hwf, hrun, hid⟩ := ItemKey.Valid.plain h
    simp [Legible, slashFree_fixed, kind.slashFree_name, hns.slashFree, hwf.slashFree,
      hrun.slashFree, slashFree_binpb hid.slashFree]
  | latest ns workflowID =>
    obtain ⟨hns, hwf, -, -, -⟩ := WorkflowKey.Valid.plain h
    simp [Legible, slashFree_fixed, hns.slashFree, slashFree_binpb hwf.slashFree]
  | due key =>
    obtain ⟨hns, hwf, hrun, hid⟩ := ItemKey.Valid.plain h
    simp [Legible, slashFree_fixed, hns.slashFree, hwf.slashFree, hrun.slashFree,
      slashFree_binpb hid.slashFree]

theorem ItemKey.Valid.workflowID_ne {key : ItemKey kind} (h : key.Valid)
    {name : String} (hname : startsWithUnderscore name = true)
    (hslots : name ≠ concurrencyWorkflowID) : key.workflowID ≠ name := by
  intro heq
  rcases h.workflowID with hslot | howned
  · exact hslots (heq.symm.trans hslot)
  · rw [heq, hname] at howned
    cases howned

theorem WorkflowKey.Valid.workflowID_ne {key : WorkflowKey} (h : key.Valid) {name : String}
    (hname : startsWithUnderscore name = true) : key.workflowID ≠ name := by
  intro heq
  have howned := h.plain.2.2.2.2
  rw [heq, hname] at howned
  cases howned

theorem RecordKind.name_ne_workflow (kind : RecordKind) : kind.name ≠ "workflow.binpb" := by
  cases kind <;> decide

namespace ObjectKey

/-- No object is a directory of another. The shorter layouts have the name of a file, or a
directory of the framework, where the longer ones have neither. -/
theorem path_append_ne {k l : ObjectKey} (hk : k.Valid) (hl : l.Valid)
    (hrest : rest ≠ []) : (k.address hk).path ++ rest ≠ (l.address hl).path := by
  intro h
  have hlength := congrArg List.length h
  have hpos : 0 < rest.length := List.length_pos_iff.2 hrest
  have hlatest : startsWithUnderscore "_latest" = true := by decide
  cases l with
  | workflow l =>
    have hne := WorkflowKey.Valid.workflowID_ne hl hlatest
    cases k <;> simp_all
  | item kind l =>
    have hne := ItemKey.Valid.workflowID_ne hl hlatest (by decide)
    have hkind := kind.name_ne_workflow
    cases k <;> simp_all
  | latest ns workflowID => cases k <;> simp_all
  | due l =>
    have hdue : startsWithUnderscore "_due" = true := by decide
    cases k with
    | workflow k =>
      have hne := WorkflowKey.Valid.workflowID_ne hk hdue
      simp_all
    | _ => simp_all

private theorem run_eq {key run : WorkflowKey} (hns : key.withDefaults.ns = run.withDefaults.ns)
    (hwf : key.workflowID = run.workflowID) (hrun : key.runID = run.runID) :
    key.withDefaults = run.withDefaults := by
  rw [← WorkflowKey.withDefaults_workflowID key, ← WorkflowKey.withDefaults_workflowID run] at hwf
  rw [← WorkflowKey.withDefaults_runID key, ← WorkflowKey.withDefaults_runID run] at hrun
  generalize key.withDefaults = k at *
  generalize run.withDefaults = r at *
  cases k
  cases r
  simp_all

private theorem run_ns (key : ItemKey kind) : key.run.withDefaults.ns = key.withDefaults.ns := by
  rw [← ItemKey.run_withDefaults]
  rfl

theorem run_of_directory {run : WorkflowKey} (hrun : run.Valid) (h : key.Valid)
    (hpath : (key.address h).path = run.withDefaults.directory ++ rest)
    (hrest : rest ≠ []) : key.run = some run.withDefaults := by
  have hdue := WorkflowKey.Valid.workflowID_ne hrun (by decide : startsWithUnderscore "_due" = true)
  simp only [WorkflowKey.directory, runDir, storageRoot, WorkflowKey.withDefaults_workflowID,
    WorkflowKey.withDefaults_runID, List.cons_append, List.nil_append] at hpath
  cases key with
  | workflow key =>
    simp only [segments_workflow, List.cons.injEq, true_and] at hpath
    exact congrArg some (run_eq hpath.1 hpath.2.1 hpath.2.2.1)
  | item kind key =>
    simp only [segments_item, List.cons.injEq, true_and] at hpath
    exact congrArg some (run_eq ((run_ns key).trans hpath.1) hpath.2.1 hpath.2.2.1)
  | latest ns workflowID =>
    simp only [segments_latest, List.cons.injEq, true_and] at hpath
    exact absurd hpath.2.2.2.symm hrest
  | due key =>
    simp only [segments_due, List.cons.injEq, true_and] at hpath
    exact absurd hpath.2.1.symm hdue

theorem run_of_dueDirectory {run : WorkflowKey} (h : key.Valid)
    (hpath : (key.address h).path = run.withDefaults.dueDirectory ++ rest)
    (hrest : rest ≠ []) : key.run = some run.withDefaults := by
  simp only [WorkflowKey.dueDirectory, dueRoot, storageRoot, WorkflowKey.withDefaults_workflowID,
    WorkflowKey.withDefaults_runID, List.cons_append, List.nil_append] at hpath
  cases key with
  | workflow key =>
    simp only [segments_workflow, List.cons.injEq, true_and] at hpath
    exact absurd hpath.2.2.2.2.symm hrest
  | item kind key =>
    simp only [segments_item, List.cons.injEq, true_and] at hpath
    exact absurd hpath.2.1 (ItemKey.Valid.workflowID_ne_due h)
  | latest ns workflowID =>
    simp only [segments_latest, List.cons.injEq, true_and] at hpath
    exact absurd hpath.2.1 (by decide)
  | due key =>
    simp only [segments_due, List.cons.injEq, true_and] at hpath
    exact congrArg some (run_eq ((run_ns key).trans hpath.1) hpath.2.1 hpath.2.2.1)

theorem pathText_of_valid (h : key.Valid) : key.pathText = .ok (render (key.address h).path) := by
  rw [pathText, path_of_valid h]
  rfl

theorem dirPath_of_valid {run : WorkflowKey} (h : run.Valid) :
    run.dirPath = .ok run.withDefaults.directory ∧
      dueRunRoot run = .ok run.withDefaults.dueDirectory := by
  have hvalid : run.withDefaults.validate = .ok () := by
    rw [WorkflowKey.validate_withDefaults]
    exact h
  rw [WorkflowKey.dirPath, dueRunRoot, hvalid]
  exact ⟨rfl, rfl⟩

/-- The texts of the paths of valid keys tell layouts and keys apart, none is a directory of
another, and below the two directories of a run there are only objects of that run. -/
theorem pathText_injective_and_prefixFree {k l : ObjectKey} (hk : k.Valid) (hl : l.Valid) :
    ∃ p q, k.pathText = .ok p ∧ l.pathText = .ok q ∧
      (p = q ↔ k.withDefaults = l.withDefaults) ∧
      ¬ LiesUnder p q ∧
      ∀ run : WorkflowKey, run.Valid →
        ∃ dir due, run.dirPath = .ok dir ∧ dueRunRoot run = .ok due ∧
          (LiesUnder (render dir) q ∨ LiesUnder (render due) q →
            l.run = some run.withDefaults) := by
  refine ⟨_, _, pathText_of_valid hk, pathText_of_valid hl, ?_, ?_, ?_⟩
  · rw [← address_eq_iff hk hl]
    constructor
    · intro h
      exact Address.path_injective (render_injective (legible hk) (legible hl) h)
    · intro h
      rw [h]
  · intro h
    obtain ⟨rest, hrest, hpath⟩ := prefix_of_render (legible hk) (legible hl) h
    exact path_append_ne hk hl hrest hpath.symm
  · intro run hrun
    obtain ⟨hdir, hdue⟩ := dirPath_of_valid hrun
    refine ⟨_, _, hdir, hdue, ?_⟩
    intro h
    rcases h with h | h
    · obtain ⟨rest, hrest, hpath⟩ := prefix_of_render hrun.legible.1 (legible hl) h
      exact run_of_directory hrun hl hpath hrest
    · obtain ⟨rest, hrest, hpath⟩ := prefix_of_render hrun.legible.2 (legible hl) h
      exact run_of_dueDirectory hl hpath hrest

/-- A timer named like a kind of record, and a workflow named like a file. -/
theorem pathText_injective_and_prefixFree_names :
    ∃ p q, (item .timer ⟨"", "activity", "timer", "workflow.binpb"⟩).pathText = .ok p ∧
      (workflow ⟨"", "timer.binpb", "activity"⟩).pathText = .ok q ∧
      ¬ p = q ∧ ¬ LiesUnder p q ∧
      ∀ run : WorkflowKey, run.Valid →
        ∃ dir due, run.dirPath = .ok dir ∧ dueRunRoot run = .ok due ∧
          (LiesUnder (render dir) q ∨ LiesUnder (render due) q →
            some ⟨"default", "timer.binpb", "activity"⟩ = some run.withDefaults) := by
  obtain ⟨p, q, hp, hq, hinj, hunder, hrun⟩ := pathText_injective_and_prefixFree
    (k := item .timer ⟨"", "activity", "timer", "workflow.binpb"⟩)
    (l := workflow ⟨"", "timer.binpb", "activity"⟩) rfl rfl
  refine ⟨p, q, hp, hq, ?_, hunder, hrun⟩
  rw [hinj]
  simp [withDefaults]

end ObjectKey

end Temporaless
