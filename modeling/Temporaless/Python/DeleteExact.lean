import Temporaless.Python.DeleteRun
import Temporaless.Python.TimerReads

/-!
# When the deletion of a run is all or nothing

The plan of `delete_run` passes over ledger objects that it cannot use, while the deletes and the
due scan do not. The deletion is all or nothing exactly when the plan fails, when every ledger
object of the run can be used, or when the first delete is that of a timer with a bad ledger object.
-/

namespace Temporaless.Python

open PathTree Effects OpenDALStore

def OfRun (run : WorkflowKey) (path : Path) : Prop :=
  runDir run.ns run.workflowID run.runID <+: path.dropLast ∨
    dueRoot run.ns ++ [run.workflowID, run.runID] <+: path.dropLast

def IsCopy (path : Path) : Prop := ∃ ns, path.dropLast = dueInvalidRoot ns

section OfRun

variable {run other : RunKey} {path : Path}

theorem ofRun_item {kind : RecordKind} {key : RecordKey kind} (hrun : key.val.run = run.val) :
    OfRun run.val key.val.location := by
  left
  rw [dropLast_location hrun]
  exact List.prefix_append _ _

theorem ofRun_due {key : RecordKey .timer} (hrun : key.val.run = run.val) :
    OfRun run.val key.val.dueLocation := by
  right
  rw [← hrun]
  simp [ItemKey.dueLocation, dueRoot, storageRoot, ItemKey.run]

theorem ofRun_workflow (run : RunKey) : OfRun run.val run.val.location := by
  left
  simp [WorkflowKey.location]

theorem not_isCopy (h : OfRun run.val path) : ¬ IsCopy path := by
  intro hcopy
  obtain ⟨ns, hcopy⟩ := hcopy
  rw [OfRun, hcopy] at h
  rcases h with h | h
  · have hlength := h.length_le
    simp [runDir, storageRoot, dueInvalidRoot] at hlength
  · have hlength := h.length_le
    simp [dueRoot, storageRoot, dueInvalidRoot] at hlength

theorem workflowID_ne_due (run : RunKey) : run.val.workflowID ≠ "_due" := by
  intro heq
  have hplain := run.property.1.plain.2.2.2.2
  rw [heq] at hplain
  cases hplain

theorem OfRun.unique (h : OfRun run.val path) (h' : OfRun other.val path) : other = run := by
  have hsame : ∀ {left right : Path}, left <+: path.dropLast → right <+: path.dropLast →
      left.length ≤ right.length → left <+: right :=
    fun hleft hright hle => List.prefix_of_prefix_length_le hleft hright hle
  have hmixed : ∀ run other : RunKey, runDir run.val.ns run.val.workflowID run.val.runID <+:
      path.dropLast → ¬ dueRoot other.val.ns ++ [other.val.workflowID, other.val.runID] <+:
        path.dropLast := by
    intro run other hrun hother
    have hprefix := hsame hrun hother (by simp [runDir, dueRoot, storageRoot])
    simp only [runDir, dueRoot, storageRoot, List.cons_append, List.nil_append,
      List.cons_prefix_cons] at hprefix
    exact workflowID_ne_due run hprefix.2.2.2.1
  have hfields : ∀ run other : RunKey, other.val.ns = run.val.ns →
      other.val.workflowID = run.val.workflowID → other.val.runID = run.val.runID → other = run := by
    intro run other hns hworkflow hrunID
    obtain ⟨⟨ns, workflowID, runID⟩, hrun⟩ := run
    obtain ⟨⟨ns', workflowID', runID'⟩, hother⟩ := other
    dsimp only at hns hworkflow hrunID
    subst hns hworkflow hrunID
    rfl
  rcases h with h | h
  · rcases h' with h' | h'
    · have hprefix := hsame h' h (by simp [runDir, storageRoot])
      simp only [runDir, storageRoot, List.cons_append, List.nil_append, List.cons_prefix_cons,
        true_and] at hprefix
      exact hfields run other hprefix.1 hprefix.2.1 hprefix.2.2.1
    · exact absurd h' (hmixed run other h)
  · rcases h' with h' | h'
    · exact absurd h (hmixed other run h')
    · have hprefix := hsame h' h (by simp [dueRoot, storageRoot])
      simp only [dueRoot, storageRoot, List.cons_append, List.nil_append, List.cons_prefix_cons,
        true_and] at hprefix
      exact hfields run other hprefix.1 hprefix.2.1 hprefix.2.2.1

end OfRun

section Outcome

variable {wire : RecordWire} {b b' : Bucket wire.Bytes} {run : RunKey} {plan : DeletionPlan}
variable {timers : List (RecordKey .timer)} {objects objects' : Objects wire.toWire}

theorem Names.ofRun {kind : RecordKind} {keys : List (ItemKey kind)} (h : Names run objects keys)
    {path : Path} (hpath : path ∈ itemPaths keys) : OfRun run.val path := by
  obtain ⟨k, hk, rfl⟩ := List.mem_map.1 hpath
  obtain ⟨key, rfl, hrun, -⟩ := (h k).1 hk
  exact ofRun_item hrun

theorem Names.mem_paths {kind : RecordKind} {keys : List (ItemKey kind)} (h : Names run objects keys)
    {key : RecordKey kind} (hrun : key.val.run = run.val)
    (hsome : (objects.lookup key.val.location).isSome) : key.val.location ∈ itemPaths keys :=
  List.mem_map.2 ⟨key.val, (h _).2 ⟨key, rfl, hrun, hsome⟩, rfl⟩

def Outside (run : RunKey) (objects objects' : Objects wire.toWire) : Prop :=
  ∀ path, ¬ OfRun run.val path → ¬ IsCopy path → objects'.lookup path = objects.lookup path

structure Swept (run : RunKey) (timers : List (RecordKey .timer))
    (objects objects' : Objects wire.toWire) : Prop where
  items : ∀ {kind : RecordKind} (key : RecordKey kind), kind ≠ .timer → key.val.run = run.val →
    objects'.lookup key.val.location = none
  removed : ∀ key ∈ timers, Removed key objects'
  ledger : ∀ key : RecordKey .timer, key ∉ timers →
    objects'.lookup key.val.dueLocation = objects.lookup key.val.dueLocation
  point : ∀ key : RecordKey .timer, key ∉ timers →
    objects'.lookup key.val.location = objects.lookup key.val.location
  workflow : objects'.lookup run.val.location = none
  others : ∀ path, OfRun run.val path → (∀ a : Address, path ≠ a.path) →
    objects'.lookup path = objects.lookup path

theorem Erased.of_mem {paths : List Path} (h : Erased paths objects objects') {path : Path}
    (hpath : path ∈ paths) : objects'.lookup path = none := by
  rw [h, if_pos hpath]

theorem Erased.of_not_mem {paths : List Path} (h : Erased paths objects objects') {path : Path}
    (hpath : path ∉ paths) : objects'.lookup path = objects.lookup path := by
  rw [h, if_neg hpath]

theorem Erased.none {paths : List Path} (h : Erased paths objects objects') {path : Path}
    (hpath : objects.lookup path = none) : objects'.lookup path = none := by
  rw [h, hpath]
  split <;> rfl

theorem Names.item_ne {kind : RecordKind} {keys : List (ItemKey kind)} (h : Names run objects keys)
    {a : Address} (ha : ∀ key, a ≠ .item kind key) : a.path ∉ itemPaths keys := by
  intro hmem
  obtain ⟨k, hk, hpath⟩ := List.mem_map.1 hmem
  exact ha ⟨k, h.stored k hk⟩ (Address.path_injective hpath.symm)

theorem Removals.outside (hplans : Plans run b.objects plan timers) (hcopies : Copies b b')
    (herased : Erased (itemPaths plan.claimKeys ++ itemPaths plan.activityKeys) b'.objects objects)
    {deleted : List (RecordKey .timer)} (hdeleted : ∀ key ∈ deleted, key ∈ timers)
    (h : Removals deleted objects objects') : Outside run b.objects objects' := by
  intro path hpath hcopy
  have hkeys : ∀ key ∈ deleted, path ≠ key.val.dueLocation ∧ path ≠ key.val.location := by
    intro key hkey
    have hrun := ((hplans.timers key).1 (hdeleted key hkey)).1
    refine ⟨fun heq => hpath ?_, fun heq => hpath ?_⟩
    · rw [heq]
      exact ofRun_due hrun
    · rw [heq]
      exact ofRun_item hrun
  have hitems : path ∉ itemPaths plan.claimKeys ++ itemPaths plan.activityKeys := by
    intro hmem
    rcases List.mem_append.1 hmem with hmem | hmem
    · exact hpath (hplans.claims.ofRun hmem)
    · exact hpath (hplans.activities.ofRun hmem)
  rw [h.others path hkeys, herased.of_not_mem hitems]
  exact hcopies.lookup path fun ns hns => hcopy ⟨ns, hns⟩

theorem Removals.lookup_other {deleted : List (RecordKey .timer)}
    (h : Removals deleted objects objects')
    {kind : RecordKind} (hkind : kind ≠ .timer) (key : RecordKey kind) :
    objects'.lookup key.val.location = objects.lookup key.val.location := by
  apply h.lookup_address (a := .item kind key)
  intro key' _
  refine ⟨by simp, fun heq => ?_⟩
  cases heq
  exact hkind rfl

theorem swept_of_removals (hplans : Plans run b.objects plan timers) (hcopies : Copies b b')
    {left final : Objects wire.toWire}
    (herased : Erased (itemPaths plan.claimKeys ++ itemPaths plan.activityKeys) b'.objects objects)
    (hremovals : Removals timers objects left)
    (hlast : Erased (itemPaths plan.eventKeys ++ [run.val.location]) left final) :
    Swept run timers b.objects final := by
  have hcopied : ∀ {path : Path}, OfRun run.val path → b'.objects.lookup path = b.objects.lookup path :=
    fun hpath => hcopies.lookup _ fun ns hns => not_isCopy hpath ⟨ns, hns⟩
  have hkept : ∀ {a : Address}, (∀ key, a ≠ .item .event key) → a ≠ .workflow run →
      final.lookup a.path = left.lookup a.path := by
    intro a hevent hworkflow
    apply hlast.of_not_mem
    intro hmem
    rcases List.mem_append.1 hmem with hmem | hmem
    · exact hplans.events.item_ne hevent hmem
    · exact hworkflow (Address.path_injective (List.mem_singleton.1 hmem))
  have htimers : ∀ {a : Address}, (∀ key, a ≠ .item .claim key) → (∀ key, a ≠ .item .activity key) →
      objects.lookup a.path = b'.objects.lookup a.path := by
    intro a hclaim hactivity
    exact herased.lookup_address hplans.claims.stored hplans.activities.stored hclaim hactivity
  constructor
  · intro kind key hkind hrun
    have hleft := hremovals.lookup_other hkind key
    cases hlookup : b.objects.lookup key.val.location with
    | none =>
      -- deletes do not bring an object back
      have hfirst := herased.none ((hcopied (ofRun_item hrun)).trans hlookup)
      exact hlast.none (hleft.trans hfirst)
    | some data =>
      have hsome : (b.objects.lookup key.val.location).isSome := by rw [hlookup]; rfl
      cases kind with
      | timer => exact absurd rfl hkind
      | claim =>
        have hfirst := herased.of_mem (List.mem_append_left _ (hplans.claims.mem_paths hrun hsome))
        exact hlast.none (hleft.trans hfirst)
      | activity =>
        have hfirst := herased.of_mem
          (List.mem_append_right _ (hplans.activities.mem_paths hrun hsome))
        exact hlast.none (hleft.trans hfirst)
      | event => exact hlast.of_mem (List.mem_append_left _ (hplans.events.mem_paths hrun hsome))
  · intro key hkey
    obtain ⟨hpoint, hledger⟩ := hremovals.each key hkey
    refine ⟨hlast.none hpoint, ?_⟩
    have hdue : final.lookup key.val.dueLocation = left.lookup key.val.dueLocation :=
      hkept (a := .due key) (by simp) (by simp)
    rw [ledgerAt_of_lookup hdue]
    exact hledger
  · intro key hkey
    calc final.lookup key.val.dueLocation
        = left.lookup key.val.dueLocation := hkept (a := .due key) (by simp) (by simp)
      _ = objects.lookup key.val.dueLocation := hremovals.lookup_due hkey
      _ = b'.objects.lookup key.val.dueLocation := htimers (a := .due key) (by simp) (by simp)
      _ = b.objects.lookup key.val.dueLocation :=
          hcopies.lookup _ (dropLast_ne_of_length (show 4 < 6 by decide))
  · intro key hkey
    calc final.lookup key.val.location
        = left.lookup key.val.location := hkept (a := .item .timer key) (by simp) (by simp)
      _ = objects.lookup key.val.location := hremovals.lookup_point hkey
      _ = b'.objects.lookup key.val.location := htimers (a := .item .timer key) (by simp) (by simp)
      _ = b.objects.lookup key.val.location :=
          hcopies.lookup _ (dropLast_ne_of_length (show 4 < 6 by decide))
  · exact hlast.of_mem (by simp)
  · intro path hrun haddress
    have hitems : ∀ {kind : RecordKind} {keys : List (ItemKey kind)}, Names run b.objects keys →
        path ∉ itemPaths keys := by
      intro kind keys hnames hmem
      obtain ⟨k, hk, hpath⟩ := List.mem_map.1 hmem
      exact haddress (.item kind ⟨k, hnames.stored k hk⟩) hpath.symm
    have hworkflow : path ≠ run.val.location := haddress (.workflow run)
    rw [hlast.of_not_mem (by simp [hitems hplans.events, hworkflow]),
      hremovals.others path fun key _ => ⟨haddress (.due key), haddress (.item .timer key)⟩,
      herased.of_not_mem (by simp [hitems hplans.claims, hitems hplans.activities]), hcopied hrun]

variable (run) in
/-- Either nothing is planned and deleted, or the plan is carried out, or it stops at a timer whose
ledger object cannot be used. -/
theorem exec_deleteRun {fuel : Nat} (hfuel : b.walkFuel ≤ fuel) :
    ∃ result b', b.exec (deleteRun wire fuel run.val) = (result, b') ∧
      Outside run b.objects b'.objects ∧
      ((¬ Plannable wire run b ∧ (∃ err, result = .error err) ∧
          ∀ path, ¬ IsCopy path → b'.objects.lookup path = b.objects.lookup path) ∨
        Plannable wire run b ∧ ∃ plan timers, Plans run b.objects plan timers ∧
          (((∃ total, result = .ok total) ∧
              (∀ key ∈ timers, ∃ entry, ledgerAt b.objects key = .ok entry) ∧
              Swept run timers b.objects b'.objects) ∨
            ∃ err before key after, result = .error err ∧ timers = before ++ key :: after ∧
              (∀ key ∈ before, ∃ entry, ledgerAt b.objects key = .ok entry) ∧
              ledgerAt b.objects key = .error err ∧
              (∀ path ∈ itemPaths plan.claimKeys ++ itemPaths plan.activityKeys,
                b'.objects.lookup path = none) ∧
              (∀ key ∈ before, Removed key b'.objects) ∧
              (plan.claimKeys = [] → plan.activityKeys = [] → before = [] →
                ∀ path, ¬ IsCopy path → b'.objects.lookup path = b.objects.lookup path))) := by
  obtain ⟨b₁, hcopies, ⟨err, hplan, hbad⟩ | ⟨plan, timers, hplan, hplannable, hplans⟩⟩ :=
    exec_planDeletion hfuel
  · have hsame : ∀ path, ¬ IsCopy path → b₁.objects.lookup path = b.objects.lookup path :=
      fun path hpath => hcopies.lookup path fun ns hns => hpath ⟨ns, hns⟩
    refine ⟨.error err, b₁, ?_, fun path _ => hsame path, .inl ⟨hbad, ⟨err, rfl⟩, hsame⟩⟩
    rw [deleteRun, exec_bind_error b _ hplan]
  · obtain ⟨objects, herased, ⟨total, b₂, left, hexec, hread, hremovals, hlast⟩ |
      ⟨err, b₂, before, key, after, hsplit, hexec, hread, herror, hremovals⟩⟩ :=
      exec_deletePlanned hcopies hplans
    · have hswept := swept_of_removals hplans hcopies herased hremovals hlast
      refine ⟨.ok total, b₂, ?_, ?_, .inr ⟨hplannable, plan, timers, hplans,
        .inl ⟨⟨total, rfl⟩, hread, hswept⟩⟩⟩
      · rw [deleteRun, exec_bind_ok b _ hplan, hexec]
      · intro path hpath hcopy
        have hmem : path ∉ itemPaths plan.eventKeys ++ [run.val.location] := by
          intro hmem
          rcases List.mem_append.1 hmem with hmem | hmem
          · exact hpath (hplans.events.ofRun hmem)
          · rw [List.mem_singleton.1 hmem] at hpath
            exact hpath (ofRun_workflow run)
        rw [hlast.of_not_mem hmem]
        exact hremovals.outside hplans hcopies herased (fun _ hkey => hkey) path hpath hcopy
    · have hbefore : ∀ key ∈ before, key ∈ timers := by
        intro key hkey
        simp [hsplit, hkey]
      refine ⟨.error err, b₂, ?_, hremovals.outside hplans hcopies herased hbefore,
        .inr ⟨hplannable, plan, timers, hplans,
          .inr ⟨err, before, key, after, rfl, hsplit, hread, herror, ?_, hremovals.each, ?_⟩⟩⟩
      · rw [deleteRun, exec_bind_ok b _ hplan, hexec]
      · intro path hpath
        have hnone := herased.of_mem hpath
        rcases List.mem_append.1 hpath with hmem | hmem
        · obtain ⟨k, hk, rfl⟩ := List.mem_map.1 hmem
          obtain ⟨key, rfl, -⟩ := (hplans.claims k).1 hk
          rw [hremovals.lookup_other (by decide) key, hnone]
        · obtain ⟨k, hk, rfl⟩ := List.mem_map.1 hmem
          obtain ⟨key, rfl, -⟩ := (hplans.activities k).1 hk
          rw [hremovals.lookup_other (by decide) key, hnone]
      · intro hclaims hactivities hnil path hcopy
        rw [hnil] at hremovals
        rw [hremovals.others path (by simp),
          herased.of_not_mem (by simp [hclaims, hactivities, itemPaths])]
        exact hcopies.lookup path fun ns hns => hcopy ⟨ns, hns⟩

end Outcome

section Scan

variable {wire : Wire} {b : Bucket wire.Bytes} {run : RunKey} {key : RecordKey .timer}

theorem exec_repairPoint_canceled {record : TimerRecord} (h : record.status = .canceled) :
    ∃ b', b.exec (repairPoint wire key.val record) = (.ok (), b') := by
  obtain ⟨removed, b', hexec, -⟩ := exec_deleteIfExists (b := b) key.val.location
  exact ⟨b', by simp [repairPoint, h, exec_bind, timerPath_of_stored, hexec, Except.map]⟩

theorem exec_scanPrepared_canceled {record : TimerRecord} (h : record.status = .canceled) (now : Int)
    (path : Path) (workflowKey : WorkflowKey) :
    ∃ b', b.exec (scanPrepared wire now path key.val workflowKey record) = (.ok none, b') := by
  obtain ⟨b', hrepair⟩ : ∃ b', b.exec (repairPoint wire key.val record) = (.ok (), b') :=
    exec_repairPoint_canceled h
  simp only [scanPrepared, exec_bind, exec_attempt, exec_getCanonicalTimer_at]
  rcases hpoint : pointAt b.objects key with err | _ | timer
  · have hrecoverable := pointAt_recoverable hpoint
    exact ⟨b', by simp [hrecoverable, hrepair, Except.map]⟩
  · exact ⟨b, by simp [h]⟩
  · by_cases hsame : timer = record
    · exact ⟨b, by simp [hsame, dueWake, h]⟩
    · exact ⟨b', by simp [hsame, hrepair, Except.map]⟩

theorem exec_scanEntry_canceled {entry : DueTimerEntry} (h : ledgerAt b.objects key = .ok (some entry))
    (hcanceled : (entryRecord entry).status = .canceled) (now : Int) (due : List DueTimer) :
    (b.exec (scanEntry wire now key.val.ns due key.val.dueLocation)).1 = .ok due := by
  obtain ⟨hdecode, hvalid⟩ := ledgerAt_eq_some.1 h
  have hchecked : validateDueEntry entry none none (some key.val.ns) (some key.val.dueLocation) =
      .ok key.val := validateDueEntry_eq_ok.2 ⟨hvalid, by simp, by simp, by simp, by simp⟩
  obtain ⟨b', hprepared⟩ : ∃ b', b.exec (scanPrepared wire now key.val.dueLocation key.val
      (workflowKeyFromProto entry.workflowKey) (entryRecord entry)) = (.ok none, b') :=
    exec_scanPrepared_canceled hcanceled now _ _
  simp [scanEntry, exec_bind, exec_readMessage_at, hdecode, hchecked, hprepared, Except.map]

theorem run_of_dueLocation (h : runLedger run <+: key.val.dueLocation.dropLast) :
    key.val.run = run.val := by
  obtain ⟨key', heq, hns, hrest⟩ := address_below_dueRoot (a := .due key) h
  cases heq
  obtain ⟨hworkflow, hrunID⟩ := List.cons_prefix_cons.1 hrest
  obtain ⟨⟨ns, workflowID, runID⟩, hvalid⟩ := run
  simp_all [ItemKey.run]

theorem exec_scanEntry_error {path : Path} (hpath : runLedger run <+: path.dropLast)
    (h : (shadowAt run b.objects path).isOk = false) (now : Int) (due : List DueTimer) :
    ∃ err, (b.exec (scanEntry wire now run.val.ns due path)).1 = .error err := by
  obtain ⟨b', hcopy, -⟩ := exec_quarantineDueEntry b run.val.ns path
  simp only [scanEntry, exec_bind, exec_attempt, exec_readMessage_at]
  rcases hdecode : decodeMessage wire.due (replyAt b.objects path) with err | _ | entry
  · have hrecoverable : recoverable err := recovers_decodeMessage _ _ _ err hdecode
    exact ⟨recordError ("invalid due-timer ledger entry " ++ render path ++ ": " ++ err.message),
      by simp [hrecoverable, exec_bind, hcopy]⟩
  · simp [shadowAt, hdecode, Except.bind, Except.isOk, Except.toBool] at h
  · rcases hvalid : validateDueEntry entry none none (some run.val.ns) (some path) with err | k
    · have hrecoverable : recoverable err := recovers_validateDueEntry _ _ _ _ _ err hvalid
      exact ⟨recordError ("invalid due-timer ledger entry " ++ render path ++ ": " ++ err.message),
        by simp [hvalid, hrecoverable, exec_bind, hcopy, Except.map]⟩
    · -- the entry is that of a key of the run, so that the listing can use it
      obtain ⟨key, rfl, hledger⟩ := ledgerAt_of_scan hdecode hvalid
      obtain ⟨-, -, -, -, hlocation⟩ := validateDueEntry_eq_ok.1 hvalid
      obtain rfl : path = key.val.dueLocation := hlocation path rfl
      have hrun := run_of_dueLocation hpath
      rw [(shadowAt_eq_some run).2 ⟨key, rfl, hrun, rfl, entry, hledger, rfl⟩] at h
      cases h

end Scan

section After

variable {wire : RecordWire} {b b' : Bucket wire.Bytes} {run : RunKey}
variable {timers : List (RecordKey .timer)}

variable (run) in
def UsableLedger (b : Bucket wire.Bytes) : Prop :=
  ∀ path ∈ b.recordsBelow (runLedger run), (shadowAt run b.objects path).isOk = true

theorem mem_records_of_same {path : Path} (h : b'.objects.lookup path = b.objects.lookup path)
    (hpath : path ∈ b'.records) : path ∈ b.records := by
  obtain ⟨hkeys, hsuffix⟩ := List.mem_filter.1 hpath
  refine List.mem_filter.2 ⟨?_, hsuffix⟩
  have hsome := AList.lookup_isSome.2 (AList.mem_keys.2 hkeys)
  rw [h] at hsome
  exact AList.mem_keys.1 (AList.lookup_isSome.1 hsome)

theorem isSome_of_mem_records {path : Path} (hpath : path ∈ b.records) :
    (b.objects.lookup path).isSome :=
  AList.lookup_isSome.2 (AList.mem_keys.2 (List.mem_of_mem_filter hpath))

theorem lookup_of_shadowAt_none {wire : Wire} {objects : Objects wire} {path : Path}
    (h : shadowAt run objects path = .ok none) : objects.lookup path = none := by
  rw [shadowAt] at h
  rcases hdecode : decodeMessage wire.due (replyAt objects path) with err | _ | entry
  · rw [hdecode] at h
    cases h
  · exact lookup_of_decodeMessage_none hdecode
  · rw [hdecode] at h
    cases hvalid : validateDueEntry entry none (some run.val) none (some path) <;>
      simp [Except.bind, Except.map, hvalid] at h

theorem lookup_of_recordAt_none {wire : Wire} {objects : Objects wire} {path : Path}
    (h : recordAt run objects path = .ok none) : objects.lookup path = none := by
  rw [recordAt] at h
  rcases hdecode : decodeMessage wire.timer (replyAt objects path) with err | _ | record
  · rw [hdecode] at h
    cases h
  · exact lookup_of_decodeMessage_none hdecode
  · rw [hdecode] at h
    cases hvalid : validateTimerRecord record ⟨none, some run.val, some path⟩ <;>
      simp [Except.bind, Except.map, hvalid] at h

theorem exists_entry {path : Path} (hpath : path ∈ b.recordsBelow (runLedger run))
    (hok : (shadowAt run b.objects path).isOk = true) :
    ∃ (key : RecordKey .timer) (entry : DueTimerEntry), key.val.run = run.val ∧
      key.val.dueLocation = path ∧ ledgerAt b.objects key = .ok (some entry) := by
  rcases hfound : shadowAt run b.objects path with err | _ | ⟨k, record⟩
  · rw [hfound] at hok
    cases hok
  · have hsome := isSome_of_mem_records (List.mem_filter.1 hpath).1
    rw [lookup_of_shadowAt_none hfound] at hsome
    cases hsome
  · obtain ⟨key, -, hrun, hlocation, entry, hledger, -⟩ := (shadowAt_eq_some run).1 hfound
    exact ⟨key, entry, hrun, hlocation, hledger⟩

theorem UsableLedger.ledgerAt (h : UsableLedger run b) {key : RecordKey .timer}
    (hrun : key.val.run = run.val) : ∃ entry, ledgerAt b.objects key = .ok entry := by
  cases hlookup : b.objects.lookup key.val.dueLocation with
  | none => exact ⟨none, ledgerAt_none hlookup⟩
  | some data =>
    have hpath := mem_runLedger hrun (by rw [hlookup]; rfl)
    obtain ⟨key', entry, -, hlocation, hledger⟩ := exists_entry hpath (h _ hpath)
    obtain rfl : key' = key := Subtype.ext (ItemKey.dueLocation_injective hlocation)
    exact ⟨some entry, hledger⟩

section Items

variable {α : Type} {kind : RecordKind} {codec : Codec wire.Bytes α}
variable {validateRecord : α → Expectation (ItemKey kind) → Except Err (ItemKey kind)}

theorem exec_getItem_none {key : RecordKey kind} (h : b.objects.lookup key.val.location = none) :
    b.exec (getItem codec validateRecord key.val) = (.ok none, b) := by
  have hdecode : decodeMessage codec (replyAt b.objects key.val.location) = .ok none := by
    rw [replyAt, h]
    rfl
  simp [getItem, exec_bind, itemPath_of_stored, exec_readMessage_at, hdecode]

theorem Swept.filed (h : Swept run timers b.objects b'.objects) (hkind : kind ≠ .timer)
    (hfiled : Filed codec validateRecord run b) : Filed codec validateRecord run b' := by
  intro path hpath
  obtain ⟨hrecord, hdir⟩ := List.mem_filter.1 hpath
  have hdir : path.dropLast = itemDir kind run := by simpa using hdir
  have hbelow : itemDir kind run <+: path.dropLast := by rw [hdir]
  by_cases haddress : ∃ a : Address, path = a.path
  · obtain ⟨a, rfl⟩ := haddress
    obtain ⟨key, rfl, hrun⟩ := address_below_items run kind hbelow
    have hsome := isSome_of_mem_records hrecord
    have hnone : b'.objects.lookup (Address.item kind key).path = none := h.items key hkind hrun
    rw [hnone] at hsome
    cases hsome
  · have hrun : OfRun run.val path := .inl ((List.prefix_append _ _).trans hbelow)
    have hsame := h.others path hrun fun a ha => haddress ⟨a, ha⟩
    have hold := hfiled path (List.mem_filter.2 ⟨mem_records_of_same hsame hrecord, by simp [hdir]⟩)
    rwa [itemAt, replyAt, ← hsame] at hold

theorem Swept.exec_listItems (h : Swept run timers b.objects b'.objects) (hkind : kind ≠ .timer)
    {version : α → RecordSchemaVersion} {recordKey : α → Option (ItemKey kind)}
    (hchecks : ∀ record expected, validateRecord record expected =
      validateItemRecord (version record) (recordKey record) expected)
    (hfiled : Filed codec validateRecord run b) :
    b'.exec (listItems codec validateRecord run.val) = (.ok [], b') := by
  have hlist : (∃ err, b'.exec (listItems codec validateRecord run.val) = (.error err, b') ∧ _) ∨ _ :=
    Python.exec_listItems hchecks
  rcases hlist with ⟨err, -, hbad⟩ | ⟨records, keys, hexec, -, -, hlength, hnames⟩
  · exact absurd (h.filed hkind hfiled) hbad
  · have hkeys : keys = [] := by
      apply List.eq_nil_iff_forall_not_mem.2
      intro k hk
      obtain ⟨key, -, hrun, hsome⟩ := (hnames k).1 hk
      rw [h.items key hkind hrun] at hsome
      cases hsome
    rw [hkeys] at hlength
    rw [hexec, List.length_eq_zero_iff.1 hlength.symm]

end Items

theorem exec_getTimer_absent {wire : Wire} {b : Bucket wire.Bytes} {key : RecordKey .timer}
    (hledger : ∃ entry, ledgerAt b.objects key = .ok entry)
    (hpoint : ledgerAt b.objects key = .ok none → ∃ record, pointAt b.objects key = .ok record)
    (hnone : timerAt b.objects key = none) : b.exec (getTimer wire key.val) = (.ok none, b) := by
  obtain ⟨entry, hledger⟩ := hledger
  have hledgerOf : ledgerOf b.objects key = entry.map entryRecord := by
    simp [ledgerOf, hledger, Except.toOption]
  rw [timerAt, hledgerOf] at hnone
  cases entry with
  | none =>
    obtain ⟨record, hrecord⟩ := hpoint hledger
    rw [exec_getTimer_bare hledger, hrecord]
    simpa [resolve, pointOf, hrecord, Except.toOption] using hnone
  | some entry =>
    have hcanceled : (entryRecord entry).status = .canceled ∧
        pointOf b.objects key ≠ some (entryRecord entry) := by
      simpa [resolve] using hnone
    rw [exec_getTimer_entry hledger fun heq => hcanceled.2 (pointOf_eq_some.2 heq)]
    simp [liveRecord, hcanceled.1]

theorem pointAt_of_covered {wire : Wire} {b : Bucket wire.Bytes} {key : RecordKey .timer}
    (hrun : key.val.run = run.val)
    (hcovered : ∀ path ∈ b.records.filter (·.dropLast = timerDir run), Covered run b.objects path)
    (hledger : ledgerAt b.objects key = .ok none) : ∃ record, pointAt b.objects key = .ok record := by
  cases hlookup : b.objects.lookup key.val.location with
  | none => exact ⟨none, pointAt_none hlookup⟩
  | some data =>
    have hsome : (b.objects.lookup key.val.location).isSome := by rw [hlookup]; rfl
    rcases hcovered _ (mem_itemDir hrun hsome) with hok | ⟨key', -, hlocation, hentry⟩
    · rcases hfound : recordAt run b.objects key.val.location with err | _ | ⟨k, record⟩
      · rw [hfound] at hok
        cases hok
      · rw [lookup_of_recordAt_none hfound] at hlookup
        cases hlookup
      · obtain ⟨key', -, -, hlocation, hpoint⟩ := (recordAt_eq_some run).1 hfound
        obtain rfl : key' = key := Subtype.ext (ItemKey.location_injective hlocation)
        exact ⟨some record, hpoint⟩
    · obtain rfl : key' = key := Subtype.ext (ItemKey.location_injective hlocation)
      rw [ledgerOf, hledger] at hentry
      cases hentry

section Swept

variable (h : Swept run timers b.objects b'.objects)
variable (hlisted : ∀ key, key ∈ timers ↔
  key.val.run = run.val ∧ (Python.timerAt b.objects key).isSome)
include h hlisted

theorem Swept.timerAt {key : RecordKey .timer} (hrun : key.val.run = run.val) :
    timerAt b'.objects key = none := by
  by_cases hkey : key ∈ timers
  · obtain ⟨hpoint, entry, hledger, hcanceled⟩ := h.removed key hkey
    have hledgerOf : ledgerOf b'.objects key = some (entryRecord entry) :=
      ledgerOf_eq_some.2 ⟨entry, hledger, rfl⟩
    simp [Python.timerAt, resolve, hledgerOf, pointOf_none hpoint, hcanceled]
  · have hbefore : Python.timerAt b.objects key = none := by
      rw [← Option.not_isSome_iff_eq_none]
      exact fun hsome => hkey ((hlisted key).2 ⟨hrun, hsome⟩)
    rw [Python.timerAt, ledgerOf, pointOf, ledgerAt_of_lookup (h.ledger key hkey),
      pointAt_of_lookup (h.point key hkey)]
    exact hbefore

omit hlisted in
theorem Swept.ledgerAt (husable : UsableLedger run b) {key : RecordKey .timer}
    (hrun : key.val.run = run.val) : ∃ entry, ledgerAt b'.objects key = .ok entry := by
  by_cases hkey : key ∈ timers
  · obtain ⟨entry, hledger, -⟩ := (h.removed key hkey).ledger
    exact ⟨some entry, hledger⟩
  · rw [ledgerAt_of_lookup (h.ledger key hkey)]
    exact husable.ledgerAt hrun

omit hlisted in
theorem Swept.covered
    (hcovered : ∀ path ∈ b.records.filter (·.dropLast = timerDir run), Covered run b.objects path) :
    ∀ path ∈ b'.records.filter (·.dropLast = timerDir run), Covered run b'.objects path := by
  intro path hpath
  obtain ⟨hrecord, hdir⟩ := List.mem_filter.1 hpath
  have hdir : path.dropLast = timerDir run := by simpa using hdir
  have hbelow : itemDir .timer run <+: path.dropLast := by rw [hdir, timerDir]
  have hkeys : ∀ key ∈ timers, key.val.location ≠ path := by
    intro key hkey heq
    have hsome := isSome_of_mem_records hrecord
    rw [← heq, (h.removed key hkey).point] at hsome
    cases hsome
  have hsame : b'.objects.lookup path = b.objects.lookup path := by
    by_cases haddress : ∃ a : Address, path = a.path
    · obtain ⟨a, rfl⟩ := haddress
      obtain ⟨key, rfl, -⟩ := address_below_items run .timer hbelow
      exact h.point key fun hkey => hkeys key hkey rfl
    · exact h.others path (.inl ((List.prefix_append _ _).trans hbelow)) fun a ha => haddress ⟨a, ha⟩
  have hbefore := hcovered path
    (List.mem_filter.2 ⟨mem_records_of_same hsame hrecord, by simp [hdir]⟩)
  rcases hbefore with hok | ⟨key, hrun, hlocation, hentry⟩
  · left
    rwa [recordAt, replyAt, hsame]
  · right
    refine ⟨key, hrun, hlocation, ?_⟩
    rwa [ledgerOf, ledgerAt_of_lookup (h.ledger key fun hkey => hkeys key hkey hlocation)]

theorem Swept.quiet (husable : UsableLedger run b) {path : Path}
    (hpath : path ∈ b'.recordsBelow (runLedger run)) :
    ∃ (key : RecordKey .timer) (entry : DueTimerEntry), key.val.run = run.val ∧
      key.val.dueLocation = path ∧ Python.ledgerAt b'.objects key = .ok (some entry) ∧
      (entryRecord entry).status = .canceled := by
  obtain ⟨hrecord, hbelow⟩ := List.mem_filter.1 hpath
  have hbelow : runLedger run <+: path.dropLast := by simpa using hbelow
  have hsome := isSome_of_mem_records hrecord
  by_cases haddress : ∃ a : Address, path = a.path
  · obtain ⟨a, rfl⟩ := haddress
    obtain ⟨key, rfl, -⟩ := address_below_dueRoot hbelow
    have hrun : key.val.run = run.val := run_of_dueLocation hbelow
    obtain ⟨entry, hledger⟩ := h.ledgerAt husable hrun
    cases entry with
    | none =>
      have hnone : b'.objects.lookup (Address.due key).path = none := lookup_of_ledgerAt_none hledger
      rw [hnone] at hsome
      cases hsome
    | some entry =>
      refine ⟨key, entry, hrun, rfl, hledger, ?_⟩
      have hnone := h.timerAt hlisted hrun
      have hledgerOf : ledgerOf b'.objects key = some (entryRecord entry) :=
        ledgerOf_eq_some.2 ⟨entry, hledger, rfl⟩
      rw [Python.timerAt, hledgerOf] at hnone
      by_contra hlive
      simp [resolve, hlive] at hnone
  · -- an object that is not at an address is left as it was, where it could be used
    have hsame := h.others path (.inr hbelow) fun a ha => haddress ⟨a, ha⟩
    have hbefore : path ∈ b.recordsBelow (runLedger run) :=
      List.mem_filter.2 ⟨mem_records_of_same hsame hrecord, by simpa using hbelow⟩
    obtain ⟨key, entry, -, hlocation, -⟩ := exists_entry hbefore (husable path hbefore)
    exact absurd ⟨.due key, hlocation.symm⟩ haddress

end Swept

end After

section AllOrNothing

variable {wire : RecordWire} {b b' : Bucket wire.Bytes} {run : RunKey} {plan : DeletionPlan}
variable {timers : List (RecordKey .timer)}

theorem listTimers_status (wire : Wire) (fuel : Nat) (key : WorkflowKey) (status : TimerStatus) :
    listTimers wire fuel key status = (do
      let records ← listTimers wire fuel key .unspecified
      return if status = .unspecified then records else records.filter (·.status = status)) := by
  simp only [listTimers, bind_assoc, if_true, pure_bind, apply_ite pure]

variable (wire run) in
/-- No read, no listing and no due scan meets a record of the run. The scan of an entry depends on
its point record too, which may be any. -/
structure Vanished (b : Bucket wire.Bytes) : Prop where
  claim : ∀ key : RecordKey .claim, key.val.run = run.val →
    b.exec (getClaim wire key.val) = (.ok none, b)
  claims : b.exec (listClaims wire run.val) = (.ok [], b)
  activity : ∀ key : RecordKey .activity, key.val.run = run.val →
    b.exec (getActivity wire key.val) = (.ok none, b)
  activities : b.exec (listActivities wire run.val) = (.ok [], b)
  event : ∀ key : RecordKey .event, key.val.run = run.val →
    b.exec (getEvent wire.toWire key.val) = (.ok none, b)
  events : b.exec (listEvents wire.toWire run.val) = (.ok [], b)
  timer : ∀ key : RecordKey .timer, key.val.run = run.val →
    b.exec (getTimer wire.toWire key.val) = (.ok none, b)
  timers : ∀ fuel, b.walkFuel ≤ fuel → ∀ status,
    (b.exec (listTimers wire.toWire fuel run.val status)).1 = .ok []
  workflow : b.exec (getWorkflow wire.toWire run.val) = (.ok none, b)
  due : ∀ b' : Bucket wire.Bytes,
    (∀ path, runLedger run <+: path.dropLast → b'.objects.lookup path = b.objects.lookup path) →
    ∀ now due, ∀ path ∈ b'.recordsBelow (runLedger run), ∃ due',
      (b'.exec (scanEntry wire.toWire now run.val.ns due path)).1 = .ok due'

variable (wire) in
/-- What a call of `delete_run` has to do: a call that raises leaves all but copies as they are, one
that returns leaves nothing of the run, and neither changes another run. -/
structure AllOrNothing (key : WorkflowKey) (b : Bucket wire.Bytes) (result : Except Err Nat)
    (b' : Bucket wire.Bytes) : Prop where
  raised : ∀ err, result = .error err →
    ∀ path, ¬ IsCopy path → b'.objects.lookup path = b.objects.lookup path
  returned : ∀ total, result = .ok total →
    ∃ h : key.Valid ∧ key.ns ≠ "", Vanished wire ⟨key, h⟩ b'
  others : ∀ other : RunKey, other.val ≠ key → ∀ path, OfRun other.val path →
    b'.objects.lookup path = b.objects.lookup path

/-- The first delete is that of a timer whose ledger object cannot be used. -/
structure StopsFirst (run : RunKey) (objects : Objects wire.toWire) : Prop where
  claims : ∀ key : RecordKey .claim, key.val.run = run.val → objects.lookup key.val.location = none
  activities : ∀ key : RecordKey .activity, key.val.run = run.val →
    objects.lookup key.val.location = none
  timer : ∃ key : RecordKey .timer, key.val.run = run.val ∧ (timerAt objects key).isSome ∧
    (ledgerAt objects key).isOk = false ∧
    ∀ other : RecordKey .timer, other.val.run = run.val → (timerAt objects other).isSome →
      key.val.id ≤ other.val.id

variable (wire run) in
/-- The listings raise, or all ledger objects of the run can be used, or the first delete raises. -/
def Removable (b : Bucket wire.Bytes) : Prop :=
  Plannable wire run b → UsableLedger run b ∨ StopsFirst run b.objects

theorem vanished_of_swept (hplannable : Plannable wire run b) (husable : UsableLedger run b)
    (hlisted : ∀ key, key ∈ timers ↔ key.val.run = run.val ∧ (timerAt b.objects key).isSome)
    (hswept : Swept run timers b.objects b'.objects) : Vanished wire run b' := by
  have hcovered := hswept.covered hplannable.timers
  have hnone : ∀ {key : RecordKey .timer}, key.val.run = run.val → timerAt b'.objects key = none :=
    fun hrun => hswept.timerAt hlisted hrun
  constructor
  · intro key hrun
    exact exec_getItem_none (hswept.items key (by decide) hrun)
  · exact hswept.exec_listItems (by decide) (fun _ _ => rfl) hplannable.claims
  · intro key hrun
    exact exec_getItem_none (hswept.items key (by decide) hrun)
  · exact hswept.exec_listItems (by decide) (fun _ _ => rfl) hplannable.activities
  · intro key hrun
    exact exec_getItem_none (hswept.items key (by decide) hrun)
  · exact hswept.exec_listItems (by decide) (fun _ _ => rfl) hplannable.events
  · intro key hrun
    apply exec_getTimer_absent (hswept.ledgerAt husable hrun) _ (hnone hrun)
    exact pointAt_of_covered hrun hcovered
  · intro fuel hfuel status
    obtain ⟨b'', -, ⟨err, -, path, hpath, hbad⟩ | ⟨records, hexec, -, hmem, -⟩⟩ :=
      exec_listTimers (b := b') run hfuel
    · exact absurd (hcovered path hpath) hbad
    · have hempty : records = [] := by
        apply List.eq_nil_iff_forall_not_mem.2
        intro entry hentry
        obtain ⟨key, -, hrun, htimer⟩ := (hmem entry.1 entry.2).1 hentry
        have hhere := hnone hrun
        rw [timerAt, htimer] at hhere
        cases hhere
      rw [hempty] at hexec
      rw [listTimers_status, exec_bind_ok b' _ hexec]
      simp
  · have hdecode : decodeMessage wire.workflow (replyAt b'.objects run.val.location) = .ok none := by
      rw [replyAt, hswept.workflow]
      rfl
    simp [getWorkflow, exec_bind, workflowPath_of_stored, exec_readMessage_at, hdecode]
  · intro b'' hsame now due path hpath
    obtain ⟨hrecord, hbelow⟩ := List.mem_filter.1 hpath
    have hlookup := hsame path (by simpa using hbelow)
    have hleft : path ∈ b'.recordsBelow (runLedger run) :=
      List.mem_filter.2 ⟨mem_records_of_same hlookup hrecord, hbelow⟩
    obtain ⟨key, entry, hrun, rfl, hledger, hcanceled⟩ := hswept.quiet hlisted husable hleft
    rw [← ledgerAt_of_lookup hlookup] at hledger
    have hns : key.val.ns = run.val.ns := congrArg WorkflowKey.ns hrun
    exact ⟨due, by rw [← hns]; exact exec_scanEntry_canceled hledger hcanceled now due⟩

/-- A ledger object that cannot be used is still there after the deletion, and a due scan raises. -/
theorem usableLedger_of_vanished (hplans : Plans run b.objects plan timers)
    (hread : ∀ key ∈ timers, ∃ entry, ledgerAt b.objects key = .ok entry)
    (hswept : Swept run timers b.objects b'.objects) (h : Vanished wire run b') :
    UsableLedger run b := by
  intro path hpath
  by_contra hbad
  obtain ⟨hrecord, hbelow⟩ := List.mem_filter.1 hpath
  have hbelow' : runLedger run <+: path.dropLast := by simpa using hbelow
  have hsome := isSome_of_mem_records hrecord
  have hsame : b'.objects.lookup path = b.objects.lookup path := by
    by_cases haddress : ∃ a : Address, path = a.path
    · obtain ⟨a, rfl⟩ := haddress
      obtain ⟨key, rfl, -⟩ := address_below_dueRoot hbelow'
      by_cases hkey : key ∈ timers
      · -- the timers of the plan have entries that can be used
        have hrun := ((hplans.timers key).1 hkey).1
        obtain ⟨entry, hledger⟩ := hread key hkey
        cases entry with
        | none =>
          have hnone : b.objects.lookup (Address.due key).path = none :=
            lookup_of_ledgerAt_none hledger
          rw [hnone] at hsome
          cases hsome
        | some entry =>
          have hfound : shadowAt run b.objects (Address.due key).path = _ :=
            (shadowAt_eq_some run).2 ⟨key, rfl, hrun, rfl, entry, hledger, rfl⟩
          rw [hfound] at hbad
          exact absurd rfl hbad
      · exact hswept.ledger key hkey
    · exact hswept.others path (.inr hbelow') fun a ha => haddress ⟨a, ha⟩
  have hleft : path ∈ b'.recordsBelow (runLedger run) :=
    List.mem_filter.2 ⟨mem_records_of_same hsame.symm hrecord, hbelow⟩
  have hunusable : (shadowAt run b'.objects path).isOk = false := by
    have heq : shadowAt run b'.objects path = shadowAt run b.objects path := by
      rw [shadowAt, shadowAt, replyAt, replyAt, hsame]
    rw [heq]
    simpa using hbad
  obtain ⟨due, hscan⟩ := h.due b' (fun _ _ => rfl) 0 [] path hleft
  obtain ⟨err, hraise⟩ : ∃ err,
      (b'.exec (scanEntry wire.toWire 0 run.val.ns [] path)).1 = .error err :=
    exec_scanEntry_error hbelow' hunusable 0 []
  rw [hscan] at hraise
  cases hraise

theorem not_removed_of_same
    (hsame : ∀ path, ¬ IsCopy path → b'.objects.lookup path = b.objects.lookup path)
    {key : RecordKey .timer} (hrun : key.val.run = run.val) (htimer : (timerAt b.objects key).isSome) :
    ¬ Removed key b'.objects := by
  intro hremoved
  obtain ⟨hpoint, entry, hledger, hcanceled⟩ := hremoved
  have hpointSame := hsame key.val.location (not_isCopy (ofRun_item hrun))
  have hledgerSame := hsame key.val.dueLocation (not_isCopy (ofRun_due hrun))
  rw [ledgerAt_of_lookup hledgerSame] at hledger
  rw [hpointSame] at hpoint
  have hledgerOf : ledgerOf b.objects key = some (entryRecord entry) :=
    ledgerOf_eq_some.2 ⟨entry, hledger, rfl⟩
  simp [timerAt, resolve, hledgerOf, pointOf_none hpoint, hcanceled] at htimer

theorem Names.eq_nil {kind : RecordKind} {keys : List (ItemKey kind)} {objects : Objects wire.toWire}
    (h : Names run objects keys) : keys = [] ↔ ∀ key : RecordKey kind, key.val.run = run.val →
      objects.lookup key.val.location = none := by
  constructor
  · intro hnil key hrun
    rw [← Option.not_isSome_iff_eq_none]
    intro hsome
    have hmem := (h key.val).2 ⟨key, rfl, hrun, hsome⟩
    rw [hnil] at hmem
    cases hmem
  · intro hnone
    apply List.eq_nil_iff_forall_not_mem.2
    intro k hk
    obtain ⟨key, -, hrun, hsome⟩ := (h k).1 hk
    rw [hnone key hrun] at hsome
    cases hsome

theorem stopsFirst_iff (hplans : Plans run b.objects plan timers) {err : Err}
    {before after : List (RecordKey .timer)} {key : RecordKey .timer}
    (hsplit : timers = before ++ key :: after)
    (hread : ∀ key ∈ before, ∃ entry, ledgerAt b.objects key = .ok entry)
    (herror : ledgerAt b.objects key = .error err) :
    StopsFirst run b.objects ↔ plan.claimKeys = [] ∧ plan.activityKeys = [] ∧ before = [] := by
  rw [hplans.claims.eq_nil, hplans.activities.eq_nil]
  have hsorted := hplans.sorted
  rw [hsplit, List.pairwise_append] at hsorted
  obtain ⟨hsortedBefore, hsortedAfter, hcross⟩ := hsorted
  constructor
  · intro h
    obtain ⟨hclaims, hactivities, first, hrun, htimer, hbad, hleast⟩ := h
    refine ⟨hclaims, hactivities, ?_⟩
    cases before with
    | nil => rfl
    | cons head rest =>
      -- the head has the least id, but its ledger object can be used
      have hhead : head.val.run = run.val ∧ (timerAt b.objects head).isSome :=
        (hplans.timers head).1 (by simp [hsplit])
      have hfirst : first ∈ head :: rest ++ key :: after := by
        rw [← hsplit]
        exact (hplans.timers first).2 ⟨hrun, htimer⟩
      have hne : first ≠ head := by
        intro heq
        obtain ⟨entry, hledger⟩ := hread head (by simp)
        rw [heq, hledger] at hbad
        cases hbad
      have hlt : head.val.id < first.val.id := by
        rcases List.mem_append.1 hfirst with hmem | hmem
        · rcases List.mem_cons.1 hmem with heq | hmem
          · exact absurd heq hne
          · exact (List.pairwise_cons.1 hsortedBefore).1 first hmem
        · exact hcross head (by simp) first hmem
      exact absurd (hleast head hhead.1 hhead.2) (not_le_of_gt hlt)
  · intro h
    obtain ⟨hclaims, hactivities, rfl⟩ := h
    have hkey := (hplans.timers key).1 (by simp [hsplit])
    refine ⟨hclaims, hactivities, key, hkey.1, hkey.2, by rw [herror]; rfl, ?_⟩
    intro other hrun htimer
    have hmem := (hplans.timers other).2 ⟨hrun, htimer⟩
    rw [hsplit, List.nil_append] at hmem
    rcases List.mem_cons.1 hmem with rfl | hmem
    · exact le_refl _
    · exact le_of_lt ((List.pairwise_cons.1 hsortedAfter).1 other hmem)

theorem allOrNothing_iff (run : RunKey) {fuel : Nat} (hfuel : b.walkFuel ≤ fuel) :
    AllOrNothing wire run.val b (b.exec (deleteRun wire fuel run.val)).1
      (b.exec (deleteRun wire fuel run.val)).2 ↔ Removable wire run b := by
  obtain ⟨result, b', hexec, houtside, hcases⟩ := exec_deleteRun run hfuel
  rw [hexec]
  have hothers : ∀ other : RunKey, other.val ≠ run.val → ∀ path, OfRun other.val path →
      b'.objects.lookup path = b.objects.lookup path := by
    intro other hne path hpath
    apply houtside path _ (not_isCopy hpath)
    intro hrun
    exact hne (congrArg Subtype.val (hrun.unique hpath))
  rcases hcases with ⟨hbad, ⟨err, rfl⟩, hsame⟩ | ⟨hplannable, plan, timers, hplans, hdone⟩
  · exact iff_of_true ⟨fun _ _ => hsame, by simp, hothers⟩ fun hplannable => absurd hplannable hbad
  rcases hdone with ⟨⟨total, rfl⟩, hread, hswept⟩ |
    ⟨err, before, key, after, rfl, hsplit, hread, herror, hitems, hremoved, hsame⟩
  · constructor
    · intro h _
      obtain ⟨_, hvanished⟩ := h.returned total rfl
      exact .inl (usableLedger_of_vanished hplans hread hswept hvanished)
    · intro h
      rcases h hplannable with husable | hstops
      · refine ⟨by simp, fun _ _ => ⟨run.property, ?_⟩, hothers⟩
        exact vanished_of_swept hplannable husable hplans.timers hswept
      · obtain ⟨key, hrun, htimer, hbad, -⟩ := hstops.timer
        obtain ⟨entry, hledger⟩ := hread key ((hplans.timers key).2 ⟨hrun, htimer⟩)
        rw [hledger] at hbad
        cases hbad
  · have hkey := (hplans.timers key).1 (by simp [hsplit])
    constructor
    · intro h _
      have hkept := h.raised err rfl
      have hgone : ∀ path ∈ itemPaths plan.claimKeys ++ itemPaths plan.activityKeys,
          ¬ IsCopy path → b.objects.lookup path = none := by
        intro path hpath hcopy
        rw [← hkept path hcopy]
        exact hitems path hpath
      refine .inr ((stopsFirst_iff hplans hsplit hread herror).2 ⟨?_, ?_, ?_⟩)
      · apply List.eq_nil_iff_forall_not_mem.2
        intro k hk
        obtain ⟨claim, rfl, hrun, hsome⟩ := (hplans.claims k).1 hk
        rw [hgone _ (List.mem_append_left _ (List.mem_map_of_mem hk))
          (not_isCopy (ofRun_item hrun))] at hsome
        cases hsome
      · apply List.eq_nil_iff_forall_not_mem.2
        intro k hk
        obtain ⟨activity, rfl, hrun, hsome⟩ := (hplans.activities k).1 hk
        rw [hgone _ (List.mem_append_right _ (List.mem_map_of_mem hk))
          (not_isCopy (ofRun_item hrun))] at hsome
        cases hsome
      · apply List.eq_nil_iff_forall_not_mem.2
        intro k hk
        obtain ⟨hrun, htimer⟩ := (hplans.timers k).1 (by simp [hsplit, hk])
        exact not_removed_of_same hkept hrun htimer (hremoved k hk)
    · intro h
      rcases h hplannable with husable | hstops
      · obtain ⟨entry, hledger⟩ := husable.ledgerAt hkey.1
        rw [hledger] at herror
        cases herror
      · obtain ⟨hclaims, hactivities, hbefore⟩ := (stopsFirst_iff hplans hsplit hread herror).1 hstops
        exact ⟨fun _ _ => hsame hclaims hactivities hbefore, by simp, hothers⟩

theorem exec_deleteRun_invalid {key : WorkflowKey} (h : ¬ (key.Valid ∧ key.ns ≠ "")) (fuel : Nat) :
    ∃ err, b.exec (deleteRun wire fuel key) = (.error err, b) := by
  have hclaims : Bucket.Keeps (· = b) (listClaims wire key) := by
    apply (readOnly_liftExcept _).keeps.bind
    intro dir
    apply (readOnly_listEntries dir).keeps.bind
    intro entries
    split
    · exact keeps_pure _
    · apply keeps_forEach
      intro records path
      apply (readOnly_readMessage _ path).keeps.bind
      intro record
      split
      · exact keeps_pure _
      · exact (readOnly_liftExcept _).keeps.bind fun _ => keeps_pure _
  have hstate : (b.exec (listClaims wire key)).2 = b := (hclaims b rfl).exec
  have hdir : ∃ err, itemDirPath (key.item .activity "placeholder") = .error err := by
    rw [itemDirPath]
    cases hvalid : validateItemKey (key.item .activity "placeholder") with
    | error err => exact ⟨err, rfl⟩
    | ok done =>
      obtain ⟨hitem, hns⟩ := validateItemKey_eq_ok.1 hvalid
      exact absurd ⟨hitem.run (by decide), hns⟩ h
  obtain ⟨err, hdir⟩ := hdir
  have hactivities : b.exec (listActivities wire key) = (.error err, b) := by
    simp only [listActivities, listItems, exec_bind, exec_liftExcept, hdir]
  rcases hlist : b.exec (listClaims wire key) with ⟨err' | records, b'⟩
  · rw [hlist] at hstate
    subst hstate
    exact ⟨err', by rw [deleteRun, planDeletion, exec_bind, exec_bind_error _ _ hlist]⟩
  · rw [hlist] at hstate
    subst hstate
    refine ⟨err, ?_⟩
    rw [deleteRun, planDeletion, exec_bind, exec_bind_ok _ _ hlist, exec_bind_error _ _ hactivities]

end AllOrNothing

/-- The deletion of a run is all or nothing exactly when the run can be removed. -/
theorem allOrNothing_deleteRun (wire : RecordWire) (b : Bucket wire.Bytes) (key : WorkflowKey)
    (fuel : Nat) (hfuel : b.walkFuel ≤ fuel) :
    AllOrNothing wire key b (b.exec (deleteRun wire fuel key)).1 (b.exec (deleteRun wire fuel key)).2 ↔
      ∀ h : key.Valid ∧ key.ns ≠ "", Removable wire ⟨key, h⟩ b := by
  by_cases h : key.Valid ∧ key.ns ≠ ""
  · have hiff := allOrNothing_iff (b := b) ⟨key, h⟩ hfuel
    rw [hiff]
    exact ⟨fun hremovable _ => hremovable, fun hremovable => hremovable h⟩
  · obtain ⟨err, hexec⟩ := exec_deleteRun_invalid (b := b) h fuel
    rw [hexec]
    exact iff_of_true ⟨by simp, by simp, by simp⟩ fun hvalid => absurd hvalid h

def bellRun : RunKey := ⟨⟨"default", "wf", "run"⟩, by decide, by decide⟩

def lockKey : RecordKey .claim := ⟨⟨"default", "wf", "run", "lock"⟩, by decide, by decide⟩

def ringKey : TimerKey := ⟨"default", "wf", "run", "bell"⟩

def bellLock : ClaimRecord where
  schemaVersion := .claim
  key := some lockKey.val
  ownerId := "worker"
  resourceType := .workflow
  resourceId := "wf"
  leaseExpiresAt := none
  createdAt := some ⟨1, 0⟩
  heartbeatAt := none

def bellBucket (ledger : Payload) : Bucket taggedRecordWire.Bytes where
  objects :=
    let objects : Objects taggedRecordWire.toWire := ∅
    ((objects.insert lockKey.val.location (.inr bellLock)).insert ringKey.location
      (.inl (.timer (bellTimer .scheduled)))).insert ringKey.dueLocation (.inl ledger)
  directories := []
  time := 0

def bellFiled : Bucket taggedRecordWire.Bytes :=
  bellBucket (.due (dueEntry (bellTimer .fired) bellRun.val))

/-- The ledger holds a record of another type in its place. -/
def bellMixed : Bucket taggedRecordWire.Bytes := bellBucket (.timer (bellTimer .scheduled))

theorem allOrNothing_bellFiled : bellFiled.walkFuel ≤ 20 ∧
    AllOrNothing taggedRecordWire bellRun.val bellFiled
      (bellFiled.exec (deleteRun taggedRecordWire 20 bellRun.val)).1
      (bellFiled.exec (deleteRun taggedRecordWire 20 bellRun.val)).2 := by
  have hfuel : bellFiled.walkFuel ≤ 20 := by decide
  have husable : UsableLedger bellRun bellFiled :=
    (by decide : ∀ path ∈ bellFiled.recordsBelow (runLedger bellRun),
      (shadowAt bellRun bellFiled.objects path).isOk = true)
  refine ⟨hfuel, (allOrNothing_deleteRun taggedRecordWire bellFiled bellRun.val 20 hfuel).2 ?_⟩
  intro _ _
  exact .inl husable

/-- The claim is deleted before the call raises. -/
theorem not_allOrNothing_bellMixed : ¬ AllOrNothing taggedRecordWire bellRun.val bellMixed
    (bellMixed.exec (deleteRun taggedRecordWire 20 bellRun.val)).1
    (bellMixed.exec (deleteRun taggedRecordWire 20 bellRun.val)).2 := by
  intro h
  have hcopy : ¬ IsCopy lockKey.val.location := not_isCopy (ofRun_item (show _ = bellRun.val from rfl))
  have hkept := h.raised _ rfl lockKey.val.location hcopy
  have hgone : (bellMixed.exec (deleteRun taggedRecordWire 20 bellRun.val)).2.objects.lookup
      lockKey.val.location = none := rfl
  have hheld : bellMixed.objects.lookup lockKey.val.location = some (.inr bellLock) := rfl
  rw [hgone, hheld] at hkept
  cases hkept

end Temporaless.Python
