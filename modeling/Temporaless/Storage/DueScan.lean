import Temporaless.Storage.TimerLedger

/-!
# The due scan

A scan reads every ledger entry of a namespace, brings lagging point records in line with it and
reports the wakes whose two copies already agreed. It never changes what a timer is.
-/

namespace Temporaless.OpenDALStore

open PathTree Effects

def runKeyOf (key : RecordKey .timer) : RunKey :=
  ⟨key.val.run, key.property.1.run (by decide), key.property.2⟩

variable (wire : Wire)

/-- The timer point tells what the due ledger tells. -/
def Synced (objects : Objects wire) (key : RecordKey .timer) : Prop :=
  pointRecord wire objects key = timerState wire objects key

instance (objects : Objects wire) (key : RecordKey .timer) : Decidable (Synced wire objects key) :=
  inferInstanceAs (Decidable (_ = _))

/-- The wake that a timer asks for at `now`, if its workflow is still in progress. -/
def wake (objects : Objects wire) (now : Int) (key : RecordKey .timer) : Option DueTimer :=
  match timerState wire objects key with
  | none => none
  | some record =>
    if record.status = .scheduled ∧ timeOf record.fireAt ≤ now then
      ((workflowRecord wire objects (runKeyOf key)).filter (·.status = .inProgress)).map
        fun workflow => ⟨key.val, record, workflow⟩
    else none

/-- A scan may mend timer points; it changes no ledger entry and no workflow. -/
structure Repairs (objects objects' : Objects wire) : Prop where
  tidy : Tidy wire objects'
  ledger : ∀ key, ledgerRecord wire objects' key = ledgerRecord wire objects key
  workflows : ∀ key, workflowRecord wire objects' key = workflowRecord wire objects key
  synced : ∀ key, Synced wire objects key → Synced wire objects' key

variable {wire} {objects objects' objects'' : Objects wire}

theorem Repairs.refl (h : Tidy wire objects) : Repairs wire objects objects :=
  ⟨h, fun _ => rfl, fun _ => rfl, fun _ hkey => hkey⟩

theorem Repairs.trans (h : Repairs wire objects objects') (h' : Repairs wire objects' objects'') :
    Repairs wire objects objects'' :=
  ⟨h'.tidy, fun key => (h'.ledger key).trans (h.ledger key),
    fun key => (h'.workflows key).trans (h.workflows key),
    fun key hkey => h'.synced key (h.synced key hkey)⟩

theorem Repairs.timerState (h : Repairs wire objects objects') (key : RecordKey .timer) :
    OpenDALStore.timerState wire objects' key = OpenDALStore.timerState wire objects key := by
  rw [OpenDALStore.timerState, h.ledger key, OpenDALStore.timerState]

theorem Repairs.wake (h : Repairs wire objects objects') (now : Int) (key : RecordKey .timer) :
    OpenDALStore.wake wire objects' now key = OpenDALStore.wake wire objects now key := by
  simp only [OpenDALStore.wake, h.timerState key, h.workflows]

section Repair

variable {key : RecordKey .timer} {record : TimerRecord}

theorem timerState_of_ledger (h : ledgerRecord wire objects key = some record)
    (hstatus : record.status ≠ .canceled) : timerState wire objects key = some record := by
  simp [timerState, h, hstatus]

theorem timerState_of_tombstone (h : ledgerRecord wire objects key = some record)
    (hstatus : record.status = .canceled) : timerState wire objects key = none := by
  simp [timerState, h, hstatus]

private theorem repairs_of_point (key : RecordKey .timer) (htidy : Tidy wire objects')
    (hledger : ∀ k, ledgerRecord wire objects' k = ledgerRecord wire objects k)
    (hworkflows : ∀ k, workflowRecord wire objects' k = workflowRecord wire objects k)
    (hpoints : ∀ k, k ≠ key → pointRecord wire objects' k = pointRecord wire objects k)
    (hsync : Synced wire objects key → Synced wire objects' key) :
    Repairs wire objects objects' := by
  refine ⟨htidy, hledger, hworkflows, ?_⟩
  intro k hk
  by_cases hkey : k = key
  · subst hkey
    exact hsync hk
  · rw [Synced, hpoints k hkey, timerState, hledger]
    exact hk

theorem repairs_prepare (h : Tidy wire objects)
    (hrecord : ledgerRecord wire objects key = some record) (hprep : Preparable record key) :
    Repairs wire objects (prepare objects key record) := by
  have hledger : ∀ k, ledgerRecord wire (prepare objects key record) k =
      ledgerRecord wire objects k := by
    intro k
    rw [ledgerRecord_prepare]
    split
    · next hk => rw [hk, hrecord]
    · rfl
  have hpoint : ∀ k, pointRecord wire (prepare objects key record) k =
      pointRecord wire objects k := by
    intro k
    exact storedRecord_insert_ne wire.timer (a := .item .timer k) (by simp) _
  refine repairs_of_point key (h.prepare hprep) hledger ?_ (fun k _ => hpoint k) ?_
  · intro k
    exact storedRecord_insert_ne wire.workflow (a := .workflow k) (by simp) _
  · intro hk
    rw [Synced, hpoint, timerState, hledger]
    exact hk

theorem repairs_publish (h : Tidy wire objects)
    (hrecord : ledgerRecord wire objects key = some record) (hprep : Preparable record key)
    (hstatus : record.status ≠ .canceled) :
    Repairs wire objects (publish objects key record) ∧
      Synced wire (publish objects key record) key := by
  have hledger : ∀ k, ledgerRecord wire (publish objects key record) k =
      ledgerRecord wire objects k := ledgerRecord_publish
  have hsync : Synced wire (publish objects key record) key := by
    have hstate := timerState_of_ledger ((hledger key).trans hrecord) hstatus
    rw [Synced, pointRecord, storedRecord_some lookup_publish, hstate]
  have hsome : (objects.lookup key.val.dueLocation).isSome := by
    rcases h.ledger_cases key with ⟨-, hnone⟩ | ⟨r, hlookup, -⟩
    · rw [hrecord] at hnone
      cases hnone
    · rw [hlookup]
      rfl
  refine ⟨repairs_of_point key (h.publish hprep hsome) hledger ?_ ?_ (fun _ => hsync), hsync⟩
  · intro k
    exact storedRecord_insert_ne wire.workflow (a := .workflow k) (by simp) _
  · intro k hk
    exact storedRecord_insert_ne wire.timer (a := .item .timer k) (by simpa using hk) _

theorem repairs_erase (h : Tidy wire objects) (hstate : timerState wire objects key = none) :
    Repairs wire objects (objects.erase (Address.item .timer key).path) ∧
      Synced wire (objects.erase (Address.item .timer key).path) key := by
  have hledger : ∀ k, ledgerRecord wire (objects.erase (Address.item .timer key).path) k =
      ledgerRecord wire objects k := ledgerRecord_erase
  have hsync : Synced wire (objects.erase (Address.item .timer key).path) key := by
    have hpoint : (objects.erase (Address.item .timer key).path).lookup key.val.location = none :=
      AList.lookup_erase _ objects
    rw [Synced, pointRecord, storedRecord_none hpoint, timerState, hledger]
    exact hstate.symm
  refine ⟨repairs_of_point key (h.erase (by simp)) hledger ?_ ?_ (fun _ => hsync), hsync⟩
  · intro k
    exact storedRecord_erase_ne wire.workflow (a := .workflow k) (by simp)
  · intro k hk
    exact storedRecord_erase_ne wire.timer (a := .item .timer k) (by simpa using hk)

end Repair

section Entry

variable {b : Bucket wire.Bytes} {key : RecordKey .timer} {record : TimerRecord}

theorem exec_getWorkflow (hb : Tidy wire b.objects) (key : RunKey) :
    b.exec (getWorkflow wire key.val) = (.ok (workflowRecord wire b.objects key), b) := by
  rw [getWorkflow, key.path_eq]
  exact exec_getRecord fun data hdata => hb.wellStored (a := .workflow key) hdata

theorem exec_dueWorkflow (hb : Tidy wire b.objects) (timerKey : TimerKey) (key : RunKey) :
    b.exec (dueWorkflow wire timerKey key.val) =
      (.ok ((workflowRecord wire b.objects key).filter (·.status = .inProgress)), b) := by
  rw [dueWorkflow, exec_bind, exec_attempt, exec_getWorkflow hb key]
  rfl

@[grind ←] theorem readOnly_dueWorkflow (timerKey : TimerKey) (key : WorkflowKey) :
    ReadOnly (dueWorkflow wire timerKey key) := by
  unfold dueWorkflow getWorkflow
  grind

private theorem runs_completeDelete (hb : Tidy wire b.objects)
    (hstate : timerState wire b.objects key = none) :
    b.Runs (fun b' => Repairs wire b.objects b'.objects)
      (completeDelete wire key.val (.ok (pointRecord wire b.objects key)))
      (fun res b' => Repairs wire b.objects b'.objects ∧ Synced wire b'.objects key ∧
        (Synced wire b.objects key → b' = b) ∧ res = .ok ()) := by
  have hsame : Repairs wire b.objects b.objects := Repairs.refl hb
  rcases hpoint : pointRecord wire b.objects key with _ | point
  · simp only [completeDelete, runs_pure]
    exact ⟨hsame, by rw [Synced, hpoint, hstate], fun _ => trivial, trivial⟩
  · simp only [completeDelete, runs_bind, runs_liftExcept, key.path_eq]
    refine runs_deleteIfExists hsame ?_ ?_
    · intro hnone
      rw [pointRecord, storedRecord_none hnone] at hpoint
      cases hpoint
    · intro _ b' hb'
      obtain ⟨hrepairs, hsync⟩ := repairs_erase hb hstate
      have hobjects : b'.objects = b.objects.erase (Address.item .timer key).path := hb'
      rw [← hobjects] at hrepairs hsync
      refine ⟨hrepairs, runs_pure.2 ⟨hrepairs, hsync, ?_, rfl⟩⟩
      intro hbefore
      rw [Synced, hpoint, hstate] at hbefore
      cases hbefore

theorem runs_scanPrepared (hb : Tidy wire b.objects)
    (hrecord : ledgerRecord wire b.objects key = some record) (hprep : Preparable record key)
    (now : Int) :
    b.Runs (fun b' => Repairs wire b.objects b'.objects)
      (scanPrepared wire now (dueEntry record) record)
      (fun res b' => Repairs wire b.objects b'.objects ∧ Synced wire b'.objects key ∧
        (Synced wire b.objects key → b' = b) ∧
        res = .ok (if Synced wire b.objects key then wake wire b.objects now key else none)) := by
  have hkey : (ItemKey.stored key.val key.property.1) = key := key.stored _
  have hsame : Repairs wire b.objects b.objects := Repairs.refl hb
  have hpoint := exec_getTimerPoint hb key.val key.property.1
  rw [hkey] at hpoint
  have hread : ReadOnly (getTimerPoint wire key.val) := readOnly_getRecord _ _ _ _
  simp only [scanPrepared, repairOrReport, hprep.entryTimerKey, runs_bind,
    runs_attempt]
  refine hread.runs hsame ?_
  rw [hpoint]
  by_cases hcanceled : record.status = .canceled
  · have hstate := timerState_of_tombstone hrecord hcanceled
    simp only [hcanceled, if_true, runs_bind]
    refine (runs_completeDelete hb hstate).mono ?_
    rintro res b' ⟨hrepairs, hsync, hbefore, rfl⟩
    refine runs_pure.2 ⟨hrepairs, hsync, hbefore, ?_⟩
    rw [wake, hstate, ite_self]
  · have hstate := timerState_of_ledger hrecord hcanceled
    simp only [hcanceled, if_false]
    by_cases hpt : pointRecord wire b.objects key = some record
    · -- both copies agree: nothing to repair
      have hsync : Synced wire b.objects key := by rw [Synced, hpt, hstate]
      have hfire : (dueEntry record).fireAt = record.fireAt := rfl
      have hrun : (runKeyOf key).val = key.val.run := rfl
      rw [if_pos hsync, wake, hstate, if_neg (by simp [hpt, Except.toOption])]
      dsimp only
      by_cases hdue : record.status = .scheduled ∧ timeOf record.fireAt ≤ now
      · rw [if_pos hdue, if_neg (by simp [hfire, hdue.1, hdue.2]), hprep.entryWorkflowKey,
          runs_bind]
        refine (readOnly_dueWorkflow _ _).runs hsame ?_
        rw [← hrun, exec_dueWorkflow hb]
        exact runs_pure.2 ⟨hsame, hsync, fun _ => rfl, rfl⟩
      · rw [if_neg hdue, if_pos (by
          rw [not_and_or, not_le] at hdue
          simpa [hfire] using hdue)]
        exact runs_pure.2 ⟨hsame, hsync, fun _ => rfl, rfl⟩
    · have hsync : ¬Synced wire b.objects key := by rw [Synced, hstate]; exact hpt
      rw [if_neg hsync, if_pos (by simpa [Except.toOption] using hpt), runs_bind]
      have hprepared := repairs_prepare hb hrecord hprep
      obtain ⟨hpublished, hpub⟩ := repairs_publish hprepared.tidy
        ((hprepared.ledger key).trans hrecord) hprep hcanceled
      have hrepairs := hprepared.trans hpublished
      refine runs_putTimer hprep ?_ ?_ ?_
      · intro b' hb'
        rw [hb']
        exact hsame
      · intro b' hb'
        rw [hb']
        exact hprepared
      · intro b' hb'
        rw [← hb'] at hrepairs hpub
        exact ⟨hrepairs, runs_pure.2 ⟨hrepairs, hpub, fun h => absurd h hsync, rfl⟩⟩

theorem runs_scanEntry (hb : Tidy wire b.objects)
    (hrecord : ledgerRecord wire b.objects key = some record) (now : Int) (root : DueLedgerRoot)
    (hroot : root.path = dueRoot key.val.ns) :
    b.Runs (fun b' => Repairs wire b.objects b'.objects)
      (scanEntry wire now root key.val.dueLocation)
      (fun res b' => Repairs wire b.objects b'.objects ∧ Synced wire b'.objects key ∧
        (Synced wire b.objects key → b' = b) ∧
        res = .ok (if Synced wire b.objects key then wake wire b.objects now key else none)) := by
  obtain ⟨hlookup, hprep⟩ : b.objects.lookup key.val.dueLocation =
      some (wire.due.marshal (dueEntry record)) ∧ Preparable record key := by
    rcases hb.ledger_cases key with ⟨-, hnone⟩ | ⟨r, hlookup, hr, hprep⟩
    · rw [hrecord] at hnone
      cases hnone
    · rw [hrecord] at hr
      cases hr
      exact ⟨hlookup, hprep⟩
  have hvalid := hprep.validateDueEntry
  have hentry : (dueEntry record).record = some record := rfl
  simp only [scanEntry, runs_bind, runs_attempt]
  refine (readOnly_readListedProto wire.due key.val.dueLocation).runs (Repairs.refl hb) ?_
  simp only [exec_readListedProto hlookup, hroot, hprep.entryTimerKey, hprep.entryWorkflowKey,
    hvalid, hentry]
  exact runs_scanPrepared hb hrecord hprep now

theorem exec_scanEntry_synced (hb : Tidy wire b.objects)
    (hrecord : ledgerRecord wire b.objects key = some record)
    (hsync : Synced wire b.objects key) (now : Int) (root : DueLedgerRoot)
    (hroot : root.path = dueRoot key.val.ns) :
    b.exec (scanEntry wire now root key.val.dueLocation) =
      (.ok (wake wire b.objects now key), b) := by
  obtain ⟨-, -, hstate, hres⟩ := (runs_scanEntry hb hrecord now root hroot).exec
  rw [if_pos hsync] at hres
  exact Prod.ext hres (hstate hsync)

end Entry

section Ledger

variable {b : Bucket wire.Bytes}

def ledgerRoot (ns : String) : DueLedgerRoot := ⟨dueRoot ns, dueInvalidRoot ns⟩

theorem Tidy.ledger_isSome (h : Tidy wire objects) (key : RecordKey .timer) :
    (ledgerRecord wire objects key).isSome ↔ key.val.dueLocation ∈ objects.keys := by
  rw [← AList.mem_keys, ← AList.lookup_isSome]
  rcases h.ledger_cases key with ⟨hlookup, hrecord⟩ | ⟨r, hlookup, hrecord, -⟩
  · rw [hlookup, hrecord]
    simp
  · rw [hlookup, hrecord]
    simp

theorem address_below_dueRoot {a : Address} {ns : String} {rest : Path}
    (h : dueRoot ns ++ rest <+: a.path.dropLast) :
    ∃ key, a = .due key ∧ key.val.ns = ns ∧ rest <+: [key.val.workflowID, key.val.runID] := by
  have hdue : startsWithUnderscore "_due" = true := by decide
  cases a with
  | workflow k =>
    have hpre : ["_due"] ++ rest <+: [k.val.workflowID, k.val.runID] := by
      simp only [Address.path, WorkflowKey.location, runDir, dueRoot, storageRoot,
        List.cons_append, List.nil_append, List.dropLast_cons_cons, List.dropLast_singleton,
        List.cons_prefix_cons, true_and] at h
      simpa using h.2
    have hwf : "_due" = k.val.workflowID := (List.cons_prefix_cons.1 hpre).1
    have hplain := k.property.1.plain.2.2.2.2
    rw [← hwf, hdue] at hplain
    cases hplain
  | item kind k =>
    simp only [Address.path, ItemKey.location, ItemKey.directory, runDir, dueRoot, storageRoot,
      List.cons_append, List.nil_append, List.dropLast_cons_cons, List.dropLast_singleton,
      List.cons_prefix_cons, true_and] at h
    exact absurd h.2.1.symm k.property.1.workflowID_ne_due
  | due k =>
    simp only [Address.path, ItemKey.dueLocation, dueRoot, storageRoot, List.cons_append,
      List.nil_append, List.dropLast_cons_cons, List.dropLast_singleton, List.cons_prefix_cons,
      true_and] at h
    exact ⟨k, rfl, h.1.symm, h.2⟩
  | latest ns' workflowID =>
    simp [Address.path, dueRoot, storageRoot, List.cons_prefix_cons] at h
  | quarantine ns' digest =>
    simp [Address.path, dueRoot, dueInvalidRoot, storageRoot, List.cons_prefix_cons] at h

theorem hasBinpbSuffix_binpb (dir : Path) (name : String) :
    hasBinpbSuffix (dir ++ [binpb name]) = true := by
  simp [hasBinpbSuffix, binpb]

theorem mem_recordsBelow_dueRoot (hb : Tidy wire b.objects) {ns : String} {rest path : Path} :
    path ∈ b.recordsBelow (dueRoot ns ++ rest) ↔ ∃ key : RecordKey .timer,
      key.val.dueLocation = path ∧ key.val.ns = ns ∧
        rest <+: [key.val.workflowID, key.val.runID] ∧
        (ledgerRecord wire b.objects key).isSome := by
  constructor
  · intro h
    obtain ⟨hrecord, hbelow⟩ := List.mem_filter.1 h
    have hkeys : path ∈ b.objects.keys := List.mem_of_mem_filter hrecord
    obtain ⟨data, hdata⟩ := Option.isSome_iff_exists.1
      (AList.lookup_isSome.2 (AList.mem_keys.2 hkeys))
    obtain ⟨a, rfl, -⟩ := hb.placed path data hdata
    obtain ⟨key, rfl, hns, hrest⟩ := address_below_dueRoot (by simpa using hbelow)
    exact ⟨key, rfl, hns, hrest, (hb.ledger_isSome key).2 hkeys⟩
  · rintro ⟨key, rfl, rfl, hrest, hsome⟩
    have hkeys := (hb.ledger_isSome key).1 hsome
    refine List.mem_filter.2 ⟨List.mem_filter.2 ⟨hkeys, ?_⟩, ?_⟩
    · have hsuffix : hasBinpbSuffix key.val.dueLocation = true :=
        hasBinpbSuffix_binpb (dueRoot key.val.ns ++ [key.val.workflowID, key.val.runID]) key.val.id
      have hne : key.val.dueLocation ≠ [] := by simp [ItemKey.dueLocation]
      simp [hsuffix, hne]
    · simpa [ItemKey.dueLocation, dueRoot, storageRoot] using hrest

end Ledger

section Scan

variable {b : Bucket wire.Bytes} (now : Int)

theorem exists_keys_of_walk (hb : Tidy wire b.objects) {ns : String} (rest : Path)
    {found : List Path} (hfound : found.Perm (b.recordsBelow (dueRoot ns ++ rest))) :
    ∃ keys : List (RecordKey .timer), keys.map (·.val.dueLocation) = found ∧ keys.Nodup ∧
      ∀ key, key ∈ keys ↔ key.val.ns = ns ∧ rest <+: [key.val.workflowID, key.val.runID] ∧
        (ledgerRecord wire b.objects key).isSome := by
  obtain ⟨keys, hkeys, hP⟩ := exists_map_eq (f := fun key : RecordKey .timer => key.val.dueLocation)
    found fun path hpath => (mem_recordsBelow_dueRoot hb).1 (hfound.mem_iff.1 hpath)
  have hnodup : found.Nodup :=
    hfound.nodup_iff.2 ((b.objects.keys_nodup.filter _).filter _)
  refine ⟨keys, hkeys, List.Nodup.of_map _ (hkeys ▸ hnodup), ?_⟩
  intro key
  refine ⟨hP key, fun hkey => ?_⟩
  have hmem : key.val.dueLocation ∈ found :=
    hfound.mem_iff.2 ((mem_recordsBelow_dueRoot hb).2 ⟨key, rfl, hkey⟩)
  rw [← hkeys] at hmem
  obtain ⟨key', hkey', heq⟩ := List.mem_map.1 hmem
  have : key' = key := Subtype.ext (ItemKey.dueLocation_injective heq)
  rwa [← this]

theorem exists_keys_of_ledgerRoot (hb : Tidy wire b.objects) {ns : String} {found : List Path}
    (hfound : found.Perm (b.recordsBelow (ledgerRoot ns).path)) :
    ∃ keys : List (RecordKey .timer), keys.map (·.val.dueLocation) = found ∧ keys.Nodup ∧
      ∀ key, key ∈ keys ↔ key.val.ns = ns ∧ (ledgerRecord wire b.objects key).isSome := by
  simpa using exists_keys_of_walk hb [] (by simpa [ledgerRoot] using hfound)

/-- A list of keys has been scanned: each is in sync, and what was reported is part of the wakes
that the keys ask for. -/
structure Scanned (objects objects' : Objects wire) (keys : List (RecordKey .timer))
    (due : List DueTimer) : Prop where
  repairs : Repairs wire objects objects'
  synced : ∀ key ∈ keys, Synced wire objects' key
  wakes : due.Sublist (keys.filterMap (wake wire objects now))

variable {now}

theorem Scanned.append {keys keys' : List (RecordKey .timer)} {due due' : List DueTimer}
    (h : Scanned now objects objects' keys due) (h' : Scanned now objects' objects'' keys' due') :
    Scanned now objects objects'' (keys ++ keys') (due ++ due') := by
  refine ⟨h.repairs.trans h'.repairs, ?_, ?_⟩
  · intro key hkey
    rcases List.mem_append.1 hkey with hkey | hkey
    · exact h'.repairs.synced key (h.synced key hkey)
    · exact h'.synced key hkey
  · have hwakes : keys'.filterMap (wake wire objects' now) =
        keys'.filterMap (wake wire objects now) := by
      congr 1
      funext key
      exact h.repairs.wake now key
    rw [List.filterMap_append]
    exact h.wakes.append (hwakes ▸ h'.wakes)

variable (now)

theorem runs_scanPaths (hb : Tidy wire b.objects) (ns : String) (keys : List (RecordKey .timer))
    (hkeys : ∀ key ∈ keys, key.val.ns = ns ∧ (ledgerRecord wire b.objects key).isSome) :
    b.Runs (fun b' => Repairs wire b.objects b'.objects)
      (scanPaths wire now (ledgerRoot ns) (keys.map (·.val.dueLocation)))
      (fun res b' => ∃ due, res = .ok due ∧ Scanned now b.objects b'.objects keys due) := by
  induction keys generalizing b with
  | nil =>
    refine runs_pure.2 ⟨[], rfl, Repairs.refl hb, ?_, ?_⟩
    · simp
    · simp
  | cons key keys ih =>
    obtain ⟨hns, hsome⟩ := hkeys key (by simp)
    obtain ⟨record, hrecord⟩ := Option.isSome_iff_exists.1 hsome
    have hroot : (ledgerRoot ns).path = dueRoot key.val.ns := by rw [hns]; rfl
    simp only [List.map_cons, scanPaths, runs_bind]
    refine (runs_scanEntry hb hrecord now (ledgerRoot ns) hroot).mono ?_
    rintro res b' ⟨hrepairs, hsync, -, rfl⟩
    have hkeys' : ∀ key ∈ keys, key.val.ns = ns ∧ (ledgerRecord wire b'.objects key).isSome := by
      intro key' hkey'
      rw [hrepairs.ledger]
      exact hkeys key' (by simp [hkey'])
    have hfirst : Scanned now b.objects b'.objects [key]
        (if Synced wire b.objects key then wake wire b.objects now key else none).toList := by
      refine ⟨hrepairs, by simpa using hsync, ?_⟩
      split
      · rcases hwake : wake wire b.objects now key with _ | due
        · simp
        · simp [hwake]
      · simp
    refine (ih hrepairs.tidy hkeys').imp ?_ ?_
    · intro b'' hb''
      exact hrepairs.trans hb''
    · rintro res b'' ⟨due, rfl, hdue⟩
      exact runs_pure.2 ⟨_, rfl, hfirst.append hdue⟩

theorem exec_scanPaths_synced (hb : Tidy wire b.objects) (ns : String)
    (keys : List (RecordKey .timer))
    (hkeys : ∀ key ∈ keys, key.val.ns = ns ∧ (ledgerRecord wire b.objects key).isSome)
    (hsync : ∀ key ∈ keys, Synced wire b.objects key) :
    b.exec (scanPaths wire now (ledgerRoot ns) (keys.map (·.val.dueLocation))) =
      (.ok (keys.filterMap (wake wire b.objects now)), b) := by
  induction keys with
  | nil => rfl
  | cons key keys ih =>
    obtain ⟨hns, hsome⟩ := hkeys key (by simp)
    obtain ⟨record, hrecord⟩ := Option.isSome_iff_exists.1 hsome
    have hroot : (ledgerRoot ns).path = dueRoot key.val.ns := by rw [hns]; rfl
    have hfirst := exec_scanEntry_synced hb hrecord (hsync key (by simp)) now _ hroot
    have hrest := ih (fun k hk => hkeys k (by simp [hk])) (fun k hk => hsync k (by simp [hk]))
    rw [List.map_cons, scanPaths, exec_bind_ok b _ hfirst, exec_bind_ok b _ hrest, exec_pure,
      List.filterMap_cons]
    cases wake wire b.objects now key <;> rfl

/-- The keys that a scan of the namespaces covers. -/
def Covers (objects : Objects wire) (spaces : List String) (keys : List (RecordKey .timer)) :
    Prop :=
  keys.Nodup ∧
    ∀ key, key ∈ keys ↔ key.val.ns ∈ spaces ∧ (ledgerRecord wire objects key).isSome

private theorem covers_cons {ns : String} {spaces : List String}
    {keys keys' : List (RecordKey .timer)} (hns : ns ∉ spaces) (hnodup : keys.Nodup)
    (hkeys : ∀ key, key ∈ keys ↔ key.val.ns = ns ∧ (ledgerRecord wire objects key).isSome)
    (hkeys' : Covers objects spaces keys') : Covers objects (ns :: spaces) (keys ++ keys') := by
  refine ⟨List.nodup_append.2 ⟨hnodup, hkeys'.1, ?_⟩, ?_⟩
  · intro key hkey key' hkey' heq
    subst heq
    have h := ((hkeys key).1 hkey).1
    exact hns (h ▸ ((hkeys'.2 key).1 hkey').1)
  · intro key
    rw [List.mem_append, hkeys, hkeys'.2, List.mem_cons]
    tauto

theorem runs_scanRoots (hb : Tidy wire b.objects) (fuel : Nat) (spaces : List String)
    (hspaces : spaces.Nodup) :
    b.Runs (fun b' => Repairs wire b.objects b'.objects)
      (scanRoots wire fuel now (spaces.map ledgerRoot))
      (fun res b' => Repairs wire b.objects b'.objects ∧ ∀ due, res = .ok due →
        ∃ keys, Covers b.objects spaces keys ∧ Scanned now b.objects b'.objects keys due) := by
  induction spaces generalizing b with
  | nil =>
    refine runs_pure.2 ⟨Repairs.refl hb, ?_⟩
    rintro due ⟨⟩
    exact ⟨[], ⟨List.nodup_nil, by simp⟩, Repairs.refl hb, by simp, by simp⟩
  | cons ns spaces ih =>
    obtain ⟨hns, hspaces⟩ := List.nodup_cons.1 hspaces
    have hsame := Repairs.refl hb
    simp only [List.map_cons, scanRoots, runs_bind]
    refine (readOnly_walkOpenDAL fuel _).runs hsame ?_
    rcases exec_walkOpenDAL (b := b) fuel (ledgerRoot ns).path with ⟨hstop, -⟩ | ⟨found, hfound, hperm⟩
    · rw [hstop]
      refine ⟨hsame, ?_⟩
      rintro due ⟨⟩
    · rw [hfound]
      obtain ⟨keys, rfl, hnodup, hkeys⟩ := exists_keys_of_ledgerRoot hb hperm
      refine (runs_scanPaths now hb ns keys fun key hkey => (hkeys key).1 hkey).imp
        (fun _ h => h) ?_
      rintro res b' ⟨due, rfl, hscan⟩
      refine (ih hscan.repairs.tidy hspaces).imp ?_ ?_
      · intro b'' hb''
        exact hscan.repairs.trans hb''
      · rintro res b'' ⟨hrepairs, hrest⟩
        have hall := hscan.repairs.trans hrepairs
        rcases res with err | due'
        · refine ⟨hall, ?_⟩
          rintro due ⟨⟩
        · refine runs_pure.2 ⟨hall, ?_⟩
          rintro _ ⟨⟩
          obtain ⟨keys', hcovers, hscan'⟩ := hrest due' rfl
          have hcovers : Covers b.objects spaces keys' := by
            refine ⟨hcovers.1, fun key => ?_⟩
            rw [hcovers.2, hscan.repairs.ledger]
          exact ⟨keys ++ keys', covers_cons hns hnodup hkeys hcovers, hscan.append hscan'⟩

theorem exec_scanRoots_synced (hb : Tidy wire b.objects) {fuel : Nat} (hfuel : b.walkFuel ≤ fuel)
    (spaces : List String) (hspaces : spaces.Nodup)
    (hsync : ∀ key : RecordKey .timer, key.val.ns ∈ spaces → Synced wire b.objects key) :
    ∃ keys, Covers b.objects spaces keys ∧
      b.exec (scanRoots wire fuel now (spaces.map ledgerRoot)) =
        (.ok (keys.filterMap (wake wire b.objects now)), b) := by
  induction spaces with
  | nil => exact ⟨[], ⟨List.nodup_nil, by simp⟩, rfl⟩
  | cons ns spaces ih =>
    obtain ⟨hns, hspaces⟩ := List.nodup_cons.1 hspaces
    obtain ⟨keys', hcovers, hrest⟩ := ih hspaces fun key hkey => hsync key (by simp [hkey])
    obtain ⟨found, hfound, hperm⟩ := exec_walkOpenDAL_of_fuel hfuel (ledgerRoot ns).path
    obtain ⟨keys, rfl, hnodup, hkeys⟩ := exists_keys_of_ledgerRoot hb hperm
    have hscan := exec_scanPaths_synced now hb ns keys (fun key hkey => (hkeys key).1 hkey)
      fun key hkey => hsync key (by simp [((hkeys key).1 hkey).1])
    refine ⟨keys ++ keys', covers_cons hns hnodup hkeys hcovers, ?_⟩
    rw [List.map_cons, scanRoots, exec_bind_ok b _ hfound, exec_bind_ok b _ hscan,
      exec_bind_ok b _ hrest, exec_pure, List.filterMap_append]

/-- The namespaces that a filter selects: all of them if it is empty. -/
def InFilter (ns : String) (key : RecordKey .timer) : Prop := ns = "" ∨ key.val.ns = ns

@[grind ←] theorem readOnly_dueRoots (ns : String) : ReadOnly (dueRoots wire ns) := by
  unfold dueRoots
  grind

private theorem mem_childNames_of_ledger (hb : Tidy wire b.objects) {key : RecordKey .timer}
    (hkey : (ledgerRecord wire b.objects key).isSome) :
    key.val.ns ∈ childNames storageRoot b.locations := by
  have hmem : key.val.dueLocation.dropLast ∈ b.locations :=
    List.mem_append_right _ (List.mem_map_of_mem ((hb.ledger_isSome key).1 hkey))
  refine mem_childNames.2 ⟨_, hmem, ["_due", key.val.workflowID, key.val.runID], ?_⟩
  simp [ItemKey.dueLocation, dueRoot, storageRoot]

private theorem exec_listRoots :
    ∃ spaces : List String, spaces.Nodup ∧
      b.exec (dueRoots wire "") = (.ok (spaces.map ledgerRoot), b) ∧
      ∀ ns, ns ∈ spaces ↔ ns ∈ childNames storageRoot b.locations := by
  by_cases hdir : b.locations.any (storageRoot <+: ·) = true
  · have hlist : b.exec (listDir storageRoot) = (.ok ⟨b.entries storageRoot, none⟩, b) := by
      change Bucket.step b (.list storageRoot) = _
      simp only [Bucket.step, hdir, if_true]
    let names := childNames storageRoot b.locations
    let byPath := fun a c : String => render (ledgerRoot a).path ≤ render (ledgerRoot c).path
    have hperm := List.perm_insertionSort byPath names
    refine ⟨names.insertionSort byPath, ?_, ?_, fun ns => hperm.mem_iff⟩
    · exact hperm.nodup_iff.2 (nodup_childNames _ _)
    · have hmap : (names.map fun name => storageRoot ++ [name]).map (fun namespaceRoot =>
          (⟨namespaceRoot ++ ["_due"], namespaceRoot ++ ["_due_invalid"]⟩ : DueLedgerRoot)) =
          names.map ledgerRoot := by
        rw [List.map_map]
        rfl
      have hsort := List.map_insertionSort byPath
        (fun a c : DueLedgerRoot => render a.path ≤ render c.path) ledgerRoot names
        (fun a _ c _ => Iff.rfl)
      rw [hsort, ← hmap]
      simp only [dueRoots, ne_eq, not_true_eq_false, if_false, exec_bind, exec_attempt, hlist,
        subdirectories_entries]
      rfl
  · have hlist : b.exec (listDir storageRoot) = (.error (notFoundError storageRoot), b) := by
      change Bucket.step b (.list storageRoot) = _
      simp only [Bucket.step, hdir]
      rfl
    refine ⟨[], List.nodup_nil, ?_, ?_⟩
    · simp [dueRoots, exec_bind, hlist]
    · intro ns
      simp only [List.not_mem_nil, false_iff]
      intro hns
      obtain ⟨p, hp, hpre⟩ := mem_childNames.1 hns
      refine hdir (List.any_eq_true.2 ⟨p, hp, ?_⟩)
      simpa using (List.prefix_append storageRoot [ns]).trans hpre

theorem exec_dueRoots (hb : Tidy wire b.objects) (ns : String) :
    (∃ err, b.exec (dueRoots wire ns) = (.error err, b) ∧
        ns ≠ "" ∧ ¬(WorkflowKey.mk ns "placeholder" "placeholder").Valid) ∨
      ∃ spaces : List String, spaces.Nodup ∧
        b.exec (dueRoots wire ns) = (.ok (spaces.map ledgerRoot), b) ∧
        ∀ key : RecordKey .timer, (ledgerRecord wire b.objects key).isSome →
          (key.val.ns ∈ spaces ↔ InFilter ns key) := by
  by_cases hns : ns = ""
  · subst hns
    obtain ⟨spaces, hnodup, hexec, hmem⟩ := exec_listRoots (b := b)
    refine Or.inr ⟨spaces, hnodup, hexec, fun key hkey => ?_⟩
    rw [hmem]
    exact ⟨fun _ => Or.inl rfl, fun _ => mem_childNames_of_ledger hb hkey⟩
  · rcases hvalid : (WorkflowKey.mk ns "placeholder" "placeholder").validate with err | u
    · refine Or.inl ⟨err, ?_, hns, ?_⟩
      · simp [dueRoots, hns, hvalid, Except.map]
      · rw [WorkflowKey.Valid, hvalid]
        simp
    · refine Or.inr ⟨[ns], List.nodup_singleton ns, ?_, ?_⟩
      · simp [dueRoots, hns, hvalid, Except.map, ledgerRoot]
      · intro key _
        simp [InFilter, hns]

/-- A scan keeps `Repairs` at every interruption, and one that succeeds has synced the keys that
its filter selects. -/
theorem runs_dueTimers (hb : Tidy wire b.objects) (fuel : Nat) (ns : String) :
    b.Runs (fun b' => Repairs wire b.objects b'.objects) (dueTimers wire fuel ns now)
      (fun res b' => Repairs wire b.objects b'.objects ∧ ∀ due, res = .ok due →
        (∀ key, InFilter ns key → (ledgerRecord wire b.objects key).isSome →
          Synced wire b'.objects key) ∧
        ∀ d ∈ due, ∃ key, InFilter ns key ∧ wake wire b.objects now key = some d) := by
  have hsame := Repairs.refl hb
  unfold dueTimers
  split
  · refine runs_throw.2 ⟨hsame, ?_⟩
    rintro due ⟨⟩
  · simp only [runs_bind]
    refine (readOnly_dueRoots ns).runs hsame ?_
    rcases exec_dueRoots hb ns with ⟨err, hexec, -⟩ | ⟨spaces, hnodup, hexec, hmem⟩
    · rw [hexec]
      refine ⟨hsame, ?_⟩
      rintro due ⟨⟩
    · rw [hexec]
      refine (runs_scanRoots now hb fuel spaces hnodup).imp (fun _ h => h) ?_
      rintro (err | found) b' ⟨hrepairs, hscan⟩
      · refine ⟨hrepairs, ?_⟩
        rintro due ⟨⟩
      · obtain ⟨keys, hcovers, hscanned⟩ := hscan found rfl
        refine runs_pure.2 ⟨hrepairs, ?_⟩
        rintro due ⟨⟩
        constructor
        · intro key hkey hsome
          exact hscanned.synced key ((hcovers.2 key).2 ⟨(hmem key hsome).2 hkey, hsome⟩)
        · intro d hd
          have hd : d ∈ found := (List.perm_insertionSort _ found).mem_iff.1 hd
          obtain ⟨key, hkey, hwake⟩ := List.mem_filterMap.1 (hscanned.wakes.subset hd)
          obtain ⟨hspace, hsome⟩ := (hcovers.2 key).1 hkey
          exact ⟨key, (hmem key hsome).1 hspace, hwake⟩

end Scan

end Temporaless.OpenDALStore
