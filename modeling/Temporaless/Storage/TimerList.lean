import Temporaless.Storage.DueScan

/-!
# Listing the timers of a run

`ListTimers` reads the ledger entries of the run before its point records. A tidy bucket has no
point record without a ledger entry, so the listing consists of what the ledger says.
-/

namespace Temporaless.OpenDALStore

open PathTree Effects

variable {run : WorkflowKey}

theorem valid_placeholder (h : run.Valid) (kind : RecordKind) :
    (run.item kind "placeholder").Valid := by
  have hv := (validationError_eq_ok _).1 h
  have hid : ∀ message field, identifierViolations message field "placeholder" [] = [] := by
    intro message field
    rfl
  refine (validationError_eq_ok _).2 ?_
  rw [WorkflowKey.withDefaults_item]
  simp only [WorkflowKey.violations, identifierViolations, ownedViolations, systemViolations,
    List.append_eq_nil_iff, violationUnless_eq_nil] at hv
  cases kind with
  | claim =>
    simp only [ItemKey.violations, WorkflowKey.item, hid, List.append_nil]
    simp only [RecordKind.workflowViolations, identifierViolations, ownedViolations,
      systemViolations, List.append_eq_nil_iff, violationUnless_eq_nil, Bool.or_eq_true]
    exact ⟨⟨hv.1.1, ⟨⟨hv.1.2.1.1.1, .inr hv.1.2.1.1.2⟩, hv.1.2.1.2⟩, hv.1.2.2⟩, hv.2⟩
  | activity | timer | event =>
    simp only [ItemKey.violations, WorkflowKey.item, hid, List.append_nil]
    simp only [RecordKind.workflowViolations, identifierViolations, ownedViolations,
      systemViolations, List.append_eq_nil_iff, violationUnless_eq_nil]
    exact ⟨⟨hv.1.1, hv.1.2⟩, hv.2⟩

theorem dirPath_placeholder (h : run.Valid) (kind : RecordKind) :
    (run.item kind "placeholder").dirPath = .ok (runDir (run.stored h).val.ns
      (run.stored h).val.workflowID (run.stored h).val.runID ++ [kind.name]) := by
  rw [ItemKey.dirPath_of_valid (valid_placeholder h kind), WorkflowKey.withDefaults_item]
  rfl

theorem address_below_items {a : Address} (run : RunKey) (kind : RecordKind)
    (h : runDir run.val.ns run.val.workflowID run.val.runID ++ [kind.name] <+: a.path.dropLast) :
    ∃ key : RecordKey kind, a = .item kind key ∧ key.val.run = run.val := by
  have hlength := h.length_le
  cases a with
  | workflow k =>
    simp [Address.path, WorkflowKey.location, runDir, storageRoot] at hlength
  | item kind' k =>
    simp only [Address.path, ItemKey.location, ItemKey.directory, runDir, storageRoot,
      List.cons_append, List.nil_append, List.dropLast_cons_cons, List.dropLast_singleton,
      List.cons_prefix_cons, true_and] at h
    obtain ⟨hns, hworkflow, hrun, hkind, -⟩ := h
    obtain rfl : kind' = kind := by
      revert hkind
      cases kind <;> cases kind' <;> decide
    refine ⟨k, rfl, ?_⟩
    simp only [ItemKey.run, ← hns, ← hworkflow, ← hrun]
  | due k =>
    simp only [Address.path, ItemKey.dueLocation, dueRoot, runDir, storageRoot, List.cons_append,
      List.nil_append, List.dropLast_cons_cons, List.dropLast_singleton, List.cons_prefix_cons,
      true_and] at h
    have hplain := run.property.1.plain.2.2.2.2
    rw [h.2.1] at hplain
    exact absurd hplain (by decide)
  | latest ns workflowID => simp [Address.path, runDir, storageRoot] at hlength
  | quarantine ns digest => simp [Address.path, runDir, dueInvalidRoot, storageRoot] at hlength

variable {wire : Wire} {b : Bucket wire.Bytes}

theorem exists_items_of_walk (hb : Tidy wire b.objects) (run : RunKey) (kind : RecordKind)
    {found : List Path} (hfound : found.Perm (b.recordsBelow
      (runDir run.val.ns run.val.workflowID run.val.runID ++ [kind.name]))) :
    ∃ keys : List (RecordKey kind), keys.map (·.val.location) = found ∧ keys.Nodup ∧
      ∀ key, key ∈ keys ↔ key.val.run = run.val ∧ (b.objects.lookup key.val.location).isSome := by
  have hmem : ∀ path, path ∈ found ↔ ∃ key : RecordKey kind, key.val.location = path ∧
      key.val.run = run.val ∧ (b.objects.lookup key.val.location).isSome := by
    intro path
    rw [hfound.mem_iff]
    constructor
    · intro hpath
      obtain ⟨hrecord, hbelow⟩ := List.mem_filter.1 hpath
      have hsome := AList.lookup_isSome.2 (AList.mem_keys.2 (List.mem_of_mem_filter hrecord))
      obtain ⟨data, hdata⟩ := Option.isSome_iff_exists.1 hsome
      obtain ⟨a, rfl, -⟩ := hb.placed path data hdata
      obtain ⟨key, rfl, hrun⟩ := address_below_items run kind (by simpa using hbelow)
      exact ⟨key, rfl, hrun, hsome⟩
    · intro hkey
      obtain ⟨key, rfl, hrun, hsome⟩ := hkey
      have hkeys := AList.mem_keys.1 (AList.lookup_isSome.1 hsome)
      have hsuffix : hasBinpbSuffix key.val.location = true :=
        hasBinpbSuffix_binpb key.val.directory key.val.id
      have hne : key.val.location ≠ [] := by simp [ItemKey.location]
      refine List.mem_filter.2 ⟨List.mem_filter.2 ⟨hkeys, by simp [hsuffix, hne]⟩, ?_⟩
      rw [← hrun]
      simp [ItemKey.location, ItemKey.directory, ItemKey.run]
  obtain ⟨keys, hkeys, hP⟩ := exists_map_eq (f := fun key : RecordKey kind => key.val.location)
    found fun path hpath => (hmem path).1 hpath
  have hnodup : found.Nodup := hfound.nodup_iff.2 ((b.objects.keys_nodup.filter _).filter _)
  refine ⟨keys, hkeys, List.Nodup.of_map _ (hkeys ▸ hnodup), ?_⟩
  intro key
  constructor
  · exact hP key
  · intro hkey
    have hin := (hmem key.val.location).2 ⟨key, rfl, hkey⟩
    rw [← hkeys] at hin
    obtain ⟨key', hkey', heq⟩ := List.mem_map.1 hin
    have : key' = key := Subtype.ext (ItemKey.location_injective heq)
    rwa [← this]

theorem mem_insert_listing {listing : TimerListing} {id id' : String} {record record' : TimerRecord} :
    (id', record') ∈ (listing.insert id record).recordsByID ↔
      (id' = id ∧ record' = record) ∨ (id' ≠ id ∧ (id', record') ∈ listing.recordsByID) := by
  simp only [TimerListing.insert, List.mem_cons, Prod.mk.injEq, List.mem_filter, bne_iff_ne]
  tauto

theorem nodup_insert_listing {listing : TimerListing} (id : String) (record : TimerRecord)
    (h : (listing.recordsByID.map Prod.fst).Nodup) :
    ((listing.insert id record).recordsByID.map Prod.fst).Nodup := by
  simp only [TimerListing.insert, List.map_cons, List.nodup_cons]
  constructor
  · intro hmem
    obtain ⟨entry, hentry, heq⟩ := List.mem_map.1 hmem
    exact (by simpa using (List.mem_filter.1 hentry).2 : entry.1 ≠ id) heq
  · exact h.sublist (List.filter_sublist.map _)

/-- What the ledger entries of some keys contribute to a listing. -/
structure Shadows (objects : Objects wire) (keys : List (RecordKey .timer))
    (listing listing' : TimerListing) : Prop where
  covered : ∀ path, path ∈ listing'.shadowPointPaths ↔
    path ∈ listing.shadowPointPaths ∨ ∃ key ∈ keys, path = key.val.location
  nodup : (listing.recordsByID.map Prod.fst).Nodup → (listing'.recordsByID.map Prod.fst).Nodup
  records : ∀ id record, (id, record) ∈ listing'.recordsByID ↔
    (∃ key ∈ keys, key.val.id = id ∧ timerState wire objects key = some record) ∨
      ((id, record) ∈ listing.recordsByID ∧
        ∀ key ∈ keys, key.val.id = id → timerState wire objects key = none)

private theorem exec_listDueShadow (hb : Tidy wire b.objects) (run : WorkflowKey)
    (key : RecordKey .timer) (paths : List Path) (listing : TimerListing)
    (hrun : key.val.run = run.withDefaults) (hsome : (ledgerRecord wire b.objects key).isSome) :
    ∃ listing', b.exec (listDueShadows wire run (key.val.dueLocation :: paths) listing) =
        b.exec (listDueShadows wire run paths listing') ∧
      Shadows b.objects [key] listing listing' := by
  rcases hb.ledger_cases key with ⟨-, hnone⟩ | ⟨record, hlookup, hrecord, hprep⟩
  · rw [hnone] at hsome
    cases hsome
  · have hns : run.withDefaults.ns = key.val.ns := by rw [← hrun]; rfl
    have hsame : sameWorkflowRun run key.val.run = true := by
      rw [sameWorkflowRun_iff, hrun, WorkflowKey.withDefaults_withDefaults]
    have hprepared : preparedRecord (dueEntry record) = timerState wire b.objects key := by
      rw [timerState, hrecord]
      rfl
    let covered : TimerListing :=
      { listing with shadowPointPaths := key.val.location :: listing.shadowPointPaths }
    have hexec : b.exec (listDueShadows wire run (key.val.dueLocation :: paths) listing) =
        (timerState wire b.objects key).elim (b.exec (listDueShadows wire run paths covered))
          fun record => b.exec (listDueShadows wire run paths (covered.insert key.val.id record)) := by
      rw [listDueShadows, exec_bind_ok b _ (exec_readListedProto hlookup)]
      simp only [hprep.entryTimerKey, hprep.entryWorkflowKey, hns, hprep.validateDueEntry, hsame,
        key.path_eq, exec_bind, exec_liftExcept, Except.mapError, guardCorrupt, if_true, hprepared]
      cases timerState wire b.objects key <;> rfl
    rcases hstate : timerState wire b.objects key with _ | prepared
    · rw [hstate] at hexec
      refine ⟨covered, hexec, ?_, id, ?_⟩
      · intro path
        simp only [covered, List.mem_cons, List.not_mem_nil, or_false, exists_eq_left]
        exact or_comm
      · intro id prepared
        simp [covered, hstate]
    · rw [hstate] at hexec
      refine ⟨covered.insert key.val.id prepared, hexec, ?_, nodup_insert_listing _ _, ?_⟩
      · intro path
        simp only [covered, TimerListing.insert, List.mem_cons, List.not_mem_nil, or_false,
          exists_eq_left]
        exact or_comm
      · intro id record'
        rw [mem_insert_listing]
        simp only [List.mem_cons, List.not_mem_nil, or_false, exists_eq_left, forall_eq, hstate,
          Option.some.injEq, reduceCtorEq, imp_false]
        have hid : id = key.val.id ↔ key.val.id = id := eq_comm
        have hrec : record' = prepared ↔ prepared = record' := eq_comm
        rw [ne_eq, hid, hrec, and_comm (a := ¬_)]

theorem exec_listDueShadows (hb : Tidy wire b.objects) (run : WorkflowKey)
    (keys : List (RecordKey .timer)) (listing : TimerListing)
    (hkeys : ∀ key ∈ keys, key.val.run = run.withDefaults ∧
      (ledgerRecord wire b.objects key).isSome) (hids : (keys.map (·.val.id)).Nodup) :
    ∃ listing', b.exec (listDueShadows wire run (keys.map (·.val.dueLocation)) listing) =
      (.ok listing', b) ∧ Shadows b.objects keys listing listing' := by
  induction keys generalizing listing with
  | nil =>
    refine ⟨listing, rfl, ?_, id, ?_⟩
    · simp
    · simp
  | cons key keys ih =>
    obtain ⟨hrun, hsome⟩ := hkeys key (by simp)
    obtain ⟨hid, hids⟩ := List.nodup_cons.1 hids
    have hfresh : ∀ key' ∈ keys, key'.val.id ≠ key.val.id := by
      intro key' hkey' heq
      exact hid (List.mem_map.2 ⟨key', hkey', heq⟩)
    obtain ⟨middle, hexec, hfirst⟩ := exec_listDueShadow hb run key
      (keys.map (·.val.dueLocation)) listing hrun hsome
    obtain ⟨listing', hlisting, hshadows⟩ := ih middle
      (fun key' hkey' => hkeys key' (by simp [hkey'])) hids
    refine ⟨listing', hexec.trans hlisting, ?_, ?_, ?_⟩
    · intro path
      rw [hshadows.covered, hfirst.covered]
      simp only [List.mem_cons, List.not_mem_nil, or_false, exists_eq_left,
        exists_eq_or_imp, or_assoc]
    · exact fun h => hshadows.nodup (hfirst.nodup h)
    · intro id record
      rw [hshadows.records, hfirst.records]
      simp only [List.mem_cons, List.not_mem_nil, or_false, exists_eq_left, forall_eq,
        exists_eq_or_imp, forall_eq_or_imp]
      constructor
      · rintro (hlater | ⟨hhere | ⟨hmem, hnone⟩, hlater⟩)
        · exact Or.inl (Or.inr hlater)
        · exact Or.inl (Or.inl hhere)
        · exact Or.inr ⟨hmem, hnone, hlater⟩
      · rintro ((hhere | hlater) | ⟨hmem, hnone, hlater⟩)
        · refine Or.inr ⟨Or.inl hhere, ?_⟩
          intro key' hkey' heq
          exact absurd (heq.trans hhere.1.symm) (hfresh key' hkey')
        · exact Or.inl hlater
        · exact Or.inr ⟨Or.inr ⟨hmem, hnone⟩, hlater⟩

theorem exec_listTimerPoints (hb : Tidy wire b.objects) (run : WorkflowKey)
    (keys : List (RecordKey .timer)) (listing : TimerListing)
    (hkeys : ∀ key ∈ keys, key.val.run = run.withDefaults ∧
      (b.objects.lookup key.val.location).isSome ∧ key.val.location ∈ listing.shadowPointPaths) :
    b.exec (listTimerPoints wire run (keys.map (·.val.location)) listing) = (.ok listing, b) := by
  induction keys with
  | nil => rfl
  | cons key keys ih =>
    obtain ⟨hrun, hsome, hshadow⟩ := hkeys key (by simp)
    have hrest := ih fun key' hkey' => hkeys key' (by simp [hkey'])
    have hsuffix : hasBinpbSuffix key.val.location = true :=
      hasBinpbSuffix_binpb key.val.directory key.val.id
    obtain ⟨data, hdata⟩ := Option.isSome_iff_exists.1 hsome
    obtain ⟨record, rfl, hvalid⟩ := hb.wellStored (a := .item .timer key) hdata
    obtain ⟨hversion, hkey, heq⟩ := validateItem_eq_ok.1 hvalid
    rw [key.withDefaults] at heq
    have hself : validateTimerRecord record (itemKeyFromProto record.key) = .ok () :=
      validateItem_eq_ok.2 ⟨hversion, hkey, rfl⟩
    have hsame : sameWorkflowRun run (itemKeyFromProto record.key).run = true := by
      rw [sameWorkflowRun_iff, ← ItemKey.run_withDefaults, heq, hrun]
    have hpath : (itemKeyFromProto record.key).path = .ok key.val.location := by
      rw [ItemKey.path_of_valid hkey, heq]
    have hlisted : validateListedTimer key.val.location run record = .ok () := by
      simp [validateListedTimer, validateListed, hself, hsame, hpath, Except.mapError,
        guardCorrupt, bind, Except.bind]
    have hmem : listing.shadowPointPaths.contains key.val.location = true := by
      simpa using hshadow
    simp only [List.map_cons, listTimerPoints, hsuffix, Bool.not_true, Bool.false_eq_true,
      if_false, exec_bind, exec_attempt, exec_readListedProto hdata, hlisted, exec_liftExcept,
      exec_pure, hpath, hmem, if_true]
    exact hrest

private theorem nodup_ids (keys : List (RecordKey .timer)) (h : keys.Nodup)
    (hrun : ∀ key ∈ keys, key.val.run = run) : (keys.map (·.val.id)).Nodup := by
  refine List.Nodup.map_on ?_ h
  intro key hkey key' hkey' hid
  have hkeyrun := (hrun key hkey).trans (hrun key' hkey').symm
  simp only [ItemKey.run, WorkflowKey.mk.injEq] at hkeyrun
  obtain ⟨hns, hworkflow, hrunID⟩ := hkeyrun
  apply Subtype.ext
  cases hk : key.val
  cases hk' : key'.val
  simp_all

theorem run_of_keys {key : RecordKey .timer} (hns : key.val.ns = run.withDefaults.ns)
    (hrest : [run.workflowID, run.runID] <+: [key.val.workflowID, key.val.runID]) :
    key.val.run = run.withDefaults := by
  simp only [List.cons_prefix_cons, List.nil_prefix, and_true] at hrest
  obtain ⟨hworkflow, hrunID⟩ := hrest
  cases hr : run.withDefaults
  have hworkflow' := run.withDefaults_workflowID
  have hrunID' := run.withDefaults_runID
  simp_all [ItemKey.run]

theorem mem_keys_of_run {keys : List (RecordKey .timer)}
    (hkeys : ∀ key, key ∈ keys ↔ key.val.ns = run.withDefaults.ns ∧
      [run.workflowID, run.runID] <+: [key.val.workflowID, key.val.runID] ∧
      (ledgerRecord wire b.objects key).isSome)
    {key : RecordKey .timer} (hrun : key.val.run = run.withDefaults)
    (hsome : (ledgerRecord wire b.objects key).isSome) : key ∈ keys := by
  have hworkflow := congrArg WorkflowKey.workflowID hrun
  have hrunID := congrArg WorkflowKey.runID hrun
  simp only [ItemKey.run, WorkflowKey.withDefaults_workflowID,
    WorkflowKey.withDefaults_runID] at hworkflow hrunID
  refine (hkeys key).2 ⟨congrArg WorkflowKey.ns hrun, ?_, hsome⟩
  rw [hworkflow, hrunID]

private theorem pairwise_timerID {records : List TimerRecord} (h : (records.map timerID).Nodup) :
    (records.insertionSort (timerID · ≤ timerID ·)).Pairwise (timerID · < timerID ·) := by
  have : Std.Total fun left right : TimerRecord => timerID left ≤ timerID right :=
    ⟨fun left right => le_total _ _⟩
  have : IsTrans TimerRecord fun left right => timerID left ≤ timerID right :=
    ⟨fun a c d hac hcd => le_trans hac hcd⟩
  have hperm := List.perm_insertionSort (fun left right => timerID left ≤ timerID right) records
  have hnodup := (hperm.map timerID).nodup_iff.2 h
  have hsorted := List.pairwise_insertionSort
    (fun left right : TimerRecord => timerID left ≤ timerID right) records
  refine (hsorted.and (List.pairwise_map.1 hnodup)).imp ?_
  intro left right hboth
  exact lt_of_le_of_ne hboth.1 hboth.2

theorem timerID_of_state (hb : Tidy wire b.objects) {key : RecordKey .timer} {record : TimerRecord}
    (h : timerState wire b.objects key = some record) : timerID record = key.val.id := by
  have hrecord := (Option.filter_eq_some_iff.1 h).1
  rcases hb.ledger_cases key with ⟨-, hnone⟩ | ⟨r, -, hr, hprep⟩
  · rw [hnone] at hrecord
    cases hrecord
  · rw [hr] at hrecord
    cases hrecord
    rw [timerID, ← ItemKey.withDefaults_id, hprep.key]

/-- The listing of a run holds exactly the timers that point reads find and the filter selects,
in order of their identifiers. -/
theorem exec_listTimers (hb : Tidy wire b.objects) (hrun : run.Valid)
    {fuel : Nat} (hfuel : b.walkFuel ≤ fuel) (status : TimerStatus) :
    ∃ records, b.exec (listTimers wire fuel run status) = (.ok records, b) ∧
      records.Pairwise (timerID · < timerID ·) ∧
      ∀ record, record ∈ records ↔ (∃ key : RecordKey .timer, key.val.run = run.withDefaults ∧
        timerState wire b.objects key = some record) ∧
        (status = .unspecified ∨ record.status = status) := by
  have hroot : dueRunRoot run =
      .ok (dueRoot run.withDefaults.ns ++ [run.workflowID, run.runID]) := by
    have hvalid : run.withDefaults.validate = .ok () := by
      rw [WorkflowKey.validate_withDefaults]
      exact hrun
    simp only [dueRunRoot, hvalid, WorkflowKey.withDefaults_workflowID,
      WorkflowKey.withDefaults_runID]
    rfl
  obtain ⟨duePaths, hdue, hdueperm⟩ := exec_walkOpenDAL_of_fuel hfuel
    (dueRoot run.withDefaults.ns ++ [run.workflowID, run.runID])
  obtain ⟨keys, rfl, hnodup, hkeys⟩ := exists_keys_of_walk hb _ hdueperm
  have hkeyrun : ∀ key ∈ keys, key.val.run = run.withDefaults ∧
      (ledgerRecord wire b.objects key).isSome := by
    intro key hkey
    obtain ⟨hns, hrest, hsome⟩ := (hkeys key).1 hkey
    exact ⟨run_of_keys hns hrest, hsome⟩
  obtain ⟨listing, hlisting, hshadows⟩ := exec_listDueShadows hb run keys ⟨[], []⟩ hkeyrun
    (nodup_ids keys hnodup fun key hkey => (hkeyrun key hkey).1)
  obtain ⟨paths, hpaths, hperm⟩ := exec_walkOpenDAL_of_fuel hfuel
    (runDir (run.stored hrun).val.ns (run.stored hrun).val.workflowID
      (run.stored hrun).val.runID ++ [RecordKind.timer.name])
  obtain ⟨points, rfl, -, hpoints⟩ := exists_items_of_walk hb (run.stored hrun) .timer hperm
  have hcovered := exec_listTimerPoints hb run points listing (by
    intro key hkey
    obtain ⟨hkr, hsome⟩ := (hpoints key).1 hkey
    refine ⟨hkr, hsome, (hshadows.covered _).2 (Or.inr ⟨key, ?_, rfl⟩)⟩
    refine mem_keys_of_run hkeys hkr ?_
    rcases hb.ledger_cases key with ⟨hlookup, -⟩ | ⟨r, -, hr, -⟩
    · rw [hb.pointRecord_none hlookup] at hsome
      cases hsome
    · rw [hr]
      rfl)
  have hrecords : ∀ id record, (id, record) ∈ listing.recordsByID ↔
      ∃ key : RecordKey .timer, key.val.run = run.withDefaults ∧ key.val.id = id ∧
        timerState wire b.objects key = some record := by
    intro id record
    rw [hshadows.records]
    simp only [List.not_mem_nil, false_and, or_false]
    constructor
    · intro h
      obtain ⟨key, hkey, hid, hstate⟩ := h
      exact ⟨key, (hkeyrun key hkey).1, hid, hstate⟩
    · intro h
      obtain ⟨key, hkr, hid, hstate⟩ := h
      have hrecord := (Option.filter_eq_some_iff.1 hstate).1
      exact ⟨key, mem_keys_of_run hkeys hkr (by rw [hrecord]; rfl), hid, hstate⟩
  have hids : (listing.recordsByID.map Prod.snd).map timerID =
      listing.recordsByID.map Prod.fst := by
    rw [List.map_map]
    apply List.map_congr_left
    intro entry hentry
    obtain ⟨key, -, hid, hstate⟩ := (hrecords entry.1 entry.2).1 hentry
    exact (timerID_of_state hb hstate).trans hid
  refine ⟨((listing.recordsByID.map Prod.snd).filter fun record =>
    status = .unspecified ∨ record.status = status).insertionSort (timerID · ≤ timerID ·), ?_, ?_, ?_⟩
  · simp only [listTimers, exec_bind, exec_liftExcept, hroot, hdue, hlisting,
      dirPath_placeholder hrun .timer, hpaths, hcovered, exec_pure]
  · apply pairwise_timerID
    refine List.Nodup.sublist (List.Sublist.map timerID List.filter_sublist) ?_
    rw [hids]
    exact hshadows.nodup List.nodup_nil
  · intro record
    rw [List.mem_insertionSort, List.mem_filter, List.mem_map, decide_eq_true_eq]
    refine and_congr_left fun _ => ?_
    constructor
    · intro h
      obtain ⟨entry, hentry, rfl⟩ := h
      obtain ⟨key, hkr, -, hstate⟩ := (hrecords entry.1 entry.2).1 hentry
      exact ⟨key, hkr, hstate⟩
    · intro h
      obtain ⟨key, hkr, hstate⟩ := h
      exact ⟨(key.val.id, record), (hrecords _ _).2 ⟨key, hkr, rfl, hstate⟩, rfl⟩

end Temporaless.OpenDALStore
