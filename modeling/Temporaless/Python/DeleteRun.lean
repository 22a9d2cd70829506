import Temporaless.Python.Listing
import Temporaless.Python.Records

/-!
# Deletion of a run by the Python store

`delete_run` lists the claims, activities, timers and events of the run, checks that all of them
belong to it, and only then deletes them one by one, the workflow record last. Only the listing of
the timers passes over bad objects.
-/

namespace Temporaless.Python

open PathTree Effects OpenDALStore

/-- `for key in keys: if await delete(key): deleted += 1`. -/
def deleteEach {Bytes Key : Type} (delete : Key → BucketM Bytes Bool) :
    List Key → Nat → BucketM Bytes Nat
  | [], deleted => pure deleted
  | key :: keys, deleted => do
    let removed ← delete key
    deleteEach delete keys (if removed then deleted + 1 else deleted)

section Store

variable (wire : RecordWire)

def getClaim (key : ClaimKey) : BucketM wire.Bytes (Option ClaimRecord) :=
  getItem wire.claim validateClaimRecord key

def getActivity (key : ActivityKey) : BucketM wire.Bytes (Option ActivityRecord) :=
  getItem wire.activity validateActivityRecord key

def listClaims (key : WorkflowKey) : BucketM wire.Bytes (List ClaimRecord) :=
  listItems wire.claim validateClaimRecord key

def listActivities (key : WorkflowKey) : BucketM wire.Bytes (List ActivityRecord) :=
  listItems wire.activity validateActivityRecord key

def claimKeysForRun (key : WorkflowKey) (records : List ClaimRecord) : Except Err (List ClaimKey) :=
  keysForRun validateClaimRecord key records

def activityKeysForRun (key : WorkflowKey) (records : List ActivityRecord) :
    Except Err (List ActivityKey) :=
  keysForRun validateActivityRecord key records

def timerKeysForRun (key : WorkflowKey) (records : List TimerRecord) (status : TimerStatus) :
    Except Err (List TimerKey) :=
  records.mapM fun record => do
    let timerKey ← validateTimerRecord record ⟨none, some key, none⟩
    require (status == .unspecified || record.status == status)
      "timer list payload does not match the requested status"
    return timerKey

def deleteClaim (key : ClaimKey) : BucketM wire.Bytes Bool := deleteItem key

def deleteActivity (key : ActivityKey) : BucketM wire.Bytes Bool := deleteItem key

def deleteEvent (key : EventKey) : BucketM wire.Bytes Bool := deleteItem key

def deleteWorkflow (key : WorkflowKey) : BucketM wire.Bytes Bool := do
  let path ← workflowPath key
  deleteIfExists path

structure DeletionPlan where
  claimKeys : List ClaimKey
  activityKeys : List ActivityKey
  timerKeys : List TimerKey
  eventKeys : List EventKey

/-- The first half of `delete_run`: the complete plan, before its first object is removed. -/
def planDeletion (fuel : Nat) (key : WorkflowKey) : BucketM wire.Bytes DeletionPlan := do
  let claimRecords ← listClaims wire key
  let activityRecords ← listActivities wire key
  let timerRecords ← listTimers wire.toWire fuel key .unspecified
  let eventRecords ← listEvents wire.toWire key
  let claimKeys ← claimKeysForRun key claimRecords
  let activityKeys ← activityKeysForRun key activityRecords
  let timerKeys ← timerKeysForRun key timerRecords .unspecified
  let eventKeys ← eventKeysForRun key eventRecords
  return ⟨claimKeys, activityKeys, timerKeys, eventKeys⟩

def deletePlanned (key : WorkflowKey) (plan : DeletionPlan) : BucketM wire.Bytes Nat := do
  let deleted ← deleteEach (deleteClaim wire) plan.claimKeys 0
  let deleted ← deleteEach (deleteActivity wire) plan.activityKeys deleted
  let deleted ← deleteEach (deleteTimer wire.toWire) plan.timerKeys deleted
  let deleted ← deleteEach (deleteEvent wire) plan.eventKeys deleted
  let removed ← deleteWorkflow wire key
  return if removed then deleted + 1 else deleted

def deleteRun (fuel : Nat) (key : WorkflowKey) : BucketM wire.Bytes Nat := do
  let plan ← planDeletion wire fuel key
  deletePlanned wire key plan

end Store

section Items

variable {wire : Wire} {b : Bucket wire.Bytes} {α : Type} {kind : RecordKind}
variable (codec : Codec wire.Bytes α)
variable (validateRecord : α → Expectation (ItemKey kind) → Except Err (ItemKey kind)) (run : RunKey)

def itemAt (objects : Objects wire) (path : Path) : Except Err (Option α) :=
  (decodeMessage codec (replyAt objects path)).bind
    (checked fun record => validateRecord record ⟨none, some run.val, some path⟩)

variable {codec validateRecord run}

theorem exec_listMessage (records : List α) (path : Path) :
    b.exec (listMessage codec validateRecord run.val records path) =
      ((itemAt codec validateRecord run b.objects path).map fun found => records ++ found.toList, b) := by
  simp only [listMessage, exec_bind, exec_readMessage_at, itemAt]
  rcases decodeMessage codec (replyAt b.objects path) with err | _ | record
  · rfl
  · simp [Except.bind, checked, Except.map]
  · simp only [exec_bind, exec_liftExcept, Except.bind, checked]
    rcases validateRecord record ⟨none, some run.val, some path⟩ with err | k
    · rfl
    · rfl

theorem exec_listMessages (files : List Path) (records : List α) :
    (∃ err, b.exec (forEach (listMessage codec validateRecord run.val) files records) = (.error err, b) ∧
        ∃ path ∈ files, (itemAt codec validateRecord run b.objects path).isOk = false) ∨
      (∃ found, b.exec (forEach (listMessage codec validateRecord run.val) files records) =
          (.ok (records ++ found), b) ∧
        (∀ path ∈ files, (itemAt codec validateRecord run b.objects path).isOk = true) ∧
        ∀ record, record ∈ found ↔
          ∃ path ∈ files, itemAt codec validateRecord run b.objects path = .ok (some record)) := by
  induction files generalizing records with
  | nil => exact .inr ⟨[], by simp [forEach], by simp, by simp⟩
  | cons path files ih =>
    have hhere : b.exec (listMessage codec validateRecord run.val records path) = _ :=
      exec_listMessage records path
    cases hfound : itemAt codec validateRecord run b.objects path with
    | error err =>
      rw [hfound] at hhere
      refine .inl ⟨err, ?_, path, by simp, by rw [hfound]; rfl⟩
      rw [forEach, exec_bind_error b _ hhere]
    | ok record =>
      rw [hfound] at hhere
      rw [forEach, exec_bind_ok b _ hhere]
      rcases ih (records ++ record.toList) with ⟨err, hexec, path', hpath', hbad⟩ |
        ⟨found, hexec, hgood, hmem⟩
      · exact .inl ⟨err, hexec, path', by simp [hpath'], hbad⟩
      · refine .inr ⟨record.toList ++ found, by rw [hexec, List.append_assoc], ?_, ?_⟩
        · simp only [List.mem_cons, forall_eq_or_imp, hfound]
          exact ⟨rfl, hgood⟩
        · intro other
          simp [hmem, hfound, eq_comm]

variable (codec validateRecord run) in
def Filed (b : Bucket wire.Bytes) : Prop :=
  ∀ path ∈ b.records.filter (·.dropLast = itemDir kind run),
    (itemAt codec validateRecord run b.objects path).isOk = true

/-- The keys are those of the run that have an object. -/
def Names (run : RunKey) (objects : Objects wire) (keys : List (ItemKey kind)) : Prop :=
  ∀ k, k ∈ keys ↔ ∃ key : RecordKey kind, key.val = k ∧ key.val.run = run.val ∧
    (objects.lookup key.val.location).isSome

theorem itemDirPath_run (run : RunKey) (kind : RecordKind) :
    itemDirPath (run.val.item kind "placeholder") = .ok (itemDir kind run) :=
  itemDirPath_of_stored ⟨_, valid_placeholder run.property.1 kind, run.property.2⟩

theorem mapM_eq_ok {β : Type} {check : α → Except Err β} {records : List α}
    (h : ∀ record ∈ records, ∃ k, check record = .ok k) :
    ∃ keys, records.mapM check = .ok keys ∧ keys.length = records.length ∧
      ∀ k, k ∈ keys ↔ ∃ record ∈ records, check record = .ok k := by
  induction records with
  | nil => exact ⟨[], rfl, rfl, by simp⟩
  | cons record records ih =>
    obtain ⟨k, hk⟩ := h record (by simp)
    obtain ⟨keys, hkeys, hlength, hmem⟩ := ih fun record hrecord => h record (by simp [hrecord])
    refine ⟨k :: keys, ?_, by simp [hlength], ?_⟩
    · simp [List.mapM_cons, hk, hkeys, bind, Except.bind, pure, Except.pure]
    · intro k'
      simp [hmem, hk, eq_comm]

variable {version : α → RecordSchemaVersion} {recordKey : α → Option (ItemKey kind)}

section Checks

variable (hchecks : ∀ record expected,
  validateRecord record expected = validateItemRecord (version record) (recordKey record) expected)
include hchecks

theorem itemAt_eq_some {objects : Objects wire} {path : Path} {record : α} :
    itemAt codec validateRecord run objects path = .ok (some record) ↔
      decodeMessage codec (replyAt objects path) = .ok (some record) ∧
      ∃ key : RecordKey kind, key.val.run = run.val ∧ key.val.location = path ∧
        validateRecord record ⟨none, some run.val, none⟩ = .ok key.val := by
  rw [itemAt, checked_eq_some]
  apply and_congr_right
  intro _
  constructor
  · intro h
    obtain ⟨k, hk⟩ := h
    rw [hchecks, validateItemRecord_eq_ok] at hk
    obtain ⟨hversion, hkey, hstored, hadmits⟩ := hk
    refine ⟨⟨k, hstored⟩, (hadmits.run _ rfl).symm, (hadmits.path _ rfl).symm, ?_⟩
    rw [hchecks, validateItemRecord_eq_ok]
    exact ⟨hversion, hkey, hstored, by simp, hadmits.run, by simp⟩
  · intro h
    obtain ⟨key, hrun, hpath, hk⟩ := h
    rw [hchecks, validateItemRecord_eq_ok] at hk
    obtain ⟨hversion, hkey, hstored, hadmits⟩ := hk
    refine ⟨key.val, ?_⟩
    rw [hchecks, validateItemRecord_eq_ok]
    refine ⟨hversion, hkey, hstored, by simp, hadmits.run, ?_⟩
    intro path' hpath'
    rw [hpath]
    exact (Option.some.inj hpath').symm

omit hchecks in
theorem exists_itemAt {path : Path} (hpath : path ∈ b.records)
    (hok : (itemAt codec validateRecord run b.objects path).isOk = true) :
    ∃ record, itemAt codec validateRecord run b.objects path = .ok (some record) := by
  rcases hfound : itemAt codec validateRecord run b.objects path with err | _ | record
  · rw [hfound] at hok
    cases hok
  · have hsome := AList.lookup_isSome.2 (AList.mem_keys.2 (List.mem_of_mem_filter hpath))
    rw [lookup_of_decodeMessage_none (checked_eq_ok _ hfound).1] at hsome
    cases hsome
  · exact ⟨record, rfl⟩

theorem exec_listItems :
    (∃ err, b.exec (listItems codec validateRecord run.val) = (.error err, b) ∧
        ¬ Filed codec validateRecord run b) ∨
      (∃ records keys, b.exec (listItems codec validateRecord run.val) = (.ok records, b) ∧
        Filed codec validateRecord run b ∧ keysForRun validateRecord run.val records = .ok keys ∧
        keys.length = records.length ∧ Names run b.objects keys) := by
  obtain ⟨entries, hlist, hfiles⟩ := exec_recordFiles (b := b) (itemDir kind run)
  have hexec : b.exec (listItems codec validateRecord run.val) =
      b.exec (forEach (listMessage codec validateRecord run.val) (recordFiles (entries.getD [])) []) := by
    simp only [listItems, exec_bind, exec_liftExcept, itemDirPath_run, hlist]
    cases entries with
    | none => rfl
    | some entries => rfl
  rw [hexec]
  rcases exec_listMessages (b := b) (recordFiles (entries.getD [])) ([] : List α) with
    ⟨err, hraise, path, hpath, hbad⟩ | ⟨found, hok, hgood, hmem⟩
  · refine .inl ⟨err, hraise, ?_⟩
    intro hfiled
    rw [hfiled path (hfiles.mem_iff.1 hpath)] at hbad
    cases hbad
  · have hlookup : ∀ path ∈ recordFiles (entries.getD []), path ∈ b.records := by
      intro path hpath
      exact (List.mem_filter.1 (hfiles.mem_iff.1 hpath)).1
    have hvalid : ∀ record ∈ found, ∃ k, validateRecord record ⟨none, some run.val, none⟩ = .ok k := by
      intro record hrecord
      obtain ⟨path, -, hitem⟩ := (hmem record).1 hrecord
      obtain ⟨-, key, -, -, hkey⟩ := (itemAt_eq_some hchecks).1 hitem
      exact ⟨key.val, hkey⟩
    obtain ⟨keys, hkeys, hlength, hmemKeys⟩ := mapM_eq_ok hvalid
    refine .inr ⟨found, keys, hok, fun path hpath => hgood path (hfiles.mem_iff.2 hpath), hkeys,
      hlength, ?_⟩
    intro k
    rw [hmemKeys]
    constructor
    · intro h
      obtain ⟨record, hrecord, hk⟩ := h
      obtain ⟨path, hpath, hitem⟩ := (hmem record).1 hrecord
      obtain ⟨-, key, hrun, rfl, hkey⟩ := (itemAt_eq_some hchecks).1 hitem
      rw [hkey] at hk
      have hkeys := AList.mem_keys.2 (List.mem_of_mem_filter (hlookup _ hpath))
      exact ⟨key, Except.ok.inj hk, hrun, AList.lookup_isSome.2 hkeys⟩
    · intro h
      obtain ⟨key, rfl, hrun, hsome⟩ := h
      have hpath := hfiles.mem_iff.2 (mem_itemDir hrun hsome)
      obtain ⟨record, hitem⟩ := exists_itemAt (hlookup _ hpath) (hgood _ hpath)
      obtain ⟨-, key', -, hlocation, hkey⟩ := (itemAt_eq_some hchecks).1 hitem
      rw [ItemKey.location_injective hlocation] at hkey
      exact ⟨record, (hmem record).2 ⟨_, hpath, hitem⟩, hkey⟩

end Checks

end Items

section Deletes

variable {wire : Wire} {b b' : Bucket wire.Bytes}

def Erased (paths : List Path) (objects objects' : Objects wire) : Prop :=
  ∀ path, objects'.lookup path = if path ∈ paths then none else objects.lookup path

theorem Erased.trans {paths paths' : List Path} {objects objects' objects'' : Objects wire}
    (h : Erased paths objects objects') (h' : Erased paths' objects' objects'') :
    Erased (paths ++ paths') objects objects'' := by
  intro path
  rw [h', h]
  by_cases hmem : path ∈ paths <;> by_cases hmem' : path ∈ paths' <;> simp [hmem, hmem']

theorem exec_deleteIfExists (path : Path) : ∃ removed b',
    b.exec (deleteIfExists path) = (.ok removed, b') ∧ Erased [path] b.objects b'.objects := by
  have hruns : b.Runs (fun _ => True) (deleteIfExists path) fun r b' =>
      (∃ removed, r = .ok removed) ∧ Erased [path] b.objects b'.objects := by
    apply runs_deleteIfExists trivial
    · intro habsent
      refine ⟨⟨false, rfl⟩, fun path' => ?_⟩
      by_cases hpath : path' = path
      · subst hpath
        simpa using habsent
      · simp [hpath]
    · intro b' hb'
      refine ⟨trivial, ⟨true, rfl⟩, fun path' => ?_⟩
      rw [hb']
      by_cases hpath : path' = path
      · subst hpath
        simp
      · simp [hpath, AList.lookup_erase_ne]
  obtain ⟨⟨removed, hremoved⟩, herased⟩ := hruns.exec
  exact ⟨removed, _, Prod.ext hremoved rfl, herased⟩

theorem exec_deleteItems {kind : RecordKind} {keys : List (ItemKey kind)}
    (hkeys : ∀ k ∈ keys, k.Valid ∧ k.ns ≠ "") (deleted : Nat) : ∃ total b',
      b.exec (deleteEach deleteItem keys deleted) = (.ok total, b') ∧
        Erased (keys.map ItemKey.location) b.objects b'.objects := by
  induction keys generalizing b deleted with
  | nil => exact ⟨deleted, b, rfl, by simp [Erased]⟩
  | cons key keys ih =>
    have hpath : itemPath key = .ok key.location := itemPath_of_stored ⟨key, hkeys key (by simp)⟩
    obtain ⟨removed, b₁, hexec, herased⟩ := exec_deleteIfExists (b := b) key.location
    have hdelete : b.exec (deleteItem key) = (.ok removed, b₁) := by
      simp [deleteItem, exec_bind, hpath, hexec]
    obtain ⟨total, b₂, hrest, herased'⟩ :=
      ih (b := b₁) (fun k hk => hkeys k (by simp [hk])) (if removed then deleted + 1 else deleted)
    refine ⟨total, b₂, ?_, herased.trans herased'⟩
    rw [deleteEach, exec_bind_ok b _ hdelete]
    exact hrest

/-- A timer that was deleted: its point is gone and its ledger entry is a tombstone. -/
structure Removed (key : RecordKey .timer) (objects : Objects wire) : Prop where
  point : objects.lookup key.val.location = none
  ledger : ∃ entry, ledgerAt objects key = .ok (some entry) ∧ (entryRecord entry).status = .canceled

structure Removals (keys : List (RecordKey .timer)) (objects objects' : Objects wire) : Prop where
  others : ∀ path, (∀ key ∈ keys, path ≠ key.val.dueLocation ∧ path ≠ key.val.location) →
    objects'.lookup path = objects.lookup path
  each : ∀ key ∈ keys, Removed key objects'

variable {key : RecordKey .timer}

theorem exec_deleteTimer_error {err : Err} (h : ledgerAt b.objects key = .error err) :
    b.exec (deleteTimer wire key.val) = (.error err, b) := by
  simp only [deleteTimer, exec_bind, exec_liftExcept, validateTimerKey_of_stored, timerPath_of_stored,
    exec_isExist, exec_usableCanonical_at, exec_readDueEntry_at, h]

theorem pointOf_none {objects : Objects wire} (h : objects.lookup key.val.location = none) :
    pointOf objects key = none := by
  rw [pointOf, pointAt_none h]
  rfl

theorem exec_deleteTimer_listed {entry : Option DueTimerEntry}
    (h : ledgerAt b.objects key = .ok entry) (htimer : (timerAt b.objects key).isSome) :
    ∃ removed b', b.exec (deleteTimer wire key.val) = (.ok removed, b') ∧
      Removals [key] b.objects b'.objects := by
  have hread : b.exec (readDueEntry wire key.val) = (.ok entry, b) := by
    rw [exec_readDueEntry_at, h]
  have hsource : Carries (tombstoneSource key.val (pointOf b.objects key) entry) key :=
    carries_tombstoneSource (fun _ hrecord => carries_of_pointAt (pointOf_eq_some.1 hrecord)) h
  have hledger : ledgerOf b.objects key = entry.map entryRecord := by
    simp [ledgerOf, h, Except.toOption]
  -- the tombstone is in the ledger and the point is gone
  have hremoved : ∀ objects : Objects wire,
      (∀ path, path ≠ key.val.location → objects.lookup path = (prepare b.objects key
        (tombstone (tombstoneSource key.val (pointOf b.objects key) entry))).lookup path) →
      objects.lookup key.val.location = none → Removals [key] b.objects objects := by
    intro objects hothers hpoint
    have hentry : objects.lookup key.val.dueLocation = some (wire.due.marshal (dueEntry
        (tombstone (tombstoneSource key.val (pointOf b.objects key) entry)) key.val.run)) := by
      have hne : key.val.dueLocation ≠ key.val.location :=
        Address.path_ne (show Address.due key ≠ .item .timer key by simp)
      rw [hothers _ hne]
      exact AList.lookup_insert _
    constructor
    · intro path hpath
      obtain ⟨hdue, hlocation⟩ := hpath key (by simp)
      rw [hothers path hlocation]
      exact AList.lookup_insert_ne hdue
    · intro key' hkey'
      obtain rfl := List.mem_singleton.1 hkey'
      exact ⟨hpoint, _, ledgerAt_some hsource.tombstone validateEntryStatus_tombstone hentry, rfl⟩
  have hruns : b.Runs (fun _ => True) (deleteTimer wire key.val) fun r b' =>
      (∃ removed, r = .ok removed) ∧ Removals [key] b.objects b'.objects := by
    apply runs_deleteTimer (exec_usableCanonical_at key) hread
    · intro _
      exact hsource
    · intro _ _
      trivial
    · intro hnone hlive
      rw [timerAt, hledger, pointOf_none hnone, resolve_none, hlive] at htimer
      cases htimer
    · intro _ b' hb'
      refine ⟨trivial, fun hnone r => ⟨⟨r, rfl⟩, hremoved _ (fun path _ => by rw [hb']) ?_⟩⟩
      rw [hb', ← hnone]
      exact lookup_insert_address (a := .item .timer key) (by simp) _
    · intro _ b' hb'
      refine ⟨trivial, fun r => ⟨⟨r, rfl⟩, hremoved _ (fun path hpath => ?_) ?_⟩⟩
      · rw [hb']
        exact AList.lookup_erase_ne hpath
      · rw [hb']
        exact AList.lookup_erase _ _
  obtain ⟨⟨removed, hok⟩, hremovals⟩ := hruns.exec
  exact ⟨removed, _, Prod.ext hok rfl, hremovals⟩

section Removals

variable {keys : List (RecordKey .timer)} {objects objects' objects'' : Objects wire}

section

variable (h : Removals keys objects objects')

include h

theorem Removals.lookup_address {a : Address}
    (ha : ∀ key ∈ keys, a ≠ .due key ∧ a ≠ .item .timer key) :
    objects'.lookup a.path = objects.lookup a.path :=
  h.others _ fun key hkey => ⟨Address.path_ne (ha key hkey).1, Address.path_ne (ha key hkey).2⟩

theorem Removals.lookup_due (hkey : key ∉ keys) :
    objects'.lookup key.val.dueLocation = objects.lookup key.val.dueLocation := by
  apply h.lookup_address (a := .due key)
  intro key' hkey'
  have hne : key ≠ key' := fun heq => hkey (heq ▸ hkey')
  simpa using hne

theorem Removals.lookup_point (hkey : key ∉ keys) :
    objects'.lookup key.val.location = objects.lookup key.val.location := by
  apply h.lookup_address (a := .item .timer key)
  intro key' hkey'
  have hne : key ≠ key' := fun heq => hkey (heq ▸ hkey')
  simpa using hne

theorem Removals.ledgerAt (hkey : key ∉ keys) :
    ledgerAt objects' key = Python.ledgerAt objects key := ledgerAt_of_lookup (h.lookup_due hkey)

theorem Removals.pointAt (hkey : key ∉ keys) :
    pointAt objects' key = Python.pointAt objects key := pointAt_of_lookup (h.lookup_point hkey)

theorem Removals.timerAt (hkey : key ∉ keys) :
    timerAt objects' key = Python.timerAt objects key := by
  rw [Python.timerAt, ledgerOf, pointOf, h.ledgerAt hkey, h.pointAt hkey]
  rfl

end

theorem removals_nil (objects : Objects wire) : Removals [] objects objects :=
  ⟨fun _ _ => rfl, by simp⟩

theorem Removals.cons (h : Removals [key] objects objects') (h' : Removals keys objects' objects'')
    (hkey : key ∉ keys) : Removals (key :: keys) objects objects'' := by
  constructor
  · intro path hpath
    rw [h'.others path fun key' hkey' => hpath key' (by simp [hkey']),
      h.others path fun key' hkey' => hpath key' (by simp [List.mem_singleton.1 hkey'])]
  · intro key' hkey'
    rcases List.mem_cons.1 hkey' with rfl | hmem
    · obtain ⟨hpoint, hledger⟩ := h.each key' (by simp)
      refine ⟨?_, ?_⟩
      · rw [h'.lookup_point hkey, hpoint]
      · rw [h'.ledgerAt hkey]
        exact hledger
    · exact h'.each key' hmem

end Removals

theorem exec_deleteTimers {keys : List (RecordKey .timer)} (hnodup : keys.Nodup)
    (hlisted : ∀ key ∈ keys, (timerAt b.objects key).isSome) (deleted : Nat) :
    (∃ total b', b.exec (deleteEach (deleteTimer wire) (keys.map Subtype.val) deleted) =
        (.ok total, b') ∧
        (∀ key ∈ keys, ∃ entry, ledgerAt b.objects key = .ok entry) ∧
        Removals keys b.objects b'.objects) ∨
      ∃ err b' before key after, keys = before ++ key :: after ∧
        b.exec (deleteEach (deleteTimer wire) (keys.map Subtype.val) deleted) = (.error err, b') ∧
        (∀ key ∈ before, ∃ entry, ledgerAt b.objects key = .ok entry) ∧
        ledgerAt b.objects key = .error err ∧ Removals before b.objects b'.objects := by
  induction keys generalizing b deleted with
  | nil => exact .inl ⟨deleted, b, rfl, by simp, removals_nil _⟩
  | cons key keys ih =>
    obtain ⟨hkey, hrest⟩ := List.nodup_cons.1 hnodup
    rw [List.map_cons, deleteEach]
    rcases hledger : ledgerAt b.objects key with err | entry
    · refine .inr ⟨err, b, [], key, keys, rfl, ?_, by simp, hledger, removals_nil _⟩
      rw [exec_bind_error b _ (exec_deleteTimer_error hledger)]
    · obtain ⟨removed, b₁, hdelete, hremovals⟩ :=
        exec_deleteTimer_listed hledger (hlisted key (by simp))
      have hother : ∀ key' ∈ keys, key' ∉ [key] := by
        intro key' hkey' heq
        rw [List.mem_singleton.1 heq] at hkey'
        exact hkey hkey'
      rw [exec_bind_ok b _ hdelete]
      rcases ih (b := b₁) hrest (fun key' hkey' => by
          rw [hremovals.timerAt (hother key' hkey')]
          exact hlisted key' (by simp [hkey'])) (if removed then deleted + 1 else deleted) with
        ⟨total, b₂, hexec, hread, hremovals'⟩ |
        ⟨err, b₂, before, key', after, hsplit, hexec, hread, herror, hremovals'⟩
      · refine .inl ⟨total, b₂, hexec, ?_, hremovals.cons hremovals' hkey⟩
        intro key' hkey'
        rcases List.mem_cons.1 hkey' with rfl | hmem
        · exact ⟨entry, hledger⟩
        · rw [← hremovals.ledgerAt (hother key' hmem)]
          exact hread key' hmem
      · refine .inr ⟨err, b₂, key :: before, key', after, by rw [hsplit]; rfl, hexec, ?_, ?_, ?_⟩
        · intro key₀ hkey₀
          rcases List.mem_cons.1 hkey₀ with rfl | hmem
          · exact ⟨entry, hledger⟩
          · rw [← hremovals.ledgerAt (hother key₀ (by simp [hsplit, hmem]))]
            exact hread key₀ hmem
        · rw [← hremovals.ledgerAt (hother key' (by simp [hsplit]))]
          exact herror
        · exact hremovals.cons hremovals' fun hmem => hkey (by simp [hsplit, hmem])

end Deletes

section Plan

variable {wire : RecordWire} {b b' : Bucket wire.Bytes} {run : RunKey}

variable (wire run) in
structure Plannable (b : Bucket wire.Bytes) : Prop where
  claims : Filed wire.claim validateClaimRecord run b
  activities : Filed wire.activity validateActivityRecord run b
  timers : ∀ path ∈ b.records.filter (·.dropLast = timerDir run), Covered run b.objects path
  events : Filed wire.event validateEventRecord run b

variable (run) in
/-- The plan names what is stored for the run, and the timers in the order of their ids. -/
structure Plans (objects : Objects wire.toWire) (plan : DeletionPlan)
    (timers : List (RecordKey .timer)) : Prop where
  claims : Names run objects plan.claimKeys
  activities : Names run objects plan.activityKeys
  events : Names run objects plan.eventKeys
  timerKeys : plan.timerKeys = timers.map Subtype.val
  sorted : timers.Pairwise (·.val.id < ·.val.id)
  timers : ∀ key, key ∈ timers ↔ key.val.run = run.val ∧ (timerAt objects key).isSome

theorem timerKeysForRun_eq_ok {timers : Records}
    (h : ∀ entry ∈ timers, ∃ key : RecordKey .timer, key.val = entry.1 ∧ key.val.run = run.val ∧
      Carries entry.2 key) :
    timerKeysForRun run.val (timers.map Prod.snd) .unspecified = .ok (timers.map Prod.fst) := by
  induction timers with
  | nil => rfl
  | cons entry timers ih =>
    obtain ⟨key, hkey, hrun, hcarries⟩ := h entry (by simp)
    have hvalid := hcarries.validateTimerRecord ⟨none, some run.val, none⟩ (by simp)
      (by simp [hrun]) (by simp)
    have hrest := ih fun entry hentry => h entry (by simp [hentry])
    rw [timerKeysForRun] at hrest ⊢
    rw [List.map_cons, List.mapM_cons, hrest, hvalid, hkey]
    rfl

theorem Copies.lookup_item (h : Copies b b') {kind : RecordKind} {path : Path}
    (hpath : path.dropLast = itemDir kind run) : b'.objects.lookup path = b.objects.lookup path := by
  apply h.lookup
  apply dropLast_ne_of_length
  rw [hpath]
  exact (show 4 < (itemDir kind run).length by simp [itemDir, runDir, storageRoot])

theorem Copies.names (h : Copies b b') {kind : RecordKind} {keys : List (ItemKey kind)}
    (hnames : Names run b'.objects keys) : Names run b.objects keys := by
  intro k
  rw [hnames]
  apply exists_congr
  intro key
  apply and_congr_right
  intro _
  apply and_congr_right
  intro hrun
  rw [h.lookup_item (dropLast_location hrun)]

theorem Copies.filed (h : Copies b b') {α : Type} {kind : RecordKind} {codec : Codec wire.Bytes α}
    {validateRecord : α → Expectation (ItemKey kind) → Except Err (ItemKey kind)} :
    Filed codec validateRecord run b' ↔ Filed codec validateRecord run b := by
  have haway : AwayFromCopies (itemDir kind run) := by
    apply awayFromCopies_of_length
    simp [itemDir, runDir, storageRoot]
  have hfiles : b'.records.filter (·.dropLast = itemDir kind run) =
      b.records.filter (·.dropLast = itemDir kind run) := by
    rw [← recordFiles_entries, ← recordFiles_entries, (h.lists _ haway).entries]
  rw [Filed, Filed, hfiles]
  apply forall₂_congr
  intro path hpath
  have hdir : path.dropLast = itemDir kind run := by simpa using (List.mem_filter.1 hpath).2
  rw [itemAt, itemAt, Python.replyAt, Python.replyAt, h.lookup_item hdir]

variable (run) in
theorem exec_listClaims :
    (∃ err, b.exec (listClaims wire run.val) = (.error err, b) ∧
        ¬ Filed wire.claim validateClaimRecord run b) ∨
      (∃ records keys, b.exec (listClaims wire run.val) = (.ok records, b) ∧
        Filed wire.claim validateClaimRecord run b ∧ claimKeysForRun run.val records = .ok keys ∧
        keys.length = records.length ∧ Names run b.objects keys) :=
  exec_listItems fun _ _ => rfl

variable (run) in
theorem exec_listActivities :
    (∃ err, b.exec (listActivities wire run.val) = (.error err, b) ∧
        ¬ Filed wire.activity validateActivityRecord run b) ∨
      (∃ records keys, b.exec (listActivities wire run.val) = (.ok records, b) ∧
        Filed wire.activity validateActivityRecord run b ∧
        activityKeysForRun run.val records = .ok keys ∧
        keys.length = records.length ∧ Names run b.objects keys) :=
  exec_listItems fun _ _ => rfl

variable (run) in
theorem exec_listEvents :
    (∃ err, b.exec (listEvents wire.toWire run.val) = (.error err, b) ∧
        ¬ Filed wire.event validateEventRecord run b) ∨
      (∃ records keys, b.exec (listEvents wire.toWire run.val) = (.ok records, b) ∧
        Filed wire.event validateEventRecord run b ∧ eventKeysForRun run.val records = .ok keys ∧
        keys.length = records.length ∧ Names run b.objects keys) :=
  exec_listItems fun _ _ => rfl

theorem exists_planned {timers : Records}
    (hsorted : timers.Pairwise fun left right => keyOrder left.1 < keyOrder right.1)
    (hmem : ∀ k record, (k, record) ∈ timers ↔ ∃ key : RecordKey .timer, key.val = k ∧
      key.val.run = run.val ∧ timerAt b.objects key = some record) :
    timerKeysForRun run.val (timers.map Prod.snd) .unspecified = .ok (timers.map Prod.fst) ∧
      ∃ keys : List (RecordKey .timer), timers.map Prod.fst = keys.map Subtype.val ∧
        keys.Pairwise (·.val.id < ·.val.id) ∧
        ∀ key, key ∈ keys ↔ key.val.run = run.val ∧ (timerAt b.objects key).isSome := by
  have hstored : ∀ entry ∈ timers, (entry.1.Valid ∧ entry.1.ns ≠ "") ∧ entry.1.run = run.val := by
    intro entry hentry
    obtain ⟨key, hkey, hrun, -⟩ := (hmem entry.1 entry.2).1 hentry
    rw [← hkey]
    exact ⟨key.property, hrun⟩
  constructor
  · apply timerKeysForRun_eq_ok
    intro entry hentry
    obtain ⟨key, hkey, hrun, htimer⟩ := (hmem entry.1 entry.2).1 hentry
    exact ⟨key, hkey, hrun, carries_of_resolve htimer⟩
  · refine ⟨timers.pmap (fun entry h => ⟨entry.1, h.1⟩) hstored, ?_, ?_, ?_⟩
    · rw [List.map_pmap, List.pmap_eq_map]
    · apply hsorted.pmap hstored
      intro left hleft right hright hlt
      exact id_lt_of_keyOrder (hleft.2.trans hright.2.symm) hlt
    · intro key
      rw [List.mem_pmap]
      constructor
      · intro h
        obtain ⟨entry, hentry, rfl⟩ := h
        obtain ⟨key, hkey, hrun, htimer⟩ := (hmem entry.1 entry.2).1 hentry
        obtain rfl : key = ⟨entry.1, (hstored entry hentry).1⟩ := Subtype.ext hkey
        rw [htimer]
        exact ⟨hrun, rfl⟩
      · intro h
        obtain ⟨record, htimer⟩ := Option.isSome_iff_exists.1 h.2
        exact ⟨(key.val, record), (hmem _ _).2 ⟨key, rfl, h.1, htimer⟩, rfl⟩

theorem exec_planDeletion {fuel : Nat} (hfuel : b.walkFuel ≤ fuel) :
    ∃ b', Copies b b' ∧
      ((∃ err, b.exec (planDeletion wire fuel run.val) = (.error err, b') ∧ ¬ Plannable wire run b) ∨
        ∃ plan timers, b.exec (planDeletion wire fuel run.val) = (.ok plan, b') ∧
          Plannable wire run b ∧ Plans run b.objects plan timers) := by
  rcases exec_listClaims (b := b) run with
    ⟨err, hclaims, hbad⟩ | ⟨claims, claimKeys, hclaims, hfiledClaims, hclaimKeys, -, hclaimNames⟩
  · refine ⟨b, .refl b, .inl ⟨err, ?_, fun h => hbad h.claims⟩⟩
    rw [planDeletion, exec_bind_error b _ hclaims]
  rcases exec_listActivities (b := b) run with ⟨err, hactivities, hbad⟩ |
    ⟨activities, activityKeys, hactivities, hfiledActivities, hactivityKeys, -, hactivityNames⟩
  · refine ⟨b, .refl b, .inl ⟨err, ?_, fun h => hbad h.activities⟩⟩
    rw [planDeletion, exec_bind_ok b _ hclaims, exec_bind_error b _ hactivities]
  obtain ⟨b', hcopies, ⟨err, htimers, path, hpath, hbad⟩ |
    ⟨timers, htimers, hsorted, hmem, hcovered⟩⟩ := exec_listTimers (b := b) run hfuel
  · refine ⟨b', hcopies, .inl ⟨err, ?_, fun h => hbad (h.timers path hpath)⟩⟩
    rw [planDeletion, exec_bind_ok b _ hclaims, exec_bind_ok b _ hactivities,
      exec_bind_error b _ htimers]
  rcases exec_listEvents (b := b') run with ⟨err, hevents, hbad⟩ |
    ⟨events, eventKeys, hevents, hfiledEvents, heventKeys, -, heventNames⟩
  · refine ⟨b', hcopies, .inl ⟨err, ?_, fun h => hbad (hcopies.filed.2 h.events)⟩⟩
    rw [planDeletion, exec_bind_ok b _ hclaims, exec_bind_ok b _ hactivities,
      exec_bind_ok b _ htimers, exec_bind_error b' _ hevents]
  · obtain ⟨htimerKeys, keys, hkeys, hordered, hplanned⟩ := exists_planned hsorted hmem
    refine ⟨b', hcopies, .inr ⟨⟨claimKeys, activityKeys, timers.map Prod.fst, eventKeys⟩, keys, ?_,
      ⟨hfiledClaims, hfiledActivities, hcovered, hcopies.filed.1 hfiledEvents⟩,
      ⟨hclaimNames, hactivityNames, hcopies.names heventNames, hkeys, hordered, hplanned⟩⟩⟩
    rw [planDeletion, exec_bind_ok b _ hclaims, exec_bind_ok b _ hactivities,
      exec_bind_ok b _ htimers, exec_bind_ok b' _ hevents]
    simp only [exec_bind, exec_liftExcept, hclaimKeys, hactivityKeys, htimerKeys, heventKeys, exec_pure]

end Plan

section CarryOut

variable {wire : RecordWire} {b b' : Bucket wire.Bytes} {run : RunKey} {plan : DeletionPlan}
variable {timers : List (RecordKey .timer)}

def itemPaths {kind : RecordKind} (keys : List (ItemKey kind)) : List Path := keys.map ItemKey.location

theorem Names.stored {kind : RecordKind} {objects : Objects wire.toWire} {keys : List (ItemKey kind)}
    (h : Names run objects keys) : ∀ k ∈ keys, k.Valid ∧ k.ns ≠ "" := by
  intro k hk
  obtain ⟨key, rfl, -⟩ := (h k).1 hk
  exact key.property

theorem Erased.lookup_address {kind kind' : RecordKind} {objects objects' : Objects wire.toWire}
    {keys : List (ItemKey kind)} {keys' : List (ItemKey kind')}
    (h : Erased (itemPaths keys ++ itemPaths keys') objects objects')
    (hstored : ∀ k ∈ keys, k.Valid ∧ k.ns ≠ "") (hstored' : ∀ k ∈ keys', k.Valid ∧ k.ns ≠ "")
    {a : Address} (ha : ∀ key, a ≠ .item kind key) (ha' : ∀ key, a ≠ .item kind' key) :
    objects'.lookup a.path = objects.lookup a.path := by
  rw [h]
  apply if_neg
  intro hmem
  rcases List.mem_append.1 hmem with hmem | hmem
  · obtain ⟨k, hk, hpath⟩ := List.mem_map.1 hmem
    exact ha ⟨k, hstored k hk⟩ (Address.path_injective hpath.symm)
  · obtain ⟨k, hk, hpath⟩ := List.mem_map.1 hmem
    exact ha' ⟨k, hstored' k hk⟩ (Address.path_injective hpath.symm)

theorem exec_deletePlanned (hcopies : Copies b b') (hplans : Plans run b.objects plan timers) :
    ∃ objects, Erased (itemPaths plan.claimKeys ++ itemPaths plan.activityKeys) b'.objects objects ∧
      ((∃ total b'' left, b'.exec (deletePlanned wire run.val plan) = (.ok total, b'') ∧
          (∀ key ∈ timers, ∃ entry, ledgerAt b.objects key = .ok entry) ∧
          Removals timers objects left ∧
          Erased (itemPaths plan.eventKeys ++ [run.val.location]) left b''.objects) ∨
        ∃ err b'' before key after, timers = before ++ key :: after ∧
          b'.exec (deletePlanned wire run.val plan) = (.error err, b'') ∧
          (∀ key ∈ before, ∃ entry, ledgerAt b.objects key = .ok entry) ∧
          ledgerAt b.objects key = .error err ∧ Removals before objects b''.objects) := by
  obtain ⟨claimed, b₁, hclaims, herasedClaims⟩ : ∃ total b₁,
      b'.exec (deleteEach (deleteClaim wire) plan.claimKeys 0) = (.ok total, b₁) ∧
        Erased (itemPaths plan.claimKeys) b'.objects b₁.objects :=
    exec_deleteItems hplans.claims.stored 0
  obtain ⟨worked, b₂, hactivities, herasedActivities⟩ : ∃ total b₂,
      b₁.exec (deleteEach (deleteActivity wire) plan.activityKeys claimed) = (.ok total, b₂) ∧
        Erased (itemPaths plan.activityKeys) b₁.objects b₂.objects :=
    exec_deleteItems hplans.activities.stored claimed
  have herased := herasedClaims.trans herasedActivities
  refine ⟨b₂.objects, herased, ?_⟩
  have hledger : ∀ key : RecordKey .timer, ledgerAt b₂.objects key = ledgerAt b.objects key := by
    intro key
    apply ledgerAt_of_lookup
    have hhere : b₂.objects.lookup key.val.dueLocation = b'.objects.lookup key.val.dueLocation :=
      herased.lookup_address hplans.claims.stored hplans.activities.stored (a := .due key) (by simp)
        (by simp)
    rw [hhere]
    exact hcopies.lookup _ (dropLast_ne_of_length (show 4 < 6 by decide))
  have hpoint : ∀ key : RecordKey .timer, pointAt b₂.objects key = pointAt b.objects key := by
    intro key
    apply pointAt_of_lookup
    have hhere : b₂.objects.lookup key.val.location = b'.objects.lookup key.val.location :=
      herased.lookup_address hplans.claims.stored hplans.activities.stored (a := .item .timer key)
        (by simp) (by simp)
    rw [hhere]
    exact hcopies.lookup _ (dropLast_ne_of_length (show 4 < 6 by decide))
  have htimer : ∀ key ∈ timers, (timerAt b₂.objects key).isSome := by
    intro key hkey
    have hlisted := ((hplans.timers key).1 hkey).2
    rw [timerAt, ledgerOf, pointOf] at hlisted ⊢
    rwa [hledger, hpoint]
  have hnodup : timers.Nodup := by
    apply hplans.sorted.imp
    intro left right hlt heq
    rw [heq] at hlt
    exact lt_irrefl _ hlt
  have hstart : b'.exec (deletePlanned wire run.val plan) =
      b₂.exec (deleteEach (deleteTimer wire.toWire) plan.timerKeys worked >>= fun deleted =>
        deleteEach (deleteEvent wire) plan.eventKeys deleted >>= fun deleted =>
          deleteWorkflow wire run.val >>= fun removed =>
            pure (if removed then deleted + 1 else deleted)) := by
    rw [deletePlanned, exec_bind_ok b' _ hclaims, exec_bind_ok b₁ _ hactivities]
  rw [hstart, hplans.timerKeys]
  rcases exec_deleteTimers hnodup htimer worked with ⟨total, b₃, htimers, hread, hremovals⟩ |
    ⟨err, b₃, before, key, after, hsplit, htimers, hread, herror, hremovals⟩
  · obtain ⟨total', b₄, hevents, herasedEvents⟩ : ∃ total' b₄,
        b₃.exec (deleteEach (deleteEvent wire) plan.eventKeys total) = (.ok total', b₄) ∧
          Erased (itemPaths plan.eventKeys) b₃.objects b₄.objects :=
      exec_deleteItems hplans.events.stored total
    obtain ⟨removed, b₅, hdelete, herasedWorkflow⟩ := exec_deleteIfExists (b := b₄) run.val.location
    have hworkflow : b₄.exec (deleteWorkflow wire run.val) = (.ok removed, b₅) := by
      simp [deleteWorkflow, exec_bind, workflowPath_of_stored, hdelete]
    refine .inl ⟨if removed then total' + 1 else total', b₅, b₃.objects, ?_, ?_, hremovals,
      herasedEvents.trans herasedWorkflow⟩
    · rw [exec_bind_ok b₂ _ htimers, exec_bind_ok b₃ _ hevents, exec_bind_ok b₄ _ hworkflow]
      rfl
    · intro key hkey
      rw [← hledger]
      exact hread key hkey
  · refine .inr ⟨err, b₃, before, key, after, hsplit, ?_, ?_, by rw [← hledger]; exact herror, hremovals⟩
    · rw [exec_bind_error b₂ _ htimers]
    · intro key hkey
      rw [← hledger]
      exact hread key hkey

end CarryOut

end Temporaless.Python
