import Temporaless.Storage.Reached
import Temporaless.Storage.Store
import Temporaless.Storage.TimerList

/-!
# The OpenDAL store refines its finite maps

Each method of the OpenDAL store answers like the finite maps of records do, and leaves a bucket
that stands for the maps after the call. A timer is what its ledger object says; every other
record is the object at its path.
-/

namespace Temporaless

variable {k : StoreKind} {a : Address} {run : WorkflowKey}

theorem Timestamp.inRange_of_checkValid {t : Timestamp} (h : t.checkValid = true) :
    Timestamp.InRange t.asTime := by
  simp only [checkValid, decide_eq_true_eq] at h
  simp only [InRange, asTime, zeroTime, nanosPerSecond]
  omega

def Wire.codec (wire : Wire) : (k : StoreKind) → Codec wire.Bytes k.Record
  | .activity => wire.activity
  | .timer => wire.timer
  | .event => wire.event

namespace OpenDALStore

open PathTree Effects

variable (wire : Wire)

/-- The store's code for each call. -/
def callCode (fuel : Nat) : (op : StoreOp) → BucketM wire.Bytes op.Answer
  | .getWorkflow key => getWorkflow wire key
  | .putWorkflow record => putWorkflow wire record
  | .deleteWorkflow key => deleteWorkflow wire key
  | .get .activity key => getActivity wire key
  | .get .timer key => getTimer wire key
  | .get .event key => getEvent wire key
  | .put .activity record => putActivity wire record
  | .put .timer record => putTimer wire record
  | .put .event record => putEvent wire record
  | .list .activity run _ => listActivities wire fuel run
  | .list .timer run status => listTimers wire fuel run status
  | .list .event run _ => listEvents wire fuel run
  | .delete .activity key => deleteActivity wire key
  | .delete .timer key => deleteTimer wire key
  | .delete .event key => deleteEvent wire key

def itemRecord (objects : Objects wire) : (k : StoreKind) → RecordKey k.kind → Option k.Record
  | .activity, key => storedRecord wire.activity objects key.val.location
  | .timer, key => timerState wire objects key
  | .event, key => storedRecord wire.event objects key.val.location

def itemAddress : (k : StoreKind) → RecordKey k.kind → Address
  | .activity, key => .item .activity key
  | .timer, key => .due key
  | .event, key => .item .event key

/-- A tidy bucket whose latest-run pointers are valid too, with a clock in range. -/
structure Intact (b : Bucket wire.Bytes) : Prop where
  tidy : Tidy wire b.objects
  pointers : ∀ ns workflowID data, b.objects.lookup (Address.latest ns workflowID).path = some data →
    ∃ pointer, data = wire.latest.marshal pointer ∧
      validateLatestWorkflowRunPointer pointer ns workflowID = .ok ()
  clock : Timestamp.InRange b.time

/-- The bucket stands for the maps: a record that is absent is left behind where an object
still stands at its own path. -/
structure Holds (b : Bucket wire.Bytes) (s : Records) : Prop where
  intact : Intact wire b
  workflow : ∀ key : RunKey, s.workflow key.val = workflowRecord wire b.objects key
  item : ∀ (k : StoreKind) (key : RecordKey k.kind), s.item k key.val = itemRecord wire b.objects k key
  leftover : ∀ (k : StoreKind) (key : RecordKey k.kind), s.item k key.val = none →
    s.leftover k key.val = (b.objects.lookup (Address.item k.kind key).path).isSome

variable {wire} {b b' : Bucket wire.Bytes} {s : Records}
  {objects : Objects wire} {key : RecordKey k.kind}

theorem itemRecord_eq (hk : k ≠ .timer) (key : RecordKey k.kind) : itemRecord wire objects k key =
      storedRecord (wire.codec k) objects key.val.location := by
  cases k with
  | timer => exact absurd rfl hk
  | activity | event => rfl

theorem wellStored_item {data : wire.Bytes} :
    WellStored wire (.item k.kind key) data ↔
      ∃ record, data = (wire.codec k).marshal record ∧ k.validate record key.val = .ok () := by
  cases k with
  | activity | timer | event => exact Iff.rfl

theorem exec_time {α : Type} (code : BucketM wire.Bytes α) : (b.exec code).2.time = b.time := by
  have hstep : ∀ (op : BucketOp wire.Bytes) (b : Bucket wire.Bytes), (b.step op).2.time = b.time := by
    intro op b
    cases op <;> simp only [Bucket.step] <;> first | rfl | (split <;> rfl)
  change (Program.exec Bucket.step code.run b).2.time = b.time
  generalize code.run = p
  induction p generalizing b with
  | done a => rfl
  | call op next ih => rw [Program.exec_call, ih, hstep op b]

theorem itemRecord_congr {objects' : Objects wire}
    (h : objects'.lookup (itemAddress k key).path = objects.lookup (itemAddress k key).path) :
    itemRecord wire objects' k key = itemRecord wire objects k key := by
  cases k with
  | activity => exact congrArg (Option.bind · _) h
  | event => exact congrArg (Option.bind · _) h
  | timer =>
    have hstored : storedRecord wire.due objects' key.val.dueLocation =
        storedRecord wire.due objects key.val.dueLocation := congrArg (Option.bind · _) h
    rw [itemRecord, itemRecord, timerState, timerState, ledgerRecord, ledgerRecord, hstored]

theorem itemRecord_insert (h : itemAddress k key ≠ a) (data : wire.Bytes) :
    itemRecord wire (objects.insert a.path data) k key = itemRecord wire objects k key :=
  itemRecord_congr (lookup_insert_address h data)

theorem itemRecord_erase (h : itemAddress k key ≠ a) :
    itemRecord wire (objects.erase a.path) k key = itemRecord wire objects k key :=
  itemRecord_congr (lookup_erase_address h)

theorem workflowRecord_insert {key : RunKey} (h : Address.workflow key ≠ a) (data : wire.Bytes) :
    workflowRecord wire (objects.insert a.path data) key = workflowRecord wire objects key :=
  storedRecord_insert_ne wire.workflow h data

theorem workflowRecord_erase {key : RunKey} (h : Address.workflow key ≠ a) :
    workflowRecord wire (objects.erase a.path) key = workflowRecord wire objects key :=
  storedRecord_erase_ne wire.workflow h

theorem itemAddress_ne_workflow (k : StoreKind) (key : RecordKey k.kind) (run : RunKey) :
    itemAddress k key ≠ .workflow run := by
  cases k <;> simp [itemAddress]

theorem itemAddress_ne_latest (k : StoreKind) (key : RecordKey k.kind) (ns workflowID : String) :
    itemAddress k key ≠ .latest ns workflowID := by
  cases k <;> simp [itemAddress]

theorem itemAddress_inj {k' : StoreKind} {key' : RecordKey k'.kind}
    (h : itemAddress k key = itemAddress k' key') : k = k' ∧ HEq key key' := by
  cases k <;> cases k' <;> simp_all [itemAddress]

theorem Intact.insert (h : Intact wire b) {data : wire.Bytes}
    (ha : ∀ ns workflowID, a ≠ .latest ns workflowID)
    (htidy : Tidy wire (b.objects.insert a.path data))
    (hobjects : b'.objects = b.objects.insert a.path data) (htime : b'.time = b.time) :
    Intact wire b' := by
  refine ⟨by rwa [hobjects], ?_, by rw [htime]; exact h.clock⟩
  intro ns workflowID data' hlookup
  rw [hobjects, lookup_insert_address (ha ns workflowID).symm] at hlookup
  exact h.pointers ns workflowID data' hlookup

theorem Intact.erase (h : Intact wire b)
    (ha : ∀ ns workflowID, a ≠ .latest ns workflowID) (htidy : Tidy wire (b.objects.erase a.path))
    (hobjects : b'.objects = b.objects.erase a.path) (htime : b'.time = b.time) :
    Intact wire b' := by
  refine ⟨by rwa [hobjects], ?_, by rw [htime]; exact h.clock⟩
  intro ns workflowID data' hlookup
  rw [hobjects, lookup_erase_address (ha ns workflowID).symm] at hlookup
  exact h.pointers ns workflowID data' hlookup

theorem Holds.of_objects (h : Holds wire b s) (hobjects : b'.objects = b.objects)
    (htime : b'.time = b.time) : Holds wire b' s := by
  refine ⟨⟨?_, ?_, ?_⟩, ?_, ?_, ?_⟩
  · rw [hobjects]
    exact h.intact.tidy
  · rw [hobjects]
    exact h.intact.pointers
  · rw [htime]
    exact h.intact.clock
  · rw [hobjects]
    exact h.workflow
  · rw [hobjects]
    exact h.item
  · rw [hobjects]
    exact h.leftover

theorem Holds.item_stored (h : Holds wire b s) (k : StoreKind) {key : ItemKey k.kind}
    (hkey : key.Valid) : s.item k key = itemRecord wire b.objects k (key.stored hkey) := by
  rw [← Records.item_withDefaults]
  exact h.item k (key.stored hkey)

theorem Holds.isSome_or_leftover (h : Holds wire b s) (k : StoreKind) {key : ItemKey k.kind}
    (hkey : key.Valid) : ((s.item k key).isSome || s.leftover k key.withDefaults) =
      ((itemRecord wire b.objects k (key.stored hkey)).isSome ||
        (b.objects.lookup (Address.item k.kind (key.stored hkey)).path).isSome) := by
  rw [← h.item_stored k hkey]
  rcases hitem : s.item k key with _ | record
  · rw [← Records.item_withDefaults] at hitem
    rw [← h.leftover k (key.stored hkey) hitem]
    rfl
  · rfl

theorem Holds.workflow_stored (h : Holds wire b s) {key : WorkflowKey} (hkey : key.Valid) :
    s.workflow key = workflowRecord wire b.objects (key.stored hkey) := by
  rw [← Records.workflow_withDefaults]
  exact h.workflow (key.stored hkey)

theorem callCode_get (hk : k ≠ .timer) (fuel : Nat) (key : ItemKey k.kind) :
    callCode wire fuel (.get k key) = getRecord (wire.codec k) (k.kind.name ++ " payload") key.path
      fun record => k.validate record key := by
  cases k with
  | timer => exact absurd rfl hk
  | activity | event => rfl

theorem exec_get (h : Holds wire b s) (fuel : Nat) (k : StoreKind) (key : ItemKey k.kind) :
    b.exec (callCode wire fuel (.get k key)) = (key.validate.map fun _ => s.item k key, b) := by
  rcases hkey : key.validate with err | u
  · have hpath : key.path = .error err := by rw [ItemKey.path, hkey]; rfl
    cases k with
    | activity => rw [callCode, getActivity, hpath]; rfl
    | event => rw [callCode, getEvent, hpath]; rfl
    | timer =>
      have hdue : dueEntryPath key = .error err := by rw [dueEntryPath, hkey]; rfl
      rw [callCode, getTimer, getDueEntry, hdue]
      rfl
  · have hvalid : key.Valid := hkey
    by_cases hk : k = .timer
    · subst hk
      rw [callCode, exec_getTimer h.intact.tidy key hvalid, h.item_stored .timer hvalid]
      rfl
    · rw [callCode_get hk, ItemKey.path_of_valid hvalid, exec_getRecord, h.item_stored k hvalid,
        itemRecord_eq hk]
      · rfl
      · intro data hdata
        obtain ⟨record, hrecord, hok⟩ := wellStored_item.1
          (h.intact.tidy.wellStored (a := .item k.kind (key.stored hvalid)) hdata)
        exact ⟨record, hrecord, by rwa [← StoreKind.validate_withDefaults]⟩

theorem exec_getWorkflow_key (h : Holds wire b s) (key : WorkflowKey) :
    b.exec (getWorkflow wire key) = (key.validate.map fun _ => s.workflow key, b) := by
  rcases hkey : key.validate with err | u
  · have hpath : key.path = .error err := by rw [WorkflowKey.path, hkey]; rfl
    rw [getWorkflow, hpath]
    rfl
  · have hvalid : key.Valid := hkey
    rw [getWorkflow, WorkflowKey.path_of_valid hvalid, exec_getRecord, h.workflow_stored hvalid]
    · rfl
    · intro data hdata
      obtain ⟨record, hrecord, hok⟩ := h.intact.tidy.wellStored
        (a := .workflow (key.stored hvalid)) hdata
      refine ⟨record, hrecord, validateWorkflowRecord_eq_ok.2 ?_⟩
      simpa [WorkflowKey.stored] using validateWorkflowRecord_eq_ok.1 hok

theorem exec_readListed {α : Type} {kind : RecordKind} (codec : Codec wire.Bytes α)
    (validate : Path → α → Except Err Unit) (keys : List (RecordKey kind))
    (h : ∀ key ∈ keys, ∃ record, b.objects.lookup key.val.location = some (codec.marshal record) ∧
      validate key.val.location record = .ok ()) :
    b.exec (readListed codec validate (keys.map (·.val.location))) =
      (.ok (keys.filterMap fun key => storedRecord codec b.objects key.val.location), b) := by
  induction keys with
  | nil => rfl
  | cons key keys ih =>
    obtain ⟨record, hlookup, hvalid⟩ := h key (by simp)
    have hrest := ih fun key' hkey' => h key' (by simp [hkey'])
    have hsuffix : hasBinpbSuffix key.val.location = true :=
      hasBinpbSuffix_binpb key.val.directory key.val.id
    simp only [List.map_cons, readListed, hsuffix, Bool.not_true, Bool.false_eq_true, if_false,
      exec_bind, exec_readListedProto hlookup, exec_liftExcept, hvalid, hrest, exec_pure,
      List.filterMap_cons, storedRecord_some hlookup]

theorem validateListed_of_stored {record : k.Record} (hvalid : k.validate record key.val = .ok ())
    (hrun : key.val.run = run.withDefaults) :
    validateListed key.val.location run (k.protoKey record)
      (k.validate record (k.key record)) = .ok () := by
  obtain ⟨hkey, heq⟩ := StoreKind.validate_eq_ok hvalid
  have hself : k.validate record (k.key record) = .ok () := by
    rwa [StoreKind.validate_congr record heq]
  rw [key.withDefaults] at heq
  rw [StoreKind.key] at heq hself hkey
  have hsame : sameWorkflowRun run (itemKeyFromProto (k.protoKey record)).run = true := by
    rw [sameWorkflowRun_iff, ← ItemKey.run_withDefaults, heq, hrun]
  have hpath : (itemKeyFromProto (k.protoKey record)).path = .ok key.val.location := by
    rw [ItemKey.path_of_valid hkey, heq]
  simp [validateListed, StoreKind.key, hself, hsame, hpath, Except.mapError, guardCorrupt, bind,
    Except.bind]

theorem Holds.perm_listed (h : Holds wire b s) (k : StoreKind)
    (keys : List (RecordKey k.kind)) (hnodup : keys.Nodup)
    (hkeys : ∀ key, key ∈ keys ↔ key.val.run = run.withDefaults ∧
      (itemRecord wire b.objects k key).isSome) :
    (keys.filterMap (itemRecord wire b.objects k)).Perm (s.listed k run k.everything) := by
  have hkey : ∀ (key : RecordKey k.kind) (record : k.Record),
      itemRecord wire b.objects k key = some record → (k.key record).withDefaults = key.val := by
    intro key record hrecord
    rw [← h.item] at hrecord
    rw [(Records.stored_of_item hrecord).key, key.withDefaults]
  refine (List.perm_ext_iff_of_nodup ?_ (s.nodup_listed k run _)).2 ?_
  · refine List.Nodup.filterMap ?_ hnodup
    intro key key' record hrecord hrecord'
    exact Subtype.ext ((hkey key record hrecord).symm.trans (hkey key' record hrecord'))
  · intro record
    rw [List.mem_filterMap, Records.mem_listed, and_iff_left
      (StoreKind.admits_of_isEverything (StoreKind.isEverything_everything k) record)]
    constructor
    · intro hmem
      obtain ⟨key, hin, hrecord⟩ := hmem
      obtain ⟨hrun, -⟩ := (hkeys key).1 hin
      refine ⟨key.val.id, ?_⟩
      rw [← Records.item_withDefaults, WorkflowKey.withDefaults_item, ← hrun]
      exact (h.item k key).trans hrecord
    · intro hmem
      obtain ⟨id, hitem⟩ := hmem
      have hvalid := Records.valid_of_item hitem
      have hrecord : itemRecord wire b.objects k ((run.item k.kind id).stored hvalid) = some record := by
        rw [← h.item_stored k hvalid, hitem]
      refine ⟨(run.item k.kind id).stored hvalid, (hkeys _).2 ⟨?_, ?_⟩, hrecord⟩
      · exact ItemKey.run_withDefaults (run.item k.kind id)
      · rw [hrecord]
        rfl

theorem valid_of_checkRun (h : k.checkRun run = .ok ()) : run.Valid := by
  cases k with
  | timer => exact h
  | activity =>
    have hitem : (run.item .activity "placeholder").Valid := h
    exact hitem.run (by decide)
  | event =>
    have hitem : (run.item .event "placeholder").Valid := h
    exact hitem.run (by decide)

theorem isSome_itemRecord (hb : Tidy wire b.objects) (hk : k ≠ .timer)
    (key : RecordKey k.kind) : (itemRecord wire b.objects k key).isSome ↔
      (b.objects.lookup key.val.location).isSome := by
  rw [itemRecord_eq hk]
  rcases hlookup : b.objects.lookup key.val.location with _ | data
  · rw [storedRecord_none hlookup]
    rfl
  · obtain ⟨record, rfl, -⟩ := wellStored_item.1 (hb.wellStored (a := .item k.kind key) hlookup)
    rw [storedRecord_some hlookup]
    rfl

theorem callCode_list (hk : k ≠ .timer) (fuel : Nat) (run : WorkflowKey)
    (filter : k.Filter) : callCode wire fuel (.list k run filter) =
      (do
        let dir ← (run.item k.kind "placeholder").dirPath
        let paths ← walkOpenDAL fuel dir
        readListed (wire.codec k) (fun path record => validateListed path run (k.protoKey record)
          (k.validate record (k.key record))) paths) := by
  cases k with
  | timer => exact absurd rfl hk
  | activity | event => rfl

theorem checkRun_eq (hk : k ≠ .timer) (run : WorkflowKey) :
    k.checkRun run = (run.item k.kind "placeholder").validate := by
  cases k with
  | timer => exact absurd rfl hk
  | activity | event => rfl

theorem agree_listTimers (h : Holds wire b s) {status : TimerStatus}
    {records : List TimerRecord} (hsorted : records.Pairwise (timerID · < timerID ·))
    (hmem : ∀ record, record ∈ records ↔ (∃ key : RecordKey .timer, key.val.run = run.withDefaults ∧
      timerState wire b.objects key = some record) ∧
        (status = .unspecified ∨ record.status = status)) :
    records.Perm (s.listed .timer run status) := by
  have hnodup : records.Nodup := hsorted.imp fun hlt heq => by
    rw [heq] at hlt
    exact lt_irrefl _ hlt
  refine (List.perm_ext_iff_of_nodup hnodup (s.nodup_listed .timer run status)).2 ?_
  intro record
  rw [hmem, Records.mem_listed]
  refine and_congr ?_ (by simp [StoreKind.admits])
  constructor
  · intro hkey
    obtain ⟨key, hkr, hstate⟩ := hkey
    refine ⟨key.val.id, ?_⟩
    rw [← Records.item_withDefaults, WorkflowKey.withDefaults_item, ← hkr]
    exact (h.item .timer key).trans hstate
  · intro hid
    obtain ⟨id, hitem⟩ := hid
    have hvalid := Records.valid_of_item hitem
    refine ⟨(run.item .timer id).stored hvalid, ItemKey.run_withDefaults _, ?_⟩
    exact (h.item_stored .timer hvalid).symm.trans hitem

theorem exec_list (h : Holds wire b s) {fuel : Nat} (hfuel : b.walkFuel ≤ fuel) (k : StoreKind)
    (run : WorkflowKey) (filter : k.Filter) :
    ∃ r, b.exec (callCode wire fuel (.list k run filter)) = (r, b) ∧
      StoreOp.Agree (.list k run filter) r ((k.checkRun run).map fun _ => s.listed k run filter) := by
  by_cases hk : k = .timer
  · subst hk
    rcases hcheck : StoreKind.timer.checkRun run with err | u
    · have hroot : dueRunRoot run = .error err := by
        rw [dueRunRoot, WorkflowKey.validate_withDefaults, show run.validate = _ from hcheck]
        rfl
      refine ⟨.error err, ?_, rfl⟩
      rw [callCode, listTimers, hroot]
      rfl
    · obtain ⟨records, hexec, hsorted, hmem⟩ :=
        exec_listTimers h.intact.tidy (valid_of_checkRun hcheck) hfuel filter
      exact ⟨.ok records, hexec, agree_listTimers h hsorted hmem⟩
  · rw [callCode_list hk]
    rcases hcheck : k.checkRun run with err | u
    · have hdir : (run.item k.kind "placeholder").dirPath = .error err := by
        rw [ItemKey.dirPath, ← checkRun_eq hk, hcheck]
        rfl
      refine ⟨.error err, ?_, rfl⟩
      rw [hdir]
      rfl
    · have hrun : run.Valid := valid_of_checkRun hcheck
      obtain ⟨paths, hwalk, hperm⟩ := exec_walkOpenDAL_of_fuel hfuel
        (runDir (run.stored hrun).val.ns (run.stored hrun).val.workflowID
          (run.stored hrun).val.runID ++ [k.kind.name])
      obtain ⟨keys, rfl, hnodup, hkeys⟩ :=
        exists_items_of_walk h.intact.tidy (run.stored hrun) k.kind hperm
      have hread := exec_readListed (wire.codec k) (fun path record =>
          validateListed path run (k.protoKey record) (k.validate record (k.key record))) keys (by
        intro key hkey
        obtain ⟨hkr, hsome⟩ := (hkeys key).1 hkey
        obtain ⟨data, hdata⟩ := Option.isSome_iff_exists.1 hsome
        obtain ⟨record, rfl, hok⟩ := wellStored_item.1
          (h.intact.tidy.wellStored (a := .item k.kind key) hdata)
        exact ⟨record, hdata, validateListed_of_stored hok hkr⟩)
      refine ⟨.ok (keys.filterMap (itemRecord wire b.objects k)), ?_, ?_⟩
      · simp only [exec_bind, exec_liftExcept, dirPath_placeholder hrun k.kind, hwalk, hread]
        refine congrArg (fun f => (Except.ok (List.filterMap f keys), b)) ?_
        funext key
        exact (itemRecord_eq hk key).symm
      · have hperm := h.perm_listed k keys hnodup fun key => by
          rw [hkeys key, isSome_itemRecord h.intact.tidy hk]
          rfl
        cases k with
        | timer => exact absurd rfl hk
        | activity | event => exact hperm

end OpenDALStore

end Temporaless
