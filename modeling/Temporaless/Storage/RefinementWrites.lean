import Mathlib.Data.Set.Finite.Basic
import Temporaless.Storage.Refinement

/-!
# The writes of the OpenDAL store refine its finite maps

A write is the change of one record: the frame `DifferAt` says what it leaves alone. The put of a
workflow may also move the pointer to the latest run, which no record depends on.
-/

namespace Temporaless

variable {k : StoreKind} {key : WorkflowKey}

namespace OpenDALStore

open PathTree Effects

variable {wire : Wire} {b b' : Bucket wire.Bytes} {s : Records}

/-- The two buckets differ at most in the item `key`. -/
structure DifferAt (b b' : Bucket wire.Bytes) (k : StoreKind) (key : RecordKey k.kind) : Prop where
  intact : Intact wire b'
  workflow : ∀ run, workflowRecord wire b'.objects run = workflowRecord wire b.objects run
  item : ∀ (k' : StoreKind) (key' : RecordKey k'.kind), itemAddress k' key' ≠ itemAddress k key →
    itemRecord wire b'.objects k' key' = itemRecord wire b.objects k' key'
  point : ∀ (k' : StoreKind) (key' : RecordKey k'.kind), itemAddress k' key' ≠ itemAddress k key →
    b'.objects.lookup (Address.item k'.kind key').path =
      b.objects.lookup (Address.item k'.kind key').path

private theorem Holds.differ (h : Holds wire b s) {key : RecordKey k.kind}
    (hd : DifferAt b b' k key) {s' : Records} (hworkflow : s'.workflow = s.workflow)
    (hitem : s'.item k key.val = itemRecord wire b'.objects k key)
    (hleftover : s'.item k key.val = none →
      s'.leftover k key.val = (b'.objects.lookup (Address.item k.kind key).path).isSome)
    (hother : ∀ (k' : StoreKind) (key' : RecordKey k'.kind), (HEq key'.val key.val → k' ≠ k) →
      s'.item k' key'.val = s.item k' key'.val ∧
        s'.leftover k' key'.val = s.leftover k' key'.val) : Holds wire b' s' := by
  have hsame : ∀ (k' : StoreKind) (key' : RecordKey k'.kind),
      (k' = k ∧ HEq key' key) ∨ (s'.item k' key'.val = s.item k' key'.val ∧
        s'.leftover k' key'.val = s.leftover k' key'.val ∧
          itemAddress k' key' ≠ itemAddress k key) := by
    intro k' key'
    by_cases haddress : itemAddress k' key' = itemAddress k key
    · exact Or.inl (itemAddress_inj haddress)
    · obtain ⟨hi, hl⟩ := hother k' key' (by
        intro hval hk
        subst hk
        exact haddress (congrArg _ (Subtype.ext (eq_of_heq hval))))
      exact Or.inr ⟨hi, hl, haddress⟩
  refine ⟨hd.intact, ?_, ?_, ?_⟩
  · intro run
    rw [hworkflow, h.workflow, hd.workflow]
  · intro k' key'
    obtain ⟨rfl, heq⟩ | ⟨hi, -, hne⟩ := hsame k' key'
    · rw [eq_of_heq heq]
      exact hitem
    · rw [hi, hd.item k' key' hne, h.item]
  · intro k' key' hnone
    obtain ⟨rfl, heq⟩ | ⟨hi, hl, hne⟩ := hsame k' key'
    · rw [eq_of_heq heq] at hnone ⊢
      exact hleftover hnone
    · rw [hi] at hnone
      rw [hl, hd.point k' key' hne, h.leftover k' key' hnone]

variable {record : k.Record} {objects : Objects wire} {recordTime runOrderTime : Int}

theorem Holds.set (h : Holds wire b s) {key : RecordKey k.kind}
    (hd : DifferAt b b' k key) (hstored : k.Stored key.val record)
    (hrecord : itemRecord wire b'.objects k key = some record) :
    Holds wire b' (s.setItem k key.val record hstored) := by
  have hitem : (s.setItem k key.val record hstored).item k key.val = some record := by
    rw [Records.item_setItem, key.withDefaults, if_pos rfl]
  refine h.differ hd rfl ?_ ?_ ?_
  · rw [hitem, hrecord]
  · intro hnone
    rw [hitem] at hnone
    cases hnone
  · intro k' key' hne
    refine ⟨?_, rfl⟩
    by_cases hk : k' = k
    · subst hk
      rw [Records.item_setItem, key'.withDefaults, if_neg fun heq => hne (heq_of_eq heq) rfl]
    · exact Records.item_setItem_ne hstored hk key'.val

theorem Holds.unset (h : Holds wire b s) {key : RecordKey k.kind} {left : Bool}
    (hd : DifferAt b b' k key) (hrecord : itemRecord wire b'.objects k key = none)
    (hleft : (b'.objects.lookup (Address.item k.kind key).path).isSome = left) :
    Holds wire b' (s.eraseItem k key.val left) := by
  refine h.differ hd rfl ?_ ?_ ?_
  · rw [Records.item_eraseItem, key.withDefaults, if_pos rfl, hrecord]
  · intro _
    rw [hleft]
    exact Records.leftover_eraseItem_self
  · intro k' key' hne
    refine ⟨?_, Records.leftover_eraseItem hne⟩
    by_cases hk : k' = k
    · subst hk
      rw [Records.item_eraseItem, key'.withDefaults, if_neg fun heq => hne (heq_of_eq heq) rfl]
    · exact Records.item_eraseItem_ne hk key'.val

theorem itemAddress_eq (hk : k ≠ .timer) (key : RecordKey k.kind) :
    itemAddress k key = .item k.kind key := by
  cases k with
  | timer => exact absurd rfl hk
  | activity | event => rfl

theorem kind_ne_timer (hk : k ≠ .timer) : k.kind ≠ .timer := by
  cases k with
  | timer => exact absurd rfl hk
  | activity | event => decide

theorem point_ne {k' : StoreKind} {key : RecordKey k.kind} {key' : RecordKey k'.kind}
    (h : itemAddress k' key' ≠ itemAddress k key) :
    Address.item k'.kind key' ≠ Address.item k.kind key := by
  intro heq
  obtain ⟨hkind, hkey⟩ := Address.item.inj heq
  cases k <;> cases k' <;> simp_all [itemAddress]

theorem differAt_insert (hb : Intact wire b) (hk : k ≠ .timer)
    (key : RecordKey k.kind) (hvalid : k.validate record key.val = .ok ()) (hobjects : b'.objects =
      b.objects.insert (Address.item k.kind key).path ((wire.codec k).marshal record))
    (htime : b'.time = b.time) : DifferAt b b' k key := by
  have htidy : Tidy wire
      (b.objects.insert (Address.item k.kind key).path ((wire.codec k).marshal record)) := by
    apply hb.tidy.insert (wellStored_item.2 ⟨record, rfl, hvalid⟩)
    intro key' heq
    exact absurd (Address.item.inj heq).1 (kind_ne_timer hk)
  refine ⟨hb.insert (by simp) htidy hobjects htime, ?_, ?_, ?_⟩
  · intro run
    rw [hobjects, workflowRecord_insert (by simp)]
  · intro k' key' hne
    rw [itemAddress_eq hk] at hne
    rw [hobjects, itemRecord_insert hne]
  · intro k' key' hne
    rw [hobjects, lookup_insert_address (point_ne hne)]

theorem differAt_erase (hb : Intact wire b) (hk : k ≠ .timer)
    (key : RecordKey k.kind) (hobjects : b'.objects = b.objects.erase (Address.item k.kind key).path)
    (htime : b'.time = b.time) : DifferAt b b' k key := by
  have htidy : Tidy wire (b.objects.erase (Address.item k.kind key).path) :=
    hb.tidy.erase (by simp)
  refine ⟨hb.erase (by simp) htidy hobjects htime, ?_, ?_, ?_⟩
  · intro run
    rw [hobjects, workflowRecord_erase (by simp)]
  · intro k' key' hne
    rw [itemAddress_eq hk] at hne
    rw [hobjects, itemRecord_erase hne]
  · intro k' key' hne
    rw [hobjects, lookup_erase_address (point_ne hne)]

/-- The code answers as the abstract store does and leaves objects that hold its records. -/
def Refines (wire : Wire) (b : Bucket wire.Bytes) (s : Records) (op : StoreOp) : Prop :=
  ∀ fuel, b.walkFuel ≤ fuel → op.Agree (b.exec (callCode wire fuel op)).1 (s.step op).1 ∧
    Holds wire (b.exec (callCode wire fuel op)).2 (s.step op).2

theorem callCode_put (hk : k ≠ .timer) (fuel : Nat) (record : k.Record) :
    callCode wire fuel (.put k record) = putRecord (wire.codec k) (k.validate record (k.key record))
      (k.key record).path (k.key record).dirPath record := by
  cases k with
  | timer => exact absurd rfl hk
  | activity | event => rfl

theorem check_eq_ok (hk : k ≠ .timer) (record : k.Record) :
    k.check record = .ok () ∧ k.cancels record = false := by
  cases k with
  | timer => exact absurd rfl hk
  | activity | event => exact ⟨rfl, rfl⟩

theorem refines_putRecord (h : Holds wire b s) (hk : k ≠ .timer)
    (record : k.Record) : Refines wire b s (.put k record) := by
  intro fuel _
  obtain ⟨hcheck, hlive⟩ := check_eq_ok hk record
  rw [callCode_put hk]
  rcases hvalid : k.validate record (k.key record) with err | u
  · have haccept : k.accept record = .error err := by
      rw [StoreKind.accept, hvalid]
      rfl
    rw [Records.step_put_error haccept]
    exact ⟨rfl, h⟩
  · have haccept : k.accept record = .ok () := StoreKind.accept_eq_ok.2 ⟨hvalid, hcheck⟩
    have hkey := (StoreKind.validate_eq_ok hvalid).1
    have hexec : b.exec (putRecord (wire.codec k) (.ok ()) (k.key record).path
        (k.key record).dirPath record) = (.ok (), { b with
          objects := b.objects.insert (k.key record).withDefaults.location
            ((wire.codec k).marshal record)
          directories := (k.key record).withDefaults.directory :: b.directories }) := by
      simp [putRecord, exec_bind, ItemKey.path_of_valid hkey, ItemKey.dirPath_of_valid hkey]
    rw [hexec, Records.step_put_live haccept hlive]
    refine ⟨rfl, ?_⟩
    have hstored : k.Stored ((k.key record).stored hkey).val record :=
      StoreKind.stored_of_accept haccept hlive
    refine h.set ?_ hstored ?_
    · exact differAt_insert h.intact hk ((k.key record).stored hkey) hstored.1 rfl rfl
    · rw [itemRecord_eq hk]
      exact storedRecord_some (AList.lookup_insert _)

theorem exec_deleteIfExists {located : Except Err Path} {path : Path} (h : located = .ok path) :
    ∃ b', b.exec (do
        let path ← located
        deleteIfExists path) = (.ok (b.objects.lookup path).isSome, b') ∧
      b'.objects = b.objects.erase path ∧ b'.time = b.time := by
  simp only [h, exec_bind, exec_liftExcept]
  rcases hlookup : b.objects.lookup path with _ | data
  · refine ⟨b, ?_, ?_, rfl⟩
    · simp [deleteIfExists, exec_bind, hlookup]
    · rw [AList.ext_iff, AList.erase]
      have hnot : path ∉ b.objects.keys := by
        rw [← AList.mem_keys]
        intro hmem
        have hsome := AList.lookup_isSome.2 hmem
        rw [hlookup] at hsome
        cases hsome
      exact (List.kerase_of_notMem_keys hnot).symm
  · refine ⟨{ b with objects := b.objects.erase path }, ?_, rfl, rfl⟩
    simp [deleteIfExists, exec_bind, hlookup, exec_deleteObject b hlookup]

theorem callCode_delete (hk : k ≠ .timer) (fuel : Nat) (key : ItemKey k.kind) :
    callCode wire fuel (.delete k key) = (do
      let path ← key.path
      deleteIfExists path) := by
  cases k with
  | timer => exact absurd rfl hk
  | activity | event => rfl

theorem refines_deleteRecord (h : Holds wire b s) (hk : k ≠ .timer)
    (key : ItemKey k.kind) : Refines wire b s (.delete k key) := by
  intro fuel _
  rw [callCode_delete hk]
  rcases hvalid : key.validate with err | u
  · have hpath : key.path = .error err := by rw [ItemKey.path, hvalid]; rfl
    rw [Records.step_delete_error hvalid, hpath]
    exact ⟨.refl _ _, h⟩
  · have hkey : key.Valid := hvalid
    obtain ⟨b', hexec, hobjects, htime⟩ := exec_deleteIfExists (b := b) (ItemKey.path_of_valid hkey)
    rw [hexec, Records.step_delete hkey]
    have hgone : b'.objects.lookup (Address.item k.kind (key.stored hkey)).path = none := by
      rw [hobjects]
      exact AList.lookup_erase _ _
    constructor
    · have hsome := Bool.eq_iff_iff.2 (isSome_itemRecord h.intact.tidy hk (key.stored hkey))
      rw [h.isSome_or_leftover k hkey, hsome]
      exact (Bool.or_self _).symm
    · refine h.unset (differAt_erase h.intact hk (key.stored hkey) hobjects htime) ?_ ?_
      · rw [itemRecord_eq hk]
        exact storedRecord_none hgone
      · rw [hgone]
        rfl

theorem differAt_timer (hb : Intact wire b) (key : RecordKey .timer)
    (htidy : Tidy wire b'.objects) (htime : b'.time = b.time)
    (hlookup : ∀ a : Address, a ≠ .due key → a ≠ .item .timer key →
      b'.objects.lookup a.path = b.objects.lookup a.path) : DifferAt b b' .timer key := by
  refine ⟨⟨htidy, ?_, by rw [htime]; exact hb.clock⟩, ?_, ?_, ?_⟩
  · intro ns workflowID data hdata
    rw [hlookup _ (by simp) (by simp)] at hdata
    exact hb.pointers ns workflowID data hdata
  · intro run
    exact congrArg (Option.bind · _) (hlookup (.workflow run) (by simp) (by simp))
  · intro k key' hne
    apply itemRecord_congr
    apply hlookup _ hne
    cases k <;> simp [itemAddress]
  · intro k key' hne
    exact hlookup _ (by simp) (point_ne (k := .timer) hne)

theorem lookup_published (key : RecordKey .timer) (record : TimerRecord)
    {a : Address} (hdue : a ≠ .due key) (hpoint : a ≠ .item .timer key) :
    (publish (prepare objects key record) key record).lookup a.path = objects.lookup a.path := by
  rw [publish, lookup_insert_address hpoint, prepare, lookup_insert_address hdue]

theorem refines_putTimer (h : Holds wire b s) (record : TimerRecord) :
    Refines wire b s (.put .timer record) := by
  intro fuel _
  have hkey : StoreKind.timer.key record = itemKeyFromProto record.key := rfl
  have htime := exec_time (b := b) (putTimer wire record)
  rw [callCode]
  rcases hvalid : validateTimerRecord record (itemKeyFromProto record.key) with err | u
  · have haccept : StoreKind.timer.accept record = .error err := by
      rw [StoreKind.accept, hkey, StoreKind.validate, hvalid]
      rfl
    have hexec : b.exec (putTimer wire record) = (.error err, b) := by
      have hdefault : validateTimerRecord record (itemKeyFromProto record.key).withDefaults =
          .error err := by
        rw [validateTimerRecord, validateItem_withDefaults]
        exact hvalid
      simp [putTimer, exec_bind, hdefault]
    rw [hexec, Records.step_put_error haccept]
    exact ⟨rfl, h⟩
  · have hdefault : validateTimerRecord record (itemKeyFromProto record.key).withDefaults =
        .ok () := by
      rw [validateTimerRecord, validateItem_withDefaults]
      exact hvalid
    have hkeyValid := (validateItem_eq_ok.1 hvalid).2.1
    rcases hcheck : checkPrepared record with err | u'
    · have haccept : StoreKind.timer.accept record = .error err := by
        rw [StoreKind.accept, hkey, StoreKind.validate, hvalid]
        exact hcheck
      have hexec : b.exec (putTimer wire record) = (.error err, { b with
          directories := (itemKeyFromProto record.key).withDefaults.directory :: b.directories }) := by
        have hpath := ItemKey.path_of_valid (ItemKey.valid_withDefaults.2 hkeyValid)
        have hdir := ItemKey.dirPath_of_valid (ItemKey.valid_withDefaults.2 hkeyValid)
        simp [putTimer, putDueEntry, exec_bind, hdefault, hcheck, hpath, hdir]
      rw [hexec, Records.step_put_error haccept]
      exact ⟨rfl, h.of_objects rfl rfl⟩
    · have haccept : StoreKind.timer.accept record = .ok () :=
        StoreKind.accept_eq_ok.2 ⟨hvalid, hcheck⟩
      obtain ⟨key, hprep⟩ := exists_preparable_iff.2 ⟨hdefault, hcheck⟩
      obtain ⟨hok, hobjects⟩ := (runs_putTimer (b := b) (I := fun _ => True)
        (Q := fun r b' => r = .ok () ∧ b'.objects = publish (prepare b.objects key record) key record)
        hprep (fun _ _ => trivial) (fun _ _ => trivial) (fun _ hb' => ⟨trivial, rfl, hb'⟩)).exec
      have htidy := (h.intact.tidy.prepare hprep).publish hprep (by rw [lookup_prepare]; rfl)
      have hd : DifferAt b (b.exec (putTimer wire record)).2 .timer key := by
        apply differAt_timer h.intact key (by rwa [hobjects]) htime
        intro a hdue hpoint
        rw [hobjects, lookup_published key record hdue hpoint]
      have hstate : itemRecord wire (b.exec (putTimer wire record)).2.objects .timer key =
          (some record).filter (·.status ≠ .canceled) := by
        rw [itemRecord, timerState, hobjects, ledgerRecord_publish, ledgerRecord_prepare,
          if_pos rfl]
      have hval : (StoreKind.timer.key record).withDefaults = key.val := hprep.key
      by_cases hlive : record.status = .canceled
      · rw [Records.step_put_canceled haccept (by simp [StoreKind.cancels, hlive]), hok]
        refine ⟨rfl, ?_⟩
        rw [hval]
        refine h.unset hd (by rw [hstate]; simp [hlive]) ?_
        rw [hobjects, publish, AList.lookup_insert]
        rfl
      · have hcancels : StoreKind.timer.cancels record = false := by
          simp [StoreKind.cancels, hlive]
        have hstored : StoreKind.timer.Stored key.val record := by
          rw [← hval]
          exact StoreKind.stored_of_accept haccept hcancels
        rw [Records.step_put_live haccept hcancels, hok]
        refine ⟨rfl, ?_⟩
        have hset := h.set hd hstored (by rw [hstate]; simp [hlive])
        simp only [hval]
        exact hset

theorem lookup_deleted (key : RecordKey .timer) (record : TimerRecord)
    {a : Address} (hdue : a ≠ .due key) (hpoint : a ≠ .item .timer key) :
    ((prepare objects key record).erase (Address.item .timer key).path).lookup a.path =
      objects.lookup a.path := by
  rw [lookup_erase_address hpoint, prepare, lookup_insert_address hdue]

theorem timerState_tombstone (key : RecordKey .timer)
    (record : TimerRecord) : timerState wire (prepare objects key (tombstone record)) key = none := by
  rw [timerState, ledgerRecord_prepare, if_pos rfl]
  rfl

theorem Tidy.preparable_of_ledger (h : Tidy wire objects)
    {key : RecordKey .timer} {record : TimerRecord}
    (hrecord : ledgerRecord wire objects key = some record) : Preparable record key := by
  obtain ⟨-, hnone⟩ | ⟨record', -, hsome, hprep⟩ := h.ledger_cases key
  · rw [hnone] at hrecord
    cases hrecord
  · rw [hsome] at hrecord
    cases hrecord
    exact hprep

theorem runs_deleteTimer_exact (hb : Tidy wire b.objects) {key : TimerKey} (hkey : key.Valid) :
    b.Runs (fun _ => True) (deleteTimer wire key) fun r b' =>
      r = .ok ((timerState wire b.objects (key.stored hkey)).isSome ||
        (b.objects.lookup (Address.item .timer (key.stored hkey)).path).isSome) ∧
      Tidy wire b'.objects ∧ timerState wire b'.objects (key.stored hkey) = none ∧
      b'.objects.lookup (Address.item .timer (key.stored hkey)).path = none ∧
      ∀ a : Address, a ≠ .due (key.stored hkey) → a ≠ .item .timer (key.stored hkey) →
        b'.objects.lookup a.path = b.objects.lookup a.path := by
  apply runs_deleteTimer hb hkey (fun _ _ => trivial)
  · intro hpoint hstate
    rw [show b.objects.lookup (Address.item .timer (key.stored hkey)).path = none from hpoint,
      hstate]
    exact ⟨rfl, hb, rfl, rfl, fun _ _ _ => rfl⟩
  · intro record b' hrecord hobjects
    refine ⟨trivial, fun hpoint hstate => ⟨?_, ?_, ?_, ?_, ?_⟩⟩
    · rw [hstate]
      rfl
    · rw [hobjects]
      exact hb.prepare (hb.preparable_of_ledger hrecord).tombstone
    · rw [hobjects]
      exact timerState_tombstone _ _
    · rw [hobjects, prepare, lookup_insert_address (by simp)]
      exact hpoint
    · intro a hdue _
      rw [hobjects, prepare, lookup_insert_address hdue]
  · intro record b' hrecord hobjects
    refine ⟨trivial, fun hpoint => ⟨?_, ?_, ?_, ?_, ?_⟩⟩
    · rw [show (b.objects.lookup (Address.item .timer (key.stored hkey)).path).isSome = true
        from hpoint, Bool.or_true]
    · rw [hobjects]
      exact (hb.prepare (hb.preparable_of_ledger hrecord).tombstone).erase (by simp)
    · rw [hobjects, timerState, ledgerRecord_erase]
      exact timerState_tombstone _ _
    · rw [hobjects]
      exact AList.lookup_erase _ _
    · intro a hdue hpoint
      rw [hobjects, lookup_deleted _ _ hdue hpoint]

theorem refines_deleteTimer (h : Holds wire b s) (key : TimerKey) :
    Refines wire b s (.delete .timer key) := by
  intro fuel _
  rw [callCode]
  rcases hvalid : key.validate with err | u
  · have hpath : key.path = .error err := by rw [ItemKey.path, hvalid]; rfl
    have hexec : b.exec (deleteTimer wire key) = (.error err, b) := by
      simp [deleteTimer, exec_bind, hpath]
    rw [Records.step_delete_error (k := .timer) hvalid, hexec]
    exact ⟨.refl _ _, h⟩
  · have hkey : key.Valid := hvalid
    obtain ⟨hr, htidy, hstate, hpoint, hlookup⟩ := (runs_deleteTimer_exact h.intact.tidy hkey).exec
    have htime := exec_time (b := b) (deleteTimer wire key)
    rw [Records.step_delete (k := .timer) hkey]
    constructor
    · rw [h.isSome_or_leftover .timer hkey, hr]
      exact .refl _ _
    · refine h.unset (differAt_timer h.intact (key.stored hkey) htidy htime hlookup) hstate ?_
      exact congrArg Option.isSome hpoint

theorem refines_deleteWorkflow (h : Holds wire b s) (key : WorkflowKey) :
    Refines wire b s (.deleteWorkflow key) := by
  intro fuel _
  rw [callCode, deleteWorkflow]
  rcases hvalid : key.validate with err | u
  · have hpath : key.path = .error err := by rw [WorkflowKey.path, hvalid]; rfl
    rw [Records.step_deleteWorkflow_error hvalid, hpath]
    exact ⟨.refl _ _, h⟩
  · have hkey : key.Valid := hvalid
    obtain ⟨b', hexec, hobjects, htime⟩ := exec_deleteIfExists (b := b) (WorkflowKey.path_of_valid hkey)
    rw [hexec, Records.step_deleteWorkflow hkey]
    have haddress : b'.objects = b.objects.erase (Address.workflow (key.stored hkey)).path := hobjects
    constructor
    · rw [h.workflow_stored hkey]
      change (b.objects.lookup (key.stored hkey).val.location).isSome = _
      rcases hlookup : b.objects.lookup (key.stored hkey).val.location with _ | data
      · rw [workflowRecord, storedRecord_none hlookup]
        rfl
      · obtain ⟨record, rfl, -⟩ := h.intact.tidy.wellStored (a := .workflow (key.stored hkey)) hlookup
        rw [workflowRecord, storedRecord_some hlookup]
        rfl
    · refine ⟨h.intact.erase (by simp) (h.intact.tidy.erase (by simp)) haddress htime, ?_, ?_, ?_⟩
      · intro run
        rw [Records.workflow_eraseWorkflow, run.withDefaults]
        split
        · next heq =>
            rw [haddress, show run = key.stored hkey from Subtype.ext heq]
            exact (storedRecord_none (AList.lookup_erase _ _)).symm
        · next hne =>
            rw [haddress, workflowRecord_erase, h.workflow]
            intro heq
            exact hne (congrArg Subtype.val (Address.workflow.inj heq))
      · intro k key'
        rw [haddress, itemRecord_erase (itemAddress_ne_workflow k key' _)]
        exact h.item k key'
      · intro k key' hnone
        rw [haddress, lookup_erase_address (by simp)]
        exact h.leftover k key' hnone

theorem Holds.writePointer (h : Holds wire b s) {ns workflowID : String}
    {pointer : LatestWorkflowRunPointer}
    (hvalid : validateLatestWorkflowRunPointer pointer ns workflowID = .ok ())
    (hobjects : b'.objects =
      b.objects.insert (Address.latest ns workflowID).path (wire.latest.marshal pointer))
    (htime : b'.time = b.time) : Holds wire b' s := by
  refine ⟨⟨?_, ?_, by rw [htime]; exact h.intact.clock⟩, ?_, ?_, ?_⟩
  · rw [hobjects]
    exact h.intact.tidy.insert trivial (by simp)
  · intro ns' workflowID' data hdata
    by_cases hsame : Address.latest ns' workflowID' = Address.latest ns workflowID
    · rw [hobjects, hsame, AList.lookup_insert] at hdata
      obtain ⟨rfl, rfl⟩ := Address.latest.inj hsame
      exact ⟨pointer, (Option.some.inj hdata).symm, hvalid⟩
    · rw [hobjects, lookup_insert_address hsame] at hdata
      exact h.intact.pointers ns' workflowID' data hdata
  · intro run
    rw [hobjects, workflowRecord_insert (by simp)]
    exact h.workflow run
  · intro k key
    rw [hobjects, itemRecord_insert (itemAddress_ne_latest k key ns workflowID)]
    exact h.item k key
  · intro k key hnone
    rw [hobjects, lookup_insert_address (by simp)]
    exact h.leftover k key hnone

theorem Holds.writeWorkflow (h : Holds wire b s) (run : RunKey) {record : WorkflowRecord}
    (hvalid : validateWorkflowRecord record run.val = .ok () ∧ run.val.ns ≠ "")
    (hobjects : b'.objects =
      b.objects.insert (Address.workflow run).path (wire.workflow.marshal record))
    (htime : b'.time = b.time) : Holds wire b' (s.setWorkflow run.val record hvalid) := by
  refine ⟨h.intact.insert (by simp) ?_ hobjects htime, ?_, ?_, ?_⟩
  · exact h.intact.tidy.insert (a := .workflow run) ⟨record, rfl, hvalid.1⟩ (by simp)
  · intro run'
    rw [Records.workflow_setWorkflow, run'.withDefaults]
    split
    · next heq =>
        rw [hobjects, show run' = run from Subtype.ext heq]
        exact (storedRecord_some (AList.lookup_insert _)).symm
    · next hne =>
        rw [hobjects, workflowRecord_insert, h.workflow]
        intro heq
        exact hne (congrArg Subtype.val (Address.workflow.inj heq))
  · intro k key
    rw [hobjects, itemRecord_insert (itemAddress_ne_workflow k key run)]
    exact h.item k key
  · intro k key hnone
    rw [hobjects, lookup_insert_address (by simp)]
    exact h.leftover k key hnone

def pointerTimes (record : WorkflowRecord) (now : Int) : Option (Int × Int) :=
  if workflowStatusHasLatestPointer record.status then
    let recordTime :=
      match record.status, record.completedAt with
      | .completed, some t | .failed, some t => t.asTime
      | _, _ => (record.createdAt.map Timestamp.asTime).getD now
    some (recordTime, (record.runOrderTime.map Timestamp.asTime).getD recordTime)
  else none

theorem exec_latestPointerTimes (record : WorkflowRecord) :
    b.exec (latestPointerTimes wire record) =
      ((checkPointerTimes record).map fun _ => pointerTimes record b.time, b) := by
  obtain ⟨_, _, _, _, status, _, _, createdAt, completedAt, _, _⟩ := record
  simp only [latestPointerTimes, checkPointerTimes, pointerTimes, workflowStatusHasLatestPointer,
    workflowLatestPointerRecordTime, workflowCreatedTime]
  cases status with
  | unspecified => rfl
  | inProgress =>
    rcases createdAt with _ | t
    · rfl
    · dsimp only
      cases t.check <;> rfl
  | completed | failed =>
    rcases completedAt with _ | t
    · rcases createdAt with _ | t
      · rfl
      · dsimp only
        cases t.check <;> rfl
    · dsimp only
      cases t.check <;> rfl

theorem inRange_of_mapError {t : Timestamp} {f : Err → Err} (h : t.check.mapError f = .ok ()) :
    Timestamp.InRange t.asTime := by
  apply Timestamp.inRange_of_checkValid
  rw [← Timestamp.check_eq_ok]
  rcases ht : t.check with err | u
  · rw [ht] at h
    cases h
  · rfl

theorem pointerTimes_inRange {record : WorkflowRecord} {now : Int}
    (hcheck : checkPointerTimes record = .ok ()) (horder : checkOptional record.runOrderTime = .ok ())
    (hnow : Timestamp.InRange now) (h : pointerTimes record now = some (recordTime, runOrderTime)) :
    workflowStatusHasLatestPointer record.status = true ∧ Timestamp.InRange recordTime ∧
      Timestamp.InRange runOrderTime := by
  have hdefault : ∀ t, Timestamp.InRange t →
      Timestamp.InRange ((record.runOrderTime.map Timestamp.asTime).getD t) := by
    intro t ht
    rcases hrun : record.runOrderTime with _ | order
    · exact ht
    · rw [hrun] at horder
      exact Timestamp.inRange_of_checkValid (Timestamp.check_eq_ok.1 horder)
  unfold pointerTimes at h
  split at h
  · next hstatus =>
      obtain ⟨rfl, rfl⟩ := Prod.mk.inj (Option.some.inj h)
      refine ⟨hstatus, and_iff_left_of_imp (hdefault _) |>.2 ?_⟩
      unfold checkPointerTimes at hcheck
      split at hcheck
      · next hs hc =>
          simp only [hs, hc]
          exact inRange_of_mapError hcheck
      · next hs hc =>
          simp only [hs, hc]
          exact inRange_of_mapError hcheck
      · next hs =>
          rw [hs] at hstatus
          exact absurd hstatus (by decide)
      · next hcompleted hfailed =>
          split
          · next hs hc => exact (hcompleted _ hs hc).elim
          · next hs hc => exact (hfailed _ hs hc).elim
          · rcases hcreated : record.createdAt with _ | t
            · exact hnow
            · rw [hcreated] at hcheck
              exact inRange_of_mapError hcheck
  · cases h

def latestKey (key : WorkflowKey) : WorkflowKey :=
  ⟨key.withDefaults.ns, key.withDefaults.workflowID, "placeholder"⟩

theorem latestKey_withDefaults (key : WorkflowKey) : (latestKey key).withDefaults = latestKey key :=
  WorkflowKey.withDefaults_of_ne key.withDefaults_ns_ne

theorem latestKey_valid (h : key.Valid) : (latestKey key).Valid := by
  have hv := (validationError_eq_ok _).1 h
  refine (validationError_eq_ok _).2 ?_
  rw [latestKey_withDefaults]
  simp only [WorkflowKey.violations, List.append_eq_nil_iff] at hv ⊢
  exact ⟨hv.1, show identifierViolations "workflow_key" "run_id" "placeholder" [] = [] from rfl⟩

theorem latestWorkflowRunPointerPath_of_valid (h : key.Valid) :
    latestWorkflowRunPointerPath key.withDefaults.ns key.withDefaults.workflowID =
      .ok (Address.latest key.withDefaults.ns key.withDefaults.workflowID).path := by
  change ((latestKey key).withDefaults.validate.map fun _ => storageRoot ++
    [(latestKey key).withDefaults.ns, "_latest", binpb (latestKey key).withDefaults.workflowID]) = _
  rw [latestKey_withDefaults, show (latestKey key).validate = .ok () from latestKey_valid h]
  rfl

theorem validate_newPointer (hkey : key.Valid) {status : WorkflowStatus}
    (hstatus : workflowStatusHasLatestPointer status = true) {updatedAt : Int}
    (hrecord : Timestamp.InRange recordTime) (hupdated : Timestamp.InRange updatedAt)
    (horder : Timestamp.InRange runOrderTime) :
    validateLatestWorkflowRunPointer
      { key := some key.withDefaults, status := status, recordTime := some (.new recordTime)
        updatedAt := some (.new updatedAt), runOrderTime := some (.new runOrderTime) }
      key.withDefaults.ns key.withDefaults.workflowID = .ok () := by
  have hcheck : ∀ {t}, Timestamp.InRange t → (Timestamp.new t).check = .ok () := fun ht =>
    Timestamp.check_eq_ok.2 (Timestamp.checkValid_new ht)
  have hlatest : WorkflowKey.withDefaults ⟨key.withDefaults.ns, key.withDefaults.workflowID,
      "placeholder"⟩ = latestKey key := latestKey_withDefaults key
  simp only [validateLatestWorkflowRunPointer, bind_eq_ok_unit, corruptUnless_eq_ok,
    guardCorrupt_eq_ok, requireTimestamp, hcheck hrecord, hcheck hupdated, hcheck horder, hstatus,
    workflowKeyFromProto, Option.getD_some, WorkflowKey.withDefaults_withDefaults, hlatest,
    WorkflowKey.validate_withDefaults, and_true]
  refine ⟨latestKey_valid hkey, hkey, ?_⟩
  simp [latestKey]

theorem times_of_validPointer {pointer : LatestWorkflowRunPointer} {ns workflowID : String}
    (h : validateLatestWorkflowRunPointer pointer ns workflowID = .ok ()) :
    ∃ recordTime runOrderTime, pointer.recordTime = some recordTime ∧ recordTime.check = .ok () ∧
      pointer.runOrderTime = some runOrderTime ∧ runOrderTime.check = .ok () := by
  have hrequire : ∀ {t : Option Timestamp} {missing invalid : String},
      requireTimestamp t missing invalid = .ok () → ∃ u, t = some u ∧ u.check = .ok () := by
    intro t missing invalid ht
    rcases t with _ | u
    · cases ht
    · exact ⟨u, rfl, corruptUnless_eq_ok.1 ht⟩
  simp only [validateLatestWorkflowRunPointer, bind_eq_ok_unit] at h
  obtain ⟨-, -, -, -, hrecord, -, horder⟩ := h
  obtain ⟨recordTime, hrecordTime, hrecordCheck⟩ := hrequire hrecord
  obtain ⟨runOrderTime, hrunOrderTime, horderCheck⟩ := hrequire horder
  exact ⟨recordTime, runOrderTime, hrecordTime, hrecordCheck, hrunOrderTime, horderCheck⟩

theorem exec_latestPointerMoves (h : Intact wire b) (hkey : key.Valid)
    (recordTime runOrderTime : Int) :
    ∃ moves, b.exec (latestPointerMoves wire key.withDefaults recordTime runOrderTime) =
      (.ok moves, b) := by
  rw [latestPointerMoves, exec_bind, getLatestWorkflowRunPointer,
    latestWorkflowRunPointerPath_of_valid hkey,
    exec_getRecord (h.pointers key.withDefaults.ns key.withDefaults.workflowID)]
  rcases hlookup : b.objects.lookup (Address.latest key.withDefaults.ns
      key.withDefaults.workflowID).path with _ | data
  · rw [storedRecord_none hlookup]
    exact ⟨true, rfl⟩
  · obtain ⟨pointer, rfl, hvalid⟩ := h.pointers _ _ data hlookup
    obtain ⟨existingTime, existingOrder, htime, htimeCheck, horder, horderCheck⟩ :=
      times_of_validPointer hvalid
    rw [storedRecord_some hlookup]
    simp only [shouldReplaceLatestWorkflowRun, horder, horderCheck, htime, htimeCheck,
      exec_liftExcept]
    split
    · exact ⟨_, rfl⟩
    · exact ⟨_, rfl⟩

theorem exec_putLatestWorkflowRun (h : Holds wire b s) {record : WorkflowRecord}
    (hkey : (workflowKeyFromProto record.key).Valid)
    (hstatus : workflowStatusHasLatestPointer record.status = true)
    (hrecord : Timestamp.InRange recordTime) (horder : Timestamp.InRange runOrderTime) :
    ∃ b', b.exec (putLatestWorkflowRun wire record recordTime runOrderTime) = (.ok (), b') ∧
      Holds wire b' s := by
  obtain ⟨moves, hmoves⟩ := exec_latestPointerMoves h.intact hkey recordTime runOrderTime
  have hpath := latestWorkflowRunPointerPath_of_valid hkey
  simp only [putLatestWorkflowRun, exec_bind, hmoves]
  cases moves with
  | false => exact ⟨b, rfl, h⟩
  | true =>
    simp only [Bool.not_true, Bool.false_eq_true, if_false, exec_bind, exec_clock, hpath,
      exec_liftExcept, exec_createDir, exec_writeObject]
    exact ⟨_, rfl, h.writePointer
      (validate_newPointer hkey hstatus hrecord h.intact.clock horder) rfl rfl⟩

theorem refines_putWorkflow (h : Holds wire b s) (record : WorkflowRecord) :
    Refines wire b s (.putWorkflow record) := by
  intro fuel _
  rw [callCode]
  rcases hvalid : validateWorkflowRecord record (workflowKeyFromProto record.key) with err | u
  · have haccept : acceptWorkflow record = .error err := by
      rw [acceptWorkflow, hvalid]
      rfl
    have hexec : b.exec (putWorkflow wire record) = (.error err, b) := by
      simp [putWorkflow, exec_bind, hvalid]
    rw [Records.step_putWorkflow_error haccept, hexec]
    exact ⟨rfl, h⟩
  · rcases hcheck : checkPointerTimes record with err | u'
    · have haccept : acceptWorkflow record = .error err := by
        rw [acceptWorkflow, hvalid]
        exact hcheck
      have hexec : b.exec (putWorkflow wire record) = (.error err, b) := by
        simp [putWorkflow, exec_bind, hvalid, exec_latestPointerTimes, hcheck, Except.map]
      rw [Records.step_putWorkflow_error haccept, hexec]
      exact ⟨rfl, h⟩
    · have haccept : acceptWorkflow record = .ok () := bind_eq_ok_unit.2 ⟨hvalid, hcheck⟩
      obtain ⟨-, hkey, -, horder⟩ := validateWorkflowRecord_eq_ok.1 hvalid
      have hvalidStored := validate_of_acceptWorkflow haccept
      have hpath := WorkflowKey.path_of_valid hkey
      obtain ⟨dir, hdir⟩ := WorkflowKey.exists_dirPath hkey
      have hwritten : Holds wire { b with
          objects := b.objects.insert (workflowKeyFromProto record.key).withDefaults.location
            (wire.workflow.marshal record)
          directories := dir :: b.directories }
          (s.setWorkflow ((workflowKeyFromProto record.key).stored hkey).val record hvalidStored) :=
        h.writeWorkflow ((workflowKeyFromProto record.key).stored hkey) hvalidStored rfl rfl
      rw [Records.step_putWorkflow_ok haccept]
      simp only [putWorkflow, exec_bind, exec_liftExcept, hvalid, exec_latestPointerTimes, hcheck,
        Except.map, hpath, hdir, exec_createDir, exec_writeObject]
      rcases htimes : pointerTimes record b.time with _ | ⟨recordTime, runOrderTime⟩
      · exact ⟨rfl, hwritten⟩
      · obtain ⟨hstatus, hrecordTime, hrunOrder⟩ :=
          pointerTimes_inRange hcheck horder h.intact.clock htimes
        obtain ⟨b', hexec, hb'⟩ :=
          exec_putLatestWorkflowRun hwritten hkey hstatus hrecordTime hrunOrder
        dsimp only
        rw [hexec]
        exact ⟨rfl, hb'⟩

theorem refines (h : Holds wire b s) (op : StoreOp) : Refines wire b s op := by
  cases op with
  | getWorkflow key =>
    intro fuel _
    rw [callCode, exec_getWorkflow_key h]
    exact ⟨StoreOp.Agree.refl _ _, h⟩
  | putWorkflow record => exact refines_putWorkflow h record
  | deleteWorkflow key => exact refines_deleteWorkflow h key
  | get k key =>
    intro fuel _
    rw [exec_get h]
    exact ⟨StoreOp.Agree.refl _ _, h⟩
  | list k run filter =>
    intro fuel hfuel
    obtain ⟨r, hexec, hagree⟩ := exec_list h hfuel k run filter
    rw [hexec]
    exact ⟨hagree, h⟩
  | put k record =>
    by_cases hk : k = .timer
    · subst hk
      exact refines_putTimer h record
    · exact refines_putRecord h hk record
  | delete k key =>
    by_cases hk : k = .timer
    · subst hk
      exact refines_deleteTimer h key
    · exact refines_deleteRecord h hk key

theorem exists_lookup_eq {κ : Type} [DecidableEq κ] {β : κ → Type} (f : (key : κ) → Option (β key))
    (keys : List κ) (h : ∀ key, (f key).isSome → key ∈ keys) :
    ∃ m : AList β, ∀ key, m.lookup key = f key := by
  have hkeys : ∀ keys : List κ, ∃ m : AList β,
      ∀ key, m.lookup key = if key ∈ keys then f key else none := by
    intro keys
    induction keys with
    | nil => exact ⟨∅, fun key => by simp⟩
    | cons first rest ih =>
      obtain ⟨m, hm⟩ := ih
      rcases hfirst : f first with _ | value
      · refine ⟨m.erase first, fun key => ?_⟩
        by_cases hkey : key = first
        · subst hkey
          simp [AList.lookup_erase, hfirst]
        · simp [AList.lookup_erase_ne hkey, hm, hkey]
      · refine ⟨m.insert first value, fun key => ?_⟩
        by_cases hkey : key = first
        · subst hkey
          simp [AList.lookup_insert, hfirst]
        · simp [AList.lookup_insert_ne hkey, hm, hkey]
  obtain ⟨m, hm⟩ := hkeys keys
  refine ⟨m, fun key => ?_⟩
  rw [hm]
  split
  · rfl
  · next hnot =>
      rw [eq_comm, ← Option.not_isSome_iff_eq_none]
      exact fun hsome => hnot (h key hsome)

theorem exists_map {κ α : Type} [DecidableEq κ] {P : κ → Prop} (objects : Objects wire)
    (record : { key // P key } → Option α) (address : { key // P key } → Address)
    (hinj : Function.Injective address)
    (hrecord : ∀ key, (record key).isSome → (objects.lookup (address key).path).isSome) :
    ∃ m : AList fun _ : κ => α, (∀ key : { key // P key }, m.lookup key.val = record key) ∧
      ∀ key value, m.lookup key = some value → P key := by
  classical
  have hfinite : Set.Finite { key : { key // P key } | (record key).isSome } := by
    have hpaths := objects.keys.toFinset.finite_toSet
    refine (hpaths.preimage (f := fun key => (address key).path) ?_).subset ?_
    · intro key _ key' _ heq
      exact hinj (Address.path_injective heq)
    · intro key hkey
      exact List.mem_toFinset.2 (AList.lookup_isSome.1 (hrecord key hkey))
  obtain ⟨m, hm⟩ := exists_lookup_eq (β := fun _ => α)
    (fun key => if h : P key then record ⟨key, h⟩ else none)
    (hfinite.toFinset.toList.map Subtype.val) (by
      intro key hkey
      split at hkey
      · next h =>
          refine List.mem_map.2 ⟨⟨key, h⟩, ?_, rfl⟩
          rw [Finset.mem_toList, Set.Finite.mem_toFinset]
          exact hkey
      · cases hkey)
  refine ⟨m, ?_, ?_⟩
  · intro key
    rw [hm, dif_pos key.property]
  · intro key value hvalue
    rw [hm] at hvalue
    split at hvalue
    · assumption
    · cases hvalue

theorem isSome_of_itemRecord {key : RecordKey k.kind} (h : (itemRecord wire objects k key).isSome) :
    (objects.lookup (itemAddress k key).path).isSome := by
  rw [← Option.not_isNone, Bool.not_eq_true', ← Bool.not_eq_true, Option.isNone_iff_eq_none] at h ⊢
  intro hlookup
  apply h
  cases k with
  | activity | event => exact storedRecord_none hlookup
  | timer =>
    have hnone : storedRecord wire.due objects key.val.dueLocation = none := storedRecord_none hlookup
    rw [itemRecord, timerState, ledgerRecord, hnone]
    rfl

theorem stored_of_itemRecord (h : Tidy wire b.objects) {key : RecordKey k.kind}
    (hrecord : itemRecord wire b.objects k key = some record) :
    k.Stored key.val record := by
  by_cases hk : k = .timer
  · subst hk
    rw [itemRecord, timerState, Option.filter_eq_some_iff] at hrecord
    obtain ⟨hledger, hlive⟩ := hrecord
    have hprep := h.preparable_of_ledger hledger
    refine ⟨hprep.valid, key.property.2, ?_, ?_⟩
    · exact hprep.check_eq
    · simpa [StoreKind.cancels] using hlive
  · rw [itemRecord_eq hk] at hrecord
    obtain ⟨hcheck, hcancels⟩ := check_eq_ok hk record
    rcases hlookup : b.objects.lookup key.val.location with _ | data
    · rw [storedRecord_none hlookup] at hrecord
      cases hrecord
    · obtain ⟨record', rfl, hvalid⟩ := wellStored_item.1 (h.wellStored (a := .item k.kind key) hlookup)
      rw [storedRecord_some hlookup] at hrecord
      cases hrecord
      exact ⟨hvalid, key.property.2, hcheck, hcancels⟩

theorem exists_holds (h : Intact wire b) : ∃ s, Holds wire b s := by
  obtain ⟨workflows, hworkflows, hrun⟩ := exists_map b.objects
    (workflowRecord wire b.objects) Address.workflow (fun _ _ => Address.workflow.inj) (by
      intro key hkey
      rw [Option.isSome_iff_ne_none] at hkey ⊢
      exact fun hnone => hkey (storedRecord_none hnone))
  have hitems : ∀ k : StoreKind, ∃ m : AList fun _ : ItemKey k.kind => k.Record,
      (∀ key : RecordKey k.kind, m.lookup key.val = itemRecord wire b.objects k key) ∧
        ∀ key value, m.lookup key = some value → key.Valid ∧ key.ns ≠ "" := fun k =>
    exists_map b.objects (itemRecord wire b.objects k) (itemAddress k)
      (fun _ _ heq => eq_of_heq (itemAddress_inj heq).2) fun _ hkey => isSome_of_itemRecord hkey
  choose items hlookup hkeys using hitems
  refine ⟨⟨workflows, items, fun _ key => (b.objects.lookup key.location).isSome, ?_, ?_⟩, h, ?_,
    ?_, fun _ _ _ => rfl⟩
  · intro key record hrecord
    have hkey := hrun key record hrecord
    refine ⟨?_, hkey.2⟩
    have hstored := (hworkflows ⟨key, hkey⟩).symm.trans hrecord
    rcases hdata : b.objects.lookup key.location with _ | data
    · rw [workflowRecord, storedRecord_none hdata] at hstored
      cases hstored
    · obtain ⟨record', rfl, hvalid⟩ := h.tidy.wellStored (a := .workflow ⟨key, hkey⟩) hdata
      rw [workflowRecord, storedRecord_some hdata] at hstored
      cases hstored
      exact hvalid
  · intro k key record hrecord
    have hkey := hkeys k key record hrecord
    exact stored_of_itemRecord h.tidy ((hlookup k ⟨key, hkey⟩).symm.trans hrecord)
  · intro key
    rw [Records.workflow, key.withDefaults]
    exact hworkflows key
  · intro k key
    rw [Records.item, key.withDefaults]
    exact hlookup k key

/-- Calls of the store, each with the time at which it is made. -/
def bucketAfter (wire : Wire) (calls : List (Int × StoreOp)) (b : Bucket wire.Bytes) : Bucket wire.Bytes :=
  calls.foldl (fun b call => (({ b with time := call.1 } : Bucket wire.Bytes).exec (callCode wire b.walkFuel call.2)).2) b

/-- The abstract store after a list of calls. -/
def recordsAfter (calls : List (Int × StoreOp)) (s : Records) : Records :=
  calls.foldl (fun s call => (s.step call.2).2) s

theorem Holds.at_time (h : Holds wire b s) {time : Int} (htime : Timestamp.InRange time) :
    Holds wire { b with time := time } s :=
  ⟨⟨h.intact.tidy, h.intact.pointers, htime⟩, h.workflow, h.item, h.leftover⟩

theorem inRange_zero : Timestamp.InRange 0 := ⟨by decide, by decide⟩

theorem holds_empty {time : Int} (htime : Timestamp.InRange time) :
    Holds wire ⟨∅, [], time⟩ Records.empty := by
  refine ⟨⟨tidy_empty wire, ?_, htime⟩, fun _ => rfl, ?_, fun _ _ _ => rfl⟩
  · intro ns workflowID data hdata
    simp at hdata
  · intro k key
    cases k <;> rfl

theorem Holds.after (h : Holds wire b s) {calls : List (Int × StoreOp)}
    (hclock : ∀ call ∈ calls, Timestamp.InRange call.1) :
    Holds wire (bucketAfter wire calls b) (recordsAfter calls s) := by
  induction calls generalizing b s with
  | nil => exact h
  | cons call calls ih =>
    rw [List.forall_mem_cons] at hclock
    exact ih (refines (h.at_time hclock.1) call.2 _ le_rfl).2 hclock.2

/-- In every run of the store over a bucket that was empty, the next call, whatever it is, answers
as the maps of records do. A timer that was put as canceled is absent for every read and list, but
its record is left behind, and the first `DeleteTimer` after the put answers that it deleted it. -/
theorem store_refines_records (wire : Wire) {calls : List (Int × StoreOp)}
    (hclock : ∀ call ∈ calls, Timestamp.InRange call.1) {time : Int}
    (htime : Timestamp.InRange time) {fuel : Nat}
    (hfuel : (bucketAfter wire calls ⟨∅, [], 0⟩).walkFuel ≤ fuel) (op : StoreOp) :
    op.Agree (({ bucketAfter wire calls ⟨∅, [], 0⟩ with time := time } : Bucket wire.Bytes).exec
      (callCode wire fuel op)).1 ((recordsAfter calls .empty).step op).1 := by
  have hempty : Holds wire ⟨∅, [], 0⟩ Records.empty := holds_empty inRange_zero
  exact (refines ((hempty.after hclock).at_time htime) op fuel hfuel).1

def canceledNap : List (Int × StoreOp) :=
  [(0, .putWorkflow napWorkflow), (0, .put .timer napTimer),
    (0, .put .timer { napTimer with status := .canceled })]

theorem store_refines_records_nap :
    (recordsAfter canceledNap .empty).item .timer ⟨"", "wf", "run", "nap"⟩ = none ∧
      ((bucketAfter taggedWire canceledNap ⟨∅, [], 0⟩).exec
        (deleteTimer taggedWire ⟨"", "wf", "run", "nap"⟩)).1 = .ok true := by
  refine ⟨rfl, ?_⟩
  have hclock : ∀ call ∈ canceledNap, Timestamp.InRange call.1 := by
    simp [canceledNap, inRange_zero]
  have hagree := store_refines_records taggedWire hclock inRange_zero le_rfl
    (.delete .timer ⟨"", "wf", "run", "nap"⟩)
  exact hagree.eq nofun

end OpenDALStore

end Temporaless
