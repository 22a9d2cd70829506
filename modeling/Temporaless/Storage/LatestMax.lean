import Temporaless.Storage.LatestRace

/-!
# The pointer is the maximum of history

Whatever the other goroutines do, the holder of the mutex finds the pointer as it has read it, so a
pointer is only ever replaced by one that is not behind it. A lookup returns a pointer only if the
record it has just read agrees with it.
-/

namespace Temporaless.OpenDALStore

open PathTree Effects Function

variable {ns workflowID : String} {pointer : LatestWorkflowRunPointer}
  {wire : Wire} {ι : Type}

section Times

variable {record : WorkflowRecord}

theorem Dated.pointerTimes (h : Dated record) (now : Int) :
    pointerTimes record now = some (recordTime record, runOrder record) := by
  obtain ⟨hstatus, hcreated⟩ := h
  obtain ⟨created, hcreated⟩ := Option.isSome_iff_exists.1 hcreated
  rw [OpenDALStore.pointerTimes, if_pos hstatus, runOrder, recordTime]
  simp only [hcreated]
  rfl

theorem Dated.latestPointerTimes (h : Dated record) :
    latestPointerTimes wire record = (liftM ((checkPointerTimes record).map fun _ =>
      some (recordTime record, runOrder record)) : BucketM wire.Bytes (Option (Int × Int))) := by
  obtain ⟨hstatus, hcreated⟩ := h
  obtain ⟨created, hcreated⟩ := Option.isSome_iff_exists.1 hcreated
  obtain ⟨_, _, _, _, status, _, _, createdAt, completedAt, _, _⟩ := record
  obtain rfl : createdAt = some created := hcreated
  simp only [OpenDALStore.latestPointerTimes, checkPointerTimes, workflowStatusHasLatestPointer,
    workflowLatestPointerRecordTime, workflowCreatedTime]
  cases status with
  | unspecified => cases hstatus
  | inProgress =>
    dsimp only
    cases created.check <;> rfl
  | completed | failed =>
    rcases completedAt with _ | t
    · dsimp only
      cases created.check <;> rfl
    · dsimp only
      cases t.check <;> rfl

theorem ofWorkflow_iff : OfWorkflow ns workflowID record ↔
    ns = (workflowKeyFromProto record.key).withDefaults.ns ∧
      workflowID = (workflowKeyFromProto record.key).withDefaults.workflowID := by
  rw [WorkflowKey.withDefaults_workflowID]
  exact and_congr eq_comm eq_comm

def newPointer (record : WorkflowRecord) (updatedAt : Int) : LatestWorkflowRunPointer where
  key := some (workflowKeyFromProto record.key).withDefaults
  status := record.status
  recordTime := some (.new (recordTime record))
  updatedAt := some (.new updatedAt)
  runOrderTime := some (.new (runOrder record))

theorem pointerStamp_newPointer (record : WorkflowRecord) (updatedAt : Int) :
    pointerStamp (newPointer record updatedAt) = recordStamp record := by
  simp [pointerStamp, newPointer, recordStamp, timeOf]

theorem validate_newPointer_of_accept (haccept : acceptWorkflow record = .ok ())
    (hdated : Dated record) {updatedAt : Int} (hupdated : Timestamp.InRange updatedAt) :
    validateLatestWorkflowRunPointer (newPointer record updatedAt)
      (workflowKeyFromProto record.key).withDefaults.ns
      (workflowKeyFromProto record.key).withDefaults.workflowID = .ok () := by
  obtain ⟨hvalid, hcheck⟩ := bind_eq_ok_unit.1 haccept
  obtain ⟨-, hkey, -, horder⟩ := validateWorkflowRecord_eq_ok.1 hvalid
  obtain ⟨hstatus, hrecordTime, hrunOrder⟩ :=
    pointerTimes_inRange hcheck horder hupdated (hdated.pointerTimes updatedAt)
  exact validate_newPointer hkey hstatus hrecordTime hupdated hrunOrder

theorem shouldReplace_eq {existing : LatestWorkflowRunPointer}
    (h : validateLatestWorkflowRunPointer existing ns workflowID = .ok ()) :
    shouldReplaceLatestWorkflowRun existing (runOrder record) (recordTime record) =
      .ok (decide (pointerStamp existing ≤ recordStamp record)) := by
  obtain ⟨time, order, htime, htimeCheck, horder, horderCheck⟩ := times_of_validPointer h
  simp only [shouldReplaceLatestWorkflowRun, pointerStamp, recordStamp, horder, horderCheck, htime,
    htimeCheck, Prod.Lex.toLex_le_toLex, timeOf, Option.map_some, Option.getD_some]
  by_cases hsame : runOrder record = order.asTime
  · simp only [hsame, ne_eq, not_true_eq_false, if_false, lt_irrefl, true_and, false_or]
    rfl
  · simp only [hsame, ne_eq, not_false_eq_true, if_true, Ne.symm hsame, false_and, or_false]
    rfl

theorem persistedWorkflowRecordTime_eq {expected : Option Int}
    (h : persistedWorkflowRecordTime record = .ok expected) (hcreated : record.createdAt.isSome) :
    expected = some (recordTime record) := by
  obtain ⟨created, hcreated⟩ := Option.isSome_iff_exists.1 hcreated
  have hcheck : ∀ {t : Timestamp} {text : String},
      ((corruptUnless t.check text).map fun _ => some t.asTime) = .ok expected →
      expected = some t.asTime := by
    intro t text ht
    rcases hok : corruptUnless t.check text with err | u
    · rw [hok] at ht
      cases ht
    · rw [hok] at ht
      exact (Except.ok.inj ht).symm
  obtain ⟨_, _, _, _, status, _, _, createdAt, completedAt, _, _⟩ := record
  obtain rfl : createdAt = some created := hcreated
  cases status with
  | unspecified | inProgress => exact hcheck h
  | completed | failed =>
    rcases completedAt with _ | t
    · exact hcheck h
    · exact hcheck h

private theorem throwIf_eq_ok {α : Type} {p : Prop} [Decidable p] {err : Err} {rest : Except Err α}
    {a : α} (h : (if p then throw err else rest) = .ok a) : ¬ p ∧ rest = .ok a := by
  by_cases hp : p
  · rw [if_pos hp] at h
    cases h
  · rw [if_neg hp] at h
    exact ⟨hp, h⟩

theorem agrees_of_reference (h : validateLatestWorkflowRunReference pointer record = .ok ())
    (hcreated : record.createdAt.isSome) :
    pointer.status = record.status ∧ timeOf pointer.recordTime = recordTime record ∧
      timeOf pointer.runOrderTime = runOrder record := by
  rw [validateLatestWorkflowRunReference, bind_eq_ok_unit] at h
  obtain ⟨hstatus, h⟩ := throwIf_eq_ok h.2
  rcases hexpected : persistedWorkflowRecordTime record with err | expected
  · rw [hexpected] at h
    cases h
  · obtain rfl := persistedWorkflowRecordTime_eq hexpected hcreated
    rw [hexpected] at h
    obtain ⟨htime, h⟩ := throwIf_eq_ok h
    obtain ⟨horder, -⟩ := throwIf_eq_ok (bind_eq_ok_unit.1 h).2
    exact ⟨of_not_not hstatus, of_not_not htime, of_not_not horder⟩

end Times

namespace RunStore

/-- The put that the pointer of a workflow comes from: it has succeeded or is under way, unless
some call has crashed. -/
def Origin (s : RunStore wire ι) (ns workflowID : String) (pointer : LatestWorkflowRunPointer) :
    Prop :=
  s.crashed = true ∨ ∃ record, (record ∈ s.recorded ∨ ∃ i, s.puts i = some record) ∧
    acceptWorkflow record = .ok () ∧ OfWorkflow ns workflowID record ∧
    recordStamp record = pointerStamp pointer

/-- The pointer of the workflow of a record is not behind the record. -/
def Covers (s : RunStore wire ι) (record : WorkflowRecord) : Prop :=
  ∀ ns workflowID, OfWorkflow ns workflowID record →
    ∃ pointer, pointerAt s.bucket ns workflowID = some pointer ∧
      recordStamp record ≤ pointerStamp pointer

/-- Pointers and records are well formed, and no pointer is behind a recorded run. -/
structure Sound (s : RunStore wire ι) : Prop where
  pointers : ∀ ns workflowID data,
    s.bucket.objects.lookup (Address.latest ns workflowID).path = some data →
      ∃ pointer, data = wire.latest.marshal pointer ∧
        validateLatestWorkflowRunPointer pointer ns workflowID = .ok () ∧
        s.Origin ns workflowID pointer
  recorded : ∀ record ∈ s.recorded, s.Covers record
  records : ∀ (key : RunKey) data, s.bucket.objects.lookup key.val.location = some data →
    ∃ record, data = wire.workflow.marshal record ∧
      validateWorkflowRecord record key.val = .ok () ∧ record.createdAt.isSome

/-- A pointer, once there, only moves to later runs. -/
def Grows (s s' : RunStore wire ι) : Prop :=
  ∀ ns workflowID pointer, pointerAt s.bucket ns workflowID = some pointer →
    ∃ pointer', pointerAt s'.bucket ns workflowID = some pointer' ∧
      pointerStamp pointer ≤ pointerStamp pointer'

/-- What the steps of the other goroutines leave to goroutine `i`. -/
structure Rely (i : ι) (s s' : RunStore wire ι) : Prop where
  grows : Grows s s'
  holder : s.holder = some i → s'.holder = some i
  latest : s.holder = some i → ∀ ns workflowID,
    s'.bucket.objects.lookup (Address.latest ns workflowID).path =
      s.bucket.objects.lookup (Address.latest ns workflowID).path
  puts : s'.puts i = s.puts i
  seen : s'.seen i = s.seen i

/-- A step of goroutine `i` that the others can live with. -/
structure Keeps (i : ι) (s s' : RunStore wire ι) : Prop where
  sound : Sound s'
  grows : Grows s s'
  rely : ∀ j, j ≠ i → Rely j s s'

variable {i : ι} {s s' s'' : RunStore wire ι}

theorem Grows.of_latest (h : ∀ ns workflowID,
    s'.bucket.objects.lookup (Address.latest ns workflowID).path =
      s.bucket.objects.lookup (Address.latest ns workflowID).path) : Grows s s' := by
  intro ns workflowID pointer hpointer
  refine ⟨pointer, ?_, le_refl _⟩
  rw [pointerAt, storedRecord, h ns workflowID]
  exact hpointer

theorem Grows.trans (h : Grows s s') (h' : Grows s' s'') : Grows s s'' := by
  intro ns workflowID pointer hpointer
  obtain ⟨pointer', hpointer', hle⟩ := h ns workflowID pointer hpointer
  obtain ⟨pointer'', hpointer'', hle'⟩ := h' ns workflowID pointer' hpointer'
  exact ⟨pointer'', hpointer'', hle.trans hle'⟩

theorem Covers.grows {record : WorkflowRecord} (h : s.Covers record) (hgrows : Grows s s') :
    s'.Covers record := by
  intro ns workflowID hof
  obtain ⟨pointer, hpointer, hle⟩ := h ns workflowID hof
  obtain ⟨pointer', hpointer', hle'⟩ := hgrows ns workflowID pointer hpointer
  exact ⟨pointer', hpointer', hle.trans hle'⟩

theorem Rely.trans (h : Rely i s s') (h' : Rely i s' s'') : Rely i s s'' := by
  refine ⟨h.grows.trans h'.grows, fun hi => h'.holder (h.holder hi), ?_, h'.puts.trans h.puts,
    h'.seen.trans h.seen⟩
  intro hi ns workflowID
  exact (h'.latest (h.holder hi) ns workflowID).trans (h.latest hi ns workflowID)

/-- A step of goroutine `i` after which only the records, the directories, the clock and what the
goroutine has seen may differ. -/
structure Quiet (i : ι) (s s' : RunStore wire ι) : Prop where
  latest : ∀ ns workflowID, s'.bucket.objects.lookup (Address.latest ns workflowID).path =
    s.bucket.objects.lookup (Address.latest ns workflowID).path
  holder : s'.holder = s.holder
  puts : s'.puts = s.puts
  recorded : s'.recorded = s.recorded
  crashed : s'.crashed = s.crashed
  seen : ∀ j, j ≠ i → s'.seen j = s.seen j

variable {op : BucketOp wire.Bytes} {path : Path} {Q : Except Err Unit → RunStore wire ι → Prop}
  {reply : RunReply}

theorem Quiet.keeps (h : Quiet i s s') (hs : Sound s)
    (hrecords : ∀ (key : RunKey) data, s'.bucket.objects.lookup key.val.location = some data →
      ∃ record, data = wire.workflow.marshal record ∧
        validateWorkflowRecord record key.val = .ok () ∧ record.createdAt.isSome) :
    Keeps i s s' := by
  have hgrows : Grows s s' := .of_latest h.latest
  refine ⟨⟨?_, ?_, hrecords⟩, hgrows, ?_⟩
  · intro ns workflowID data hlookup
    rw [h.latest] at hlookup
    obtain ⟨pointer, hdata, hvalid, horigin⟩ := hs.pointers ns workflowID data hlookup
    refine ⟨pointer, hdata, hvalid, ?_⟩
    rw [Origin, h.crashed, h.recorded, h.puts]
    exact horigin
  · intro record hrecord
    rw [h.recorded] at hrecord
    exact (hs.recorded record hrecord).grows hgrows
  · intro j hj
    exact ⟨hgrows, fun hholder => by rw [h.holder, hholder], fun _ => h.latest, by rw [h.puts],
      h.seen j hj⟩

section Operate

variable [DecidableEq ι] {time : Int}

theorem quiet_operate (h : ∀ ns workflowID,
      (s.operate i time op).bucket.objects.lookup (Address.latest ns workflowID).path =
        s.bucket.objects.lookup (Address.latest ns workflowID).path) :
    Quiet i s (s.operate i time op) :=
  ⟨h, rfl, rfl, rfl, rfl, fun _ hj => update_of_ne hj _ _⟩

theorem seen_operate (op : BucketOp wire.Bytes) : (s.operate i time op).seen i = s.bucket := by
  simp [operate]

theorem operate_reads (hop : Reads op) :
    (s.operate i time op).bucket.objects = s.bucket.objects := by
  rw [operate, step_reads op hop]

theorem keeps_reads (hs : Sound s) (hop : Reads op) : Keeps i s (s.operate i time op) := by
  apply (quiet_operate _).keeps hs
  · rw [operate_reads hop]
    exact hs.records
  · intro ns workflowID
    rw [operate_reads hop]

theorem keeps_createDir (hs : Sound s) (dir : Path) :
    Keeps i s (s.operate i time (.createDir dir)) :=
  (quiet_operate fun _ _ => rfl).keeps hs hs.records

theorem keeps_writeRecord (hs : Sound s) (run : RunKey) {record : WorkflowRecord}
    (hvalid : validateWorkflowRecord record run.val = .ok ()) (hcreated : record.createdAt.isSome) :
    Keeps i s (s.operate i time
      (.write run.val.location (wire.workflow.marshal record))) := by
  apply (quiet_operate _).keeps hs
  · intro key data hlookup
    by_cases hkey : key = run
    · subst hkey
      rw [show (s.operate i time (.write key.val.location (wire.workflow.marshal record))).bucket.objects =
        s.bucket.objects.insert key.val.location (wire.workflow.marshal record) from rfl,
        AList.lookup_insert] at hlookup
      exact ⟨record, (Option.some.inj hlookup).symm, hvalid, hcreated⟩
    · have hne : Address.workflow key ≠ .workflow run := fun h => hkey (Address.workflow.inj h)
      apply hs.records key data
      rw [← hlookup]
      exact (lookup_insert_address hne (wire.workflow.marshal record)).symm
  · intro ns workflowID
    have hne : Address.latest ns workflowID ≠ .workflow run := by simp
    exact lookup_insert_address hne (wire.workflow.marshal record)

theorem keeps_deleteRecord (hs : Sound s) (run : RunKey) :
    Keeps i s (s.operate i time (.delete run.val.location)) := by
  have hobjects : ∀ a : Address, a ≠ .workflow run →
      (s.operate i time (.delete run.val.location)).bucket.objects.lookup a.path =
        s.bucket.objects.lookup a.path := by
    intro a ha
    simp only [operate, Bucket.step]
    split
    · exact lookup_erase_address ha
    · rfl
  apply (quiet_operate fun ns workflowID => hobjects _ (by simp)).keeps hs
  intro key data hlookup
  by_cases hkey : key = run
  · subst hkey
    exfalso
    simp only [operate, Bucket.step] at hlookup
    split at hlookup
    · rw [AList.lookup_erase] at hlookup
      cases hlookup
    · next hnone =>
        have hnone : s.bucket.objects.lookup key.val.location = none := hnone
        rw [hnone] at hlookup
        cases hlookup
  · have hne : Address.workflow key ≠ .workflow run := fun h => hkey (Address.workflow.inj h)
    apply hs.records key data
    rw [← hlookup]
    exact (hobjects _ hne).symm

theorem pointerAt_writePointer (ns workflowID ns' workflowID' : String)
    (pointer : LatestWorkflowRunPointer) :
    pointerAt (s.operate i time
      (.write (Address.latest ns workflowID).path (wire.latest.marshal pointer))).bucket ns' workflowID' =
      if ns' = ns ∧ workflowID' = workflowID then some pointer
      else pointerAt s.bucket ns' workflowID' := by
  split
  · next h =>
      obtain ⟨rfl, rfl⟩ := h
      exact storedRecord_some (AList.lookup_insert _)
  · next h =>
      have hne : Address.latest ns' workflowID' ≠ .latest ns workflowID := by
        intro heq
        exact h (Address.latest.inj heq)
      exact storedRecord_insert_ne wire.latest hne _

theorem keeps_writePointer (hs : Sound s) (hholder : s.holder = some i)
    (hvalid : validateLatestWorkflowRunPointer pointer ns workflowID = .ok ())
    (horigin : s.Origin ns workflowID pointer)
    (hle : ∀ existing, pointerAt s.bucket ns workflowID = some existing →
      pointerStamp existing ≤ pointerStamp pointer) :
    Keeps i s (s.operate i time
      (.write (Address.latest ns workflowID).path (wire.latest.marshal pointer))) := by
  have hgrows : Grows s (s.operate i time
      (.write (Address.latest ns workflowID).path (wire.latest.marshal pointer))) := by
    intro ns' workflowID' existing hexisting
    rw [pointerAt_writePointer]
    split
    · next h =>
        obtain ⟨rfl, rfl⟩ := h
        exact ⟨pointer, rfl, hle existing hexisting⟩
    · exact ⟨existing, hexisting, le_refl _⟩
  refine ⟨⟨?_, ?_, ?_⟩, hgrows, ?_⟩
  · intro ns' workflowID' data hlookup
    by_cases h : Address.latest ns' workflowID' = .latest ns workflowID
    · obtain ⟨rfl, rfl⟩ := Address.latest.inj h
      have hdata := Option.some.inj ((AList.lookup_insert _).symm.trans hlookup)
      exact ⟨pointer, hdata.symm, hvalid, horigin⟩
    · apply hs.pointers ns' workflowID' data
      rw [← hlookup]
      exact (lookup_insert_address h (wire.latest.marshal pointer)).symm
  · intro record hrecord
    exact (hs.recorded record hrecord).grows hgrows
  · intro key data hlookup
    have hne : Address.workflow key ≠ .latest ns workflowID := by simp
    apply hs.records key data
    rw [← hlookup]
    exact (lookup_insert_address hne (wire.latest.marshal pointer)).symm
  · intro j hj
    have hother : s.holder ≠ some j := by
      rw [hholder]
      exact fun h => hj (Option.some.inj h).symm
    exact ⟨hgrows, fun h => absurd h hother, fun h => absurd h hother, rfl,
      update_of_ne hj _ _⟩

end Operate

theorem keeps_of_bucket (hs : Sound s) (hbucket : s'.bucket = s.bucket) (hseen : s'.seen = s.seen)
    (horigin : ∀ ns workflowID pointer, s.Origin ns workflowID pointer →
      s'.Origin ns workflowID pointer) (hrecorded : ∀ record ∈ s'.recorded, s.Covers record)
    (hputs : ∀ j, j ≠ i → s'.puts j = s.puts j)
    (hholder : ∀ j, j ≠ i → s.holder = some j → s'.holder = some j) : Keeps i s s' := by
  have hgrows : Grows s s' := .of_latest fun _ _ => by rw [hbucket]
  refine ⟨⟨?_, ?_, ?_⟩, hgrows, ?_⟩
  · rw [hbucket]
    intro ns workflowID data hlookup
    obtain ⟨pointer, hdata, hvalid, hpointer⟩ := hs.pointers ns workflowID data hlookup
    exact ⟨pointer, hdata, hvalid, horigin ns workflowID pointer hpointer⟩
  · intro record hrecord
    exact (hrecorded record hrecord).grows hgrows
  · rw [hbucket]
    exact hs.records
  · intro j hj
    exact ⟨hgrows, hholder j hj, fun _ _ _ => by rw [hbucket], hputs j hj, by rw [hseen]⟩

theorem Keeps.refl (hs : Sound s) : Keeps i s s :=
  keeps_of_bucket hs rfl rfl (fun _ _ _ h => h) hs.recorded (fun _ _ => rfl) fun _ _ h => h

theorem keeps_lock (hs : Sound s) (hholder : s.holder = none) :
    Keeps i s { s with holder := some i } := by
  refine keeps_of_bucket hs rfl rfl (fun _ _ _ h => h) hs.recorded (fun _ _ => rfl) ?_
  intro j _ hj
  rw [hholder] at hj
  cases hj

theorem keeps_unlock (hs : Sound s) (hholder : s.holder = some i) :
    Keeps i s { s with holder := none } := by
  refine keeps_of_bucket hs rfl rfl (fun _ _ _ h => h) hs.recorded (fun _ _ => rfl) ?_
  intro j hne hj
  rw [hholder] at hj
  exact absurd (Option.some.inj hj).symm hne

section Amid

def Stable (i : ι) (P : RunStore wire ι → Prop) : Prop := ∀ s s', P s → Rely i s s' → P s'

theorem stable_puts (put : Option WorkflowRecord) :
    Stable i fun s : RunStore wire ι => s.puts i = put := by
  intro s s' hs hrely
  rw [hrely.puts]
  exact hs

def pointerPath (record : WorkflowRecord) : Path :=
  (Address.latest (workflowKeyFromProto record.key).withDefaults.ns
    (workflowKeyFromProto record.key).withDefaults.workflowID).path

theorem pointerPath_eq_ok {record : WorkflowRecord} (h : (workflowKeyFromProto record.key).Valid) :
    latestWorkflowRunPointerPath (workflowKeyFromProto record.key).withDefaults.ns
      (workflowKeyFromProto record.key).withDefaults.workflowID = .ok (pointerPath record) :=
  latestWorkflowRunPointerPath_of_valid h

/-- Goroutine `i` moves the pointer for a record and holds the mutex. -/
structure Section (i : ι) (record : WorkflowRecord) (existing : Option LatestWorkflowRunPointer)
    (s : RunStore wire ι) : Prop where
  puts : s.puts i = some record
  holder : s.holder = some i
  latest : s.bucket.objects.lookup (pointerPath record) = existing.map wire.latest.marshal
  valid : ∀ pointer, existing = some pointer →
    validateLatestWorkflowRunPointer pointer (workflowKeyFromProto record.key).withDefaults.ns
      (workflowKeyFromProto record.key).withDefaults.workflowID = .ok ()

theorem stable_section (record : WorkflowRecord) (existing : Option LatestWorkflowRunPointer) :
    Stable i fun s : RunStore wire ι => s.Section i record existing := by
  intro s s' hs hrely
  refine ⟨hrely.puts.trans hs.puts, hrely.holder hs.holder, ?_, hs.valid⟩
  rw [pointerPath, hrely.latest hs.holder]
  exact hs.latest

theorem Section.pointerAt {record : WorkflowRecord} {existing : Option LatestWorkflowRunPointer}
    (h : Section i record existing s) :
    pointerAt s.bucket (workflowKeyFromProto record.key).withDefaults.ns
      (workflowKeyFromProto record.key).withDefaults.workflowID = existing := by
  cases existing with
  | none => exact storedRecord_none h.latest
  | some pointer => exact storedRecord_some h.latest

theorem Section.covers {record : WorkflowRecord}
    (h : Section i record (some pointer) s) (hle : recordStamp record ≤ pointerStamp pointer) :
    Covers s record := by
  intro ns workflowID hof
  obtain ⟨rfl, rfl⟩ := ofWorkflow_iff.1 hof
  exact ⟨pointer, h.pointerAt, hle⟩

variable [DecidableEq ι]

def amid (i : ι) : CallSpec (guardedSignature wire.Bytes) (RunStore wire ι) :=
  .amid Sound (fun s s' => s = s' ∨ Rely i s s') ((latestRace wire ι).acts i) fun s _ _ s' =>
    Keeps i s s'

def amidBucket (i : ι) : CallSpec (bucketSignature wire.Bytes) (RunStore wire ι) :=
  Program.restrict (amid i) .bucket fun _ r => r

variable {P : RunStore wire ι → Prop}

theorem pre_stable {op : GuardedOp wire.Bytes} {Q : op.Reply → RunStore wire ι → Prop}
    (hstable : Stable i P) (hs : P s)
    (h : ∀ s r s', P s → Sound s → s.act i op r s' → Keeps i s s' ∧ Q r s') :
    (amid i).pre op Q s := by
  intro s₁ hrely hsound r s' hact
  apply h s₁ r s' _ hsound hact
  rcases hrely with rfl | hrely
  · exact hs
  · exact hstable s s₁ hs hrely

theorem preBucket {Q : op.Reply → RunStore wire ι → Prop} (hstable : Stable i P) (hs : P s)
    (h : ∀ s time, P s → Sound s → Timestamp.InRange time → Keeps i s (s.operate i time op) ∧
      Q ({ s.bucket with time := time }.step op).1 (s.operate i time op)) :
    (amidBucket i).pre op Q s := by
  have hact : ∀ s r s', P s → Sound s → s.act i (.bucket op) r s' → Keeps i s s' ∧ Q r s' := by
    intro s r s' hP hsound hact
    obtain ⟨time, htime, rfl, rfl⟩ := hact
    exact h s time hP hsound htime
  exact pre_stable hstable hs hact

theorem preBucket_reads {Q : op.Reply → RunStore wire ι → Prop}
    (hop : Reads op) (hstable : Stable i P) (hs : P s)
    (h : ∀ s time, P s → Sound s → Timestamp.InRange time →
      Q ({ s.bucket with time := time }.step op).1 (s.operate i time op)) :
    (amidBucket i).pre op Q s := by
  apply preBucket hstable hs
  intro s time hP hsound htime
  exact ⟨keeps_reads hsound hop, h s time hP hsound htime⟩

theorem ends_isExist_amid {Q : Except Err Bool → RunStore wire ι → Prop}
    (hstable : Stable i P) (hs : P s)
    (h : ∀ s time, P s → Sound s → Q (.ok (s.bucket.objects.lookup path).isSome)
      (s.operate i time (.isExist path))) : ends (amidBucket i) (isExist path) Q s := by
  rw [ends_isExist]
  refine preBucket_reads True.intro hstable hs ?_
  intro s time hP hsound _
  exact h s time hP hsound

theorem ends_readObject_amid {Q : Except Err wire.Bytes → RunStore wire ι → Prop}
    (hstable : Stable i P) (hs : P s)
    (hsome : ∀ s time data, P s → Sound s → s.bucket.objects.lookup path = some data →
      Q (.ok data) (s.operate i time (.read path)))
    (hnone : ∀ s time, P s → s.bucket.objects.lookup path = none →
      Q (.error (notFoundError path)) (s.operate i time (.read path))) :
    ends (amidBucket i) (readObject path) Q s := by
  rw [ends_readObject]
  refine preBucket_reads True.intro hstable hs ?_
  intro s time hP hsound _
  simp only [Bucket.step]
  rcases hlookup : s.bucket.objects.lookup path with _ | data
  · exact hnone s time hP hlookup
  · exact hsome s time data hP hsound hlookup

theorem ends_clock_amid {Q : Except Err Int → RunStore wire ι → Prop}
    (hstable : Stable i P) (hs : P s)
    (h : ∀ s time, P s → Timestamp.InRange time → Q (.ok time) (s.operate i time .now)) :
    ends (amidBucket i) clock Q s := by
  rw [clock, ends_mk]
  refine preBucket_reads True.intro hstable hs ?_
  intro s time hP _ htime
  exact h s time hP htime

theorem ends_createDir_amid {dir : Path} (hstable : Stable i P) (hs : P s)
    (h : ∀ s time, P s → Q (.ok ()) (s.operate i time (.createDir dir))) :
    ends (amidBucket i) (createDir dir) Q s := by
  rw [ends_createDir]
  apply preBucket hstable hs
  intro s time hP hsound _
  exact ⟨keeps_createDir hsound dir, h s time hP⟩

theorem ends_writeObject_amid {data : wire.Bytes} (hstable : Stable i P) (hs : P s)
    (h : ∀ s time, P s → Sound s → Keeps i s (s.operate i time (.write path data)) ∧
      Q (.ok ()) (s.operate i time (.write path data))) :
    ends (amidBucket i) (writeObject path data) Q s := by
  rw [ends_writeObject]
  apply preBucket hstable hs
  intro s time hP hsound _
  exact h s time hP hsound

variable {record : WorkflowRecord} {existing : Option LatestWorkflowRunPointer}

theorem Section.operate (h : Section i record existing s) (time : Int) (op : BucketOp wire.Bytes)
    (hobjects : (s.operate i time op).bucket.objects = s.bucket.objects) :
    Section i record existing (s.operate i time op) := by
  refine ⟨h.puts, h.holder, ?_, h.valid⟩
  rw [hobjects]
  exact h.latest

theorem ends_getPointer_section (hs : Section i record existing s)
    (hkey : (workflowKeyFromProto record.key).Valid) :
    ends (amidBucket i) (getLatestWorkflowRunPointer wire
        (workflowKeyFromProto record.key).withDefaults.ns
        (workflowKeyFromProto record.key).withDefaults.workflowID)
      (fun r s' => r = .ok existing ∧ Section i record existing s') s := by
  rw [getLatestWorkflowRunPointer, pointerPath_eq_ok hkey, getRecord, liftOk_bind, ends_bind]
  apply ends_isExist_amid (stable_section record existing) hs
  intro s time hs _
  dsimp only
  rw [hs.latest]
  have hasked := hs.operate time (.isExist (pointerPath record)) rfl
  cases existing with
  | none => exact ends_pure.2 ⟨rfl, hasked⟩
  | some pointer =>
    simp only [Option.map_some, Option.isSome_some, Bool.not_true, Bool.false_eq_true, if_false]
    rw [ends_bind]
    apply ends_readObject_amid (stable_section record (some pointer)) hasked
    · intro s time data hs _ hlookup
      obtain rfl := Option.some.inj (hs.latest.symm.trans hlookup)
      have hread := hs.operate time (.read (pointerPath record)) (operate_reads True.intro)
      simp only [wire.latest.unmarshal_marshal, hs.valid pointer rfl]
      exact ends_pure.2 ⟨rfl, hread⟩
    · intro s time hs hlookup
      rw [hs.latest] at hlookup
      cases hlookup

theorem Section.write (h : Section i record existing s) (hs : Sound s)
    (haccept : acceptWorkflow record = .ok ()) (hdated : Dated record) (time : Int)
    {updatedAt : Int} (hupdated : Timestamp.InRange updatedAt)
    (hle : ∀ pointer, existing = some pointer → pointerStamp pointer ≤ recordStamp record) :
    Keeps i s (s.operate i time
      (.write (pointerPath record) (wire.latest.marshal (newPointer record updatedAt)))) ∧
      Covers (s.operate i time
        (.write (pointerPath record) (wire.latest.marshal (newPointer record updatedAt)))) record := by
  constructor
  · apply keeps_writePointer hs h.holder (validate_newPointer_of_accept haccept hdated hupdated)
    · exact .inr ⟨record, .inr ⟨i, h.puts⟩, haccept, ofWorkflow_iff.2 ⟨rfl, rfl⟩,
        (pointerStamp_newPointer record updatedAt).symm⟩
    · intro pointer hpointer
      rw [pointerStamp_newPointer]
      exact hle pointer (h.pointerAt.symm.trans hpointer)
  · intro ns workflowID hof
    refine ⟨newPointer record updatedAt, ?_, ?_⟩
    · rw [pointerPath, pointerAt_writePointer, if_pos (ofWorkflow_iff.1 hof)]
    · rw [pointerStamp_newPointer]

theorem ends_latestPointerMoves (hs : Section i record existing s)
    (hkey : (workflowKeyFromProto record.key).Valid) :
    ends (amidBucket i) (latestPointerMoves wire
        (workflowKeyFromProto record.key).withDefaults (recordTime record) (runOrder record))
      (fun r s' => Section i record existing s' ∧ ∃ moves, r = .ok moves ∧
        (moves = true ↔ ∀ pointer, existing = some pointer →
          pointerStamp pointer ≤ recordStamp record)) s := by
  rw [latestPointerMoves, ends_bind]
  refine (ends_getPointer_section hs hkey).mono ?_
  rintro r s ⟨rfl, hs⟩
  cases existing with
  | none => exact ends_pure.2 ⟨hs, true, rfl, by simp⟩
  | some pointer =>
    dsimp only
    rw [shouldReplace_eq (hs.valid pointer rfl), ends_liftExcept]
    exact ⟨hs, _, rfl, by simp⟩

theorem ends_putLatestWorkflowRun (hs : Section i record existing s)
    (haccept : acceptWorkflow record = .ok ()) (hdated : Dated record) :
    ends (amidBucket i)
      (putLatestWorkflowRun wire record (recordTime record) (runOrder record))
      (fun r s' => r = .ok () ∧ s'.puts i = some record ∧ s'.holder = some i ∧ s'.Covers record)
      s := by
  obtain ⟨-, hkey, -⟩ := validateWorkflowRecord_eq_ok.1 (bind_eq_ok_unit.1 haccept).1
  have hstable : Stable i fun s : RunStore wire ι => s.Section i record existing :=
    stable_section record existing
  rw [putLatestWorkflowRun, ends_bind]
  refine (ends_latestPointerMoves hs hkey).mono ?_
  rintro r s ⟨hs, moves, rfl, hmoves⟩
  cases moves with
  | false =>
    cases existing with
    | none => simp at hmoves
    | some pointer =>
      have hahead : ¬ pointerStamp pointer ≤ recordStamp record := by simpa using hmoves
      exact ends_pure.2 ⟨rfl, hs.puts, hs.holder, hs.covers (le_of_not_ge hahead)⟩
  | true =>
    have hle := hmoves.1 rfl
    dsimp only
    simp only [Bool.not_true, Bool.false_eq_true, if_false]
    rw [ends_bind]
    apply ends_clock_amid hstable hs
    intro s updatedAt hs hupdated
    replace hs := hs.operate updatedAt .now rfl
    dsimp only
    rw [pointerPath_eq_ok hkey, liftOk_bind, ends_bind]
    apply ends_createDir_amid hstable hs
    intro s time hs
    replace hs := hs.operate time (.createDir (pointerPath record).dropLast) rfl
    apply ends_writeObject_amid hstable hs
    intro s time hs hsound
    obtain ⟨hkeeps, hcovers⟩ := hs.write hsound haccept hdated time hupdated hle
    exact ⟨hkeeps, rfl, hs.puts, hs.holder, hcovers⟩

theorem ends_onBucket {α : Type} {code : BucketM wire.Bytes α}
    {Q : Except Err α → RunStore wire ι → Prop} :
    ends (amid i) (onBucket code) Q s ↔ ends (amidBucket i) code Q s :=
  ends_hoist

def PutDone (i : ι) (record : WorkflowRecord) (s : RunStore wire ι) : Prop :=
  s.puts i = some record ∧ s.Covers record

omit [DecidableEq ι] in
theorem stable_putDone (record : WorkflowRecord) :
    Stable i fun s : RunStore wire ι => s.PutDone i record := by
  intro s s' hs hrely
  exact ⟨hrely.puts.trans hs.1, hs.2.grows hrely.grows⟩

omit [DecidableEq ι] in
theorem Sound.section (hs : Sound s) (hputs : s.puts i = some record) (hholder : s.holder = some i) :
    ∃ existing, Section i record existing s := by
  rcases hlookup : s.bucket.objects.lookup (pointerPath record) with _ | data
  · exact ⟨none, hputs, hholder, hlookup, by simp⟩
  · obtain ⟨pointer, rfl, hvalid, -⟩ := hs.pointers _ _ data hlookup
    refine ⟨some pointer, hputs, hholder, hlookup, ?_⟩
    rintro _ ⟨⟩
    exact hvalid

theorem ends_lockPointer (hs : s.puts i = some record)
    (h : ∀ s, Sound s → s.puts i = some record → s.holder = some i → Q (.ok ()) s) :
    ends (amid i) lockPointer Q s := by
  rw [lockPointer, ends_mk, Program.wp_call]
  apply pre_stable (stable_puts (some record)) hs
  rintro s r s' hputs hsound ⟨hholder, rfl⟩
  have hkeeps : Keeps i s { s with holder := some i } := keeps_lock hsound hholder
  exact ⟨hkeeps, h _ hkeeps.sound hputs rfl⟩

theorem ends_unlockPointer (hs : s.PutDone i record) (hholder : s.holder = some i)
    (h : ∀ s, s.PutDone i record → Q (.ok ()) s) : ends (amid i) unlockPointer Q s := by
  have hstable : Stable i fun s : RunStore wire ι => s.PutDone i record ∧ s.holder = some i := by
    intro s s' hs hrely
    exact ⟨stable_putDone record s s' hs.1 hrely, hrely.holder hs.2⟩
  rw [unlockPointer, ends_mk, Program.wp_call]
  apply pre_stable hstable ⟨hs, hholder⟩
  rintro s r s' ⟨hdone, hholder⟩ hsound ⟨-, rfl⟩
  exact ⟨keeps_unlock hsound hholder, h _ hdone⟩

theorem ends_holdingPointer (hs : s.puts i = some record) (haccept : acceptWorkflow record = .ok ())
    (hdated : Dated record) :
    ends (amid i)
      (holdingPointer (movePointer wire record (some (recordTime record, runOrder record))))
      (fun r s' => r = .ok () ∧ s'.PutDone i record) s := by
  rw [holdingPointer, ends_bind]
  apply ends_lockPointer hs
  intro s hsound hputs hholder
  obtain ⟨existing, hsection⟩ := hsound.section hputs hholder
  dsimp only
  rw [ends_bind, ends_attempt, ends_onBucket, movePointer]
  refine (ends_putLatestWorkflowRun hsection haccept hdated).mono ?_
  rintro r s ⟨rfl, hputs, hholder, hcovers⟩
  dsimp only
  rw [ends_bind]
  apply ends_unlockPointer ⟨hputs, hcovers⟩ hholder
  intro s hdone
  exact ends_liftExcept.2 ⟨rfl, hdone⟩

theorem ends_putWorkflowRecord (hs : s.puts i = some record) (hdated : Dated record) :
    ends (amidBucket i) (putWorkflowRecord wire record) (fun r s' =>
      s'.puts i = some record ∧ ((acceptWorkflow record = .ok () ∧
          r = .ok (some (recordTime record, runOrder record))) ∨
        (acceptWorkflow record ≠ .ok () ∧ ∃ err, r = .error err))) s := by
  rw [putWorkflowRecord, ends_bind, ends_liftExcept]
  rcases hvalid : validateWorkflowRecord record (workflowKeyFromProto record.key) with err | u
  · refine ⟨hs, .inr ⟨?_, err, rfl⟩⟩
    intro haccept
    rw [acceptWorkflow, hvalid] at haccept
    cases haccept
  dsimp only
  rw [hdated.latestPointerTimes, ends_bind, ends_liftExcept]
  rcases hcheck : checkPointerTimes record with err | u
  · refine ⟨hs, .inr ⟨?_, err, rfl⟩⟩
    intro haccept
    have hok := (bind_eq_ok_unit.1 haccept).2
    rw [hcheck] at hok
    cases hok
  have haccept : acceptWorkflow record = .ok () := bind_eq_ok_unit.2 ⟨hvalid, hcheck⟩
  obtain ⟨-, hkey, -⟩ := validateWorkflowRecord_eq_ok.1 hvalid
  obtain ⟨dir, hdir⟩ := WorkflowKey.exists_dirPath hkey
  dsimp only [Except.map]
  rw [WorkflowKey.path_of_valid hkey, hdir, liftOk_bind, liftOk_bind, ends_bind]
  apply ends_createDir_amid (stable_puts (some record)) hs
  intro s time hs
  replace hs : (s.operate i time (.createDir dir)).puts i = some record := hs
  dsimp only
  rw [ends_bind]
  apply ends_writeObject_amid (stable_puts (some record)) hs
  intro s time hs hsound
  refine ⟨?_, ends_pure.2 ⟨hs, .inl ⟨haccept, rfl⟩⟩⟩
  exact keeps_writeRecord hsound ((workflowKeyFromProto record.key).stored hkey)
    (validate_of_acceptWorkflow haccept).1 hdated.2

theorem ends_guardedPutWorkflow (hs : s.puts i = some record) (hdated : Dated record) :
    ends (amid i) (guardedPutWorkflow wire record) (fun r s' =>
      (r = .ok () ∧ s'.PutDone i record) ∨
        (s'.puts i = some record ∧ acceptWorkflow record ≠ .ok () ∧ ∃ err, r = .error err)) s := by
  rw [guardedPutWorkflow, ends_bind, ends_onBucket]
  refine (ends_putWorkflowRecord hs hdated).mono ?_
  rintro r s ⟨hputs, ⟨haccept, rfl⟩ | ⟨hreject, err, rfl⟩⟩
  · exact (ends_holdingPointer hputs haccept hdated).mono fun r s hr => .inl hr
  · exact .inr ⟨hputs, hreject, err, rfl⟩

theorem ends_deleteWorkflow_amid (key : WorkflowKey) (hs : s.puts i = none) :
    ends (amidBucket i) (deleteWorkflow wire key) (fun _ s' => s'.puts i = none) s := by
  rw [deleteWorkflow, ends_bind, ends_liftExcept]
  rcases hkey : key.validate with err | u
  · rw [WorkflowKey.path, hkey]
    exact hs
  rw [WorkflowKey.path_of_valid hkey]
  dsimp only
  rw [deleteIfExists, ends_bind]
  apply ends_isExist_amid (stable_puts none) hs
  intro s time hs _
  replace hs : (s.operate i time (.isExist key.withDefaults.location)).puts i = none := hs
  dsimp only
  split
  · exact ends_pure.2 hs
  · rw [ends_bind, ends_attempt, ends_deleteObject]
    apply preBucket (stable_puts none) hs
    intro s time hs hsound _
    refine ⟨keeps_deleteRecord hsound (key.stored hkey), ?_⟩
    dsimp only
    split
    · split
      · exact ends_pure.2 hs
      · exact ends_throw.2 hs
    · exact ends_pure.2 hs

theorem ends_getWorkflow_amid (key : WorkflowKey) (hs : s.puts i = none) :
    ends (amidBucket i) (getWorkflow wire key) (fun r s' => s'.puts i = none ∧
      ∀ record, r = .ok (some record) → record.createdAt.isSome ∧ ∃ h : key.Valid,
        workflowRecord wire (s'.seen i).objects (key.stored h) = some record) s := by
  rw [getWorkflow, getRecord, ends_bind, ends_liftExcept]
  rcases hkey : key.validate with err | u
  · rw [WorkflowKey.path, hkey]
    exact ⟨hs, by simp⟩
  rw [WorkflowKey.path_of_valid hkey]
  dsimp only
  rw [ends_bind]
  apply ends_isExist_amid (stable_puts none) hs
  intro s time hs _
  replace hs : (s.operate i time (.isExist key.withDefaults.location)).puts i = none := hs
  dsimp only
  split
  · exact ends_pure.2 ⟨hs, by simp⟩
  · rw [ends_bind]
    apply ends_readObject_amid (stable_puts none) hs
    · intro s time data hs hsound hlookup
      obtain ⟨record, rfl, -, hcreated⟩ := hsound.records (key.stored hkey) data hlookup
      dsimp only
      rw [wire.workflow.unmarshal_marshal]
      dsimp only
      rw [ends_bind, ends_liftExcept]
      rcases validateWorkflowRecord record key with err | u
      · exact ⟨hs, by simp⟩
      · refine ends_pure.2 ⟨hs, ?_⟩
        rintro _ ⟨⟩
        refine ⟨hcreated, hkey, ?_⟩
        rw [seen_operate]
        exact storedRecord_some hlookup
    · intro s time hs _
      exact ⟨hs, by simp⟩

theorem ends_getLatestWorkflowRun_amid (ns workflowID : String) (hs : s.puts i = none) :
    ends (amidBucket i) (getLatestWorkflowRun wire ns workflowID) (fun r s' =>
      s'.puts i = none ∧ ∀ pointer, r = .ok (some pointer) → Names (s'.seen i) pointer) s := by
  have hpointer : ends (amidBucket i) (getLatestWorkflowRunPointer wire ns workflowID)
      (fun _ s' => s'.puts i = none) s := by
    apply ends_of_calls (I := fun s : RunStore wire ι => s.puts i = none)
      (readOnly_getRecord _ _ _ _) _ hs
    intro op hop s hs
    apply preBucket_reads hop (stable_puts none) hs
    intro s time hs _ _
    exact hs
  rw [getLatestWorkflowRun, ends_bind]
  refine hpointer.mono ?_
  intro r s hs
  rcases r with err | _ | pointer
  · exact ⟨hs, by simp⟩
  · exact ends_pure.2 ⟨hs, by simp⟩
  · dsimp only
    rw [ends_bind]
    refine (ends_getWorkflow_amid (workflowKeyFromProto pointer.key) hs).mono ?_
    rintro r s ⟨hs, hread⟩
    rcases r with err | _ | record
    · exact ⟨hs, by simp⟩
    · exact ends_pure.2 ⟨hs, by simp⟩
    · dsimp only
      obtain ⟨hcreated, hkey, hstored⟩ := hread record rfl
      rcases hreference : validateLatestWorkflowRunReference pointer record with err | u
      · dsimp only
        split
        · exact ends_pure.2 ⟨hs, by simp⟩
        · exact ends_throw.2 ⟨hs, by simp⟩
      · refine ends_pure.2 ⟨hs, ?_⟩
        rintro _ ⟨⟩
        exact ⟨hkey, record, hstored, agrees_of_reference hreference hcreated⟩

def Post (i : ι) (reply : RunReply) (s : RunStore wire ι) : Prop :=
  match reply with
  | .put record (.ok _) => s.PutDone i record
  | .put record (.error _) => s.puts i = some record ∧ acceptWorkflow record ≠ .ok ()
  | .delete _ => s.puts i = none
  | .latest r => s.puts i = none ∧ ∀ pointer, r = .ok (some pointer) → Names (s.seen i) pointer

omit [DecidableEq ι] in
theorem stable_post (reply : RunReply) : Stable i fun s : RunStore wire ι => s.Post i reply := by
  intro s s' hs hrely
  rcases reply with ⟨record, err | u⟩ | r | r
  · exact ⟨hrely.puts.trans hs.1, hs.2⟩
  · exact stable_putDone record s s' hs hrely
  · exact hrely.puts.trans hs
  · refine ⟨hrely.puts.trans hs.1, ?_⟩
    rw [hrely.seen]
    exact hs.2

theorem wp_program (call : RunCall) (hdated : ∀ record, call = .put record → Dated record)
    (hs : s.puts i = none) :
    (call.program wire).wp (amid i) (fun reply s' => s'.Post i reply) (s.onBegin i call) := by
  cases call with
  | put record =>
    have hputs : (s.onBegin i (.put record)).puts i = some record := by simp [onBegin]
    apply (ends_guardedPutWorkflow hputs (hdated record rfl)).done
    rintro r s (⟨rfl, hdone⟩ | ⟨hputs, hreject, err, rfl⟩)
    · exact hdone
    · exact ⟨hputs, hreject⟩
  | delete key =>
    apply ends.done
    · rw [ends_onBucket]
      apply ends_deleteWorkflow_amid
      exact hs
    · exact fun _ _ h => h
  | latest ns workflowID =>
    apply ends.done
    · rw [ends_onBucket]
      apply ends_getLatestWorkflowRun_amid
      exact hs
    · exact fun _ _ h => h

theorem keeps_onBegin (hs : Sound s) (hputs : s.puts i = none) (call : RunCall) :
    Keeps i s (s.onBegin i call) := by
  cases call with
  | delete key => exact .refl hs
  | latest ns workflowID => exact .refl hs
  | put record =>
    refine keeps_of_bucket hs rfl rfl ?_ hs.recorded ?_ fun _ _ h => h
    · rintro ns workflowID pointer (hcrashed | ⟨origin, horigin | ⟨j, hj⟩, hrest⟩)
      · exact .inl hcrashed
      · exact .inr ⟨origin, .inl horigin, hrest⟩
      · -- The goroutine that begins had no put under way, so this is another one.
        have hne : j ≠ i := by
          rintro rfl
          rw [hputs] at hj
          cases hj
        exact .inr ⟨origin, .inr ⟨j, (update_of_ne hne _ _).trans hj⟩, hrest⟩
    · intro j hj
      exact update_of_ne hj _ _

theorem mem_recorded_onReturn {origin : WorkflowRecord} :
    origin ∈ (s.onReturn i reply).recorded ↔
      reply = .put origin (.ok ()) ∨ origin ∈ s.recorded := by
  rcases reply with ⟨record, err | u⟩ | r | r
  · simp [onReturn]
  · simp [onReturn, eq_comm]
  · simp [onReturn]
  · simp [onReturn]

omit [DecidableEq ι] in
theorem Post.eq_put (hpost : s.Post i reply) {origin : WorkflowRecord}
    (hputs : s.puts i = some origin) (haccept : acceptWorkflow origin = .ok ()) :
    reply = .put origin (.ok ()) := by
  rcases reply with ⟨record, err | u⟩ | r | r
  · obtain rfl := Option.some.inj (hputs.symm.trans hpost.1)
    exact absurd haccept hpost.2
  · obtain rfl := Option.some.inj (hputs.symm.trans hpost.1)
    rfl
  · exact nomatch hputs.symm.trans hpost
  · exact nomatch hputs.symm.trans hpost.1

theorem keeps_onReturn (hs : Sound s) (hpost : s.Post i reply) :
    Keeps i s (s.onReturn i reply) := by
  refine keeps_of_bucket hs rfl rfl ?_ ?_ ?_ fun _ _ h => h
  · rintro ns workflowID pointer (hcrashed | ⟨origin, horigin | ⟨j, hj⟩, haccept, hrest⟩)
    · exact .inl hcrashed
    · exact .inr ⟨origin, .inl (mem_recorded_onReturn.2 (.inr horigin)), haccept, hrest⟩
    · by_cases hji : j = i
      · subst hji
        have hmem : origin ∈ (s.onReturn j reply).recorded :=
          mem_recorded_onReturn.2 (.inl (hpost.eq_put hj haccept))
        exact .inr ⟨origin, .inl hmem, haccept, hrest⟩
      · exact .inr ⟨origin, .inr ⟨j, (update_of_ne hji _ _).trans hj⟩, haccept, hrest⟩
  · intro record hrecord
    rcases mem_recorded_onReturn.1 hrecord with rfl | hrecord
    · exact hpost.2
    · exact hs.recorded record hrecord
  · intro j hj
    exact update_of_ne hj _ _

theorem keeps_onCrash (hs : Sound s) : Keeps i s (s.onCrash i) := by
  refine keeps_of_bucket hs rfl rfl (fun _ _ _ _ => .inl rfl) hs.recorded ?_ ?_
  · intro j hj
    exact update_of_ne hj _ _
  · intro j hj hholder
    have hne : s.holder ≠ some i := by
      rw [hholder]
      exact fun h => hj (Option.some.inj h)
    exact (if_neg hne).trans hholder

omit [DecidableEq ι] in
theorem Fresh.sound (h : Fresh s) : Sound s := by
  refine ⟨?_, ?_, ?_⟩
  · intro ns workflowID data hlookup
    rw [h.objects] at hlookup
    cases hlookup
  · rw [h.recorded]
    simp
  · intro key data hlookup
    rw [h.objects] at hlookup
    cases hlookup

variable (wire ι) in
def outline : (latestRace wire ι).Outline Fresh where
  Inv := Sound
  Rely := Rely
  Guar i s _ _ s' := Keeps i s s'
  Post i reply s := s.Post i reply
  init s h := h.sound
  trans i s s' s'' h h' := h.trans h'
  stable i reply s s' h h' := stable_post reply s s' h h'
  begins i s p s' hs h := by
    obtain ⟨hputs, call, hdated, rfl, rfl⟩ := h
    have hkeeps := keeps_onBegin (i := i) hs hputs call
    exact ⟨hkeeps.sound, hkeeps.rely, wp_program call hdated hputs⟩
  acts i s op r s' _ _ h := ⟨h.sound, h.rely⟩
  returns i s reply s' hs hpost h := by
    subst h
    have hkeeps := keeps_onReturn hs hpost
    exact ⟨hkeeps.sound, hkeeps.rely⟩
  crashes i s s' hs h := by
    subst h
    have hkeeps := keeps_onCrash (i := i) hs
    exact ⟨hkeeps.sound, hkeeps.rely⟩

theorem grows_of_step {c c' : Config (guardedSignature wire.Bytes) ι (RunStore wire ι) RunReply}
    (h : (latestRace wire ι).Reachable Fresh c) (hstep : (latestRace wire ι).Step c c') :
    Grows c.state c'.state := by
  have hgood := (outline wire ι).good_of_reachable h
  cases hstep with
  | begins hi h =>
    obtain ⟨hputs, call, -, -, rfl⟩ := h
    exact (keeps_onBegin hgood.inv hputs call).grows
  | acts hi hact => exact ((outline wire ι).guar_of_reachable h hi hact).grows
  | returns hi h =>
    subst h
    exact (keeps_onReturn hgood.inv (hgood.safe _ _ hi)).grows
  | @crashes i _ _ _ h =>
    subst h
    exact (keeps_onCrash (i := i) hgood.inv).grows

theorem puts_act {op : GuardedOp wire.Bytes} {r : op.Reply} (h : s.act i op r s') :
    s'.puts = s.puts := by
  cases op with
  | bucket op =>
    obtain ⟨time, -, -, rfl⟩ := h
    rfl
  | lock =>
    obtain ⟨-, rfl⟩ := h
    rfl
  | unlock =>
    obtain ⟨-, rfl⟩ := h
    rfl

theorem puts_onBegin {call : RunCall} {j : ι} (hj : j ≠ i) :
    (s.onBegin i call).puts j = s.puts j := by
  cases call with
  | put record => exact update_of_ne hj _ _
  | delete key => rfl
  | latest ns workflowID => rfl

theorem puts_of_idle {c : Config (guardedSignature wire.Bytes) ι (RunStore wire ι) RunReply}
    (h : (latestRace wire ι).Reachable Fresh c) : ∀ i, c.procs i = none → c.state.puts i = none := by
  obtain ⟨s₀, hfresh, hsteps⟩ := h
  induction hsteps with
  | refl => exact fun i _ => hfresh.puts i
  | tail _ hstep ih =>
    intro j hj
    cases hstep with
    | @begins i _ _ hi h =>
      obtain ⟨-, call, -, -, rfl⟩ := h
      have hji : j ≠ i := by
        rintro rfl
        simp at hj
      exact (puts_onBegin hji).trans (ih j (by simpa [hji] using hj))
    | @acts i op _ _ _ hi h =>
      have hji : j ≠ i := by
        rintro rfl
        simp at hj
      exact (congrFun (puts_act h) j).trans (ih j (by simpa [hji] using hj))
    | @returns i _ _ hi h =>
      subst h
      by_cases hji : j = i
      · subst hji
        exact update_self ..
      · exact (update_of_ne hji _ _).trans (ih j (by simpa [hji] using hj))
    | @crashes i _ _ hi h =>
      subst h
      by_cases hji : j = i
      · subst hji
        exact update_self ..
      · exact (update_of_ne hji _ _).trans (ih j (by simpa [hji] using hj))

/-- The pointer of a workflow stands for the newest of its records. -/
def Newest (s : RunStore wire ι) (ns workflowID : String) : Prop :=
  match pointerAt s.bucket ns workflowID with
  | none => ∀ record ∈ s.recorded, ¬ OfWorkflow ns workflowID record
  | some pointer => IsGreatest
      {stamp | ∃ record ∈ s.recorded, OfWorkflow ns workflowID record ∧ recordStamp record = stamp}
      (pointerStamp pointer)

omit [DecidableEq ι] in
theorem Sound.origin (hs : Sound s)
    (hpointer : pointerAt s.bucket ns workflowID = some pointer) (hputs : ∀ i, s.puts i = none)
    (hcrashed : s.crashed = false) :
    ∃ record ∈ s.recorded, acceptWorkflow record = .ok () ∧ OfWorkflow ns workflowID record ∧
      recordStamp record = pointerStamp pointer := by
  rcases hlookup : s.bucket.objects.lookup (Address.latest ns workflowID).path with _ | data
  · rw [pointerAt, storedRecord_none hlookup] at hpointer
    cases hpointer
  · obtain ⟨stored, rfl, -, horigin⟩ := hs.pointers ns workflowID data hlookup
    rw [pointerAt, storedRecord_some hlookup] at hpointer
    obtain rfl := Option.some.inj hpointer
    rcases horigin with hc | ⟨record, hrecord | ⟨i, hi⟩, hrest⟩
    · rw [hcrashed] at hc
      cases hc
    · exact ⟨record, hrecord, hrest⟩
    · rw [hputs i] at hi
      cases hi

omit [DecidableEq ι] in
theorem Sound.newest (hs : Sound s) (hputs : ∀ i, s.puts i = none) (hcrashed : s.crashed = false)
    (ns workflowID : String) : s.Newest ns workflowID := by
  have hcovers : ∀ record ∈ s.recorded, OfWorkflow ns workflowID record →
      ∃ pointer, pointerAt s.bucket ns workflowID = some pointer ∧
        recordStamp record ≤ pointerStamp pointer :=
    fun record hrecord hof => hs.recorded record hrecord ns workflowID hof
  rw [Newest]
  rcases hpointer : pointerAt s.bucket ns workflowID with _ | pointer
  · intro record hrecord hof
    obtain ⟨pointer, hsome, -⟩ := hcovers record hrecord hof
    rw [hpointer] at hsome
    cases hsome
  · constructor
    · obtain ⟨record, hrecord, -, hof, hstamp⟩ := hs.origin hpointer hputs hcrashed
      exact ⟨record, hrecord, hof, hstamp⟩
    · rintro _ ⟨record, hrecord, hof, rfl⟩
      obtain ⟨other, hsome, hle⟩ := hcovers record hrecord hof
      obtain rfl := Option.some.inj (hpointer.symm.trans hsome)
      exact hle

/-- In every run the pointers never fall behind; at rest and without a crash each of them stands
for the newest record of its workflow; and a lookup returns a pointer only if it agrees with the
record that was stored at its last operation. Puts fail only for records that their checks
reject. -/
theorem latestPointer_newest {c : Config (guardedSignature wire.Bytes) ι (RunStore wire ι) RunReply}
    (h : (latestRace wire ι).Reachable Fresh c) :
    (∀ c', (latestRace wire ι).Step c c' → Grows c.state c'.state) ∧
      ((∀ i, c.procs i = none) → c.state.crashed = false →
        ∀ ns workflowID, c.state.Newest ns workflowID) ∧
      (∀ i pointer, c.procs i = some (.done (.latest (.ok (some pointer)))) →
        Names (c.state.seen i) pointer) ∧
      ∀ i record err, c.procs i = some (.done (.put record (.error err))) →
        acceptWorkflow record ≠ .ok () := by
  have hgood := (outline wire ι).good_of_reachable h
  refine ⟨fun c' hstep => grows_of_step h hstep, ?_, ?_, ?_⟩
  · intro hidle hcrashed ns workflowID
    exact hgood.inv.newest (fun i => puts_of_idle h i (hidle i)) hcrashed ns workflowID
  · intro i pointer hi
    exact ((outline wire ι).post_of_reachable h hi).2 pointer rfl
  · intro i record err hi
    exact ((outline wire ι).post_of_reachable h hi).2

def move (i : ι) (s : RunStore wire ι) :
    (op : GuardedOp wire.Bytes) → Option (op.Reply × RunStore wire ι)
  | .lock => if s.holder = none then some ((), { s with holder := some i }) else none
  | .unlock => if s.holder = some i then some ((), { s with holder := none }) else none
  | .bucket op => some (({ s.bucket with time := 0 }.step op).1, s.operate i 0 op)

theorem acts_of_move {op : GuardedOp wire.Bytes} {r : op.Reply} (h : s.move i op = some (r, s')) :
    (latestRace wire ι).acts i s op r s' := by
  cases op with
  | bucket op =>
    obtain ⟨rfl, rfl⟩ := Prod.mk.inj (Option.some.inj h)
    exact ⟨0, ⟨by decide, by decide⟩, rfl, rfl⟩
  | lock =>
    simp only [move] at h
    split at h
    · next hholder => exact ⟨hholder, (Prod.mk.inj (Option.some.inj h)).2.symm⟩
    · cases h
  | unlock =>
    simp only [move] at h
    split at h
    · next hholder => exact ⟨hholder, (Prod.mk.inj (Option.some.inj h)).2.symm⟩
    · cases h

end Amid

/-- Two goroutines put runs of one workflow, one deletes the older of them, one looks it up. -/
inductive Racer where
  | older | newer | deleter | reader
  deriving DecidableEq

def orderRun (runID : String) (order : Int) : WorkflowRecord where
  schemaVersion := .workflow
  key := some ⟨"", "order", runID⟩
  workflowType := "order"
  input := none
  status := .inProgress
  result := none
  failure := none
  createdAt := some (.new 0)
  completedAt := none
  annotations := []
  runOrderTime := some (.new order)

def Racer.call : Racer → RunCall
  | .older => .put (orderRun "one" 5)
  | .newer => .put (orderRun "two" 9)
  | .deleter => .delete ⟨"", "order", "one"⟩
  | .reader => .latest "default" "order"

abbrev RaceConfig :=
  Config (guardedSignature taggedWire.Bytes) Racer (RunStore taggedWire Racer) RunReply

def raceStart : RaceConfig :=
  ⟨fun _ => none, ⟨⟨∅, [], 0⟩, none, fun _ => none, [], false, fun _ => ⟨∅, [], 0⟩⟩⟩

/-- Goroutine `i` begins its call, performs its next operation or returns. -/
def RaceConfig.advance (c : RaceConfig) (i : Racer) : RaceConfig :=
  match c.procs i with
  | none => ⟨update c.procs i (some (RunCall.program taggedWire i.call)),
      c.state.onBegin i i.call⟩
  | some (.done reply) => ⟨update c.procs i none, c.state.onReturn i reply⟩
  | some (.call _ _) => System.turn move c i

theorem reachable_advance {c : RaceConfig} (h : (latestRace taggedWire Racer).Reachable Fresh c)
    (i : Racer) : (latestRace taggedWire Racer).Reachable Fresh (c.advance i) := by
  have hputs := puts_of_idle h i
  obtain ⟨s₀, hfresh, hsteps⟩ := h
  refine ⟨s₀, hfresh, hsteps.trans ?_⟩
  rcases hi : c.procs i with _ | (reply | ⟨op, next⟩)
  · have hdated : ∀ record, i.call = .put record → Dated record := by
      intro record hcall
      cases i <;> cases hcall <;> exact ⟨rfl, rfl⟩
    simp only [RaceConfig.advance, hi]
    exact .single (.begins hi ⟨hputs hi, i.call, hdated, rfl, rfl⟩)
  · simp only [RaceConfig.advance, hi]
    exact .single (.returns hi rfl)
  · simp only [RaceConfig.advance, hi]
    exact System.steps_of_turns (fun i s op r s' => acts_of_move) c [i]

theorem reachable_race {c : RaceConfig} (h : (latestRace taggedWire Racer).Reachable Fresh c)
    (schedule : List Racer) :
    (latestRace taggedWire Racer).Reachable Fresh (schedule.foldl RaceConfig.advance c) := by
  induction schedule generalizing c with
  | nil => exact h
  | cons i schedule ih => exact ih (reachable_advance h i)

/-- The newer put waits for the mutex that the older one holds; the run that the lookup has found is
deleted before the lookup returns. -/
def raceLookup : RaceConfig :=
  [.older, .older, .older, .newer, .newer, .older, .newer, .newer, .older, .older, .older, .older,
    .reader, .reader, .older, .newer, .reader, .deleter, .reader, .deleter, .reader, .newer,
    .deleter].foldl RaceConfig.advance raceStart

def raceOver : RaceConfig :=
  [.newer, .newer, .newer, .newer, .newer, .reader, .deleter, .older, .newer].foldl
    RaceConfig.advance raceLookup

theorem latestPointer_newest_order :
    (∃ pointer, raceLookup.procs .reader = some (.done (.latest (.ok (some pointer)))) ∧
      pointer.key = some ⟨"default", "order", "one"⟩ ∧
      Names (raceLookup.state.seen .reader) pointer) ∧
    (∃ pointer, pointerAt raceOver.state.bucket "default" "order" = some pointer ∧
      pointer.key = some ⟨"default", "order", "two"⟩) ∧
    raceOver.state.recorded = [orderRun "two" 9, orderRun "one" 5] ∧
    raceOver.state.Newest "default" "order" := by
  have hstart : (latestRace taggedWire Racer).Reachable Fresh raceStart :=
    ⟨raceStart.state, ⟨rfl, rfl, fun _ => rfl, rfl, rfl⟩, .refl⟩
  have hlookup : (latestRace taggedWire Racer).Reachable Fresh raceLookup := reachable_race hstart _
  have hover : (latestRace taggedWire Racer).Reachable Fresh raceOver := reachable_race hlookup _
  refine ⟨⟨_, rfl, rfl, (latestPointer_newest hlookup).2.2.1 .reader _ rfl⟩, ⟨_, rfl, rfl⟩, rfl, ?_⟩
  exact (latestPointer_newest hover).2.1 (fun i => by cases i <;> rfl) rfl "default" "order"

end RunStore

end Temporaless.OpenDALStore
