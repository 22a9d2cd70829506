import Temporaless.Storage.DueScan

/-!
# Buckets the record store leaves behind

Every call of the store keeps the bucket tidy at each of its operations, so a bucket stays tidy
under any sequence of calls with interruptions.
-/

namespace Temporaless.OpenDALStore

open PathTree Effects

inductive StoreCall where
  | putWorkflow (record : WorkflowRecord)
  | deleteWorkflow (key : WorkflowKey)
  | putActivity (record : ActivityRecord)
  | deleteActivity (key : ActivityKey)
  | putTimer (record : TimerRecord)
  | deleteTimer (key : TimerKey)
  | putEvent (record : EventRecord)
  | deleteEvent (key : EventKey)
  | dueTimers (fuel : Nat) (ns : String) (now : Int)

variable (wire : Wire)

def StoreCall.code : StoreCall → BucketM wire.Bytes Unit
  | .putWorkflow record => OpenDALStore.putWorkflow wire record
  | .deleteWorkflow key => (fun _ => ()) <$> OpenDALStore.deleteWorkflow wire key
  | .putActivity record => OpenDALStore.putActivity wire record
  | .deleteActivity key => (fun _ => ()) <$> OpenDALStore.deleteActivity wire key
  | .putTimer record => OpenDALStore.putTimer wire record
  | .deleteTimer key => (fun _ => ()) <$> OpenDALStore.deleteTimer wire key
  | .putEvent record => OpenDALStore.putEvent wire record
  | .deleteEvent key => (fun _ => ()) <$> OpenDALStore.deleteEvent wire key
  | .dueTimers fuel ns now => (fun _ => ()) <$> OpenDALStore.dueTimers wire fuel ns now

/-- The buckets reached from an empty one by calls, some of them interrupted. -/
inductive Reached : Bucket wire.Bytes → Prop where
  | empty (time : Int) : Reached ⟨∅, [], time⟩
  | later {b : Bucket wire.Bytes} (time : Int) (h : Reached b) : Reached { b with time := time }
  | completed {b : Bucket wire.Bytes} (call : StoreCall) (h : Reached b) :
      Reached (b.exec (call.code wire)).2
  | interrupted {b : Bucket wire.Bytes} (call : StoreCall) (n : Nat) (h : Reached b) :
      Reached (b.cut n (call.code wire))

variable {wire} {b : Bucket wire.Bytes}

abbrev KeepsTidy {α : Type} (code : BucketM wire.Bytes α) : Prop :=
  Bucket.Keeps (fun b => Tidy wire b.objects) code

section KeepsTidy

theorem keepsTidy_createDir (dir : Path) : KeepsTidy (createDir dir : BucketM wire.Bytes Unit) :=
  fun _ hb => runs_createDir.2 ⟨hb, hb⟩

theorem keepsTidy_writeObject {a : Address} {data : wire.Bytes} (hdata : WellStored wire a data)
    (ha : ∀ key, a ≠ .item .timer key) : KeepsTidy (writeObject a.path data) := by
  intro b hb
  have htidy := hb.insert hdata fun key hkey => absurd hkey (ha key)
  exact runs_writeObject.2 ⟨htidy, htidy⟩

theorem keepsTidy_deleteIfExists {a : Address} (ha : ∀ key, a ≠ .due key) :
    KeepsTidy (deleteIfExists a.path : BucketM wire.Bytes Bool) := by
  intro b hb
  have htidy := hb.erase ha
  refine runs_deleteIfExists hb (fun _ => hb) fun _ b' hb' => ?_
  rw [← hb'] at htidy
  exact ⟨htidy, htidy⟩

theorem keepsTidy_putRecord {codec : Codec wire.Bytes α} {record : α} {kind : RecordKind}
    {key : ItemKey kind} {validation : Except Err Unit} (hkind : kind ≠ .timer)
    (hstored : validation = .ok () → ∀ hkey : key.Valid,
      WellStored wire (.item kind (key.stored hkey)) (codec.marshal record)) :
    KeepsTidy (putRecord codec validation key.path key.dirPath record) := by
  refine keeps_liftExcept fun _ hvalid => keeps_liftExcept fun path hpath => ?_
  refine keeps_liftExcept fun dir hdir => (keepsTidy_createDir dir).bind fun _ => ?_
  obtain ⟨hkey, rfl⟩ := ItemKey.valid_of_path hpath
  refine keepsTidy_writeObject (a := .item kind (key.stored hkey)) (hstored hvalid hkey) ?_
  intro k hk
  exact hkind (Address.item.inj hk).1

theorem keepsTidy_deleteItem {kind : RecordKind} (key : ItemKey kind) :
    KeepsTidy (do
      let path ← key.path
      deleteIfExists path : BucketM wire.Bytes Bool) := by
  refine keeps_liftExcept fun path hpath => ?_
  obtain ⟨hkey, rfl⟩ := ItemKey.valid_of_path hpath
  exact keepsTidy_deleteIfExists (a := .item kind (key.stored hkey)) (by simp)

@[grind ←] theorem readOnly_latestPointerMoves (key : WorkflowKey) (recordTime runOrderTime : Int) :
    ReadOnly (latestPointerMoves wire key recordTime runOrderTime) := by
  unfold latestPointerMoves getLatestWorkflowRunPointer
  grind

@[grind ←] theorem readOnly_latestPointerTimes (record : WorkflowRecord) :
    ReadOnly (latestPointerTimes wire record) := by
  unfold latestPointerTimes workflowLatestPointerRecordTime workflowCreatedTime
  split
  · refine ReadOnly.bind ?_ (by grind)
    split <;> grind
  · grind

theorem address_of_latestPath {ns workflowID : String} {path : Path}
    (h : latestWorkflowRunPointerPath ns workflowID = .ok path) :
    path = (Address.latest (WorkflowKey.withDefaults ⟨ns, workflowID, "placeholder"⟩).ns
      workflowID).path := by
  simp only [latestWorkflowRunPointerPath] at h
  rcases hvalid : (WorkflowKey.withDefaults ⟨ns, workflowID, "placeholder"⟩).validate with err | u
  · rw [hvalid] at h
    cases h
  · rw [hvalid] at h
    cases h
    rw [WorkflowKey.withDefaults_workflowID]
    rfl

theorem keepsTidy_putLatestWorkflowRun (record : WorkflowRecord) (recordTime runOrderTime : Int) :
    KeepsTidy (putLatestWorkflowRun wire record recordTime runOrderTime) := by
  apply (readOnly_latestPointerMoves _ _ _).keeps.bind
  intro moves
  split
  · exact keeps_pure _
  · apply readOnly_clock.keeps.bind
    intro updatedAt
    apply keeps_liftExcept
    intro path hpath
    apply (keepsTidy_createDir _).bind
    intro _
    rw [address_of_latestPath hpath]
    exact keepsTidy_writeObject trivial (by simp)

theorem keepsTidy_putWorkflow (record : WorkflowRecord) : KeepsTidy (putWorkflow wire record) := by
  apply keeps_liftExcept
  intro _ hvalid
  apply (readOnly_latestPointerTimes record).keeps.bind
  intro times
  apply keeps_liftExcept
  intro path hpath
  apply keeps_liftExcept
  intro dir _
  obtain ⟨hkey, rfl⟩ := WorkflowKey.valid_of_path hpath
  apply (keepsTidy_createDir dir).bind
  intro _
  apply Bucket.Keeps.bind
  · apply keepsTidy_writeObject (a := .workflow ((workflowKeyFromProto record.key).stored hkey))
    · refine ⟨record, rfl, validateWorkflowRecord_eq_ok.2 ?_⟩
      simpa [WorkflowKey.stored] using validateWorkflowRecord_eq_ok.1 hvalid
    · simp
  · intro _
    split
    · exact keeps_pure _
    · exact keepsTidy_putLatestWorkflowRun _ _ _

theorem keepsTidy_putTimer (record : TimerRecord) : KeepsTidy (putTimer wire record) := by
  intro b hb
  by_cases hprep : ∃ key, Preparable record key
  · obtain ⟨key, hprep⟩ := hprep
    have hprepared := hb.prepare hprep
    have hpublished := hprepared.publish hprep (by rw [lookup_prepare]; rfl)
    apply runs_putTimer hprep
    · intro b' hb'
      rwa [hb']
    · intro b' hb'
      rwa [hb']
    · intro b' hb'
      rw [← hb'] at hpublished
      exact ⟨hpublished, hpublished⟩
  · apply runs_putTimer_rejected hprep
    intro b' hb'
    rw [← hb'] at hb
    exact ⟨hb, fun _ => hb⟩

theorem keepsTidy_deleteTimer (key : TimerKey) : KeepsTidy (deleteTimer wire key) := by
  intro b hb
  by_cases hkey : key.Valid
  · have hprep : ∀ record, ledgerRecord wire b.objects (key.stored hkey) = some record →
        Preparable record (key.stored hkey) := by
      intro record hrecord
      rcases hb.ledger_cases (key.stored hkey) with ⟨-, hnone⟩ | ⟨r, -, hr, hprep⟩
      · rw [hrecord] at hnone
        cases hnone
      · rw [hrecord] at hr
        cases hr
        exact hprep
    apply runs_deleteTimer hb hkey
    · intro b' hb'
      rwa [hb']
    · intro _ _
      exact hb
    · intro record b' hrecord hb'
      have htidy := hb.prepare (hprep record hrecord).tombstone
      rw [← hb'] at htidy
      exact ⟨htidy, fun _ _ => htidy⟩
    · intro record b' hrecord hb'
      have htidy := (hb.prepare (hprep record hrecord).tombstone).erase
        (a := .item .timer (key.stored hkey)) (by simp)
      rw [← hb'] at htidy
      exact ⟨htidy, fun _ => htidy⟩
  · exact runs_deleteTimer_invalid hkey fun _ => hb

theorem StoreCall.keepsTidy (call : StoreCall) : KeepsTidy (call.code wire) := by
  cases call with
  | putWorkflow record => exact keepsTidy_putWorkflow record
  | deleteWorkflow key =>
    apply Bucket.Keeps.map
    apply keeps_liftExcept
    intro path hpath
    obtain ⟨hkey, rfl⟩ := WorkflowKey.valid_of_path hpath
    exact keepsTidy_deleteIfExists (a := .workflow (key.stored hkey)) (by simp)
  | putActivity record =>
    apply keepsTidy_putRecord (by decide)
    intro hvalid hkey
    exact ⟨record, rfl, by simpa [ItemKey.stored, validateActivityRecord] using hvalid⟩
  | deleteActivity key => exact (keepsTidy_deleteItem key).map _
  | putTimer record => exact keepsTidy_putTimer record
  | deleteTimer key => exact (keepsTidy_deleteTimer key).map _
  | putEvent record =>
    apply keepsTidy_putRecord (by decide)
    intro hvalid hkey
    exact ⟨record, rfl, by simpa [ItemKey.stored, validateEventRecord] using hvalid⟩
  | deleteEvent key => exact (keepsTidy_deleteItem key).map _
  | dueTimers fuel ns now =>
    apply Bucket.Keeps.map
    intro b hb
    exact (runs_dueTimers now hb fuel ns).imp (fun _ h => h.tidy) (fun _ _ h => h.1.tidy)

end KeepsTidy

theorem Reached.tidy (h : Reached wire b) : Tidy wire b.objects := by
  induction h with
  | empty time => exact tidy_empty wire
  | later time _ ih => exact ih
  | completed call _ ih => exact (call.keepsTidy _ ih).exec
  | interrupted call n _ ih => exact (call.keepsTidy _ ih).cut ih n

def napTimer : TimerRecord where
  schemaVersion := .timer
  key := some ⟨"default", "wf", "run", "nap"⟩
  timerKind := .sleep
  duration := some ⟨60, 0⟩
  status := .scheduled
  fireAt := some ⟨60, 0⟩
  createdAt := some ⟨0, 0⟩
  firedAt := none
  retryActivityId := ""

def napWorkflow : WorkflowRecord where
  schemaVersion := .workflow
  key := some ⟨"default", "wf", "run"⟩
  workflowType := "sample"
  input := none
  status := .inProgress
  result := none
  failure := none
  createdAt := some ⟨0, 0⟩
  completedAt := none
  annotations := []
  runOrderTime := none

/-- The run after a crash between the two writes of its timer. -/
def interruptedNap : Bucket taggedWire.Bytes :=
  ((⟨∅, [], 0⟩ : Bucket taggedWire.Bytes).exec
    ((StoreCall.putWorkflow napWorkflow).code taggedWire)).2.cut 3
      ((StoreCall.putTimer napTimer).code taggedWire)

theorem reached_interruptedNap : Reached taggedWire interruptedNap :=
  .interrupted _ 3 (.completed _ (.empty 0))

end Temporaless.OpenDALStore
