import Temporaless.Storage.Paths
import Temporaless.Storage.Reached

/-!
# Buckets that only writes have touched

The buckets that puts of the record store and the claims of a claim store beside it lead to. Each
of their objects is at the path of a valid key and holds a payload of the layout of that key.
-/

namespace Temporaless

open PathTree Effects

theorem runs_of_calls {Bytes α : Type} {P : BucketOp Bytes → Prop} {I : Bucket Bytes → Prop}
    {code : BucketM Bytes α} {b : Bucket Bytes} (h : code.run.Calls P)
    (hP : ∀ op, P op → ∀ b, I b → I (b.step op).2) (hb : I b) : b.Runs I code fun _ b' => I b' := by
  unfold Bucket.Runs
  apply ends_of_calls h _ hb
  intro op hop b hb r b' hstep
  have hnext := hP op hop b hb
  rw [hstep] at hnext
  exact ⟨hnext, hnext⟩

namespace OpenDALStore

variable (wire : Wire) (claims : Codec wire.Bytes ClaimRecord)

/-- `TryCreateClaim` of a claim store that keeps its claims in the same bucket. -/
def tryCreateClaim (record : ClaimRecord) : BucketM wire.Bytes Bool := do
  let key := itemKeyFromProto record.key
  validateClaimRecord record key
  let path ← key.path
  let present ← isExist path
  if present then
    return false
  writeObject path (claims.marshal record)
  return true

inductive RecordWrite where
  | workflow (record : WorkflowRecord)
  | activity (record : ActivityRecord)
  | timer (record : TimerRecord)
  | event (record : EventRecord)
  | claim (record : ClaimRecord)

def RecordWrite.code : RecordWrite → BucketM wire.Bytes Unit
  | .workflow record => putWorkflow wire record
  | .activity record => putActivity wire record
  | .timer record => putTimer wire record
  | .event record => putEvent wire record
  | .claim record => (fun _ => ()) <$> tryCreateClaim wire claims record

/-- The buckets reached from an empty one by writes, some of them interrupted. -/
inductive Written : Bucket wire.Bytes → Prop where
  | empty (time : Int) : Written ⟨∅, [], time⟩
  | later {b : Bucket wire.Bytes} (time : Int) (h : Written b) : Written { b with time := time }
  | completed {b : Bucket wire.Bytes} (write : RecordWrite) (h : Written b) :
      Written (b.exec (write.code wire claims)).2
  | interrupted {b : Bucket wire.Bytes} (write : RecordWrite) (n : Nat) (h : Written b) :
      Written (b.cut n (write.code wire claims))

def Payloads : ObjectKey → wire.Bytes → Prop
  | .workflow key, data =>
    ∃ record, data = wire.workflow.marshal record ∧ validateWorkflowRecord record key = .ok ()
  | .item .activity key, data =>
    ∃ record, data = wire.activity.marshal record ∧ validateActivityRecord record key = .ok ()
  | .item .timer key, data =>
    ∃ record, data = wire.timer.marshal record ∧ validateTimerRecord record key = .ok ()
  | .item .event key, data =>
    ∃ record, data = wire.event.marshal record ∧ validateEventRecord record key = .ok ()
  | .item .claim key, data =>
    ∃ record, data = claims.marshal record ∧ validateClaimRecord record key = .ok ()
  | .latest _ _, data => ∃ pointer, data = wire.latest.marshal pointer
  | .due _, data => ∃ entry, data = wire.due.marshal entry

def FiledAt (path : Path) (data : wire.Bytes) (key : ObjectKey) : Prop :=
  ∃ h : key.Valid, path = (key.address h).path ∧ Payloads wire claims key data

def Filed (objects : Objects wire) : Prop :=
  ∀ path data, objects.lookup path = some data → ∃ key, FiledAt wire claims path data key

def Files : BucketOp wire.Bytes → Prop
  | .write path data => ∃ key, FiledAt wire claims path data key
  | .delete _ => False
  | .isExist _ | .read _ | .createDir _ | .list _ | .now => True

section Keep

variable {wire claims} {b : Bucket wire.Bytes}

theorem Filed.step {op : BucketOp wire.Bytes} (hop : Files wire claims op)
    (h : Filed wire claims b.objects) : Filed wire claims (b.step op).2.objects := by
  cases op with
  | write path data =>
    intro path' data' hlookup
    simp only [Bucket.step] at hlookup
    by_cases hpath : path' = path
    · subst hpath
      rw [AList.lookup_insert] at hlookup
      cases hlookup
      exact hop
    · rw [AList.lookup_insert_ne hpath] at hlookup
      exact h path' data' hlookup
  | delete path => exact hop.elim
  | createDir dir => exact h
  | isExist path => exact h
  | now => exact h
  | read path =>
    rw [step_reads (.read path) trivial]
    exact h
  | list dir =>
    rw [step_reads (.list dir) trivial]
    exact h

variable (wire claims) in
def FilesOnly {α : Type} (code : BucketM wire.Bytes α) : Prop := code.run.Calls (Files wire claims)

variable {α β : Type}

theorem filesOnly_readOnly {code : BucketM wire.Bytes α} (h : ReadOnly code) :
    FilesOnly wire claims code := by
  apply Program.Calls.imp _ h
  intro op hop
  cases op <;> first | exact trivial | exact hop.elim

theorem FilesOnly.bind {code : BucketM wire.Bytes α} {next : α → BucketM wire.Bytes β}
    (h : FilesOnly wire claims code) (hnext : ∀ a, FilesOnly wire claims (next a)) :
    FilesOnly wire claims (code >>= next) := Program.Calls.bindExcept h hnext

theorem filesOnly_check {r : Except Err α} {next : α → BucketM wire.Bytes β}
    (h : ∀ a, r = .ok a → FilesOnly wire claims (next a)) :
    FilesOnly wire claims ((liftM r : BucketM wire.Bytes α) >>= next) :=
  calls_liftExcept_bind h

theorem filesOnly_createDir (dir : Path) :
    FilesOnly wire claims (createDir dir : BucketM wire.Bytes Unit) := ⟨trivial, fun _ => trivial⟩

theorem filesOnly_writeObject (key : ObjectKey) {path : Path} {data : wire.Bytes}
    (hpath : key.path = .ok path) (hdata : Payloads wire claims key data) :
    FilesOnly wire claims (writeObject path data) := by
  obtain ⟨hvalid, hpath⟩ := ObjectKey.valid_of_path hpath
  exact ⟨⟨key, hvalid, hpath, hdata⟩, fun _ => trivial⟩

theorem FilesOnly.runs {code : BucketM wire.Bytes α} (h : FilesOnly wire claims code)
    (hb : Filed wire claims b.objects) :
    b.Runs (fun b' => Filed wire claims b'.objects) code fun _ b' =>
      Filed wire claims b'.objects :=
  runs_of_calls h (fun _ hop _ hb => hb.step hop) hb

-- Elaborating the applications below must not run the programs they speak of.
attribute [local irreducible] FilesOnly ReadOnly

theorem filesOnly_putRecord {codec : Codec wire.Bytes α} {record : α} {kind : RecordKind}
    {key : ItemKey kind} {validation : Except Err Unit}
    (h : validation = .ok () → Payloads wire claims (.item kind key) (codec.marshal record)) :
    FilesOnly wire claims (putRecord codec validation key.path key.dirPath record) := by
  apply filesOnly_check
  intro _ hvalid
  apply filesOnly_check
  intro path hpath
  apply filesOnly_check
  intro dir _
  apply (filesOnly_createDir dir).bind
  intro _
  exact filesOnly_writeObject (.item kind key) hpath (h hvalid)

theorem filesOnly_putDueEntry (record : TimerRecord) :
    FilesOnly wire claims (putDueEntry wire record) := by
  apply filesOnly_check
  intro _ _
  apply filesOnly_check
  intro _ _
  apply filesOnly_check
  intro path hpath
  apply (filesOnly_createDir _).bind
  intro _
  apply FilesOnly.bind
  · exact filesOnly_writeObject (.due _) hpath ⟨_, rfl⟩
  · intro _
    exact filesOnly_readOnly (readOnly_pure _)

theorem filesOnly_putTimer (record : TimerRecord) :
    FilesOnly wire claims (putTimer wire record) := by
  apply filesOnly_check
  intro _ hvalid
  apply filesOnly_check
  intro path hpath
  apply filesOnly_check
  intro dir _
  apply (filesOnly_createDir dir).bind
  intro _
  apply (filesOnly_putDueEntry record).bind
  intro _
  exact filesOnly_writeObject (.item .timer _) hpath ⟨record, rfl, hvalid⟩

theorem filesOnly_putLatestWorkflowRun (record : WorkflowRecord) (recordTime runOrderTime : Int) :
    FilesOnly wire claims (putLatestWorkflowRun wire record recordTime runOrderTime) := by
  apply (filesOnly_readOnly (readOnly_latestPointerMoves _ _ _)).bind
  intro moves
  split
  · exact filesOnly_readOnly (readOnly_pure _)
  · apply (filesOnly_readOnly readOnly_clock).bind
    intro updatedAt
    apply filesOnly_check
    intro path hpath
    apply (filesOnly_createDir _).bind
    intro _
    exact filesOnly_writeObject (.latest (workflowKeyFromProto record.key).withDefaults.ns
      (workflowKeyFromProto record.key).withDefaults.workflowID) hpath ⟨_, rfl⟩

theorem filesOnly_putWorkflow (record : WorkflowRecord) :
    FilesOnly wire claims (putWorkflow wire record) := by
  apply filesOnly_check
  intro _ hvalid
  apply (filesOnly_readOnly (readOnly_latestPointerTimes record)).bind
  intro times
  apply filesOnly_check
  intro path hpath
  apply filesOnly_check
  intro dir _
  apply (filesOnly_createDir dir).bind
  intro _
  apply FilesOnly.bind
  · exact filesOnly_writeObject (.workflow _) hpath ⟨record, rfl, hvalid⟩
  · intro _
    split
    · exact filesOnly_readOnly (readOnly_pure _)
    · exact filesOnly_putLatestWorkflowRun _ _ _

theorem filesOnly_tryCreateClaim (record : ClaimRecord) :
    FilesOnly wire claims (tryCreateClaim wire claims record) := by
  apply filesOnly_check
  intro _ hvalid
  apply filesOnly_check
  intro path hpath
  apply (filesOnly_readOnly (readOnly_isExist path)).bind
  intro present
  split
  · exact filesOnly_readOnly (readOnly_pure _)
  · apply FilesOnly.bind
    · exact filesOnly_writeObject (.item .claim _) hpath ⟨record, rfl, hvalid⟩
    · intro _
      exact filesOnly_readOnly (readOnly_pure _)

theorem RecordWrite.filesOnly (write : RecordWrite) :
    FilesOnly wire claims (write.code wire claims) := by
  cases write with
  | workflow record => exact filesOnly_putWorkflow record
  | activity record => exact filesOnly_putRecord fun hvalid => ⟨record, rfl, hvalid⟩
  | timer record => exact filesOnly_putTimer record
  | event record => exact filesOnly_putRecord fun hvalid => ⟨record, rfl, hvalid⟩
  | claim record =>
    rw [code, map_eq_pure_bind]
    apply (filesOnly_tryCreateClaim record).bind
    intro _
    exact filesOnly_readOnly (readOnly_pure _)

end Keep

variable {wire claims} {b : Bucket wire.Bytes}

theorem Written.filed (h : Written wire claims b) : Filed wire claims b.objects := by
  induction h with
  | empty time =>
    intro path data hlookup
    simp at hlookup
  | later time _ ih => exact ih
  | completed write _ ih => exact (write.filesOnly.runs ih).exec
  | interrupted write n _ ih => exact (write.filesOnly.runs ih).cut ih n

end OpenDALStore

end Temporaless
