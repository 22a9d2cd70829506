import Mathlib.Data.Prod.Lex
import Temporaless.Framework.System
import Temporaless.Storage.RefinementWrites

/-!
# The pointer to the latest run under concurrent calls

Goroutines put, delete and look up the workflow records of one store. A put writes the record
without a lock and then moves the pointer under the mutex of the store; a lookup reads the pointer
and the record it names without any lock and compares the two.
-/

namespace Temporaless.OpenDALStore

open PathTree Effects

/-- The operations of a bucket, and those of `latestPointerMu`. -/
inductive GuardedOp (Bytes : Type) where
  | bucket (op : BucketOp Bytes)
  | lock
  | unlock

abbrev GuardedOp.Reply {Bytes : Type} : GuardedOp Bytes → Type
  | .bucket op => op.Reply
  | .lock | .unlock => Unit

abbrev guardedSignature (Bytes : Type) : Signature := ⟨GuardedOp Bytes, GuardedOp.Reply⟩

abbrev GuardedM (Bytes : Type) (α : Type) := ExceptT Err (Program (guardedSignature Bytes)) α

section Code

variable {Bytes α : Type}

def lockPointer : GuardedM Bytes Unit :=
  ExceptT.mk (.call (σ := guardedSignature Bytes) .lock fun _ => .done (.ok ()))

def unlockPointer : GuardedM Bytes Unit :=
  ExceptT.mk (.call (σ := guardedSignature Bytes) .unlock fun _ => .done (.ok ()))

def onBucket (code : BucketM Bytes α) : GuardedM Bytes α :=
  ExceptT.mk (Program.hoist (τ := guardedSignature Bytes) .bucket (fun _ r => r) code.run)

def holdingPointer (code : BucketM Bytes α) : GuardedM Bytes α := do
  lockPointer
  let outcome ← attempt (onBucket code)
  unlockPointer
  liftM outcome

end Code

variable (wire : Wire)

/-- `PutWorkflow` up to the pointer. -/
def putWorkflowRecord (record : WorkflowRecord) : BucketM wire.Bytes (Option (Int × Int)) := do
  let key := workflowKeyFromProto record.key
  validateWorkflowRecord record key
  let pointerTimes ← latestPointerTimes wire record
  let path ← key.path
  let dir ← key.dirPath
  createDir dir
  writeObject path (wire.workflow.marshal record)
  return pointerTimes

/-- What `PutWorkflow` does after it has written the record. -/
def movePointer (record : WorkflowRecord) : Option (Int × Int) → BucketM wire.Bytes Unit
  | none => pure ()
  | some (recordTime, runOrderTime) => putLatestWorkflowRun wire record recordTime runOrderTime

/-- `PutWorkflow`, with the lock that `putLatestWorkflowRun` takes. -/
def guardedPutWorkflow (record : WorkflowRecord) : GuardedM wire.Bytes Unit := do
  match ← onBucket (putWorkflowRecord wire record) with
  | none => pure ()
  | some times => holdingPointer (movePointer wire record (some times))

inductive RunCall where
  | put (record : WorkflowRecord)
  | delete (key : WorkflowKey)
  | latest (ns workflowID : String)

inductive RunReply where
  | put (record : WorkflowRecord) (r : Except Err Unit)
  | delete (r : Except Err Bool)
  | latest (r : Except Err (Option LatestWorkflowRunPointer))

def RunCall.program : RunCall → Program (guardedSignature wire.Bytes) RunReply
  | .put record => (guardedPutWorkflow wire record).run.bind fun r => .done (.put record r)
  | .delete key => (onBucket (deleteWorkflow wire key)).run.bind fun r => .done (.delete r)
  | .latest ns workflowID =>
    (onBucket (getLatestWorkflowRun wire ns workflowID)).run.bind fun r => .done (.latest r)

def Dated (record : WorkflowRecord) : Prop :=
  workflowStatusHasLatestPointer record.status = true ∧ record.createdAt.isSome

/-- The bucket and the holder of the mutex, with ghosts: the put that each goroutine has under
way, the records of the puts that have succeeded, whether a call has crashed, and the bucket as
it was at the last operation of each goroutine. -/
structure RunStore (ι : Type) where
  bucket : Bucket wire.Bytes
  holder : Option ι
  puts : ι → Option WorkflowRecord
  recorded : List WorkflowRecord
  crashed : Bool
  seen : ι → Bucket wire.Bytes

variable {wire} {ι : Type} [DecidableEq ι]

namespace RunStore

variable (s : RunStore wire ι)

def onBegin (i : ι) : RunCall → RunStore wire ι
  | .put record => { s with puts := Function.update s.puts i (some record) }
  | .delete _ | .latest _ _ => s

/-- The state after goroutine `i` has used the bucket at some time. -/
def operate (i : ι) (time : Int) (op : BucketOp wire.Bytes) : RunStore wire ι :=
  { s with
    bucket := ({ s.bucket with time := time }.step op).2
    seen := Function.update s.seen i s.bucket }

/-- One operation of goroutine `i`. The clock may have moved before it. -/
def act (i : ι) : (op : GuardedOp wire.Bytes) → op.Reply → RunStore wire ι → Prop
  | .lock, _, s' => s.holder = none ∧ s' = { s with holder := some i }
  | .unlock, _, s' => s.holder = some i ∧ s' = { s with holder := none }
  | .bucket op, r, s' => ∃ time, Timestamp.InRange time ∧
    r = ({ s.bucket with time := time }.step op).1 ∧ s' = s.operate i time op

def onReturn (i : ι) (reply : RunReply) : RunStore wire ι :=
  { s with
    puts := Function.update s.puts i none
    recorded := match reply with
      | .put record (.ok _) => record :: s.recorded
      | .put _ (.error _) | .delete _ | .latest _ => s.recorded }

def onCrash (i : ι) : RunStore wire ι :=
  { s with
    holder := if s.holder = some i then none else s.holder
    puts := Function.update s.puts i none
    crashed := true }

end RunStore

variable (wire) in
/-- Puts, deletes and reads that share the bucket and the guard, interleaved and crashing. -/
def latestRace (ι : Type) [DecidableEq ι] :
    System (guardedSignature wire.Bytes) ι (RunStore wire ι) RunReply where
  begins i s p s' := s.puts i = none ∧ ∃ call, (∀ record, call = .put record → Dated record) ∧
    p = RunCall.program wire call ∧ s' = s.onBegin i call
  acts i s op r s' := s.act i op r s'
  returns i s reply s' := s' = s.onReturn i reply
  crashes i s s' := s' = s.onCrash i

structure RunStore.Fresh (s : RunStore wire ι) : Prop where
  objects : s.bucket.objects = ∅
  holder : s.holder = none
  puts : ∀ i, s.puts i = none
  recorded : s.recorded = []
  crashed : s.crashed = false

def recordTime (record : WorkflowRecord) : Int :=
  match record.status, record.completedAt with
  | .completed, some t | .failed, some t => t.asTime
  | _, _ => timeOf record.createdAt

def runOrder (record : WorkflowRecord) : Int :=
  (record.runOrderTime.map Timestamp.asTime).getD (recordTime record)

def recordStamp (record : WorkflowRecord) : Int ×ₗ Int := toLex (runOrder record, recordTime record)

def pointerStamp (pointer : LatestWorkflowRunPointer) : Int ×ₗ Int :=
  toLex (timeOf pointer.runOrderTime, timeOf pointer.recordTime)

/-- The pointer of a workflow, and the workflow of a record. -/
def pointerAt (b : Bucket wire.Bytes) (ns workflowID : String) : Option LatestWorkflowRunPointer :=
  storedRecord wire.latest b.objects (Address.latest ns workflowID).path

def OfWorkflow (ns workflowID : String) (record : WorkflowRecord) : Prop :=
  (workflowKeyFromProto record.key).withDefaults.ns = ns ∧
    (workflowKeyFromProto record.key).workflowID = workflowID

/-- The pointer names a stored run and agrees with its record. -/
def Names (b : Bucket wire.Bytes) (pointer : LatestWorkflowRunPointer) : Prop :=
  ∃ (h : (workflowKeyFromProto pointer.key).Valid) (record : WorkflowRecord),
    workflowRecord wire b.objects ((workflowKeyFromProto pointer.key).stored h) = some record ∧
    pointer.status = record.status ∧ timeOf pointer.recordTime = recordTime record ∧
    timeOf pointer.runOrderTime = runOrder record

end Temporaless.OpenDALStore
