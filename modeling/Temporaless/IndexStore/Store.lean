import Temporaless.IndexStore.Tables
import Temporaless.Python.DeleteRun

/-!
# The indexed store

`IndexedStore` sends every write through to the store it wraps, the bucket store of the Python SDK,
and then to the index. The claims are kept there or in a second bucket store. A transaction of the
index may fail, before it commits or after.
-/

namespace Temporaless.IndexStore

open PathTree Effects Python

inductive IndexOp (Bytes : Type) where
  | store (op : BucketOp Bytes)
  | claims (op : BucketOp Bytes)
  | transact (t : Transaction)

abbrev IndexOp.Reply {Bytes : Type} : IndexOp Bytes → Type
  | .store op => op.Reply
  | .claims op => op.Reply
  | .transact t => Except Err t.Answer

abbrev indexSignature (Bytes : Type) : Signature := ⟨IndexOp Bytes, IndexOp.Reply⟩

abbrev IndexM (Bytes : Type) (α : Type) := ExceptT Err (Program (indexSignature Bytes)) α

section Calls

variable {Bytes α : Type}

def inner (code : BucketM Bytes α) : IndexM Bytes α :=
  ExceptT.mk (code.run.hoist (τ := indexSignature Bytes) .store fun _ r => r)

def separate (code : BucketM Bytes α) : IndexM Bytes α :=
  ExceptT.mk (code.run.hoist (τ := indexSignature Bytes) .claims fun _ r => r)

/-- `_run_db`. -/
def runDB (t : Transaction) : IndexM Bytes t.Answer :=
  ExceptT.mk (.call (σ := indexSignature Bytes) (.transact t) .done)

def quietly (t : Transaction) : IndexM Bytes Unit := do
  let _ ← attempt (runDB t)

/-- `for row in rows: …`, where the body passes a state on. -/
def forRows {ρ σ : Type} (body : σ → ρ → IndexM Bytes σ) : List ρ → σ → IndexM Bytes σ
  | [], state => pure state
  | row :: rows, state => do
    let state ← body state row
    forRows body rows state

end Calls

/-- What becomes of a transaction. One that fails may have been applied. -/
inductive Fate where
  | commits
  | fails (err : Err) (applied : Bool)

/-- The two buckets, the index, and the fates of the transactions to come. -/
structure World (Bytes : Type) where
  bucket : Bucket Bytes
  claims : Bucket Bytes
  index : Index
  fates : Nat → Fate

namespace World

variable {Bytes : Type}

def transact (w : World Bytes) (t : Transaction) : Except Err t.Answer × World Bytes :=
  let later := { w with fates := fun n => w.fates (n + 1) }
  match w.fates 0 with
  | .commits => ((w.index.commit t).1, { later with index := (w.index.commit t).2 })
  | .fails err true => (.error err, { later with index := (w.index.commit t).2 })
  | .fails err false => (.error err, later)

def step (w : World Bytes) : (op : IndexOp Bytes) → op.Reply × World Bytes
  | .store op => ((w.bucket.step op).1, { w with bucket := (w.bucket.step op).2 })
  | .claims op => ((w.claims.step op).1, { w with claims := (w.claims.step op).2 })
  | .transact t => w.transact t

abbrev exec {α : Type} (code : IndexM Bytes α) (w : World Bytes) : Except Err α × World Bytes :=
  execute step code w

end World

section Exec

variable {Bytes α : Type} (w : World Bytes)

@[simp] theorem exec_inner (code : BucketM Bytes α) :
    w.exec (inner code) = ((w.bucket.exec code).1, { w with bucket := (w.bucket.exec code).2 }) :=
  Program.exec_hoist (σ := bucketSignature Bytes) (τ := indexSignature Bytes) Bucket.step
    .store (fun _ r => r) World.step (fun b => { w with bucket := b }) (fun _ _ => ⟨rfl, rfl⟩) code.run w.bucket

@[simp] theorem exec_separate (code : BucketM Bytes α) :
    w.exec (separate code) = ((w.claims.exec code).1, { w with claims := (w.claims.exec code).2 }) :=
  Program.exec_hoist (σ := bucketSignature Bytes) (τ := indexSignature Bytes) Bucket.step
    .claims (fun _ r => r) World.step (fun b => { w with claims := b }) (fun _ _ => ⟨rfl, rfl⟩) code.run w.claims

theorem exec_quietly (t : Transaction) : w.exec (quietly t) = (.ok (), (w.transact t).2) := by
  rw [World.exec, quietly, execute_bind, execute_attempt]
  rfl

variable {w} in
theorem transact_of_fails {t : Transaction} (h : w.fates 0 ≠ .commits) :
    ∃ err, (w.transact t).1 = .error err := by
  unfold World.transact
  cases hfate : w.fates 0 with
  | commits => exact absurd hfate h
  | fails err applied => cases applied <;> exact ⟨err, rfl⟩

structure World.SameBuckets (w w' : World Bytes) : Prop where
  bucket : w'.bucket = w.bucket
  claims : w'.claims = w.claims

theorem fates_transact (t : Transaction) (n : Nat) : (w.transact t).2.fates n = w.fates (n + 1) := by
  unfold World.transact
  split <;> rfl

theorem sameBuckets_transact (t : Transaction) : w.SameBuckets (w.transact t).2 := by
  unfold World.transact
  split <;> exact ⟨rfl, rfl⟩

end Exec

section Store

variable (wire : RecordWire)

/-- `due_by_key[item.key] = item`. -/
def setDue (due : List DueTimer) (item : DueTimer) : List DueTimer :=
  if due.any (·.key == item.key) then due.map fun other => if other.key == item.key then item else other
  else due ++ [item]

/-- `_due_timer_sort_key` orders as the sort key of the wrapped store does. -/
def sortDue (due : List DueTimer) : List DueTimer :=
  due.insertionSort fun left right => dueOrder left ≤ dueOrder right

def checkTimerKey (key : TimerKey) (timer : Option TimerRecord) : Except Err Unit :=
  whenGiven timer fun record => do
    let authoritative := timerKeyFromProto record.key
    validateTimerKey authoritative
    if authoritative ≠ key then
      throw (exception .valueError "authoritative timer payload key does not match its index row")

def checkWorkflowKey (key : WorkflowKey) (workflow : Option WorkflowRecord) : Except Err Unit :=
  whenGiven workflow fun record => do
    let authoritative := workflowKeyFromProto record.key
    validateWorkflowKey authoritative
    if authoritative ≠ key then
      throw (exception .valueError
        "authoritative workflow payload key does not match the timer index row")

def readRow (key : TimerKey) : IndexM wire.Bytes (Option TimerRecord × Option WorkflowRecord) := do
  validateTimerKey key
  validateWorkflowKey key.run
  let timer ← inner (getTimer wire.toWire key)
  let workflow ← inner (getWorkflow wire.toWire key.run)
  checkTimerKey key timer
  checkWorkflowKey key.run workflow
  return (timer, workflow)

def refreshRow (row : TimerRow) (timer : TimerRecord) (indexed : String) : IndexM wire.Bytes Unit :=
  if indexed ≠ row.fireAt then quietly (.upsert .timer timer) else pure ()

def pruneRow (key : TimerKey) (due : List DueTimer) : IndexM wire.Bytes (List DueTimer) := do
  quietly (.deleteRow .timer key false)
  return due

def mergeScheduled (now : Int) (due : List DueTimer) (key : TimerKey) (row : TimerRow)
    (timer : TimerRecord) (workflow : Option WorkflowRecord) (fireAt : Int) :
    IndexM wire.Bytes (List DueTimer) := do
  let indexed ← dt fireAt
  if now < fireAt then
    refreshRow wire row timer indexed
    return due
  refreshRow wire row timer indexed
  match workflow.filter (·.status = .inProgress) with
  | none => pruneRow wire key due
  | some workflow => return setDue due ⟨key, timer, workflow⟩

def mergeRow (now : Int) (due : List DueTimer) (row : TimerKey × TimerRow) :
    IndexM wire.Bytes (List DueTimer) := do
  if due.any (·.key == row.1) then
    return due
  match ← attempt (readRow wire row.1) with
  | .error err => if recoverable err then pruneRow wire row.1 due else throw err
  | .ok (timer, workflow) =>
    match timer.filter (·.status = .scheduled) with
    | none => pruneRow wire row.1 due
    | some timer =>
      match timestampFromProto (fireAtOf timer.fireAt) with
      | .error _ => pruneRow wire row.1 due
      | .ok fireAt => mergeScheduled wire now due row.1 row.2 timer workflow fireAt

def repairRows : List DueTimer → IndexM wire.Bytes Unit
  | [] => pure ()
  | item :: items => do
    quietly (.upsert .timer item.record)
    repairRows items

def dueTimers (fuel : Nat) (ns : String) (now : Int) : IndexM wire.Bytes (List DueTimer) := do
  let authoritativeDue ← inner (Python.dueTimers wire.toWire fuel ns now)
  repairRows wire authoritativeDue
  match ← attempt (runDB (.selectDueTimers ns now)) with
  | .error _ => return sortDue authoritativeDue
  | .ok rows =>
    let due ← forRows (mergeRow wire now) rows (authoritativeDue.foldl setDue [])
    return sortDue due

/-- The claims of the store: in the wrapped store, or in a claim store of their own. -/
structure Config where
  innerCapability : ClaimCapability
  claimStore : Option ClaimCapability

/-- `_current_claim_capability`. -/
def currentClaimCapability : ClaimCapability → Except Err ClaimCapability
  | .unspecified | .noClaims => .ok .noClaims
  | .createOnlyClaims => .ok .createOnlyClaims
  | capability@.casClaims => .error (exception .valueError ("claim capability " ++ capability.name ++
      " is unsupported by the current create-only claim interface"))

variable (config : Config)

def onClaims {α : Type} (code : BucketM wire.Bytes α) : IndexM wire.Bytes α :=
  if config.claimStore.isSome then separate code else inner code

def claimDeletionPlan (key : WorkflowKey) : IndexM wire.Bytes (List ClaimKey) := do
  let capability ← currentClaimCapability (config.claimStore.getD config.innerCapability)
  if capability ≠ .createOnlyClaims then
    return []
  let records ← onClaims wire config (listClaims wire key)
  claimKeysForRun key records

def validateInnerClaims (key : WorkflowKey) : IndexM wire.Bytes Unit := do
  if config.claimStore.isNone then
    return ()
  let capability ← currentClaimCapability config.innerCapability
  if capability ≠ .createOnlyClaims then
    return ()
  let records ← inner (listClaims wire key)
  let _ ← claimKeysForRun key records

def validateInnerDeletionPlan (fuel : Nat) (key : WorkflowKey) : IndexM wire.Bytes Unit := do
  let activities ← inner (listActivities wire key)
  let timers ← inner (listTimers wire.toWire fuel key .unspecified)
  let events ← inner (listEvents wire.toWire key)
  let _ ← activityKeysForRun key activities
  let _ ← timerKeysForRun key timers .unspecified
  let _ ← eventKeysForRun key events
  validateInnerClaims wire config key

def deleteRun (fuel : Nat) (key : WorkflowKey) : IndexM wire.Bytes Nat := do
  let claimKeys ← claimDeletionPlan wire config key
  validateInnerDeletionPlan wire config fuel key
  let claims ← onClaims wire config (deleteEach (deleteClaim wire) claimKeys 0)
  let records ← inner (Python.deleteRun wire fuel key)
  quietly (.deleteRunRows key true)
  return claims + records

end Store

/-- A time zone: the offset from UTC of a time on the wall clock, in microseconds. The flag tells the
two readings of a repeated hour apart. -/
structure Zone where
  utcoffset : Int → Bool → Int
  bound : ∀ wall fold, |utcoffset wall fold| < 86400000000

/-- An aware `datetime`, by the microseconds that its wall clock shows. -/
structure DateTime where
  wall : Int
  fold : Bool
  zone : Zone
  inRange : minMicros ≤ wall ∧ wall < endMicros

namespace DateTime

def instant (t : DateTime) : Int := t.wall - t.zone.utcoffset t.wall t.fold

/-- The difference of a `datetime` and a `timedelta`: the wall clock is moved. -/
def sub (t : DateTime) (delta : Int) : Except Err DateTime :=
  if h : minMicros ≤ t.wall - delta ∧ t.wall - delta < endMicros then
    .ok ⟨t.wall - delta, false, t.zone, h⟩
  else .error (exception .overflowError "date value out of range")

end DateTime

section Sweep

variable (wire : RecordWire) (config : Config)

def sweepCutoff (now : DateTime) (maxAge : Int) : Except Err String := do
  dt (← now.sub maxAge).instant

def expired (now : DateTime) (maxAge : Int) (record : WorkflowRecord) : Except Err Bool := do
  if record.status ≠ .completed then
    return false
  match record.completedAt with
  | none => return false
  | some completedAt =>
    match timestampFromProto completedAt with
    | .error _ => throw (exception .valueError "workflow completed_at is invalid")
    | .ok completedAt =>
      let cutoff ← now.sub maxAge
      return decide (completedAt ≤ cutoff.instant)

def sweepRecord (fuel : Nat) (now : DateTime) (maxAge : Int) (deleted : Nat) (key : WorkflowKey)
    (record : WorkflowRecord) : IndexM wire.Bytes Nat := do
  runDB (.upsert .workflow record)
  if ← expired now maxAge record then
    let _ ← deleteRun wire config fuel key
    return deleted + 1
  else return deleted

def sweepRow (fuel : Nat) (now : DateTime) (maxAge : Int) (deleted : Nat)
    (row : WorkflowKey × RecordRow) : IndexM wire.Bytes Nat := do
  match ← inner (getWorkflow wire.toWire row.1) with
  | none =>
    runDB (.deleteRow .workflow row.1 false)
    return deleted
  | some record => sweepRecord wire config fuel now maxAge deleted row.1 record

/-- Deletes the indexed runs older than `maxAge` and counts them. -/
def sweep (fuel : Nat) (ns : String) (now : DateTime) (maxAge : Int) : IndexM wire.Bytes Nat := do
  if maxAge ≤ 0 then
    throw (exception .valueError "max_age must be > 0")
  let cutoff ← sweepCutoff now maxAge
  let rows ← runDB (.selectSweep ns cutoff)
  forRows (sweepRow wire config fuel now maxAge) rows 0

end Sweep

end Temporaless.IndexStore
