import Temporaless.Framework.IsoTime
import Temporaless.Framework.Table
import Temporaless.Python.Store

/-!
# The tables of the query index

The SQLite index keeps the key, the status and the timestamps of every workflow, activity and timer
record. Each function below is the body of one transaction. While the index is rebuilt, the
transactions and the triggers note the keys of the rows that change.
-/

namespace Temporaless.IndexStore

open Python

/-- Microseconds since the epoch, of the first and after the last instant of a `datetime`. -/
def minMicros : Int := -62135596800000000

def endMicros : Int := 253402300800000000

/-- `_dt`, of an instant in microseconds since the epoch. -/
def dt (t : Int) : Except Err String :=
  if minMicros ≤ t ∧ t < endMicros then .ok (IsoTime.isoformat (t - minMicros).toNat)
  else .error (exception .overflowError "date value out of range")

/-- `_ts`. -/
def ts (field : Option Timestamp) : Except Err String :=
  match field with
  | none => .ok ""
  | some t => do dt (← timestampFromProto t)

theorem dt_eq_ok {t : Int} {text : String} :
    dt t = .ok text ↔ (minMicros ≤ t ∧ t < endMicros) ∧ IsoTime.isoformat (t - minMicros).toNat = text := by
  unfold dt
  split
  next h => simp [h]
  next h => simp [h]

theorem dt_le_iff {t t' : Int} {text text' : String} (h : dt t = .ok text) (h' : dt t' = .ok text') :
    text ≤ text' ↔ t ≤ t' := by
  obtain ⟨hrange, rfl⟩ := dt_eq_ok.1 h
  obtain ⟨hrange', rfl⟩ := dt_eq_ok.1 h'
  simp only [minMicros, endMicros] at hrange hrange' ⊢
  rw [IsoTime.isoformat_le_iff]
  · omega
  · simp only [IsoTime.lastDay]
    omega
  · simp only [IsoTime.lastDay]
    omega

theorem dt_ne_empty {t : Int} {text : String} (h : dt t = .ok text) : text ≠ "" := by
  obtain ⟨-, rfl⟩ := dt_eq_ok.1 h
  exact IsoTime.isoformat_ne_empty _

theorem exists_dt {t : Timestamp} {micros : Int} (h : timestampFromProto t = .ok micros) :
    ∃ text, dt micros = .ok text := by
  unfold timestampFromProto at h
  split at h
  next hvalid =>
    simp only [Timestamp.checkValid, decide_eq_true_eq] at hvalid
    refine ⟨_, dt_eq_ok.2 ⟨?_, rfl⟩⟩
    obtain rfl := Except.ok.inj h
    simp only [minMicros, endMicros]
    omega
  next => cases h

inductive IndexKind where
  | workflow | activity | timer
  deriving DecidableEq, Repr

structure RecordRow where
  status : Int
  createdAt : String
  completedAt : String
  deriving DecidableEq, Repr

structure TimerRow where
  status : Int
  fireAt : String
  createdAt : String
  firedAt : String
  deriving DecidableEq, Repr

namespace IndexKind

abbrev Key : IndexKind → Type
  | .workflow => WorkflowKey
  | .activity => ActivityKey
  | .timer => TimerKey

abbrev Record : IndexKind → Type
  | .workflow => WorkflowRecord
  | .activity => ActivityRecord
  | .timer => TimerRecord

abbrev Row : IndexKind → Type
  | .workflow => RecordRow
  | .activity => RecordRow
  | .timer => TimerRow

instance : (k : IndexKind) → DecidableEq k.Key
  | .workflow => inferInstanceAs (DecidableEq WorkflowKey)
  | .activity => inferInstanceAs (DecidableEq ActivityKey)
  | .timer => inferInstanceAs (DecidableEq TimerKey)

def runOf : (k : IndexKind) → k.Key → WorkflowKey
  | .workflow, key => key
  | .activity, key => ItemKey.run key
  | .timer, key => ItemKey.run key

/-- `workflow_key_from_proto` and its siblings. -/
def keyFromProto : (k : IndexKind) → k.Record → k.Key
  | .workflow, record => workflowKeyFromProto record.key
  | .activity, record => (itemKeyFromProto record.key).withDefaults
  | .timer, record => timerKeyFromProto record.key

end IndexKind

def workflowStatusNumber : WorkflowStatus → Int
  | .unspecified => 0
  | .completed => 1
  | .failed => 2
  | .inProgress => 3

def activityStatusNumber : ActivityStatus → Int
  | .unspecified => 0
  | .completed => 1
  | .failed => 2
  | .retrying => 3

def timerStatusNumber : TimerStatus → Int
  | .unspecified => 0
  | .scheduled => 1
  | .fired => 2
  | .canceled => 3

def IndexKind.project : (k : IndexKind) → k.Record → Except Err k.Row
  | .workflow, record => do
    return ⟨workflowStatusNumber record.status, ← ts record.createdAt, ← ts record.completedAt⟩
  | .activity, record => do
    return ⟨activityStatusNumber record.status, ← ts record.createdAt, ← ts record.completedAt⟩
  | .timer, record => do
    return ⟨timerStatusNumber record.status, ← ts record.fireAt, ← ts record.createdAt,
      ← ts record.firedAt⟩

structure Tables where
  rows : (k : IndexKind) → AList fun _ : k.Key => k.Row

namespace Tables

def empty : Tables := ⟨fun _ => ∅⟩

def set (t : Tables) (k : IndexKind) (rows : AList fun _ : k.Key => k.Row) : Tables :=
  ⟨Function.update t.rows k rows⟩

def lookup (t : Tables) (k : IndexKind) (key : k.Key) : Option k.Row := (t.rows k).lookup key

/-- `INSERT … ON CONFLICT DO UPDATE`. -/
def upsert (t : Tables) (k : IndexKind) (key : k.Key) (row : k.Row) : Tables :=
  t.set k ((t.rows k).insert key row)

/-- `DELETE FROM … WHERE`. -/
def deleteWhere (t : Tables) (k : IndexKind) (p : k.Key → Bool) : Tables :=
  t.set k (Table.keep (fun key => !p key) (t.rows k))

end Tables

/-- The keys and the runs that have changed since a rebuild has started. -/
structure Staging where
  dirty : (k : IndexKind) → List k.Key
  dirtyRuns : List WorkflowKey

namespace Staging

/-- `INSERT … ON CONFLICT DO NOTHING` into the table of dirty keys. -/
def markDirty (s : Staging) (k : IndexKind) (keys : List k.Key) : Staging :=
  { s with dirty := Function.update s.dirty k (keys ∪ s.dirty k) }

def markRunDirty (s : Staging) (run : WorkflowKey) : Staging :=
  { s with dirtyRuns := [run] ∪ s.dirtyRuns }

end Staging

/-- The database. The triggers are there while `tracking` holds. -/
structure Index where
  live : Tables
  staging : Option Staging
  tracking : Bool

namespace Index

/-- `_mark_rebuild_dirty`: nothing happens where the table is missing. -/
def markDirty (ix : Index) (k : IndexKind) (keys : List k.Key) : Index :=
  { ix with staging := ix.staging.map (·.markDirty k keys) }

def track (ix : Index) (k : IndexKind) (keys : List k.Key) : Index :=
  if ix.tracking then ix.markDirty k keys else ix

def upsert (ix : Index) (k : IndexKind) (key : k.Key) (row : k.Row) : Index :=
  { ix with live := ix.live.upsert k key row }.track k [key]

def deleteWhere (ix : Index) (k : IndexKind) (p : k.Key → Bool) : Index :=
  { ix with live := ix.live.deleteWhere k p }.track k ((ix.live.rows k).keys.filter p)

/-- `_delete_workflow_row` and its siblings. -/
def deleteRow (ix : Index) (k : IndexKind) (key : k.Key) (mark : Bool) : Index :=
  let ix := ix.deleteWhere k fun other => other == key
  if mark then ix.markDirty k [key] else ix

/-- `_mark_rebuild_run_dirty`. -/
def markRunDirty (ix : Index) (run : WorkflowKey) : Index :=
  { ix with staging := ix.staging.map fun s => (s.markRunDirty run).markDirty .workflow [run] }

/-- `_delete_run_rows`. -/
def deleteRunRows (ix : Index) (run : WorkflowKey) (mark : Bool) : Index :=
  let ix := ix.deleteWhere .activity fun key => IndexKind.runOf .activity key == run
  let ix := ix.deleteWhere .timer fun key => IndexKind.runOf .timer key == run
  let ix := ix.deleteWhere .workflow fun key => IndexKind.runOf .workflow key == run
  if mark then ix.markRunDirty run else ix

/-- `_select_sweep`. -/
def selectSweep (ix : Index) (ns cutoff : String) : List (WorkflowKey × RecordRow) :=
  ((ix.live.rows .workflow).entries.map fun row => (row.1, row.2)).filter fun row =>
    (ns == "" || row.1.ns == ns) &&
      (row.2.status == workflowStatusNumber .completed && row.2.completedAt != "" &&
        decide (row.2.completedAt ≤ cutoff))

/-- `_select_due_timers`. -/
def selectDueTimers (ix : Index) (ns now : String) : List (TimerKey × TimerRow) :=
  (((ix.live.rows .timer).entries.map fun row => (row.1, row.2)).filter fun row =>
    (ns == "" || row.1.ns == ns) &&
      (row.2.status == timerStatusNumber .scheduled && row.2.fireAt != "" &&
        decide (row.2.fireAt ≤ now))).insertionSort (·.2.fireAt ≤ ·.2.fireAt)

end Index

/-- The transactions that the modelled calls make. -/
inductive Transaction where
  | upsert (k : IndexKind) (record : k.Record)
  | deleteRow (k : IndexKind) (key : k.Key) (mark : Bool)
  | deleteRunRows (run : WorkflowKey) (mark : Bool)
  | selectSweep (ns cutoff : String)
  | selectDueTimers (ns : String) (now : Int)

abbrev Transaction.Answer : Transaction → Type
  | .upsert _ _ => Unit
  | .deleteRow _ _ _ => Unit
  | .deleteRunRows _ _ => Unit
  | .selectSweep _ _ => List (WorkflowKey × RecordRow)
  | .selectDueTimers _ _ => List (TimerKey × TimerRow)

def Index.orRollBack (ix : Index) (r : Except Err Index) : Except Err Unit × Index :=
  match r with
  | .error err => (.error err, ix)
  | .ok ix' => (.ok (), ix')

def Index.commit (ix : Index) : (t : Transaction) → Except Err t.Answer × Index
  | .upsert k record =>
    ix.orRollBack ((k.project record).map fun row => ix.upsert k (k.keyFromProto record) row)
  | .deleteRow k key mark => (.ok (), ix.deleteRow k key mark)
  | .deleteRunRows run mark => (.ok (), ix.deleteRunRows run mark)
  | .selectSweep ns cutoff => (.ok (ix.selectSweep ns cutoff), ix)
  | .selectDueTimers ns now => ((dt now).map (ix.selectDueTimers ns), ix)

end Temporaless.IndexStore
