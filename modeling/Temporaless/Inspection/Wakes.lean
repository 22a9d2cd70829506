import Temporaless.Inspection.World
import Temporaless.Storage.TimerLedger

/-!
# Which ledger entries are invalid

A timer scan and `ListScheduledWakes` check the entries of the due ledger with code of their own. Only
the scan fills in the default namespace, and only the scan checks the status and the deadlines of every
entry; the inspection compares the deadlines of scheduled ones.
-/

namespace Temporaless.Inspection

open PathTree Effects OpenDALStore

variable {formats : RecordWire} {ns : String} {path : Path} {data : formats.Bytes} {entry : DueTimerEntry}

section Reads

variable {w : World formats.Bytes} {store : Store}

/-- The object that a store holds at a path, where reading it succeeds. -/
def World.Holds (w : World formats.Bytes) (store : Store) (path : Path) (data : formats.Bytes) : Prop :=
  (w.view store.id).readFailure path = none ∧
    (w.view store.id).bucket.objects.lookup path = some data

theorem World.Holds.run_readPath (h : w.Holds store path data) :
    w.run (readPath store path) = .ok (some data) := by
  rw [World.run_readPath]
  simp only [World.answer, h.1, h.2]

end Reads

section Scan

variable {wire : Wire} {data : wire.Bytes}

end Scan

def mainStore : Store := ⟨"main", ["default"], false, 0⟩

def bellRecord (status : TimerStatus) : TimerRecord :=
  { schemaVersion := .timer, key := some ⟨"default", "orders", "run-1", "bell"⟩, timerKind := .sleep
    duration := none, status := status, fireAt := some ⟨100, 0⟩, createdAt := some ⟨0, 0⟩
    firedAt := none, retryActivityId := "" }

def bellEntry (ns : String) (status : TimerStatus) : DueTimerEntry :=
  { key := some ⟨ns, "orders", "run-1", "bell"⟩, workflowKey := some ⟨ns, "orders", "run-1"⟩
    fireAt := some ⟨100, 0⟩, record := some (bellRecord status) }

def bellPath : Path := dueRoot "default" ++ ["orders", "run-1", "bell.binpb"]

def bellData (entry : DueTimerEntry) : taggedRecordWire.Bytes := .inl (.due entry)

def bellBucket (entry : DueTimerEntry) : Bucket taggedRecordWire.Bytes :=
  ⟨AList.singleton bellPath (bellData entry), [], 0⟩

def bellKey (ns : String) : TimerKey := ⟨ns, "orders", "run-1", "bell"⟩

end Temporaless.Inspection
