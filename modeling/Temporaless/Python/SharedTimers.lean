import Temporaless.Python.Scans
import Temporaless.Storage.DueScan

/-!
# Timers that both stores write

The Go store and the Python store put, delete and scan timers in one bucket. Records with a deadline
and an explicit namespace keep the bucket in a common form, in which every entry and point record is
accepted by both.
-/

namespace Temporaless.Python

open PathTree Effects OpenDALStore

/-- A record with a deadline that both stores keep in the ledger of the key. -/
structure Sound (record : TimerRecord) (key : RecordKey .timer) : Prop extends
    Shareable record key where
  deadline : record.fireAt.isSome

theorem Sound.tombstone {record : TimerRecord} {key : RecordKey .timer} (h : Sound record key) :
    Sound (OpenDALStore.tombstone record) key :=
  ⟨.tombstone h.carries h.preparable.checked, h.deadline⟩

variable {wire : Wire} {P : TimerRecord → Prop}

/-- Every record is sound. Those at a point satisfy `P`, and so do those in the ledger except for the
tombstones, so that a scan may publish them. -/
structure Common (P : TimerRecord → Prop) (objects : Objects wire) : Prop where
  tidy : Tidy wire objects
  ledger : ∀ key record, ledgerRecord wire objects key = some record →
    Sound record key ∧ (record.status = .canceled ∨ P record)
  point : ∀ key record, pointRecord wire objects key = some record → Sound record key ∧ P record

section Common

variable {objects : Objects wire} {key : RecordKey .timer} {record : TimerRecord}

theorem pointRecord_publish (k : RecordKey .timer) :
    pointRecord wire (publish objects key record) k =
      if k = key then some record else pointRecord wire objects k := by
  split
  · next hk =>
      rw [hk]
      exact storedRecord_some lookup_publish
  · next hk =>
      have hne : Address.item .timer k ≠ .item .timer key := by simpa using hk
      exact storedRecord_insert_ne wire.timer hne _

theorem pointRecord_erase (k : RecordKey .timer) :
    pointRecord wire (objects.erase (Address.item .timer key).path) k =
      if k = key then none else pointRecord wire objects k := by
  split
  · next hk =>
      rw [hk]
      exact storedRecord_none (AList.lookup_erase _ _)
  · next hk =>
      have hne : Address.item .timer k ≠ .item .timer key := by simpa using hk
      exact storedRecord_erase_ne wire.timer hne

theorem pointRecord_prepare (k : RecordKey .timer) :
    pointRecord wire (OpenDALStore.prepare objects key record) k = pointRecord wire objects k := by
  have hne : Address.item .timer k ≠ .due key := by simp
  exact storedRecord_insert_ne wire.timer hne _

section

variable (h : Common P objects)

include h

theorem Common.prepare (hrecord : Sound record key)
    (hP : record.status = .canceled ∨ P record) :
    Common P (OpenDALStore.prepare objects key record) := by
  refine ⟨h.tidy.prepare hrecord.preparable, ?_, ?_⟩
  · intro k r hr
    rw [ledgerRecord_prepare] at hr
    split at hr
    · next hk =>
        rw [← Option.some.inj hr, hk]
        exact ⟨hrecord, hP⟩
    · exact h.ledger k r hr
  · intro k r hr
    rw [pointRecord_prepare] at hr
    exact h.point k r hr

theorem Common.publish (hrecord : Sound record key) (hP : P record)
    (hledger : (objects.lookup key.val.dueLocation).isSome) :
    Common P (OpenDALStore.publish objects key record) := by
  refine ⟨h.tidy.publish hrecord.preparable hledger, ?_, ?_⟩
  · intro k r hr
    rw [ledgerRecord_publish] at hr
    exact h.ledger k r hr
  · intro k r hr
    rw [pointRecord_publish] at hr
    split at hr
    · next hk =>
        rw [← Option.some.inj hr, hk]
        exact ⟨hrecord, hP⟩
    · exact h.point k r hr

theorem Common.erase (key : RecordKey .timer) :
    Common P (objects.erase (Address.item .timer key).path) := by
  refine ⟨h.tidy.erase (by simp), ?_, ?_⟩
  · intro k r hr
    rw [ledgerRecord_erase] at hr
    exact h.ledger k r hr
  · intro k r hr
    rw [pointRecord_erase] at hr
    split at hr
    · cases hr
    · exact h.point k r hr

theorem Common.quarantine (ns digest : String) (data : wire.Bytes) :
    Common P (objects.insert (Address.quarantine ns digest).path data) := by
  refine ⟨h.tidy.insert (a := .quarantine ns digest) trivial (by simp), ?_, ?_⟩
  · intro k r hr
    have hne : Address.due k ≠ .quarantine ns digest := by simp
    rw [ledgerRecord] at hr
    exact h.ledger k r ((congrArg (Option.bind · _)
      (storedRecord_insert_ne wire.due hne data)).symm.trans hr)
  · intro k r hr
    have hne : Address.item .timer k ≠ .quarantine ns digest := by simp
    exact h.point k r ((storedRecord_insert_ne wire.timer hne data).symm.trans hr)

theorem Common.entry {data : wire.Bytes} {entry : DueTimerEntry}
    (hlookup : objects.lookup key.val.dueLocation = some data)
    (hdata : wire.due.unmarshal data = .ok entry) :
    ∃ record, entry = OpenDALStore.dueEntry record ∧ ledgerRecord wire objects key = some record := by
  rcases h.tidy.ledger_cases key with ⟨hnone, -⟩ | ⟨record, hsome, hledger, -⟩
  · rw [hlookup] at hnone
    cases hnone
  · rw [hlookup] at hsome
    rw [Option.some.inj hsome, wire.due.unmarshal_marshal] at hdata
    exact ⟨record, (Except.ok.inj hdata).symm, hledger⟩

end

end Common

section Go

variable {b : Bucket wire.Bytes} {key : RecordKey .timer} {record : TimerRecord}

/-- A record that both stores may put: its key has a namespace, and its deadline is an instant. -/
structure Complete (record : TimerRecord) : Prop where
  ns : ∀ k, record.key = some k → k.ns ≠ ""
  deadline : record.fireAt.isSome
  checked : checkOptional record.fireAt = .ok ()

theorem Complete.sound (h : Complete record) (hprep : Preparable record key) : Sound record key := by
  refine ⟨⟨hprep, ?_⟩, h.deadline⟩
  have hkey := hprep.key
  cases hproto : record.key with
  | none =>
    have hvalid := (validateItem_eq_ok.1 hprep.valid).2.1
    rw [hproto] at hvalid
    exact absurd hvalid (by decide)
  | some k =>
    rw [hproto] at hkey
    rw [← hkey]
    exact congrArg some (ItemKey.withDefaults_of_ne (h.ns k hproto)).symm

end Go

section Python

variable {b : Bucket wire.Bytes} {key : RecordKey .timer} {record : TimerRecord}

theorem Common.carries_point (hb : Common P b.objects) {data : wire.Bytes}
    (hlookup : b.objects.lookup key.val.location = some data) :
    ∃ record, data = wire.timer.marshal record ∧ pointRecord wire b.objects key = some record ∧
      Sound record key := by
  obtain ⟨record, rfl, -⟩ := hb.tidy.wellStored (a := .item .timer key) hlookup
  have hpoint : pointRecord wire b.objects key = some record := storedRecord_some hlookup
  exact ⟨record, rfl, hpoint, (hb.point key record hpoint).1⟩

theorem exec_getCanonicalTimer (hb : Common P b.objects) :
    b.exec (getCanonicalTimer wire key.val) = (.ok (pointRecord wire b.objects key), b) := by
  cases hlookup : b.objects.lookup key.val.location with
  | none =>
    rw [exec_getCanonicalTimer_none hlookup, pointRecord, storedRecord_none hlookup]
  | some data =>
    obtain ⟨record, rfl, hpoint, hrecord⟩ := hb.carries_point hlookup
    rw [exec_getCanonicalTimer_some hlookup (wire.timer.unmarshal_marshal record) hrecord.carries,
      hpoint]

theorem exec_readDueEntry (hb : Common P b.objects) :
    b.exec (readDueEntry wire key.val) =
      (.ok ((ledgerRecord wire b.objects key).map OpenDALStore.dueEntry), b) := by
  rcases hb.tidy.ledger_cases key with ⟨hlookup, hledger⟩ | ⟨record, hlookup, hledger, -⟩
  · rw [exec_readDueEntry_none hlookup, hledger]
    rfl
  · rw [exec_readDueEntry_some (hb.ledger key record hledger).1.toShareable hlookup, hledger]
    rfl

theorem exec_usableCanonical (hb : Common P b.objects) :
    b.exec (usableCanonical wire key.val (b.objects.lookup key.val.location).isSome) =
      (.ok (pointRecord wire b.objects key), b) := by
  cases hlookup : b.objects.lookup key.val.location with
  | none => simp [usableCanonical, pointRecord, storedRecord_none hlookup]
  | some data => simp [usableCanonical, exec_bind, exec_getCanonicalTimer hb]

end Python

/-- The calls of the two stores that touch timers. -/
inductive SdkCall where
  | goPut (record : TimerRecord)
  | goDelete (key : TimerKey)
  | goDue (fuel : Nat) (ns : String) (now : Int)
  | pythonPut (record : TimerRecord)
  | pythonDelete (key : TimerKey)
  | pythonDue (fuel : Nat) (ns : String) (now : Int)

variable (wire) in
def SdkCall.code : SdkCall → BucketM wire.Bytes Unit
  | .goPut record => OpenDALStore.putTimer wire record
  | .goDelete key => (fun _ => ()) <$> OpenDALStore.deleteTimer wire key
  | .goDue fuel ns now => (fun _ => ()) <$> OpenDALStore.dueTimers wire fuel ns now
  | .pythonPut record => putTimer wire record
  | .pythonDelete key => (fun _ => ()) <$> deleteTimer wire key
  | .pythonDue fuel ns now => (fun _ => ()) <$> dueTimers wire fuel ns now

end Temporaless.Python
