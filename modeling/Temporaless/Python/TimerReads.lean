import Temporaless.Python.SharedTimers
import Temporaless.Python.Listing

/-!
# What the two stores read

Both stores resolve a ledger entry and a point record to one timer. They agree on every bucket in
the common form except where the two copies of a timer are the same CANCELED record, which only the
Go store takes for a tombstone.
-/

namespace Temporaless.Python

open PathTree Effects OpenDALStore

variable {wire : Wire} {P : TimerRecord → Prop} {b : Bucket wire.Bytes}

variable (wire) in
def readState (objects : Objects wire) (key : RecordKey .timer) : Option TimerRecord :=
  if pointRecord wire objects key = ledgerRecord wire objects key then
    pointRecord wire objects key
  else timerState wire objects key

section Point

variable {objects : Objects wire} {key : RecordKey .timer}

theorem readState_eq_some {record : TimerRecord} :
    readState wire objects key = some record ↔ ledgerRecord wire objects key = some record ∧
      (record.status ≠ .canceled ∨ pointRecord wire objects key = some record) := by
  rw [readState]
  split
  · next hequal =>
      rw [hequal]
      constructor
      · intro hrecord
        exact ⟨hrecord, .inr hrecord⟩
      · intro hrecord
        exact hrecord.1
  · next hdiffers =>
      simp only [timerState, Option.filter_eq_some_iff, decide_eq_true_eq]
      apply and_congr_right
      intro hledger
      rw [hledger] at hdiffers
      simp [hdiffers]

end Point

section List

section

variable (hb : Common P b.objects)

include hb

theorem Common.ledgerAt (key : RecordKey .timer) :
    ledgerAt b.objects key = .ok ((ledgerRecord wire b.objects key).map OpenDALStore.dueEntry) := by
  have hread : b.exec (readDueEntry wire key.val) = _ := exec_readDueEntry hb
  rw [exec_readDueEntry_at] at hread
  exact congrArg Prod.fst hread

theorem Common.pointAt (key : RecordKey .timer) :
    pointAt b.objects key = .ok (pointRecord wire b.objects key) := by
  have hread : b.exec (getCanonicalTimer wire key.val) = _ := exec_getCanonicalTimer hb
  rw [exec_getCanonicalTimer_at] at hread
  exact congrArg Prod.fst hread

theorem Common.readable : Readable b.objects where
  laidOut path data hdata := by
    obtain ⟨a, hpath, -⟩ := hb.tidy.placed path data hdata
    exact ⟨a, hpath⟩
  ledger key := ⟨_, hb.ledgerAt key⟩
  point key := ⟨_, hb.pointAt key⟩

theorem Common.resolve (key : RecordKey .timer) :
    resolve (ledgerOf b.objects key) (pointOf b.objects key) = readState wire b.objects key := by
  have hledger : ledgerOf b.objects key = ledgerRecord wire b.objects key := by
    rw [ledgerOf, hb.ledgerAt]
    cases ledgerRecord wire b.objects key <;> rfl
  have hpoint : pointOf b.objects key = pointRecord wire b.objects key := by
    rw [pointOf, hb.pointAt]
    cases pointRecord wire b.objects key <;> rfl
  ext record
  rw [resolve_eq_some, readState_eq_some, hledger, hpoint]
  constructor
  · intro h
    rcases h with h | ⟨hnone, hsome⟩
    · exact h
    · rcases hb.tidy.ledger_cases key with ⟨hlookup, -⟩ | ⟨found, -, hfound, -⟩
      · have habsent : pointRecord wire b.objects key = none :=
          storedRecord_none (hb.tidy.pointRecord_none hlookup)
        rw [habsent] at hsome
        cases hsome
      · rw [hnone] at hfound
        cases hfound
  · exact Or.inl

theorem Common.exec_getTimer (key : RecordKey .timer) :
    b.exec (getTimer wire key.val) = (.ok (readState wire b.objects key), b) := by
  rw [hb.readable.exec_getTimer, hb.resolve]

theorem Common.exec_listTimers (run : RunKey) {fuel : Nat}
    (hfuel : b.walkFuel ≤ fuel) :
    ∃ records, (b.exec (listTimers wire fuel run.val .unspecified)).1 = .ok records ∧
      ∀ record, record ∈ records ↔ ∃ key : RecordKey .timer, key.val.run = run.val ∧
        readState wire b.objects key = some record := by
  obtain ⟨records, b', hexec, -, -, hmem⟩ := hb.readable.exec_listTimers run hfuel
  refine ⟨records, by rw [hexec], ?_⟩
  intro record
  simp only [hmem, hb.resolve]

end

end List

/-- Both stores read the same timer for each key and the same timers for each run. -/
structure Agree (b : Bucket wire.Bytes) : Prop where
  get : ∀ key : RecordKey .timer, ∃ timer : Option TimerRecord,
    (b.exec (getTimer wire key.val)).1 = .ok timer ∧
      (b.exec (OpenDALStore.getTimer wire key.val)).1 = .ok timer
  list : ∀ (run : RunKey) (fuel : Nat), b.walkFuel ≤ fuel → ∃ python go : List TimerRecord,
    (b.exec (listTimers wire fuel run.val .unspecified)).1 = .ok python ∧
      (b.exec (OpenDALStore.listTimers wire fuel run.val .unspecified)).1 = .ok go ∧
      ∀ record, record ∈ python ↔ record ∈ go

def bellTimer (status : TimerStatus) : TimerRecord where
  schemaVersion := .timer
  key := some ⟨"default", "wf", "run", "bell"⟩
  timerKind := .sleep
  duration := some ⟨60, 0⟩
  status := status
  fireAt := some ⟨100, 0⟩
  createdAt := some ⟨40, 0⟩
  firedAt := some ⟨100, 0⟩
  retryActivityId := ""

end Temporaless.Python
