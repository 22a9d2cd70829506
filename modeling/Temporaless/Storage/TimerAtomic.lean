import Temporaless.Storage.Reached
import Temporaless.Storage.TimerList

/-!
# Timer calls are atomic under crashes

The abstract state of the timers is a finite map. Writing, deleting and scanning timers, with an
interruption after any number of object operations, acts on that map as a whole call or not at
all, for point reads and for listings alike.
-/

namespace Temporaless.OpenDALStore

open PathTree Effects

abbrev TimerMap := Finmap fun _ : RecordKey .timer => TimerRecord

def acceptedKey (record : TimerRecord) : Option (RecordKey .timer) :=
  let key := (itemKeyFromProto record.key).withDefaults
  match validateTimerRecord record key, checkPrepared record with
  | .ok _, .ok _ => if h : key.Valid then some ⟨key, h, ItemKey.withDefaults_ns_ne _⟩ else none
  | _, _ => none

theorem acceptedKey_eq_some {record : TimerRecord} {key : RecordKey .timer} :
    acceptedKey record = some key ↔ Preparable record key := by
  constructor
  · intro h
    simp only [acceptedKey] at h
    split at h
    · next hvalid hcheck =>
        split at h
        · next hkey =>
            cases h
            obtain ⟨hstatus, hfire, hchecked⟩ := checkPrepared_eq_ok.1 hcheck
            exact ⟨hvalid, hstatus, hfire, hchecked⟩
        · cases h
    · cases h
  · intro h
    have hvalid : validateTimerRecord record (itemKeyFromProto record.key).withDefaults = .ok () := by
      rw [h.key]
      exact h.valid
    have hkey : (itemKeyFromProto record.key).withDefaults.Valid := by
      rw [h.key]
      exact key.property.1
    simp only [acceptedKey, hvalid, h.check_eq, hkey, dif_pos, Option.some.injEq]
    exact Subtype.ext h.key

inductive TimerCall where
  | put (record : TimerRecord)
  | delete (key : TimerKey)
  | due (fuel : Nat) (ns : String) (now : Int)

def TimerCall.apply (timers : TimerMap) : TimerCall → TimerMap
  | .put record =>
    match acceptedKey record with
    | none => timers
    | some key => if record.status = .canceled then timers.erase key else timers.insert key record
  | .delete key => if h : key.Valid then timers.erase (key.stored h) else timers
  | .due _ _ _ => timers

variable (wire : Wire)

def TimerCall.code : TimerCall → BucketM wire.Bytes Unit
  | .put record => putTimer wire record
  | .delete key => (fun _ => ()) <$> deleteTimer wire key
  | .due fuel ns now => (fun _ => ()) <$> dueTimers wire fuel ns now

/-- A sequence of calls; a call with a number is interrupted after so many operations. -/
def timerRun : List (TimerCall × Option Nat) → Bucket wire.Bytes → Bucket wire.Bytes
  | [], b => b
  | (call, none) :: calls, b => timerRun calls (b.exec (call.code wire)).2
  | (call, some n) :: calls, b => timerRun calls (b.cut n (call.code wire))

/-- The same sequence on the map: an interrupted call has happened or it has not. -/
inductive TimerHistory : List (TimerCall × Option Nat) → TimerMap → TimerMap → Prop where
  | nil (timers : TimerMap) : TimerHistory [] timers timers
  | completed {call : TimerCall} {calls : List (TimerCall × Option Nat)} {timers timers' : TimerMap}
      (h : TimerHistory calls (call.apply timers) timers') :
      TimerHistory ((call, none) :: calls) timers timers'
  | lost {call : TimerCall} {n : Nat} {calls : List (TimerCall × Option Nat)}
      {timers timers' : TimerMap} (h : TimerHistory calls timers timers') :
      TimerHistory ((call, some n) :: calls) timers timers'
  | kept {call : TimerCall} {n : Nat} {calls : List (TimerCall × Option Nat)}
      {timers timers' : TimerMap} (h : TimerHistory calls (call.apply timers) timers') :
      TimerHistory ((call, some n) :: calls) timers timers'

variable {wire} {b : Bucket wire.Bytes} {timers : TimerMap}

/-- The map of timers the objects stand for. -/
structure Represents (b : Bucket wire.Bytes) (timers : TimerMap) : Prop where
  tidy : Tidy wire b.objects
  lookup : ∀ key, timers.lookup key = timerState wire b.objects key

theorem Represents.of_objects {b' : Bucket wire.Bytes} (h : Represents b timers)
    (hb : b'.objects = b.objects) : Represents b' timers :=
  ⟨by rw [hb]; exact h.tidy, fun key => by rw [hb]; exact h.lookup key⟩

section Steps

variable {key : RecordKey .timer} {record : TimerRecord}

theorem Represents.prepare {b' : Bucket wire.Bytes} (h : Represents b timers)
    (hprep : Preparable record key) (hb : b'.objects = OpenDALStore.prepare b.objects key record) :
    Represents b' (if record.status = .canceled then timers.erase key else timers.insert key record) := by
  constructor
  · rw [hb]
    exact h.tidy.prepare hprep
  · intro k
    rw [hb, timerState, ledgerRecord_prepare]
    by_cases hk : k = key
    · subst hk
      by_cases hstatus : record.status = .canceled
      · simp [hstatus, Option.filter_some]
      · simp [hstatus, Option.filter_some]
    · rw [if_neg hk]
      have hother := h.lookup k
      rw [timerState] at hother
      rw [← hother]
      split
      · rw [Finmap.lookup_erase_ne hk]
      · rw [Finmap.lookup_insert_of_ne _ hk]

theorem Represents.publish {b' : Bucket wire.Bytes} (h : Represents b timers)
    (hprep : Preparable record key) (hsome : (b.objects.lookup key.val.dueLocation).isSome)
    (hb : b'.objects = OpenDALStore.publish b.objects key record) : Represents b' timers := by
  constructor
  · rw [hb]
    exact h.tidy.publish hprep hsome
  · intro k
    rw [hb, timerState, ledgerRecord_publish]
    exact h.lookup k

theorem Represents.erase {b' : Bucket wire.Bytes} (h : Represents b timers)
    (hb : b'.objects = b.objects.erase (Address.item .timer key).path) : Represents b' timers := by
  constructor
  · rw [hb]
    exact h.tidy.erase (by simp)
  · intro k
    rw [hb, timerState, ledgerRecord_erase]
    exact h.lookup k

end Steps

theorem runs_put (h : Represents b timers) (record : TimerRecord) :
    b.Runs (fun b' => Represents b' timers ∨ Represents b' ((TimerCall.put record).apply timers))
      (putTimer wire record) fun _ b' => Represents b' ((TimerCall.put record).apply timers) := by
  rcases hkey : acceptedKey record with _ | key
  · have happly : (TimerCall.put record).apply timers = timers := by simp [TimerCall.apply, hkey]
    have hnone : ¬∃ key, Preparable record key := by
      intro hsome
      obtain ⟨key, hprep⟩ := hsome
      rw [acceptedKey_eq_some.2 hprep] at hkey
      cases hkey
    rw [happly]
    apply runs_putTimer_rejected hnone
    intro b' hb'
    exact ⟨Or.inl (h.of_objects hb'), fun _ => h.of_objects hb'⟩
  · have hprep := acceptedKey_eq_some.1 hkey
    simp only [TimerCall.apply, hkey]
    apply runs_putTimer hprep
    · intro b' hb'
      exact Or.inl (h.of_objects hb')
    · intro b' hb'
      exact Or.inr (h.prepare hprep hb')
    · intro b' hb'
      have hprepared : Represents { b with objects := prepare b.objects key record } _ :=
        h.prepare hprep rfl
      have hpublished : Represents b' _ :=
        hprepared.publish hprep (by rw [lookup_prepare]; rfl) hb'
      exact ⟨Or.inr hpublished, hpublished⟩

theorem runs_delete (h : Represents b timers) (k : TimerKey) :
    b.Runs (fun b' => Represents b' timers ∨ Represents b' ((TimerCall.delete k).apply timers))
      (deleteTimer wire k) fun _ b' => Represents b' ((TimerCall.delete k).apply timers) := by
  by_cases hk : k.Valid
  · have happly : (TimerCall.delete k).apply timers = timers.erase (k.stored hk) := by
      simp [TimerCall.apply, hk]
    rw [happly]
    -- a tombstone is a canceled record, so preparing it erases the timer
    have htomb : ∀ record b', ledgerRecord wire b.objects (k.stored hk) = some record →
        b'.objects = prepare b.objects (k.stored hk) (tombstone record) →
        Represents b' (timers.erase (k.stored hk)) := by
      intro record b' hrecord hb'
      rcases h.tidy.ledger_cases (k.stored hk) with ⟨-, hnone⟩ | ⟨record', -, hsome, hprep⟩
      · rw [hnone] at hrecord
        cases hrecord
      · rw [hsome] at hrecord
        cases hrecord
        have hprepared := h.prepare hprep.tombstone hb'
        have hcanceled : (tombstone record).status = .canceled := rfl
        rwa [if_pos hcanceled] at hprepared
    apply runs_deleteTimer h.tidy hk
    · intro b' hb'
      exact Or.inl (h.of_objects hb')
    · intro _ hnone
      have herase : timers.erase (k.stored hk) = timers := by
        apply Finmap.ext_lookup
        intro k'
        by_cases heq : k' = k.stored hk
        · rw [heq, Finmap.lookup_erase, h.lookup, hnone]
        · rw [Finmap.lookup_erase_ne heq]
      rw [herase]
      exact h
    · intro record b' hrecord hb'
      have htimers := htomb record b' hrecord hb'
      exact ⟨Or.inr htimers, fun _ _ => htimers⟩
    · intro record b' hrecord hb'
      have htimers := htomb record { b' with objects := prepare b.objects _ _ } hrecord rfl
      have herased : Represents b' _ := htimers.erase hb'
      exact ⟨Or.inr herased, fun _ => herased⟩
  · have happly : (TimerCall.delete k).apply timers = timers := by simp [TimerCall.apply, hk]
    rw [happly]
    exact runs_deleteTimer_invalid hk fun _ => h

theorem runs_due (h : Represents b timers) (fuel : Nat) (ns : String) (now : Int) :
    b.Runs (fun b' => Represents b' timers) (dueTimers wire fuel ns now)
      fun _ b' => Represents b' timers := by
  have hrepairs : ∀ b' : Bucket wire.Bytes, Repairs wire b.objects b'.objects →
      Represents b' timers := by
    intro b' hb'
    refine ⟨hb'.tidy, fun key => ?_⟩
    rw [hb'.timerState]
    exact h.lookup key
  apply (runs_dueTimers now h.tidy fuel ns).imp
  · intro b' hb'
    exact hrepairs b' hb'
  · intro res b' hb'
    exact hrepairs b' hb'.1

theorem runs_timerCall (h : Represents b timers) (call : TimerCall) :
    b.Runs (fun b' => Represents b' timers ∨ Represents b' (call.apply timers)) (call.code wire)
      fun _ b' => Represents b' (call.apply timers) := by
  cases call with
  | put record => exact runs_put h record
  | delete key => exact runs_map.2 (runs_delete h key)
  | due fuel ns now =>
    exact runs_map.2
      ((runs_due h fuel ns now).imp (fun _ hb' => Or.inl hb') fun _ _ hb' => hb')

theorem exists_timerHistory (calls : List (TimerCall × Option Nat)) (h : Represents b timers) :
    ∃ timers', TimerHistory calls timers timers' ∧ Represents (timerRun wire calls b) timers' := by
  induction calls generalizing b timers with
  | nil => exact ⟨timers, .nil timers, h⟩
  | cons entry calls ih =>
    obtain ⟨call, n⟩ := entry
    have hruns := runs_timerCall h call
    cases n with
    | none =>
      obtain ⟨timers', hhistory, hrep⟩ := ih hruns.exec
      exact ⟨timers', .completed hhistory, hrep⟩
    | some n =>
      rcases hruns.cut (Or.inl h) n with hbefore | hafter
      · obtain ⟨timers', hhistory, hrep⟩ := ih hbefore
        exact ⟨timers', .lost hhistory, hrep⟩
      · obtain ⟨timers', hhistory, hrep⟩ := ih hafter
        exact ⟨timers', .kept hhistory, hrep⟩

/-- After any sequence of calls, some of them cut short, point reads show a map that the same
sequence of whole or omitted calls produces, and a listing shows what the point reads show. -/
theorem timerCalls_atomic (wire : Wire) (calls : List (TimerCall × Option Nat))
    (b : Bucket wire.Bytes) (timers : TimerMap) (h : Represents b timers) :
    ∃ timers', TimerHistory calls timers timers' ∧
      (∀ (key : TimerKey) (hkey : key.Valid),
        (timerRun wire calls b).exec (getTimer wire key) =
          (.ok (timers'.lookup (key.stored hkey)), timerRun wire calls b)) ∧
      ∀ (run : WorkflowKey) (fuel : Nat), run.Valid → (timerRun wire calls b).walkFuel ≤ fuel →
        ∃ records, (timerRun wire calls b).exec (listTimers wire fuel run .unspecified) =
            (.ok records, timerRun wire calls b) ∧
          records.Pairwise (timerID · < timerID ·) ∧
          ∀ record, record ∈ records ↔ ∃ key : TimerKey, key.Valid ∧
            key.run.withDefaults = run.withDefaults ∧
            (timerRun wire calls b).exec (getTimer wire key) =
              (.ok (some record), timerRun wire calls b) := by
  obtain ⟨timers', hhistory, hrep⟩ := exists_timerHistory calls h
  refine ⟨timers', hhistory, ?_, ?_⟩
  · intro key hkey
    rw [exec_getTimer hrep.tidy key hkey, hrep.lookup]
  · intro run fuel hrun hfuel
    obtain ⟨records, hexec, hsorted, hmem⟩ := exec_listTimers hrep.tidy hrun hfuel .unspecified
    refine ⟨records, hexec, hsorted, ?_⟩
    intro record
    rw [hmem, and_iff_left (Or.inl rfl)]
    constructor
    · intro hkey
      obtain ⟨key, hrunOf, hstate⟩ := hkey
      refine ⟨key.val, key.property.1, ?_, ?_⟩
      · rw [← ItemKey.run_withDefaults, key.withDefaults, hrunOf]
      · rw [exec_getTimer hrep.tidy key.val key.property.1, key.stored, hstate]
    · intro hkey
      obtain ⟨key, hvalid, hrunOf, hget⟩ := hkey
      refine ⟨key.stored hvalid, ?_, ?_⟩
      · rw [← hrunOf]
        exact ItemKey.run_withDefaults key
      · rw [exec_getTimer hrep.tidy key hvalid] at hget
        injection hget with hstate
        injection hstate

theorem represents_empty (wire : Wire) (time : Int) :
    Represents (⟨∅, [], time⟩ : Bucket wire.Bytes) ∅ :=
  ⟨tidy_empty wire, fun _ => rfl⟩

/-- A write that is cut after its ledger entry has happened: a point read finds the timer. -/
theorem timerCalls_atomic_interruptedNap :
    ∃ timers', TimerHistory [(.put napTimer, some 3)] ∅ timers' ∧
      timers'.lookup ⟨⟨"default", "wf", "run", "nap"⟩, by decide, by decide⟩ = some napTimer := by
  obtain ⟨timers', hhistory, hget, -⟩ := timerCalls_atomic taggedWire [(.put napTimer, some 3)]
    ⟨∅, [], 0⟩ ∅ (represents_empty taggedWire 0)
  have hread := hget ⟨"default", "wf", "run", "nap"⟩ (by decide)
  have hfound : ((timerRun taggedWire [(.put napTimer, some 3)] ⟨∅, [], 0⟩).exec
      (getTimer taggedWire ⟨"default", "wf", "run", "nap"⟩)).1 = .ok (some napTimer) := by rfl
  rw [hread] at hfound
  exact ⟨timers', hhistory, Except.ok.inj hfound⟩

end Temporaless.OpenDALStore
