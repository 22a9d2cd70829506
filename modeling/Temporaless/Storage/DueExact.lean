import Mathlib.Data.Prod.Lex
import Temporaless.Storage.Reached

/-!
# The due scan is exact

After one successful scan the next one reports precisely the timers that are due, each once and
in order.
-/

namespace Temporaless.OpenDALStore

open PathTree Effects

def dueRank (due : DueTimer) : Int ×ₗ String ×ₗ String ×ₗ String ×ₗ String :=
  toLex (timeOf due.record.fireAt, toLex (due.key.ns, toLex (due.key.workflowID,
    toLex (due.key.runID, due.key.id))))

theorem dueBefore_iff (left right : DueTimer) :
    dueBefore left right = true ↔ dueRank left < dueRank right := by
  simp only [dueBefore, dueRank, Prod.Lex.toLex_lt_toLex]
  by_cases htime : timeOf left.record.fireAt = timeOf right.record.fireAt
  · by_cases hns : left.key.ns = right.key.ns
    · by_cases hworkflow : left.key.workflowID = right.key.workflowID
      · by_cases hrun : left.key.runID = right.key.runID
        · simp [htime, hns, hworkflow, hrun]
        · simp [htime, hns, hworkflow, hrun]
      · simp [htime, hns, hworkflow]
    · simp [htime, hns]
  · simp [htime]

theorem dueRank_inj {left right : DueTimer} (h : dueRank left = dueRank right) :
    left.key = right.key := by
  have h' := toLex.injective h
  simp only [Prod.mk.injEq, toLex_inj] at h'
  obtain ⟨-, hns, hworkflow, hrun, hid⟩ := h'
  cases hl : left.key
  cases hr : right.key
  simp_all

theorem pairwise_dueBefore {due : List DueTimer} (h : (due.map DueTimer.key).Nodup) :
    (due.insertionSort fun left right => !dueBefore right left).Pairwise
      fun left right => dueBefore left right = true := by
  have hle : ∀ left right : DueTimer,
      (!dueBefore right left) = true ↔ dueRank left ≤ dueRank right := by
    intro left right
    rw [Bool.not_eq_true', ← Bool.not_eq_true, dueBefore_iff, not_lt]
  have : Std.Total fun left right : DueTimer => (!dueBefore right left) = true := by
    constructor
    intro left right
    rw [hle, hle]
    exact le_total _ _
  have : IsTrans DueTimer fun left right => (!dueBefore right left) = true := by
    constructor
    intro a c d hac hcd
    rw [hle] at hac hcd ⊢
    exact hac.trans hcd
  have hperm := List.perm_insertionSort (fun left right => (!dueBefore right left) = true) due
  have hnodup : ((due.insertionSort fun left right => !dueBefore right left).map
      DueTimer.key).Nodup := (hperm.map _).nodup_iff.2 h
  have hsorted := List.pairwise_insertionSort
    (fun left right : DueTimer => (!dueBefore right left) = true) due
  refine (hsorted.and (List.pairwise_map.1 hnodup)).imp ?_
  intro left right hboth
  obtain ⟨hordered, hkey⟩ := hboth
  rw [hle] at hordered
  rw [dueBefore_iff]
  exact lt_of_le_of_ne hordered fun heq => hkey (dueRank_inj heq)

variable {wire : Wire} {b : Bucket wire.Bytes}

/-- A timer is due as readers of the store see it. -/
structure DueIn (b : Bucket wire.Bytes) (ns : String) (now : Int) (due : DueTimer) : Prop where
  valid : due.key.Valid ∧ due.key.ns ≠ ""
  filtered : ns = "" ∨ due.key.ns = ns
  timer : b.exec (getTimer wire due.key) = (.ok (some due.record), b)
  scheduled : due.record.status = .scheduled
  fireAt : timeOf due.record.fireAt ≤ now
  workflow : b.exec (getWorkflow wire due.key.run) = (.ok (some due.workflow), b)
  inProgress : due.workflow.status = .inProgress

theorem wake_eq_some {objects : Objects wire} {now : Int} {key : RecordKey .timer}
    {due : DueTimer} : wake wire objects now key = some due ↔
      due.key = key.val ∧ timerState wire objects key = some due.record ∧
        due.record.status = .scheduled ∧ timeOf due.record.fireAt ≤ now ∧
        workflowRecord wire objects (runKeyOf key) = some due.workflow ∧
        due.workflow.status = .inProgress := by
  unfold wake
  rcases hstate : timerState wire objects key with _ | record
  · simp
  · by_cases hdue : record.status = .scheduled ∧ timeOf record.fireAt ≤ now
    · simp only [hdue, and_self, if_true, Option.map_eq_some_iff, Option.filter_eq_some_iff,
        decide_eq_true_eq]
      constructor
      · intro h
        obtain ⟨workflow, ⟨hworkflow, hprogress⟩, rfl⟩ := h
        exact ⟨rfl, rfl, hdue.1, hdue.2, hworkflow, hprogress⟩
      · intro h
        obtain ⟨hkey, hrecord, -, -, hworkflow, hprogress⟩ := h
        refine ⟨due.workflow, ⟨hworkflow, hprogress⟩, ?_⟩
        cases due
        simp_all
    · simp only [hdue, if_false, Option.some.injEq]
      constructor
      · intro h
        cases h
      · intro h
        obtain ⟨-, rfl, hstatus, htime, -, -⟩ := h
        exact absurd ⟨hstatus, htime⟩ hdue

theorem exists_wake_iff (hb : Tidy wire b.objects) {ns : String} {now : Int} {due : DueTimer} :
    (∃ key, InFilter ns key ∧ wake wire b.objects now key = some due) ↔ DueIn b ns now due := by
  constructor
  · intro h
    obtain ⟨key, hfilter, hwake⟩ := h
    obtain ⟨hkey, hstate, hscheduled, hfire, hworkflow, hprogress⟩ := wake_eq_some.1 hwake
    have htimer := exec_getTimer hb key.val key.property.1
    rw [key.stored, hstate] at htimer
    have hparent := exec_getWorkflow hb (runKeyOf key)
    rw [hworkflow] at hparent
    refine ⟨?_, ?_, ?_, hscheduled, hfire, ?_, hprogress⟩
    · rw [hkey]
      exact key.property
    · rw [hkey]
      exact hfilter
    · rw [hkey]
      exact htimer
    · rw [hkey]
      exact hparent
  · intro h
    have htimer := exec_getTimer hb due.key h.valid.1
    rw [h.timer] at htimer
    have hparent := exec_getWorkflow hb (runKeyOf ⟨due.key, h.valid⟩)
    have hworkflow := h.workflow
    refine ⟨⟨due.key, h.valid⟩, h.filtered, wake_eq_some.2 ⟨rfl, ?_, h.scheduled, h.fireAt, ?_,
      h.inProgress⟩⟩
    · have hstored : due.key.stored h.valid.1 = ⟨due.key, h.valid⟩ :=
        RecordKey.stored ⟨due.key, h.valid⟩ h.valid.1
      rw [hstored] at htimer
      simpa using htimer.symm
    · change b.exec (getWorkflow wire due.key.run) = _ at hparent
      rw [hworkflow] at hparent
      simpa using hparent.symm

private theorem nodup_wakes {objects : Objects wire} {now : Int} (keys : List (RecordKey .timer))
    (h : keys.Nodup) : ((keys.filterMap (wake wire objects now)).map DueTimer.key).Nodup := by
  induction keys with
  | nil => exact List.nodup_nil
  | cons key keys ih =>
    obtain ⟨hkey, hkeys⟩ := List.nodup_cons.1 h
    rcases hwake : wake wire objects now key with _ | due
    · rw [List.filterMap_cons_none hwake]
      exact ih hkeys
    · rw [List.filterMap_cons_some hwake, List.map_cons, List.nodup_cons]
      refine ⟨?_, ih hkeys⟩
      intro hmem
      obtain ⟨due', hdue', heq⟩ := List.mem_map.1 hmem
      obtain ⟨key', hkey', hwake'⟩ := List.mem_filterMap.1 hdue'
      have hval : key'.val = key.val := by
        rw [← (wake_eq_some.1 hwake').1, ← (wake_eq_some.1 hwake).1, heq]
      have hsame : key' = key := Subtype.ext hval
      rw [hsame] at hkey'
      exact hkey hkey'

private theorem copies_of_synced (hb : Tidy wire b.objects) {key : RecordKey .timer}
    {record : TimerRecord} (hsync : Synced wire b.objects key)
    (hstate : timerState wire b.objects key = some record) :
    (∃ entry, b.exec (getDueEntry wire key.val) = (.ok (some entry), b) ∧
      entry.record = some record) ∧
      b.exec (getTimerPoint wire key.val) = (.ok (some record), b) := by
  have hledger : ledgerRecord wire b.objects key = some record :=
    (Option.filter_eq_some_iff.1 hstate).1
  have hentry := exec_getDueEntry hb key.val key.property.1
  have hpoint := exec_getTimerPoint hb key.val key.property.1
  rw [key.stored] at hentry hpoint
  rw [hledger] at hentry
  rw [hsync, hstate] at hpoint
  exact ⟨⟨dueEntry record, hentry, rfl⟩, hpoint⟩

/-- The second of two scans in a row reports the due timers exactly, with two equal copies of
each, and it reports whatever the first one did. -/
theorem dueTimers_exact {fuel fuel' : Nat} {ns : String} {now : Int} {first : List DueTimer}
    {b' : Bucket wire.Bytes} (hb : Reached wire b)
    (hfirst : b.exec (dueTimers wire fuel ns now) = (.ok first, b')) (hfuel : b'.walkFuel ≤ fuel') :
    ∃ second, b'.exec (dueTimers wire fuel' ns now) = (.ok second, b') ∧
      (∀ due, due ∈ second ↔ DueIn b' ns now due) ∧
      second.Pairwise (fun left right => dueBefore left right = true) ∧
      (∀ due ∈ second,
        (∃ entry, b'.exec (getDueEntry wire due.key) = (.ok (some entry), b') ∧
          entry.record = some due.record) ∧
        b'.exec (getTimerPoint wire due.key) = (.ok (some due.record), b')) ∧
      ∀ due ∈ first, due ∈ second := by
  have htidy := hb.tidy
  have hruns := (runs_dueTimers now htidy fuel ns).exec
  rw [hfirst] at hruns
  obtain ⟨hrepairs, hscan⟩ := hruns
  obtain ⟨hsync, hwakes⟩ := hscan first rfl
  have htidy' := hrepairs.tidy
  have hnow : now ≠ zeroTime := by
    intro hzero
    rw [dueTimers, if_pos hzero] at hfirst
    cases hfirst
  have hroots : ∃ spaces : List String, spaces.Nodup ∧
      b'.exec (dueRoots wire ns) = (.ok (spaces.map ledgerRoot), b') ∧
      ∀ key : RecordKey .timer, (ledgerRecord wire b'.objects key).isSome →
        (key.val.ns ∈ spaces ↔ InFilter ns key) := by
    rcases exec_dueRoots htidy' ns with ⟨err, -, hns, hinvalid⟩ | hroots
    · -- the first scan would have rejected the filter as well
      rcases exec_dueRoots htidy ns with ⟨err', hexec, -⟩ | ⟨spaces, -, hexec, -⟩
      · rw [dueTimers, if_neg hnow, exec_bind_error b _ hexec] at hfirst
        cases hfirst
      · rcases hv : (WorkflowKey.mk ns "placeholder" "placeholder").validate with err' | u
        · simp [dueRoots, hns, hv, Except.map] at hexec
        · exact absurd hv hinvalid
    · exact hroots
  obtain ⟨spaces, hnodup, hexec, hmem⟩ := hroots
  have hsynced : ∀ key : RecordKey .timer, key.val.ns ∈ spaces → Synced wire b'.objects key := by
    intro key hspace
    rcases htidy'.ledger_cases key with ⟨hlookup, hnone⟩ | ⟨record, -, hrecord, -⟩
    · have hpoint : storedRecord wire.timer b'.objects key.val.location = none :=
        storedRecord_none (htidy'.pointRecord_none hlookup)
      rw [Synced, pointRecord, hpoint, timerState, hnone]
      rfl
    · have hsome : (ledgerRecord wire b'.objects key).isSome := by rw [hrecord]; rfl
      refine hsync key ((hmem key hsome).1 hspace) ?_
      rwa [← hrepairs.ledger]
  obtain ⟨keys, hcovers, hrun⟩ := exec_scanRoots_synced now htidy' hfuel spaces hnodup hsynced
  let found := keys.filterMap (wake wire b'.objects now)
  have hperm := List.perm_insertionSort (fun left right : DueTimer => (!dueBefore right left) = true)
    found
  have hdue : ∀ due, due ∈ found ↔ DueIn b' ns now due := by
    intro due
    rw [List.mem_filterMap, ← exists_wake_iff htidy']
    constructor
    · intro h
      obtain ⟨key, hkey, hwake⟩ := h
      obtain ⟨hspace, hsome⟩ := (hcovers.2 key).1 hkey
      exact ⟨key, (hmem key hsome).1 hspace, hwake⟩
    · intro h
      obtain ⟨key, hfilter, hwake⟩ := h
      have hsome : (ledgerRecord wire b'.objects key).isSome := by
        have hstate := (wake_eq_some.1 hwake).2.1
        rcases hrecord : ledgerRecord wire b'.objects key with _ | record
        · rw [timerState, hrecord] at hstate
          cases hstate
        · rfl
      exact ⟨key, (hcovers.2 key).2 ⟨(hmem key hsome).2 hfilter, hsome⟩, hwake⟩
  refine ⟨found.insertionSort fun left right => !dueBefore right left, ?_, ?_, ?_, ?_, ?_⟩
  · rw [dueTimers, if_neg hnow, exec_bind_ok b' _ hexec, exec_bind_ok b' _ hrun]
    rfl
  · intro due
    rw [hperm.mem_iff, hdue]
  · exact pairwise_dueBefore (nodup_wakes keys hcovers.1)
  · intro due hmem'
    rw [hperm.mem_iff] at hmem'
    obtain ⟨key, hkey, hwake⟩ := List.mem_filterMap.1 hmem'
    obtain ⟨hval, hstate, -⟩ := wake_eq_some.1 hwake
    rw [hval]
    exact copies_of_synced htidy' (hsynced key ((hcovers.2 key).1 hkey).1) hstate
  · intro due hmem'
    rw [hperm.mem_iff, hdue, ← exists_wake_iff htidy']
    obtain ⟨key, hfilter, hwake⟩ := hwakes due hmem'
    exact ⟨key, hfilter, by rw [hrepairs.wake, hwake]⟩

/-- The first scan republishes the interrupted timer and skips it; the second one reports it. -/
theorem dueTimers_exact_interruptedNap :
    Reached taggedWire interruptedNap ∧ ∃ b' second,
      interruptedNap.exec (dueTimers taggedWire 20 "" (100 * nanosPerSecond)) = (.ok [], b') ∧
      b'.exec (dueTimers taggedWire 20 "" (100 * nanosPerSecond)) = (.ok second, b') ∧
      ∀ due, due ∈ second ↔ DueIn b' "" (100 * nanosPerSecond) due := by
  have hfirst : (interruptedNap.exec (dueTimers taggedWire 20 "" (100 * nanosPerSecond))).1 =
      .ok [] := by rfl
  have hfuel : (interruptedNap.exec
      (dueTimers taggedWire 20 "" (100 * nanosPerSecond))).2.walkFuel ≤ 20 := by decide +kernel
  obtain ⟨second, hsecond, hdue, -⟩ :=
    dueTimers_exact reached_interruptedNap (Prod.ext hfirst rfl) hfuel
  exact ⟨reached_interruptedNap, _, second, Prod.ext hfirst rfl, hsecond, hdue⟩

end Temporaless.OpenDALStore
