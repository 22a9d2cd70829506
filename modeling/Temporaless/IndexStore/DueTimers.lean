import Temporaless.IndexStore.Store
import Temporaless.Python.DeleteExact
import Temporaless.Python.DueScan

/-!
# Due timers of the indexed store

The scan of the wrapped store decides which timers are due. A row of the index only proposes a
timer, and point reads decide about it, whatever the index holds and whichever of its transactions
fail.
-/

namespace Temporaless.IndexStore

open PathTree Effects Python

section Rows

theorem recovers_checkTimerKey (key : TimerKey) (timer : Option TimerRecord) :
    Recovers (checkTimerKey key timer) := by
  grind [checkTimerKey, ExceptionClass.recoverable]

theorem recovers_checkWorkflowKey (key : WorkflowKey) (workflow : Option WorkflowRecord) :
    Recovers (checkWorkflowKey key workflow) := by
  grind [checkWorkflowKey, ExceptionClass.recoverable]

theorem key_of_checkTimerKey {key : TimerKey} {record : TimerRecord}
    (h : checkTimerKey key (some record) = .ok ()) : timerKeyFromProto record.key = key := by
  obtain ⟨-, hkey⟩ := bind_eq_ok_unit.1 h
  by_contra hne
  rw [if_pos hne] at hkey
  cases hkey

variable {wire : RecordWire}

theorem exec_readRow (w : World wire.Bytes) (key : TimerKey) :
    ∃ r, w.exec (readRow wire key) = (r, w) ∧ Recovers r ∧ ∀ timer workflow, r = .ok (timer, workflow) →
      (key.Valid ∧ key.ns ≠ "") ∧ timerReply w.bucket key = .ok timer ∧
        workflowReply w.bucket key.run = .ok workflow ∧
        ∀ record, timer = some record → timerKeyFromProto record.key = key := by
  simp only [readRow, execute_bind, execute_liftExcept]
  rcases hkey : validateTimerKey key with err | _
  · exact ⟨.error err, rfl, Loop.raises_error (recovers_validateTimerKey _ err hkey), by simp⟩
  have hstored : key.Valid ∧ key.ns ≠ "" := stored_of_validateTimerKey (bind_eq_ok_unit.1 hkey).1
  rcases hrun : validateWorkflowKey key.run with err | _
  · exact ⟨.error err, rfl, Loop.raises_error (recovers_validateWorkflowKey _ err hrun), by simp⟩
  have htimer : w.exec (inner (getTimer wire.toWire key)) = (timerReply w.bucket key, w) := by
    rw [exec_inner, exec_getTimer_at ⟨key, hstored⟩, timerReply_at ⟨key, hstored⟩]
  have hworkflow : w.exec (inner (getWorkflow wire.toWire key.run)) =
      (workflowReply w.bucket key.run, w) := by
    rw [exec_inner, exec_getWorkflow_reply]
  simp only [htimer]
  rcases hread : timerReply w.bucket key with err | timer
  · exact ⟨.error err, rfl, Loop.raises_error (recovers_timerReply ⟨key, hstored⟩ err hread), by simp⟩
  simp only [hworkflow]
  rcases hreadRun : workflowReply w.bucket key.run with err | workflow
  · exact ⟨.error err, rfl, Loop.raises_error (recovers_workflowReply key.run err hreadRun), by simp⟩
  dsimp only
  rcases hcheck : checkTimerKey key timer with err | _
  · exact ⟨.error err, rfl, Loop.raises_error (recovers_checkTimerKey key timer err hcheck), by simp⟩
  dsimp only
  rcases hcheckRun : checkWorkflowKey key.run workflow with err | _
  · exact ⟨.error err, rfl, Loop.raises_error (recovers_checkWorkflowKey _ _ err hcheckRun), by simp⟩
  refine ⟨.ok (timer, workflow), rfl, Loop.raises_ok _, ?_⟩
  intro timer' workflow' heq
  obtain ⟨rfl, rfl⟩ := Prod.mk.inj (Except.ok.inj heq)
  refine ⟨hstored, rfl, rfl, ?_⟩
  intro record hrecord
  subst hrecord
  exact key_of_checkTimerKey hcheck

end Rows

section Union

variable {wire : RecordWire} {w : World wire.Bytes} {b : Bucket wire.Bytes} {now : Int}
variable {authoritative due : List DueTimer}

/-- What has been gathered: all that the scan found, and only wakes, each of its own timer. -/
structure Gathers (b : Bucket wire.Bytes) (now : Int) (authoritative due : List DueTimer) : Prop where
  complete : ∀ d ∈ authoritative, d ∈ due
  wakes : ∀ d ∈ due, Wakes b now d
  distinct : (due.map DueTimer.key).Nodup

theorem setDue_of_fresh {item : DueTimer} (h : item.key ∉ due.map DueTimer.key) :
    setDue due item = due ++ [item] := by
  rw [setDue, if_neg]
  intro hany
  obtain ⟨d, hd, hkey⟩ := List.any_eq_true.1 hany
  exact h (List.mem_map.2 ⟨d, hd, by simpa using hkey⟩)

theorem foldl_setDue (h : ((due ++ authoritative).map DueTimer.key).Nodup) :
    authoritative.foldl setDue due = due ++ authoritative := by
  induction authoritative generalizing due with
  | nil => simp
  | cons item rest ih =>
    have hfresh : item.key ∉ due.map DueTimer.key := by
      rw [List.map_append, List.nodup_append] at h
      intro hmem
      exact h.2.2 _ hmem _ (by simp) rfl
    rw [List.foldl_cons, setDue_of_fresh hfresh, ih (by simpa using h), List.append_assoc,
      List.singleton_append]

theorem Gathers.add {item : DueTimer} (h : Gathers b now authoritative due)
    (hfresh : item.key ∉ due.map DueTimer.key) (hwakes : Wakes b now item) :
    Gathers b now authoritative (setDue due item) := by
  rw [setDue_of_fresh hfresh]
  constructor
  · intro d hd
    exact List.mem_append_left _ (h.complete d hd)
  · intro d hd
    rcases List.mem_append.1 hd with hd | hd
    · exact h.wakes d hd
    · rw [List.mem_singleton.1 hd]
      exact hwakes
  · rw [List.map_append, List.nodup_append]
    refine ⟨h.distinct, by simp, ?_⟩
    intro k hk k' hk' heq
    rw [List.map_singleton, List.mem_singleton] at hk'
    exact hfresh (by rwa [heq, hk'] at hk)

theorem exec_refreshRow (w : World wire.Bytes) (row : TimerRow) (timer : TimerRecord)
    (indexed : String) :
    ∃ w', w.exec (refreshRow wire row timer indexed) = (.ok (), w') ∧ w'.bucket = w.bucket := by
  unfold refreshRow
  split
  · exact ⟨_, exec_quietly w _, (sameBuckets_transact w _).bucket⟩
  · exact ⟨w, rfl, rfl⟩

theorem exec_pruneRow (w : World wire.Bytes) (key : TimerKey) (due : List DueTimer) :
    ∃ w', w.exec (pruneRow wire key due) = (.ok due, w') ∧ w'.bucket = w.bucket :=
  ⟨_, execute_bind_ok _ (exec_quietly w _), (sameBuckets_transact w _).bucket⟩

theorem exec_mergeScheduled {key : TimerKey} {timer : TimerRecord} {workflow : Option WorkflowRecord}
    {fireAt : Int} (w : World wire.Bytes) (row : TimerRow)
    (hfires : timestampFromProto (fireAtOf timer.fireAt) = .ok fireAt)
    (hfresh : key ∉ due.map DueTimer.key) (h : Gathers b now authoritative due)
    (hwakes : fireAt ≤ now → ∀ workflow', workflow = some workflow' → workflow'.status = .inProgress →
      Wakes b now ⟨key, timer, workflow'⟩) :
    ∃ due' w', w.exec (mergeScheduled wire now due key row timer workflow fireAt) = (.ok due', w') ∧
      w'.bucket = w.bucket ∧ Gathers b now authoritative due' := by
  obtain ⟨indexed, hindexed⟩ := exists_dt hfires
  obtain ⟨w₁, hrefresh, hbucket⟩ := exec_refreshRow w row timer indexed
  rw [mergeScheduled, hindexed, liftOk_bind]
  split
  · exact ⟨due, w₁, execute_bind_ok _ hrefresh, hbucket, h⟩
  next hdue =>
    simp only [execute_bind, hrefresh]
    cases hfound : workflow.filter (·.status = .inProgress) with
    | none =>
      obtain ⟨w₂, hprune, hbucket₂⟩ := exec_pruneRow w₁ key due
      exact ⟨due, w₂, hprune, hbucket₂.trans hbucket, h⟩
    | some workflow' =>
      obtain ⟨hworkflow, hstatus⟩ := Option.filter_eq_some_iff.1 hfound
      refine ⟨_, w₁, rfl, hbucket, h.add hfresh ?_⟩
      exact hwakes (not_lt.1 hdue) workflow' hworkflow (by simpa using hstatus)

theorem exec_mergeRow (w : World wire.Bytes) (hb : Tended b w.bucket)
    (row : TimerKey × TimerRow) (h : Gathers b now authoritative due) :
    ∃ due' w', w.exec (mergeRow wire now due row) = (.ok due', w') ∧ w'.bucket = w.bucket ∧
      Gathers b now authoritative due' := by
  obtain ⟨key, row⟩ := row
  unfold mergeRow
  split
  · exact ⟨due, w, rfl, rfl, h⟩
  next hfresh =>
    have hkey : key ∉ due.map DueTimer.key := by
      intro hmem
      obtain ⟨d, hd, rfl⟩ := List.mem_map.1 hmem
      exact hfresh (List.any_eq_true.2 ⟨d, hd, by simp⟩)
    obtain ⟨w₁, hprune, hbucket⟩ := exec_pruneRow w key due
    obtain ⟨r, hread, hrecovers, hreads⟩ := exec_readRow w key
    simp only [execute_bind, execute_attempt, hread]
    rcases r with err | ⟨timer, workflow⟩
    · simp only [show recoverable err from hrecovers err rfl, if_true]
      exact ⟨due, w₁, hprune, hbucket, h⟩
    · obtain ⟨hstored, htimer, hworkflow, hrecord⟩ := hreads timer workflow rfl
      dsimp only
      cases hfound : timer.filter (·.status = .scheduled) with
      | none => exact ⟨due, w₁, hprune, hbucket, h⟩
      | some record =>
        obtain ⟨rfl, hscheduled⟩ := Option.filter_eq_some_iff.1 hfound
        dsimp only
        cases hfires : timestampFromProto (fireAtOf record.fireAt) with
        | error err => exact ⟨due, w₁, hprune, hbucket, h⟩
        | ok fireAt =>
          apply exec_mergeScheduled w row hfires hkey h
          intro hdue workflow' hsome hstatus
          apply hb.wakes.1
          exact ⟨hstored, hrecord record rfl, htimer, by simpa using hscheduled, ⟨fireAt, hfires, hdue⟩,
            by rw [hworkflow, hsome], hstatus⟩

theorem exec_mergeRows (w : World wire.Bytes) (hb : Tended b w.bucket)
    (rows : List (TimerKey × TimerRow)) (h : Gathers b now authoritative due) :
    ∃ due' w', w.exec (forRows (mergeRow wire now) rows due) = (.ok due', w') ∧ w'.bucket = w.bucket ∧
      Gathers b now authoritative due' := by
  induction rows generalizing w due with
  | nil => exact ⟨due, w, rfl, rfl, h⟩
  | cons row rows ih =>
    obtain ⟨due₁, w₁, hexec, hbucket, h₁⟩ := exec_mergeRow w hb row h
    obtain ⟨due₂, w₂, hrest, hbucket₂, h₂⟩ := ih w₁ (by rwa [hbucket]) h₁
    exact ⟨due₂, w₂, (execute_bind_ok _ hexec).trans hrest, hbucket₂.trans hbucket, h₂⟩

theorem exec_repairRows (w : World wire.Bytes) (items : List DueTimer) :
    ∃ w', w.exec (repairRows wire items) = (.ok (), w') ∧ w'.bucket = w.bucket ∧
      ((∀ n, w.fates n ≠ .commits) → ∀ n, w'.fates n ≠ .commits) := by
  induction items generalizing w with
  | nil => exact ⟨w, rfl, rfl, id⟩
  | cons item items ih =>
    obtain ⟨w', hexec, hbucket, hfates⟩ := ih (w.transact (.upsert .timer item.record)).2
    refine ⟨w', (execute_bind_ok _ (exec_quietly w _)).trans hexec,
      hbucket.trans (sameBuckets_transact w _).bucket, ?_⟩
    intro hfail
    apply hfates
    intro n
    rw [fates_transact]
    exact hfail (n + 1)

theorem Gathers.sortDue (h : Gathers b now authoritative due) :
    Gathers b now authoritative (sortDue due) := by
  have hperm := List.perm_insertionSort (fun left right => dueOrder left ≤ dueOrder right) due
  constructor
  · intro d hd
    exact hperm.mem_iff.2 (h.complete d hd)
  · intro d hd
    exact h.wakes d (hperm.mem_iff.1 hd)
  · exact (hperm.map _).nodup_iff.2 h.distinct

theorem Gathers.of_tended {b' : Bucket wire.Bytes} (h : Gathers b now authoritative due)
    (htended : Tended b b') : Gathers b' now authoritative due :=
  ⟨h.complete, fun d hd => htended.wakes.2 (h.wakes d hd), h.distinct⟩

theorem pairwise_sortDue (due : List DueTimer) :
    (sortDue due).Pairwise fun left right => dueOrder left ≤ dueOrder right :=
  List.pairwise_insertionSort (fun left right => dueOrder left ≤ dueOrder right) due

/-- Whatever the index holds and however its transactions end, the result holds the timers of the
scan and only timers that point reads find due, none of them twice, in order. Without the index it is
the sorted result of the scan. -/
theorem dueTimers_union {fuel : Nat} (hfuel : w.bucket.walkFuel ≤ fuel) (ns : String) (now : Int)
    {b' : Bucket wire.Bytes} (hinner : w.bucket.exec (Python.dueTimers wire.toWire fuel ns now) =
      (.ok authoritative, b')) :
    ∃ due w', w.exec (dueTimers wire fuel ns now) = (.ok due, w') ∧
      Gathers w.bucket now authoritative due ∧ Gathers w'.bucket now authoritative due ∧
      (due.Pairwise fun left right => dueOrder left ≤ dueOrder right) ∧
      ((∀ n, w.fates n ≠ .commits) → due = sortDue authoritative) := by
  obtain ⟨r, b₁, hscan, htended, hwakes⟩ := exec_dueTimers hfuel ns now
  obtain ⟨rfl, rfl⟩ := Prod.mk.inj (hinner.symm.trans hscan)
  obtain ⟨hwakes, hdistinct⟩ := hwakes authoritative rfl
  have hscanned : Gathers w.bucket now authoritative authoritative :=
    ⟨fun _ hd => hd, hwakes, hdistinct⟩
  have hdict : authoritative.foldl setDue [] = authoritative := foldl_setDue (by simpa using hdistinct)
  obtain ⟨w₁, hrepair, hbucket, hfates⟩ := exec_repairRows { w with bucket := b' } authoritative
  have hselect := (sameBuckets_transact w₁ (.selectDueTimers ns now)).bucket.trans hbucket
  rcases hrows : w₁.transact (.selectDueTimers ns now) with ⟨err | rows, w₂⟩
  · rw [hrows] at hselect
    have hquery : w₁.exec (runDB (.selectDueTimers ns now)) = (.error err, w₂) := hrows
    simp only [dueTimers, execute_bind, exec_inner, hinner, hrepair, execute_attempt, hquery]
    refine ⟨_, w₂, rfl, hscanned.sortDue, ?_, pairwise_sortDue _, fun _ => rfl⟩
    rw [hselect]
    exact hscanned.sortDue.of_tended htended
  · rw [hrows] at hselect
    have hquery : w₁.exec (runDB (.selectDueTimers ns now)) = (.ok rows, w₂) := hrows
    obtain ⟨due, w₃, hmerge, hbucket₃, h⟩ := exec_mergeRows w₂ (by rwa [hselect]) rows hscanned
    simp only [dueTimers, execute_bind, exec_inner, hinner, hrepair, execute_attempt, hquery,
      hdict, hmerge]
    refine ⟨_, w₃, rfl, h.sortDue, ?_, pairwise_sortDue _, ?_⟩
    · rw [hbucket₃, hselect]
      exact h.sortDue.of_tended htended
    · intro hfail
      obtain ⟨err, herror⟩ := transact_of_fails (t := .selectDueTimers ns now) (hfates hfail 0)
      rw [hrows] at herror
      cases herror

end Union

section Chime

def chimeKey : TimerKey := ⟨"default", "wf", "run", "chime"⟩

/-- The chime fires 500 ns after the first second. -/
def chime : TimerRecord where
  schemaVersion := .timer
  key := some chimeKey
  timerKind := .sleep
  duration := some ⟨1, 0⟩
  status := .scheduled
  fireAt := some ⟨1, 500⟩
  createdAt := some ⟨0, 500⟩
  firedAt := none
  retryActivityId := ""

def chimeRun : WorkflowRecord where
  schemaVersion := .workflow
  key := some chimeKey.run
  workflowType := "tower"
  input := none
  status := .inProgress
  result := none
  failure := none
  createdAt := some ⟨0, 0⟩
  completedAt := none
  annotations := []
  runOrderTime := none

/-- The timer is stored with its entry in the ledger and its workflow. The index is empty. -/
def chimeWorld : World taggedRecordWire.Bytes where
  bucket :=
    { objects :=
        let objects : OpenDALStore.Objects taggedRecordWire.toWire := ∅
        ((objects.insert chimeKey.run.location (.inl (.workflow chimeRun))).insert chimeKey.location
          (.inl (.timer chime))).insert chimeKey.dueLocation (.inl (.due (dueEntry chime chimeKey.run)))
      directories := []
      time := 0 }
  claims := ⟨∅, [], 0⟩
  index := ⟨.empty, none, false⟩
  fates := fun _ => .commits

theorem exec_dueTimers_chime : chimeWorld.bucket.exec
    (Python.dueTimers taggedRecordWire.toWire 20 "default" 1000000) =
      (.ok [⟨chimeKey, chime, chimeRun⟩], chimeWorld.bucket) := by
  rfl

/-- The index has no row of the chime, a stale row of a timer that is gone, and a row whose key no store
accepts. Both say that their timers are due. -/
def staleWorld : World taggedRecordWire.Bytes :=
  let row : TimerRow := ⟨timerStatusNumber .scheduled, "1969", "", ""⟩
  { chimeWorld with
    index := ⟨(Tables.empty.upsert .timer ⟨"default", "wf", "run", "ghost"⟩ row).upsert .timer
      ⟨"default", "", "run", "nap"⟩ row, none, false⟩ }

theorem dueTimers_union_chime : chimeWorld.bucket.walkFuel ≤ 20 ∧
    (staleWorld.index.selectDueTimers "default" "1970").map (·.1.id) = ["nap", "ghost"] ∧
    ∃ w', staleWorld.exec (dueTimers taggedRecordWire 20 "default" 1000000) =
        (.ok [⟨chimeKey, chime, chimeRun⟩], w') ∧
      Gathers staleWorld.bucket 1000000 [⟨chimeKey, chime, chimeRun⟩] [⟨chimeKey, chime, chimeRun⟩] ∧
      Gathers w'.bucket 1000000 [⟨chimeKey, chime, chimeRun⟩] [⟨chimeKey, chime, chimeRun⟩] := by
  have hfuel : chimeWorld.bucket.walkFuel ≤ 20 := by decide
  obtain ⟨due, w', hexec, hbefore, hafter, -⟩ :=
    dueTimers_union (w := staleWorld) hfuel "default" 1000000 exec_dueTimers_chime
  have hdue : (staleWorld.exec (dueTimers taggedRecordWire 20 "default" 1000000)).1 =
      .ok [⟨chimeKey, chime, chimeRun⟩] := rfl
  rw [hexec] at hdue
  obtain rfl := Except.ok.inj hdue
  exact ⟨hfuel, rfl, w', hexec, hbefore, hafter⟩

/-- The chime is returned although it is not yet due. -/
theorem dueTimers_before_chime :
    (chimeWorld.exec (dueTimers taggedRecordWire 20 "default" 1000000)).1 =
        .ok [⟨chimeKey, chime, chimeRun⟩] ∧
      ¬ timeOf chime.fireAt ≤ 1000000 * 1000 := by
  refine ⟨?_, by decide⟩
  rfl

end Chime

end Temporaless.IndexStore
