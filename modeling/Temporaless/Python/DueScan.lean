import Temporaless.Python.Listing
import Temporaless.Python.Scans

/-!
# What the due scan of the Python store returns

A scan repairs the point records that fall behind their ledger entries. No point read answers
differently for it. The timer of every wake is due by point reads and its workflow is in progress,
and no timer is returned twice.
-/

namespace Temporaless.Python

open PathTree Effects OpenDALStore

section Reads

variable {wire : Wire} {b b' : Bucket wire.Bytes}

def timerReply (b : Bucket wire.Bytes) (key : TimerKey) : Except Err (Option TimerRecord) :=
  (b.exec (getTimer wire key)).1

def workflowReply (b : Bucket wire.Bytes) (key : WorkflowKey) : Except Err (Option WorkflowRecord) :=
  (b.exec (getWorkflow wire key)).1

theorem exec_getWorkflow_reply (key : WorkflowKey) :
    b.exec (getWorkflow wire key) = (workflowReply b key, b) :=
  Prod.ext rfl (readOnly_getWorkflow key).exec_state

def readTimer (ledger : Except Err (Option DueTimerEntry)) (point : Except Err (Option TimerRecord)) :
    Except Err (Option TimerRecord) :=
  match ledger with
  | .error err => .error err
  | .ok none => point
  | .ok (some entry) =>
    if point.toOption = some (some (entryRecord entry)) then .ok (entryRecord entry)
    else .ok (liveRecord entry)

theorem toOption_eq_some {α : Type} {r : Except Err α} {a : α} : r.toOption = some a ↔ r = .ok a := by
  cases r <;> simp [Except.toOption]

theorem exec_getTimer_at (key : RecordKey .timer) : b.exec (getTimer wire key.val) =
    (readTimer (ledgerAt b.objects key) (pointAt b.objects key), b) := by
  rcases hledger : ledgerAt b.objects key with err | _ | entry
  · exact exec_getTimer_error hledger
  · exact exec_getTimer_bare hledger
  · by_cases hpoint : pointAt b.objects key = .ok (some (entryRecord entry))
    · rw [exec_getTimer_same hledger hpoint, readTimer, if_pos (toOption_eq_some.2 hpoint)]
    · rw [exec_getTimer_entry hledger hpoint, readTimer, if_neg (mt toOption_eq_some.1 hpoint)]

theorem timerReply_at (key : RecordKey .timer) : timerReply b key.val =
    readTimer (ledgerAt b.objects key) (pointAt b.objects key) := by
  rw [timerReply, exec_getTimer_at]

theorem workflowReply_of_lookup (run : RunKey)
    (h : b'.objects.lookup run.val.location = b.objects.lookup run.val.location) :
    workflowReply b' run.val = workflowReply b run.val := by
  have hread : replyAt b'.objects run.val.location = replyAt b.objects run.val.location := by
    rw [replyAt, replyAt, h]
  simp only [workflowReply, getWorkflow, workflowPath_of_stored, liftOk_bind, exec_bind,
    exec_readMessage_at, hread]
  rcases decodeMessage wire.workflow (replyAt b.objects run.val.location) with err | _ | record
  · rfl
  · rfl
  · simp only [exec_bind, exec_liftExcept]
    cases validateWorkflowRecord record ⟨some run.val, none, some run.val.location⟩ <;> rfl

theorem stored_of_workflowReply {key : WorkflowKey} {record : WorkflowRecord}
    (h : workflowReply b key = .ok (some record)) : key.Valid ∧ key.ns ≠ "" := by
  simp only [workflowReply, getWorkflow, workflowPath, exec_bind, exec_liftExcept] at h
  cases hvalid : validateWorkflowKey key with
  | error err =>
    rw [hvalid] at h
    cases h
  | ok _ => exact stored_of_validateWorkflowKey (bind_eq_ok_unit.1 hvalid).1

theorem recovers_timerReply (key : RecordKey .timer) : Recovers (timerReply b key.val) := by
  have hledger : Recovers (ledgerAt b.objects key) := by
    apply (recovers_decodeMessage _ _ _).bind
    intro entry
    cases entry with
    | none => exact Loop.raises_ok _
    | some entry => exact (recovers_validateDueEntry _ _ _ _ _).map _
  rw [timerReply_at]
  rcases hread : ledgerAt b.objects key with err | _ | entry
  · exact Loop.raises_error (hledger err hread)
  · exact fun err => pointAt_recoverable
  · simp only [readTimer]
    split
    · exact Loop.raises_ok _
    · exact Loop.raises_ok _

theorem recovers_validateWorkflowRecord (record : WorkflowRecord) (expected : Expectation WorkflowKey) :
    Recovers (validateWorkflowRecord record expected) := by
  apply (recovers_require _ _).bind
  intro _
  apply (recovers_validate _ _).bind
  intro _
  apply (recovers_validateWorkflowKey _).bind
  intro _
  apply (recovers_validateRecordLocation _ _ ((recovers_validateWorkflowKey _).map _) _ _).bind
  intro _
  exact (recovers_whenGiven fun _ => recovers_checkTimestamp _ _).bind fun _ => Loop.raises_ok _

theorem recovers_workflowReply (key : WorkflowKey) : Recovers (workflowReply b key) := by
  simp only [workflowReply, getWorkflow, workflowPath, exec_bind, exec_liftExcept]
  rcases hvalid : validateWorkflowKey key with err | _
  · exact Loop.raises_error (recovers_validateWorkflowKey key err hvalid)
  · simp only [Except.map, exec_readMessage_at]
    rcases hread : decodeMessage wire.workflow (replyAt b.objects key.location) with err | _ | record
    · exact Loop.raises_error (recovers_decodeMessage _ _ _ err hread)
    · exact Loop.raises_ok _
    · simp only [exec_bind, exec_liftExcept]
      rcases hcheck : validateWorkflowRecord record ⟨some key, none, some key.location⟩ with err | _
      · exact Loop.raises_error (recovers_validateWorkflowRecord _ _ err hcheck)
      · exact Loop.raises_ok _

end Reads

section Tended

variable {wire : Wire} {b b' b'' : Bucket wire.Bytes}

/-- Point reads answer as before, and the ledgers list as before. -/
structure Tended (b b' : Bucket wire.Bytes) : Prop where
  timers : ∀ key : RecordKey .timer, timerReply b' key.val = timerReply b key.val
  workflows : ∀ run : RunKey, workflowReply b' run.val = workflowReply b run.val
  lists : ∀ ns dir, dueRoot ns <+: dir → ListsAlike dir b b'

theorem Tended.refl (b : Bucket wire.Bytes) : Tended b b :=
  ⟨fun _ => rfl, fun _ => rfl, fun _ dir _ => .refl dir b⟩

theorem Tended.trans (h : Tended b b') (h' : Tended b' b'') : Tended b b'' where
  timers key := (h'.timers key).trans (h.timers key)
  workflows run := (h'.workflows run).trans (h.workflows run)
  lists ns dir hdir := (h.lists ns dir hdir).trans (h'.lists ns dir hdir)

theorem awayFromCopies_of_dueRoot {ns : String} {dir : Path} (h : dueRoot ns <+: dir) :
    AwayFromCopies dir := by
  intro ns' hcopy
  have heq := (h.trans hcopy).eq_of_length (by simp [dueRoot, dueInvalidRoot, storageRoot])
  simp [dueRoot, dueInvalidRoot, storageRoot] at heq

theorem Copies.tended (h : Copies b b') : Tended b b' where
  timers key := by
    have hledger : ledgerAt b'.objects key = ledgerAt b.objects key := ledgerAt_of_lookup
      (h.lookup key.val.dueLocation (dropLast_ne_of_length (show 4 < 6 by decide)))
    have hpoint : pointAt b'.objects key = pointAt b.objects key := pointAt_of_lookup
      (h.lookup key.val.location (dropLast_ne_of_length (show 4 < 6 by decide)))
    rw [timerReply_at, timerReply_at, hledger, hpoint]
  workflows run := workflowReply_of_lookup run
    (h.lookup run.val.location (dropLast_ne_of_length (show 4 < 5 by decide)))
  lists ns dir hdir := h.lists dir (awayFromCopies_of_dueRoot hdir)

variable {key : RecordKey .timer}

theorem not_dueRoot_directory (key : RecordKey .timer) {ns : String} {dir : Path}
    (h : dueRoot ns <+: dir) :
    ¬ dir <+: key.val.directory := by
  intro hbelow
  have hpath : dueRoot ns ++ [] <+: (Address.item .timer key).path.dropLast := by
    rw [List.append_nil, show (Address.item .timer key).path.dropLast = key.val.directory by
      simp [Address.path, ItemKey.location]]
    exact h.trans hbelow
  obtain ⟨key', heq, -⟩ := address_below_dueRoot hpath
  cases heq

variable (key) in
theorem tended_of_point {objects : Objects wire}
    (hothers : ∀ path, path ≠ key.val.location → objects.lookup path = b.objects.lookup path)
    (hlists : ∀ ns dir, dueRoot ns <+: dir → ListsAlike dir b { b with objects := objects })
    (hread : readTimer (ledgerAt b.objects key) (pointAt objects key) =
      readTimer (ledgerAt b.objects key) (pointAt b.objects key)) :
    Tended b { b with objects := objects } where
  timers k := by
    have hledger : ledgerAt objects k = ledgerAt b.objects k :=
      ledgerAt_of_lookup (hothers _ (Address.path_ne (show Address.due k ≠ .item .timer key by simp)))
    rw [timerReply_at, timerReply_at, hledger]
    by_cases hk : k = key
    · subst hk
      exact hread
    · rw [pointAt_of_lookup (hothers _ (Address.path_ne
        (show Address.item .timer k ≠ .item .timer key by simpa using hk)))]
  workflows run := workflowReply_of_lookup run
    (hothers _ (Address.path_ne (show Address.workflow run ≠ .item .timer key by simp)))
  lists := hlists

theorem tended_createDir (key : RecordKey .timer) (b : Bucket wire.Bytes) :
    Tended b { b with directories := key.val.directory :: b.directories } where
  timers k := by rw [timerReply_at, timerReply_at]
  workflows run := workflowReply_of_lookup run rfl
  lists _ _ hdir := listsAlike_createDir (not_dueRoot_directory key hdir) b

variable {entry : DueTimerEntry}

theorem tended_repairPoint (hledger : ledgerAt b.objects key = .ok (some entry))
    (hpoint : pointAt b.objects key ≠ .ok (some (entryRecord entry))) :
    ∃ b', b.exec (repairPoint wire key.val (entryRecord entry)) = (.ok (), b') ∧ Tended b b' := by
  have hdirectory : key.val.location.dropLast = key.val.directory := by simp [ItemKey.location]
  unfold repairPoint
  split
  next hcanceled =>
    rcases hlookup : b.objects.lookup key.val.location with _ | data
    · refine ⟨b, ?_, .refl b⟩
      simp [exec_bind, timerPath_of_stored, deleteIfExists, hlookup]
    · refine ⟨{ b with objects := b.objects.erase key.val.location }, ?_, ?_⟩
      · simp [exec_bind, timerPath_of_stored, deleteIfExists, hlookup, exec_deleteObject b hlookup]
      · apply tended_of_point key
        · intro path hpath
          exact AList.lookup_erase_ne hpath
        · intro ns dir hdir
          exact listsAlike_erase (by rw [hdirectory]; exact not_dueRoot_directory key hdir) b
        · rw [pointAt_none (AList.lookup_erase _ _), hledger, readTimer, readTimer,
            if_neg (mt toOption_eq_some.1 hpoint), if_neg (by simp [Except.toOption])]
  next hlive =>
    obtain ⟨hcarries, -⟩ := carries_of_ledgerAt hledger
    refine ⟨_, by rw [putCanonicalTimer_eq hcarries, exec_bind]; rfl, (tended_createDir key b).trans ?_⟩
    apply tended_of_point key
    · intro path hpath
      exact AList.lookup_insert_ne hpath
    · intro ns dir hdir
      exact listsAlike_insert (by rw [hdirectory]; exact not_dueRoot_directory key hdir) _ _
    · rw [pointAt_some hcarries (AList.lookup_insert _), hledger, readTimer, readTimer,
        if_neg (mt toOption_eq_some.1 hpoint), if_pos (toOption_eq_some.2 rfl), liveRecord, if_neg hlive]

end Tended

section Wakes

variable {wire : Wire} {b b' : Bucket wire.Bytes} {now : Int} {key : RecordKey .timer}
variable {entry : DueTimerEntry}

/-- Point reads agree that the timer is due, to the microsecond, and that its workflow is in
progress. -/
structure Wakes (b : Bucket wire.Bytes) (now : Int) (due : DueTimer) : Prop where
  key : due.key.Valid ∧ due.key.ns ≠ ""
  record : timerKeyFromProto due.record.key = due.key
  timer : timerReply b due.key = .ok (some due.record)
  scheduled : due.record.status = .scheduled
  fires : ∃ t, timestampFromProto (fireAtOf due.record.fireAt) = .ok t ∧ t ≤ now
  workflow : workflowReply b due.key.run = .ok (some due.workflow)
  inProgress : due.workflow.status = .inProgress

theorem Tended.wakes (h : Tended b b') {due : DueTimer} : Wakes b' now due ↔ Wakes b now due := by
  have hiff : ∀ {b b' : Bucket wire.Bytes}, Tended b b' → Wakes b now due → Wakes b' now due := by
    intro b b' h hwakes
    have hrun : due.key.run.Valid ∧ due.key.run.ns ≠ "" :=
      (runKeyOf ⟨due.key, hwakes.key⟩).property
    exact { hwakes with
      timer := (h.timers ⟨due.key, hwakes.key⟩).trans hwakes.timer
      workflow := (h.workflows ⟨due.key.run, hrun⟩).trans hwakes.workflow }
  refine ⟨hiff ?_, hiff h⟩
  exact ⟨fun key => (h.timers key).symm, fun run => (h.workflows run).symm,
    fun ns dir hdir => ⟨(h.lists ns dir hdir).entries.symm, (h.lists ns dir hdir).present.symm⟩⟩

theorem wakes_of_dueWake {path : Path} {due : DueTimer}
    (hledger : ledgerAt b.objects key = .ok (some entry))
    (hpoint : pointAt b.objects key = .ok (some (entryRecord entry)))
    (h : (b.exec (dueWake wire now path key.val key.val.run (entryRecord entry))).1 = .ok (some due)) :
    due.key = key.val ∧ Wakes b now due := by
  obtain ⟨hcarries, -⟩ := carries_of_ledgerAt hledger
  have htimer : timerReply b key.val = .ok (some (entryRecord entry)) := by
    rw [timerReply, exec_getTimer_same hledger hpoint]
  unfold dueWake at h
  split at h
  · cases h
  next hscheduled =>
    rw [ne_eq, not_not] at hscheduled
    simp only [exec_bind, exec_liftExcept] at h
    rcases hfire : timestampFromProto (fireAtOf (entryRecord entry).fireAt) with err | t
    · rw [hfire] at h
      cases h
    · rw [hfire] at h
      dsimp only at h
      split at h
      · cases h
      next hnow =>
        simp only [exec_bind, exec_attempt, exec_getWorkflow_reply] at h
        rcases hworkflow : workflowReply b key.val.run with err | found
        · rw [hworkflow] at h
          dsimp only at h
          split at h <;> cases h
        · rw [hworkflow] at h
          obtain ⟨workflow, hfound, hdue⟩ := Option.map_eq_some_iff.1 (Except.ok.inj h)
          obtain ⟨rfl, hstatus⟩ := Option.filter_eq_some_iff.1 hfound
          subst hdue
          exact ⟨rfl, key.property, by simp [timerKeyFromProto, itemKeyFromProto, hcarries.key, key.withDefaults],
            htimer, hscheduled, ⟨t, hfire, not_lt.1 hnow⟩, hworkflow, by simpa using hstatus⟩

variable (now) in
theorem exec_scanPrepared (hledger : ledgerAt b.objects key = .ok (some entry)) (path : Path) :
    ∃ r b', b.exec (scanPrepared wire now path key.val key.val.run (entryRecord entry)) = (r, b') ∧
      Tended b b' ∧ ∀ due, r = .ok (some due) → due.key = key.val ∧ Wakes b now due := by
  unfold scanPrepared
  simp only [exec_bind, exec_attempt, exec_getCanonicalTimer_at]
  rcases hpoint : pointAt b.objects key with err | _ | record
  · obtain ⟨b', hexec, htended⟩ := tended_repairPoint hledger (by simp [hpoint])
    refine ⟨.ok none, b', ?_, htended, by simp⟩
    simp [pointAt_recoverable hpoint, hexec, Except.map]
  · dsimp only
    split
    next hscheduled =>
      obtain ⟨b', hexec, htended⟩ := tended_repairPoint hledger (by simp [hpoint])
      refine ⟨.ok none, b', ?_, htended, by simp⟩
      rw [repairPoint, if_neg (by simp [hscheduled])] at hexec
      rw [exec_bind_ok b _ hexec]
      rfl
    · exact ⟨.ok none, b, rfl, .refl b, by simp⟩
  · dsimp only
    split
    next hsame =>
      subst hsame
      refine ⟨_, b, Prod.ext rfl (readOnly_dueWake _ _ _ _ _).exec_state, .refl b, ?_⟩
      intro due hdue
      exact wakes_of_dueWake hledger hpoint hdue
    next hne =>
      obtain ⟨b', hexec, htended⟩ := tended_repairPoint hledger (by simpa [hpoint] using hne)
      exact ⟨.ok none, b', by rw [exec_bind_ok b _ hexec]; rfl, htended, by simp⟩

theorem run_of_validateDueEntry {ns : Option String} {path : Option Path} {k : TimerKey}
    (h : validateDueEntry entry none none ns path = .ok k) :
    workflowKeyFromProto entry.workflowKey = k.run := by
  simp only [validateDueEntry, bind_eq_ok_unit, bind_eq_ok (α := TimerKey), whenGiven_eq_ok] at h
  obtain ⟨-, -, -, -, timerKey, -, -, -, hown, -, -, -, hk⟩ := h
  obtain rfl : timerKey = k := Except.ok.inj hk
  simpa using require_eq_ok.1 hown

variable (b now) in
theorem exec_scanEntry (ns : String) (due : List DueTimer) (path : Path) :
    ∃ r b', b.exec (scanEntry wire now ns due path) = (r, b') ∧ Tended b b' ∧
      ∀ due', r = .ok due' → due' = due ∨
        ∃ d, due' = due ++ [d] ∧ d.key.dueLocation = path ∧ d.key.ns = ns ∧ Wakes b now d := by
  have hreject : ∀ err : Err, ∃ r b', b.exec
      (do
        if recoverable err then
          quarantineDueEntry wire ns path
          throw (recordError ("invalid due-timer ledger entry " ++ render path ++ ": " ++
            err.message))
        throw err : BucketM wire.Bytes (List DueTimer)) = (.error r, b') ∧ Tended b b' := by
    intro err
    split
    · obtain ⟨b', hexec, hcopies⟩ := exec_quarantineDueEntry b ns path
      exact ⟨_, b', by rw [exec_bind_ok b _ hexec]; rfl, hcopies.tended⟩
    · exact ⟨err, b, rfl, .refl b⟩
  simp only [scanEntry, exec_bind, exec_attempt, exec_readMessage_at]
  rcases hdecode : decodeMessage wire.due (replyAt b.objects path) with err | _ | entry
  · obtain ⟨r, b', hexec, htended⟩ := hreject err
    exact ⟨.error r, b', hexec, htended, by simp⟩
  · exact ⟨.ok due, b, rfl, .refl b, fun due' h => .inl (Except.ok.inj h).symm⟩
  · simp only [exec_bind, exec_liftExcept]
    rcases hvalid : validateDueEntry entry none none (some ns) (some path) with err | timerKey
    · obtain ⟨r, b', hexec, htended⟩ := hreject err
      exact ⟨.error r, b', hexec, htended, by simp⟩
    · obtain ⟨key, rfl, hledger⟩ := ledgerAt_of_scan hdecode hvalid
      obtain ⟨-, -, -, hns, hpath⟩ := validateDueEntry_eq_ok.1 hvalid
      obtain ⟨r, b', hexec, htended, hwakes⟩ := exec_scanPrepared now hledger path
      rw [run_of_validateDueEntry hvalid]
      rcases r with err | _ | d
      · exact ⟨.error err, b', exec_bind_error b _ hexec, htended, by simp⟩
      · refine ⟨.ok due, b', ?_, htended, fun due' h => .inl (Except.ok.inj h).symm⟩
        exact (exec_bind_ok b _ hexec).trans (by simp)
      · refine ⟨.ok (due ++ [d]), b', exec_bind_ok b _ hexec, htended, ?_⟩
        intro due' hdue'
        obtain ⟨hkey, hwake⟩ := hwakes d rfl
        exact .inr ⟨d, (Except.ok.inj hdue').symm, by rw [hkey, hpath path rfl],
          by rw [hkey, hns ns rfl], hwake⟩

/-- What the scan has gathered so far: wakes of distinct entries. -/
structure Gathered (b : Bucket wire.Bytes) (now : Int) (paths : List Path) (due : List DueTimer) : Prop where
  wakes : ∀ d ∈ due, Wakes b now d
  located : (due.map (·.key.dueLocation)).Sublist paths

variable (now) in
theorem exec_scanEntries {base : Bucket wire.Bytes} (hbase : Tended base b) (ns : String)
    (paths : List Path) (due : List DueTimer) :
    ∃ r b', b.exec (forEach (scanEntry wire now ns) paths due) = (r, b') ∧ Tended base b' ∧
      ∀ due', r = .ok due' → ∃ found, due' = due ++ found ∧ Gathered base now paths found ∧
        ∀ d ∈ found, d.key.ns = ns := by
  induction paths generalizing b due with
  | nil =>
    refine ⟨.ok due, b, rfl, hbase, ?_⟩
    intro due' hdue'
    exact ⟨[], by simpa using (Except.ok.inj hdue').symm, ⟨by simp, by simp⟩, by simp⟩
  | cons path paths ih =>
    obtain ⟨r, b₁, hexec, htended, hstep⟩ := exec_scanEntry b now ns due path
    rcases r with err | due₁
    · exact ⟨.error err, b₁, by rw [forEach, exec_bind_error b _ hexec], hbase.trans htended, by simp⟩
    · obtain ⟨r, b₂, hrest, htended₂, hfound⟩ := ih (hbase.trans htended) due₁
      refine ⟨r, b₂, by rw [forEach, exec_bind_ok b _ hexec, hrest], htended₂, ?_⟩
      intro due' hdue'
      obtain ⟨found, hdue₂, hgathered, hns⟩ := hfound due' hdue'
      rcases hstep due₁ rfl with hsame | ⟨d, hadded, hpath, hspace, hwake⟩
      · exact ⟨found, by rw [hdue₂, hsame], ⟨hgathered.wakes, hgathered.located.cons path⟩, hns⟩
      · refine ⟨d :: found, by rw [hdue₂, hadded]; simp, ⟨?_, ?_⟩, ?_⟩
        · intro d' hd'
          rcases List.mem_cons.1 hd' with rfl | hd'
          · exact hbase.wakes.1 hwake
          · exact hgathered.wakes d' hd'
        · rw [List.map_cons, hpath]
          exact hgathered.located.cons_cons path
        · intro d' hd'
          rcases List.mem_cons.1 hd' with rfl | hd'
          · exact hspace
          · exact hns d' hd'

theorem exec_scanNamespace {base : Bucket wire.Bytes} {fuel : Nat} (hfuel : base.walkFuel ≤ fuel)
    (now : Int) (ns : String) : ∀ b, Tended base b → ∃ r b',
      b.exec (walkBinpb (scanEntry wire now ns) fuel [dueRoot ns] []) = (r, b') ∧ Tended base b' ∧
        ∀ due, r = .ok due → (∀ d ∈ due, Wakes base now d ∧ d.key.ns = ns) ∧
          (due.map DueTimer.key).Nodup := by
  obtain ⟨found, hperm, hwalk⟩ := exec_walkBinpb_eq (b := base) (R := Tended base)
    (scanEntry wire now ns) [dueRoot ns]
    (by
      intro b' hb' root hroot dir hdir
      rw [List.mem_singleton.1 hroot] at hdir
      exact (hb'.lists ns dir hdir).exec_listEntries)
    (by
      intro b' hb' state path _
      obtain ⟨r, b'', hexec, htended, -⟩ := exec_scanEntry b' now ns state path
      rw [hexec]
      exact hb'.trans htended)
  have hnodup : found.Nodup := by
    rw [hperm.nodup_iff]
    simpa [Bucket.recordsBelow, Bucket.records] using
      (base.objects.keys_nodup.filter _).filter _
  intro b hb
  obtain ⟨r, b', hexec, htended, hfound⟩ := exec_scanEntries now hb ns found []
  refine ⟨r, b', ?_, htended, ?_⟩
  · rw [hwalk fuel _ b hb, hexec]
    have hsize := base.walkSize_le (dueRoot ns)
    simp only [List.map_cons, List.map_nil, List.sum_cons, List.sum_nil]
    omega
  · intro due hdue
    obtain ⟨wakes, rfl, hgathered, hns⟩ := hfound due hdue
    refine ⟨fun d hd => ⟨hgathered.wakes d hd, hns d hd⟩, ?_⟩
    have hlocated := hgathered.located.nodup hnodup
    rw [← Function.comp_def, ← List.map_map] at hlocated
    exact hlocated.of_map _

theorem exec_scanNamespaces {base : Bucket wire.Bytes} {fuel : Nat} (hfuel : base.walkFuel ≤ fuel)
    (now : Int) {spaces : List String} (hspaces : spaces.Nodup) (hb : Tended base b) :
    ∃ r b', b.exec (scanNamespaces wire fuel now spaces) = (r, b') ∧ Tended base b' ∧
      ∀ due, r = .ok due → (∀ d ∈ due, Wakes base now d ∧ d.key.ns ∈ spaces) ∧
        (due.map DueTimer.key).Nodup := by
  induction spaces generalizing b with
  | nil => exact ⟨.ok [], b, rfl, hb, fun due h => by cases h; simp⟩
  | cons ns spaces ih =>
    obtain ⟨hfresh, hrest⟩ := List.nodup_cons.1 hspaces
    obtain ⟨r, b₁, hexec, htended, hwakes⟩ := exec_scanNamespace hfuel now ns b hb
    rcases r with err | due
    · exact ⟨.error err, b₁, by rw [scanNamespaces, exec_bind_error b _ hexec], htended, by simp⟩
    · obtain ⟨r, b₂, hlater, htended₂, hwakes₂⟩ := ih hrest htended
      rcases r with err | later
      · refine ⟨.error err, b₂, ?_, htended₂, by simp⟩
        rw [scanNamespaces, exec_bind_ok b _ hexec, exec_bind_error b₁ _ hlater]
      · refine ⟨.ok (due ++ later), b₂, ?_, htended₂, ?_⟩
        · rw [scanNamespaces, exec_bind_ok b _ hexec, exec_bind_ok b₁ _ hlater]
          rfl
        · intro all hall
          obtain rfl := Except.ok.inj hall
          obtain ⟨hdue, hnodup⟩ := hwakes due rfl
          obtain ⟨hlaterWakes, hnodup₂⟩ := hwakes₂ later rfl
          constructor
          · intro d hd
            rcases List.mem_append.1 hd with hd | hd
            · exact ⟨(hdue d hd).1, by simp [(hdue d hd).2]⟩
            · exact ⟨(hlaterWakes d hd).1, List.mem_cons_of_mem _ (hlaterWakes d hd).2⟩
          · rw [List.map_append, List.nodup_append]
            refine ⟨hnodup, hnodup₂, ?_⟩
            intro k hk k' hk' heq
            obtain ⟨d, hd, rfl⟩ := List.mem_map.1 hk
            obtain ⟨d', hd', rfl⟩ := List.mem_map.1 hk'
            -- the namespace of a wake tells the walk that found it
            apply hfresh
            rw [← (hdue d hd).2, heq]
            exact (hlaterWakes d' hd').2

theorem exec_dueScanNamespaces (b : Bucket wire.Bytes) (ns : String) :
    (∃ err, b.exec (dueScanNamespaces wire ns) = (.error err, b)) ∨
      ∃ spaces, b.exec (dueScanNamespaces wire ns) = (.ok spaces, b) ∧ spaces.Nodup := by
  have hstate : ∀ r, (b.exec (dueScanNamespaces wire ns)).1 = r →
      b.exec (dueScanNamespaces wire ns) = (r, b) :=
    fun r hr => Prod.ext hr (readOnly_dueScanNamespaces ns).exec_state
  rcases hr : (b.exec (dueScanNamespaces wire ns)).1 with err | spaces
  · exact .inl ⟨err, hstate _ hr⟩
  · refine .inr ⟨spaces, hstate _ hr, ?_⟩
    unfold dueScanNamespaces at hr
    split at hr
    · simp only [exec_bind, exec_liftExcept] at hr
      cases hvalid : validatePointerKey ns "placeholder" with
      | error err =>
        rw [hvalid] at hr
        cases hr
      | ok _ =>
        rw [hvalid] at hr
        obtain rfl := Except.ok.inj hr
        exact List.nodup_singleton ns
    · rcases exec_listEntries (b := b) storageRoot with ⟨hlist, -⟩ | ⟨hlist, -⟩
      · rw [exec_bind_ok b _ hlist] at hr
        obtain rfl := Except.ok.inj hr
        exact (List.perm_insertionSort _ _).nodup_iff.2 (List.nodup_dedup _)
      · rw [exec_bind_ok b _ hlist] at hr
        obtain rfl := Except.ok.inj hr
        exact List.nodup_nil

theorem exec_dueTimers {fuel : Nat} (hfuel : b.walkFuel ≤ fuel) (ns : String) (now : Int) :
    ∃ r b', b.exec (dueTimers wire fuel ns now) = (r, b') ∧ Tended b b' ∧
      ∀ due, r = .ok due → (∀ d ∈ due, Wakes b now d) ∧ (due.map DueTimer.key).Nodup := by
  rcases exec_dueScanNamespaces b ns with ⟨err, hspaces⟩ | ⟨spaces, hspaces, hnodup⟩
  · exact ⟨.error err, b, by rw [dueTimers, exec_bind_error b _ hspaces], .refl b, by simp⟩
  · obtain ⟨r, b', hexec, htended, hwakes⟩ := exec_scanNamespaces hfuel now hnodup (.refl b)
    rcases r with err | due
    · refine ⟨.error err, b', ?_, htended, by simp⟩
      rw [dueTimers, exec_bind_ok b _ hspaces, exec_bind_error b _ hexec]
    · refine ⟨_, b', by rw [dueTimers, exec_bind_ok b _ hspaces, exec_bind_ok b _ hexec]; rfl, htended, ?_⟩
      intro sorted hsorted
      obtain rfl := Except.ok.inj hsorted
      obtain ⟨hdue, hkeys⟩ := hwakes due rfl
      have hperm := List.perm_insertionSort (fun left right => dueOrder left ≤ dueOrder right) due
      exact ⟨fun d hd => (hdue d (hperm.mem_iff.1 hd)).1, (hperm.map _).nodup_iff.2 hkeys⟩

end Wakes

end Temporaless.Python
