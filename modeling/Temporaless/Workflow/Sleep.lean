import Temporaless.Framework.System
import Temporaless.Framework.Table
import Temporaless.Workflow.Coherence
import Temporaless.Workflow.Retry

/-!
# Durable sleeps

`Sleep` keeps the timer of a sleep that is over SCHEDULED until a later timer is durable, so that a process
that stops in between is woken again. A run that has a wake in store therefore keeps one, whichever calls of
the store fail and wherever a process stops.
-/

namespace Temporaless

open Effects KeySort

def TimerKind.name : TimerKind → String
  | .unspecified => "TIMER_KIND_UNSPECIFIED"
  | .sleep => "TIMER_KIND_SLEEP"
  | .activityRetry => "TIMER_KIND_ACTIVITY_RETRY"
  | .poll => "TIMER_KIND_POLL"

/-- `Duration.String` of a duration that is not negative. -/
def durationText (d : Nat) : String :=
  let seconds := d / 10 ^ 9
  if d = 0 then "0s"
  else if d < 10 ^ 3 then toString d ++ "ns"
  else if d < 10 ^ 6 then toString (d / 10 ^ 3) ++ fraction 3 (d % 10 ^ 3) ++ "µs"
  else if d < 10 ^ 9 then toString (d / 10 ^ 6) ++ fraction 6 (d % 10 ^ 6) ++ "ms"
  else (if seconds < 3600 then "" else toString (seconds / 3600) ++ "h") ++
    (if seconds < 60 then "" else toString (seconds / 60 % 60) ++ "m") ++
    toString (seconds % 60) ++ fraction 9 (d % 10 ^ 9) ++ "s"

/-- The text of a conflict, with the error that it wraps. -/
abbrev Conflict := String × Option Err

def conflictIf (c : Prop) [Decidable c] (text : String) : Except Conflict Unit :=
  if c then .error (text, none) else .ok ()

def conflictUnless (check : Except Err Unit) (text : String) : Except Conflict Unit :=
  check.mapError fun cause => (text, some cause)

def checkSleepDuration (duration : Int) : Option DurationMessage → Except Conflict Unit
  | none => conflictIf True "sleep timer has no duration"
  | some stored => do
    conflictUnless stored.check "sleep timer has invalid duration: "
    conflictIf (stored ≠ DurationMessage.new stored.asDuration)
      "sleep timer duration is outside Go time.Duration range"
    conflictIf (stored.asDuration < 0) "sleep timer has negative duration"
    conflictIf (stored.asDuration ≠ duration) ("timer duration changed from " ++
      durationText stored.asDuration.toNat ++ " to " ++ durationText duration.toNat)

def checkSleepTime (field : String) : Option Timestamp → Except Conflict Unit
  | none => conflictIf True ("sleep timer has no " ++ field)
  | some t => conflictUnless t.check ("sleep timer has invalid " ++ field ++ ": ")

def checkSleepStatus (record : TimerRecord) : Except Conflict Unit :=
  match record.status, record.firedAt with
  | .scheduled, firedAt => conflictIf firedAt.isSome "scheduled sleep timer has fired_at"
  | .fired, none => conflictIf True "fired sleep timer has no fired_at"
  | .fired, some t => conflictUnless t.check "fired sleep timer has invalid fired_at: "
  | .canceled, firedAt => conflictIf firedAt.isSome "canceled sleep timer has fired_at"
  | .unspecified, _ => conflictIf True "timer has unknown status TIMER_STATUS_UNSPECIFIED"

def checkSleepTimer (record : TimerRecord) (key : TimerKey) (duration : Int) : Except Conflict Unit := do
  conflictUnless (validateTimerRecord record key) "invalid sleep timer record: "
  conflictIf (record.timerKind ≠ .sleep)
    ("timer kind changed from " ++ record.timerKind.name ++ " to " ++ TimerKind.sleep.name)
  conflictIf (record.retryActivityId ≠ "")
    ("sleep timer is linked to retry activity " ++ quoted record.retryActivityId)
  checkSleepDuration duration record.duration
  checkSleepTime "created_at" record.createdAt
  checkSleepTime "fire_at" record.fireAt
  checkSleepStatus record

def timerConflict : Conflict → Err
  | (text, none) => sentinelf .errTimerConflict text
  | (text, some cause) => sentinelCausef .errTimerConflict text cause

/-- The instant at which the timer of a sleep is due. Its status is that of the record. -/
def sleepTimerDetails (record : TimerRecord) (key : TimerKey) (duration : Int) : Except Err Int :=
  match checkSleepTimer record key duration with
  | .error conflict => .error (timerConflict conflict)
  | .ok () => .ok ((record.fireAt.map Timestamp.asTime).getD 0)

def ErrorNode.isInfrastructure : ErrorNode → Bool
  | .infrastructure _ => true
  | _ => false

def workflowInfrastructureError (operation : String) (cause : Err) : Err :=
  if cause.is .errCorruptRecord || cause.contains ErrorNode.isInfrastructure then cause
  else .node (.infrastructure operation) [cause]

def timerPendingError (timerID : String) (wakeAt : Int) : Err :=
  .node (.timerPending timerID wakeAt) [Err.ofSentinel .errTimerPending]

def currentTime : FlowM Int :=
  ExceptT.mk (.call (σ := flowSignature) .now fun t => .done (.ok t))

def changeConsumed (change : (AList fun _ : String => TimerKey) → AList fun _ : String => TimerKey) : FlowM Unit :=
  remember fun m => { m with consumedWakeTimers := change m.consumedWakeTimers }

def registerConsumedWakeTimer (key : TimerKey) : FlowM Unit := changeConsumed (·.insert key.id key)

def forgetConsumedWakeTimer (timerID : String) : FlowM Unit := changeConsumed (·.erase timerID)

/-- The body of the loop of `acknowledgeConsumedWakeTimers`, with the error that it collects. -/
def acknowledge (timerID : String) (key : TimerKey) : FlowM (Option Err) := do
  match ← attempt (CachedStore.getItem .timer key) with
  | .error err => return some (wrapf ("get consumed wake timer " ++ quoted timerID ++ ": ") err)
  | .ok none =>
    forgetConsumedWakeTimer timerID
    return none
  | .ok (some record) =>
    if record.status = .fired ∨ record.status = .canceled then
      forgetConsumedWakeTimer timerID
      return none
    else if record.timerKind ≠ .sleep ∧ record.timerKind ≠ .poll then
      return some (sentinelf .errTimerConflict
        ("consumed timer " ++ quoted timerID ++ " is not a wake timer"))
    else
      let now ← currentTime
      match ← attempt (CachedStore.putItem .timer
          { record with status := .fired, firedAt := some (Timestamp.new now) }) with
      | .error err => return some (wrapf ("acknowledge consumed wake timer " ++ quoted timerID ++ ": ") err)
      | .ok () =>
        forgetConsumedWakeTimer timerID
        return none

def acknowledgeAll : List (String × TimerKey) → FlowM (List Err)
  | [] => return []
  | (timerID, key) :: rest => do
    let failed ← acknowledge timerID key
    return failed.toList ++ (← acknowledgeAll rest)

def acknowledgeConsumedWakeTimers (exceptTimerID : String) : FlowM Unit := do
  let consumed := (← recollect).consumedWakeTimers.entries.map fun e => (e.1, e.2)
  let errs ← acknowledgeAll
    (sortedBy (fun e => Utf8.textBytes e.1) (consumed.filter fun e => e.1 ≠ exceptTimerID))
  if errs ≠ [] then throw (joinErrors errs)

/-- The fields of a `Workflow` that name its run. -/
structure Workflow where
  workflowID : String
  runID : String

def Workflow.key (w : Workflow) : WorkflowKey := ⟨defaultNamespace, w.workflowID, w.runID⟩

def Workflow.timer (w : Workflow) (timerID : String) : TimerKey := w.key.item .timer timerID

/-- The end of a sleep whose timer is SCHEDULED in the store: it is a successor of the wakes before it. -/
def awaitWake (key : TimerKey) (now fireAt : Int) : FlowM Unit := do
  let _ ← attempt (acknowledgeConsumedWakeTimers key.id)
  if now < fireAt then throw (timerPendingError key.id fireAt)
  else registerConsumedWakeTimer key

def canceledSleep : Err := sentinelf .errTimerConflict "timer was canceled"

/-- A write that failed may have reached the store. -/
def verifySleep (key : TimerKey) (duration : Int) (writeErr : Err) : FlowM Unit := do
  let infrastructureErr := workflowInfrastructureError "persist sleep timer" writeErr
  match ← attempt (CachedStore.refreshItem .timer key) with
  | .error readErr =>
    throw (workflowInfrastructureError "verify ambiguous sleep timer write" (joinErrors [writeErr, readErr]))
  | .ok none => throw infrastructureErr
  | .ok (some verified) =>
    match sleepTimerDetails verified key duration with
    | .error err => throw (joinErrors [err, infrastructureErr])
    | .ok fireAt =>
      if verified.status = .scheduled then
        throw (joinErrors [timerPendingError key.id fireAt, infrastructureErr])
      else if verified.status = .fired then return
      else throw (joinErrors [canceledSleep, infrastructureErr])

def sleepRecord (key : TimerKey) (duration now : Int) : TimerRecord :=
  { schemaVersion := .timer, key := some key, timerKind := .sleep, duration := some (DurationMessage.new duration),
    status := .scheduled, fireAt := some (Timestamp.new (now + duration)), createdAt := some (Timestamp.new now),
    firedAt := none, retryActivityId := "" }

def sleep (w : Workflow) (timerID : String) (duration : Int) : FlowM Unit := do
  let key := w.timer timerID
  rejectIf (duration < 0) "sleep duration must not be negative"
  key.validate
  let now ← currentTime
  match ← attempt (CachedStore.getItem .timer key) with
  | .error err => throw (workflowInfrastructureError "read sleep timer" err)
  | .ok (some record) =>
    let fireAt ← (sleepTimerDetails record key duration : Except Err Int)
    if record.status = .fired then return
    else if record.status = .canceled then throw canceledSleep
    else awaitWake key now fireAt
  | .ok none =>
    match ← attempt (CachedStore.putItem .timer (sleepRecord key duration now)) with
    | .error writeErr => verifySleep key duration writeErr
    | .ok () => awaitWake key now (now + duration)

/-- A workflow body that sleeps several times. -/
def sleeps (w : Workflow) : List (String × Int) → FlowM Unit
  | [] => return
  | (timerID, duration) :: rest => do
    sleep w timerID duration
    sleeps w rest

namespace Sleep

/-- The memory of a process is lost when it stops. -/
structure Process where
  memory : Memory
  records : Records

variable {p p' : Process} {w : Workflow} {used : List String} {id : String} {faults : Err → Prop}

namespace Process

def timer (p : Process) (w : Workflow) (id : String) : Option TimerRecord := p.records.item .timer (w.timer id)

def step (p : Process) (op : StoreOp) : Process := { p with records := (p.records.step op).2 }

/-- A call of the store may fail with one of the `faults`, and may have been applied all the same. -/
def answers (faults : Err → Prop) (p : Process) : (op : FlowOp) → op.Reply → Process → Prop
  | .store op, r, p' => (op.Agree r (p.records.step op).1 ∧ p' = p.step op) ∨
      ∃ err, faults err ∧ r = .error err ∧ (p' = p ∨ p' = p.step op)
  | .recollect, m, p' => m = p.memory ∧ p' = p
  | .remember change, _, p' => p' = { p with memory := change p.memory }
  | .now, _, p' => p' = p

/-- The store has a timer that will wake the run. -/
def Scheduled (p : Process) (w : Workflow) (id : String) : Prop :=
  ∃ record, p.timer w id = some record ∧ record.status = .scheduled

def Awake (p : Process) (w : Workflow) : Prop := ∃ id, p.Scheduled w id

end Process

variable {own : ErrorNode} {causes : List Err} {wakeAt : Int}
  {Q : Except Err Unit → Process → Prop} {record : TimerRecord} {next : String} {err : Err}

/-- Every call keeps the run awake. -/
def spec (w : Workflow) (faults : Err → Prop) : CallSpec flowSignature Process :=
  .steps (Process.answers faults) fun p _ _ p' => p.Awake w → p'.Awake w

section Faults

/-- The tree of the error has the pending error of the timer. -/
def Pends (err : Err) (id : String) (wakeAt : Int) : Prop :=
  ErrorTree.Error.contains (· == .timerPending id wakeAt) err = true

/-- Whatever pending error the tree has comes from the store. -/
def Foreign (faults : Err → Prop) (err : Err) : Prop :=
  ∀ id wakeAt, Pends err id wakeAt → ∃ fault, faults fault ∧ Pends fault id wakeAt

theorem pends_node : Pends (.node own causes) id wakeAt ↔
    own = .timerPending id wakeAt ∨ ∃ cause ∈ causes, Pends cause id wakeAt := by
  simp [Pends, ErrorTree.Error.containsAny_eq_any]

theorem foreign_node (hown : ∀ id wakeAt, own ≠ .timerPending id wakeAt)
    (hcauses : ∀ cause ∈ causes, Foreign faults cause) : Foreign faults (.node own causes) := by
  intro id wakeAt hpends
  obtain hself | ⟨cause, hmem, hcause⟩ := pends_node.1 hpends
  · exact absurd hself (hown id wakeAt)
  · exact hcauses cause hmem id wakeAt hcause

@[grind ←] theorem foreign_errorf (text : String) : Foreign faults (errorf text) :=
  foreign_node (by simp) (by simp)

@[grind ←] theorem foreign_ofSentinel (s : Sentinel) : Foreign faults (Err.ofSentinel s) :=
  foreign_node (by simp) (by simp)

@[grind ←] theorem foreign_sentinelf (s : Sentinel) (text : String) : Foreign faults (sentinelf s text) :=
  foreign_node (by simp) (by simpa using foreign_ofSentinel s)

theorem raises_validateItem {kind : RecordKind} (version expected : RecordSchemaVersion)
    (key : Option (ItemKey kind)) (requested : ItemKey kind) :
    Loop.Raises (Foreign faults) (validateItem version expected key requested) := by
  have hguard : ∀ ok text, Loop.Raises (Foreign faults) (guardCorrupt ok text) := by
    intro ok text
    cases ok with
    | false => exact Loop.raises_error (foreign_sentinelf _ _)
    | true => exact Loop.raises_ok ()
  refine (hguard _ _).bind fun _ => Loop.Raises.bind ?_ fun _ => hguard _ _
  exact Loop.Raises.mapError (P := fun _ => True) (fun _ _ => trivial) fun _ _ => foreign_sentinelf _ _

@[grind ←] theorem raises_check (t : Timestamp) : Loop.Raises (Foreign faults) t.check := by
  grind [Timestamp.check]

theorem raises_accept (record : TimerRecord) :
    Loop.Raises (Foreign faults) (StoreKind.accept .timer record) := by
  have hdeadline : Loop.Raises (Foreign faults)
      ((checkOptional record.fireAt).mapError (wrapf "invalid due timer fire_at: ")) := by
    refine Loop.Raises.mapError (P := Foreign faults) ?_ fun err herr => foreign_node (by simp) (by simpa using herr)
    cases record.fireAt with
    | none => exact Loop.raises_ok ()
    | some t => exact raises_check t
  refine (raises_validateItem _ _ _ _).bind fun _ => ?_
  rw [StoreKind.check, OpenDALStore.checkPrepared]
  cases record.status with
  | scheduled =>
    dsimp only
    split
    · exact Loop.raises_error (foreign_errorf _)
    · exact hdeadline
  | fired | canceled => exact hdeadline
  | unspecified => exact Loop.raises_error (foreign_errorf _)

end Faults

/-- What the cache answers for a timer without a call of the store. -/
def Process.known (p : Process) (id : String) : Option (Option TimerRecord) :=
  ((p.memory.cache.shelf .timer).entries.lookup id).or
    (if (p.memory.cache.shelf .timer).listed then some none else none)

/-- What the cache answers for a timer that the invocation has not used yet is true, records are filed under
their identifiers, and only timers that were used are consumed. -/
structure Sound (w : Workflow) (used : List String) (p : Process) : Prop where
  scope : p.memory.cache.scope = w.key
  known : ∀ id found, p.known id = some found → (id ∉ used → found = p.timer w id) ∧
    ∀ record, found = some record → (StoreKind.key .timer record).withDefaults = w.timer id
  consumed : ∀ id key, p.memory.consumedWakeTimers.lookup id = some key → id ∈ used ∧ key = w.timer id

theorem timer_withDefaults (w : Workflow) (id : String) : (w.timer id).withDefaults = w.timer id :=
  ItemKey.withDefaults_of_ne (by decide : defaultNamespace ≠ "")

theorem pre_recollect {Q : Memory → Process → Prop} (h : Q p.memory p) :
    (spec w faults).pre .recollect Q p := by
  intro m p' hstep
  obtain ⟨rfl, rfl⟩ := hstep
  exact ⟨id, h⟩

theorem pre_remember {change : Memory → Memory} {Q : Unit → Process → Prop}
    (h : Q () { p with memory := change p.memory }) : (spec w faults).pre (.remember change) Q p := by
  intro _ p' hstep
  obtain rfl := hstep
  exact ⟨id, h⟩

theorem ends_currentTime {Q : Except Err Int → Process → Prop} (h : ∀ t, Q (.ok t) p) :
    ends (spec w faults) currentTime Q p := by
  apply ends_mk.2
  intro t p' hstep
  obtain rfl := hstep
  exact ⟨id, h t⟩

theorem ends_changeConsumed
    {change : (AList fun _ : String => TimerKey) → AList fun _ : String => TimerKey}
    (hp : Sound w used p) (h : ∀ id key, (change p.memory.consumedWakeTimers).lookup id = some key →
      id ∈ used ∧ key = w.timer id)
    (hQ : ∀ p', Sound w used p' → p'.records = p.records → Q (.ok ()) p') :
    ends (spec w faults) (changeConsumed change) Q p := by
  rw [changeConsumed, ends_remember]
  apply pre_remember
  exact hQ _ ⟨hp.scope, hp.known, h⟩ rfl

theorem ends_loadTimer {Q : Except Err (Option TimerRecord) → Process → Prop}
    (herror : ∀ err, Foreign faults err → Q (.error err) p)
    (hok : Q (.ok (p.timer w id)) p) :
    ends (spec w faults) (CachedStore.loadItem .timer (w.timer id)) Q p := by
  rw [CachedStore.loadItem, ends_bind, ends_callStore]
  intro r p' hstep
  have hsame : p' = p := by
    rcases hstep with ⟨-, rfl⟩ | ⟨err, -, -, rfl | rfl⟩ <;> rfl
  subst hsame
  refine ⟨fun h => h, ?_⟩
  cases r with
  | error err =>
    apply herror
    obtain ⟨hagree, -⟩ | ⟨fault, hfault, hr, -⟩ := hstep
    · have heq := hagree.eq (by simp)
      simp only [Records.step, ItemKey.validate, validationError] at heq
      split at heq
      · cases heq
      · obtain rfl := Except.error.inj heq
        exact foreign_errorf _
    · rw [Except.error.inj hr]
      exact fun id wakeAt hpends => ⟨fault, hfault, hpends⟩
  | ok found =>
    have hfound : found = p'.timer w id := by
      obtain ⟨hagree, -⟩ | ⟨err, -, hr, -⟩ := hstep
      · have heq := hagree.eq (by simp)
        simp only [Records.step] at heq
        cases hvalid : (w.timer id).validate with
        | error err => simp [hvalid, Except.map] at heq
        | ok u => simpa [hvalid, Except.map, Process.timer] using heq
      · cases hr
    subst hfound
    cases hitem : p'.timer w id with
    | none => exact ends_pure.2 (hitem ▸ hok)
    | some record =>
      change ends _ (do
        let _ ← (liftM (StoreKind.validate .timer record (w.timer id)) : FlowM Unit)
        pure (some record)) Q p'
      rw [Records.item_valid hitem, ends_bind, ends_liftExcept]
      exact ends_pure.2 (hitem ▸ hok)

/-- What a read of a timer leaves, and what is known of its answer. -/
structure Read (w : Workflow) (faults : Err → Prop) (used : List String) (id : String) (p : Process)
    (r : Except Err (Option TimerRecord)) (p' : Process) : Prop where
  sound : Sound w used p'
  records : p'.records = p.records
  foreign : Loop.Raises (Foreign faults) r
  answer : ∀ found, r = .ok found → id ∉ used → found = p.timer w id
  filed : ∀ record, r = .ok (some record) → (StoreKind.key .timer record).withDefaults = w.timer id

theorem filed_timer (h : p.timer w id = some record) :
    (StoreKind.key .timer record).withDefaults = w.timer id := by
  rw [(Records.stored_of_item h).key, timer_withDefaults]

theorem known_setEntry (found : Option TimerRecord) (other : String) :
    Process.known { p with memory := p.memory.changeCache (·.setEntry .timer id found) } other =
      if other = id then some found else p.known other := by
  rw [Process.known, Memory.changeCache, RunScopedCache.lookup_setEntry, RunScopedCache.listed_setEntry]
  split <;> rfl

theorem Sound.setEntry (h : Sound w used p) {found : Option TimerRecord}
    (hknown : id ∉ used → found = p.timer w id)
    (hfiled : ∀ record, found = some record → (StoreKind.key .timer record).withDefaults = w.timer id) :
    Sound w used { p with memory := p.memory.changeCache (·.setEntry .timer id found) } where
  scope := h.scope
  known other found' hother := by
    rw [known_setEntry] at hother
    split at hother
    next heq =>
      subst heq
      obtain rfl := Option.some.inj hother
      exact ⟨hknown, hfiled⟩
    next => exact h.known other found' hother
  consumed := h.consumed

/-- The store itself has answered. -/
def Fresh (w : Workflow) (faults : Err → Prop) (used : List String) (id : String) (p : Process)
    (r : Except Err (Option TimerRecord)) (p' : Process) : Prop :=
  Read w faults used id p r p' ∧ ∀ found, r = .ok found → found = p'.timer w id

theorem inScope_timer (h : Sound w used p) (id : String) :
    p.memory.cache.inScope (w.timer id).run = true :=
  RunScopedCache.inScope_iff.2 h.scope.symm

theorem ends_reloadTimer (h : Sound w used p) :
    ends (spec w faults) (CachedStore.reloadItem .timer (w.timer id)) (Fresh w faults used id p) p := by
  rw [CachedStore.reloadItem, ends_bind]
  apply ends_loadTimer
  · exact fun err herr => ⟨⟨h, rfl, Loop.raises_error herr, by simp, by simp⟩, by simp⟩
  · dsimp only
    rw [ends_bind, ends_remember]
    apply pre_remember
    have hfiled : ∀ record, p.timer w id = some record → _ := fun _ => filed_timer
    apply ends_pure.2
    exact ⟨⟨h.setEntry (fun _ => rfl) hfiled, rfl, Loop.raises_ok _, fun _ heq _ => (Except.ok.inj heq).symm,
      fun record heq => hfiled record (Except.ok.inj heq)⟩, fun _ heq => (Except.ok.inj heq).symm⟩

theorem ends_refreshTimer (h : Sound w used p) (id : String) :
    ends (spec w faults) (CachedStore.refreshItem .timer (w.timer id)) (Fresh w faults used id p) p := by
  rw [CachedStore.refreshItem, ends_bind, ends_recollect]
  apply pre_recollect
  dsimp only
  rw [inScope_timer h]
  exact ends_reloadTimer h

theorem ends_getTimer (h : Sound w used p) (id : String) :
    ends (spec w faults) (CachedStore.getItem .timer (w.timer id)) (Read w faults used id p) p := by
  rw [CachedStore.getItem, ends_bind, ends_recollect]
  apply pre_recollect
  dsimp only
  rw [inScope_timer h, if_neg (by decide)]
  have hserved : ∀ found, p.known id = some found → Read w faults used id p (.ok found) p := by
    intro found hfound
    obtain ⟨hknown, hfiled⟩ := h.known id found hfound
    refine ⟨h, rfl, Loop.raises_ok _, ?_, fun record heq => hfiled record (Except.ok.inj heq)⟩
    intro found' heq hused
    rw [← Except.ok.inj heq]
    exact hknown hused
  rw [show (w.timer id).id = id from rfl]
  cases hentry : (p.memory.cache.shelf .timer).entries.lookup id with
  | some found => exact ends_pure.2 (hserved found (by rw [Process.known, hentry]; rfl))
  | none =>
    dsimp only
    split
    next hlisted => exact ends_pure.2 (hserved none (by rw [Process.known, hentry, hlisted]; rfl))
    next => exact (ends_reloadTimer h).mono fun _ _ hread => hread.1

theorem timer_put (hkey : (StoreKind.key .timer record).withDefaults = w.timer id)
    (hlive : record.status ≠ .canceled) (haccept : StoreKind.accept .timer record = .ok ())
    (other : String) :
    (p.step (.put .timer record)).timer w other = if other = id then some record else p.timer w other := by
  have hcancels : StoreKind.cancels .timer record = false := by simpa [StoreKind.cancels] using hlive
  have hiff : w.timer other = w.timer id ↔ other = id := by simp [Workflow.timer, WorkflowKey.item]
  rw [Process.timer, Process.step, Records.step_put_live haccept hcancels, Records.item_setItem, hkey,
    timer_withDefaults]
  simp only [hiff]
  rfl

/-- The store may change at a timer that the invocation has used. -/
theorem Sound.change (h : Sound w used p) (hid : id ∈ used) (hmemory : p'.memory = p.memory)
    (hother : ∀ other, other ≠ id → p'.timer w other = p.timer w other) : Sound w used p' where
  scope := hmemory ▸ h.scope
  known other found hfound := by
    rw [Process.known, hmemory] at hfound
    refine ⟨fun hused => ?_, (h.known other found hfound).2⟩
    rw [hother other fun heq => hused (heq ▸ hid)]
    exact (h.known other found hfound).1 hused
  consumed := hmemory ▸ h.consumed

/-- A timer is put. A wake may only be taken back while another one is there. -/
theorem ends_putTimer (h : Sound w used p) (hid : id ∈ used)
    (hkey : (StoreKind.key .timer record).withDefaults = w.timer id) (hlive : record.status ≠ .canceled)
    (hkeep : record.status = .scheduled ∨ ∃ other, other ≠ id ∧ p.Scheduled w other)
    (hQ : ∀ r p', Sound w used p' → (∀ other, other ≠ id → p'.timer w other = p.timer w other) →
      (r = .ok () → p'.timer w id = some record) → Loop.Raises (Foreign faults) r → Q r p') :
    ends (spec w faults) (CachedStore.putItem .timer record) Q p := by
  have hstep : p.step (.put .timer record) = p ∨ StoreKind.accept .timer record = .ok () := by
    cases haccept : StoreKind.accept .timer record with
    | error err =>
      left
      rw [Process.step, Records.step_put_error haccept]
    | ok u => exact .inr rfl
  have hother : ∀ other, other ≠ id → (p.step (.put .timer record)).timer w other = p.timer w other := by
    intro other hne
    obtain hsame | haccept := hstep
    · rw [hsame]
    · rw [timer_put hkey hlive haccept, if_neg hne]
  have hawake : p.Awake w → (p.step (.put .timer record)).Awake w := by
    intro hp
    obtain hsame | haccept := hstep
    · rw [hsame]
      exact hp
    · obtain hscheduled | ⟨other, hne, found, hfound, hscheduled⟩ := hkeep
      · exact ⟨id, record, by rw [timer_put hkey hlive haccept, if_pos rfl], hscheduled⟩
      · exact ⟨other, found, by rw [hother other hne, hfound], hscheduled⟩
  have hsound : Sound w used (p.step (.put .timer record)) := h.change hid rfl hother
  rw [CachedStore.putItem, ends_bind, ends_callStore]
  intro r p' hmove
  cases r with
  | error err =>
    obtain ⟨hagree, rfl⟩ | ⟨fault, hfault, hr, hsame⟩ := hmove
    · have hraises : Loop.Raises (Foreign faults) (.error err : Except Err Unit) := by
        cases haccept : StoreKind.accept .timer record with
        | error err' =>
          rw [Records.step_put_error haccept] at hagree
          exact Loop.raises_error (hagree ▸ raises_accept record err' haccept)
        | ok u =>
          rw [Records.step_put_live haccept (by simpa [StoreKind.cancels] using hlive)] at hagree
          exact hagree.elim
      exact ⟨hawake, hQ _ _ hsound hother nofun hraises⟩
    · have hraises : Loop.Raises (Foreign faults) (.error err : Except Err Unit) := by
        rw [Except.error.inj hr]
        exact Loop.raises_error fun id wakeAt hpends => ⟨fault, hfault, hpends⟩
      obtain rfl | rfl := hsame
      · exact ⟨fun hp => hp, hQ _ _ h (fun _ _ => rfl) nofun hraises⟩
      · exact ⟨hawake, hQ _ _ hsound hother nofun hraises⟩
  | ok u =>
    obtain ⟨hagree, rfl⟩ | ⟨err, -, hr, -⟩ := hmove
    · have haccept : StoreKind.accept .timer record = .ok () := by
        cases haccept : StoreKind.accept .timer record with
        | error err =>
          rw [Records.step_put_error haccept] at hagree
          exact hagree.elim
        | ok u => rfl
      have hput : (p.step (.put .timer record)).timer w id = some record := by
        rw [timer_put hkey hlive haccept, if_pos rfl]
      have hsame : (StoreKind.key .timer record).id = id := by
        rw [← ItemKey.withDefaults_id, hkey]
        rfl
      refine ⟨hawake, ?_⟩
      dsimp only
      rw [CachedStore.follow, ends_bind, ends_recollect]
      apply pre_recollect
      dsimp only
      split
      next =>
        rw [ends_remember, hsame]
        apply pre_remember
        exact hQ _ _ (hsound.setEntry (fun hused => absurd hid hused) fun _ heq => Option.some.inj heq ▸ hkey) hother
            (fun _ => hput) (Loop.raises_ok ())
      next => exact ends_pure.2 (hQ _ _ hsound hother (fun _ => hput) (Loop.raises_ok ()))
    · cases hr

/-- The successor of the consumed wakes stays as it is. -/
def Kept (w : Workflow) (used : List String) (next : String) (p p' : Process) : Prop :=
  Sound w used p' ∧ p'.timer w next = p.timer w next

theorem Kept.scheduled (h : Kept w used next p p') (hnext : p.Scheduled w next) :
    p'.Scheduled w next := by
  rw [Process.Scheduled, h.2]
  exact hnext

theorem ends_forget (h : Sound w used p)
    (hQ : ∀ p', Sound w used p' → p'.records = p.records → Q (.ok ()) p') :
    ends (spec w faults) (forgetConsumedWakeTimer id) Q p := by
  apply ends_changeConsumed h
  · intro other key hlookup
    by_cases hother : other = id
    · rw [hother, AList.lookup_erase] at hlookup
      cases hlookup
    · rw [AList.lookup_erase_ne hother] at hlookup
      exact h.consumed other key hlookup
  · exact hQ

theorem ends_acknowledge (h : Sound w used p) (hid : id ∈ used) (hne : next ≠ id)
    (hnext : p.Scheduled w next) :
    ends (spec w faults) (acknowledge id (w.timer id)) (fun _ => Kept w used next p) p := by
  have hdone : ∀ p', Kept w used next p p' → ends (spec w faults)
      (do forgetConsumedWakeTimer id; return none : FlowM (Option Err)) (fun _ => Kept w used next p) p' := by
    intro p' hkept
    rw [ends_bind]
    apply ends_forget hkept.1
    intro p'' hsound hrecords
    apply ends_pure.2
    exact ⟨hsound, by rw [← hkept.2, Process.timer, hrecords, Process.timer]⟩
  rw [acknowledge, ends_bind, ends_attempt]
  apply (ends_getTimer h id).mono
  intro r p' hread
  have hkept : Kept w used next p p' := ⟨hread.sound, by rw [Process.timer, hread.records, Process.timer]⟩
  cases r with
  | error err => exact ends_pure.2 hkept
  | ok found =>
    cases found with
    | none => exact hdone p' hkept
    | some record =>
      dsimp only
      split
      next => exact hdone p' hkept
      next =>
        split
        next => exact ends_pure.2 hkept
        next =>
          rw [ends_bind]
          apply ends_currentTime
          intro now
          dsimp only
          rw [ends_bind, ends_attempt]
          refine ends_putTimer hread.sound hid ?_ ?_ (.inr ⟨next, hne, hkept.scheduled hnext⟩) ?_
          · exact hread.filed record rfl
          · simp
          intro r p'' hsound hother _ _
          have hkept' : Kept w used next p p'' := ⟨hsound, (hother next hne).trans hkept.2⟩
          cases r with
          | error err => exact ends_pure.2 hkept'
          | ok u => exact hdone p'' hkept'

theorem ends_acknowledgeAll {l : List (String × TimerKey)} (h : Sound w used p)
    (hl : ∀ e ∈ l, (e.1 ∈ used ∧ e.2 = w.timer e.1) ∧ e.1 ≠ next) (hnext : p.Scheduled w next) :
    ends (spec w faults) (acknowledgeAll l) (fun _ => Kept w used next p) p := by
  induction l generalizing p with
  | nil => exact ends_pure.2 ⟨h, rfl⟩
  | cons e l ih =>
    obtain ⟨⟨hused, hkey⟩, hne⟩ := hl e List.mem_cons_self
    rw [acknowledgeAll, hkey, ends_bind]
    apply (ends_acknowledge h hused hne.symm hnext).mono
    intro r p' hkept
    cases r with
    | error err => exact hkept
    | ok failed =>
      dsimp only
      rw [ends_bind]
      apply (ih hkept.1 (fun e' he => hl e' (List.mem_cons_of_mem e he)) (hkept.scheduled hnext)).mono
      intro r p'' hkept'
      have hboth : Kept w used next p p'' := ⟨hkept'.1, hkept'.2.trans hkept.2⟩
      cases r with
      | error err => exact hboth
      | ok errs => exact ends_pure.2 hboth

theorem ends_acknowledgeConsumed (h : Sound w used p) (hnext : p.Scheduled w next) :
    ends (spec w faults) (acknowledgeConsumedWakeTimers next) (fun _ => Kept w used next p) p := by
  rw [acknowledgeConsumedWakeTimers, ends_bind, ends_recollect]
  apply pre_recollect
  dsimp only
  rw [ends_bind]
  apply (ends_acknowledgeAll h _ hnext).mono
  · intro r p' hkept
    cases r with
    | error err => exact hkept
    | ok errs =>
      dsimp only
      split
      next => exact ends_throw.2 hkept
      next => exact ends_pure.2 hkept
  · intro e he
    rw [mem_sortedBy, List.mem_filter, List.mem_map] at he
    obtain ⟨⟨entry, hentry, rfl⟩, hne⟩ := he
    exact ⟨h.consumed _ _ (AList.mem_lookup_iff.2 hentry), by simpa using hne⟩

/-- The store has a SCHEDULED timer for the instant. -/
def Wakes (w : Workflow) (p : Process) (id : String) (wakeAt : Int) : Prop :=
  ∃ record, p.timer w id = some record ∧ record.status = .scheduled ∧
    record.fireAt.map Timestamp.asTime = some wakeAt

/-- The error is the pending error of the timer, or has it in its tree where no error of the store has it. -/
def Tells (faults : Err → Prop) (err : Err) (id : String) (wakeAt : Int) : Prop :=
  err = timerPendingError id wakeAt ∨ Pends err id wakeAt ∧ ∀ fault, faults fault → ¬ Pends fault id wakeAt

/-- A pending answer names the instant of a timer that the store has as SCHEDULED. -/
def Told (w : Workflow) (faults : Err → Prop) (r : Except Err Unit) (p : Process) : Prop :=
  ∀ err id wakeAt, r = .error err → Tells faults err id wakeAt → Wakes w p id wakeAt

def Slept (w : Workflow) (faults : Err → Prop) (used : List String) (r : Except Err Unit) (p : Process) : Prop :=
  Sound w used p ∧ Told w faults r p

theorem told_ok (w : Workflow) (p : Process) : Told w faults (.ok ()) p := nofun

theorem told_foreign (hne : ∀ id wakeAt, err ≠ timerPendingError id wakeAt)
    (h : Foreign faults err) : Told w faults (.error err) p := by
  intro err' id wakeAt heq htells
  obtain rfl := Except.error.inj heq
  obtain heq | ⟨hpends, hquiet⟩ := htells
  · exact absurd heq (hne id wakeAt)
  · obtain ⟨fault, hfault, hpends⟩ := h id wakeAt hpends
    exact absurd hpends (hquiet fault hfault)

theorem told_node (hown : ∀ id wakeAt, own ≠ .timerPending id wakeAt)
    (hcauses : ∀ cause ∈ causes, Foreign faults cause) :
    Told w faults (.error (.node own causes)) p := by
  apply told_foreign _ (foreign_node hown hcauses)
  intro id wakeAt heq
  exact hown id wakeAt (ErrorTree.Error.node.inj heq).1

theorem pends_timerPendingError {wakeAt' : Int} {id' : String} :
    Pends (timerPendingError id wakeAt) id' wakeAt' ↔ id = id' ∧ wakeAt = wakeAt' := by
  simp [timerPendingError, pends_node, Err.ofSentinel]

theorem told_pending (h : Wakes w p id wakeAt) :
    Told w faults (.error (timerPendingError id wakeAt)) p := by
  intro err id' wakeAt' heq htells
  obtain rfl := Except.error.inj heq
  have hpends : Pends (timerPendingError id wakeAt) id' wakeAt' := by
    obtain heq | ⟨hpends, -⟩ := htells
    · rw [heq, pends_timerPendingError]
      exact ⟨rfl, rfl⟩
    · exact hpends
  obtain ⟨rfl, rfl⟩ := pends_timerPendingError.1 hpends
  exact h

theorem told_join (h : Wakes w p id wakeAt) (herr : Foreign faults err) :
    Told w faults (.error (joinErrors [timerPendingError id wakeAt, err])) p := by
  intro joined id' wakeAt' heq htells
  obtain rfl := Except.error.inj heq
  obtain heq | ⟨hpends, hquiet⟩ := htells
  · cases (ErrorTree.Error.node.inj heq).1
  · simp only [joinErrors, pends_node, List.mem_cons, List.not_mem_nil, or_false, exists_eq_or_imp, exists_eq_left,
      pends_timerPendingError, reduceCtorEq, false_or] at hpends
    obtain ⟨rfl, rfl⟩ | hpends := hpends
    · exact h
    · obtain ⟨fault, hfault, hpends⟩ := herr id' wakeAt' hpends
      exact absurd hpends (hquiet fault hfault)

theorem foreign_infrastructure (operation : String) {cause : Err} (h : Foreign faults cause) :
    Foreign faults (workflowInfrastructureError operation cause) := by
  rw [workflowInfrastructureError]
  split
  next => exact h
  next => exact foreign_node (by simp) (by simpa using h)

theorem told_infrastructure (operation : String) {cause : Err} (h : Foreign faults cause) :
    Told w faults (.error (workflowInfrastructureError operation cause)) p := by
  apply told_foreign _ (foreign_infrastructure operation h)
  intro id wakeAt heq
  rw [workflowInfrastructureError] at heq
  split at heq
  next hcause =>
    -- A pending timer is neither a corrupt record nor an infrastructure error.
    rw [heq] at hcause
    simp [timerPendingError, is_node, Err.ofSentinel, ErrorNode.matchesTarget, ErrorNode.isInfrastructure] at hcause
  next => cases (ErrorTree.Error.node.inj heq).1

theorem ends_awaitWake (h : Sound w used p) (hid : id ∈ used)
    (hrecord : p.timer w id = some record) (hstatus : record.status = .scheduled) {now fireAt : Int}
    (hfire : record.fireAt.map Timestamp.asTime = some fireAt) :
    ends (spec w faults) (awaitWake (w.timer id) now fireAt) (Slept w faults used) p := by
  rw [awaitWake, ends_bind, ends_attempt]
  have hwake : p.Scheduled w id := ⟨record, hrecord, hstatus⟩
  apply (ends_acknowledgeConsumed h hwake).mono
  intro r p' hkept
  have hsame : p'.timer w id = some record := hkept.2.trans hrecord
  dsimp only
  split
  next =>
    apply ends_throw.2
    exact ⟨hkept.1, told_pending ⟨record, hsame, hstatus, hfire⟩⟩
  next =>
    apply ends_changeConsumed hkept.1
    · intro other key hlookup
      rw [Table.lookup_insert_if] at hlookup
      split at hlookup
      next hother => exact ⟨hother ▸ hid, hother ▸ (Option.some.inj hlookup).symm⟩
      next => exact hkept.1.consumed other key hlookup
    · exact fun p'' hsound _ => ⟨hsound, told_ok w p''⟩

/-- The error that a conflict wraps is foreign. -/
def Excuses (faults : Err → Prop) (conflict : Conflict) : Prop := ∀ cause ∈ conflict.2, Foreign faults cause

@[grind ←] theorem raises_conflictIf (c : Prop) [Decidable c] (text : String) :
    Loop.Raises (Excuses faults) (conflictIf c text) := by
  rw [conflictIf]
  split
  · exact Loop.raises_error (by simp [Excuses])
  · exact Loop.raises_ok ()

@[grind ←] theorem raises_conflictUnless {check : Except Err Unit} (h : Loop.Raises (Foreign faults) check)
    (text : String) : Loop.Raises (Excuses faults) (conflictUnless check text) :=
  h.mapError (by simp [Excuses])

theorem raises_checkSleepTimer (record : TimerRecord) (key : TimerKey) (duration : Int) :
    Loop.Raises (Excuses faults) (checkSleepTimer record key duration) := by
  have hduration : Loop.Raises (Excuses faults) (checkSleepDuration duration record.duration) := by
    cases record.duration <;> grind [checkSleepDuration, DurationMessage.check]
  have htime : ∀ field t, Loop.Raises (Excuses faults) (checkSleepTime field t) := by
    intro field t
    cases t <;> grind [checkSleepTime]
  have hstatus : Loop.Raises (Excuses faults) (checkSleepStatus record) := by
    grind [checkSleepStatus]
  apply (raises_conflictUnless (raises_validateItem _ _ _ _) _).bind
  intro _
  exact (raises_conflictIf _ _).bind fun _ => (raises_conflictIf _ _).bind fun _ =>
    hduration.bind fun _ => (htime _ _).bind fun _ => (htime _ _).bind fun _ => hstatus

theorem raises_details (record : TimerRecord) (key : TimerKey) (duration : Int) :
    Loop.Raises (Foreign faults) (sleepTimerDetails record key duration) := by
  rw [sleepTimerDetails]
  split
  next conflict hconflict =>
    have hexcuses : Excuses faults conflict := raises_checkSleepTimer record key duration conflict hconflict
    obtain ⟨text, _ | cause⟩ := conflict
    · exact Loop.raises_error (foreign_sentinelf _ _)
    · refine Loop.raises_error (foreign_node (by simp) ?_)
      simpa using ⟨foreign_ofSentinel _, hexcuses cause rfl⟩
  next => exact Loop.raises_ok _

theorem told_details {key : TimerKey} {duration : Int}
    (h : sleepTimerDetails record key duration = .error err) : Told w faults (.error err) p := by
  apply told_foreign _ (raises_details record key duration err h)
  rintro id wakeAt rfl
  rw [sleepTimerDetails] at h
  split at h
  next conflict _ =>
    obtain ⟨text, _ | cause⟩ := conflict <;> cases (ErrorTree.Error.node.inj (Except.error.inj h)).1
  next => cases h

theorem sleepTimerDetails_ok {key : TimerKey} {duration fireAt : Int}
    (h : sleepTimerDetails record key duration = .ok fireAt) :
    record.status ≠ .unspecified ∧ record.fireAt.map Timestamp.asTime = some fireAt := by
  rw [sleepTimerDetails] at h
  split at h
  next => cases h
  next hcheck =>
    simp only [checkSleepTimer, Loop.bind_eq_ok] at hcheck
    obtain ⟨_, -, _, -, _, -, _, -, _, -, _, hfire, hstatus⟩ := hcheck
    constructor
    · intro hunspecified
      simp [checkSleepStatus, hunspecified, conflictIf] at hstatus
    · cases hfield : record.fireAt with
      | none => simp [checkSleepTime, hfield, conflictIf] at hfire
      | some t =>
        rw [hfield] at h
        exact congrArg some (Except.ok.inj h)

theorem ends_verifySleep (h : Sound w used p) (duration : Int) {writeErr : Err}
    (hwrite : Foreign faults writeErr) :
    ends (spec w faults) (verifySleep (w.timer id) duration writeErr) (Slept w faults used) p := by
  rw [verifySleep, ends_bind, ends_attempt]
  apply (ends_refreshTimer h id).mono
  intro r p' hfresh
  obtain ⟨hread, hanswer⟩ := hfresh
  have hsound := hread.sound
  have hinfrastructure := foreign_infrastructure "persist sleep timer" hwrite
  cases r with
  | error readErr =>
    have hjoined : Foreign faults (joinErrors [writeErr, readErr]) :=
      foreign_node (by simp) (by simpa using ⟨hwrite, hread.foreign readErr rfl⟩)
    exact ends_throw.2 ⟨hsound, told_infrastructure _ hjoined⟩
  | ok found =>
    cases found with
    | none => exact ends_throw.2 ⟨hsound, told_infrastructure _ hwrite⟩
    | some verified =>
      dsimp only
      cases hdetails : sleepTimerDetails verified (w.timer id) duration with
      | error err =>
        have herr : Foreign faults err := raises_details _ _ _ err hdetails
        exact ends_throw.2 ⟨hsound, told_node (by simp) (by simpa using ⟨herr, hinfrastructure⟩)⟩
      | ok fireAt =>
        dsimp only
        split
        next hstatus =>
          apply ends_throw.2
          exact ⟨hsound, told_join
            ⟨verified, (hanswer _ rfl).symm, hstatus, (sleepTimerDetails_ok hdetails).2⟩ hinfrastructure⟩
        next =>
          split
          next => exact ends_pure.2 ⟨hsound, told_ok w p'⟩
          next =>
            refine ends_throw.2 ⟨hsound, told_node (by simp) ?_⟩
            simpa using ⟨foreign_sentinelf _ _, hinfrastructure⟩

theorem Sound.use (h : Sound w used p) (id : String) : Sound w (id :: used) p where
  scope := h.scope
  known other found hfound := by
    obtain ⟨hknown, hfiled⟩ := h.known other found hfound
    exact ⟨fun hother => hknown (List.not_mem_of_not_mem_cons hother), hfiled⟩
  consumed other key hkey := by
    obtain ⟨hother, heq⟩ := h.consumed other key hkey
    exact ⟨List.mem_cons_of_mem id hother, heq⟩

theorem ends_checked (h : Sound w used p) {check : Except Err Unit} {next : FlowM Unit}
    (hcheck : ∀ err, check = .error err → ∃ text, err = errorf text)
    (hnext : ends (spec w faults) next (Slept w faults used) p) :
    ends (spec w faults) ((liftM check : FlowM Unit) >>= fun _ => next) (Slept w faults used) p := by
  rw [ends_bind, ends_liftExcept]
  cases check with
  | ok u => exact hnext
  | error err =>
    obtain ⟨text, rfl⟩ := hcheck err rfl
    exact ⟨h, told_node (by simp) (by simp)⟩

theorem ends_sleep (h : Sound w used p) (hid : id ∉ used) (duration : Int) :
    ends (spec w faults) (sleep w id duration) (Slept w faults (id :: used)) p := by
  apply ends_checked (h.use id)
  · intro err herr
    rw [rejectIf] at herr
    split at herr <;> cases herr
    exact ⟨_, rfl⟩
  apply ends_checked (h.use id)
  · intro err herr
    rw [ItemKey.validate, validationError] at herr
    split at herr <;> cases herr
    exact ⟨_, rfl⟩
  rw [ends_bind]
  apply ends_currentTime
  intro now
  dsimp only
  rw [ends_bind, ends_attempt]
  apply (ends_getTimer h id).mono
  intro r p' hread
  have hsound : Sound w (id :: used) p' := hread.sound.use id
  have hself : id ∈ id :: used := List.mem_cons_self
  cases r with
  | error err => exact ends_throw.2 ⟨hsound, told_infrastructure _ (hread.foreign err rfl)⟩
  | ok found =>
    cases found with
    | some record =>
      have hrecord : p'.timer w id = some record := by
        rw [Process.timer, hread.records]
        exact (hread.answer _ rfl hid).symm
      dsimp only
      rw [ends_bind, ends_liftExcept]
      cases hdetails : sleepTimerDetails record (w.timer id) duration with
      | error err => exact ⟨hsound, told_details hdetails⟩
      | ok fireAt =>
        obtain ⟨hspecified, hfire⟩ := sleepTimerDetails_ok hdetails
        dsimp only
        split
        next => exact ends_pure.2 ⟨hsound, told_ok w p'⟩
        next hfired =>
          split
          next =>
            exact ends_throw.2 ⟨hsound, told_node (by simp) (by simpa using foreign_ofSentinel _)⟩
          next hcanceled =>
            have hstatus : record.status = .scheduled := by
              cases hcase : record.status <;> simp_all
            exact ends_awaitWake hsound hself hrecord hstatus hfire
    | none =>
      dsimp only
      rw [ends_bind, ends_attempt]
      refine ends_putTimer hsound hself ?_ (by simp [sleepRecord]) (.inl rfl) ?_
      · exact timer_withDefaults w id
      intro r p'' hsound' _ hput hraises
      cases r with
      | error writeErr => exact ends_verifySleep hsound' duration (hraises writeErr rfl)
      | ok u => exact ends_awaitWake hsound' hself (hput rfl) rfl (by simp [sleepRecord])

variable (faults) in
theorem ends_sleeps {body : List (String × Int)} (h : Sound w used p)
    (hbody : (body.map Prod.fst).Nodup) (hfresh : ∀ call ∈ body, call.1 ∉ used) :
    ends (spec w faults) (sleeps w body) (Told w faults) p := by
  induction body generalizing p used with
  | nil => exact ends_pure.2 (told_ok w p)
  | cons call body ih =>
    rw [List.map_cons, List.nodup_cons] at hbody
    rw [sleeps, ends_bind]
    apply (ends_sleep h (hfresh call List.mem_cons_self) call.2).mono
    intro r p' hslept
    cases r with
    | error err => exact hslept.2
    | ok u =>
      apply ih hslept.1 hbody.2
      intro call' hcall hmem
      rcases List.mem_cons.1 hmem with heq | hmem
      · exact hbody.1 (heq ▸ List.mem_map_of_mem hcall)
      · exact hfresh call' (List.mem_cons_of_mem call hcall) hmem

/-- An invocation begins with a cache that is new or has been filled from the store. -/
structure Begins (w : Workflow) (p p' : Process) : Prop where
  records : p'.records = p.records
  coherent : Coherent p'.memory.cache p'.records
  scope : p'.memory.cache.scope = w.key
  consumed : p'.memory.consumedWakeTimers = ∅

/-- The process calls `Sleep` for some timers and stops, at the end of its body or at any call before it. -/
def Invoked (w : Workflow) (faults : Err → Prop) (p : Process) (rest : Program flowSignature (Except Err Unit))
    (p' : Process) : Prop :=
  ∃ start body, Begins w p start ∧ (body.map Prod.fst).Nodup ∧
    Program.Reaches (Process.answers faults) (sleeps w body).run start rest p'

/-- Invocations of one run, one after the other. -/
abbrev Later (w : Workflow) (faults : Err → Prop) : Process → Process → Prop :=
  Relation.ReflTransGen fun p p' => ∃ rest, Invoked w faults p rest p'

theorem Begins.sound (h : Begins w p p') : Sound w [] p' where
  scope := h.scope
  known id found hfound := by
    have hitem : p'.timer w id = found := by
      rw [Process.timer, Workflow.timer, ← h.scope]
      cases hentry : (p'.memory.cache.shelf .timer).entries.lookup id with
      | some entry =>
        rw [Process.known, hentry] at hfound
        exact (h.coherent.entry .timer id entry hentry).trans (Option.some.inj hfound)
      | none =>
        rw [Process.known, hentry] at hfound
        cases hlisted : (p'.memory.cache.shelf .timer).listed with
        | false => simp [hlisted] at hfound
        | true =>
          rw [hlisted] at hfound
          rw [← Option.some.inj hfound]
          apply Option.eq_none_iff_forall_ne_some.2
          intro record hrecord
          rw [h.coherent.listed .timer hlisted id record hrecord] at hentry
          cases hentry
    exact ⟨fun _ => hitem.symm, fun record hrecord => filed_timer (hitem.trans hrecord)⟩
  consumed id key hkey := by
    rw [h.consumed] at hkey
    cases hkey

theorem Invoked.wp {rest : Program flowSignature (Except Err Unit)} (h : Invoked w faults p rest p') :
    (p.Awake w → p'.Awake w) ∧ rest.wp (spec w faults) (Told w faults) p' := by
  obtain ⟨start, body, hbegins, hbody, hreaches⟩ := h
  have hends := ends_iff_wp.1 (ends_sleeps faults hbegins.sound hbody (by simp))
  obtain ⟨hkeep, hrest⟩ := hends.reaches hreaches
  refine ⟨fun hawake => hkeep ?_, hrest⟩
  obtain ⟨id, hscheduled⟩ := hawake
  refine ⟨id, ?_⟩
  rw [Process.Scheduled, Process.timer, hbegins.records]
  exact hscheduled

end Sleep

open Sleep

/-- Once the store has a wake for a run it has one for ever: in any sequence of invocations that sleep, whichever
calls of the store fail or lose their answers and wherever a process stops. -/
theorem wake_never_lost (w : Workflow) (faults : Err → Prop) {p p' : Process} (h : Later w faults p p')
    (hawake : p.Awake w) : p'.Awake w := by
  induction h with
  | refl => exact hawake
  | tail _ hinvoked ih =>
    obtain ⟨rest, hinvoked⟩ := hinvoked
    exact hinvoked.wp.1 ih

def lostAnswer : Err := .node (.opendal false "connection reset") []

/-- Every call is answered at the given time, but the answers to puts are lost if `lossy` holds. -/
def replyAt (time : Int) (lossy : Bool) (p : Process) : (op : FlowOp) → op.Reply × Process
  | .store (.put k record) =>
    (if lossy then .error lostAnswer else (p.records.step (.put k record)).1, p.step (.put k record))
  | .store op => ((p.records.step op).1, p.step op)
  | .recollect => (p.memory, p)
  | .remember change => ((), { p with memory := change p.memory })
  | .now => (time, p)

theorem answers_replyAt (time : Int) (lossy : Bool) (p : Process) (op : FlowOp) :
    p.answers (· = lostAnswer) op (replyAt time lossy p op).1 (replyAt time lossy p op).2 := by
  cases op with
  | store op =>
    cases op with
    | put k record =>
      cases lossy with
      | true => exact .inr ⟨lostAnswer, rfl, rfl, .inr rfl⟩
      | false => exact .inl ⟨.refl _ _, rfl⟩
    | getWorkflow | putWorkflow | deleteWorkflow | get | list | delete => exact .inl ⟨.refl _ _, rfl⟩
  | recollect => exact ⟨rfl, rfl⟩
  | remember | now => rfl

def napWorkflow : Workflow := ⟨"wf", "run"⟩

/-- An invocation begins with a new cache. -/
def begun (records : Records) : Process := ⟨⟨newRunScopedCache napWorkflow.key, ∅⟩, records⟩

/-- Two sleeps of a minute. -/
def naps : Program flowSignature (Except Err Unit) :=
  (sleeps napWorkflow [("nap", 60 * nanosPerSecond), ("rest", 60 * nanosPerSecond)]).run

def napped (time : Int) (lossy : Bool) (p : Process) : Except Err Unit × Process :=
  naps.exec (replyAt time lossy) (begun p.records)

theorem invoked_naps (time : Int) (lossy : Bool) (p : Process) :
    Invoked napWorkflow (· = lostAnswer) p (.done (napped time lossy p).1) (napped time lossy p).2 := by
  refine ⟨begun p.records, _, ⟨rfl, coherent_new _ _, rfl, rfl⟩, ?_, Program.reaches_exec (answers_replyAt time lossy)⟩
  decide

def pendingAfterLoss (timerID : String) (wakeAt : Int) : Err :=
  joinErrors [timerPendingError timerID wakeAt, workflowInfrastructureError "persist sleep timer" lostAnswer]

/-- The timer of the first sleep has been written, but the answer was lost. -/
def firstNap : Except Err Unit × Process := napped 0 true (begun .empty)

/-- The first sleep is over, and the same happens to the timer of the second. -/
def secondNap : Except Err Unit × Process := napped (61 * nanosPerSecond) true firstNap.2

theorem wake_never_lost_nap : firstNap.2.Awake napWorkflow ∧
    secondNap.1 = .error (pendingAfterLoss "rest" (121 * nanosPerSecond)) ∧
    (napped (62 * nanosPerSecond) false secondNap.2).2.Awake napWorkflow := by
  have hawake : firstNap.2.Awake napWorkflow := ⟨"nap", _, rfl, rfl⟩
  have hlater : Later napWorkflow (· = lostAnswer) firstNap.2 (napped (62 * nanosPerSecond) false secondNap.2).2 :=
    .tail (.single ⟨_, invoked_naps _ _ _⟩) ⟨_, invoked_naps _ _ _⟩
  exact ⟨hawake, rfl, wake_never_lost napWorkflow _ hlater hawake⟩

/-- An invocation that ends with the pending error of a timer has left that timer in the store. The same holds if the
pending error is somewhere in the tree of its error, as after a write whose answer was lost, and not in an error of
the store. -/
theorem pending_sleep_stored (w : Workflow) {faults : Err → Prop} {p p' : Process} {err : Err}
    {id : String}
    {wakeAt : Int} (h : Invoked w faults p (.done (.error err)) p')
    (htells : Tells faults err id wakeAt) :
    ∃ record, p'.timer w id = some record ∧ record.status = .scheduled ∧
      record.fireAt.map Timestamp.asTime = some wakeAt :=
  h.wp.2 err id wakeAt rfl htells

theorem pending_sleep_stored_nap : firstNap.1 = .error (pendingAfterLoss "nap" (60 * nanosPerSecond)) ∧
    ∃ record, firstNap.2.timer napWorkflow "nap" = some record ∧ record.status = .scheduled ∧
      record.fireAt.map Timestamp.asTime = some (60 * nanosPerSecond) := by
  have hquiet : ∀ fault, fault = lostAnswer → ¬ Pends fault "nap" (60 * nanosPerSecond) := by
    rintro _ rfl
    simp [lostAnswer, pends_node]
  have hpends : Pends (pendingAfterLoss "nap" (60 * nanosPerSecond)) "nap" (60 * nanosPerSecond) := by
    simp [pendingAfterLoss, joinErrors, pends_node, pends_timerPendingError]
  exact ⟨rfl, pending_sleep_stored napWorkflow (invoked_naps 0 true (begun .empty)) (.inr ⟨hpends, hquiet⟩)⟩

end Temporaless
