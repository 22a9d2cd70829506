import Mathlib.Data.Prod.Lex
import Temporaless.Framework.KeySort
import Temporaless.Inspection.PageRequest

/-!
# The derived history of a run

`DeriveHistory` turns the timestamps of the records of one run into events, sorted by time and by
name. The documentation of the service says which timestamps each event needs; the derivation asks
for fewer of them in two places.
-/

namespace Temporaless.Inspection

open KeySort

variable {attempts : List ActivityAttempt}

/-- The records of one run. Claims mean something only where they were inspected. -/
structure RunRecords where
  workflow : Option WorkflowRecord
  activities : List ActivityRecord
  timers : List TimerRecord
  events : List EventRecord
  claims : List ClaimRecord
  claimsInspected : Bool

inductive RunHistoryEventKind where
  | workflowStarted | workflowCompleted | workflowFailed
  | activityAttemptSucceeded | activityAttemptFailed | activityAttemptOpen
  | activityRetryBackoff | activityCompleted | activityFailed
  | timerScheduled | timerFired | eventReceived | claimHeld
  deriving DecidableEq, Repr

structure RunHistoryEvent where
  eventId : String
  kind : RunHistoryEventKind
  time : Timestamp
  untilTime : Option Timestamp := none
  resourceId : String := ""
  attempt : Nat := 0
  failure : Option ActivityFailure := none
  timerKind : TimerKind := .unspecified
  deriving DecidableEq, Repr

def activityId (activity : ActivityRecord) : String := (itemKeyFromProto activity.key).id

def timerId (timer : TimerRecord) : String := (itemKeyFromProto timer.key).id

def eventId (event : EventRecord) : String := (itemKeyFromProto event.key).id

def claimId (claim : ClaimRecord) : String := (itemKeyFromProto claim.key).id

/-- `add`: an event without a time is dropped. -/
def timed (time : Option Timestamp) (event : Timestamp → RunHistoryEvent) : List RunHistoryEvent :=
  (time.map event).toList

@[simp] theorem mem_timed {time : Option Timestamp} {make : Timestamp → RunHistoryEvent}
    {event : RunHistoryEvent} : event ∈ timed time make ↔ ∃ t, time = some t ∧ make t = event := by
  simp [timed]

def workflowStartedEvent (time : Timestamp) : RunHistoryEvent :=
  { eventId := "workflow/started", kind := .workflowStarted, time := time }

def workflowCompletedEvent (time : Timestamp) : RunHistoryEvent :=
  { eventId := "workflow/completed", kind := .workflowCompleted, time := time }

def workflowFailedEvent (workflow : WorkflowRecord) (time : Timestamp) : RunHistoryEvent :=
  { eventId := "workflow/failed", kind := .workflowFailed, time := time, failure := workflow.failure }

def workflowEndedEvents (workflow : WorkflowRecord) : List RunHistoryEvent :=
  match workflow.status with
  | .completed => timed workflow.completedAt workflowCompletedEvent
  | .failed => timed workflow.completedAt (workflowFailedEvent workflow)
  | .unspecified | .inProgress => []

def workflowEvents (workflow : WorkflowRecord) : List RunHistoryEvent :=
  timed workflow.createdAt workflowStartedEvent ++ workflowEndedEvents workflow

def attemptKind (attempt : ActivityAttempt) : RunHistoryEventKind :=
  if attempt.completedAt.isNone then .activityAttemptOpen
  else if attempt.failure.isSome then .activityAttemptFailed
  else .activityAttemptSucceeded

def attemptEvent (id : String) (attempt : ActivityAttempt) (time : Timestamp) : RunHistoryEvent :=
  { eventId := "activity/" ++ id ++ "/attempt/" ++ attempt.attempt.repr
    kind := attemptKind attempt, time := time, untilTime := attempt.completedAt
    resourceId := id, attempt := attempt.attempt, failure := attempt.failure }

/-- The loop variable `lastAttemptEnd` after the loop over the attempts. -/
def lastAttemptEnd (attempts : List ActivityAttempt) : Option Timestamp :=
  attempts.foldl (fun last attempt => attempt.completedAt <|> last) none

def retryBackoffEvent (activity : ActivityRecord) (time next : Timestamp) : RunHistoryEvent :=
  { eventId := "activity/" ++ activityId activity ++ "/retry-backoff/" ++ activity.attempts.length.repr
    kind := .activityRetryBackoff, time := time, untilTime := some next
    resourceId := activityId activity, attempt := activity.attempts.length % 2 ^ 32 }

def activityCompletedEvent (activity : ActivityRecord) (time : Timestamp) : RunHistoryEvent :=
  { eventId := "activity/" ++ activityId activity ++ "/completed", kind := .activityCompleted
    time := time, resourceId := activityId activity }

def activityFailedEvent (activity : ActivityRecord) (time : Timestamp) : RunHistoryEvent :=
  { eventId := "activity/" ++ activityId activity ++ "/failed", kind := .activityFailed
    time := time, resourceId := activityId activity, failure := activity.failure }

def activityStatusEvents (activity : ActivityRecord) : List RunHistoryEvent :=
  match activity.status with
  | .retrying =>
    match activity.nextAttemptAt with
    | none => []
    | some next => timed (lastAttemptEnd activity.attempts) fun time => retryBackoffEvent activity time next
  | .completed => timed activity.completedAt (activityCompletedEvent activity)
  | .failed => timed activity.completedAt (activityFailedEvent activity)
  | .unspecified => []

def activityEvents (activity : ActivityRecord) : List RunHistoryEvent :=
  (activity.attempts.flatMap fun attempt =>
    timed attempt.startedAt (attemptEvent (activityId activity) attempt)) ++ activityStatusEvents activity

def timerScheduledEvent (timer : TimerRecord) (time fireAt : Timestamp) : RunHistoryEvent :=
  { eventId := "timer/" ++ timerId timer ++ "/scheduled", kind := .timerScheduled, time := time
    untilTime := some fireAt, resourceId := timerId timer, timerKind := timer.timerKind }

def timerFiredEvent (timer : TimerRecord) (time : Timestamp) : RunHistoryEvent :=
  { eventId := "timer/" ++ timerId timer ++ "/fired", kind := .timerFired, time := time
    resourceId := timerId timer, timerKind := timer.timerKind }

def timerScheduledEvents (timer : TimerRecord) : List RunHistoryEvent :=
  match timer.fireAt with
  | none => []
  | some fireAt => timed timer.createdAt fun time => timerScheduledEvent timer time fireAt

def timerFiredEvents (timer : TimerRecord) : List RunHistoryEvent :=
  if timer.status = .fired then timed timer.firedAt (timerFiredEvent timer) else []

def timerEvents (timer : TimerRecord) : List RunHistoryEvent :=
  timerScheduledEvents timer ++ timerFiredEvents timer

def eventReceivedEvent (event : EventRecord) (time : Timestamp) : RunHistoryEvent :=
  { eventId := "event/" ++ eventId event ++ "/received", kind := .eventReceived, time := time
    resourceId := eventId event }

def eventEvents (event : EventRecord) : List RunHistoryEvent :=
  timed event.receivedAt (eventReceivedEvent event)

def claimHeldEvent (claim : ClaimRecord) (time : Timestamp) : RunHistoryEvent :=
  { eventId := "claim/" ++ claimId claim ++ "/held", kind := .claimHeld, time := time
    untilTime := claim.leaseExpiresAt, resourceId := claimId claim }

def claimEvents (claim : ClaimRecord) : List RunHistoryEvent :=
  timed claim.createdAt (claimHeldEvent claim)

def historyKey (event : RunHistoryEvent) : Int ×ₗ String := toLex (event.time.instant, event.eventId)

def unsortedHistory (records : RunRecords) : List RunHistoryEvent :=
  records.workflow.toList.flatMap workflowEvents ++ records.activities.flatMap activityEvents ++
    records.timers.flatMap timerEvents ++ records.events.flatMap eventEvents ++
    if records.claimsInspected then records.claims.flatMap claimEvents else []

def deriveHistory (records : RunRecords) : List RunHistoryEvent :=
  sortedBy historyKey (unsortedHistory records)

inductive Source where
  | workflow
  | activity (id : String)
  | timer (id : String)
  | event (id : String)
  | claim (id : String)
  deriving DecidableEq, Repr

inductive Happening where
  | started | completed | failed
  | attempt (number : Nat)
  | retryBackoff (attempts : Nat)
  | scheduled | fired | received | held
  deriving DecidableEq, Repr

structure Fact where
  source : Source
  happening : Happening
  deriving DecidableEq, Repr

def Source.text : Source → String
  | workflow => "workflow"
  | activity id => "activity/" ++ id
  | timer id => "timer/" ++ id
  | event id => "event/" ++ id
  | claim id => "claim/" ++ id

theorem Source.text_injective : Function.Injective Source.text := by
  intro source source' htext
  have hlist := congrArg String.toList htext
  cases source <;> cases source' <;> simp [Source.text] at hlist ⊢
  all_goals exact String.toList_injective hlist

namespace Happening

def isNumbered : Happening → Bool
  | attempt _ | retryBackoff _ => true
  | _ => false

def lead : Happening → String
  | attempt _ => "/attempt"
  | retryBackoff _ => "/retry-backoff"
  | _ => ""

def ending : Happening → String
  | started => "started"
  | completed => "completed"
  | failed => "failed"
  | attempt number => number.repr
  | retryBackoff attempts => attempts.repr
  | scheduled => "scheduled"
  | fired => "fired"
  | received => "received"
  | held => "held"

theorem separator_not_mem_ending (happening : Happening) : '/' ∉ happening.ending.toList := by
  cases happening with
  | attempt number => exact not_mem_natText (by decide) number
  | retryBackoff attempts => exact not_mem_natText (by decide) attempts
  | _ => simp [ending]

theorem all_isDigit_ending (happening : Happening) :
    happening.ending.toList.all Char.isDigit = happening.isNumbered := by
  cases happening with
  | attempt number => exact List.all_eq_true.2 fun c => isDigit_of_mem_natText
  | retryBackoff attempts => exact List.all_eq_true.2 fun c => isDigit_of_mem_natText
  | _ => decide

/-- The last segment tells what happened, except that it does not tell an attempt from a backoff. -/
theorem eq_of_ending {happening happening' : Happening} (hending : happening.ending = happening'.ending)
    (hlead : happening.lead = happening'.lead) : happening = happening' := by
  have hnumbered := congrArg (fun text => text.toList.all Char.isDigit) hending
  simp only [all_isDigit_ending] at hnumbered
  cases happening with
  | attempt number =>
    cases happening' with
    | attempt number' => exact congrArg attempt (natText_inj hending)
    | retryBackoff attempts => simp [lead] at hlead
    | _ => simp [isNumbered] at hnumbered
  | retryBackoff attempts =>
    cases happening' with
    | attempt number => simp [lead] at hlead
    | retryBackoff attempts' => exact congrArg retryBackoff (natText_inj hending)
    | _ => simp [isNumbered] at hnumbered
  | _ => cases happening' <;> simp [isNumbered, ending] at hnumbered hending ⊢

theorem getLast_lead_injective {happening happening' : Happening}
    (hnumbered : happening.isNumbered = happening'.isNumbered) {text text' : List Char}
    (heq : text ++ happening.lead.toList = text' ++ happening'.lead.toList) :
    happening.lead = happening'.lead := by
  have hlast := congrArg List.getLast? heq
  cases happening <;> cases happening' <;> simp [isNumbered, lead] at hnumbered hlast ⊢

end Happening

namespace Fact

def name (fact : Fact) : String :=
  fact.source.text ++ fact.happening.lead ++ "/" ++ fact.happening.ending

theorem toList_name (fact : Fact) : fact.name.toList =
    (fact.source.text.toList ++ fact.happening.lead.toList) ++ '/' :: fact.happening.ending.toList := by
  simp [name]

/-- Identifiers are arbitrary texts, so a name is read from both ends: its last segments and the family
at its front leave the identifier in the middle. -/
theorem name_injective : Function.Injective name := by
  intro fact fact' hname
  have htexts := congrArg String.toList hname
  rw [toList_name, toList_name] at htexts
  obtain ⟨hstem, hendings⟩ := Separated.append_cons_inj_last
    fact.happening.separator_not_mem_ending fact'.happening.separator_not_mem_ending htexts
  have hending := String.toList_injective hendings
  have hnumbered : fact.happening.isNumbered = fact'.happening.isNumbered := by
    rw [← Happening.all_isDigit_ending, hendings, Happening.all_isDigit_ending]
  have hlead := Happening.getLast_lead_injective hnumbered hstem
  rw [hlead, List.append_left_inj] at hstem
  have hsource := Source.text_injective (String.toList_injective hstem)
  cases fact
  cases fact'
  rw [Fact.mk.injEq]
  exact ⟨hsource, Happening.eq_of_ending hending hlead⟩

end Fact

inductive Shows : Fact → RunHistoryEvent → Prop
  | workflowStarted (time) : Shows ⟨.workflow, .started⟩ (workflowStartedEvent time)
  | workflowCompleted (time) : Shows ⟨.workflow, .completed⟩ (workflowCompletedEvent time)
  | workflowFailed (workflow time) : Shows ⟨.workflow, .failed⟩ (workflowFailedEvent workflow time)
  | attempt (id attempt time) :
      Shows ⟨.activity id, .attempt attempt.attempt⟩ (attemptEvent id attempt time)
  | retryBackoff (activity time next) :
      Shows ⟨.activity (activityId activity), .retryBackoff activity.attempts.length⟩
        (retryBackoffEvent activity time next)
  | activityCompleted (activity time) :
      Shows ⟨.activity (activityId activity), .completed⟩ (activityCompletedEvent activity time)
  | activityFailed (activity time) :
      Shows ⟨.activity (activityId activity), .failed⟩ (activityFailedEvent activity time)
  | timerScheduled (timer time fireAt) :
      Shows ⟨.timer (timerId timer), .scheduled⟩ (timerScheduledEvent timer time fireAt)
  | timerFired (timer time) : Shows ⟨.timer (timerId timer), .fired⟩ (timerFiredEvent timer time)
  | eventReceived (event time) : Shows ⟨.event (eventId event), .received⟩ (eventReceivedEvent event time)
  | claimHeld (claim time) : Shows ⟨.claim (claimId claim), .held⟩ (claimHeldEvent claim time)

theorem Shows.eventId_eq {fact : Fact} {event : RunHistoryEvent} (h : Shows fact event) :
    event.eventId = fact.name := by
  apply String.toList_injective
  rw [Fact.toList_name]
  cases h <;> simp [workflowStartedEvent, workflowCompletedEvent, workflowFailedEvent, attemptEvent,
    retryBackoffEvent, activityCompletedEvent, activityFailedEvent, timerScheduledEvent, timerFiredEvent,
    eventReceivedEvent, claimHeldEvent, Source.text, Happening.lead, Happening.ending]

theorem Shows.fact_eq {fact fact' : Fact} {event event' : RunHistoryEvent} (h : Shows fact event)
    (h' : Shows fact' event') (hid : event.eventId = event'.eventId) : fact = fact' := by
  apply Fact.name_injective
  rw [← h.eventId_eq, hid, h'.eventId_eq]

/-- The events have different names and show what happened to one record, among `happenings`. -/
structure Named (source : Source) (happenings : Set Happening) (events : List RunHistoryEvent) :
    Prop where
  shows : ∀ event ∈ events, ∃ happening ∈ happenings, Shows ⟨source, happening⟩ event
  nodup : (events.map (·.eventId)).Nodup

theorem named_nil (source : Source) : Named source ∅ [] := ⟨by simp, by simp⟩

theorem Named.mono {source : Source} {happenings happenings' : Set Happening}
    {events : List RunHistoryEvent} (h : Named source happenings events)
    (hsubset : happenings ⊆ happenings') : Named source happenings' events := by
  constructor
  · intro event hmem
    obtain ⟨happening, hin, hshows⟩ := h.shows event hmem
    exact ⟨happening, hsubset hin, hshows⟩
  · exact h.nodup

theorem named_timed {source : Source} {happening : Happening} {make : Timestamp → RunHistoryEvent}
    (hshows : ∀ time, Shows ⟨source, happening⟩ (make time)) (time : Option Timestamp) :
    Named source {happening} (timed time make) := by
  constructor
  · intro event hmem
    obtain ⟨t, -, rfl⟩ := mem_timed.1 hmem
    exact ⟨happening, rfl, hshows t⟩
  · cases time <;> simp [timed]

theorem Named.append {source : Source} {happenings happenings' : Set Happening}
    {events events' : List RunHistoryEvent} (h : Named source happenings events)
    (h' : Named source happenings' events')
    (hdisjoint : ∀ happening ∈ happenings, happening ∉ happenings') :
    Named source (happenings ∪ happenings') (events ++ events') := by
  constructor
  · intro event hmem
    rcases List.mem_append.1 hmem with hleft | hright
    · exact (h.mono Set.subset_union_left).shows event hleft
    · exact (h'.mono Set.subset_union_right).shows event hright
  · rw [List.map_append, List.nodup_append]
    refine ⟨h.nodup, h'.nodup, ?_⟩
    rintro _ hid _ hid' rfl
    obtain ⟨event, hmem, rfl⟩ := List.mem_map.1 hid
    obtain ⟨event', hmem', hsame⟩ := List.mem_map.1 hid'
    obtain ⟨happening, hin, hshows⟩ := h.shows event hmem
    obtain ⟨happening', hin', hshows'⟩ := h'.shows event' hmem'
    have hhappening : happening = happening' :=
      congrArg Fact.happening (hshows.fact_eq hshows' hsame.symm)
    rw [← hhappening] at hin'
    exact hdisjoint happening hin hin'

theorem named_workflowEvents (workflow : WorkflowRecord) :
    Named .workflow Set.univ (workflowEvents workflow) := by
  have hended : Named .workflow {.completed, .failed} (workflowEndedEvents workflow) := by
    unfold workflowEndedEvents
    cases workflow.status with
    | completed => exact (named_timed Shows.workflowCompleted _).mono (by simp)
    | failed => exact (named_timed (Shows.workflowFailed workflow) _).mono (by simp)
    | _ => exact (named_nil _).mono (Set.empty_subset _)
  apply ((named_timed Shows.workflowStarted workflow.createdAt).append hended _).mono (Set.subset_univ _)
  simp

theorem named_activityStatusEvents (activity : ActivityRecord) :
    Named (.activity (activityId activity)) {happening | ∀ number, happening ≠ .attempt number}
      (activityStatusEvents activity) := by
  unfold activityStatusEvents
  cases activity.status with
  | retrying =>
    cases activity.nextAttemptAt with
    | none => exact (named_nil _).mono (Set.empty_subset _)
    | some next =>
      exact (named_timed (Shows.retryBackoff activity · next) _).mono (by simp)
  | completed => exact (named_timed (Shows.activityCompleted activity) _).mono (by simp)
  | failed => exact (named_timed (Shows.activityFailed activity) _).mono (by simp)
  | unspecified => exact (named_nil _).mono (Set.empty_subset _)

theorem named_attemptEvents (id : String) (hnumbers : (attempts.map (·.attempt)).Nodup) :
    Named (.activity id) {happening | ∃ attempt ∈ attempts, happening = .attempt attempt.attempt}
      (attempts.flatMap fun attempt => timed attempt.startedAt (attemptEvent id attempt)) := by
  induction attempts with
  | nil => exact (named_nil _).mono (Set.empty_subset _)
  | cons attempt attempts ih =>
    rw [List.map_cons, List.nodup_cons] at hnumbers
    rw [List.flatMap_cons]
    apply ((named_timed (Shows.attempt id attempt) attempt.startedAt).append (ih hnumbers.2) _).mono
    · rintro happening (rfl | ⟨attempt', hmem, rfl⟩)
      · exact ⟨attempt, List.mem_cons_self, rfl⟩
      · exact ⟨attempt', List.mem_cons_of_mem _ hmem, rfl⟩
    · rintro _ rfl ⟨attempt', hmem, hsame⟩
      apply hnumbers.1
      rw [Happening.attempt.inj hsame]
      exact List.mem_map_of_mem hmem

theorem named_activityEvents {activity : ActivityRecord}
    (hnumbers : (activity.attempts.map (·.attempt)).Nodup) :
    Named (.activity (activityId activity)) Set.univ (activityEvents activity) := by
  apply ((named_attemptEvents _ hnumbers).append (named_activityStatusEvents activity) _).mono
    (Set.subset_univ _)
  rintro happening ⟨attempt, -, rfl⟩ hother
  exact hother attempt.attempt rfl

theorem named_timerEvents (timer : TimerRecord) :
    Named (.timer (timerId timer)) Set.univ (timerEvents timer) := by
  have hscheduled : Named (.timer (timerId timer)) {.scheduled} (timerScheduledEvents timer) := by
    unfold timerScheduledEvents
    cases timer.fireAt with
    | none => exact (named_nil _).mono (Set.empty_subset _)
    | some fireAt => exact named_timed (Shows.timerScheduled timer · fireAt) _
  have hfired : Named (.timer (timerId timer)) {.fired} (timerFiredEvents timer) := by
    unfold timerFiredEvents
    split
    · exact named_timed (Shows.timerFired timer) _
    · exact (named_nil _).mono (Set.empty_subset _)
  exact (hscheduled.append hfired (by simp)).mono (Set.subset_univ _)

def parts (records : RunRecords) : List (Source × List RunHistoryEvent) :=
  records.workflow.toList.map (fun workflow => (Source.workflow, workflowEvents workflow)) ++
    records.activities.map (fun activity => (Source.activity (activityId activity), activityEvents activity)) ++
    records.timers.map (fun timer => (Source.timer (timerId timer), timerEvents timer)) ++
    records.events.map (fun event => (Source.event (eventId event), eventEvents event)) ++
    if records.claimsInspected then
      records.claims.map fun claim => (Source.claim (claimId claim), claimEvents claim)
    else []

theorem unsortedHistory_eq (records : RunRecords) :
    unsortedHistory records = (parts records).flatMap (·.2) := by
  cases hinspected : records.claimsInspected <;>
    simp [unsortedHistory, parts, hinspected, List.flatMap_append, List.flatMap_map]

/-- The records of one run: identifiers are distinct and attempts are numbered from one. -/
structure RunRecords.Distinct (records : RunRecords) : Prop where
  activities : (records.activities.map activityId).Nodup
  timers : (records.timers.map timerId).Nodup
  events : (records.events.map eventId).Nodup
  claims : (records.claims.map claimId).Nodup
  attempts : ∀ activity ∈ records.activities,
    activity.attempts.map (·.attempt) = List.range' 1 activity.attempts.length

variable {records : RunRecords}

theorem named_parts (hdistinct : records.Distinct) :
    ∀ part ∈ parts records, Named part.1 Set.univ part.2 := by
  simp only [parts, List.mem_append, List.mem_map]
  rintro part ((((⟨workflow, -, rfl⟩ | ⟨activity, hmem, rfl⟩) | ⟨timer, -, rfl⟩) | ⟨event, -, rfl⟩) | hclaim)
  · exact named_workflowEvents workflow
  · apply named_activityEvents
    rw [hdistinct.attempts activity hmem]
    exact List.nodup_range'
  · exact named_timerEvents timer
  · exact (named_timed (Shows.eventReceived event) _).mono (Set.subset_univ _)
  · split at hclaim
    · obtain ⟨claim, -, rfl⟩ := List.mem_map.1 hclaim
      exact (named_timed (Shows.claimHeld claim) _).mono (Set.subset_univ _)
    · exact absurd hclaim List.not_mem_nil

theorem nodup_sources (hdistinct : records.Distinct) : ((parts records).map (·.1)).Nodup := by
  have hworkflow : (records.workflow.toList.map fun _ => Source.workflow).Nodup := by
    cases records.workflow <;> simp
  have hactivities := hdistinct.activities.map fun _ _ => Source.activity.inj
  have htimers := hdistinct.timers.map fun _ _ => Source.timer.inj
  have hevents := hdistinct.events.map fun _ _ => Source.event.inj
  have hclaims := hdistinct.claims.map fun _ _ => Source.claim.inj
  simp only [List.map_map, Function.comp_def] at hactivities htimers hevents hclaims
  have hwithout : (records.workflow.toList.map (fun _ => Source.workflow) ++
      records.activities.map (fun activity => Source.activity (activityId activity)) ++
      records.timers.map (fun timer => Source.timer (timerId timer)) ++
      records.events.map fun event => Source.event (eventId event)).Nodup := by
    refine ((hworkflow.append hactivities ?_).append htimers ?_).append hevents ?_ <;>
      simp [List.disjoint_left, or_imp, forall_and]
  simp only [parts, List.map_append, List.map_map, Function.comp_def]
  split
  · rw [List.map_map]
    refine hwithout.append hclaims ?_
    simp [List.disjoint_left, or_imp, forall_and]
  · rw [List.map_nil, List.append_nil]
    exact hwithout

theorem nodup_eventId_unsortedHistory (hdistinct : records.Distinct) :
    ((unsortedHistory records).map (·.eventId)).Nodup := by
  rw [unsortedHistory_eq, List.map_flatMap, List.Nodup, List.pairwise_flatMap]
  constructor
  · intro part hpart
    exact (named_parts hdistinct part hpart).nodup
  · apply (List.pairwise_map.1 (nodup_sources hdistinct)).imp_of_mem
    intro part part' hpart hpart' hsource _ hid _ hid' hsame
    obtain ⟨event, hmem, rfl⟩ := List.mem_map.1 hid
    obtain ⟨event', hmem', rfl⟩ := List.mem_map.1 hid'
    obtain ⟨_, -, hshows⟩ := (named_parts hdistinct part hpart).shows event hmem
    obtain ⟨_, -, hshows'⟩ := (named_parts hdistinct part' hpart').shows event' hmem'
    exact hsource (congrArg Fact.source (hshows.fact_eq hshows' hsame))

/-- The table of the documentation: the timestamps that every event needs. -/
inductive Documented (records : RunRecords) : Fact → RunHistoryEvent → Prop
  | workflowStarted {workflow time} (hworkflow : records.workflow = some workflow)
      (htime : workflow.createdAt = some time) :
      Documented records ⟨.workflow, .started⟩ (workflowStartedEvent time)
  | workflowCompleted {workflow time} (hworkflow : records.workflow = some workflow)
      (hstatus : workflow.status = .completed) (htime : workflow.completedAt = some time) :
      Documented records ⟨.workflow, .completed⟩ (workflowCompletedEvent time)
  | workflowFailed {workflow time} (hworkflow : records.workflow = some workflow)
      (hstatus : workflow.status = .failed) (htime : workflow.completedAt = some time) :
      Documented records ⟨.workflow, .failed⟩ (workflowFailedEvent workflow time)
  | attempt {activity attempt time} (hactivity : activity ∈ records.activities)
      (hattempt : attempt ∈ activity.attempts) (htime : attempt.startedAt = some time) :
      Documented records ⟨.activity (activityId activity), .attempt attempt.attempt⟩
        (attemptEvent (activityId activity) attempt time)
  /-- The backoff begins where the last attempt ended. -/
  | retryBackoff {activity last time next} (hactivity : activity ∈ records.activities)
      (hstatus : activity.status = .retrying) (hnext : activity.nextAttemptAt = some next)
      (hlast : activity.attempts.getLast? = some last) (htime : last.completedAt = some time) :
      Documented records ⟨.activity (activityId activity), .retryBackoff activity.attempts.length⟩
        (retryBackoffEvent activity time next)
  | activityCompleted {activity time} (hactivity : activity ∈ records.activities)
      (hstatus : activity.status = .completed) (htime : activity.completedAt = some time) :
      Documented records ⟨.activity (activityId activity), .completed⟩
        (activityCompletedEvent activity time)
  | activityFailed {activity time} (hactivity : activity ∈ records.activities)
      (hstatus : activity.status = .failed) (htime : activity.completedAt = some time) :
      Documented records ⟨.activity (activityId activity), .failed⟩ (activityFailedEvent activity time)
  | timerScheduled {timer time fireAt} (htimer : timer ∈ records.timers)
      (htime : timer.createdAt = some time) (hfire : timer.fireAt = some fireAt) :
      Documented records ⟨.timer (timerId timer), .scheduled⟩ (timerScheduledEvent timer time fireAt)
  | timerFired {timer time} (htimer : timer ∈ records.timers) (hstatus : timer.status = .fired)
      (htime : timer.firedAt = some time) :
      Documented records ⟨.timer (timerId timer), .fired⟩ (timerFiredEvent timer time)
  | eventReceived {event time} (hevent : event ∈ records.events)
      (htime : event.receivedAt = some time) :
      Documented records ⟨.event (eventId event), .received⟩ (eventReceivedEvent event time)
  /-- A claim is held from its creation to the end of its lease. -/
  | claimHeld {claim time lease} (hinspected : records.claimsInspected = true)
      (hclaim : claim ∈ records.claims) (htime : claim.createdAt = some time)
      (hlease : claim.leaseExpiresAt = some lease) :
      Documented records ⟨.claim (claimId claim), .held⟩ (claimHeldEvent claim time)

theorem Documented.shows {fact : Fact} {event : RunHistoryEvent} (h : Documented records fact event) :
    Shows fact event := by
  cases h <;> constructor

theorem mem_unsortedHistory {event : RunHistoryEvent} : event ∈ unsortedHistory records ↔
    (∃ workflow, records.workflow = some workflow ∧ event ∈ workflowEvents workflow) ∨
    (∃ activity ∈ records.activities, event ∈ activityEvents activity) ∨
    (∃ timer ∈ records.timers, event ∈ timerEvents timer) ∨
    (∃ record ∈ records.events, event ∈ eventEvents record) ∨
    records.claimsInspected = true ∧ ∃ claim ∈ records.claims, event ∈ claimEvents claim := by
  cases hinspected : records.claimsInspected <;> simp [unsortedHistory, hinspected]

theorem lastAttemptEnd_concat (attempts : List ActivityAttempt) (attempt : ActivityAttempt) :
    lastAttemptEnd (attempts ++ [attempt]) = (attempt.completedAt <|> lastAttemptEnd attempts) := by
  simp [lastAttemptEnd]

theorem lastAttemptEnd_of_getLast {last : ActivityAttempt}
    {time : Timestamp} (hlast : attempts.getLast? = some last) (htime : last.completedAt = some time) :
    lastAttemptEnd attempts = some time := by
  obtain ⟨earlier, rfl⟩ := List.getLast?_eq_some_iff.1 hlast
  rw [lastAttemptEnd_concat, htime]
  rfl

theorem isSome_lastAttemptEnd :
    (lastAttemptEnd attempts).isSome ↔ ∃ attempt ∈ attempts, attempt.completedAt.isSome := by
  induction attempts using List.reverseRecOn with
  | nil => simp [lastAttemptEnd]
  | append_singleton attempts attempt ih =>
    rw [lastAttemptEnd_concat]
    cases hend : attempt.completedAt <;> simp [hend, ih]

theorem Documented.mem_unsortedHistory {fact : Fact} {event : RunHistoryEvent}
    (h : Documented records fact event) : event ∈ unsortedHistory records := by
  rw [Inspection.mem_unsortedHistory]
  cases h with
  | workflowStarted hworkflow htime => exact .inl ⟨_, hworkflow, by simp [workflowEvents, htime]⟩
  | workflowCompleted hworkflow hstatus htime =>
    exact .inl ⟨_, hworkflow, by simp [workflowEvents, workflowEndedEvents, hstatus, htime]⟩
  | workflowFailed hworkflow hstatus htime =>
    exact .inl ⟨_, hworkflow, by simp [workflowEvents, workflowEndedEvents, hstatus, htime]⟩
  | attempt hactivity hattempt htime =>
    refine .inr (.inl ⟨_, hactivity, List.mem_append_left _ ?_⟩)
    exact List.mem_flatMap.2 ⟨_, hattempt, mem_timed.2 ⟨_, htime, rfl⟩⟩
  | retryBackoff hactivity hstatus hnext hlast htime =>
    refine .inr (.inl ⟨_, hactivity, List.mem_append_right _ ?_⟩)
    simp [activityStatusEvents, hstatus, hnext, lastAttemptEnd_of_getLast hlast htime]
  | activityCompleted hactivity hstatus htime =>
    refine .inr (.inl ⟨_, hactivity, List.mem_append_right _ ?_⟩)
    simp [activityStatusEvents, hstatus, htime]
  | activityFailed hactivity hstatus htime =>
    refine .inr (.inl ⟨_, hactivity, List.mem_append_right _ ?_⟩)
    simp [activityStatusEvents, hstatus, htime]
  | timerScheduled htimer htime hfire =>
    exact .inr (.inr (.inl ⟨_, htimer, by simp [timerEvents, timerScheduledEvents, htime, hfire]⟩))
  | timerFired htimer hstatus htime =>
    exact .inr (.inr (.inl ⟨_, htimer, by simp [timerEvents, timerFiredEvents, hstatus, htime]⟩))
  | eventReceived hevent htime =>
    exact .inr (.inr (.inr (.inl ⟨_, hevent, by simp [eventEvents, htime]⟩)))
  | claimHeld hinspected hclaim htime =>
    exact .inr (.inr (.inr (.inr ⟨hinspected, _, hclaim, by simp [claimEvents, htime]⟩)))

theorem Documented.unique (hdistinct : records.Distinct) {fact : Fact} {event event' : RunHistoryEvent}
    (h : Documented records fact event) (h' : Documented records fact event') : event = event' := by
  apply List.inj_on_of_nodup_map (nodup_eventId_unsortedHistory hdistinct) h.mem_unsortedHistory
    h'.mem_unsortedHistory
  rw [h.shows.eventId_eq, h'.shows.eventId_eq]

/-- The records on which the derivation asks for the timestamps that the documentation names. -/
structure RunRecords.Evidenced (records : RunRecords) : Prop where
  backoffs : ∀ activity ∈ records.activities, activity.status = .retrying →
    activity.nextAttemptAt.isSome → (∃ attempt ∈ activity.attempts, attempt.completedAt.isSome) →
    ∃ last, activity.attempts.getLast? = some last ∧ last.completedAt.isSome
  leases : records.claimsInspected = true → ∀ claim ∈ records.claims, claim.createdAt.isSome →
    claim.leaseExpiresAt.isSome

theorem exists_documented_workflow {workflow : WorkflowRecord} {event : RunHistoryEvent}
    (hworkflow : records.workflow = some workflow) (hmem : event ∈ workflowEvents workflow) :
    ∃ fact, Documented records fact event := by
  rw [workflowEvents, List.mem_append, mem_timed] at hmem
  rcases hmem with ⟨time, htime, rfl⟩ | hended
  · exact ⟨_, .workflowStarted hworkflow htime⟩
  · unfold workflowEndedEvents at hended
    cases hstatus : workflow.status with
    | completed =>
      simp only [hstatus, mem_timed] at hended
      obtain ⟨time, htime, rfl⟩ := hended
      exact ⟨_, .workflowCompleted hworkflow hstatus htime⟩
    | failed =>
      simp only [hstatus, mem_timed] at hended
      obtain ⟨time, htime, rfl⟩ := hended
      exact ⟨_, .workflowFailed hworkflow hstatus htime⟩
    | _ => simp [hstatus] at hended

theorem exists_documented_activity (hevidenced : records.Evidenced) {activity : ActivityRecord}
    {event : RunHistoryEvent} (hactivity : activity ∈ records.activities)
    (hmem : event ∈ activityEvents activity) : ∃ fact, Documented records fact event := by
  rw [activityEvents, List.mem_append, List.mem_flatMap] at hmem
  rcases hmem with ⟨attempt, hattempt, htimed⟩ | hended
  · obtain ⟨time, htime, rfl⟩ := mem_timed.1 htimed
    exact ⟨_, .attempt hactivity hattempt htime⟩
  · unfold activityStatusEvents at hended
    cases hstatus : activity.status with
    | retrying =>
      cases hnext : activity.nextAttemptAt with
      | none => simp [hstatus, hnext] at hended
      | some next =>
        simp only [hstatus, hnext, mem_timed] at hended
        obtain ⟨time, htime, rfl⟩ := hended
        obtain ⟨last, hlast, hsome⟩ := hevidenced.backoffs activity hactivity hstatus (by simp [hnext])
          (isSome_lastAttemptEnd.1 (by simp [htime]))
        obtain ⟨time', htime'⟩ := Option.isSome_iff_exists.1 hsome
        rw [lastAttemptEnd_of_getLast hlast htime', Option.some_inj] at htime
        subst htime
        exact ⟨_, .retryBackoff hactivity hstatus hnext hlast htime'⟩
    | completed =>
      simp only [hstatus, mem_timed] at hended
      obtain ⟨time, htime, rfl⟩ := hended
      exact ⟨_, .activityCompleted hactivity hstatus htime⟩
    | failed =>
      simp only [hstatus, mem_timed] at hended
      obtain ⟨time, htime, rfl⟩ := hended
      exact ⟨_, .activityFailed hactivity hstatus htime⟩
    | unspecified => simp [hstatus] at hended

theorem exists_documented_timer {timer : TimerRecord} {event : RunHistoryEvent}
    (htimer : timer ∈ records.timers) (hmem : event ∈ timerEvents timer) :
    ∃ fact, Documented records fact event := by
  rw [timerEvents, List.mem_append] at hmem
  rcases hmem with hscheduled | hfired
  · unfold timerScheduledEvents at hscheduled
    cases hfire : timer.fireAt with
    | none => simp [hfire] at hscheduled
    | some fireAt =>
      simp only [hfire, mem_timed] at hscheduled
      obtain ⟨time, htime, rfl⟩ := hscheduled
      exact ⟨_, .timerScheduled htimer htime hfire⟩
  · unfold timerFiredEvents at hfired
    split at hfired
    case isTrue hstatus =>
      obtain ⟨time, htime, rfl⟩ := mem_timed.1 hfired
      exact ⟨_, .timerFired htimer hstatus htime⟩
    case isFalse => exact absurd hfired List.not_mem_nil

theorem exists_documented (hevidenced : records.Evidenced) {event : RunHistoryEvent}
    (hmem : event ∈ unsortedHistory records) : ∃ fact, Documented records fact event := by
  rw [mem_unsortedHistory] at hmem
  rcases hmem with ⟨workflow, hworkflow, hmem⟩ | ⟨activity, hactivity, hmem⟩ | ⟨timer, htimer, hmem⟩ |
    ⟨record, hrecord, hmem⟩ | ⟨hinspected, claim, hclaim, hmem⟩
  · exact exists_documented_workflow hworkflow hmem
  · exact exists_documented_activity hevidenced hactivity hmem
  · exact exists_documented_timer htimer hmem
  · obtain ⟨time, htime, rfl⟩ := mem_timed.1 hmem
    exact ⟨_, .eventReceived hrecord htime⟩
  · obtain ⟨time, htime, rfl⟩ := mem_timed.1 hmem
    have hlease := hevidenced.leases hinspected claim hclaim (by simp [htime])
    obtain ⟨lease, hlease⟩ := Option.isSome_iff_exists.1 hlease
    exact ⟨_, .claimHeld hinspected hclaim htime hlease⟩

structure RunRecords.Rearranges (records' records : RunRecords) : Prop where
  workflow : records'.workflow = records.workflow
  activities : records'.activities.Perm records.activities
  timers : records'.timers.Perm records.timers
  events : records'.events.Perm records.events
  claims : records'.claims.Perm records.claims
  claimsInspected : records'.claimsInspected = records.claimsInspected

theorem RunRecords.Rearranges.unsortedHistory_perm {records' : RunRecords}
    (h : records'.Rearranges records) : (unsortedHistory records').Perm (unsortedHistory records) := by
  unfold unsortedHistory
  rw [h.workflow, h.claimsInspected]
  apply List.Perm.append
  · exact (((List.Perm.refl _).append (h.activities.flatMap_right _)).append
      (h.timers.flatMap_right _)).append (h.events.flatMap_right _)
  · split
    · exact h.claims.flatMap_right _
    · rfl

/-- Each documented fact is one event, in an order the order of the records cannot change. -/
structure Canonical (records : RunRecords) : Prop where
  distinct : ((deriveHistory records).map (·.eventId)).Nodup
  sorted : (deriveHistory records).Pairwise fun event event' =>
    event.time.instant < event'.time.instant ∨
      event.time.instant = event'.time.instant ∧ event.eventId < event'.eventId
  exact : ∀ event, event ∈ deriveHistory records ↔ ∃ fact, Documented records fact event
  oneEvent : ∀ fact event event', Documented records fact event → Documented records fact event' →
    event = event'
  oneFact : ∀ fact fact' event, Documented records fact event → Documented records fact' event →
    fact = fact'
  stable : ∀ records' : RunRecords, records'.Rearranges records →
    deriveHistory records' = deriveHistory records

theorem nodup_historyKey (hdistinct : records.Distinct) :
    ((unsortedHistory records).map historyKey).Nodup := by
  apply List.Nodup.of_map fun key : Int ×ₗ String => (ofLex key).2
  rw [List.map_map]
  exact nodup_eventId_unsortedHistory hdistinct

theorem canonical_of_evidenced (hdistinct : records.Distinct) (hevidenced : records.Evidenced) :
    Canonical records where
  distinct := (sortedBy_perm.map _).nodup_iff.2 (nodup_eventId_unsortedHistory hdistinct)
  sorted := by
    apply (rising_sortedBy (nodup_historyKey hdistinct)).imp
    intro event event' hlt
    exact Prod.Lex.toLex_lt_toLex.1 hlt
  exact := by
    intro event
    rw [deriveHistory, mem_sortedBy]
    constructor
    · exact exists_documented hevidenced
    · rintro ⟨fact, h⟩
      exact h.mem_unsortedHistory
  oneEvent := fun _ _ _ h h' => h.unique hdistinct h'
  oneFact := fun _ _ _ h h' => h.shows.fact_eq h'.shows rfl
  stable := fun _ h => sortedBy_eq_of_perm (nodup_historyKey hdistinct) h.unsortedHistory_perm

theorem Documented.getLast_of_retryBackoff {id : String} {attempts : Nat} {event : RunHistoryEvent}
    (h : Documented records ⟨.activity id, .retryBackoff attempts⟩ event) :
    ∃ activity ∈ records.activities, activityId activity = id ∧
      ∃ last, activity.attempts.getLast? = some last ∧ last.completedAt.isSome := by
  cases h with
  | retryBackoff hactivity hstatus hnext hlast htime =>
    exact ⟨_, hactivity, rfl, _, hlast, by simp [htime]⟩

theorem Documented.lease_of_claimHeld {id : String} {event : RunHistoryEvent}
    (h : Documented records ⟨.claim id, .held⟩ event) :
    ∃ claim ∈ records.claims, claimId claim = id ∧ claim.leaseExpiresAt.isSome := by
  cases h with
  | claimHeld hinspected hclaim htime hlease => exact ⟨_, hclaim, rfl, by simp [hlease]⟩

theorem Canonical.documented (h : Canonical records) {fact : Fact} {event : RunHistoryEvent}
    (hshows : Shows fact event) (hmem : event ∈ unsortedHistory records) :
    Documented records fact event := by
  obtain ⟨fact', hdocumented⟩ := (h.exact event).1 (mem_sortedBy.2 hmem)
  rw [hshows.fact_eq hdocumented.shows rfl]
  exact hdocumented

theorem evidenced_of_canonical (hdistinct : records.Distinct) (h : Canonical records) :
    records.Evidenced where
  backoffs := by
    intro activity hactivity hstatus hnext hended
    obtain ⟨next, hnext⟩ := Option.isSome_iff_exists.1 hnext
    obtain ⟨time, htime⟩ := Option.isSome_iff_exists.1 (isSome_lastAttemptEnd.2 hended)
    have hmem : retryBackoffEvent activity time next ∈ unsortedHistory records := by
      rw [mem_unsortedHistory]
      refine .inr (.inl ⟨activity, hactivity, List.mem_append_right _ ?_⟩)
      simp [activityStatusEvents, hstatus, hnext, htime]
    obtain ⟨activity', hactivity', hid, hlast⟩ :=
      (h.documented (.retryBackoff activity time next) hmem).getLast_of_retryBackoff
    rwa [List.inj_on_of_nodup_map hdistinct.activities hactivity' hactivity hid] at hlast
  leases := by
    intro hinspected claim hclaim hcreated
    obtain ⟨time, htime⟩ := Option.isSome_iff_exists.1 hcreated
    have hmem : claimHeldEvent claim time ∈ unsortedHistory records := by
      rw [mem_unsortedHistory]
      exact .inr (.inr (.inr (.inr ⟨hinspected, claim, hclaim, mem_timed.2 ⟨time, htime, rfl⟩⟩)))
    obtain ⟨claim', hclaim', hid, hlease⟩ :=
      (h.documented (.claimHeld claim time) hmem).lease_of_claimHeld
    rwa [List.inj_on_of_nodup_map hdistinct.claims hclaim' hclaim hid] at hlease

/-- The history is canonical exactly for records with the timestamps that the documentation names. -/
theorem deriveHistory_canonical_iff (hdistinct : records.Distinct) :
    Canonical records ↔ records.Evidenced :=
  ⟨evidenced_of_canonical hdistinct, canonical_of_evidenced hdistinct⟩

def retriedCharge (attempts : List ActivityAttempt) : ActivityRecord :=
  { schemaVersion := .activity, key := some ⟨"default", "orders", "run-1", "charge"⟩
    activityType := "Charge", input := none, status := .retrying, result := none, failure := none
    createdAt := some ⟨100, 0⟩, completedAt := none, attempts := attempts, annotations := []
    nextAttemptAt := some ⟨500, 0⟩, retryPolicy := none, retryTimerId := "retry" }

def retriedRun (attempts : List ActivityAttempt) : RunRecords :=
  { workflow := none, activities := [retriedCharge attempts], timers := [], events := [], claims := []
    claimsInspected := false }

theorem retriedRun_distinct (hnumbers : attempts.map (·.attempt) = List.range' 1 attempts.length) :
    (retriedRun attempts).Distinct where
  activities := by simp [retriedRun]
  timers := by simp [retriedRun]
  events := by simp [retriedRun]
  claims := by simp [retriedRun]
  attempts := by simpa [retriedRun, retriedCharge] using hnumbers

def bellTimer (id : String) (firedAt : Option Timestamp) : TimerRecord :=
  { schemaVersion := .timer, key := some ⟨"default", "orders", "run-1", id⟩, timerKind := .sleep
    duration := some ⟨60, 0⟩, status := if firedAt.isSome then .fired else .scheduled
    fireAt := some ⟨180, 0⟩, createdAt := some ⟨120, 0⟩, firedAt := firedAt, retryActivityId := "" }

def finishedAttempts : List ActivityAttempt :=
  [⟨1, some ⟨100, 0⟩, some ⟨110, 0⟩, none⟩, ⟨2, some ⟨200, 0⟩, some ⟨210, 0⟩, none⟩]

/-- The run with a timer that has fired and one that has not, a received event and a claim. -/
def busyRun : RunRecords :=
  { retriedRun finishedAttempts with
    timers := [bellTimer "nap" (some ⟨190, 0⟩), bellTimer "bell" none]
    events := [{ schemaVersion := .event, key := some ⟨"default", "orders", "run-1", "paid"⟩
                 payload := none, receivedAt := some ⟨150, 0⟩ }]
    claims := [{ schemaVersion := .claim, key := some ⟨"default", "orders", "run-1", "charge"⟩
                 ownerId := "worker", resourceType := .activity, resourceId := "charge"
                 leaseExpiresAt := some ⟨260, 0⟩, createdAt := some ⟨200, 0⟩, heartbeatAt := none }]
    claimsInspected := true }

theorem deriveHistory_canonical_retriedRun :
    busyRun.Evidenced ∧ Canonical busyRun ∧ (deriveHistory busyRun).length = 8 := by
  have hdistinct : busyRun.Distinct :=
    { (retriedRun_distinct rfl : (retriedRun finishedAttempts).Distinct) with
      timers := by decide
      events := by decide
      claims := by decide }
  have hevidenced : busyRun.Evidenced :=
    ⟨by simp [busyRun, retriedRun, retriedCharge, finishedAttempts], by simp [busyRun]⟩
  refine ⟨hevidenced, (deriveHistory_canonical_iff hdistinct).2 hevidenced, ?_⟩
  decide

/-- The second attempt never ended, so the backoff that is shown begins before it started. -/
def unfinishedAttempts : List ActivityAttempt :=
  [⟨1, some ⟨100, 0⟩, some ⟨110, 0⟩, none⟩, ⟨2, some ⟨200, 0⟩, none, none⟩]

theorem deriveHistory_unfinished_attempt :
    (retriedRun unfinishedAttempts).Distinct ∧
      retryBackoffEvent (retriedCharge unfinishedAttempts) ⟨110, 0⟩ ⟨500, 0⟩ ∈
        deriveHistory (retriedRun unfinishedAttempts) ∧
      ¬ Canonical (retriedRun unfinishedAttempts) := by
  have hdistinct : (retriedRun unfinishedAttempts).Distinct := retriedRun_distinct rfl
  refine ⟨hdistinct, ?_, ?_⟩
  · rw [deriveHistory, mem_sortedBy, mem_unsortedHistory]
    exact .inr (.inl ⟨_, List.mem_cons_self, List.mem_append_right _ (mem_timed.2 ⟨_, rfl, rfl⟩)⟩)
  · intro h
    have hbackoffs := (evidenced_of_canonical hdistinct h).backoffs
    simp [retriedRun, retriedCharge, unfinishedAttempts] at hbackoffs

end Temporaless.Inspection
