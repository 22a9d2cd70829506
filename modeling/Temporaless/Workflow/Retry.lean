import Mathlib.Data.Finset.Sort
import Temporaless.Framework.Iterate
import Temporaless.Framework.KeySort
import Temporaless.Framework.Utf8
import Temporaless.Workflow.Outcome

/-!
# Retry plans

How a retry policy is checked and turned into a plan, the normal form under which it is stored with an
activity, and the intervals between the attempts. The step from one interval to the next is a parameter
of the schedule.
-/

namespace Temporaless

open Iterate KeySort

/-- `retryPlan`. The codes that are not retried are a map of which only the keys matter. -/
structure RetryPlan where
  maxAttempts : Nat
  initialInterval : Int
  backoffCoefficient : Binary64
  maximumInterval : Int
  durableThreshold : Int
  nonRetryable : Finset String
  deriving DecidableEq

/-- `time.Duration(nextNanos)` of a value that is at most `2 ^ 63`; the conversion of `2 ^ 63` itself gives
the least `int64`. -/
def toDuration (nextNanos : Binary64) : Int :=
  let whole := nextNanos.truncate.getD 0
  if maxInt64 < whole then minInt64 else whole

def nextInterval (prev : Int) (plan : RetryPlan) : Except Err Int :=
  let nextNanos := (Binary64.ofInt prev).mul plan.backoffCoefficient
  if 0 < plan.maximumInterval && (Binary64.ofInt plan.maximumInterval).le nextNanos then
    .ok plan.maximumInterval
  else if nextNanos.isNaN || nextNanos.isInf || (Binary64.ofInt maxInt64).lt nextNanos then
    .error (errorf "retry policy produced an out-of-range backoff interval")
  else
    let next := toDuration nextNanos
    if 0 < prev && next ≤ 0 then
      .error (errorf "retry policy produced a non-positive backoff interval")
    else .ok next

section Schedule

variable (nextInterval : Int → RetryPlan → Except Err Int) (plan : RetryPlan)

/-- The loop body of `validateRetrySchedule`. -/
def scheduleStep (interval : Int) (failedAttempt : Nat) : Except Err Int :=
  if plan.maxAttempts ≤ failedAttempt + 1 then .ok interval
  else (nextInterval interval plan).mapError fun err =>
    wrapf ("retry policy interval after attempt " ++ toString (failedAttempt + 1) ++ " is invalid: ") err

/-- The counter runs from 1 to below `maxAttempts`, so that its successor is a `uint32`. -/
def validateRetrySchedule : Except Err Unit := do
  let _ ← (List.range' 1 (plan.maxAttempts - 1)).foldlM (scheduleStep nextInterval plan) plan.initialInterval

def retryIntervalAfterAttempt (attempt : Nat) : Except Err Int :=
  if attempt = 0 then .error (errorf "retry attempt ordinal must be > 0")
  else (List.range' 1 (attempt - 1)).foldlM (fun interval _ => nextInterval interval plan) plan.initialInterval

variable {nextInterval plan}

theorem retryIntervalAfterAttempt_eq_ok {k : Nat} {interval : Int} :
    retryIntervalAfterAttempt nextInterval plan (k + 1) = .ok interval ↔
      steps (nextInterval · plan) k plan.initialInterval = .ok interval := by
  have hbody : ∀ ordinal ∈ List.range' 1 k, ∀ interval next,
      (fun interval (_ : Nat) => nextInterval interval plan) interval ordinal = .ok next ↔
        nextInterval interval plan = .ok next := fun _ _ _ _ => Iff.rfl
  rw [retryIntervalAfterAttempt, if_neg (Nat.succ_ne_zero k), Nat.add_sub_cancel,
    foldlM_eq_ok_iff_steps hbody, List.length_range']

theorem validateRetrySchedule_eq_ok : validateRetrySchedule nextInterval plan = .ok () ↔
    ∃ interval, steps (nextInterval · plan) (plan.maxAttempts - 2) plan.initialInterval = .ok interval := by
  have hstep : ∀ failedAttempt ∈ List.range' 1 (plan.maxAttempts - 2), ∀ interval next,
      scheduleStep nextInterval plan interval failedAttempt = .ok next ↔
        nextInterval interval plan = .ok next := by
    intro failedAttempt hmem interval next
    have hlt : ¬ plan.maxAttempts ≤ failedAttempt + 1 := by
      rw [List.mem_range'_1] at hmem
      omega
    rw [scheduleStep, if_neg hlt, mapError_eq_ok]
  have hunit : validateRetrySchedule nextInterval plan = .ok () ↔ ∃ interval,
      (List.range' 1 (plan.maxAttempts - 1)).foldlM (scheduleStep nextInterval plan) plan.initialInterval =
        .ok interval := by
    rw [validateRetrySchedule, Loop.bind_eq_ok]
    exact exists_congr fun interval => and_iff_left rfl
  rw [hunit]
  rcases Nat.lt_or_ge plan.maxAttempts 2 with hsmall | hlarge
  · have hone : plan.maxAttempts - 1 = 0 := by omega
    have htwo : plan.maxAttempts - 2 = 0 := by omega
    rw [hone, htwo]
    exact Iff.rfl
  · have hlast : ∀ interval, scheduleStep nextInterval plan interval (plan.maxAttempts - 1) = .ok interval := by
      intro interval
      rw [scheduleStep, if_pos (by omega)]
    have hrange : List.range' 1 (plan.maxAttempts - 1) =
        List.range' 1 (plan.maxAttempts - 2) ++ [plan.maxAttempts - 1] := by
      obtain ⟨n, hn⟩ : ∃ n, plan.maxAttempts = n + 2 := ⟨plan.maxAttempts - 2, by omega⟩
      rw [hn]
      simp [List.range'_concat, Nat.add_comm]
    rw [hrange]
    simp only [List.foldlM_append, List.foldlM_cons, List.foldlM_nil, bind_pure, Loop.bind_eq_ok, hlast,
      foldlM_eq_ok_iff_steps hstep, List.length_range', Except.ok.injEq, exists_eq_right]

/-- The schedule check takes the steps that the runtime asks for, and no others. -/
theorem validateRetrySchedule_covers (nextInterval : Int → RetryPlan → Except Err Int)
    (plan : RetryPlan) :
    (validateRetrySchedule nextInterval plan = .ok () → ∀ k, 1 ≤ k → k < plan.maxAttempts →
      ∃ interval, retryIntervalAfterAttempt nextInterval plan k = .ok interval ∧
        (k + 1 < plan.maxAttempts → ∃ next, nextInterval interval plan = .ok next ∧
          retryIntervalAfterAttempt nextInterval plan (k + 1) = .ok next)) ∧
    (∀ err, validateRetrySchedule nextInterval plan = .error err →
      ∃ k, 1 ≤ k ∧ k < plan.maxAttempts ∧ ∃ err', retryIntervalAfterAttempt nextInterval plan k = .error err') := by
  constructor
  · intro hvalid k hpos hk
    obtain ⟨last, hlast⟩ := validateRetrySchedule_eq_ok.1 hvalid
    obtain ⟨j, rfl⟩ : ∃ j, k = j + 1 := ⟨k - 1, by omega⟩
    obtain ⟨interval, hinterval⟩ := steps_of_le (show j ≤ plan.maxAttempts - 2 by omega) hlast
    refine ⟨interval, retryIntervalAfterAttempt_eq_ok.2 hinterval, ?_⟩
    intro hnext
    obtain ⟨next, hsteps⟩ := steps_of_le (show j + 1 ≤ plan.maxAttempts - 2 by omega) hlast
    obtain ⟨interval', hinterval', hstep⟩ := steps_succ_eq_ok.1 hsteps
    obtain rfl : interval = interval' := Except.ok.inj (hinterval.symm.trans hinterval')
    exact ⟨next, hstep, retryIntervalAfterAttempt_eq_ok.2 hsteps⟩
  · intro err herr
    have hstuck : ∀ interval,
        steps (nextInterval · plan) (plan.maxAttempts - 2) plan.initialInterval ≠ .ok interval := by
      intro interval hsteps
      rw [validateRetrySchedule_eq_ok.2 ⟨interval, hsteps⟩] at herr
      exact absurd herr (by simp)
    have hlarge : 2 ≤ plan.maxAttempts := by
      by_contra hsmall
      apply hstuck plan.initialInterval
      rw [show plan.maxAttempts - 2 = 0 by omega]
      rfl
    refine ⟨plan.maxAttempts - 2 + 1, by omega, by omega, ?_⟩
    cases hinterval : retryIntervalAfterAttempt nextInterval plan (plan.maxAttempts - 2 + 1) with
    | error err' => exact ⟨err', rfl⟩
    | ok interval => exact absurd (retryIntervalAfterAttempt_eq_ok.1 hinterval) (hstuck interval)

end Schedule

def DurationMessage.text (d : DurationMessage) : String :=
  "seconds:" ++ toString d.seconds ++ " nanos:" ++ toString d.nanos

/-- `CheckValid`, with its error. -/
def DurationMessage.check (d : DurationMessage) : Except Err Unit :=
  if d.checkValid then .ok ()
  else .error (errorf ("proto: duration (" ++ d.text ++
    if d.seconds < -315576000000 then ") exceeds -10000 years"
    else if 315576000000 < d.seconds then ") exceeds +10000 years"
    else if d.nanos < -999999999 ∨ 999999999 < d.nanos then ") has out-of-range nanos"
    else ") has seconds and nanos with different signs"))

theorem DurationMessage.check_eq_ok {d : DurationMessage} : d.check = .ok () ↔ d.checkValid = true := by
  unfold DurationMessage.check
  split <;> simp_all

def rejectIf (c : Prop) [Decidable c] (text : String) : Except Err Unit :=
  if c then .error (errorf text) else .ok ()

theorem rejectIf_eq_ok {c : Prop} [Decidable c] {text : String} : rejectIf c text = .ok () ↔ ¬ c := by
  by_cases hc : c <;> simp [rejectIf, hc]

def retryPolicyDuration (name : String) : Option DurationMessage → Except Err Int
  | none => .ok 0
  | some value => do
    value.check.mapError (wrapf ("retry policy " ++ name ++ " is invalid: "))
    let duration := value.asDuration
    rejectIf (value ≠ DurationMessage.new duration)
      ("retry policy " ++ name ++ " is outside Go time.Duration range")
    return duration

/-- The checks of `planRetries` on a plan whose coefficient has its default. -/
def RetryPlan.check (plan : RetryPlan) : Except Err Unit := do
  rejectIf (plan.maxAttempts = 0) "retry policy maximum_attempts must be > 0"
  rejectIf (maximumRetryAttempts < plan.maxAttempts)
    ("retry policy maximum_attempts exceeds the supported maximum of " ++ toString maximumRetryAttempts)
  rejectIf (plan.initialInterval < 0) "retry policy initial_interval must be >= 0"
  rejectIf (1 < plan.maxAttempts ∧ plan.initialInterval ≤ 0)
    "retry policy initial_interval must be > 0 when maximum_attempts > 1"
  rejectIf (plan.backoffCoefficient.isNaN || plan.backoffCoefficient.isInf ||
    plan.backoffCoefficient.le (.finite 0)) "retry policy backoff_coefficient must be finite and > 0"
  rejectIf (plan.maximumInterval < 0) "retry policy maximum_interval must be >= 0"
  rejectIf (0 < plan.maximumInterval ∧ plan.maximumInterval < plan.initialInterval)
    "retry policy maximum_interval must be >= initial_interval"
  rejectIf (plan.durableThreshold < 0) "retry policy durable_backoff_threshold must be >= 0"
  validateRetrySchedule nextInterval plan

def coefficientOrOne (coefficient : Binary64) : Binary64 :=
  if coefficient = .finite 0 then .finite 1 else coefficient

/-- The codes are put into the plan after its checks, none of which reads them. -/
def planRetries : Option RetryPolicy → Except Err RetryPlan
  | none => .ok
    { maxAttempts := 1, initialInterval := 0, backoffCoefficient := .finite 1, maximumInterval := 0,
      durableThreshold := 0, nonRetryable := ∅ }
  | some policy => do
    let initialInterval ← retryPolicyDuration "initial_interval" policy.initialInterval
    let maximumInterval ← retryPolicyDuration "maximum_interval" policy.maximumInterval
    let durableThreshold ← retryPolicyDuration "durable_backoff_threshold" policy.durableBackoffThreshold
    let plan : RetryPlan :=
      { maxAttempts := policy.maximumAttempts
        initialInterval := initialInterval
        backoffCoefficient := coefficientOrOne policy.backoffCoefficient
        maximumInterval := maximumInterval
        durableThreshold := durableThreshold
        nonRetryable := ∅ }
    plan.check
    return { plan with nonRetryable := policy.nonRetryableErrorCodes.toFinset }

def durationField (d : Int) : Option DurationMessage :=
  if d ≠ 0 then some (DurationMessage.new d) else none

abbrev sortedCodes (codes : Finset String) : List String := codes.sort (· ≤ ·)

/-- `sort.Strings` compares byte by byte. -/
def uniqueCodes (codes : List String) : List String := unrepeated (sortedBy Utf8.textBytes codes)

def normalizeRetryPolicy (policy : Option RetryPolicy) (plan : RetryPlan) : Option RetryPolicy :=
  policy.map fun policy =>
    { initialInterval := durationField plan.initialInterval
      backoffCoefficient := plan.backoffCoefficient
      maximumInterval := durationField plan.maximumInterval
      maximumAttempts := plan.maxAttempts
      nonRetryableErrorCodes := uniqueCodes policy.nonRetryableErrorCodes
      durableBackoffThreshold := durationField plan.durableThreshold }

theorem retryPolicyDuration_eq_ok {name : String} {value : Option DurationMessage} {d : Int} :
    retryPolicyDuration name value = .ok d ↔
      DurationMessage.InRange d ∧ (value = none ∧ d = 0 ∨ value = some (DurationMessage.new d)) := by
  cases value with
  | none =>
    simp only [retryPolicyDuration, Except.ok.injEq, true_and, reduceCtorEq, or_false]
    constructor
    · rintro rfl
      exact ⟨⟨by decide, by decide⟩, rfl⟩
    · intro h
      exact h.2.symm
  | some value =>
    simp only [retryPolicyDuration, bind_eq_ok_unit, mapError_eq_ok, DurationMessage.check_eq_ok,
      rejectIf_eq_ok, not_not, reduceCtorEq, false_and, false_or, Option.some.injEq]
    constructor
    · rintro ⟨-, hnew, hd⟩
      obtain rfl : value.asDuration = d := Except.ok.inj hd
      exact ⟨value.asDuration_inRange, hnew⟩
    · rintro ⟨hrange, rfl⟩
      rw [DurationMessage.asDuration_new hrange]
      exact ⟨DurationMessage.checkValid_new hrange, rfl, rfl⟩

theorem retryPolicyDuration_durationField {d : Int} (name : String) (hd : DurationMessage.InRange d) :
    retryPolicyDuration name (durationField d) = .ok d := by
  rw [retryPolicyDuration_eq_ok]
  refine ⟨hd, ?_⟩
  rcases eq_or_ne d 0 with hzero | hzero
  · simp [durationField, hzero]
  · simp [durationField, hzero]

/-- Bytes are ordered as characters are, so that the codes come in the order of the strings. -/
theorem uniqueCodes_eq (codes : List String) : uniqueCodes codes = sortedCodes codes.toFinset := by
  have hsorted : (sortedBy Utf8.textBytes codes).Pairwise (· ≤ ·) := by
    refine (List.pairwise_insertionSort _ codes).imp ?_
    intro s t hle
    rw [← not_lt] at hle ⊢
    rwa [Utf8.textBytes_lt_iff] at hle
  apply Rising.eq_of_perm (rising_unrepeated hsorted) (Finset.sortedLT_sort _).pairwise
  rw [List.perm_ext_iff_of_nodup (rising_unrepeated hsorted).nodup (Finset.sort_nodup _ _)]
  simp

def RetryPlan.bare (plan : RetryPlan) : RetryPlan := { plan with nonRetryable := ∅ }

def RetryPlan.policy (plan : RetryPlan) : RetryPolicy :=
  { initialInterval := durationField plan.initialInterval
    backoffCoefficient := plan.backoffCoefficient
    maximumInterval := durationField plan.maximumInterval
    maximumAttempts := plan.maxAttempts
    nonRetryableErrorCodes := plan.nonRetryable.sort (· ≤ ·)
    durableBackoffThreshold := durationField plan.durableThreshold }

theorem planRetries_some {policy : RetryPolicy} {plan : RetryPlan} :
    planRetries (some policy) = .ok plan ↔
      retryPolicyDuration "initial_interval" policy.initialInterval = .ok plan.initialInterval ∧
      retryPolicyDuration "maximum_interval" policy.maximumInterval = .ok plan.maximumInterval ∧
      retryPolicyDuration "durable_backoff_threshold" policy.durableBackoffThreshold =
        .ok plan.durableThreshold ∧
      plan.bare.check = .ok () ∧ plan.maxAttempts = policy.maximumAttempts ∧
      plan.backoffCoefficient = coefficientOrOne policy.backoffCoefficient ∧
      plan.nonRetryable = policy.nonRetryableErrorCodes.toFinset := by
  simp only [planRetries, Loop.bind_eq_ok]
  constructor
  · rintro ⟨initial, hinitial, maximum, hmaximum, durable, hdurable, _, hcheck, hplan⟩
    obtain rfl := Except.ok.inj hplan
    exact ⟨hinitial, hmaximum, hdurable, hcheck, rfl, rfl, rfl⟩
  · rintro ⟨hinitial, hmaximum, hdurable, hcheck, hattempts, hcoefficient, hcodes⟩
    refine ⟨_, hinitial, _, hmaximum, _, hdurable, (), ?_⟩
    rw [← hattempts, ← hcoefficient, ← hcodes]
    exact ⟨hcheck, rfl⟩

theorem normalizeRetryPolicy_some {policy : RetryPolicy} {plan : RetryPlan}
    (h : planRetries (some policy) = .ok plan) :
    normalizeRetryPolicy (some policy) plan = some plan.policy := by
  have hcodes := (planRetries_some.1 h).2.2.2.2.2.2
  rw [normalizeRetryPolicy, Option.map_some, uniqueCodes_eq, ← hcodes]
  rfl

theorem RetryPlan.coefficientOrOne_of_check {plan : RetryPlan} (h : plan.check = .ok ()) :
    coefficientOrOne plan.backoffCoefficient = plan.backoffCoefficient := by
  apply if_neg
  intro hzero
  simp only [RetryPlan.check, bind_eq_ok_unit, rejectIf_eq_ok, hzero] at h
  exact h.2.2.2.2.1 (by decide)

theorem planRetries_policy {policy : RetryPolicy} {plan : RetryPlan}
    (h : planRetries (some policy) = .ok plan) : planRetries (some plan.policy) = .ok plan := by
  obtain ⟨hinitial, hmaximum, hdurable, hcheck, -⟩ := planRetries_some.1 h
  rw [planRetries_some]
  refine ⟨retryPolicyDuration_durationField _ (retryPolicyDuration_eq_ok.1 hinitial).1,
    retryPolicyDuration_durationField _ (retryPolicyDuration_eq_ok.1 hmaximum).1,
    retryPolicyDuration_durationField _ (retryPolicyDuration_eq_ok.1 hdurable).1, hcheck, rfl, ?_, ?_⟩
  · exact (RetryPlan.coefficientOrOne_of_check hcheck).symm
  · exact (Finset.sort_toFinset _ _).symm

end Temporaless
