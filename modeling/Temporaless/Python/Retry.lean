import Temporaless.Python.Store
import Temporaless.Workflow.Retry

/-!
# Retry plans of the Python SDK

The plan of a retry policy, with durations in microseconds, and the policy that is recorded with an
activity. For policies that both languages can represent it is the normal form of the Go runtime.
-/

namespace Temporaless.Python

/-- `_RoundTowardZero` of the protobuf library. -/
def roundTowardZero (value divider : Int) : Int :=
  let result := value / divider
  if result < 0 ∧ 0 < value % divider then result + 1 else result

/-- `ToTimedelta`, in microseconds. -/
def toTimedelta (value : DurationMessage) : Int :=
  value.seconds * 1000000 + roundTowardZero value.nanos 1000

/-- `FromTimedelta`. The seconds of a `timedelta` are rounded down, those of the message toward zero. -/
def fromTimedelta (duration : Int) : DurationMessage :=
  let seconds := duration / 1000000
  let nanos := duration % 1000000 * 1000
  if seconds < 0 ∧ 0 < nanos then ⟨seconds + 1, nanos - 1000000000⟩ else ⟨seconds, nanos⟩

def validatedProtoDuration (value : DurationMessage) (name : String) : Except Err Int :=
  let duration := toTimedelta value
  if value.checkValid && fromTimedelta duration == value then .ok duration
  else .error (exception .valueError (name ++ " is invalid"))

def WholeMicroseconds (value : DurationMessage) : Prop := value.nanos % 1000 = 0

section Durations

variable {value : DurationMessage} (hwhole : WholeMicroseconds value)

include hwhole

theorem toTimedelta_of_whole : toTimedelta value = value.seconds * 1000000 + value.nanos / 1000 := by
  simp only [WholeMicroseconds] at hwhole
  rw [toTimedelta, roundTowardZero, if_neg (by omega)]

theorem fromTimedelta_toTimedelta (hvalid : value.checkValid) :
    fromTimedelta (toTimedelta value) = value := by
  rw [toTimedelta_of_whole hwhole]
  obtain ⟨seconds, nanos⟩ := value
  simp only [DurationMessage.checkValid, decide_eq_true_eq] at hvalid
  simp only [WholeMicroseconds] at hwhole
  simp only [fromTimedelta]
  split_ifs <;> simp only [DurationMessage.mk.injEq] <;> omega

end Durations

/-- `_RetryPlan`. -/
structure RetryPlan where
  maximumAttempts : Nat
  initialInterval : Int
  backoffCoefficient : Binary64
  maximumInterval : Int
  durableThreshold : Int
  nonRetryableCodes : Finset String
  recordPolicy : Option RetryPolicy

def raiseIf (c : Prop) [Decidable c] (text : String) : Except Err Unit :=
  if c then .error (exception .valueError text) else .ok ()

def recordedDuration (duration : Int) : Option DurationMessage :=
  if duration ≠ 0 then some (fromTimedelta duration) else none

/-- A message field that is absent reads as the empty message. -/
def planRetries : Option RetryPolicy → Except Err RetryPlan
  | none => .ok
    { maximumAttempts := 1, initialInterval := 0, backoffCoefficient := .finite 1, maximumInterval := 0,
      durableThreshold := 0, nonRetryableCodes := ∅, recordPolicy := none }
  | some policy => do
    let maximumAttempts := policy.maximumAttempts
    raiseIf (maximumAttempts = 0) "retry policy maximum_attempts must be > 0"
    raiseIf (maximumRetryAttempts < maximumAttempts)
      ("retry policy maximum_attempts exceeds the supported maximum of " ++ toString maximumRetryAttempts)
    let initialInterval ← validatedProtoDuration (policy.initialInterval.getD ⟨0, 0⟩) "initial_interval"
    raiseIf (initialInterval < 0) "retry policy initial_interval must be >= 0"
    raiseIf (1 < maximumAttempts ∧ initialInterval ≤ 0)
      "retry policy initial_interval must be > 0 when maximum_attempts > 1"
    let backoffCoefficient := coefficientOrOne policy.backoffCoefficient
    raiseIf (backoffCoefficient.isNaN || backoffCoefficient.isInf || backoffCoefficient.le (.finite 0))
      "retry policy backoff_coefficient must be finite and > 0"
    let maximumInterval ← validatedProtoDuration (policy.maximumInterval.getD ⟨0, 0⟩) "maximum_interval"
    raiseIf (maximumInterval < 0) "retry policy maximum_interval must be >= 0"
    raiseIf (0 < maximumInterval ∧ maximumInterval < initialInterval)
      "retry policy maximum_interval must be >= initial_interval"
    let durableThreshold ← validatedProtoDuration (policy.durableBackoffThreshold.getD ⟨0, 0⟩)
      "durable_backoff_threshold"
    raiseIf (durableThreshold < 0) "retry policy durable_backoff_threshold must be >= 0"
    let nonRetryableCodes := policy.nonRetryableErrorCodes.toFinset
    let recordPolicy : RetryPolicy :=
      { initialInterval := recordedDuration initialInterval
        backoffCoefficient := backoffCoefficient
        maximumInterval := recordedDuration maximumInterval
        maximumAttempts := maximumAttempts
        nonRetryableErrorCodes := sortedCodes nonRetryableCodes
        durableBackoffThreshold := recordedDuration durableThreshold }
    return {
      maximumAttempts := maximumAttempts
      initialInterval := initialInterval
      backoffCoefficient := backoffCoefficient
      maximumInterval := maximumInterval
      durableThreshold := durableThreshold
      nonRetryableCodes := nonRetryableCodes
      recordPolicy := some recordPolicy }

theorem raiseIf_of_not {c : Prop} [Decidable c] {text : String} (hc : ¬ c) : raiseIf c text = .ok () :=
  if_neg hc

def FieldWhole (value : Option DurationMessage) : Prop := ∀ d ∈ value, WholeMicroseconds d

theorem exists_validatedProtoDuration {name : String} {value : Option DurationMessage} {d : Int}
    (h : retryPolicyDuration name value = .ok d) (hwhole : FieldWhole value) :
    ∃ duration, validatedProtoDuration (value.getD ⟨0, 0⟩) name = .ok duration ∧ d = 1000 * duration ∧
      recordedDuration duration = durationField d := by
  rw [retryPolicyDuration_eq_ok] at h
  obtain ⟨hrange, ⟨rfl, rfl⟩ | rfl⟩ := h
  · exact ⟨0, rfl, rfl, rfl⟩
  · have hmicros := hwhole _ rfl
    have hvalid := DurationMessage.checkValid_new hrange
    have hback := fromTimedelta_toTimedelta hmicros hvalid
    have hlength : d = 1000 * toTimedelta (DurationMessage.new d) := by
      have htotal := Int.mul_tdiv_add_tmod d nanosPerSecond
      rw [toTimedelta_of_whole hmicros]
      simp only [WholeMicroseconds, DurationMessage.new, nanosPerSecond] at hmicros htotal ⊢
      omega
    refine ⟨toTimedelta (DurationMessage.new d), ?_, hlength, ?_⟩
    · simp [validatedProtoDuration, hvalid, hback]
    · have hzero : toTimedelta (DurationMessage.new d) = 0 ↔ d = 0 := by omega
      simp only [recordedDuration, durationField, ne_eq, hzero, hback]

/-- Every duration of the policy is a whole number of microseconds. -/
def PolicyWhole (policy : RetryPolicy) : Prop :=
  FieldWhole policy.initialInterval ∧ FieldWhole policy.maximumInterval ∧
    FieldWhole policy.durableBackoffThreshold

theorem exists_planRetries {policy : RetryPolicy} {plan : Temporaless.RetryPlan}
    (hwhole : PolicyWhole policy)
    (h : Temporaless.planRetries (some policy) = .ok plan) :
    ∃ plan', planRetries (some policy) = .ok plan' ∧ plan'.recordPolicy = some plan.policy := by
  obtain ⟨hinitial, hmaximum, hdurable, hcheck, hattempts, hcoefficient, hcodes⟩ := planRetries_some.1 h
  obtain ⟨initial, hinitial', hinitialLength, hinitialField⟩ := exists_validatedProtoDuration hinitial hwhole.1
  obtain ⟨maximum, hmaximum', hmaximumLength, hmaximumField⟩ := exists_validatedProtoDuration hmaximum hwhole.2.1
  obtain ⟨durable, hdurable', hdurableLength, hdurableField⟩ := exists_validatedProtoDuration hdurable hwhole.2.2
  simp only [Temporaless.RetryPlan.check, bind_eq_ok_unit, rejectIf_eq_ok, RetryPlan.bare, hinitialLength,
    hmaximumLength, hdurableLength, hattempts, hcoefficient] at hcheck
  obtain ⟨hzero, hbound, hnegative, hpositive, hfinite, hmaximumNegative, hcap, hthreshold, -⟩ := hcheck
  have hplan : plan.policy = { policy with
      initialInterval := recordedDuration initial
      backoffCoefficient := coefficientOrOne policy.backoffCoefficient
      maximumInterval := recordedDuration maximum
      nonRetryableErrorCodes := sortedCodes policy.nonRetryableErrorCodes.toFinset
      durableBackoffThreshold := recordedDuration durable } := by
    rw [Temporaless.RetryPlan.policy, hinitialField, hmaximumField, hdurableField, hattempts, hcoefficient,
      hcodes]
  refine ⟨{
    maximumAttempts := policy.maximumAttempts
    initialInterval := initial
    backoffCoefficient := coefficientOrOne policy.backoffCoefficient
    maximumInterval := maximum
    durableThreshold := durable
    nonRetryableCodes := policy.nonRetryableErrorCodes.toFinset
    recordPolicy := some plan.policy }, ?_, rfl⟩
  rw [hplan]
  simp only [planRetries, Loop.bind_eq_ok]
  exact ⟨(), raiseIf_of_not hzero, (), raiseIf_of_not hbound, initial, hinitial', (),
    raiseIf_of_not (by omega), (), raiseIf_of_not (by omega), (), raiseIf_of_not hfinite, maximum, hmaximum', (),
    raiseIf_of_not (by omega), (), raiseIf_of_not (by omega), durable, hdurable', (),
    raiseIf_of_not (by omega), rfl⟩

end Temporaless.Python

namespace Temporaless

open Python

/-- Policies whose normal forms are compared when an activity is resumed: what Go makes of a policy is
its own normal form, has the same plan, is told apart by the plan alone and is what Python records. -/
theorem normalizeRetryPolicy_canonical {policy : Option RetryPolicy} {plan : RetryPlan}
    (hwhole : ∀ p ∈ policy, PolicyWhole p) (hplan : planRetries policy = .ok plan) :
    planRetries (normalizeRetryPolicy policy plan) = .ok plan ∧
    normalizeRetryPolicy (normalizeRetryPolicy policy plan) plan = normalizeRetryPolicy policy plan ∧
    (∃ plan', Python.planRetries policy = .ok plan' ∧
      plan'.recordPolicy = normalizeRetryPolicy policy plan) ∧
    (∀ policy' plan', (∀ p ∈ policy', PolicyWhole p) → planRetries policy' = .ok plan' →
      policy ≠ none → policy' ≠ none →
        (normalizeRetryPolicy policy plan = normalizeRetryPolicy policy' plan' ↔ plan = plan')) := by
  cases policy with
  | none => exact ⟨hplan, rfl, ⟨_, rfl, rfl⟩, fun _ _ _ _ hnone => absurd rfl hnone⟩
  | some policy =>
      have hpolicy := planRetries_policy hplan
      obtain ⟨plan', hplan', hrecord⟩ := exists_planRetries (hwhole policy rfl) hplan
      rw [normalizeRetryPolicy_some hplan]
      refine ⟨hpolicy, normalizeRetryPolicy_some hpolicy, ⟨plan', hplan', hrecord⟩, ?_⟩
      intro policy' other _ hother _ hsome
      obtain ⟨policy', rfl⟩ := Option.ne_none_iff_exists'.1 hsome
      rw [normalizeRetryPolicy_some hother, Option.some.injEq]
      constructor
      · intro heq
        have hpolicy' := planRetries_policy hother
        rw [← heq, hpolicy] at hpolicy'
        exact Except.ok.inj hpolicy'
      · intro heq
        rw [heq]

/-- Two retries at most, with codes that are neither sorted nor distinct. -/
def repeatedCodesPolicy : RetryPolicy :=
  { initialInterval := some ⟨1, 500000000⟩
    backoffCoefficient := .finite 0
    maximumInterval := some ⟨0, 0⟩
    maximumAttempts := 2
    nonRetryableErrorCodes := ["late", "closed", "late"]
    durableBackoffThreshold := none }

def repeatedCodesPlan : RetryPlan :=
  { maxAttempts := 2, initialInterval := 1500000000, backoffCoefficient := .finite 1, maximumInterval := 0,
    durableThreshold := 0, nonRetryable := {"late", "closed"} }

theorem normalizeRetryPolicy_canonical_repeatedCodes :
    planRetries (some repeatedCodesPolicy) = .ok repeatedCodesPlan ∧
      planRetries (normalizeRetryPolicy (some repeatedCodesPolicy) repeatedCodesPlan) =
        .ok repeatedCodesPlan := by
  have hplan : planRetries (some repeatedCodesPolicy) = .ok repeatedCodesPlan :=
    planRetries_some.2 ⟨rfl, rfl, rfl, rfl, rfl, rfl, by decide⟩
  refine ⟨hplan, (normalizeRetryPolicy_canonical ?_ hplan).1⟩
  simp [PolicyWhole, FieldWhole, WholeMicroseconds, repeatedCodesPolicy]

end Temporaless
