import Temporaless.Framework.Search
import Temporaless.Storage.Records

/-!
# Pending runs of a Python backfill

`run` decides by the type of the exception that leaves the body whether its run can go on. A backfill
searches everything that is chained to the exception that leaves `run` for a pending error.
-/

namespace Temporaless.Python

open Search

/-- A subclass counts as the class among these that it extends. -/
inductive ExceptionType where
  | cancelledError | activityError | timerPendingError | eventPendingError
  | workflowDependencyPendingError | claimBusyError | claimReleaseError | workflowInfrastructureError
  | concurrencyBusyError | other
  deriving DecidableEq, Repr

namespace ExceptionType

/-- The `pending_types` of a backfill. -/
def isPending : ExceptionType → Bool
  | .timerPendingError | .eventPendingError | .workflowDependencyPendingError | .claimBusyError
  | .concurrencyBusyError => true
  | _ => false

def isWorkflowContinuationException : ExceptionType → Bool
  | .activityError => false
  | .cancelledError | .timerPendingError | .claimBusyError | .claimReleaseError | .eventPendingError
  | .workflowDependencyPendingError | .workflowInfrastructureError => true
  | _ => false

/-- The `except` clause of `run` that only keeps the annotations. -/
def keepsAnnotations : ExceptionType → Bool
  | .timerPendingError | .claimBusyError | .claimReleaseError | .eventPendingError
  | .workflowDependencyPendingError | .workflowInfrastructureError => true
  | _ => false

theorem isWorkflowContinuationException_eq (t : ExceptionType) :
    t.isWorkflowContinuationException = (t.keepsAnnotations || t == .cancelledError) := by
  cases t <;> rfl

end ExceptionType

/-- The exception objects, with `__cause__` and `__context__` as `run` leaves them. -/
structure Exceptions (ι : Type) where
  type : ι → ExceptionType
  cause : ι → Option ι
  context : ι → Option ι

section Backfill

variable {ι : Type} (heap : Exceptions ι)

def Exceptions.chained (exc : ι) : List ι := (heap.context exc).toList ++ (heap.cause exc).toList

def isPendingError [Fintype ι] [DecidableEq ι] (exc : ι) : Bool :=
  search heap.chained (fun current => (heap.type current).isPending) [exc] ∅

def Exceptions.Pends (raised : Option ι) : Prop :=
  ∃ exc ∈ raised, ∃ behind, Reaches heap.chained exc behind ∧ (heap.type behind).isPending = true

theorem isPendingError_eq_true [Fintype ι] [DecidableEq ι] {exc : ι} :
    isPendingError heap exc = true ↔ heap.Pends (some exc) := by
  rw [isPendingError, search_eq_true (by simp)]
  simp [Exceptions.Pends]

theorem Exceptions.pends_of_isPending {exc : ι} (h : (heap.type exc).isPending = true) :
    heap.Pends (some exc) := ⟨exc, rfl, exc, .refl, h⟩

theorem Exceptions.pends_or (later earlier : Option ι)
    (h : ∀ x ∈ later, ∀ y ∈ earlier, Reaches heap.chained x y) :
    heap.Pends (later.or earlier) ↔ heap.Pends later ∨ heap.Pends earlier := by
  cases later with
  | none => simp [Pends]
  | some x =>
    constructor
    · exact Or.inl
    · rintro (hpends | ⟨y, hy, behind, hreach, hpending⟩)
      · exact hpends
      · exact ⟨x, rfl, behind, (h x rfl y hy).trans hreach, hpending⟩

end Backfill

/-- How a call that has found no terminal record comes to its end: a claim or a slot is busy, or the body
raises or returns. A result of another type than the declared one is raised by the body. -/
inductive Course (ι : Type) where
  | claimBusy (busy : ι)
  | slotBusy (busy : ι)
  | raised (exc : ι)
  | returned

/-- The put of a terminal record. One that fails may have been committed. -/
inductive TerminalPut (ι : Type) where
  | written
  | failed (err : ι) (committed : Bool)

/-- The calls of the store and the claim store raise these, if anything. -/
structure Invocation (ι : Type) where
  stored : Option WorkflowStatus
  course : Course ι
  annotate : Option ι
  put : TerminalPut ι
  reconcile : Option ι
  release : Option ι

structure Ending (ι : Type) where
  raised : Option ι
  stored : Option WorkflowStatus

def Ending.terminal {ι : Type} (ending : Ending ι) : Bool :=
  ending.stored == some .completed || ending.stored == some .failed

theorem Ending.terminal_inProgress {ι : Type} (raised : Option ι) :
    (⟨raised, some .inProgress⟩ : Ending ι).terminal = false := rfl

section Run

variable {ι : Type} (heap : Exceptions ι) (call : Invocation ι)

namespace Invocation

/-- A terminal record is put and the due timers are reconciled, while `handled` is handled. -/
def conclude (status : WorkflowStatus) (handled : Option ι) : Ending ι :=
  match call.put with
  | .written => ⟨call.reconcile.or handled, some status⟩
  | .failed err committed => ⟨some err, some (if committed then status else .inProgress)⟩

/-- The `try` block. -/
def attempt : Ending ι :=
  match call.course with
  | .claimBusy busy | .slotBusy busy => ⟨some busy, call.stored⟩
  | .raised exc =>
    if (heap.type exc).keepsAnnotations then ⟨call.annotate.or (some exc), some .inProgress⟩
    else if heap.type exc = .cancelledError then ⟨some exc, some .inProgress⟩
    else call.conclude .failed (some exc)
  | .returned => call.conclude .completed none

/-- The `finally` block releases the claims. -/
def run : Ending ι :=
  let ending := call.attempt heap
  { ending with raised := call.release.or ending.raised }

/-- The interpreter chains an exception to the one that is handled when it is raised. -/
structure Chained : Prop where
  stored : call.stored ≠ some .completed ∧ call.stored ≠ some .failed
  claimBusy : ∀ busy, call.course = .claimBusy busy → heap.type busy = .claimBusyError
  slotBusy : ∀ busy, call.course = .slotBusy busy → heap.type busy = .concurrencyBusyError
  annotate : ∀ exc, call.course = .raised exc → ∀ err ∈ call.annotate,
    (heap.type exc).keepsAnnotations = true ∧ Reaches heap.chained err exc
  put : ∀ exc err committed, call.course = .raised exc → call.put = .failed err committed →
    Reaches heap.chained err exc
  reconcile : ∀ exc, call.course = .raised exc → ∀ err ∈ call.reconcile, Reaches heap.chained err exc
  release : ∀ err ∈ call.release, ∀ exc ∈ (call.attempt heap).raised, Reaches heap.chained err exc

def Concluded (handled : Option ι) : Prop :=
  match call.put with
  | .written => ¬ (heap.Pends handled ∨ heap.Pends call.reconcile ∨ heap.Pends call.release)
  | .failed err committed =>
    (heap.Pends handled ∨ heap.Pends (some err) ∨ heap.Pends call.release) ↔ committed = false

/-- A pending error is met exactly where the run can go on. -/
def Told : Prop :=
  match call.course with
  | .claimBusy _ | .slotBusy _ => True
  | .raised exc =>
    if (heap.type exc).isWorkflowContinuationException then
      heap.Pends (some exc) ∨ heap.Pends call.annotate ∨ heap.Pends call.release
    else call.Concluded heap (some exc)
  | .returned => call.Concluded heap none

end Invocation

variable {heap call} {exc : ι}

theorem Invocation.Chained.pends_iff (h : call.Chained heap)
    (hraised : (call.run heap).raised = some exc) :
    heap.Pends (some exc) ↔ heap.Pends call.release ∨ heap.Pends (call.attempt heap).raised := by
  rw [← hraised, Invocation.run, heap.pends_or _ _ h.release]

theorem Invocation.concluded_iff (heap : Exceptions ι) (call : Invocation ι) (handled : Option ι)
    {status : WorkflowStatus} (hstatus : status = .completed ∨ status = .failed)
    (hput : ∀ err committed, call.put = .failed err committed → ∀ x ∈ handled, Reaches heap.chained err x)
    (hreconcile : ∀ err ∈ call.reconcile, ∀ x ∈ handled, Reaches heap.chained err x) :
    (heap.Pends call.release ∨ heap.Pends (call.conclude status handled).raised ↔
      (call.conclude status handled).terminal = false) ↔ call.Concluded heap handled := by
  cases hwrite : call.put with
  | written =>
    have hterminal : (call.conclude status handled).terminal = true := by
      rcases hstatus with rfl | rfl <;> simp [Invocation.conclude, hwrite, Ending.terminal]
    have hor := heap.pends_or _ _ hreconcile
    rw [hterminal]
    simp only [Invocation.conclude, Invocation.Concluded, hwrite, hor]
    grind
  | failed err committed =>
    have hterminal : (call.conclude status handled).terminal = committed := by
      rcases hstatus with rfl | rfl <;> cases committed <;> simp [Invocation.conclude, hwrite, Ending.terminal]
    have hor : heap.Pends (some err) ↔ heap.Pends (some err) ∨ heap.Pends handled :=
      heap.pends_or (some err) handled fun x hx y hy => Option.some.inj hx ▸ hput err committed hwrite y hy
    rw [hterminal]
    simp only [Invocation.conclude, Invocation.Concluded, hwrite]
    grind

/-- A backfill takes a run that raised for pending exactly if the run has no terminal record, just where
`Told` holds. -/
theorem isPendingError_iff_told [Fintype ι] [DecidableEq ι] (heap : Exceptions ι) (call : Invocation ι)
    (h : call.Chained heap) (exc : ι) (hraised : (call.run heap).raised = some exc) :
    (isPendingError heap exc = true ↔ (call.run heap).terminal = false) ↔ call.Told heap := by
  rw [isPendingError_eq_true, h.pends_iff hraised]
  change (_ ↔ (call.attempt heap).terminal = false) ↔ _
  have hstored := h.stored
  cases hcourse : call.course with
  | claimBusy busy =>
      have hpends : heap.Pends (some busy) :=
        heap.pends_of_isPending (by rw [h.claimBusy busy hcourse, ExceptionType.isPending])
      simp [Invocation.attempt, Invocation.Told, hcourse, Ending.terminal, hstored, hpends]
  | slotBusy busy =>
      have hpends : heap.Pends (some busy) :=
        heap.pends_of_isPending (by rw [h.slotBusy busy hcourse, ExceptionType.isPending])
      simp [Invocation.attempt, Invocation.Told, hcourse, Ending.terminal, hstored, hpends]
  | raised exc =>
      have hannotate := h.annotate exc hcourse
      simp only [Invocation.attempt, Invocation.Told, hcourse, ExceptionType.isWorkflowContinuationException_eq]
      by_cases hkeeps : (heap.type exc).keepsAnnotations = true
      · have hor := heap.pends_or call.annotate (some exc)
          fun x hx y hy => Option.some.inj hy ▸ (hannotate x hx).2
        simp only [hkeeps, if_true, Bool.true_or, Ending.terminal_inProgress, hor]
        grind
      by_cases hcancelled : heap.type exc = .cancelledError
      · have hnone : ¬ heap.Pends call.annotate := fun ⟨err, herr, _⟩ => hkeeps (hannotate err herr).1
        rw [if_neg hkeeps, if_pos hcancelled, if_pos (by simp [hcancelled]), Ending.terminal_inProgress]
        grind
      · have hiff := Invocation.concluded_iff heap call (some exc) (Or.inr rfl)
          (fun err committed hput x hx => Option.some.inj hx ▸ h.put exc err committed hcourse hput)
          (fun err herr x hx => Option.some.inj hx ▸ h.reconcile exc hcourse err herr)
        simpa [hkeeps, hcancelled] using hiff
  | returned =>
      have hiff := Invocation.concluded_iff heap call none (Or.inl rfl) (by simp) (by simp)
      simpa only [Invocation.attempt, Invocation.Told, hcourse] using hiff

end Run

/-- The body raises an infrastructure error whose cause is a pending timer, and the release of the
claims then fails: the pending timer is found behind both. -/
theorem isPendingError_iff_told_sleeping : let heap : Exceptions (Fin 3) :=
      ⟨fun | 0 => .timerPendingError | 1 => .workflowInfrastructureError | 2 => .other,
        fun | 1 => some 0 | _ => none, fun | 2 => some 1 | _ => none⟩
    let call : Invocation (Fin 3) := ⟨none, .raised 1, none, .written, none, some 2⟩
    (call.run heap).raised = some 2 ∧ call.Told heap ∧ (call.run heap).terminal = false ∧
      isPendingError heap 2 = true := by
  intro heap call
  have hcause : Reaches heap.chained 1 0 := .single (by simp [heap, Exceptions.chained])
  have hcontext : Reaches heap.chained 2 1 := .single (by simp [heap, Exceptions.chained])
  have hchained : call.Chained heap := by
    constructor
    case release =>
      intro err herr exc hexc
      obtain rfl : 2 = err := Option.some.inj herr
      obtain rfl : 1 = exc := Option.some.inj hexc
      exact hcontext
    all_goals simp [call]
  have htold : call.Told heap := Or.inl ⟨1, rfl, 0, hcause, rfl⟩
  exact ⟨rfl, htold, rfl, ((isPendingError_iff_told heap call hchained 2 rfl).2 htold).2 rfl⟩

/-- The body catches a pending timer and raises an exception of its own: the run has failed for good. -/
theorem pending_of_failed_replacedTimer : let heap : Exceptions Bool :=
      ⟨fun own => if own then .other else .timerPendingError, fun _ => none, fun own => if own then some false else none⟩
    let call : Invocation Bool := ⟨none, .raised true, none, .written, none, none⟩
    call.Chained heap ∧ (call.run heap).raised = some true ∧
      (call.run heap).stored = some .failed ∧ isPendingError heap true = true := by
  refine ⟨by constructor <;> simp, rfl, rfl, ?_⟩
  rw [isPendingError_eq_true]
  exact ⟨true, rfl, false, .single (by simp [Exceptions.chained]), rfl⟩

end Temporaless.Python
