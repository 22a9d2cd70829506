import Temporaless.Workflow.Interface

/-!
# Errors of the workflow package

The classification that decides whether an error of a workflow function is terminal.
-/

namespace Temporaless

open ErrorTree

def maximumRetryAttempts : Nat := 100

/-- Does the error leave the workflow in progress? The tests are made in this order. -/
def isWorkflowContinuationError (err : Err) : Bool :=
  if err.is .errClaimRelease then true
  else if err.asActivityError.isSome then false
  else if err.is .errWorkflowConflict || err.is .errActivityConflict ||
    err.is .errTimerConflict || err.is .errCorruptRecord then false
  else err.is .contextCanceled || err.is .contextDeadlineExceeded || err.is .errTimerPending ||
    err.is .errClaimBusy || err.is .errEventPending || err.is .errWorkflowDependencyPending ||
    err.is .errWorkflowInfrastructure

section Matches

variable (target : Sentinel)

end Matches

section Joined

variable {errs : List Err}

end Joined

end Temporaless
