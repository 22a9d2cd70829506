import Temporaless.Storage.Store

/-!
# What a workflow process asks of its surroundings

A process calls the record store and reads the clock, and it keeps volatile memory, which survives
an error of a call and is lost in a crash. Every section of the source that holds a lock is one read
or one update of the memory.
-/

namespace Temporaless

open Effects

/-- What the cache knows of one record family: entries by identifier, where `none` stands for a
record known to be absent, and whether the family has been listed as a whole. -/
structure Shelf (R : Type) where
  listed : Bool
  entries : AList fun _ : String => Option R

structure RunScopedCache where
  scope : WorkflowKey
  workflowKnown : Bool
  workflow : Option WorkflowRecord
  shelf : (k : StoreKind) → Shelf k.Record

def newRunScopedCache (scope : WorkflowKey) : RunScopedCache where
  scope := scope
  workflowKnown := false
  workflow := none
  shelf _ := ⟨false, ∅⟩

/-- The cache of an invocation and the wake timers that it has consumed. -/
structure Memory where
  cache : RunScopedCache
  consumedWakeTimers : AList fun _ : String => TimerKey

/-- How a callback of the application ends. A result is given by its wire form, and a nil result
is `none`. -/
inductive UserOutcome where
  | returned (result : Option (List UInt8))
  | failed (err : Err)
  | panicked (value : String)

def userPanicError (panic : UserPanicFields) : Err := .node (.userPanic panic) []

def invokeUser (boundary : String) : UserOutcome → Except Err (Option (List UInt8))
  | .returned result => .ok result
  | .failed err => .error err
  | .panicked value => .error (userPanicError ⟨boundary, value, ""⟩)

/-- What a process does: a call of the store, a section under a lock, and a look at the clock. -/
inductive FlowOp where
  | store (op : StoreOp)
  | recollect
  | remember (change : Memory → Memory)
  | now

abbrev FlowOp.Reply : FlowOp → Type
  | .store op => op.Reply
  | .recollect => Memory
  | .remember _ => Unit
  | .now => Int

abbrev flowSignature : Signature := ⟨FlowOp, FlowOp.Reply⟩

abbrev FlowM (α : Type) := ExceptT Err (Program flowSignature) α

def callStore (op : StoreOp) : FlowM op.Answer :=
  ExceptT.mk (.call (σ := flowSignature) (.store op) .done)

def recollect : FlowM Memory :=
  ExceptT.mk (.call (σ := flowSignature) .recollect fun m => .done (.ok m))

def remember (change : Memory → Memory) : FlowM Unit :=
  ExceptT.mk (.call (σ := flowSignature) (.remember change) fun _ => .done (.ok ()))

section Ends

variable {S : Type} {F : CallSpec flowSignature S} {s : S}

theorem ends_callStore {op : StoreOp} {Q : op.Reply → S → Prop} :
    ends F (callStore op) Q s ↔ F.pre (.store op) Q s := ends_mk

theorem ends_recollect {Q : Except Err Memory → S → Prop} :
    ends F recollect Q s ↔ F.pre .recollect (fun m => Q (.ok m)) s := ends_mk

theorem ends_remember {change : Memory → Memory} {Q : Except Err Unit → S → Prop} :
    ends F (remember change) Q s ↔ F.pre (.remember change) (fun _ => Q (.ok ())) s :=
  ends_mk

end Ends

end Temporaless
