import Temporaless.Errors
import Temporaless.Framework.Loop
import Temporaless.Framework.Tally

/-!
# Backfills

`Backfill` invokes one run after the other, each in a goroutine that holds a slot of a semaphore. The
dispatch loop and the goroutines move in any order. Which errors leave a run pending is a parameter.
-/

namespace Temporaless.Backfill

open Tally Function

inductive Status where
  | unspecified | succeeded | failed | pending
  deriving DecidableEq, Repr

/-- A result or an error that was not set is `none`. -/
structure Entry (Resp ε : Type) where
  runID : String
  status : Status
  result : Option Resp
  err : Option ε

structure Options where
  concurrency : Int
  haltOnError : Bool

/-- Where the dispatch loop is: in front of the first `select` of a run, in front of the second one with a
slot in its hands, giving that slot back, or past the return. In front of the first `select` past the last
run it waits for the group. -/
inductive Dispatcher (n : Nat) where
  | choosing (next : Nat)
  | checking (i : Fin n)
  | releasing (i : Fin n)
  | returned

/-- Where the goroutine of a run is. Its outcome is what `invoke` returned. -/
inductive Worker (Resp ε : Type) where
  | unstarted
  | spawned
  | running
  | closing (err : ε)
  | storing (outcome : Except ε Resp)
  | stored (outcome : Except ε Resp)
  | freed (outcome : Except ε Resp)
  | finished (outcome : Except ε Resp)

/-- `calls` counts the calls of `invoke` for each run. -/
structure State (n : Nat) (Resp ε : Type) where
  dispatcher : Dispatcher n
  sem : Nat
  halt : Bool
  group : Nat
  worker : Fin n → Worker Resp ε
  entries : Fin n → Entry Resp ε
  calls : Fin n → Nat

/-- A call of `Backfill` past its checks. -/
structure Call (ε : Type) where
  isPendingError : ε → Bool
  runIDs : List String
  haltOnError : Bool
  concurrency : Nat

section System

variable {Resp ε : Type} (call : Call ε)

def Call.size : Nat := call.runIDs.length

def Call.runID (i : Fin call.size) : String := call.runIDs.get i

@[grind] def Call.isFailure : Except ε Resp → Bool
  | .ok _ => false
  | .error err => !call.isPendingError err

def pendingEntry (runID : String) : Entry Resp ε := ⟨runID, .pending, none, none⟩

def Call.entryOf (runID : String) : Except ε Resp → Entry Resp ε
  | .ok result => ⟨runID, .succeeded, some result, none⟩
  | .error err => ⟨runID, if call.isPendingError err then .pending else .failed, none, some err⟩

@[grind] def Call.settled : Except ε Resp → Worker Resp ε
  | .ok result => .storing (.ok result)
  | .error err => if !call.isPendingError err && call.haltOnError then .closing err else .storing (.error err)

namespace State

variable {n : Nat}

def initial : State n Resp ε where
  dispatcher := .choosing 0
  sem := 0
  halt := false
  group := 0
  worker _ := .unstarted
  entries _ := ⟨"", .unspecified, none, none⟩
  calls _ := 0

variable (s : State n Resp ε) (i : Fin n)

@[grind] def move (worker : Worker Resp ε) : State n Resp ε :=
  { s with worker := update s.worker i worker }

@[grind] def skip (runID : String) : State n Resp ε :=
  { s with dispatcher := .choosing (i + 1)
           entries := update s.entries i (pendingEntry runID) }

@[grind] def acquire : State n Resp ε := { s with dispatcher := .checking i, sem := s.sem + 1 }

@[grind] def dispatch : State n Resp ε :=
  { s.move i .spawned with dispatcher := .choosing (i + 1), group := s.group + 1 }

@[grind] def refuse : State n Resp ε := { s with dispatcher := .releasing i }

@[grind] def release (runID : String) : State n Resp ε := { s.skip i runID with sem := s.sem - 1 }

@[grind] def invoke : State n Resp ε :=
  { s.move i .running with calls := update s.calls i (s.calls i + 1) }

@[grind] def closeHalt (err : ε) : State n Resp ε := { s.move i (.storing (.error err)) with halt := true }

@[grind] def store (entry : Entry Resp ε) (outcome : Except ε Resp) : State n Resp ε :=
  { s.move i (.stored outcome) with entries := update s.entries i entry }

@[grind] def free (outcome : Except ε Resp) : State n Resp ε := { s.move i (.freed outcome) with sem := s.sem - 1 }

@[grind] def leave (outcome : Except ε Resp) : State n Resp ε :=
  { s.move i (.finished outcome) with group := s.group - 1 }

@[grind] def finish : State n Resp ε := { s with dispatcher := .returned }

section Fields

variable (j : Fin n)

@[grind =] theorem entries_skip (runID : String) : (s.skip i runID).entries j =
    if j = i then pendingEntry runID else s.entries j := update_apply ..

@[grind =] theorem entries_release (runID : String) : (s.release i runID).entries j =
    if j = i then pendingEntry runID else s.entries j := update_apply ..

@[grind =] theorem entries_store (entry : Entry Resp ε) (outcome : Except ε Resp) :
    (s.store i entry outcome).entries j = if j = i then entry else s.entries j := update_apply ..

@[grind =] theorem calls_invoke : (s.invoke i).calls j = if j = i then s.calls i + 1 else s.calls j :=
  update_apply ..

@[grind =] theorem worker_dispatch : (s.dispatch i).worker j = if j = i then .spawned else s.worker j :=
  update_apply ..

end Fields

end State

/-- One step of the loop or of one goroutine. A receive waits for a slot that is taken, a send for one that
is free; with the halt channel closed and a slot free the first `select` takes either branch. -/
inductive Step (s : State call.size Resp ε) : State call.size Resp ε → Prop where
  | skip (i : Fin call.size) (h : s.dispatcher = .choosing i) (hhalt : s.halt = true) :
      Step s (s.skip i (call.runID i))
  | acquire (i : Fin call.size) (h : s.dispatcher = .choosing i) (hfree : s.sem < call.concurrency) :
      Step s (s.acquire i)
  | dispatch (i : Fin call.size) (h : s.dispatcher = .checking i) (hhalt : s.halt = false) :
      Step s (s.dispatch i)
  | refuse (i : Fin call.size) (h : s.dispatcher = .checking i) (hhalt : s.halt = true) :
      Step s (s.refuse i)
  | release (i : Fin call.size) (h : s.dispatcher = .releasing i) (htaken : 0 < s.sem) :
      Step s (s.release i (call.runID i))
  | invoke (i : Fin call.size) (h : s.worker i = .spawned) : Step s (s.invoke i)
  | settle (i : Fin call.size) (outcome : Except ε Resp) (h : s.worker i = .running) :
      Step s (s.move i (call.settled outcome))
  | closeHalt (i : Fin call.size) (err : ε) (h : s.worker i = .closing err) : Step s (s.closeHalt i err)
  | store (i : Fin call.size) (outcome : Except ε Resp) (h : s.worker i = .storing outcome) :
      Step s (s.store i (call.entryOf (call.runID i) outcome) outcome)
  | free (i : Fin call.size) (outcome : Except ε Resp) (h : s.worker i = .stored outcome)
      (htaken : 0 < s.sem) : Step s (s.free i outcome)
  | leave (i : Fin call.size) (outcome : Except ε Resp) (h : s.worker i = .freed outcome) :
      Step s (s.leave i outcome)
  | finish (h : s.dispatcher = .choosing call.size) (hgroup : s.group = 0) : Step s s.finish

def Reachable (s : State call.size Resp ε) : Prop := Relation.ReflTransGen (Step call) State.initial s

end System

section Places

variable {Resp ε : Type} {n : Nat}

@[grind] def Dispatcher.position : Dispatcher n → Nat
  | .choosing next => next
  | .checking i | .releasing i => i
  | .returned => n

@[grind] def Dispatcher.work : Dispatcher n → Nat
  | .choosing next => 4 * (n - next) + 1
  | .checking i => 4 * (n - i)
  | .releasing i => 4 * (n - i) - 1
  | .returned => 0

@[grind] def Dispatcher.slot : Dispatcher n → Nat
  | .checking _ | .releasing _ => 1
  | .choosing _ | .returned => 0

namespace Worker

@[grind] def slot : Worker Resp ε → Nat
  | .unstarted | .freed _ | .finished _ => 0
  | _ => 1

@[grind] def member : Worker Resp ε → Nat
  | .unstarted | .finished _ => 0
  | _ => 1

@[grind] def calls : Worker Resp ε → Nat
  | .unstarted | .spawned => 0
  | _ => 1

@[grind] def outcome : Worker Resp ε → Option (Except ε Resp)
  | .unstarted | .spawned | .running => none
  | .closing err => some (.error err)
  | .storing outcome | .stored outcome | .freed outcome | .finished outcome => some outcome

@[grind] def announced : Worker Resp ε → Option (Except ε Resp)
  | .storing outcome | .stored outcome | .freed outcome | .finished outcome => some outcome
  | _ => none

/-- What the invocation returned, once its entry has been written. -/
@[grind] def written : Worker Resp ε → Option (Except ε Resp)
  | .stored outcome | .freed outcome | .finished outcome => some outcome
  | _ => none

@[grind] def vacated : Worker Resp ε → Option (Except ε Resp)
  | .freed outcome | .finished outcome => some outcome
  | _ => none

@[grind] def work : Worker Resp ε → Nat
  | .unstarted => 7
  | .spawned => 6
  | .running => 5
  | .closing _ => 4
  | .storing _ => 3
  | .stored _ => 2
  | .freed _ => 1
  | .finished _ => 0

theorem exists_vacated {worker : Worker Resp ε} (hstarted : worker ≠ .unstarted)
    (hslot : worker.slot = 0) :
    ∃ outcome, worker.vacated = some outcome ∧ worker.announced = some outcome := by
  cases worker with
  | unstarted => exact absurd rfl hstarted
  | freed outcome => exact ⟨outcome, rfl, rfl⟩
  | finished outcome => exact ⟨outcome, rfl, rfl⟩
  | _ => simp [slot] at hslot

end Worker

end Places

section Invariant

variable {Resp ε : Type} {call : Call ε} {s s' : State call.size Resp ε}

/-- The semaphore and the wait group count the goroutines; the runs in front of the loop are untouched;
those behind it were started, unless the halt channel was closed. -/
structure Inv (call : Call ε) (s : State call.size Resp ε) : Prop where
  position : s.dispatcher.position ≤ call.size
  ahead : ∀ i : Fin call.size, s.dispatcher.position ≤ i → s.worker i = .unstarted
  behind : ∀ i : Fin call.size, i < s.dispatcher.position → s.worker i = .unstarted →
    s.halt = true ∧ s.entries i = pendingEntry (call.runID i)
  releasing : ∀ i, s.dispatcher = .releasing i → s.halt = true
  returned : s.dispatcher = .returned → s.group = 0
  sem : s.sem = tally Worker.slot s.worker + s.dispatcher.slot
  bounded : s.sem ≤ call.concurrency
  group : s.group = tally Worker.member s.worker
  calls : ∀ i, s.calls i = (s.worker i).calls
  written : ∀ i outcome, (s.worker i).written = some outcome →
    s.entries i = call.entryOf (call.runID i) outcome
  allowed : s.halt = true → call.haltOnError = true
  closing : ∀ i err, s.worker i = .closing err → call.haltOnError = true
  announced : ∀ i outcome, (s.worker i).announced = some outcome → call.isFailure outcome = true →
    call.haltOnError = true → s.halt = true
  ordered : ∀ i j, i < j → s.worker j ≠ .unstarted → s.worker i ≠ .unstarted
  alone : call.concurrency = 1 → call.haltOnError = true → ∀ i j, i < j → s.worker j ≠ .unstarted →
    ∃ outcome, (s.worker i).vacated = some outcome ∧ call.isFailure outcome = false

theorem Inv.initial : Inv call (State.initial : State call.size Resp ε) where
  position := Nat.zero_le _
  ahead _ _ := rfl
  behind i h := absurd h (Nat.not_lt_zero _)
  releasing i h := by simp [State.initial] at h
  returned h := by simp [State.initial] at h
  sem := by simp [State.initial, tally, Worker.slot, Dispatcher.slot]
  bounded := Nat.zero_le _
  group := by simp [State.initial, tally, Worker.member]
  calls _ := rfl
  written i outcome h := by simp [State.initial, Worker.written] at h
  allowed h := by simp [State.initial] at h
  closing i err h := by simp [State.initial] at h
  announced i outcome h := by simp [State.initial, Worker.announced] at h
  ordered i j _ h := absurd rfl h
  alone _ _ i j _ h := absurd rfl h

theorem Inv.work (hs : Inv call s) (s' : State call.size Resp ε) (i : Fin call.size)
    (worker : Worker Resp ε)
    (hold : s.worker i ≠ .unstarted) (hnew : worker ≠ .unstarted)
    (hdispatcher : s'.dispatcher = s.dispatcher)
    (hworker : s'.worker = update s.worker i worker)
    (hhalt : s.halt = true → s'.halt = true) (hallowed : s'.halt = true → call.haltOnError = true)
    (hclosing : ∀ err, worker = .closing err → call.haltOnError = true)
    (hsem : s'.sem + (s.worker i).slot = s.sem + worker.slot) (hslot : worker.slot ≤ (s.worker i).slot)
    (hgroup : s'.group + (s.worker i).member = s.group + worker.member)
    (hmember : worker.member ≤ (s.worker i).member) (hcalls : s'.calls i = worker.calls)
    (hothers : ∀ j, j ≠ i → s'.calls j = s.calls j ∧ s'.entries j = s.entries j)
    (hwritten : ∀ outcome, worker.written = some outcome →
      s'.entries i = call.entryOf (call.runID i) outcome)
    (hannounced : ∀ outcome, worker.announced = some outcome → call.isFailure outcome = true →
      call.haltOnError = true → s'.halt = true)
    (hvacated : ∀ outcome, (s.worker i).vacated = some outcome → worker.vacated = some outcome) :
    Inv call s' := by
  have hself : s'.worker i = worker := by rw [hworker, update_self]
  have hother : ∀ j, j ≠ i → s'.worker j = s.worker j := by
    intro j hj
    rw [hworker, update_of_ne hj]
  have hslots := tally_update Worker.slot s.worker i worker
  have hmembers := tally_update Worker.member s.worker i worker
  rw [← hworker] at hslots hmembers
  have hstarted : ∀ j, s'.worker j = .unstarted ↔ s.worker j = .unstarted := by grind
  constructor
  · exact hdispatcher ▸ hs.position
  · grind [hs.ahead]
  · grind [hs.behind]
  · grind [hs.releasing]
  · have := hs.returned
    have := hs.group
    grind
  · have := hs.sem
    grind
  · have := hs.bounded
    omega
  · have := hs.group
    omega
  · grind [hs.calls]
  · grind [hs.written]
  · exact hallowed
  · grind [hs.closing]
  · grind [hs.announced]
  · grind [hs.ordered]
  · intro hone hhaltOnError j k hjk hk
    rw [Ne, hstarted] at hk
    obtain ⟨outcome, hsettled, hfailure⟩ := hs.alone hone hhaltOnError j k hjk hk
    grind

theorem Call.settled_cases (call : Call ε) (outcome : Except ε Resp) :
    (call.settled outcome = .storing outcome ∧
      (call.isFailure outcome = true → call.haltOnError = false)) ∨
    ∃ err, outcome = .error err ∧ call.haltOnError = true ∧ call.settled outcome = .closing err := by
  cases outcome with
  | ok result => grind
  | error err => grind

theorem Inv.settle (hs : Inv call s) {i : Fin call.size} (h : s.worker i = .running)
    (outcome : Except ε Resp) : Inv call (s.move i (call.settled outcome)) := by
  have hcalls := hs.calls i
  rcases call.settled_cases outcome with ⟨hnext, hfailure⟩ | ⟨err, -, hhaltOnError, hnext⟩
  · rw [hnext]
    apply hs.work (s.move i (.storing outcome)) i (.storing outcome) (by simp [h]) (by simp) rfl rfl id
      hs.allowed <;> grind
  · rw [hnext]
    apply hs.work (s.move i (.closing err)) i (.closing err) (by simp [h]) (by simp) rfl rfl id
      hs.allowed <;> grind

theorem Inv.loop (hs : Inv call s) (s' : State call.size Resp ε) (hworker : s'.worker = s.worker)
    (hhalt : s'.halt = s.halt) (hgroup : s'.group = s.group) (hcalls : s'.calls = s.calls)
    (hposition : s'.dispatcher.position ≤ call.size)
    (hle : s.dispatcher.position ≤ s'.dispatcher.position)
    (hentries : ∀ i : Fin call.size, i < s.dispatcher.position → s'.entries i = s.entries i)
    (hpassed : ∀ i : Fin call.size, s.dispatcher.position ≤ i → i < s'.dispatcher.position →
      s.halt = true ∧ s'.entries i = pendingEntry (call.runID i))
    (hreleasing : ∀ i, s'.dispatcher = .releasing i → s.halt = true)
    (hreturned : s'.dispatcher = .returned → s.group = 0)
    (hsem : s'.sem + s.dispatcher.slot = s.sem + s'.dispatcher.slot)
    (hbounded : s'.sem ≤ call.concurrency) : Inv call s' := by
  have hstarted : ∀ i : Fin call.size, s.worker i ≠ .unstarted → i < s.dispatcher.position := by
    grind [hs.ahead]
  constructor
  · exact hposition
  · grind [hs.ahead]
  · grind [hs.behind]
  · grind
  · grind
  · have := hs.sem
    grind
  · exact hbounded
  · exact hgroup ▸ hworker ▸ hs.group
  · exact hcalls ▸ hworker ▸ hs.calls
  · grind [hs.written]
  · exact hhalt ▸ hs.allowed
  · exact hworker ▸ hs.closing
  · exact hhalt ▸ hworker ▸ hs.announced
  · exact hworker ▸ hs.ordered
  · exact hworker ▸ hs.alone

theorem Inv.dispatch (hs : Inv call s) {i : Fin call.size} (h : s.dispatcher = .checking i)
    (hhalt : s.halt = false) : Inv call (s.dispatch i) := by
  have hposition := hs.position
  have hbounded := hs.bounded
  have hsem := hs.sem
  have hgroup := hs.group
  have hslots := tally_update Worker.slot s.worker i .spawned
  have hmembers := tally_update Worker.member s.worker i .spawned
  have hcalls : ∀ j, (s.dispatch i).calls j = s.calls j := fun _ => rfl
  have hentries : ∀ j, (s.dispatch i).entries j = s.entries j := fun _ => rfl
  have hfresh : s.worker i = .unstarted := by grind [hs.ahead]
  have hstarted : ∀ j : Fin call.size, j < i → s.worker j ≠ .unstarted := by
    intro j hj hunstarted
    have hposition : s.dispatcher.position = i := by grind
    have hclosed := (hs.behind j (hposition ▸ hj) hunstarted).1
    simp [hhalt] at hclosed
  constructor
  · grind
  · grind [hs.ahead]
  · grind
  · grind
  · grind
  · grind
  · grind
  · grind
  · grind [hs.calls]
  · grind [hs.written]
  · exact hs.allowed
  · grind [hs.closing]
  · grind [hs.announced]
  · grind [hs.ordered]
  · intro hone hhaltOnError j k hjk hk
    have hidle : tally Worker.slot s.worker = 0 := by grind
    rw [tally_eq_zero] at hidle
    by_cases hki : k = i
    · obtain ⟨outcome, hvacated, hannounced⟩ := Worker.exists_vacated (hstarted j (hki ▸ hjk)) (hidle j)
      have := hs.announced j outcome hannounced
      grind
    · have := hs.alone hone hhaltOnError j k hjk
      grind

theorem Inv.step (hs : Inv call s) (h : Step call s s') : Inv call s' := by
  have hbounded := hs.bounded
  have hsem := hs.sem
  have hgroup := hs.group
  cases h with
  | skip i h hhalt => apply hs.loop (s.skip i (call.runID i)) rfl rfl rfl rfl <;> grind
  | acquire i h hfree => apply hs.loop (s.acquire i) rfl rfl rfl rfl <;> grind
  | dispatch i h hhalt => exact hs.dispatch h hhalt
  | refuse i h hhalt => apply hs.loop (s.refuse i) rfl rfl rfl rfl <;> grind
  | release i h htaken =>
    have hhalt := hs.releasing i h
    apply hs.loop (s.release i (call.runID i)) rfl rfl rfl rfl <;> grind
  | invoke i h =>
    have hcalls := hs.calls i
    apply hs.work (s.invoke i) i .running (by simp [h]) (by simp) rfl rfl id hs.allowed <;> grind
  | settle i outcome h => exact hs.settle h outcome
  | closeHalt i err h =>
    have hcalls := hs.calls i
    have hhaltOnError := hs.closing i err h
    apply hs.work (s.closeHalt i err) i (.storing (.error err)) (by simp [h]) (by simp) rfl rfl <;> grind
  | store i outcome h =>
    have hcalls := hs.calls i
    have hannounced := hs.announced i
    apply hs.work (s.store i _ outcome) i (.stored outcome) (by simp [h]) (by simp) rfl rfl id hs.allowed <;>
      grind
  | free i outcome h htaken =>
    have hcalls := hs.calls i
    have hannounced := hs.announced i
    have hwritten := hs.written i
    apply hs.work (s.free i outcome) i (.freed outcome) (by simp [h]) (by simp) rfl rfl id hs.allowed <;>
      grind
  | leave i outcome h =>
    have hcalls := hs.calls i
    have hannounced := hs.announced i
    have hwritten := hs.written i
    have hmember := le_tally Worker.member s.worker i
    apply hs.work (s.leave i outcome) i (.finished outcome) (by simp [h]) (by simp) rfl rfl id hs.allowed <;>
      grind
  | finish h hgroup => apply hs.loop s.finish rfl rfl rfl rfl <;> grind

end Invariant

section End

variable {Resp ε : Type} {call : Call ε} {s s' : State call.size Resp ε}

def State.work {n : Nat} (s : State n Resp ε) : Nat := s.dispatcher.work + tally Worker.work s.worker

theorem Inv.returned_cases (hs : Inv call s) (h : s.dispatcher = .returned) (i : Fin call.size) :
    (s.worker i = .unstarted ∧ s.halt = true ∧ s.entries i = pendingEntry (call.runID i)) ∨
    ∃ outcome, s.worker i = .finished outcome ∧ s.entries i = call.entryOf (call.runID i) outcome := by
  have hmember : (s.worker i).member = 0 := by
    have hgroup := hs.group
    rw [hs.returned h, eq_comm, tally_eq_zero] at hgroup
    exact hgroup i
  cases hworker : s.worker i with
  | unstarted =>
    left
    have hposition : i < s.dispatcher.position := by rw [h]; exact i.isLt
    exact ⟨rfl, hs.behind i hposition hworker⟩
  | finished outcome =>
    right
    exact ⟨outcome, rfl, hs.written i outcome (by rw [hworker, Worker.written])⟩
  | _ => simp [hworker, Worker.member] at hmember

end End

section Orderly

variable {Resp ε : Type} {call : Call ε} {s s' : State call.size Resp ε}

theorem Inv.runIDs (hs : Inv call s) (h : s.dispatcher = .returned) :
    (List.ofFn s.entries).map Entry.runID = call.runIDs := by
  have hrunID : ∀ i, (s.entries i).runID = call.runID i := by
    intro i
    rcases hs.returned_cases h i with ⟨-, -, hentry⟩ | ⟨outcome, -, hentry⟩
    · rw [hentry, pendingEntry]
    · rw [hentry]
      cases outcome <;> rfl
  have hall : Entry.runID ∘ s.entries = call.runIDs.get := funext hrunID
  rw [List.map_ofFn, hall]
  exact List.ofFn_get _

end Orderly

end Temporaless.Backfill
