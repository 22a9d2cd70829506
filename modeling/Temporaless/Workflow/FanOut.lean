import Mathlib.Data.Fintype.Card
import Temporaless.Workflow.Outcome

/-!
# Fan-out over activities

`AllActivities` starts one goroutine for each branch. A goroutine stores what its call returned and
then leaves the wait group; the caller waits for the group to be empty, looks for the first failure
that leaves the workflow in progress, and joins the failures otherwise.
-/

namespace Temporaless.FanOut

open Function

variable {outcome : UserOutcome} {n : Nat}

/-- A branch, given by the ways in which its call may end. -/
abbrev ActivityCall := UserOutcome → Prop

/-- A protobuf result in its wire form; a failed branch leaves the zero value. -/
abbrev Result := Option (List UInt8)

/-- What a branch stores for the way in which its call ended. -/
def resultOf (outcome : UserOutcome) : Result :=
  match invokeUser "AllActivities branch" outcome with
  | .ok result => result
  | .error _ => none

def failureOf (outcome : UserOutcome) : Option Err :=
  match invokeUser "AllActivities branch" outcome with
  | .ok _ => none
  | .error failure => some failure

/-- A continuation error wins; otherwise the terminal errors are joined. -/
def collect (results : List Result) (failures : List (Option Err)) : Except Err (List Result) :=
  match failures.find? (fun failure => failure.any isWorkflowContinuationError) with
  | some (some failure) => .error failure
  | _ =>
    match failures.filterMap id with
    | [] => .ok results
    | [failure] => .error failure
    | terminal => .error (joinErrors terminal)

/-- Where a spawned activity call stands. -/
inductive Branch where
  | unstarted
  | running
  | settled (outcome : UserOutcome)
  | finished (outcome : UserOutcome)

def Branch.isFinished : Branch → Bool
  | .finished _ => true
  | _ => false

/-- Where the caller of `AllActivities` is. -/
inductive Caller where
  | spawning (started : Nat)
  | returned (reply : Except Err (List Result))

structure State (n : Nat) where
  caller : Caller
  group : Nat
  branch : Fin n → Branch
  results : Fin n → Result
  failures : Fin n → Option Err

def State.initial (n : Nat) : State n where
  caller := if n = 0 then .returned (.ok []) else .spawning 0
  group := n
  branch _ := .unstarted
  results _ := none
  failures _ := none

def State.spawn {n : Nat} (s : State n) (i : Fin n) : State n :=
  { s with caller := .spawning (i + 1), branch := update s.branch i .running }

def State.settle {n : Nat} (s : State n) (i : Fin n) (outcome : UserOutcome) : State n :=
  { s with branch := update s.branch i (.settled outcome)
           results := update s.results i (resultOf outcome)
           failures := update s.failures i (failureOf outcome) }

def State.finish {n : Nat} (s : State n) (i : Fin n) (outcome : UserOutcome) : State n :=
  { s with branch := update s.branch i (.finished outcome), group := s.group - 1 }

def State.collected {n : Nat} (s : State n) : State n :=
  { s with caller := .returned (collect (List.ofFn s.results) (List.ofFn s.failures)) }

inductive Step (calls : List ActivityCall) :
    State calls.length → State calls.length → Prop where
  | spawn {s : State calls.length} (i : Fin calls.length) (h : s.caller = .spawning i) :
      Step calls s (s.spawn i)
  | settle {s : State calls.length} (i : Fin calls.length) (outcome : UserOutcome)
      (h : s.branch i = .running) (hcall : calls.get i outcome) : Step calls s (s.settle i outcome)
  | finish {s : State calls.length} (i : Fin calls.length) (outcome : UserOutcome)
      (h : s.branch i = .settled outcome) : Step calls s (s.finish i outcome)
  | wait {s : State calls.length} (h : s.caller = .spawning calls.length) (hgroup : s.group = 0) :
      Step calls s s.collected

def Reachable (calls : List ActivityCall) (s : State calls.length) : Prop :=
  Relation.ReflTransGen (Step calls) (State.initial calls.length) s

section Collect

variable {results : List Result} {failures : List (Option Err)}

end Collect

section Runs

variable {calls : List ActivityCall} {s s' : State calls.length}

def State.unfinished {n : Nat} (s : State n) : Finset (Fin n) :=
  Finset.univ.filter fun i => (s.branch i).isFinished = false

theorem mem_unfinished {s : State n} {i : Fin n} :
    i ∈ s.unfinished ↔ (s.branch i).isFinished = false := Finset.mem_filter_univ i

theorem unfinished_update {s s' : State n} {i : Fin n} {branch : Branch}
    (heq : s'.branch = update s.branch i branch)
    (h : branch.isFinished = (s.branch i).isFinished) : s'.unfinished = s.unfinished := by
  ext j
  rw [mem_unfinished, mem_unfinished, heq]
  by_cases hj : j = i
  · subst hj
    rw [update_self, h]
  · rw [update_of_ne hj]

theorem unfinished_finish (s : State n) (i : Fin n) (outcome : UserOutcome) :
    (s.finish i outcome).unfinished = s.unfinished.erase i := by
  ext j
  rw [mem_unfinished, Finset.mem_erase, mem_unfinished, State.finish]
  by_cases hj : j = i
  · subst hj
    simp [Branch.isFinished]
  · simp [hj]

/-- The wait group counts the branches that have not finished, the slots hold what the branches that
have settled returned, and a reply was made from the slots when all of them had finished. -/
structure Inv (calls : List ActivityCall) (s : State calls.length) : Prop where
  group : s.group = s.unfinished.card
  slots : ∀ i outcome, s.branch i = .settled outcome ∨ s.branch i = .finished outcome →
    calls.get i outcome ∧ s.results i = resultOf outcome ∧ s.failures i = failureOf outcome
  started : ∀ started, s.caller = .spawning started →
    started ≤ calls.length ∧ ∀ i : Fin calls.length, s.branch i = .unstarted ↔ started ≤ i
  replied : ∀ reply, s.caller = .returned reply → s.unfinished = ∅ ∧
    reply = collect (List.ofFn s.results) (List.ofFn s.failures)

theorem Inv.initial (calls : List ActivityCall) : Inv calls (State.initial calls.length) where
  group := by
    have hall : (State.initial calls.length).unfinished = Finset.univ :=
      Finset.filter_true_of_mem fun _ _ => rfl
    rw [hall, Finset.card_univ, Fintype.card_fin]
    rfl
  slots i outcome h := by
    simp [State.initial] at h
  started started h := by
    unfold State.initial at h
    simp only at h
    split at h
    · cases h
    · cases h
      simp [State.initial]
  replied reply h := by
    unfold State.initial at h
    simp only at h
    split at h
    · next hnone =>
        cases h
        have hempty : calls = [] := List.length_eq_zero_iff.1 hnone
        subst hempty
        exact ⟨rfl, rfl⟩
    · cases h

theorem isFinished_of_unfinished_empty {s : State n} (h : s.unfinished = ∅) (i : Fin n) :
    ∃ outcome, s.branch i = .finished outcome := by
  have hi : ¬ (s.branch i).isFinished = false := by
    rw [← mem_unfinished, h]
    exact Finset.notMem_empty i
  rcases hbranch : s.branch i with _ | _ | outcome | outcome
  · exact absurd (by rw [hbranch]; rfl) hi
  · exact absurd (by rw [hbranch]; rfl) hi
  · exact absurd (by rw [hbranch]; rfl) hi
  · exact ⟨outcome, rfl⟩

section

variable (hs : Inv calls s)

include hs

theorem started_update {branch : Branch} {i : Fin calls.length}
    (h : s.branch i ≠ .unstarted) (hbranch : branch ≠ .unstarted) {started : Nat}
    (hcaller : s.caller = .spawning started) (j : Fin calls.length) :
    update s.branch i branch j = .unstarted ↔ started ≤ j := by
  by_cases hj : j = i
  · subst hj
    rw [update_self, ← (hs.started started hcaller).2 j]
    exact iff_of_false hbranch h
  · rw [update_of_ne hj]
    exact (hs.started started hcaller).2 j

theorem Inv.spawn {i : Fin calls.length} (h : s.caller = .spawning i) :
    Inv calls (s.spawn i) where
  group := by
    have hi := ((hs.started i h).2 i).2 le_rfl
    rw [unfinished_update (s := s) rfl (by rw [hi]; rfl), ← hs.group]
    rfl
  slots j outcome hj := by
    by_cases hji : j = i
    · subst hji
      simp [State.spawn] at hj
    · simp only [State.spawn, update_of_ne hji] at hj
      exact hs.slots j outcome hj
  started started hstarted := by
    cases hstarted
    refine ⟨i.isLt, fun j => ?_⟩
    by_cases hji : j = i
    · subst hji
      simp [State.spawn]
    · have hne : (j : Nat) ≠ i := fun heq => hji (Fin.ext heq)
      have hle : (i : Nat) ≤ j ↔ (i : Nat) + 1 ≤ j := by omega
      simp only [State.spawn, update_of_ne hji]
      rw [(hs.started i h).2 j, hle]
  replied reply hreply := by
    cases hreply

theorem Inv.settle {i : Fin calls.length}
    (h : s.branch i = .running) (hcall : calls.get i outcome) : Inv calls (s.settle i outcome) where
  group := by
    rw [unfinished_update (s := s) rfl (by rw [h]; rfl), ← hs.group]
    rfl
  slots j outcome' hj := by
    by_cases hji : j = i
    · subst hji
      simp only [State.settle, update_self, Branch.settled.injEq, reduceCtorEq,
        or_false] at hj
      subst hj
      simp [State.settle, hcall]
    · simp only [State.settle, update_of_ne hji] at hj ⊢
      exact hs.slots j outcome' hj
  started started hstarted :=
    ⟨(hs.started started hstarted).1,
      started_update hs (by simp [h]) (by simp) hstarted⟩
  replied reply hreply := by
    -- A branch that runs has not finished, so the caller cannot have returned.
    have hfinished := isFinished_of_unfinished_empty (hs.replied reply hreply).1 i
    simp [h] at hfinished

theorem Inv.finish {i : Fin calls.length}
    (h : s.branch i = .settled outcome) : Inv calls (s.finish i outcome) where
  group := by
    have hmem : i ∈ s.unfinished := mem_unfinished.2 (by rw [h]; rfl)
    rw [unfinished_finish, Finset.card_erase_of_mem hmem, ← hs.group]
    rfl
  slots j outcome' hj := by
    by_cases hji : j = i
    · subst hji
      simp only [State.finish, update_self, Branch.finished.injEq, reduceCtorEq,
        false_or] at hj
      subst hj
      exact hs.slots j outcome (.inl h)
    · simp only [State.finish, update_of_ne hji] at hj ⊢
      exact hs.slots j outcome' hj
  started started hstarted :=
    ⟨(hs.started started hstarted).1,
      started_update hs (by simp [h]) (by simp) hstarted⟩
  replied reply hreply := by
    have hfinished := isFinished_of_unfinished_empty (hs.replied reply hreply).1 i
    simp [h] at hfinished

theorem Inv.wait (hgroup : s.group = 0) : Inv calls s.collected where
  group := hs.group
  slots := hs.slots
  started started hstarted := by
    cases hstarted
  replied reply hreply := by
    cases hreply
    have hcard : s.unfinished.card = 0 := by rw [← hs.group, hgroup]
    exact ⟨Finset.card_eq_zero.1 hcard, rfl⟩

theorem Inv.step (h : Step calls s s') : Inv calls s' := by
  cases h with
  | spawn i h => exact hs.spawn h
  | settle i outcome h hcall => exact hs.settle h hcall
  | finish i outcome h => exact hs.finish h
  | wait h hgroup => exact hs.wait hgroup

end

theorem Reachable.inv (h : Reachable calls s) : Inv calls s := by
  induction h with
  | refl => exact Inv.initial calls
  | tail _ hstep ih => exact ih.step hstep

end Runs

end Temporaless.FanOut
