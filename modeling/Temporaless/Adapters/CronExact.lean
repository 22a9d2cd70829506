import Mathlib.Algebra.Order.BigOperators.Group.List
import Temporaless.Adapters.CronScheduler

/-!
# When cron dispatch is exact

A tick walks from fire to fire by `Next`. It makes exactly the due calls as long as `Next` answers
with the next fire; the zero time, which stands for no answer, sends the loop round for ever.
-/

namespace Temporaless.CronScheduler

variable {id : String}

namespace CronSchedule

variable (c : CronSchedule) (now : Int)

/-- `Next` finds the next fire after `t`, or there is none that is due. -/
def Answers (t : Int) : Prop :=
  IsLeast {u | t < u ∧ c.Fires u} (c.next t) ∨
    (now < c.next t ∧ ∀ u, t < u → u ≤ now → ¬ c.Fires u)

/-- `Next` answers at the anchor and at every due fire after it. -/
def AnswersFrom (anchor : Int) : Prop :=
  ∀ t, t = anchor ∨ (c.Fires t ∧ anchor < t ∧ t ≤ now) → c.Answers now t

/-- The fires are the schedule's instants after `anchor` up to `last`, in order. -/
structure Dispatched (anchor last : Int) (fires : List Int) : Prop where
  increasing : fires.Pairwise (· < ·)
  mem : ∀ u, u ∈ fires ↔ c.Fires u ∧ anchor < u ∧ u ≤ last
  last_eq : last = fires.getLastD anchor

variable {c now} {t last : Int} {fires : List Int}

theorem AnswersFrom.isLeast (h : c.AnswersFrom now t) (hdue : c.next t ≤ now) :
    IsLeast {u | t < u ∧ c.Fires u} (c.next t) := by
  rcases h t (.inl rfl) with hleast | ⟨hlate, -⟩
  · exact hleast
  · omega

theorem AnswersFrom.quiet (h : c.AnswersFrom now t) (hlate : now < c.next t) :
    ∀ u, t < u → u ≤ now → ¬ c.Fires u := by
  rcases h t (.inl rfl) with hleast | ⟨-, hquiet⟩
  · intro u htu hu hfires
    have hle : c.next t ≤ u := hleast.2 ⟨htu, hfires⟩
    omega
  · exact hquiet

theorem AnswersFrom.step (h : c.AnswersFrom now t) (hdue : c.next t ≤ now) :
    c.AnswersFrom now (c.next t) := by
  have hleast := h.isLeast hdue
  have hafter : t < c.next t := hleast.1.1
  intro u hu
  apply h
  right
  rcases hu with rfl | ⟨hfires, hlt, hle⟩
  · exact ⟨hleast.1.2, hafter, hdue⟩
  · exact ⟨hfires, by omega, hle⟩

theorem Dispatched.nil (t : Int) : c.Dispatched t t [] := by
  refine ⟨List.Pairwise.nil, ?_, rfl⟩
  intro u
  simp only [List.not_mem_nil, false_iff]
  omega

theorem Dispatched.le (h : c.Dispatched t last fires) : t ≤ last := by
  rw [h.last_eq]
  rcases hlast : fires.getLast? with _ | l
  · simp [List.getLastD_eq_getLast?, hlast]
  · have hmem : l ∈ fires := List.mem_of_getLast? hlast
    have := (h.mem l).1 hmem
    simp only [List.getLastD_eq_getLast?, hlast, Option.getD_some]
    omega

theorem Dispatched.cons (hleast : IsLeast {u | t < u ∧ c.Fires u} (c.next t))
    (h : c.Dispatched (c.next t) last fires) : c.Dispatched t last (c.next t :: fires) := by
  have hafter : t < c.next t := hleast.1.1
  have hle := h.le
  refine ⟨?_, ?_, ?_⟩
  · refine List.pairwise_cons.2 ⟨?_, h.increasing⟩
    intro u hu
    exact ((h.mem u).1 hu).2.1
  · intro u
    rw [List.mem_cons, h.mem u]
    constructor
    · intro hu
      rcases hu with rfl | ⟨hfires, hlt, hlast⟩
      · exact ⟨hleast.1.2, hafter, hle⟩
      · exact ⟨hfires, by omega, hlast⟩
    · intro hu
      obtain ⟨hfires, hlt, hlast⟩ := hu
      have hfirst : c.next t ≤ u := hleast.2 ⟨hlt, hfires⟩
      rcases hfirst.eq_or_lt with heq | hlt'
      · exact .inl heq.symm
      · exact .inr ⟨hfires, hlt', hlast⟩
  · rw [h.last_eq, List.getLastD_cons]

theorem AnswersFrom.of_cons (hincreasing : (c.next t :: fires).Pairwise (· < ·))
    (hmem : ∀ u, u ∈ c.next t :: fires ↔ c.Fires u ∧ t < u ∧ u ≤ now)
    (hrest : c.AnswersFrom now (c.next t)) : c.AnswersFrom now t := by
  obtain ⟨hfirst, hafter, hdue⟩ := (hmem (c.next t)).1 List.mem_cons_self
  have hbelow : ∀ u, c.Fires u → t < u → c.next t ≤ u := by
    intro u hfires hlt
    rcases lt_or_ge now u with hlate | hle
    · omega
    · rcases List.mem_cons.1 ((hmem u).2 ⟨hfires, hlt, hle⟩) with rfl | hu
      · exact le_refl _
      · exact (List.rel_of_pairwise_cons hincreasing hu).le
  intro u hu
  rcases hu with rfl | ⟨hfires, hlt, hle⟩
  · exact .inl ⟨⟨hafter, hfirst⟩, fun v hv => hbelow v hv.2 hv.1⟩
  · apply hrest
    rcases (hbelow u hfires hlt).eq_or_lt with heq | hlt'
    · exact .inl heq.symm
    · exact .inr ⟨hfires, hlt', hle⟩

theorem AnswersFrom.of_nil (hlate : now < c.next t)
    (hmem : ∀ u, u ∈ ([] : List Int) ↔ c.Fires u ∧ t < u ∧ u ≤ now) : c.AnswersFrom now t := by
  intro u hu
  rcases hu with rfl | hu
  · refine .inr ⟨hlate, ?_⟩
    intro v hlt hle hfires
    exact List.not_mem_nil ((hmem v).2 ⟨hfires, hlt, hle⟩)
  · exact absurd ((hmem u).2 hu) List.not_mem_nil

theorem mem_tail (hincreasing : (c.next t :: fires).Pairwise (· < ·))
    (hmem : ∀ u, u ∈ c.next t :: fires ↔ c.Fires u ∧ t < u ∧ u ≤ now) (u : Int) :
    u ∈ fires ↔ c.Fires u ∧ c.next t < u ∧ u ≤ now := by
  have hafter := ((hmem (c.next t)).1 List.mem_cons_self).2.1
  constructor
  · intro hu
    obtain ⟨hfires, -, hle⟩ := (hmem u).1 (List.mem_cons_of_mem _ hu)
    exact ⟨hfires, List.rel_of_pairwise_cons hincreasing hu, hle⟩
  · intro hu
    obtain ⟨hfires, hlt, hle⟩ := hu
    rcases List.mem_cons.1 ((hmem u).2 ⟨hfires, by omega, hle⟩) with heq | hmem
    · omega
    · exact hmem

/-- From the zero time on `Next` answers exactly where it does not return the zero time. -/
theorem answers_iff_next_ne (ht : zeroTime ≤ t) (hnow : zeroTime ≤ now) :
    c.Answers now t ↔ c.next t ≠ zeroTime := by
  constructor
  · rintro (hleast | ⟨hlate, -⟩)
    · exact (ht.trans_lt hleast.1.1).ne'
    · exact (hnow.trans_lt hlate).ne'
  · intro hne
    obtain ⟨u, htu, hu, hfires⟩ : ∃ u, t < u ∧ u ≤ c.horizon t ∧ c.Fires u := by
      by_contra hnone
      exact hne (c.next_none fun u htu hu hfires => hnone ⟨u, htu, hu, hfires⟩)
    exact .inl (c.next_isLeast htu hu hfires)

theorem answersFrom_iff_next_ne (ht : zeroTime ≤ t) (hnow : zeroTime ≤ now) :
    c.AnswersFrom now t ↔ ∀ u, u = t ∨ (c.Fires u ∧ t < u ∧ u ≤ now) → c.next u ≠ zeroTime := by
  refine forall₂_congr fun u hu => answers_iff_next_ne ?_ hnow
  rcases hu with rfl | ⟨-, htu, -⟩
  · exact ht
  · exact ht.trans htu.le

end CronSchedule

section Fire

variable {dispatch : Dispatcher} {now next : Int} {schedule : ParsedSchedule} {fuel : Nat}
variable {s s' : TickState} {err : Option Err}

theorem fireLoop_late (h : now < next) :
    fireLoop dispatch now schedule fuel next s = some (none, s) := by
  cases fuel <;> simp [fireLoop, h]

theorem fireLoop_zero (h : next ≤ now) : fireLoop dispatch now schedule 0 next s = none := by
  simp [fireLoop, not_lt.2 h]

theorem fireLoop_error {e : Err} (h : next ≤ now) (he : dispatch s.calls schedule.id next = some e) :
    fireLoop dispatch now schedule (fuel + 1) next s =
      some (some (dispatchError schedule.id next e),
        { s with calls := s.calls ++ [(schedule.id, next)] }) := by
  simp [fireLoop, not_lt.2 h, he]

theorem fireLoop_ok (h : next ≤ now) (he : dispatch s.calls schedule.id next = none) :
    fireLoop dispatch now schedule (fuel + 1) next s =
      fireLoop dispatch now schedule fuel
        (schedule.spec.next (advance s.lastFires schedule.id next)) (commit s schedule.id next) := by
  rw [fireLoop]
  simp [not_lt.2 h, he]

/-- The runs of the loop that return: the next fire is not due, its call fails, or its call succeeds
and the loop goes on. -/
inductive FireRun (dispatch : Dispatcher) (now : Int) (schedule : ParsedSchedule) :
    Int → TickState → Option Err → TickState → Prop where
  | late {next : Int} {s : TickState} (hlate : now < next) :
      FireRun dispatch now schedule next s none s
  | failed {next : Int} {s : TickState} {e : Err} (hdue : next ≤ now)
      (he : dispatch s.calls schedule.id next = some e) :
      FireRun dispatch now schedule next s (some (dispatchError schedule.id next e))
        { s with calls := s.calls ++ [(schedule.id, next)] }
  | fired {next : Int} {s s' : TickState} {err : Option Err} (hdue : next ≤ now)
      (he : dispatch s.calls schedule.id next = none)
      (h : FireRun dispatch now schedule
        (schedule.spec.next (advance s.lastFires schedule.id next)) (commit s schedule.id next) err s') :
      FireRun dispatch now schedule next s err s'

theorem fireRun_of_fireLoop (h : fireLoop dispatch now schedule fuel next s = some (err, s')) :
    FireRun dispatch now schedule next s err s' := by
  induction fuel generalizing next s with
  | zero =>
    rcases lt_or_ge now next with hlate | hdue
    · rw [fireLoop_late hlate] at h
      cases h
      exact .late hlate
    · rw [fireLoop_zero hdue] at h
      cases h
  | succ fuel ih =>
    rcases lt_or_ge now next with hlate | hdue
    · rw [fireLoop_late hlate] at h
      cases h
      exact .late hlate
    · rcases hdispatch : dispatch s.calls schedule.id next with _ | e
      · rw [fireLoop_ok hdue hdispatch] at h
        exact .fired hdue hdispatch (ih h)
      · rw [fireLoop_error hdue hdispatch] at h
        cases h
        exact .failed hdue hdispatch

theorem advance_eq {t : Int} (h : s.lastFires.lookup schedule.id = some t) (hlt : t < next) :
    advance s.lastFires schedule.id next = next := by
  simp [advance, h, hlt]

theorem lookup_commit {t : Int} (h : s.lastFires.lookup schedule.id = some t) (hlt : t < next) :
    (commit s schedule.id next).lastFires.lookup schedule.id = some next := by
  rw [commit, AList.lookup_insert, advance_eq h hlt]

theorem callsOf_append (id : String) (calls calls' : List (String × Int)) :
    callsOf id (calls ++ calls') = callsOf id calls ++ callsOf id calls' := by
  simp [callsOf]

theorem callsOf_map (id : String) (fires : List Int) :
    callsOf id (fires.map fun t => (id, t)) = fires := by
  induction fires with
  | nil => rfl
  | cons t fires ih =>
    simp only [callsOf] at ih ⊢
    simp [ih]

@[simp] theorem callsOf_self (id : String) (t : Int) : callsOf id [(id, t)] = [t] := by
  simp [callsOf]

theorem callsOf_ne {id' : String} (h : id' ≠ id) (t : Int) : callsOf id' [(id, t)] = [] := by
  simp [callsOf, h.symm]

structure Same (id : String) (s s' : TickState) : Prop where
  lastFires : s'.lastFires.lookup id = s.lastFires.lookup id
  calls : callsOf id s'.calls = callsOf id s.calls

theorem Same.refl (id : String) (s : TickState) : Same id s s := ⟨rfl, rfl⟩

theorem Same.trans {s s' s'' : TickState} (h : Same id s s') (h' : Same id s' s'') :
    Same id s s'' := ⟨h'.lastFires.trans h.lastFires, h'.calls.trans h.calls⟩

theorem same_commit (h : id ≠ schedule.id) : Same id s (commit s schedule.id next) := by
  constructor
  · rw [commit, AList.lookup_insert_ne h]
  · rw [commit, callsOf_append, callsOf_ne h, List.append_nil]

theorem FireRun.same (h : FireRun dispatch now schedule next s err s') (hid : id ≠ schedule.id) :
    Same id s s' := by
  induction h with
  | late _ => exact .refl id _
  | failed _ _ =>
    refine ⟨rfl, ?_⟩
    rw [callsOf_append, callsOf_ne hid, List.append_nil]
  | fired _ _ _ ih => exact (same_commit hid).trans ih

theorem callsOf_commit (fires : List Int) :
    callsOf schedule.id (commit s schedule.id next).calls ++ fires =
      callsOf schedule.id s.calls ++ next :: fires := by
  rw [commit, callsOf_append, callsOf_self, List.append_assoc, List.singleton_append]

theorem FireRun.calls (h : FireRun dispatch now schedule next s err s') :
    ∃ fires, callsOf schedule.id s'.calls = callsOf schedule.id s.calls ++ fires ∧
      (next ≤ now → ∃ rest, fires = next :: rest) := by
  induction h with
  | late _ => exact ⟨[], by simp, by omega⟩
  | @failed next s _ _ _ =>
    refine ⟨[next], ?_, fun _ => ⟨[], rfl⟩⟩
    rw [callsOf_append, callsOf_self]
  | @fired next s _ _ _ _ _ ih =>
    obtain ⟨fires, hcalls, -⟩ := ih
    exact ⟨next :: fires, hcalls.trans (callsOf_commit fires), fun _ => ⟨fires, rfl⟩⟩

theorem fireLoop_spec {t : Int} (hanswers : schedule.spec.AnswersFrom now t)
    (hlast : s.lastFires.lookup schedule.id = some t)
    (h : fireLoop dispatch now schedule fuel (schedule.spec.next t) s = some (err, s')) :
    ∃ last fires, schedule.spec.Dispatched t last fires ∧
      (last = t ∨ last ≤ now) ∧ s'.lastFires.lookup schedule.id = some last ∧
      ((err = none ∧ s'.calls = s.calls ++ fires.map (fun u => (schedule.id, u)) ∧
          ∀ u, last < u → u ≤ now → ¬ schedule.spec.Fires u) ∨
        (err ≠ none ∧ s'.calls = s.calls ++
            (fires ++ [schedule.spec.next last]).map (fun u => (schedule.id, u)) ∧
          schedule.spec.next last ≤ now ∧
          IsLeast {u | last < u ∧ schedule.spec.Fires u} (schedule.spec.next last))) := by
  replace h := fireRun_of_fireLoop h
  generalize hnext : schedule.spec.next t = next at h
  induction h generalizing t with
  | late hlate =>
    subst hnext
    exact ⟨t, [], .nil t, .inl rfl, hlast, .inl ⟨rfl, by simp, hanswers.quiet hlate⟩⟩
  | failed hdue _ =>
    subst hnext
    exact ⟨t, [], .nil t, .inl rfl, hlast, .inr ⟨by simp, by simp, hdue, hanswers.isLeast hdue⟩⟩
  | fired hdue _ _ ih =>
    subst hnext
    have hleast := hanswers.isLeast hdue
    rw [advance_eq hlast hleast.1.1] at ih
    obtain ⟨last, fires, hfires, hle, hl, hend⟩ :=
      ih (hanswers.step hdue) (lookup_commit hlast hleast.1.1) rfl
    refine ⟨last, schedule.spec.next t :: fires, hfires.cons hleast, ?_, hl, ?_⟩
    · omega
    rcases hend with ⟨herr, hcalls, hquiet⟩ | ⟨herr, hcalls, hnow, hnext⟩
    · refine .inl ⟨herr, ?_, hquiet⟩
      rw [hcalls, commit]
      simp
    · refine .inr ⟨herr, ?_, hnow, hnext⟩
      rw [hcalls, commit]
      simp

theorem fireLoop_terminates {t : Int} (hanswers : schedule.spec.AnswersFrom now t)
    (hlast : s.lastFires.lookup schedule.id = some t) (hfuel : (now - t).toNat ≤ fuel) :
    ∃ r, fireLoop dispatch now schedule fuel (schedule.spec.next t) s = some r := by
  induction fuel generalizing t s with
  | zero =>
    have hlate : now < schedule.spec.next t := by
      by_contra hdue
      have := (hanswers.isLeast (not_lt.1 hdue)).1.1
      omega
    exact ⟨_, fireLoop_late hlate⟩
  | succ fuel ih =>
    rcases lt_or_ge now (schedule.spec.next t) with hlate | hdue
    · exact ⟨_, fireLoop_late hlate⟩
    · have hafter : t < schedule.spec.next t := (hanswers.isLeast hdue).1.1
      rcases hdispatch : dispatch s.calls schedule.id (schedule.spec.next t) with _ | e
      · rw [fireLoop_ok hdue hdispatch, advance_eq hlast hafter]
        exact ih (hanswers.step hdue) (lookup_commit hlast hafter) (by omega)
      · exact ⟨_, fireLoop_error hdue hdispatch⟩

def alwaysSucceeds : Dispatcher := fun _ _ _ => none

theorem answersFrom_of_fireLoop {t : Int} {fires : List Int}
    (hlast : s.lastFires.lookup schedule.id = some t)
    (h : fireLoop alwaysSucceeds now schedule fuel (schedule.spec.next t) s = some (err, s'))
    (hcalls : callsOf schedule.id s'.calls = callsOf schedule.id s.calls ++ fires)
    (hincreasing : fires.Pairwise (· < ·))
    (hmem : ∀ u, u ∈ fires ↔ schedule.spec.Fires u ∧ t < u ∧ u ≤ now) :
    schedule.spec.AnswersFrom now t := by
  replace h := fireRun_of_fireLoop h
  generalize hnext : schedule.spec.next t = next at h
  induction h generalizing t fires with
  | late hlate =>
    rw [List.self_eq_append_right] at hcalls
    subst hcalls hnext
    exact .of_nil hlate hmem
  | failed _ he => cases he
  | fired hdue he h ih =>
    obtain ⟨made, hmade, hfirst⟩ := (FireRun.fired hdue he h).calls
    obtain ⟨rest, rfl⟩ := hfirst hdue
    obtain rfl := List.append_cancel_left (hcalls.symm.trans hmade)
    subst hnext
    obtain ⟨-, hafter, -⟩ := (hmem _).1 List.mem_cons_self
    rw [advance_eq hlast hafter] at ih
    exact .of_cons hincreasing hmem (ih (lookup_commit hlast hafter)
      (hcalls.trans (callsOf_commit rest).symm) hincreasing.of_cons
      (CronSchedule.mem_tail hincreasing hmem) rfl)

end Fire

section Tick

variable {dispatch : Dispatcher} {now : Int} {schedule : ParsedSchedule} {fuel : Nat}
variable {schedules : List ParsedSchedule} {s s' : TickState} {err : Option Err}

theorem tickOne_same (hid : id ≠ schedule.id)
    (h : tickOne dispatch now fuel schedule s = some (err, s')) : Same id s s' := by
  rcases hanchor : s.lastFires.lookup schedule.id with _ | anchor
  · rw [tickOne, hanchor] at h
    cases h
    exact ⟨AList.lookup_insert_ne hid, rfl⟩
  · rw [tickOne, hanchor] at h
    exact (fireRun_of_fireLoop h).same hid

theorem tickLoop_cons (h : tickLoop dispatch now fuel (schedule :: schedules) s = some (err, s')) :
    (err ≠ none ∧ tickOne dispatch now fuel schedule s = some (err, s')) ∨
      ∃ s₁, tickOne dispatch now fuel schedule s = some (none, s₁) ∧
        tickLoop dispatch now fuel schedules s₁ = some (err, s') := by
  rw [tickLoop] at h
  rcases hone : tickOne dispatch now fuel schedule s with _ | ⟨e, s₁⟩
  · rw [hone] at h
    cases h
  · rw [hone] at h
    cases e with
    | some e =>
      cases h
      exact .inl ⟨by simp, rfl⟩
    | none => exact .inr ⟨s₁, rfl, h⟩

theorem tickLoop_same (hid : ∀ schedule ∈ schedules, id ≠ schedule.id)
    (h : tickLoop dispatch now fuel schedules s = some (err, s')) : Same id s s' := by
  induction schedules generalizing s with
  | nil =>
    cases h
    exact .refl id _
  | cons first schedules ih =>
    have hfirst := hid first List.mem_cons_self
    rcases tickLoop_cons h with ⟨-, hone⟩ | ⟨s₁, hone, hrest⟩
    · exact tickOne_same hfirst hone
    · have htail := ih (fun schedule hmem => hid schedule (List.mem_cons_of_mem first hmem)) hrest
      exact (tickOne_same hfirst hone).trans htail

theorem tickLoop_serves (hnodup : (schedules.map (·.id)).Nodup)
    (h : tickLoop dispatch now fuel schedules s = some (err, s')) (hmem : schedule ∈ schedules) :
    (∃ s₁ s₂ e, Same schedule.id s s₁ ∧ tickOne dispatch now fuel schedule s₁ = some (e, s₂) ∧
        Same schedule.id s₂ s' ∧ (err = none → e = none)) ∨
      (err ≠ none ∧ Same schedule.id s s') := by
  induction schedules generalizing s with
  | nil => cases hmem
  | cons first schedules ih =>
    obtain ⟨hfresh, hnodup⟩ := List.nodup_cons.1 hnodup
    rcases List.mem_cons.1 hmem with rfl | hmem
    · left
      rcases tickLoop_cons h with ⟨herr, hone⟩ | ⟨s₁, hone, hrest⟩
      · exact ⟨s, s', err, .refl _ s, hone, .refl _ s', fun h => h⟩
      · have hid : ∀ other ∈ schedules, schedule.id ≠ other.id := by
          intro other hother heq
          exact hfresh (List.mem_map.2 ⟨other, hother, heq.symm⟩)
        exact ⟨s, s₁, none, .refl _ s, hone, tickLoop_same hid hrest, fun _ => rfl⟩
    · have hid : schedule.id ≠ first.id := by
        intro heq
        exact hfresh (List.mem_map.2 ⟨schedule, hmem, heq⟩)
      rcases tickLoop_cons h with ⟨herr, hone⟩ | ⟨s₁, hone, hrest⟩
      · exact .inr ⟨herr, tickOne_same hid hone⟩
      · have hsame := tickOne_same hid hone
        rcases ih hnodup hrest hmem with ⟨s₂, s₃, e, hbefore, hserved, hafter, herr⟩ | ⟨herr, hrest⟩
        · exact .inl ⟨s₂, s₃, e, hsame.trans hbefore, hserved, hafter, herr⟩
        · exact .inr ⟨herr, hsame.trans hrest⟩

theorem tickLoop_fails {e : Err} (hnodup : (schedules.map (·.id)).Nodup)
    (h : tickLoop dispatch now fuel schedules s = some (some e, s')) :
    ∃ schedule ∈ schedules, ∃ s₁, Same schedule.id s s₁ ∧
      tickOne dispatch now fuel schedule s₁ = some (some e, s') := by
  induction schedules generalizing s with
  | nil => cases h
  | cons first schedules ih =>
    obtain ⟨hfresh, hnodup⟩ := List.nodup_cons.1 hnodup
    rcases tickLoop_cons h with ⟨-, hone⟩ | ⟨s₁, hone, hrest⟩
    · exact ⟨first, List.mem_cons_self, s, .refl _ s, hone⟩
    · obtain ⟨schedule, hmem, s₂, hsame, hserved⟩ := ih hnodup hrest
      have hid : schedule.id ≠ first.id := by
        intro heq
        exact hfresh (List.mem_map.2 ⟨schedule, hmem, heq⟩)
      exact ⟨schedule, List.mem_cons_of_mem first hmem, s₂, (tickOne_same hid hone).trans hsame,
        hserved⟩

theorem tickLoop_terminates (hnodup : (schedules.map (·.id)).Nodup)
    (h : ∀ schedule ∈ schedules, ∀ s₁, Same schedule.id s s₁ →
      ∃ r, tickOne dispatch now fuel schedule s₁ = some r) :
    ∃ r, tickLoop dispatch now fuel schedules s = some r := by
  induction schedules generalizing s with
  | nil => exact ⟨_, rfl⟩
  | cons first schedules ih =>
    obtain ⟨hfresh, hnodup⟩ := List.nodup_cons.1 hnodup
    obtain ⟨⟨e, s₁⟩, hone⟩ := h first List.mem_cons_self s (.refl _ s)
    rw [tickLoop, hone]
    cases e with
    | some e => exact ⟨_, rfl⟩
    | none =>
      apply ih hnodup
      intro schedule hmem s₂ hsame
      have hid : schedule.id ≠ first.id := by
        intro heq
        exact hfresh (List.mem_map.2 ⟨schedule, hmem, heq⟩)
      exact h schedule (List.mem_cons_of_mem first hmem) s₂ ((tickOne_same hid hone).trans hsame)

theorem tickOne_of_anchor {anchor : Int} (h : s.lastFires.lookup schedule.id = some anchor) :
    tickOne dispatch now fuel schedule s =
      fireLoop dispatch now schedule fuel (schedule.spec.next anchor) s := by
  rw [tickOne, h]

theorem callsOf_of_unseeded (hnodup : (schedules.map (·.id)).Nodup)
    (h : tickLoop dispatch now fuel schedules s = some (err, s'))
    (hid : id ∈ schedules.map (·.id) → s.lastFires.lookup id = none) :
    callsOf id s'.calls = callsOf id s.calls := by
  by_cases hmem : id ∈ schedules.map (·.id)
  · obtain ⟨schedule, hschedule, rfl⟩ := List.mem_map.1 hmem
    rcases tickLoop_serves hnodup h hschedule with ⟨s₁, s₂, e, hbefore, hserved, hafter, -⟩ | ⟨-, hsame⟩
    · have hnone : s₁.lastFires.lookup schedule.id = none := by
        rw [hbefore.lastFires, hid hmem]
      rw [tickOne, hnone] at hserved
      cases hserved
      exact hafter.calls.trans hbefore.calls
    · exact hsame.calls
  · refine (tickLoop_same ?_ h).calls
    intro schedule hschedule heq
    exact hmem (List.mem_map.2 ⟨schedule, hschedule, heq.symm⟩)

end Tick

/-- With a callback that never fails the tick returns, and for each seeded schedule it has called
exactly the fires after the anchor up to the present, in order, and stored the last of them. -/
def Exact (s : Scheduler) (now : Int) : Prop :=
  ∃ fuel t, tick alwaysSucceeds now s fuel = some (none, t) ∧
    (∀ id, (id ∈ s.schedules.map (·.id) → s.lastFires.lookup id = none) → callsOf id t.calls = []) ∧
    ∀ schedule ∈ s.schedules, ∀ anchor, s.lastFires.lookup schedule.id = some anchor →
      (callsOf schedule.id t.calls).Pairwise (· < ·) ∧
      (∀ u, u ∈ callsOf schedule.id t.calls ↔ schedule.spec.Fires u ∧ anchor < u ∧ u ≤ now) ∧
      t.lastFires.lookup schedule.id = some ((callsOf schedule.id t.calls).getLastD anchor)

/-- A tick that fails at a fire has committed all fires before it, and every later tick that
serves the schedule starts with that fire. -/
def Resumes (s : Scheduler) (now : Int) : Prop :=
  ∀ dispatch fuel err t, tick dispatch now s fuel = some (some err, t) →
    ∃ schedule ∈ s.schedules, ∃ anchor last fires fire,
      s.lastFires.lookup schedule.id = some anchor ∧
      callsOf schedule.id t.calls = fires ++ [fire] ∧
      schedule.spec.Dispatched anchor last fires ∧
      t.lastFires.lookup schedule.id = some last ∧
      IsLeast {u | last < u ∧ schedule.spec.Fires u} fire ∧
      ∀ dispatch' now' fuel' err' t', fire ≤ now' →
        tick dispatch' now' (s.after t) fuel' = some (err', t') →
          (∃ rest, callsOf schedule.id t'.calls = fire :: rest) ∨
            (err' ≠ none ∧ callsOf schedule.id t'.calls = [])

section Exactness

variable {s : Scheduler} {now : Int}

theorem answersFrom_of_exact (h : Exact s now) {schedule : ParsedSchedule}
    (hmem : schedule ∈ s.schedules) {anchor : Int}
    (hanchor : s.lastFires.lookup schedule.id = some anchor) :
    schedule.spec.AnswersFrom now anchor := by
  obtain ⟨fuel, t, htick, -, hexact⟩ := h
  obtain ⟨hincreasing, hdue, -⟩ := hexact schedule hmem anchor hanchor
  rcases tickLoop_serves s.nodup htick hmem with ⟨s₁, s₂, e, hbefore, hserved, hafter, -⟩ | ⟨herr, -⟩
  · have hlast : s₁.lastFires.lookup schedule.id = some anchor := hbefore.lastFires.trans hanchor
    rw [tickOne_of_anchor hlast] at hserved
    have hcalls : callsOf schedule.id s₂.calls =
        callsOf schedule.id s₁.calls ++ callsOf schedule.id t.calls := by
      rw [hbefore.calls, ← hafter.calls]
      rfl
    exact answersFrom_of_fireLoop hlast hserved hcalls hincreasing hdue
  · exact absurd rfl herr

theorem FireRun.succeeds {schedule : ParsedSchedule} {next : Int} {err : Option Err}
    {t t' : TickState} (h : FireRun alwaysSucceeds now schedule next t err t') : err = none := by
  induction h with
  | late _ => rfl
  | failed _ he => cases he
  | fired _ _ _ ih => exact ih

theorem tick_succeeds {fuel : Nat} {err : Option Err} {t : TickState}
    (h : tick alwaysSucceeds now s fuel = some (err, t)) : err = none := by
  cases err with
  | none => rfl
  | some e =>
    obtain ⟨schedule, -, s₁, -, hserved⟩ := tickLoop_fails s.nodup h
    rcases hanchor : s₁.lastFires.lookup schedule.id with _ | anchor
    · rw [tickOne, hanchor] at hserved
      cases hserved
    · rw [tickOne_of_anchor hanchor] at hserved
      exact (fireRun_of_fireLoop hserved).succeeds

variable (h : ∀ schedule ∈ s.schedules, ∀ anchor,
  s.lastFires.lookup schedule.id = some anchor → schedule.spec.AnswersFrom now anchor)

include h

theorem tick_terminates (dispatch : Dispatcher) : ∃ fuel r, tick dispatch now s fuel = some r := by
  -- No schedule needs more calls than there are instants since its anchor.
  let needed : ParsedSchedule → Nat := fun schedule =>
    (now - (s.lastFires.lookup schedule.id).getD now).toNat
  refine ⟨(s.schedules.map needed).sum, tickLoop_terminates s.nodup ?_⟩
  intro schedule hmem s₁ hsame
  have hle : needed schedule ≤ (s.schedules.map needed).sum :=
    List.le_sum_of_mem (List.mem_map_of_mem hmem)
  have hlookup : s₁.lastFires.lookup schedule.id = s.lastFires.lookup schedule.id := hsame.lastFires
  rcases hanchor : s.lastFires.lookup schedule.id with _ | anchor
  · rw [tickOne, hlookup, hanchor]
    exact ⟨_, rfl⟩
  · rw [tickOne_of_anchor (hlookup.trans hanchor)]
    apply fireLoop_terminates (h schedule hmem anchor hanchor) (hlookup.trans hanchor)
    simpa [needed, hanchor] using hle

theorem exact_of_answersFrom : Exact s now := by
  obtain ⟨fuel, ⟨err, t⟩, htick⟩ := tick_terminates h alwaysSucceeds
  obtain rfl := tick_succeeds htick
  refine ⟨fuel, t, htick, ?_, ?_⟩
  · intro id hid
    exact callsOf_of_unseeded s.nodup htick hid
  · intro schedule hmem anchor hanchor
    rcases tickLoop_serves s.nodup htick hmem with
      ⟨s₁, s₂, e, hbefore, hserved, hafter, hnone⟩ | ⟨herr, -⟩
    · have hlast : s₁.lastFires.lookup schedule.id = some anchor := hbefore.lastFires.trans hanchor
      obtain rfl := hnone rfl
      rw [tickOne_of_anchor hlast] at hserved
      obtain ⟨last, fires, hfires, hle, hstored, hend⟩ :=
        fireLoop_spec (h schedule hmem anchor hanchor) hlast hserved
      rcases hend with ⟨-, hcalls, hquiet⟩ | ⟨herr, -⟩
      · have hmade : callsOf schedule.id t.calls = fires := by
          rw [hafter.calls, hcalls, callsOf_append, callsOf_map, hbefore.calls]
          rfl
        rw [hmade]
        refine ⟨hfires.increasing, ?_, ?_⟩
        · intro u
          rw [hfires.mem u]
          constructor
          · intro hu
            refine ⟨hu.1, hu.2.1, ?_⟩
            omega
          · intro hu
            refine ⟨hu.1, hu.2.1, ?_⟩
            by_contra hlate
            exact hquiet u (by omega) hu.2.2 hu.1
        · rw [hafter.lastFires, hstored, hfires.last_eq]
      · exact absurd rfl herr
    · exact absurd rfl herr

theorem resumes_of_answersFrom : Resumes s now := by
  intro dispatch fuel err t htick
  obtain ⟨schedule, hmem, s₁, hbefore, hserved⟩ := tickLoop_fails s.nodup htick
  rcases hanchor : s.lastFires.lookup schedule.id with _ | anchor
  · rw [tickOne, hbefore.lastFires.trans hanchor] at hserved
    cases hserved
  · have hlast : s₁.lastFires.lookup schedule.id = some anchor := hbefore.lastFires.trans hanchor
    rw [tickOne_of_anchor hlast] at hserved
    obtain ⟨last, fires, hfires, -, hstored, hend⟩ :=
      fireLoop_spec (h schedule hmem anchor hanchor) hlast hserved
    rcases hend with ⟨herr, -⟩ | ⟨-, hcalls, -, hleast⟩
    · cases herr
    · refine ⟨schedule, hmem, anchor, last, fires, schedule.spec.next last, hanchor, ?_, hfires,
        hstored, hleast, ?_⟩
      · rw [hcalls, callsOf_append, callsOf_map, hbefore.calls]
        rfl
      · intro dispatch' now' fuel' err' t' hdue htick'
        rcases tickLoop_serves s.nodup htick' hmem with
          ⟨s₂, s₃, e, hbefore', hserved', hafter', -⟩ | ⟨herr, hsame⟩
        · left
          rw [tickOne_of_anchor (hbefore'.lastFires.trans hstored)] at hserved'
          obtain ⟨made, hmade, hfirst⟩ := (fireRun_of_fireLoop hserved').calls
          obtain ⟨rest, rfl⟩ := hfirst hdue
          refine ⟨rest, ?_⟩
          rw [hafter'.calls, hmade, hbefore'.calls]
          rfl
        · exact .inr ⟨herr, hsame.calls⟩

omit h

/-- Dispatch is exact and resumes after a failure if and only if `Next` answers at the anchor of
every seeded schedule and at each of its due fires. -/
theorem tick_exact_iff (s : Scheduler) (now : Int) :
    (Exact s now ∧ Resumes s now) ↔ ∀ schedule ∈ s.schedules, ∀ anchor,
      s.lastFires.lookup schedule.id = some anchor → schedule.spec.AnswersFrom now anchor := by
  constructor
  · intro hexact schedule hmem anchor hanchor
    exact answersFrom_of_exact hexact.1 hmem hanchor
  · intro hanswers
    exact ⟨exact_of_answersFrom hanswers, resumes_of_answersFrom hanswers⟩

end Exactness

def minute : Int := 60 * nanosPerSecond

theorem isLeast_minute (t : Int) :
    IsLeast {v | t < v ∧ v % minute = 0} ((t / minute + 1) * minute) := by
  refine ⟨⟨?_, ?_⟩, ?_⟩
  · simp only [minute, nanosPerSecond]
    omega
  · simp [minute, nanosPerSecond]
  · rintro v ⟨htv, hv⟩
    simp only [minute, nanosPerSecond] at hv ⊢
    omega

theorem minute_le (t : Int) : (t / minute + 1) * minute ≤ t + 5 * 366 * 86400 * nanosPerSecond := by
  simp only [minute, nanosPerSecond]
  omega

def everyMinute : CronSchedule where
  Fires u := u % minute = 0
  horizon t := t + 5 * 366 * 86400 * nanosPerSecond
  next t := (t / minute + 1) * minute
  next_isLeast {t _} _ _ _ := isLeast_minute t
  next_none {t} h := absurd (isLeast_minute t).1.2 (h _ (isLeast_minute t).1.1 (minute_le t))

/-- Whatever is dispatched every minute is dispatched exactly. -/
theorem tick_exact_everyMinute {s : Scheduler} {now : Int} (hnow : zeroTime ≤ now)
    (hanchors : ∀ id anchor, s.lastFires.lookup id = some anchor → zeroTime ≤ anchor)
    (hspec : ∀ schedule ∈ s.schedules, schedule.spec = everyMinute) : Exact s now ∧ Resumes s now := by
  have hanswers : ∀ schedule ∈ s.schedules, ∀ anchor,
      s.lastFires.lookup schedule.id = some anchor → schedule.spec.AnswersFrom now anchor := by
    intro schedule hmem anchor hanchor
    have hzero := hanchors _ _ hanchor
    rw [hspec schedule hmem, CronSchedule.answersFrom_iff_next_ne hzero hnow]
    intro u hu hnext
    simp only [everyMinute, minute, nanosPerSecond] at hu hnext
    omega
  exact ⟨exact_of_answersFrom hanswers, resumes_of_answersFrom hanswers⟩

/-- The thirtieth of February, with a search of five years. -/
def february30 : CronSchedule where
  Fires _ := False
  horizon t := t + 5 * 366 * 86400 * nanosPerSecond
  next _ := zeroTime
  next_isLeast _ _ h := h.elim
  next_none _ := rfl

theorem fireLoop_endless {now t : Int} {schedule : ParsedSchedule} (fuel : Nat)
    {s : TickState} (hnext : schedule.spec.next t = zeroTime) (hnow : zeroTime ≤ now)
    (ht : zeroTime ≤ t) (hlast : s.lastFires.lookup schedule.id = some t) :
    fireLoop alwaysSucceeds now schedule fuel zeroTime s = none := by
  induction fuel generalizing s with
  | zero => exact fireLoop_zero hnow
  | succ fuel ih =>
    have hstay : advance s.lastFires schedule.id zeroTime = t := by
      simp [advance, hlast, not_lt.2 ht]
    rw [fireLoop_ok hnow rfl, hstay, hnext]
    apply ih
    rw [commit, AList.lookup_insert, hstay]

/-- `New` and `Seed` accept the schedule, and the next tick does not return. -/
theorem tick_endless_february30 :
    ∃ s₀ s, new (fun _ => .ok february30) [⟨"report", "0 0 30 2 *"⟩] (some alwaysSucceeds) = .ok s₀ ∧
      seed s₀ "report" 0 = .ok s ∧ (∀ fuel, tick alwaysSucceeds 60000000000 s fuel = none) ∧
      ¬ Exact s 60000000000 := by
  let report : ParsedSchedule := ⟨⟨"report", "0 0 30 2 *"⟩, february30⟩
  let seeded : Scheduler := ⟨[report], (∅ : LastFires).insert "report" 0, by simp⟩
  have hendless : ∀ fuel, tick alwaysSucceeds 60000000000 seeded fuel = none := by
    intro fuel
    have hseed : (⟨seeded.lastFires, [], 0⟩ : TickState).lastFires.lookup report.id = some 0 :=
      AList.lookup_insert _
    have hloop : fireLoop alwaysSucceeds 60000000000 report fuel zeroTime
        ⟨seeded.lastFires, [], 0⟩ = none :=
      fireLoop_endless fuel rfl (by decide) (by decide) hseed
    have hone : tickOne alwaysSucceeds 60000000000 fuel report ⟨seeded.lastFires, [], 0⟩ = none := by
      rw [tickOne_of_anchor hseed]
      exact hloop
    change tickLoop alwaysSucceeds 60000000000 fuel [report] ⟨seeded.lastFires, [], 0⟩ = none
    rw [tickLoop, hone]
  refine ⟨⟨[report], ∅, by simp⟩, seeded, rfl, rfl, hendless, ?_⟩
  intro hexact
  obtain ⟨fuel, t, htick, -⟩ := hexact
  rw [hendless fuel] at htick
  cases htick

end Temporaless.CronScheduler
