import Mathlib.Data.List.AList
import Temporaless.Errors

/-!
# Cron-style dispatch

The scheduler of `cronscheduler`: its constructor, `Seed` and `Tick`. A parsed expression is known
by the instants it fires at and by its `Next` function, which answers with the zero time when it
finds no instant. The dispatcher answers each call by the calls that the tick has made before.
-/

namespace Temporaless.CronScheduler

structure Schedule where
  id : String
  expression : String

structure CronSchedule where
  Fires : Int → Prop
  horizon : Int → Int
  next : Int → Int
  next_isLeast : ∀ {t u}, t < u → u ≤ horizon t → Fires u → IsLeast {v | t < v ∧ Fires v} (next t)
  next_none : ∀ {t}, (∀ u, t < u → u ≤ horizon t → ¬ Fires u) → next t = zeroTime

/-- A schedule with its entry in the map of parsed expressions. -/
structure ParsedSchedule extends Schedule where
  spec : CronSchedule

abbrev LastFires := AList fun _ : String => Int

/-- A scheduler has no two schedules of one identifier. -/
structure Scheduler where
  schedules : List ParsedSchedule
  lastFires : LastFires
  nodup : (schedules.map (·.id)).Nodup

/-- The error of the callback, given the calls before and the fire it is called for. -/
abbrev Dispatcher := List (String × Int) → String → Int → Option Err

/-- The loop of `New` over the schedules. -/
def parseAll (parse : String → Except Err CronSchedule) : List Schedule →
    { parsed : List ParsedSchedule // (parsed.map (·.id)).Nodup } →
    Except Err { parsed : List ParsedSchedule // (parsed.map (·.id)).Nodup }
  | [], parsed => .ok parsed
  | schedule :: schedules, parsed =>
    if schedule.id = "" then .error (errorf "schedule id is required")
    else if hfresh : schedule.id ∈ parsed.val.map (·.id) then
      .error (errorf ("duplicate schedule id " ++ quoted schedule.id))
    else
      match parse schedule.expression with
      | .error err => .error (wrapf ("schedule " ++ quoted schedule.id ++ ": ") err)
      | .ok spec =>
        parseAll parse schedules ⟨parsed.val ++ [⟨schedule, spec⟩], by
          rw [List.map_append]
          exact List.nodup_append.2 ⟨parsed.property, by simp, by
            intro a ha b hb heq
            simp only [List.map_cons, List.map_nil, List.mem_singleton] at hb
            exact hfresh (by rw [← hb, ← heq]; exact ha)⟩⟩

def new (parse : String → Except Err CronSchedule) (schedules : List Schedule)
    (dispatch : Option Dispatcher) : Except Err Scheduler :=
  match dispatch with
  | none => .error (errorf "dispatcher is required")
  | some _ => (parseAll parse schedules ⟨[], List.nodup_nil⟩).map fun parsed =>
      ⟨parsed.val, ∅, parsed.property⟩

def seed (s : Scheduler) (scheduleID : String) (lastFire : Int) : Except Err Scheduler :=
  if scheduleID ∈ s.schedules.map (·.id) then
    .ok { s with lastFires := s.lastFires.insert scheduleID lastFire }
  else .error (errorf ("unknown schedule " ++ quoted scheduleID))

/-- What a tick changes, with the calls it has made. -/
structure TickState where
  lastFires : LastFires
  calls : List (String × Int)
  fired : Nat

section Tick

variable (dispatch : Dispatcher) (now : Int)

/-- The last fire after a successful dispatch of `next`. -/
def advance (lastFires : LastFires) (scheduleID : String) (next : Int) : Int :=
  match lastFires.lookup scheduleID with
  | some current => if current < next then next else current
  | none => next

/-- The state after a successful dispatch of `next`. -/
def commit (s : TickState) (scheduleID : String) (next : Int) : TickState where
  lastFires := s.lastFires.insert scheduleID (advance s.lastFires scheduleID next)
  calls := s.calls ++ [(scheduleID, next)]
  fired := s.fired + 1

def dispatchError (scheduleID : String) (next : Int) (err : Err) : Err :=
  wrapf ("schedule " ++ quoted scheduleID ++ " dispatch at " ++ rfc3339Nano next ++ ": ") err

/-- The loop over the due fires of one schedule, for at most `fuel` calls. -/
def fireLoop (schedule : ParsedSchedule) : Nat → Int → TickState → Option (Option Err × TickState)
  | fuel, next, s =>
    if now < next then some (none, s)
    else
      match fuel with
      | 0 => none
      | fuel + 1 =>
        match dispatch s.calls schedule.id next with
        | some err =>
          some (some (dispatchError schedule.id next err),
            { s with calls := s.calls ++ [(schedule.id, next)] })
        | none =>
          fireLoop schedule fuel (schedule.spec.next (advance s.lastFires schedule.id next))
            (commit s schedule.id next)

def tickOne (fuel : Nat) (schedule : ParsedSchedule) (s : TickState) :
    Option (Option Err × TickState) :=
  match s.lastFires.lookup schedule.id with
  | none => some (none, { s with lastFires := s.lastFires.insert schedule.id now })
  | some anchor => fireLoop dispatch now schedule fuel (schedule.spec.next anchor) s

def tickLoop (fuel : Nat) : List ParsedSchedule → TickState → Option (Option Err × TickState)
  | [], s => some (none, s)
  | schedule :: schedules, s =>
    match tickOne dispatch now fuel schedule s with
    | none => none
    | some (some err, s') => some (some err, s')
    | some (none, s') => tickLoop fuel schedules s'

/-- `Tick`, unless it makes more than `fuel` calls for one schedule. -/
def tick (s : Scheduler) (fuel : Nat) : Option (Option Err × TickState) :=
  tickLoop dispatch now fuel s.schedules ⟨s.lastFires, [], 0⟩

end Tick

def Scheduler.after (s : Scheduler) (t : TickState) : Scheduler :=
  { s with lastFires := t.lastFires }

def callsOf (scheduleID : String) (calls : List (String × Int)) : List Int :=
  (calls.filter (·.1 = scheduleID)).map Prod.snd

end Temporaless.CronScheduler
