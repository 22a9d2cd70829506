import Mathlib.Tactic.Ring

/-!
# Instants, durations and their protobuf messages

Instants are nanoseconds since the Unix epoch and durations are nanoseconds, both in `Int`. The
protobuf messages may hold values that no instant or duration has, which is why every reader checks
them first.
-/

namespace Temporaless

def nanosPerSecond : Int := 1000000000

def minInt64 : Int := -9223372036854775808

def maxInt64 : Int := 9223372036854775807

/-- `time.Time{}`, the first instant of year one. -/
def zeroTime : Int := -62135596800 * nanosPerSecond

/-- A `google.protobuf.Timestamp`. -/
structure Timestamp where
  seconds : Int
  nanos : Int
  deriving DecidableEq, Repr

namespace Timestamp

/-- `CheckValid`: within the years 1 to 9999, with non-negative nanoseconds. -/
def checkValid (t : Timestamp) : Bool :=
  decide (-62135596800 ≤ t.seconds ∧ t.seconds ≤ 253402300799 ∧ 0 ≤ t.nanos ∧
    t.nanos ≤ 999999999)

def asTime (t : Timestamp) : Int := t.seconds * nanosPerSecond + t.nanos

def new (t : Int) : Timestamp := ⟨t / nanosPerSecond, t % nanosPerSecond⟩

@[simp] theorem asTime_new (t : Int) : (new t).asTime = t := by
  have h := Int.mul_ediv_add_emod t nanosPerSecond
  simp only [asTime, new]
  rw [Int.mul_comm]
  exact h

/-- `AsTime` of fields that were never checked, in nanoseconds of the year 1: `time.Unix` brings the
nanoseconds into one second, and the seconds wrap around at 64 bits. -/
def instant (t : Timestamp) : Int :=
  Int.bmod (t.seconds + t.nanos / nanosPerSecond + 62135596800) (2 ^ 64) * nanosPerSecond +
    t.nanos % nanosPerSecond

def InRange (t : Int) : Prop := zeroTime ≤ t ∧ t < 253402300800 * nanosPerSecond

theorem checkValid_new {t : Int} (h : InRange t) : (new t).checkValid = true := by
  simp only [InRange, zeroTime, nanosPerSecond] at h
  rw [checkValid, decide_eq_true_eq]
  simp only [new, nanosPerSecond]
  omega

end Timestamp

/-- A `google.protobuf.Duration`. -/
structure DurationMessage where
  seconds : Int
  nanos : Int
  deriving DecidableEq, Repr

namespace DurationMessage

/-- `CheckValid`: at most ten thousand years, both parts of the same sign. -/
def checkValid (d : DurationMessage) : Bool :=
  decide (-315576000000 ≤ d.seconds ∧ d.seconds ≤ 315576000000 ∧ -999999999 ≤ d.nanos ∧
    d.nanos ≤ 999999999 ∧ ¬(0 < d.seconds ∧ d.nanos < 0) ∧ ¬(d.seconds < 0 ∧ 0 < d.nanos))

/-- `AsDuration`, which clamps to the range of `time.Duration`. -/
def asDuration (d : DurationMessage) : Int :=
  let whole := d.seconds * nanosPerSecond
  if maxInt64 < whole then maxInt64
  else if whole < minInt64 then minInt64
  else min maxInt64 (max minInt64 (whole + d.nanos))

def new (d : Int) : DurationMessage :=
  ⟨d.tdiv nanosPerSecond, d.tmod nanosPerSecond⟩

/-- The durations that Go's `time.Duration` can hold. -/
def InRange (d : Int) : Prop := minInt64 ≤ d ∧ d ≤ maxInt64

theorem asDuration_inRange (d : DurationMessage) : InRange d.asDuration := by
  simp only [asDuration]
  split
  · exact ⟨by decide, le_refl _⟩
  · split
    · exact ⟨le_refl _, by decide⟩
    · simp only [InRange, minInt64, maxInt64]
      omega

private theorem parts_new (d : Int) : (new d).seconds * 1000000000 + (new d).nanos = d ∧
    (0 ≤ d ∧ 0 ≤ (new d).seconds ∧ 0 ≤ (new d).nanos ∧ (new d).nanos < 1000000000 ∨
      d ≤ 0 ∧ (new d).seconds ≤ 0 ∧ (new d).nanos ≤ 0 ∧ -1000000000 < (new d).nanos) := by
  have hd := Int.mul_tdiv_add_tmod d nanosPerSecond
  refine ⟨by simp only [new, nanosPerSecond] at *; omega, ?_⟩
  simp only [new, nanosPerSecond]
  rcases Int.le_total 0 d with hn | hn
  · have hq := Int.tdiv_nonneg hn (show (0 : Int) ≤ 1000000000 by decide)
    have hr := Int.tmod_nonneg (1000000000 : Int) hn
    have hlt := Int.tmod_lt_of_pos d (show (0 : Int) < 1000000000 by decide)
    exact Or.inl ⟨hn, hq, hr, hlt⟩
  · have hq := Int.tdiv_nonneg (show 0 ≤ -d by omega) (show (0 : Int) ≤ 1000000000 by decide)
    have hr := Int.tmod_nonneg (1000000000 : Int) (show 0 ≤ -d by omega)
    have hlt := Int.tmod_lt_of_pos (-d) (show (0 : Int) < 1000000000 by decide)
    rw [Int.neg_tdiv] at hq
    rw [Int.neg_tmod] at hr hlt
    exact Or.inr ⟨hn, by omega, by omega, by omega⟩

theorem asDuration_new {d : Int} (h : InRange d) : (new d).asDuration = d := by
  obtain ⟨hsum, hsign⟩ := parts_new d
  simp only [InRange, minInt64, maxInt64] at h
  unfold asDuration
  rw [if_neg (by simp only [maxInt64, nanosPerSecond]; omega),
    if_neg (by simp only [minInt64, nanosPerSecond]; omega)]
  simp only [minInt64, maxInt64, nanosPerSecond]
  omega

theorem checkValid_new {d : Int} (h : InRange d) : (new d).checkValid = true := by
  obtain ⟨hsum, hsign⟩ := parts_new d
  simp only [InRange, minInt64, maxInt64] at h
  rw [checkValid, decide_eq_true_eq]
  omega

end DurationMessage

def padded (width n : Nat) : String :=
  let digits := (Nat.toDigits 10 n)
  String.ofList (List.replicate (width - digits.length) '0' ++ digits)

/-- A fraction of `width` digits after the point, without its trailing zeros. -/
def fraction (width n : Nat) : String :=
  let digits := List.replicate (width - (Nat.toDigits 10 n).length) '0' ++ Nat.toDigits 10 n
  match (digits.reverse.dropWhile (· == '0')).reverse with
  | [] => ""
  | ds => "." ++ String.ofList ds

def civilDate (day : Int) : Int × Nat × Nat :=
  let z := day + 719468
  let era := z / 146097
  let doe := (z % 146097).toNat
  let yoe := (doe - doe / 1460 + doe / 36524 - doe / 146096) / 365
  let doy := doe - (365 * yoe + yoe / 4 - yoe / 100)
  let mp := (5 * doy + 2) / 153
  let month := if mp < 10 then mp + 3 else mp - 9
  let year := (yoe : Int) + era * 400
  (if month ≤ 2 then year + 1 else year, month, doy - (153 * mp + 2) / 5 + 1)

/-- `Format(time.RFC3339Nano)` of an instant in UTC. -/
def rfc3339Nano (t : Int) : String :=
  let seconds := t / nanosPerSecond
  let (year, month, day) := civilDate (seconds / 86400)
  let ofDay := (seconds % 86400).toNat
  padded 4 year.toNat ++ "-" ++ padded 2 month ++ "-" ++ padded 2 day ++ "T" ++
    padded 2 (ofDay / 3600) ++ ":" ++ padded 2 (ofDay / 60 % 60) ++ ":" ++
    padded 2 (ofDay % 60) ++ fraction 9 (t % nanosPerSecond).toNat ++ "Z"

end Temporaless
