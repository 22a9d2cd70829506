import Mathlib.Data.Rat.Floor

/-!
# Binary64 arithmetic

Values of the IEEE 754 format with 53 bits of precision, as exact rationals together with the
infinities and not-a-number. Results are rounded to the nearest value, ties to even. The two
zeros are one value here.
-/

inductive Binary64 where
  | nan
  | infinite (negative : Bool)
  | finite (value : Rat)
  deriving DecidableEq

namespace Binary64

def twoPow (e : Int) : Rat := if 0 ≤ e then 2 ^ e.toNat else 1 / 2 ^ (-e).toNat

/-- The exponent `e` with `2 ^ e ≤ q < 2 ^ (e + 1)`, for positive `q`. -/
def exponent (q : Rat) : Int :=
  let e : Int := q.num.natAbs.log2 - q.den.log2
  if twoPow e ≤ q then e else e - 1

def roundHalfEven (q : Rat) : Int :=
  let below := q.floor
  if q - below < 1 / 2 then below
  else if 1 / 2 < q - below then below + 1
  else if below % 2 = 0 then below else below + 1

def round (q : Rat) : Binary64 :=
  if q = 0 then finite 0
  else
    let ulp := twoPow (max (exponent |q| - 52) (-1074))
    let rounded := roundHalfEven (|q| / ulp) * ulp
    if twoPow 1024 ≤ rounded then infinite (decide (q < 0))
    else finite (if q < 0 then -rounded else rounded)

def ofInt (n : Int) : Binary64 := round n

def mul : Binary64 → Binary64 → Binary64
  | nan, _ | _, nan => nan
  | infinite a, infinite b => infinite (a ^^ b)
  | infinite a, finite q | finite q, infinite a =>
    if q = 0 then nan else infinite (a ^^ decide (q < 0))
  | finite p, finite q => round (p * q)

/-- The strict order, false whenever one side is not a number. -/
def lt : Binary64 → Binary64 → Bool
  | nan, _ | _, nan => false
  | infinite a, infinite b => a && !b
  | infinite a, finite _ => a
  | finite _, infinite b => !b
  | finite p, finite q => decide (p < q)

/-- The weak order, false whenever one side is not a number. -/
def le (a b : Binary64) : Bool := lt a b || (a == b && a != nan)

def isNaN : Binary64 → Bool
  | nan => true
  | _ => false

def isInf : Binary64 → Bool
  | infinite _ => true
  | _ => false

def truncate : Binary64 → Option Int
  | finite q => some (if q < 0 then -(-q).floor else q.floor)
  | _ => none

end Binary64
