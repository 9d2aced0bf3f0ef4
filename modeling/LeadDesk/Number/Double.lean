import LeadDesk.Number.Power
/-!
# Binary floating-point numbers

The 64-bit binary format as exact data: a finite number is a sign, a significand
below `2 ^ 53` and a unit, and stands for `± significand · 2 ^ unit / 2 ^ 1074`.
Every finite value is therefore an integer after scaling by `2 ^ 1074`
(`Double.scaled?`), and comparison, conversion and rounding are integer
arithmetic. No machine float is involved.

Rounding goes to the nearest representable number, and a tie goes to the even
significand (`Double.ofScaledRatio`).
-/

namespace LeadDesk

/-- A 64-bit binary floating-point number. -/
inductive Double where
  /-- The result of an undefined operation. It differs from every number, itself included. -/
  | nan
  /-- An infinity of either sign. -/
  | infinity (negative : Bool)
  /-- The number `± significand · 2 ^ unit / 2 ^ 1074`. -/
  | finite (negative : Bool) (significand unit : Nat)
  deriving DecidableEq, Repr, Inhabited

namespace Double

/-- Positive zero. -/
def zero : Double := finite false 0 0

/-- The number one. -/
def one : Double := finite false (twoTo 52) 1022

/-- The quotient of two naturals rounded to a natural; a half goes to the even neighbour. -/
def divideHalfEven (numerator denominator : Nat) : Nat :=
  let quotient := numerator / denominator
  let twice := 2 * (numerator % denominator)
  if twice < denominator then quotient
  else if denominator < twice then quotient + 1
  else if quotient % 2 = 0 then quotient else quotient + 1

/-- The number nearest to `± numerator / (denominator · 2 ^ 1074)`. A magnitude that rounds
beyond the largest finite number becomes an infinity. -/
def ofScaledRatio (negative : Bool) (numerator denominator : Nat) : Double :=
  let unit := (numerator / denominator).log2 - 52
  let significand := divideHalfEven numerator (denominator * twoTo unit)
  if significand < twoTo 53 then
    if unit ≤ 2045 then finite negative significand unit else infinity negative
  else
    if unit + 1 ≤ 2045 then finite negative (significand / 2) (unit + 1) else infinity negative

/-- The number nearest to `± numerator / denominator`. -/
def ofRatio (negative : Bool) (numerator denominator : Nat) : Double :=
  ofScaledRatio negative (numerator * twoTo 1074) denominator

/-- The number itself, unless it is an infinity. -/
def unlessInfinite? : Double → Option Double
  | infinity _ => none
  | d => some d

/-- The number nearest to an integer, or `none` when the integer is too large. -/
def ofInt? (n : Int) : Option Double := (ofRatio (n < 0) n.natAbs 1).unlessInfinite?

/-- The number nearest to `± digits · 10 ^ exponent`. -/
def ofDecimal (negative : Bool) (digits : Nat) (exponent : Int) : Double :=
  if digits = 0 then finite negative 0 0
  else
    if exponent > 400 then infinity negative
    else if (digits.log2 : Int) + 3 * exponent < -1080 then finite negative 0 0
    else match exponent with
      | .ofNat e => ofRatio negative (digits * tenTo e) 1
      | .negSucc e => ofRatio negative digits (tenTo (e + 1))

/-- The value times `2 ^ 1074`, which is an integer for every finite number. -/
def scaled? : Double → Option Int
  | finite negative significand unit =>
    let magnitude : Int := (significand * twoTo unit : Nat)
    some (if negative then -magnitude else magnitude)
  | _ => none

/-- An integer times `2 ^ 1074`, for exact comparison with a floating-point number. -/
def scaleInt (n : Int) : Int := n * twoTo 1074

/-- Whether this is the undefined number. -/
def isNan : Double → Bool
  | nan => true
  | _ => false

/-- The sign turned over. -/
def neg : Double → Double
  | nan => nan
  | infinity negative => infinity (!negative)
  | finite negative significand unit => finite (!negative) significand unit

/-- How two numbers lie to each other; `none` when either is undefined. -/
def compare? : Double → Double → Option Ordering
  | nan, _ | _, nan => none
  | infinity a, infinity b => some (Ord.compare b a)
  | infinity a, _ => some (if a then .lt else .gt)
  | _, infinity b => some (if b then .gt else .lt)
  | a, b =>
    match a.scaled?, b.scaled? with
    | some x, some y => some (Ord.compare x y)
    | _, _ => none

/-- Equality of values: both zeros agree and the undefined number equals nothing. -/
def equals (a b : Double) : Bool := a.compare? b == some .eq

/-- Strict order of values. -/
def less (a b : Double) : Bool := a.compare? b == some .lt

/-- Order of values. -/
def lessOrEqual (a b : Double) : Bool := a.less b || a.equals b

/-- How a number lies to an integer, compared exactly. -/
def compareInt? (a : Double) (n : Int) : Option Ordering :=
  match a with
  | nan => none
  | infinity negative => some (if negative then .lt else .gt)
  | a => a.scaled?.map (Ord.compare · (scaleInt n))

/-- The number is zero, of either sign. -/
def isZero : Double → Bool
  | finite _ 0 _ => true
  | _ => false

/-- The integer that a number is, when it is one. -/
def toInt? (a : Double) : Option Int :=
  a.scaled?.bind fun n => if n % twoTo 1074 = 0 then some (n / twoTo 1074) else none

/-- The integer part of a finite number, cut toward zero. -/
def truncate? (a : Double) : Option Int :=
  a.scaled?.map fun n => n.tdiv (twoTo 1074)

/-- The product, rounded once. -/
def mul : Double → Double → Double
  | nan, _ | _, nan => nan
  | infinity a, infinity b => infinity (a != b)
  | infinity a, finite b m _ => if m = 0 then nan else infinity (a != b)
  | finite a m _, infinity b => if m = 0 then nan else infinity (a != b)
  | finite a m p, finite b n q => ofScaledRatio (a != b) (m * n * twoTo (p + q)) (twoTo 1074)

/-- The sum, rounded once. A sum of zero is negative only when both operands are. -/
def add : Double → Double → Double
  | nan, _ | _, nan => nan
  | infinity a, infinity b => if a = b then infinity a else nan
  | infinity a, _ | _, infinity a => infinity a
  | finite a m p, finite b n q =>
    let signed (negative : Bool) (k : Nat) : Int := if negative then -(k : Int) else k
    let total := signed a (m * twoTo p) + signed b (n * twoTo q)
    if total = 0 then finite (a && b) 0 0
    else ofScaledRatio (total < 0) total.natAbs 1

/-- The number rounded to a count of decimal places; a half goes to the even digit. -/
def roundTo (places : Nat) : Double → Double
  | finite negative m p =>
    ofRatio negative (divideHalfEven (m * twoTo p * tenTo places) (twoTo 1074)) (tenTo places)
  | d => d

theorem isNan_nan : nan.isNan = true := rfl

theorem compare?_nan_left (b : Double) : nan.compare? b = none := by cases b <;> rfl

theorem compare?_nan_right (a : Double) : a.compare? nan = none := by cases a <;> rfl

/-- The undefined number differs from everything. -/
theorem equals_nan (a : Double) : a.equals nan = false := by
  simp [equals, compare?_nan_right]

theorem neg_neg (a : Double) : a.neg.neg = a := by cases a <;> simp [neg]

end Double

end LeadDesk
