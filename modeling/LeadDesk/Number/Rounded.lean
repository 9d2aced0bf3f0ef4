import LeadDesk.Number.Shortest
/-!
# Floating-point numbers in fifteen digits

The decimal text of a number rounded to fifteen significant digits, as text columns of a
store keep it: positional from `1e-4` up to below `1e15`, with an exponent otherwise, and
always with a digit after the point. Zero has no sign.
-/

namespace LeadDesk

namespace Double

/-- The decimal of fifteen digits nearest to a positive ratio; a half goes up. The place is that
of the first digit. -/
def fifteenDigits (numerator denominator : Nat) : Nat × Int :=
  let place := decimalPlace numerator denominator
  let (n, d) := match place - 15 with
    | .ofNat e => (numerator, denominator * tenTo e)
    | .negSucc e => (numerator * tenTo (e + 1), denominator)
  let digits := (2 * n + d) / (2 * d)
  if digits < tenTo 15 then (digits, place) else (tenTo 14, place + 1)

/-- Digits with the point after the given place, or an exponent outside the positional range. -/
def roundedLayout (digits : List Char) (place : Int) : List Char :=
  if -4 < place ∧ place ≤ 15 then layout digits place
  else
    let exponent := place - 1
    let mark := if exponent < 0 then '-' else '+'
    let size := Nat.toDigits 10 exponent.natAbs
    let size := if size.length < 2 then '0' :: size else size
    let fraction := match digits.drop 1 with
      | [] => ['0']
      | rest => rest
    digits.take 1 ++ '.' :: fraction ++ 'e' :: mark :: size

/-- The text of a number in fifteen digits. -/
def roundedText : Double → String
  | nan => ""
  | infinity negative => if negative then "-Inf" else "Inf"
  | finite negative significand unit =>
    if significand = 0 then "0.0"
    else
      let (digits, place) := fifteenDigits (significand * twoTo unit) (twoTo 1074)
      let body := roundedLayout (trimZeros (Nat.toDigits 10 digits)) place
      String.ofList (if negative then '-' :: body else body)

end Double

end LeadDesk
