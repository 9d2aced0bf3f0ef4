import LeadDesk.Number.Double
/-!
# The shortest decimal text of a floating-point number

`Double.shortest` finds the fewest decimal digits that read back as the number.
For one to seventeen digits it tests the number's two neighbours on that decimal
grid; the first grid with a hit wins, and of two hits the nearer one.

`Double.text` writes those digits: positional from `1e-4` up to below `1e16`,
with an exponent of at least two digits otherwise. An integral value keeps `.0`.
-/

namespace LeadDesk

namespace Double

/-- A positive decimal `digits · 10 ^ exponent`. -/
structure Decimal where
  digits : Nat
  exponent : Int
  deriving DecidableEq, Repr

/-- A decimal as a ratio of naturals. -/
def Decimal.ratio (d : Decimal) : Nat × Nat :=
  match d.exponent with
  | .ofNat e => (d.digits * tenTo e, 1)
  | .negSucc e => (d.digits, tenTo (e + 1))

/-- The place `k` with `10 ^ (k - 1) ≤ value < 10 ^ k`, searched from an estimate that is at
most two too large. -/
def decimalPlace (numerator denominator : Nat) : Int :=
  let bits : Int := (numerator.log2 : Int) - denominator.log2
  let estimate : Int := (bits + 1) * 30103 / 100000 + 2
  let reaches (k : Int) : Bool :=
    match k with
    | .ofNat e => denominator * tenTo e ≤ numerator
    | .negSucc e => denominator ≤ numerator * tenTo (e + 1)
  if reaches (estimate - 1) then estimate
  else if reaches (estimate - 2) then estimate - 1
  else if reaches (estimate - 3) then estimate - 2
  else estimate - 3

/-- The neighbour of `numerator / denominator` on the grid `10 ^ exponent` that reads back as
`target`, when there is one. -/
def gridHit (target : Double) (numerator denominator : Nat) (exponent : Int) : Option Decimal :=
  let (n, d) : Nat × Nat := match exponent with
    | .ofNat e => (numerator, denominator * tenTo e)
    | .negSucc e => (numerator * tenTo (e + 1), denominator)
  let below := n / d
  let nearest := divideHalfEven n d
  let other := if nearest = below then below + 1 else below
  let readsBack (digits : Nat) : Bool :=
    let (a, b) := Decimal.ratio ⟨digits, exponent⟩
    ofRatio false a b == target
  if readsBack nearest then some ⟨nearest, exponent⟩
  else if readsBack other then some ⟨other, exponent⟩
  else none

/-- The shortest decimal that reads back as a positive finite number. -/
def shortest (significand unit : Nat) : Decimal :=
  let numerator := significand * twoTo unit
  let denominator := twoTo 1074
  let place := decimalPlace numerator denominator
  let target := finite false significand unit
  let hit := (List.range 17).findSome? fun (i : Nat) =>
    gridHit target numerator denominator (place - (i + 1))
  hit.getD ⟨0, 0⟩

/-- Digits with the decimal point after `place` of them, or an exponent outside the positional
range. -/
def layout (digits : List Char) (place : Int) : List Char :=
  if -4 < place ∧ place ≤ 16 then
    match place with
    | .ofNat k =>
      if k = 0 then '0' :: '.' :: digits
      else if digits.length ≤ k then
        digits ++ List.replicate (k - digits.length) '0' ++ ['.', '0']
      else digits.take k ++ '.' :: digits.drop k
    | .negSucc k => '0' :: '.' :: (List.replicate (k + 1) '0' ++ digits)
  else
    let exponent := place - 1
    let mark := if exponent < 0 then '-' else '+'
    let size := Nat.toDigits 10 exponent.natAbs
    let size := if size.length < 2 then '0' :: size else size
    let fraction := match digits.drop 1 with
      | [] => []
      | rest => '.' :: rest
    digits.take 1 ++ fraction ++ 'e' :: mark :: size

/-- Digits without the zeros at their end. -/
def trimZeros (digits : List Char) : List Char :=
  (digits.reverse.dropWhile (· == '0')).reverse

/-- The text of a floating-point number. -/
def text : Double → String
  | nan => "nan"
  | infinity negative => if negative then "-inf" else "inf"
  | finite negative significand unit =>
    let body :=
      if significand = 0 then ['0', '.', '0']
      else
        let d := shortest significand unit
        let all := Nat.toDigits 10 d.digits
        layout (trimZeros all) (d.exponent + all.length)
    String.ofList (if negative then '-' :: body else body)

end Double

end LeadDesk
