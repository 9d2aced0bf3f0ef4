import LeadDesk.Time.Timestamp
import LeadDesk.Text.Digit
import LeadDesk.Number.Reader
/-!
# Timestamps in records

The texts that a record takes for a timestamp: a date, one of `T`, `t`, `_` and a
blank, hours and minutes, optionally seconds and a fraction, and optionally an
offset; a date alone; or a count of seconds, or of milliseconds when it is large,
since the first instant of 1970, possibly with a fraction.
-/

namespace LeadDesk

namespace Validation

namespace Moment

/-- The number that exactly two digits write, and the rest. -/
def twoDigits? : List Char → Option (Nat × List Char)
  | a :: b :: rest =>
    if Text.isAsciiDigit a && Text.isAsciiDigit b then some (Text.digitsValue [a, b], rest)
    else none
  | _ => none

/-- Read a date in front, as a day number, with the rest. -/
def date? (cs : List Char) : Option (Int × List Char) := do
  let (century, rest) ← twoDigits? cs
  let (years, rest) ← twoDigits? rest
  let year := century * 100 + years
  match rest with
  | '-' :: rest =>
    let (month, rest) ← twoDigits? rest
    match rest with
    | '-' :: rest =>
      let (day, rest) ← twoDigits? rest
      if 1 ≤ year ∧ 1 ≤ month ∧ month ≤ 12 ∧ 1 ≤ day ∧ day ≤ Calendar.daysInMonth year month then
        some (Calendar.dayNumber year month day, rest)
      else none
    | _ => none
  | _ => none

/-- Read an offset that ends the text, in microseconds. -/
def offset? : List Char → Option (Option Int)
  | [] => some none
  | ['Z'] | ['z'] => some (some 0)
  | sign :: rest =>
    if sign == '+' || sign == '-' || sign == '−' then do
      let (hours, rest) ← twoDigits? rest
      let rest := match rest with
        | ':' :: more => more
        | rest => rest
      let (minutes, rest) ← twoDigits? rest
      if rest.isEmpty ∧ hours < 24 ∧ minutes < 60 then
        let shift : Int := (hours * 3600 + minutes * 60 : Nat) * 1000000
        some (some (if sign == '+' then shift else -shift))
      else none
    else none

/-- Read the digits of a fraction in microseconds, with the rest. Digits beyond the sixth do not
count. -/
def fraction? (cs : List Char) : Option (Nat × List Char) :=
  let digits := cs.takeWhile Text.isAsciiDigit
  if digits.isEmpty then none
  else
    let kept := digits.take 6
    some (Text.digitsValue kept * tenTo (6 - kept.length), cs.drop digits.length)

/-- Read a time of day with an optional offset, both in microseconds. -/
def time? (cs : List Char) : Option (Int × Option Int) := do
  let (hour, rest) ← twoDigits? cs
  match rest with
  | ':' :: rest =>
    let (minute, rest) ← twoDigits? rest
    let (second, micros, rest) ← match rest with
      | ':' :: rest => do
        let (second, rest) ← twoDigits? rest
        match rest with
        | '.' :: rest | ',' :: rest => do
          let (micros, rest) ← fraction? rest
          some (second, micros, rest)
        | rest => some (second, 0, rest)
      | rest => some (0, 0, rest)
    let offset ← offset? rest
    if hour < 24 ∧ minute < 60 ∧ second < 60 then
      some (((hour * 3600 + minute * 60 + second : Nat) : Int) * 1000000 + micros, offset)
    else none
  | _ => none

/-- Microseconds since the first instant of 1970 as a timestamp of universal time, within the years
from 1 to 9999. -/
def ofMicros? (micros : Int) : Option Timestamp :=
  let first := Calendar.dayNumber 1 1 1 * Timestamp.day
  let last := (Calendar.dayNumber 9999 12 31 + 1) * Timestamp.day
  if first ≤ micros ∧ micros < last then some (Timestamp.utc micros) else none

/-- The microseconds of one unit of a count: of a millisecond when the count is large, and of a
second otherwise. -/
def unitOf (count : Int) : Nat := if count.natAbs > 20000000000 then 1000 else 1000000

/-- A count of seconds or milliseconds as a timestamp. -/
def ofCount? (n : Int) : Option Timestamp := ofMicros? (n * unitOf n)

/-- A count with a fraction as a timestamp. -/
def ofNumber? (d : Double) : Option Timestamp := do
  let whole ← d.truncate?
  let micros ← ((d.mul (Double.ofDecimal false (unitOf whole) 0)).roundTo 0).truncate?
  ofMicros? micros

/-- The count that a text writes: digits behind an optional sign, possibly with a fraction. -/
def ofCountText? (s : String) : Option Timestamp :=
  let (_, cs) := splitSign s.toList
  let whole := cs.takeWhile Text.isAsciiDigit
  match whole, cs.drop whole.length with
  | [], _ => none
  | _, [] => (readInt s).toOption.bind ofCount?
  | _, '.' :: digits =>
    if !digits.isEmpty && digits.all Text.isAsciiDigit then (readDouble? s).bind ofNumber? else none
  | _, _ => none

/-- The timestamp that a text writes. -/
def ofText? (s : String) : Option Timestamp :=
  let cs := s.toList
  match date? cs with
  | some (days, []) => some ⟨days * Timestamp.day, none⟩
  | some (days, sep :: rest) =>
    if sep == 'T' || sep == 't' || sep == ' ' || sep == '_' then
      (time? rest).map fun (micros, offset) => ⟨days * Timestamp.day + micros, offset⟩
    else none
  | none => ofCountText? s

end Moment

end Validation

end LeadDesk
