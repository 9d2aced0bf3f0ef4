import LeadDesk.Time.Timestamp
import LeadDesk.Text.Blank
import LeadDesk.Text.Digit
import LeadDesk.Text.Quoted
import LeadDesk.Json.Printer
/-!
# Reading timestamps

The ISO 8601 forms that `Timestamp.read` accepts: a date by month and day or by
week and weekday, with hyphens or without; then any one character; then hours,
optionally minutes, seconds and a fraction after a point or comma, with colons or
without; then optionally `Z` or an offset. A `Z` at the very end may be set off by
blanks around the whole text, and a text without an offset means universal time.

Each part of the reader works on the characters that are left, where the end of
the text counts as a character that fits nowhere.
-/

namespace LeadDesk

/-- Why a text is no timestamp. -/
inductive TimestampFault where
  /-- The text has none of the accepted forms. -/
  | malformed (source : String)
  /-- The year lies outside 1 to 9999. -/
  | year (year : Nat)
  | month
  | day
  | hour
  | minute
  | second
  /-- The offset is a whole day or more, in microseconds. -/
  | offset (micros : Int)
  deriving DecidableEq, Repr

namespace Timestamp

/-- A span of time as whole days, seconds and microseconds, for messages. -/
def spanText (micros : Int) : String :=
  let days := micros / Timestamp.day
  let seconds := micros % Timestamp.day / 1000000
  let rest := micros % 1000000
  let part (name : String) (n : Int) : List String := if n = 0 then [] else [s!"{name}={n}"]
  let parts := part "days" days ++ part "seconds" seconds ++ part "microseconds" rest
  let listed := ", ".intercalate (if parts.isEmpty then ["0"] else parts)
  s!"datetime.timedelta({listed})"

end Timestamp

/-- The wording of a fault. -/
def TimestampFault.message : TimestampFault → String
  | malformed source => s!"Invalid isoformat string: {Text.quoted source}"
  | .year n => s!"year {n} is out of range"
  | month => "month must be in 1..12"
  | day => "day is out of range for month"
  | hour => "hour must be in 0..23"
  | minute => "minute must be in 0..59"
  | second => "second must be in 0..59"
  | offset micros =>
    "offset must be a timedelta strictly between -timedelta(hours=24) and " ++
      s!"timedelta(hours=24), not {Timestamp.spanText micros}."

namespace Timestamp

/-- The number that exactly `count` ASCII digits in front write, and the rest. -/
def readDigits? (count : Nat) (cs : List Char) : Option (Nat × List Char) :=
  let digits := cs.take count
  if digits.length = count ∧ digits.all Text.isAsciiDigit then
    some (Text.digitsValue digits, cs.drop count)
  else none

/-- Where the date ends and the separating character stands. -/
def separatorIndex (cs : List Char) : Nat :=
  let digitAt (i : Nat) : Bool := (cs[i]?.map Text.isAsciiDigit).getD false
  if cs.length = 7 then 7
  else if cs[4]? = some '-' then
    if cs[5]? = some 'W' then
      if cs.length > 8 ∧ cs[8]? = some '-' then
        if cs.length = 9 then 9
        else if cs.length > 10 ∧ digitAt 10 then 8 else 10
      else 8
    else 10
  else if cs[4]? = some 'W' then
    let pos := 7 + ((cs.drop 7).takeWhile Text.isAsciiDigit).length
    if pos < 9 then pos else if pos % 2 = 0 then 7 else 8
  else 8

/-- The date as written, before its parts are checked: by month and day, by a day number, or by
a week of the year zero, which no calendar month covers. -/
inductive WrittenDate where
  | monthDay (year month day : Nat)
  | dayNumber (days : Int)
  | weekOfYearZero

/-- The date of a weekday in a week of a year. -/
def weekDate? (year week day : Nat) : Option WrittenDate :=
  (Calendar.dayOfWeek? year week day).map fun days =>
    if year = 0 then .weekOfYearZero else .dayNumber days

/-- Read a date that must fill all the characters. -/
def readDate? (cs : List Char) : Option WrittenDate := do
  let (year, rest) ← readDigits? 4 cs
  let hyphens := rest.head? == some '-'
  let rest := if hyphens then rest.drop 1 else rest
  match rest with
  | 'W' :: rest =>
    let (week, rest) ← readDigits? 2 rest
    if rest.isEmpty then weekDate? year week 1
    else
      let rest ← if hyphens then
          (if rest.head? == some '-' then some (rest.drop 1) else none)
        else some rest
      let (day, _) ← readDigits? 1 rest
      weekDate? year week day
  | rest =>
    let (month, rest) ← readDigits? 2 rest
    let rest ← if hyphens then
        (if rest.head? == some '-' then some (rest.drop 1) else none)
      else some rest
    let (day, rest) ← readDigits? 2 rest
    guard rest.isEmpty
    return .monthDay year month day

/-- A time of day as written: hours, minutes, seconds and microseconds. -/
structure WrittenClock where
  hour : Nat
  minute : Nat
  second : Nat
  micros : Nat

/-- Read a fraction of up to six digits; further digits are passed over. The answer also says
whether the text ends there. -/
def readFraction? (cs : List Char) (tail : List Char) : Option (Nat × Bool) := do
  let size := min cs.length 6
  let (value, rest) ← readDigits? size cs
  let micros := if size < 6 then value * tenTo (6 - size) else value
  let left := (rest ++ tail).dropWhile Text.isAsciiDigit
  return (micros, left.isEmpty)

/-- Read hours, minutes, seconds and a fraction from `cs`, which `tail` follows. `colon` says
whether colons part them, `values` holds the parts read so far, last first, and `left` counts those
that may still come. The answer also says whether the text ends after them. -/
def readClockParts? (tail : List Char) :
    Nat → Option Bool → List Nat → List Char → Option (List Nat × Nat × Bool)
  | 0, _, values, cs => do
    let (micros, done) ← readFraction? cs tail
    return (values, micros, done)
  | left + 1, colon, values, cs => do
    let (value, rest) ← readDigits? 2 (cs ++ tail)
    let values := value :: values
    let used := cs.length - 2
    let rest := rest.take used
    match rest with
    | [] => return (values, 0, tail.isEmpty)
    | c :: more =>
      let colon := colon.getD (c == ':')
      if more.isEmpty && c.toNat < 128 then return (values, 0, false)
      else if colon && c == ':' then readClockParts? tail left (some colon) values more
      else if c == '.' || c == ',' then
        let (micros, done) ← readFraction? more tail
        return (values, micros, done)
      else if !colon then readClockParts? tail left (some colon) values rest
      else none

/-- Read a time of day. The answer also says whether the text ends after it. -/
def readClock? (cs tail : List Char) : Option (WrittenClock × Bool) := do
  let (values, micros, done) ← readClockParts? tail 3 none [] cs
  let part (i : Nat) : Nat := (values.reverse[i]?).getD 0
  return (⟨part 0, part 1, part 2, micros⟩, done)

/-- A character that starts an offset. -/
def startsOffset (c : Char) : Bool := c == '+' || c == '-' || c == 'Z'

/-- Read a time of day with an optional offset in microseconds. A fraction counts in an offset only
beside whole seconds. -/
def readTime? (cs : List Char) : Option (WrittenClock × Option Int) := do
  let clock := cs.takeWhile (!startsOffset ·)
  let tail := cs.drop clock.length
  let (time, done) ← readClock? clock tail
  match tail with
  | [] => if done then return (time, none) else none
  | 'Z' :: rest => if rest.isEmpty then return (time, some 0) else none
  | sign :: rest =>
    let (shift, done) ← readClock? rest []
    guard done
    let seconds : Int := shift.hour * 3600 + shift.minute * 60 + shift.second
    let micros := if seconds = 0 then 0 else seconds * 1000000 + shift.micros
    return (time, some (if sign == '-' then -micros else micros))

/-- The parts of a timestamp, checked against their ranges. -/
def ofParts (date : WrittenDate) (time : WrittenClock) (offset : Option Int) :
    Except TimestampFault Timestamp := do
  if let some micros := offset then
    if micros ≤ -Timestamp.day ∨ Timestamp.day ≤ micros then throw (.offset micros)
  let days ← match date with
    | .weekOfYearZero => throw .month
    | .dayNumber days =>
      let (year, _, _) := Calendar.dateOfDay days
      if year > 9999 then throw (.year year) else pure days
    | .monthDay year month day =>
      if year < 1 then throw (.year year)
      else if month < 1 ∨ 12 < month then throw .month
      else if day < 1 ∨ Calendar.daysInMonth year month < day then throw .day
      else pure (Calendar.dayNumber year month day)
  if 23 < time.hour then throw .hour
  if 59 < time.minute then throw .minute
  if 59 < time.second then throw .second
  let seconds : Int := time.hour * 3600 + time.minute * 60 + time.second
  return ⟨days * Timestamp.day + seconds * 1000000 + time.micros, offset⟩

/-- Read the ISO 8601 text of a timestamp. -/
def readIso (s : String) : Except TimestampFault Timestamp :=
  let cs := s.toList
  let at_ := separatorIndex cs
  let parts : Option (WrittenDate × WrittenClock × Option Int) :=
    if cs.length < 7 then none
    else do
      let date ← readDate? (cs.take at_)
      if cs.length ≤ at_ then return (date, ⟨0, 0, 0, 0⟩, none)
      else
        let (time, offset) ← readTime? (cs.drop (at_ + 1))
        return (date, time, offset)
  match parts with
  | none => .error (.malformed s)
  | some (date, time, offset) => ofParts date time offset

/-- The text with a final `Z` spelled as an offset of zero, trimmed. -/
def normalize (s : String) : String :=
  match (Text.trimBlanks s.toList).reverse with
  | 'Z' :: rest => String.ofList (rest.reverse ++ "+00:00".toList)
  | cs => String.ofList cs.reverse

/-- Read a timestamp from a data value: null and the empty text mean none, and any other value
is read from the text that shows it. A text without an offset means universal time. -/
def ofJson? (v : Json) : Except TimestampFault (Option Timestamp) :=
  match v with
  | .null => .ok none
  | .string "" => .ok none
  | v => (readIso (normalize v.plain)).map fun t => some t.withDefaultZone

end Timestamp

end LeadDesk
