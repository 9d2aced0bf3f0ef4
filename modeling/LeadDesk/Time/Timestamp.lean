import LeadDesk.Time.Calendar
/-!
# Timestamps

A timestamp is what a clock on the wall shows, in microseconds since the first
instant of 1970, together with the clock's offset from universal time when that is
known. Two timestamps with offsets are compared by the instant they denote
(`Timestamp.instant`), where a missing offset counts as universal time.
-/

namespace LeadDesk

/-- A date and time of day with an optional offset from universal time, in microseconds. -/
structure Timestamp where
  wall : Int
  offset : Option Int
  deriving DecidableEq, Repr, Inhabited

namespace Timestamp

/-- Microseconds of a second. -/
def second : Int := 1000000

/-- Microseconds of a day. -/
def day : Int := 86400000000

/-- A timestamp of universal time. -/
def utc (wall : Int) : Timestamp := ⟨wall, some 0⟩

/-- Microseconds of universal time since the first instant of 1970. -/
def instant (t : Timestamp) : Int := t.wall - t.offset.getD 0

/-- The same wall clock, in universal time when no offset is known. -/
def withDefaultZone (t : Timestamp) : Timestamp := ⟨t.wall, some (t.offset.getD 0)⟩

/-- The same wall clock without its offset, read as universal time. -/
def atUniversal (t : Timestamp) : Timestamp := ⟨t.wall, some 0⟩

/-- A natural number with at least `width` decimal digits. -/
def padded (width n : Nat) : String :=
  let digits := Nat.toDigits 10 n
  String.ofList (List.replicate (width - digits.length) '0' ++ digits)

/-- The date of a wall clock, as year, month and day. -/
def dateText (t : Timestamp) : String :=
  let (year, month, day) := Calendar.dateOfDay (t.wall / Timestamp.day)
  s!"{padded 4 year}-{padded 2 month}-{padded 2 day}"

/-- Hours, minutes and seconds of a count of seconds. -/
def clockText (seconds : Nat) : String :=
  s!"{padded 2 (seconds / 3600)}:{padded 2 (seconds / 60 % 60)}:{padded 2 (seconds % 60)}"

/-- Six digits after a point, nothing when they are all zero. -/
def fractionText (micros : Nat) : String :=
  if micros = 0 then "" else s!".{padded 6 micros}"

/-- The time of day of a wall clock. -/
def timeText (t : Timestamp) : String :=
  let micros := (t.wall % day).toNat
  clockText (micros / 1000000) ++ fractionText (micros % 1000000)

/-- An offset as a sign, hours and minutes, with seconds and a fraction only where needed. -/
def offsetText (offset : Int) : String :=
  let sign := if offset < 0 then "-" else "+"
  let micros := offset.natAbs
  let seconds := micros / 1000000
  let rest :=
    if micros % 1000000 = 0 ∧ seconds % 60 = 0 then ""
    else s!":{padded 2 (seconds % 60)}" ++ fractionText (micros % 1000000)
  s!"{sign}{padded 2 (seconds / 3600)}:{padded 2 (seconds / 60 % 60)}{rest}"

/-- The text of a timestamp, date and time parted by `T`. -/
def text (t : Timestamp) : String :=
  t.dateText ++ "T" ++ t.timeText ++ (t.offset.map offsetText).getD ""

/-- The text of a timestamp in which universal time is written `Z`. -/
def zuluText (t : Timestamp) : String :=
  t.dateText ++ "T" ++ t.timeText ++
    match t.offset with
    | none => ""
    | some 0 => "Z"
    | some offset => offsetText offset

/-- Date and time of day to the second, parted by a blank. -/
def shortText (t : Timestamp) : String :=
  t.dateText ++ " " ++ clockText ((t.wall % day).toNat / 1000000)

end Timestamp

end LeadDesk
