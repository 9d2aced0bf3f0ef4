import LeadDesk.Failure
import LeadDesk.Number.Rounded
/-!
# Columns

A column of a table has a kind, and a value that is stored in it takes the form of the kind:
a text column keeps numbers as their text, an integer column turns numeric text and whole
numbers into integers and keeps all else, and a moment column keeps what the wall clock
shows, read as universal time. A data column keeps the text of a value, but where that text
writes a number it keeps the number, as the store has numbers: an integer up to its range,
and any other number as a floating-point one, or as an integer if it is whole.
-/

namespace LeadDesk

/-- The kind of a column. -/
inductive ColumnKind where
  | text
  | integer
  | truth
  | moment
  | data
  deriving DecidableEq, Repr

/-- What a column holds when nothing is given for it. -/
inductive ColumnDefault where
  | nothing
  | value (v : Json)
  | freshId
  | now

/-- A column of a table. -/
structure Column where
  name : String
  kind : ColumnKind
  default : ColumnDefault := .nothing
  /-- A row without a value in this column is refused. -/
  isRequired : Bool := false

namespace Column

/-- An integer that the store can hold. -/
def fits (n : Int) : Bool := -(twoTo 63 : Int) ≤ n && n < twoTo 63

/-- The text that a text column keeps of a value. -/
def textForm : Json → Except Failure Json
  | .null => .ok .null
  | .string s => .ok (.string s)
  | .bool b => .ok (.string (if b then "1" else "0"))
  | .int n => if fits n then .ok (.string (toString n)) else .error .tooLarge
  | .float d => .ok (if d.isNan then .null else .string d.roundedText)
  | .array _ | .object _ => .error .unstorable

/-- A blank around a number in an integer column. -/
def isPlainBlank (c : Char) : Bool := c == ' ' || (9 ≤ c.toNat && c.toNat ≤ 13)

/-- The number that ASCII text writes: an optional sign, digits with an optional point, and an
optional exponent. -/
def number? (s : String) : Option (Bool × Bool × Double × Nat) :=
  let cs := ((s.toList.dropWhile isPlainBlank).reverse.dropWhile isPlainBlank).reverse
  let (negative, body) := splitSign cs
  let whole := body.takeWhile Text.isAsciiDigit
  let rest := body.drop whole.length
  let isWhole := rest.isEmpty && !whole.isEmpty
  if body.all (fun c => Text.isAsciiDigit c || c == '.' || c == 'e' || c == 'E' || c == '+' ||
      c == '-') then
    (readUnsigned? negative body).map fun d => (isWhole, negative, d, Text.digitsValue whole)
  else none

/-- The integer or number that an integer column keeps of a floating-point number. -/
def wholeForm (d : Double) : Json :=
  match d.toInt? with
  | some n => if -(twoTo 63 : Int) < n && n < twoTo 63 - 1 then .int n else .float d
  | none => if d.isNan then .null else .float d

/-- What an integer column keeps of a value. -/
def integerForm : Json → Except Failure Json
  | .null => .ok .null
  | .bool b => .ok (.int (if b then 1 else 0))
  | .int n => if fits n then .ok (.int n) else .error .tooLarge
  | .float d => .ok (wholeForm d)
  | .string s =>
    match number? s with
    | none => .ok (.string s)
    | some (isWhole, negative, d, n) =>
      let n : Int := if negative then -(n : Int) else n
      .ok (if isWhole && fits n then .int n else wholeForm d)
  | .array _ | .object _ => .error .unstorable

/-- What a truth column keeps of a value. -/
def truthForm : Json → Except Failure Json
  | .null => .ok .null
  | .bool b => .ok (.bool b)
  | .int 0 => .ok (.bool false)
  | .int 1 => .ok (.bool true)
  | _ => .error .unstorable

/-- The text of a moment as it is read back. -/
def momentText (t : Timestamp) : Json := .string t.atUniversal.text

/-- A moment that is given as text, as it is read back; other values as they are. -/
def readMoment : Json → Except Failure Json
  | .string s =>
    match Timestamp.ofJson? (.string s) with
    | .ok (some t) => .ok (momentText t)
    | .ok none => .ok .null
    | .error e => .error (.timestamp e)
  | v => .ok v

/-- What a moment column keeps of a value that `readMoment` has been through. -/
def momentForm : Json → Except Failure Json
  | .null => .ok .null
  | .string s => .ok (.string s)
  | _ => .error .unstorable

/-- What a data column keeps of a value. Infinite and undefined numbers are written as words. -/
def dataForm : Json → Json
  | .int n => if fits n then .int n else .float (Double.ofRatio (n < 0) n.natAbs 1)
  | .float (.finite negative significand unit) => wholeForm (.finite negative significand unit)
  | v => v

/-- What a column of some kind keeps of a value. -/
def form : ColumnKind → Json → Except Failure Json
  | .text, v => textForm v
  | .integer, v => integerForm v
  | .truth, v => truthForm v
  | .moment, v => momentForm v
  | .data, v => .ok (dataForm v)

/-- What a column holds after a change. A value that equals what it holds is not written, so that
this keeps its form: a one stays a one when it is set to true. -/
def renewed (kind : ColumnKind) (held v : Json) : Except Failure Json :=
  if v.same held then .ok held else form kind v

/-- A text column keeps a text as it is. -/
@[simp] theorem textForm_string (s : String) : textForm (.string s) = .ok (.string s) := rfl

/-- A data column takes every value. -/
@[simp] theorem form_data (v : Json) : form .data v = .ok (dataForm v) := rfl

end Column

end LeadDesk
