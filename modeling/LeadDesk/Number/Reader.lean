import LeadDesk.Number.Double
import LeadDesk.Text.Blank
import LeadDesk.Text.Digit
import LeadDesk.Text.Quoted
/-!
# Reading numbers

Numbers are written with the decimal digits of any script, may stand between
blanks and may hold single underscores between digits. `readInt` reads an integer
and says why it cannot; `readDouble?` reads a floating-point number, an infinity or
the undefined number, the last three by name in any case.
-/

namespace LeadDesk

/-- Why a text is no integer, or an integer has no text. -/
inductive NumberFault where
  /-- The text is not an integer's text. -/
  | malformed (source : String)
  /-- The text has more than the 4300 digits that are read. -/
  | tooLong (digits : Nat)
  /-- The integer has more than the 4300 digits that are written. -/
  | unwritable
  deriving DecidableEq, Repr

/-- The most digits that an integer's text may have, read or written. -/
def maxDigits : Nat := 4300

/-- The wording of a fault. The quoted text is cut after 200 characters. -/
def NumberFault.message : NumberFault → String
  | malformed source =>
    "invalid literal for int() with base 10: " ++
      String.ofList ((Text.quoted source).toList.take 200)
  | tooLong digits =>
    s!"Exceeds the limit ({maxDigits} digits) for integer string conversion: " ++
      s!"value has {digits} digits; use sys.set_int_max_str_digits() to increase the limit"
  | unwritable =>
    s!"Exceeds the limit ({maxDigits} digits) for integer string conversion; " ++
      "use sys.set_int_max_str_digits() to increase the limit"

/-- The ASCII form of a character in a number: digits of all scripts become ASCII digits and
blanks become spaces. -/
def asciiForm (c : Char) : Char :=
  if c.toNat < 128 then (if Text.isBlank c then ' ' else c)
  else match Text.decimalValue? c with
    | some v => Char.ofNat (48 + v)
    | none => if Text.isBlank c then ' ' else c

/-- The characters without underscores, provided that each underscore stands between two digits.
`afterDigit` says that the character before is a digit. -/
def withoutUnderscores (afterDigit : Bool) : List Char → Option (List Char)
  | [] => some []
  | '_' :: c :: rest =>
    if afterDigit && Text.isAsciiDigit c then (withoutUnderscores true rest).map (c :: ·)
    else none
  | ['_'] => none
  | c :: rest => (withoutUnderscores (Text.isAsciiDigit c) rest).map (c :: ·)

/-- A sign in front, as a truth value for minus, and what follows it. -/
def splitSign : List Char → Bool × List Char
  | '-' :: rest => (true, rest)
  | '+' :: rest => (false, rest)
  | rest => (false, rest)

/-- The characters of a number's text in ASCII, trimmed and without underscores. -/
def numberChars? (s : String) : Option (List Char) :=
  withoutUnderscores false (Text.trimBlanks (s.toList.map asciiForm))

/-- The integer that a text writes. -/
def readInt (s : String) : Except NumberFault Int :=
  match (numberChars? s).map splitSign with
  | none => .error (.malformed s)
  | some (negative, digits) =>
    if digits.isEmpty || !digits.all Text.isAsciiDigit then .error (.malformed s)
    else if maxDigits < digits.length then .error (.tooLong digits.length)
    else
      let n : Int := Text.digitsValue digits
      .ok (if negative then -n else n)

/-- The digits in front and what follows them. -/
def spanDigits (cs : List Char) : List Char × List Char := cs.span Text.isAsciiDigit

/-- The exponent that ends a number's text: `e`, a sign and digits, or nothing at all. -/
def readExponent? (cs : List Char) : Option Int :=
  match cs with
  | [] => some 0
  | e :: rest =>
    if e == 'e' || e == 'E' then
      let (negative, digits) := splitSign rest
      if digits.isEmpty || !digits.all Text.isAsciiDigit then none
      else
        let n : Int := Text.digitsValue digits
        some (if negative then -n else n)
    else none

/-- The number that unsigned digits, a fraction and an exponent write. -/
def readUnsigned? (negative : Bool) (cs : List Char) : Option Double :=
  let (whole, rest) := spanDigits cs
  let (fraction, rest) := match rest with
    | '.' :: more => spanDigits more
    | _ => ([], rest)
  if whole.isEmpty && fraction.isEmpty then none
  else
    (readExponent? rest).map fun exponent =>
      Double.ofDecimal negative (Text.digitsValue (whole ++ fraction))
        (exponent - fraction.length)

/-- The floating-point number that a text writes. -/
def readDouble? (s : String) : Option Double :=
  (numberChars? s).bind fun cs =>
    let (negative, body) := splitSign cs
    let name := String.ofList (body.map Char.toLower)
    if name == "inf" || name == "infinity" then some (.infinity negative)
    else if name == "nan" then some .nan
    else readUnsigned? negative body

end LeadDesk
