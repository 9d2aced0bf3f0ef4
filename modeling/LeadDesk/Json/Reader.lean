import LeadDesk.Json.Basic
import LeadDesk.Number.Reader
/-!
# Reading JSON text

`Json.read` reads one value, with blanks around it and nothing else. Besides
standard JSON it accepts `NaN`, `Infinity` and `-Infinity`. A number with a fraction
or an exponent is a `Double`, any other an integer. Of two fields with one key the
later value stays, at the place of the earlier.

A fault carries the index of the character it is about; `ReadFault.message` adds the
line and the column. The reader goes through the characters with a cursor that
counts them. Its fuel is twice the length of the text: of any two steps one uses a
character.
-/

namespace LeadDesk

namespace Json

/-- What is wrong with a JSON text. -/
inductive ReadProblem where
  | expectingValue
  | expectingName
  | expectingColon
  | expectingComma
  | extraData
  | byteOrderMark
  | unterminatedString
  | controlCharacter
  | badEscape
  | badUnicodeEscape
  deriving DecidableEq, Repr

/-- The wording of a problem. -/
def ReadProblem.message : ReadProblem → String
  | expectingValue => "Expecting value"
  | expectingName => "Expecting property name enclosed in double quotes"
  | expectingColon => "Expecting ':' delimiter"
  | expectingComma => "Expecting ',' delimiter"
  | extraData => "Extra data"
  | byteOrderMark => "Unexpected UTF-8 BOM (decode using utf-8-sig)"
  | unterminatedString => "Unterminated string starting at"
  | controlCharacter => "Invalid control character at"
  | badEscape => "Invalid \\escape"
  | badUnicodeEscape => "Invalid \\uXXXX escape"

/-- Why a text is no JSON text. -/
inductive ReadFault where
  /-- A problem at a line and a column, both from one, and at an index from zero. -/
  | problem (what : ReadProblem) (line column index : Nat)
  /-- An integer that is too long to be read. -/
  | number (fault : NumberFault)
  deriving DecidableEq, Repr

/-- The wording of a fault with its place. -/
def ReadFault.message : ReadFault → String
  | problem what line column index =>
    s!"{what.message}: line {line} column {column} (char {index})"
  | number fault => fault.message

/-- The wording of a fault without its place. -/
def ReadFault.shortMessage : ReadFault → String
  | problem what _ _ _ => what.message
  | number fault => fault.message

/-- What stops the reader: a problem at an index, or a number. -/
inductive Stop where
  | at (what : ReadProblem) (index : Nat)
  | number (fault : NumberFault)

/-- A text without the mark of byte order that it may start with. -/
def withoutMark (text : String) : String :=
  match text.toList with
  | '\ufeff' :: rest => String.ofList rest
  | _ => text

/-- The rest of the text and the index where it starts. -/
structure Cursor where
  rest : List Char
  index : Nat

/-- Step over one character. -/
def Cursor.next (c : Cursor) : Cursor := ⟨c.rest.drop 1, c.index + 1⟩

/-- Step over several characters. -/
def Cursor.advance (c : Cursor) (n : Nat) : Cursor := ⟨c.rest.drop n, c.index + n⟩

/-- The four characters that JSON counts as blank. -/
def isSpace (c : Char) : Bool := c == ' ' || c == '\t' || c == '\n' || c == '\r'

/-- Step over blanks. -/
def Cursor.skipSpace (c : Cursor) : Cursor :=
  ⟨c.rest.dropWhile isSpace, c.index + (c.rest.takeWhile isSpace).length⟩

/-- The value of a hexadecimal digit. -/
def hexValue? (c : Char) : Option Nat :=
  if '0' ≤ c && c ≤ '9' then some (c.toNat - 48)
  else if 'a' ≤ c && c ≤ 'f' then some (c.toNat - 87)
  else if 'A' ≤ c && c ≤ 'F' then some (c.toNat - 55)
  else none

/-- The value of four hexadecimal digits. -/
def hexUnit? : List Char → Option Nat
  | [a, b, c, d] => do
    let a ← hexValue? a
    let b ← hexValue? b
    let c ← hexValue? c
    let d ← hexValue? d
    return ((a * 16 + b) * 16 + c) * 16 + d
  | _ => none

/-- The character that a simple escape stands for. -/
def simpleEscape? : Char → Option Char
  | '"' => some '"'
  | '\\' => some '\\'
  | '/' => some '/'
  | 'b' => some (Char.ofNat 8)
  | 'f' => some (Char.ofNat 12)
  | 'n' => some '\n'
  | 'r' => some '\r'
  | 't' => some '\t'
  | _ => none

/-- A code unit of the upper half of a pair. -/
def isHighUnit (n : Nat) : Bool := 0xd800 ≤ n && n ≤ 0xdbff

/-- A code unit of the lower half of a pair. -/
def isLowUnit (n : Nat) : Bool := 0xdc00 ≤ n && n ≤ 0xdfff

/-- The lower half that an escape right after an upper half adds, if there is one. A text must
go on after it. -/
def lowerHalf (c : Cursor) : Except Stop (Option Nat) :=
  match c.rest with
  | '\\' :: 'u' :: more =>
    if more.length < 5 then .ok none
    else match hexUnit? (more.take 4) with
      | none => .error (.at .badUnicodeEscape (c.index + 1))
      | some low => .ok (if isLowUnit low then some low else none)
  | _ => .ok none

/-- Some escape stands for one half of a pair without the other, which is no character. `upper` says
that the escape just before stands for an upper half. -/
def hasHalf : (upper : Bool) → List Char → Bool
  | upper, '\\' :: 'u' :: a :: b :: c :: d :: rest =>
    let unit := (hexUnit? [a, b, c, d]).getD 0
    if isLowUnit unit then !upper || hasHalf false rest
    else upper || hasHalf (isHighUnit unit) rest
  | upper, '\\' :: _ :: rest => upper || hasHalf false rest
  | upper, _ :: rest => upper || hasHalf false rest
  | upper, [] => upper

/-- Read the rest of a string whose opening quote is at `start`; `acc` holds the characters read
so far, last first. One half of a pair without the other is read as the replacement character. -/
def readString (start : Nat) : Nat → List Char → Cursor → Except Stop (String × Cursor)
  | 0, _, _ => .error (.at .unterminatedString start)
  | fuel + 1, acc, c =>
    match c.rest with
    | [] => .error (.at .unterminatedString start)
    | '"' :: _ => .ok (String.ofList acc.reverse, c.next)
    | ['\\'] => .error (.at .unterminatedString start)
    | '\\' :: 'u' :: more =>
      if more.length < 5 then .error (.at .badUnicodeEscape (c.index + 1))
      else match hexUnit? (more.take 4) with
        | none => .error (.at .badUnicodeEscape (c.index + 1))
        | some unit =>
          let after := c.advance 6
          if isHighUnit unit then
            match lowerHalf after with
            | .error e => .error e
            | .ok (some low) =>
              let n := 0x10000 + (unit - 0xd800) * 0x400 + (low - 0xdc00)
              readString start fuel (Char.ofNat n :: acc) (after.advance 6)
            | .ok none => readString start fuel (Char.ofNat 0xfffd :: acc) after
          else if isLowUnit unit then readString start fuel (Char.ofNat 0xfffd :: acc) after
          else readString start fuel (Char.ofNat unit :: acc) after
    | '\\' :: e :: _ =>
      match simpleEscape? e with
      | some ch => readString start fuel (ch :: acc) (c.advance 2)
      | none => .error (.at .badEscape c.index)
    | ch :: _ =>
      if ch.toNat < 32 then .error (.at .controlCharacter c.index)
      else readString start fuel (ch :: acc) c.next

/-- The whole part of a number: a zero or digits that start with another one. -/
def wholePart (cs : List Char) : List Char :=
  match cs with
  | '0' :: _ => ['0']
  | _ => cs.takeWhile Text.isAsciiDigit

/-- The fraction that follows a whole part: a point and at least one digit. -/
def fractionPart (cs : List Char) : List Char :=
  match cs with
  | '.' :: rest => match rest.takeWhile Text.isAsciiDigit with
    | [] => []
    | digits => '.' :: digits
  | _ => []

/-- The exponent of a number: the letter, a sign and at least one digit. -/
def exponentPart (cs : List Char) : List Char :=
  match cs with
  | e :: rest =>
    if e == 'e' || e == 'E' then
      let (sign, more) := match rest with
        | '-' :: more => (['-'], more)
        | '+' :: more => (['+'], more)
        | _ => ([], rest)
      match more.takeWhile Text.isAsciiDigit with
      | [] => []
      | digits => e :: sign ++ digits
    else []
  | [] => []

/-- Read a number. -/
def readNumber (c : Cursor) : Except Stop (Json × Cursor) :=
  let (sign, rest) : List Char × List Char := match c.rest with
    | '-' :: rest => (['-'], rest)
    | rest => ([], rest)
  match wholePart rest with
  | [] => .error (.at .expectingValue c.index)
  | whole =>
    let rest := rest.drop whole.length
    let fraction := fractionPart rest
    let rest := rest.drop fraction.length
    let exponent := exponentPart rest
    let text := sign ++ whole ++ fraction ++ exponent
    let after := c.advance text.length
    if fraction.isEmpty && exponent.isEmpty then
      match readInt (String.ofList text) with
      | .ok n => .ok (.int n, after)
      | .error e => .error (.number e)
    else
      match readDouble? (String.ofList text) with
      | some d => .ok (.float d, after)
      | none => .error (.at .expectingValue c.index)

/-- The constants and the text that writes each. -/
def constants : List (List Char × Json) :=
  [ ("null".toList, .null), ("true".toList, .bool true), ("false".toList, .bool false),
    ("NaN".toList, .float .nan), ("Infinity".toList, .float (.infinity false)),
    ("-Infinity".toList, .float (.infinity true)) ]

mutual

/-- Read one value at the cursor. -/
def readValue : Nat → Cursor → Except Stop (Json × Cursor)
  | 0, c => .error (.at .expectingValue c.index)
  | fuel + 1, c =>
    match c.rest with
    | '"' :: _ =>
      match readString c.index fuel [] c.next with
      | .ok (s, c) => .ok (.string s, c)
      | .error e => .error e
    | '\x7b' :: _ =>
      let c := c.next.skipSpace
      match c.rest with
      | '\x7d' :: _ => .ok (.object [], c.next)
      | _ => readFields fuel [] c
    | '[' :: _ =>
      let c := c.next.skipSpace
      match c.rest with
      | ']' :: _ => .ok (.array [], c.next)
      | _ => readItems fuel [] c
    | _ =>
      match constants.find? fun (text, _) => text.isPrefixOf c.rest with
      | some (text, v) => .ok (v, c.advance text.length)
      | none => readNumber c

/-- Read the items of a list up to its end; `acc` holds those read so far, last first. -/
def readItems : Nat → List Json → Cursor → Except Stop (Json × Cursor)
  | 0, _, c => .error (.at .expectingComma c.index)
  | fuel + 1, acc, c =>
    match readValue fuel c with
    | .error e => .error e
    | .ok (v, c) =>
      let c := c.skipSpace
      match c.rest with
      | ']' :: _ => .ok (.array (v :: acc).reverse, c.next)
      | ',' :: _ => readItems fuel (v :: acc) c.next.skipSpace
      | _ => .error (.at .expectingComma c.index)

/-- Read the fields of an object up to its end; `acc` holds those read so far. -/
def readFields : Nat → Fields → Cursor → Except Stop (Json × Cursor)
  | 0, _, c => .error (.at .expectingComma c.index)
  | fuel + 1, acc, c =>
    match c.rest with
    | '"' :: _ =>
      match readString c.index fuel [] c.next with
      | .error e => .error e
      | .ok (key, c) =>
        let c := c.skipSpace
        match c.rest with
        | ':' :: _ =>
          match readValue fuel c.next.skipSpace with
          | .error e => .error e
          | .ok (v, c) =>
            let c := c.skipSpace
            let acc := Fields.put acc key v
            match c.rest with
            | '\x7d' :: _ => .ok (.object acc, c.next)
            | ',' :: _ => readFields fuel acc c.next.skipSpace
            | _ => .error (.at .expectingComma c.index)
        | _ => .error (.at .expectingColon c.index)
    | _ => .error (.at .expectingName c.index)

end

/-- The line and the column of an index, both from one. -/
def lineAndColumn (cs : List Char) (index : Nat) : Nat × Nat :=
  let before := cs.take index
  let lines := before.count '\n'
  (lines + 1, (before.reverse.takeWhile (· != '\n')).length + 1)

/-- Read one value from characters that hold nothing else. -/
def readChars (cs : List Char) : Except Stop Json :=
  match cs with
  | '\ufeff' :: _ => .error (.at .byteOrderMark 0)
  | _ =>
    match readValue (2 * cs.length + 2) (Cursor.skipSpace ⟨cs, 0⟩) with
    | .error e => .error e
    | .ok (v, c) =>
      let c := c.skipSpace
      match c.rest with
      | [] => .ok v
      | _ => .error (.at .extraData c.index)

/-- Read one value from a text that holds nothing else. -/
def read (text : String) : Except ReadFault Json :=
  let cs := text.toList
  match readChars cs with
  | .ok v => .ok v
  | .error (.number e) => .error (.number e)
  | .error (.at what index) =>
    let (line, column) := lineAndColumn cs index
    .error (.problem what line column index)

end Json

end LeadDesk
