import LeadDesk.Json.Basic
import LeadDesk.Number.Shortest
import LeadDesk.Text.Quoted
/-!
# Data values as text

`Json.print` writes a value as JSON text in ASCII: other characters become
`\u` escapes, in pairs above the basic plane. The separators are a parameter;
`Json.compact` has no blanks and `Json.spaced` one blank after each comma and colon.

`Json.display` is the text that a message shows: quoted texts, lists in brackets
and objects in braces, with `None`, `True` and `False` for the constants. A text at
the top stands without quotes (`Json.plain`).
-/

namespace LeadDesk

namespace Json

/-- The two separators of JSON text. -/
structure Separators where
  item : String
  field : String

/-- No blanks at all. -/
def tight : Separators := ⟨",", ":"⟩

/-- One blank after each separator. -/
def airy : Separators := ⟨", ", ": "⟩

/-- A code unit as an escape. -/
def unitEscape (n : Nat) : List Char := '\\' :: 'u' :: Text.hexDigits 4 n

/-- One character of a JSON string. -/
def escapeChar (c : Char) : List Char :=
  if c == '"' then ['\\', '"']
  else if c == '\\' then ['\\', '\\']
  else if c == '\n' then ['\\', 'n']
  else if c == '\r' then ['\\', 'r']
  else if c == '\t' then ['\\', 't']
  else if c == Char.ofNat 8 then ['\\', 'b']
  else if c == Char.ofNat 12 then ['\\', 'f']
  else if 32 ≤ c.toNat && c.toNat < 127 then [c]
  else if c.toNat < 0x10000 then unitEscape c.toNat
  else
    let n := c.toNat - 0x10000
    unitEscape (0xd800 + n / 0x400) ++ unitEscape (0xdc00 + n % 0x400)

/-- A text as a JSON string. -/
def printText (s : String) : String :=
  String.ofList ('"' :: s.toList.flatMap escapeChar ++ ['"'])

/-- A floating-point number in JSON text. -/
def printFloat : Double → String
  | .nan => "NaN"
  | .infinity negative => if negative then "-Infinity" else "Infinity"
  | d => d.text

mutual

/-- A value as JSON text. -/
def print (style : Separators) : Json → String
  | null => "null"
  | bool b => if b then "true" else "false"
  | int n => toString n
  | float d => printFloat d
  | string s => printText s
  | array items => "[" ++ printItems style items ++ "]"
  | object fields => "\x7b" ++ printFields style fields ++ "\x7d"

/-- The items of a list with their separators. -/
def printItems (style : Separators) : List Json → String
  | [] => ""
  | [x] => print style x
  | x :: y :: rest => print style x ++ style.item ++ printItems style (y :: rest)

/-- The fields of an object with their separators. -/
def printFields (style : Separators) : List (String × Json) → String
  | [] => ""
  | [(k, v)] => printText k ++ style.field ++ print style v
  | (k, v) :: f :: rest =>
    printText k ++ style.field ++ print style v ++ style.item ++ printFields style (f :: rest)

end

/-- JSON text without blanks. -/
def compact (v : Json) : String := print tight v

/-- JSON text with a blank after each separator. -/
def spaced (v : Json) : String := print airy v

mutual

/-- A value as messages show it inside another value. -/
def display : Json → String
  | null => "None"
  | bool b => if b then "True" else "False"
  | int n => toString n
  | float d => d.text
  | string s => Text.quoted s
  | array items => "[" ++ displayItems items ++ "]"
  | object fields => "\x7b" ++ displayFields fields ++ "\x7d"

/-- The items of a list as messages show them. -/
def displayItems : List Json → String
  | [] => ""
  | [x] => display x
  | x :: y :: rest => display x ++ ", " ++ displayItems (y :: rest)

/-- The fields of an object as messages show them. -/
def displayFields : List (String × Json) → String
  | [] => ""
  | [(k, v)] => Text.quoted k ++ ": " ++ display v
  | (k, v) :: f :: rest =>
    Text.quoted k ++ ": " ++ display v ++ ", " ++ displayFields (f :: rest)

end

/-- A value as a message shows it on its own: a text stands without quotes. -/
def plain : Json → String
  | string s => s
  | v => display v

end Json

end LeadDesk
