import LeadDesk.Template.Operand
import LeadDesk.Json.Printer
/-!
# Templates

A template is a text with placeholders in double braces. Its pieces are found in one
pass from the left, and what a placeholder inserts is not looked at again.

* `Template.resolve` fills a text for reading: a placeholder without a value stays
  as it is written and null reads `null`.
* `Template.resolvePure` gives the value itself when the text is a single
  placeholder.
* `Template.resolveData` fills a whole structure as input for a tool: a single
  placeholder gives the value itself and its field disappears when there is none,
  while inside a longer text a missing value and null leave nothing.
-/

namespace LeadDesk

namespace Template

/-- A piece of a template: a character of its own, or what stands between double braces. -/
inductive Piece where
  | char (c : Char)
  | placeholder (body : List Char)
  deriving DecidableEq, Repr

/-- The characters that write a piece. -/
def Piece.written : Piece → List Char
  | char c => [c]
  | placeholder body => '\x7b' :: '\x7b' :: body ++ ['\x7d', '\x7d']

/-- The body of the placeholder that stands in front. It has at least one character and no closing
brace. -/
def placeholder? : List Char → Option (List Char)
  | '\x7b' :: '\x7b' :: rest =>
    let body := rest.takeWhile (· != '\x7d')
    match body, rest.drop body.length with
    | _ :: _, '\x7d' :: '\x7d' :: _ => some body
    | _, _ => none
  | _ => none

/-- The pieces of a text, where the first `skip` characters belong to the piece before. -/
def piecesAfter : Nat → List Char → List Piece
  | _, [] => []
  | skip + 1, _ :: rest => piecesAfter skip rest
  | 0, c :: rest =>
    match placeholder? (c :: rest) with
    | some body => .placeholder body :: piecesAfter (body.length + 3) rest
    | none => .char c :: piecesAfter 0 rest

/-- The pieces of a template. -/
def pieces (template : String) : List Piece := piecesAfter 0 template.toList

/-- The text that a value leaves in a longer text. Integral numbers have no fraction, and lists
and objects are JSON text. -/
def render : Json → String
  | .bool b => if b then "true" else "false"
  | .float d =>
    match d.toInt? with
    | some n => toString n
    | none => d.text
  | .array items => Json.compact (.array items)
  | .object fields => Json.compact (.object fields)
  | .string s => s
  | .int n => toString n
  | .null => "None"

mutual

/-- The value can be written: no integer in it has more digits than are written. -/
def isWritable : Json → Bool
  | .int n => n.natAbs < tenTo maxDigits
  | .array items => itemsWritable items
  | .object fields => fieldsWritable fields
  | _ => true

/-- All items of a list can be written. -/
def itemsWritable : List Json → Bool
  | [] => true
  | v :: rest => isWritable v && itemsWritable rest

/-- All values of an object can be written. -/
def fieldsWritable : List (String × Json) → Bool
  | [] => true
  | (_, v) :: rest => isWritable v && fieldsWritable rest

end

/-- What a placeholder's value leaves, from the value and from the written placeholder. -/
abbrev Filling := Option Json → List Char → List Char

/-- For reading: a missing value keeps the placeholder. -/
def keepMissing : Filling
  | none, written => written
  | some .null, _ => "null".toList
  | some v, _ => (render v).toList

/-- For tools: a missing value and null leave nothing. -/
def dropMissing : Filling
  | none, _ => []
  | some .null, _ => []
  | some v, _ => (render v).toList

/-- The value of a placeholder, provided that it can be written. -/
def valueOf (context : Json) (body : List Char) : Except NumberFault (Option Json) :=
  match Operand.resolve context (String.ofList (Text.trimBlanks body)) with
  | .error e => .error e
  | .ok v => if v.all isWritable then .ok v else .error .unwritable

/-- Fill the pieces of a template in order. -/
def fill (filling : Filling) (context : Json) : List Piece → Except NumberFault (List Char)
  | [] => .ok []
  | .char c :: rest => (fill filling context rest).map (c :: ·)
  | .placeholder body :: rest =>
    match valueOf context body with
    | .error e => .error e
    | .ok v => (fill filling context rest).map
        (filling v (Piece.written (.placeholder body)) ++ ·)

/-- Fill a text for reading. -/
def resolve (template : String) (context : Json) : Except NumberFault String :=
  (fill keepMissing context (pieces template)).map String.ofList

/-- Fill a value for reading. Only a text has placeholders. -/
def resolveValue (template context : Json) : Except NumberFault Json :=
  match template with
  | .string s => (resolve s context).map .string
  | v => .ok v

/-- The body of the placeholder that is the whole text, blanks around it aside. -/
def pureBody? (template : String) : Option (List Char) :=
  match piecesAfter 0 (Text.trimBlanks template.toList) with
  | [.placeholder body] => some body
  | _ => none

/-- The text is a single placeholder. -/
def isPure (template : String) : Bool := (pureBody? template).isSome

/-- The value of a text that is a single placeholder, `none` for any other text. -/
def pureValue? (template : String) (context : Json) : Except NumberFault (Option (Option Json)) :=
  match pureBody? template with
  | some body =>
    (Operand.resolve context (String.ofList (Text.trimBlanks body))).map some
  | none => .ok none

/-- The segments that lead to the value of a text that is a single placeholder. -/
def place? (template : String) (context : Json) : Option (List String) :=
  (pureBody? template).bind fun body =>
    Operand.place? context (String.ofList (Text.trimBlanks body))

/-- The value itself for a single placeholder, the filled text otherwise. -/
def resolvePure (template context : Json) : Except NumberFault (Option Json) :=
  match template with
  | .string s =>
    match pureValue? s context with
    | .error e => .error e
    | .ok (some v) => .ok v
    | .ok none => (resolve s context).map fun s => some (.string s)
  | v => .ok (some v)

mutual

/-- Fill a structure as input for a tool. -/
def resolveData (context : Json) : Json → Except NumberFault (Option Json)
  | .string s =>
    match pureValue? s context with
    | .error e => .error e
    | .ok (some v) => .ok v
    | .ok none =>
      (fill dropMissing context (pieces s)).map fun cs => some (.string (String.ofList cs))
  | .array items => (resolveItems context items).map fun items => some (.array items)
  | .object fields => (resolveFields context fields).map fun fields => some (.object fields)
  | v => .ok (some v)

/-- Fill the items of a list. An item without a value becomes null. -/
def resolveItems (context : Json) : List Json → Except NumberFault (List Json)
  | [] => .ok []
  | item :: rest =>
    match resolveData context item with
    | .error e => .error e
    | .ok v => (resolveItems context rest).map (v.getD .null :: ·)

/-- Fill the fields of an object. A field without a value disappears. -/
def resolveFields (context : Json) : List (String × Json) →
    Except NumberFault (List (String × Json))
  | [] => .ok []
  | (key, value) :: rest =>
    match resolveData context value with
    | .error e => .error e
    | .ok (some v) => (resolveFields context rest).map ((key, v) :: ·)
    | .ok none => resolveFields context rest

end

end Template

end LeadDesk
