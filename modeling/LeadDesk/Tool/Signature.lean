import LeadDesk.Failure
import LeadDesk.Text.Letter
/-!
# Signatures of tools

The parameters of a tool, in the order in which they are written. A signature must follow
the rules for that order (`Signature.check`), and it yields the schema of the input that
workflows may give to the tool (`Signature.schema`).
-/

namespace LeadDesk

/-- Where the value of a parameter comes from. -/
inductive ParameterPlace where
  /-- By position or by name. -/
  | positional
  /-- All positions that are left. -/
  | morePositions
  /-- By name only. -/
  | named
  /-- All names that are left. -/
  | moreNames
  deriving DecidableEq, Repr

namespace ParameterPlace

/-- The rank of a place in the order of writing. -/
def rank : ParameterPlace → Nat
  | positional => 1
  | morePositions => 2
  | named => 3
  | moreNames => 4

/-- The name of a place in messages. -/
def description : ParameterPlace → String
  | positional => "positional or keyword"
  | morePositions => "variadic positional"
  | named => "keyword-only"
  | moreNames => "variadic keyword"

/-- The place takes any number of values. -/
def isVariadic : ParameterPlace → Bool
  | morePositions | moreNames => true
  | positional | named => false

end ParameterPlace

/-- What kind of value a parameter takes. -/
inductive ParameterType where
  | text
  | integer
  | number
  | truth
  | list
  | object
  /-- A type that schemas have no word for, or none at all. -/
  | other
  deriving DecidableEq, Repr

/-- The word of a schema for a type. What has no word of its own counts as text. -/
def ParameterType.word : ParameterType → String
  | text | other => "string"
  | integer => "integer"
  | number => "number"
  | truth => "boolean"
  | list => "array"
  | object => "object"

/-- A parameter of a tool. -/
structure Parameter where
  name : String
  place : ParameterPlace := .positional
  type : ParameterType := .text
  hasDefault : Bool := true
  deriving DecidableEq, Repr

namespace Signature

/-- Words that cannot name a parameter. -/
def reservedWords : List String := [
  "False", "None", "True", "and", "as", "assert", "async", "await", "break", "class",
  "continue", "def", "del", "elif", "else", "except", "finally", "for", "from", "global", "if",
  "import", "in", "is", "lambda", "nonlocal", "not", "or", "pass", "raise", "return", "try",
  "while", "with", "yield"]

/-- The text can name a parameter: letters, digits and underscores, no digit in front. -/
def isName (name : String) : Bool :=
  match name.toList with
  | [] => false
  | c :: rest =>
    Text.isWordChar c && (Text.decimalValue? c).isNone && rest.all Text.isWordChar &&
      !reservedWords.contains name

/-- Check a parameter on its own. -/
def checkParameter (p : Parameter) : Except Failure Unit :=
  if p.hasDefault && p.place.isVariadic then
    .error (.signature s!"{p.place.description} parameters cannot have default values")
  else if p.name == "" then .error .noIndex
  else if !isName p.name then
    .error (.signature s!"{Text.quoted p.name} is not a valid parameter name")
  else .ok ()

/-- Check the order of parameters that follow some others. `top` is the last place so far, and
`defaults` says that a parameter of that place had a default. -/
def checkOrder (top : ParameterPlace) (defaults : Bool) (names : List String) :
    List Parameter → Except Failure Unit
  | [] => .ok ()
  | p :: rest =>
    if p.place.rank < top.rank then
      let order := s!"{top.description} parameter before {p.place.description} parameter"
      .error (.signature s!"wrong parameter order: {order}")
    else
      let defaults := if top.rank < p.place.rank then false else defaults
      if p.place == .positional && defaults && !p.hasDefault then
        .error (.signature "non-default argument follows default argument")
      else if names.contains p.name then
        .error (.signature s!"duplicate parameter name: {Text.quoted p.name}")
      else
        checkOrder p.place (defaults || (p.place == .positional && p.hasDefault))
          (p.name :: names) rest

/-- Check a list of parameters. -/
def check (ps : List Parameter) : Except Failure Unit := do
  ps.forM checkParameter
  checkOrder .positional false [] ps

/-- The names that the desk itself gives to a tool. -/
def boundNames : List String := ["self", "repo"]

/-- The parameters that the input of a tool may set. -/
def inputs (ps : List Parameter) : List Parameter :=
  ps.filter fun p => !boundNames.contains p.name && !p.place.isVariadic

/-- The schema of the input of a tool. -/
def schema (ps : List Parameter) : Fields :=
  [("type", "object"),
    ("properties", .object ((inputs ps).map fun p =>
      (p.name, .object [("type", .string p.type.word),
        ("description", .string s!"Parameter: {p.name}")]))),
    ("required", Json.ofTexts (((inputs ps).filter (!·.hasDefault)).map (·.name)))]

/-- The schema asks for a parameter exactly when it has no default. -/
theorem mem_required_iff (ps : List Parameter) (name : String) :
    name ∈ ((inputs ps).filter (!·.hasDefault)).map (·.name) ↔
      ∃ p ∈ inputs ps, p.hasDefault = false ∧ p.name = name := by
  simp [and_assoc]

end Signature

end LeadDesk
