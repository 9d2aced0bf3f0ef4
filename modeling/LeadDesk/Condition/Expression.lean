import LeadDesk.Condition.Token
/-!
# Expressions

An expression is evaluated while its tokens are read from the left:

    expression  := conjunction ( "||" conjunction )*
    conjunction := negation ( "&&" negation )*
    negation    := "!" negation | comparison
    comparison  := signed ( operator signed )?
    signed      := ( "-" | "+" ) signed | primary
    primary     := number | text | constant | path | "(" expression ")"

`||` and `&&` give one of their operands and not a truth value. The operand that does
not count is still read, and there a path without a value is no fault (`skip`).

Each reader takes the tokens that are left and gives a value and the tokens after it.
Only parentheses lead back to the start; `expressionAt` counts how deep they may nest,
and no list of tokens nests deeper than it is long.
-/

namespace LeadDesk

namespace Condition

/-- A value and the tokens after it. -/
abbrev Reading := Except Fault (Operand × List Token)

/-- A reader of tokens; the flag says that the value does not count. -/
abbrev Reader := Bool → List Token → Reading

/-- The value of a number's text. -/
def numberValue (text : String) : Except Fault Operand :=
  if text.toList.contains '.' then .ok ((readDouble? text).map .float)
  else match readInt text with
    | .ok n => .ok (some (.int n))
    | .error e => .error (.number e)

/-- The constants that look like paths, with their values. -/
def constant? : String → Option Operand
  | "true" => some (some (.bool true))
  | "false" => some (some (.bool false))
  | "null" => some (some .null)
  | "undefined" => some none
  | _ => none

/-- The value of a path. -/
def pathValue (context : Json) (skip : Bool) (path : String) : Except Fault Operand :=
  match constant? path with
  | some v => .ok v
  | none =>
    match Operand.resolve context path with
    | .error e => .error (.number e)
    | .ok none => if skip then .ok none else .error (.undefinedPath path)
    | .ok (some v) => .ok (some v)

/-- Read a primary; `nested` reads what stands in parentheses. -/
def primary (nested : Reader) (context : Json) (skip : Bool) : List Token → Reading
  | [] => .error .unexpectedEnd
  | ⟨.number, text⟩ :: rest => (numberValue text).map (·, rest)
  | ⟨.text, text⟩ :: rest =>
    .ok (some (.string (String.ofList (text.toList.drop 1).dropLast)), rest)
  | ⟨.path, text⟩ :: rest => (pathValue context skip text).map (·, rest)
  | ⟨.operator, text⟩ :: rest =>
    if text == "(" then
      match nested skip rest with
      | .error e => .error e
      | .ok (v, ⟨.operator, ")"⟩ :: rest) => .ok (v, rest)
      | .ok _ => .error .unclosed
    else .error (.unexpectedToken text)

/-- Read a primary with its signs. A sign makes a number of the value. -/
def signed (nested : Reader) (context : Json) (skip : Bool) : List Token → Reading
  | ⟨.operator, text⟩ :: rest =>
    if text == "-" || text == "+" then
      match signed nested context skip rest with
      | .error e => .error e
      | .ok (v, rest) =>
        (toNumber v).map fun d => (some (.float (if text == "-" then d.neg else d)), rest)
    else primary nested context skip (⟨.operator, text⟩ :: rest)
  | tokens => primary nested context skip tokens

/-- What a comparison operator says of two operands. -/
def comparison? : String → Option (Operand → Operand → Except Fault Bool)
  | "===" => some strictEqual
  | "!==" => some fun a b => (strictEqual a b).map (!·)
  | "==" => some looseEqual
  | "!=" => some fun a b => (looseEqual a b).map (!·)
  | "<" => some (compareBy .less)
  | "<=" => some (compareBy .lessOrEqual)
  | ">" => some (compareBy .greater)
  | ">=" => some (compareBy .greaterOrEqual)
  | _ => none

/-- The comparison that stands in front. -/
def comparisonAhead? : List Token → Option ((Operand → Operand → Except Fault Bool) × List Token)
  | ⟨.operator, text⟩ :: rest => (comparison? text).map (·, rest)
  | _ => none

/-- Read one operand, or two with a comparison between them. -/
def comparison (nested : Reader) (context : Json) (skip : Bool) (tokens : List Token) : Reading :=
  match signed nested context skip tokens with
  | .error e => .error e
  | .ok (left, rest) =>
    match comparisonAhead? rest with
    | none => .ok (left, rest)
    | some (compare, rest) =>
      match signed nested context skip rest with
      | .error e => .error e
      | .ok (right, rest) => (compare left right).map fun b => (some (.bool b), rest)

/-- Read a comparison with its negations. -/
def negation (nested : Reader) (context : Json) (skip : Bool) : List Token → Reading
  | ⟨.operator, text⟩ :: rest =>
    if text == "!" then
      match negation nested context skip rest with
      | .error e => .error e
      | .ok (v, rest) => (holds v).map fun b => (some (.bool !b), rest)
    else comparison nested context skip (⟨.operator, text⟩ :: rest)
  | tokens => comparison nested context skip tokens

/-- The operator `text` stands in front; the tokens after it. -/
def operatorAhead? (text : String) : List Token → Option (List Token)
  | ⟨.operator, t⟩ :: rest => if t == text then some rest else none
  | _ => none

/-- Read further operands behind the operator `text`. An operand counts when the value so far
holds or not as `onTruth` says; `count` bounds the number of operands. -/
def chain (operand : Reader) (text : String) (onTruth skip : Bool) :
    Nat → Operand → List Token → Reading
  | 0, left, tokens => .ok (left, tokens)
  | count + 1, left, tokens =>
    match operatorAhead? text tokens with
    | none => .ok (left, tokens)
    | some rest =>
      match holds left with
      | .error e => .error e
      | .ok b =>
        if b == onTruth then
          match operand skip rest with
          | .error e => .error e
          | .ok (right, rest) => chain operand text onTruth skip count right rest
        else
          match operand true rest with
          | .error e => .error e
          | .ok (_, rest) => chain operand text onTruth skip count left rest

/-- Read an operand and the further ones that `text` joins to it. -/
def joined (operand : Reader) (text : String) (onTruth : Bool) : Reader := fun skip tokens =>
  match operand skip tokens with
  | .error e => .error e
  | .ok (left, rest) => chain operand text onTruth skip rest.length left rest

/-- Read negations joined by `&&`. -/
def conjunction (nested : Reader) (context : Json) : Reader :=
  joined (negation nested context) "&&" true

/-- Read conjunctions joined by `||`. -/
def disjunction (nested : Reader) (context : Json) : Reader :=
  joined (conjunction nested context) "||" false

/-- Read an expression with parentheses nested at most so deep. -/
def expressionAt (context : Json) : Nat → Reader
  | 0 => fun _ _ => .error .unexpectedEnd
  | depth + 1 => disjunction (expressionAt context depth) context

/-- The value of a list of tokens that is a whole expression. -/
def valueOfTokens (context : Json) (tokens : List Token) : Except Fault Operand :=
  match tokens with
  | [] => .error .nothing
  | _ =>
    match expressionAt context (tokens.length + 1) false tokens with
    | .error e => .error e
    | .ok (v, []) => .ok v
    | .ok (_, t :: _) => .error (.unexpectedToken t.text)

/-- The value of an expression. Its placeholders are filled first. -/
def value (expression : String) (context : Json) : Except Fault Operand :=
  match Template.resolve expression context with
  | .error e => .error (.number e)
  | .ok filled =>
    match tokenize (normalize filled) with
    | .error e => .error e
    | .ok tokens => valueOfTokens context tokens

/-- Whether a condition holds: a text as an expression, any other value by itself. -/
def evaluate (condition context : Json) : Except Fault Bool :=
  match condition with
  | .string s =>
    match value s context with
    | .error e => .error e
    | .ok v => holds v
  | v => holds (some v)

end Condition

end LeadDesk
