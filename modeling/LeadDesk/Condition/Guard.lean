import LeadDesk.Condition.Basic
/-!
# Run guards

A guard compares the value of a field with a fixed value by a named operator. A list
of guards holds when each of them holds, and no guard is looked at after one that
does not.
-/

namespace LeadDesk

/-- A condition on a field of the context. The field is a template's path, with or without the
braces. -/
structure Guard where
  field : String
  operator : String
  value : Json
  deriving Repr, Inhabited

namespace Guard

/-- What a guard checks. -/
inductive Check where
  | equals
  | notEquals
  | isEmpty
  | isNotEmpty
  | contains
  | order (order : Condition.Order)
  | isIn
  | isNotIn
  deriving DecidableEq, Repr

/-- The check that an operator names. -/
def check? : String → Option Check
  | "==" | "eq" | "equals" => some .equals
  | "!=" | "neq" | "not_equals" => some .notEquals
  | "is_empty" => some .isEmpty
  | "is_not_empty" => some .isNotEmpty
  | "contains" => some .contains
  | ">" | "gt" | "greater_than" => some (.order .greater)
  | "<" | "lt" | "less_than" => some (.order .less)
  | ">=" | "gte" | "greater_or_equal" => some (.order .greaterOrEqual)
  | "<=" | "lte" | "less_or_equal" => some (.order .lessOrEqual)
  | "in" => some .isIn
  | "not_in" => some .isNotIn
  | _ => none

/-- One list of characters occurs in another. -/
def occursIn (part : List Char) : List Char → Bool
  | [] => part.isEmpty
  | c :: rest => part.isPrefixOf (c :: rest) || occursIn part rest

/-- Equality of a field's value with a target: a truth value only equals the same truth value, all
else is compared as text. -/
def equalTo (value : Condition.Operand) (target : Json) : Bool :=
  match target, value with
  | .bool b, some (.bool a) => a == b
  | .bool _, _ => false
  | target, value => Condition.toText value == Condition.toText (some target)

/-- The value has the text of one of the options. -/
def amongTexts (value : Condition.Operand) (options : List Json) : Bool :=
  options.any fun o => Condition.toText value == Condition.toText (some o)

/-- What a target offers to choose from: the items of a list, or itself. -/
def options : Json → List Json
  | .array items => items
  | v => [v]

/-- Carry out a check on a field's value. -/
def Check.run (check : Check) (value : Condition.Operand) (target : Json) :
    Except Condition.Fault Bool :=
  match check with
  | .equals => .ok (equalTo value target)
  | .notEquals => .ok (!equalTo value target)
  | .isEmpty => .ok (Condition.isEmpty value)
  | .isNotEmpty => .ok (!Condition.isEmpty value)
  | .contains =>
    match value with
    | some (.array items) =>
      .ok (items.any fun i => Condition.toText (some i) == Condition.toText (some target))
    | value =>
      .ok (occursIn (Condition.toText (some target)).toList (Condition.toText value).toList)
  | .order o => do
    let x ← Condition.toNumber value
    let y ← Condition.toNumber (some target)
    return Condition.ordered o x y
  | .isIn => .ok (amongTexts value (options target))
  | .isNotIn => .ok (!amongTexts value (options target))

/-- A list of characters without the places where `a` stands twice. -/
def withoutPairs (a : Char) : List Char → List Char
  | c :: d :: rest =>
    if c == a && d == a then withoutPairs a rest else c :: withoutPairs a (d :: rest)
  | cs => cs

/-- The path of the field, without braces. -/
def path (g : Guard) : String :=
  Text.trim (String.ofList (withoutPairs '\x7d' (withoutPairs '\x7b' g.field.toList)))

/-- Whether a guard holds. A guard with an unknown operator does not. -/
def holds (g : Guard) (context : Json) : Except Condition.Fault Bool :=
  match Operand.resolve context g.path with
  | .error e => .error (.number e)
  | .ok value =>
    match check? g.operator with
    | some check => check.run value g.value
    | none => .ok false

/-- Whether all guards of a list hold. -/
def allHold (context : Json) : List Guard → Except Condition.Fault Bool
  | [] => .ok true
  | g :: rest =>
    match g.holds context with
    | .error e => .error e
    | .ok true => allHold context rest
    | .ok false => .ok false

/-- A guard as a data value. -/
def toJson (g : Guard) : Json :=
  .object [("field", .string g.field), ("operator", .string g.operator), ("value", g.value)]

theorem allHold_nil (context : Json) : allHold context [] = .ok true := rfl

end Guard

end LeadDesk
