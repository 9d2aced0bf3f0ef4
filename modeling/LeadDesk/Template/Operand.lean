import LeadDesk.Template.Path
/-!
# Operands of a placeholder

What stands between the braces of a placeholder is a path, or several operands
parted by `||`, each of them a path or a literal. Of several operands the first
that is there and neither null nor the empty text is taken.
-/

namespace LeadDesk

/-- Split a list at every `||`, from the left. There is always at least one part. -/
def splitAtBars : List Char → List (List Char)
  | [] => [[]]
  | '|' :: '|' :: rest => [] :: splitAtBars rest
  | c :: rest =>
    match splitAtBars rest with
    | [] => [[c]]
    | part :: parts => (c :: part) :: parts

theorem splitAtBars_ne_nil (cs : List Char) : splitAtBars cs ≠ [] := by
  fun_cases splitAtBars cs <;> simp_all

/-- A character that does not begin two bars stays with what follows it. -/
theorem splitAtBars_cons {c : Char} {cs : List Char} (h : ¬ ['|', '|'] <+: c :: cs) :
    splitAtBars (c :: cs) = (splitAtBars cs).modifyHead (c :: ·) := by
  obtain ⟨part, parts, hparts⟩ := List.exists_cons_of_ne_nil (splitAtBars_ne_nil cs)
  rw [splitAtBars, hparts]
  · rfl
  · rintro rest rfl rfl
    exact h (List.prefix_append ['|', '|'] rest)

namespace Operand

/-- The literal that an operand's characters write: a quoted text, a constant, an empty list or
object, or a number in plain digits. -/
def literal? (cs : List Char) : Except NumberFault (Option Json) :=
  match cs with
  | [] => .ok none
  | quote :: rest =>
    if (quote == '\'' || quote == '"') && rest.getLast? == some quote then
      .ok (some (.string (String.ofList rest.dropLast)))
    else if cs == "true".toList then .ok (some (.bool true))
    else if cs == "false".toList then .ok (some (.bool false))
    else if cs == "null".toList then .ok (some .null)
    else if cs == "[]".toList then .ok (some (.array []))
    else if cs == ['\x7b', '\x7d'] then .ok (some (.object []))
    else
      let unsigned := if quote == '-' then rest else cs
      let whole := unsigned.takeWhile Text.isDecimal
      let after := unsigned.drop whole.length
      if whole.isEmpty then .ok none
      else match after with
        | [] => (readInt (String.ofList cs)).map fun n => some (.int n)
        | '.' :: fraction =>
          if !fraction.isEmpty && fraction.all Text.isDecimal then
            .ok ((readDouble? (String.ofList cs)).map .float)
          else .ok none
        | _ => .ok none

/-- The value of one operand of several. -/
def value (context : Json) (cs : List Char) : Except NumberFault (Option Json) :=
  let cs := Text.trimBlanks cs
  match literal? cs with
  | .error e => .error e
  | .ok (some v) => .ok (some v)
  | .ok none => Path.lookup context (String.ofList cs)

/-- A value at which a choice between operands stops. -/
def isPresent : Json → Bool
  | .null => false
  | .string s => s != ""
  | _ => true

/-- The value of the first operand that is present. -/
def firstPresent (context : Json) : List (List Char) → Except NumberFault (Option Json)
  | [] => .ok none
  | cs :: rest =>
    match value context cs with
    | .error e => .error e
    | .ok (some v) => if isPresent v then .ok (some v) else firstPresent context rest
    | .ok none => firstPresent context rest

/-- The value of all that stands between the braces. -/
def resolve (context : Json) (body : String) : Except NumberFault (Option Json) :=
  match splitAtBars body.toList with
  | [_] => Path.lookup context body
  | operands => firstPresent context operands

/-- The operand is a path. -/
def isPath (cs : List Char) : Bool :=
  match literal? (Text.trimBlanks cs) with
  | .ok none => true
  | _ => false

/-- The operand at which a choice stops. -/
def chosen? (context : Json) (operands : List (List Char)) : Option (List Char) :=
  operands.find? fun cs =>
    match value context cs with
    | .ok (some v) => isPresent v
    | _ => false

/-- The segments that lead to the value of all that stands between the braces, unless it is the
value of a literal. -/
def place? (context : Json) (body : String) : Option (List String) :=
  match splitAtBars body.toList with
  | [_] => some (Path.segments body)
  | operands =>
    ((chosen? context operands).filter isPath).map fun cs =>
      Path.segments (String.ofList (Text.trimBlanks cs))

end Operand

end LeadDesk
