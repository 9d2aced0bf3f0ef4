import LeadDesk.Json.Printer
/-!
# Validation

A value that comes from outside is checked against the shape that a record of the
desk has. All violations are reported, each with its place in the value
(`Checked` collects them in the order of the fields), and `Report.message` is the
text that a log shows.
-/

namespace LeadDesk

namespace Validation

/-- What is wrong with a value. -/
inductive Complaint where
  | missing
  | text
  | integer
  | integerText
  | integerFraction
  | integerSize
  | notFinite
  | truth
  | truthText
  | object
  | list
  | record (name : String)
  | choice (options : List String)
  | timestamp
  | timestampText (reason : String)
  | dateText (reason : String)
  deriving DecidableEq, Repr

/-- The code word of a complaint. -/
def Complaint.code : Complaint → String
  | missing => "missing"
  | text => "string_type"
  | integer => "int_type"
  | integerText => "int_parsing"
  | integerFraction => "int_from_float"
  | integerSize => "int_parsing_size"
  | notFinite => "finite_number"
  | truth => "bool_type"
  | truthText => "bool_parsing"
  | object => "dict_type"
  | list => "list_type"
  | record _ => "model_type"
  | choice _ => "enum"
  | timestamp => "datetime_type"
  | timestampText _ => "datetime_parsing"
  | dateText _ => "datetime_from_date_parsing"

/-- Options in quotes, the last one joined by `or`. -/
def listOptions (options : List String) : String :=
  let quotedOptions := options.map fun o => "'" ++ o ++ "'"
  match quotedOptions.reverse with
  | [] => ""
  | [o] => o
  | last :: others => ", ".intercalate others.reverse ++ " or " ++ last

/-- The wording of a complaint. -/
def Complaint.message : Complaint → String
  | missing => "Field required"
  | text => "Input should be a valid string"
  | integer => "Input should be a valid integer"
  | integerText => "Input should be a valid integer, unable to parse string as an integer"
  | integerFraction => "Input should be a valid integer, got a number with a fractional part"
  | integerSize => "Unable to parse input string as an integer, exceeded maximum size"
  | notFinite => "Input should be a finite number"
  | truth => "Input should be a valid boolean"
  | truthText => "Input should be a valid boolean, unable to interpret input"
  | object => "Input should be a valid dictionary"
  | list => "Input should be a valid list"
  | record name => s!"Input should be a valid dictionary or instance of {name}"
  | choice options => "Input should be " ++ listOptions options
  | timestamp => "Input should be a valid datetime"
  | timestampText reason => s!"Input should be a valid datetime, {reason}"
  | dateText reason => s!"Input should be a valid datetime or date, {reason}"

/-- A step on the way to a place in a value. -/
inductive Step where
  | key (name : String)
  | index (n : Nat)
  deriving DecidableEq, Repr

/-- A complaint about the value at a place. For a missing field the value is the whole object. -/
structure Violation where
  place : List Step
  complaint : Complaint
  input : Json
  deriving Repr

/-- The result of a check: a good value, or all that is wrong. -/
inductive Checked (α : Type) where
  | good (value : α)
  | bad (violations : List Violation)

namespace Checked

/-- Apply a function to a good value. -/
def map {α β : Type} (f : α → β) : Checked α → Checked β
  | good a => good (f a)
  | bad vs => bad vs

/-- Combine two checks; both report what is wrong. -/
def ap {α β : Type} (f : Checked (α → β)) (a : Unit → Checked α) : Checked β :=
  match f, a () with
  | good f, good a => good (f a)
  | good _, bad vs => bad vs
  | bad vs, good _ => bad vs
  | bad vs, bad ws => bad (vs ++ ws)

instance : Applicative Checked where
  pure := good
  map := map
  seq := ap

/-- The check of a value at a deeper place. -/
def under {α : Type} (step : Step) : Checked α → Checked α
  | good a => good a
  | bad vs => bad (vs.map fun v => ⟨step :: v.place, v.complaint, v.input⟩)

/-- A single complaint about a whole value. -/
def complain {α : Type} (complaint : Complaint) (input : Json) : Checked α :=
  bad [⟨[], complaint, input⟩]

/-- The good value, if there is one. -/
def toOption {α : Type} : Checked α → Option α
  | good a => some a
  | bad _ => none

@[simp] theorem map_good {α β : Type} (f : α → β) (a : α) : map f (good a) = good (f a) := rfl

/-- Combining succeeds exactly when both checks do. -/
theorem ap_eq_good {α β : Type} {f : Checked (α → β)} {a : Unit → Checked α} {b : β} :
    ap f a = good b ↔ ∃ g x, f = good g ∧ a () = good x ∧ g x = b := by
  unfold ap
  cases f <;> cases a () <;> simp

end Checked

/-- The violations of a record of some kind. -/
structure Report where
  recordName : String
  violations : List Violation
  deriving Repr

/-- The place of a violation as text. -/
def Violation.placeText (v : Violation) : String :=
  ".".intercalate (v.place.map fun
    | .key name => name
    | .index n => toString n)

/-- The first `size` bytes of a text, cut to whole characters. -/
def takeBytes (size : Nat) : List Char → List Char
  | [] => []
  | c :: rest => if c.utf8Size ≤ size then c :: takeBytes (size - c.utf8Size) rest else []

/-- The last `size` bytes of a text, cut to whole characters. -/
def lastBytes (size : Nat) (cs : List Char) : List Char := (takeBytes size cs.reverse).reverse

/-- A value as a report shows it; a long text is cut in the middle. -/
def shownInput (v : Json) : String :=
  let text := v.display
  if text.utf8ByteSize > 50 then
    String.ofList (takeBytes 25 text.toList) ++ "..." ++
      String.ofList (lastBytes 24 text.toList)
  else text

/-- A violation as lines of text. -/
def Violation.text (v : Violation) : String :=
  let place := if v.place.isEmpty then "" else v.placeText ++ "\n"
  place ++ "  " ++ v.complaint.message ++ " [type=" ++ v.complaint.code ++ ", input_value=" ++
    shownInput v.input ++ ", input_type=" ++ v.input.kindName ++ "]"

/-- A report as text. -/
def Report.message (r : Report) : String :=
  let count := r.violations.length
  let plural := if count = 1 then "" else "s"
  s!"{count} validation error{plural} for {r.recordName}\n" ++
    "\n".intercalate (r.violations.map Violation.text)

/-- A check as a result with a report. -/
def Checked.toExcept {α : Type} (recordName : String) : Checked α → Except Report α
  | .good a => .ok a
  | .bad vs => .error ⟨recordName, vs⟩

end Validation

end LeadDesk
