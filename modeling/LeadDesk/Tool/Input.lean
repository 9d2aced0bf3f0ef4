import LeadDesk.Desk.Archive
/-!
# Input of tools

Tools take an object of named values. A value that is not given has a default; a value of
the wrong kind is a failure that says what was expected of it.
-/

namespace LeadDesk

namespace Input

/-- The value of a parameter, or its default. -/
def value (input : Fields) (name : String) (default : Json) : Json :=
  (Fields.get? input name).getD default

/-- The value of a parameter that is the empty text by default. -/
def text (input : Fields) (name : String) : Json := value input name (.string "")

/-- The integer that a value stands for. -/
def integer : Json → Except Failure Int
  | .int n => .ok n
  | .bool b => .ok (if b then 1 else 0)
  | .float d =>
    match d with
    | .infinity _ => .error (.noInteger true)
    | d =>
      match d.truncate? with
      | some n => .ok n
      | none => .error (.noInteger false)
  | .string s =>
    match readInt s with
    | .ok n => .ok n
    | .error e => .error (.number e)
  | v => .error (.wrongKind
      ("int() argument must be a string, a bytes-like object or a real number, not '" ++
        v.kindName ++ "'"))

/-- Fields put on top of a stored object, which may be missing. -/
def onTopOf (stored : Json) (more : Fields) : Except Failure Json :=
  match stored.orElse .empty with
  | .object fields => .ok (.object (Fields.overlay fields more))
  | v => .error (.wrongKind s!"'{v.kindName}' object is not a mapping")

/-- A stored count and one more; nothing stored counts as zero. -/
def oneMore (stored : Json) : Except Failure Json :=
  match stored.orElse (.int 0) with
  | .int n => .ok (.int (n + 1))
  | .bool b => .ok (.int (if b then 2 else 1))
  | .float d => .ok (.float (d.add .one))
  | .string _ => .error (.wrongKind "can only concatenate str (not \"int\") to str")
  | .array _ => .error (.wrongKind "can only concatenate list (not \"int\") to list")
  | v => .error (.wrongKind s!"unsupported operand type(s) for +: '{v.kindName}' and 'int'")

/-- A row as a value, null for none. -/
def row? (row : Option Row) : Json := (row.map Json.object).getD .null

/-- Rows as a value. -/
def rows (rows : List Row) : Json := .array (rows.map Json.object)

end Input

end LeadDesk
