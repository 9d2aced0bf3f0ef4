import LeadDesk.Store.Column
/-!
# Rows

A row holds a value for each column of its table, in the order of the columns. A new row
takes defaults for the columns that are not given (`Row.create`); a changed row keeps the
columns that are not named (`Row.change`). Rows are sorted by a column with null before
numbers and numbers before text (`Row.sortBy`), and rows that agree keep their order.
-/

namespace LeadDesk

/-- A stored row. -/
abbrev Row := Fields

namespace Row

/-- The value of a column. -/
def value (row : Row) (column : String) : Json := Fields.getD row column

/-- The text of a text column. -/
def text? (row : Row) (column : String) : Option String := (value row column).text?

/-- The id of a row. -/
def id (row : Row) : String := (text? row "id").getD ""

/-- The column with a name. -/
def column? (columns : List Column) (name : String) : Option Column :=
  columns.find? (·.name == name)

/-- Read the moments among given values. -/
def readMoments (columns : List Column) : Fields → Except Failure Fields
  | [] => .ok []
  | (name, v) :: rest => do
    let v ← match column? columns name with
      | some c => if c.kind = .moment then Column.readMoment v else .ok v
      | none => .ok v
    return (name, v) :: (← readMoments columns rest)

/-- What a column holds when nothing is given for it. -/
def defaultOf (freshId : String) (now : Timestamp) : ColumnDefault → Json
  | .nothing => .null
  | .value v => v
  | .freshId => .string freshId
  | .now => Column.momentText now

/-- The value of a column in a new row. Null counts as not given, but for a data column. -/
def initial (freshId : String) (now : Timestamp) (given : Fields) (c : Column) :
    Except Failure Json :=
  match Fields.get? given c.name with
  | none => .ok (defaultOf freshId now c.default)
  | some .null => .ok (if c.kind = .data then .null else defaultOf freshId now c.default)
  | some v => Column.form c.kind v

/-- A new row. -/
def create (columns : List Column) (freshId : String) (now : Timestamp) (given : Fields) :
    Except Failure Row :=
  match columns with
  | [] => .ok []
  | c :: rest => do
    let v ← initial freshId now given c
    if c.isRequired && v.isNull then throw .unstorable
    return (c.name, v) :: (← create rest freshId now given)

/-- The row with changes put on top. A change of something that is no column is ignored. -/
def change (columns : List Column) (row : Row) : Fields → Except Failure Row
  | [] => .ok row
  | (name, v) :: rest =>
    match column? columns name with
    | none => change columns row rest
    | some c =>
      match Column.renewed c.kind (value row name) v with
      | .error e => .error e
      | .ok v => change columns (Fields.put row name v) rest

/-- Where a value stands among values of other kinds. -/
def sortRank : Json → Nat
  | .null => 0
  | .bool _ | .int _ | .float _ => 1
  | .string _ => 2
  | .array _ | .object _ => 3

/-- The order of stored values. -/
def precedes (a b : Json) : Bool :=
  if sortRank a = sortRank b then
    match a, b with
    | .string s, .string t => s ≤ t
    | a, b => Json.compareNumbers? a b != some .gt
  else sortRank a ≤ sortRank b

/-- Rows by the value of a column, least first; rows that agree keep their order. -/
def sortBy (column : String) (rows : List Row) : List Row :=
  rows.mergeSort fun a b => precedes (value a column) (value b column)

/-- Rows by the value of a column, greatest first; rows that agree keep their order. -/
def sortDown (column : String) (rows : List Row) : List Row :=
  rows.mergeSort fun a b => precedes (value b column) (value a column)

/-- The first rows, up to a limit. A negative limit, or none, takes them all. -/
def upTo {α : Type} (limit : Option Int) (rows : List α) : List α :=
  match limit with
  | none => rows
  | some n => if n < 0 then rows else rows.take n.toNat

/-- The rows in which a text column equals a wanted value, which is read as a text column reads
it. A wanted null stands for no value. -/
def select (column : String) (wanted : Json) (rows : List Row) : Except Failure (List Row) :=
  match Column.textForm wanted with
  | .error e => .error e
  | .ok w => .ok (rows.filter fun row => w.same (value row column))

/-- The row with an id put in place of the one that has it. -/
def replace (row : Row) (rows : List Row) : List Row :=
  rows.map fun r => if Row.id r == Row.id row then row else r

/-- Sorting keeps the rows. -/
theorem sortBy_perm (column : String) (rows : List Row) : (sortBy column rows).Perm rows :=
  List.mergeSort_perm _ _

/-- A change of nothing changes nothing. -/
@[simp] theorem change_nil (columns : List Column) (row : Row) : change columns row [] = .ok row :=
  rfl

end Row

end LeadDesk
