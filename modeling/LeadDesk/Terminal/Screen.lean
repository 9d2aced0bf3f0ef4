import LeadDesk.Terminal.Markup
/-!
# Screens

What a command shows: marked-up lines, tables and panels, one below the other. Showing them
ends early, and the command with an error, at the first part whose marking is broken.
-/

namespace LeadDesk

namespace Terminal

/-- A table of marked-up cells. -/
structure Table where
  title : Option String := none
  header : List String
  rows : List (List String)

/-- A part of what a command shows. -/
inductive Part where
  | line (text : String)
  | table (t : Table)
  /-- Lines in a frame under a title. -/
  | panel (title : String) (lines : List String)

/-- What a command leaves behind: lines and an exit code. -/
structure Screen where
  lines : List String := []
  exit : Nat := 0
  deriving DecidableEq, Repr, Inhabited

/-- The lines of a text. -/
def linesOf (s : String) : List String := (splitAtEach '\n' s.toList).map String.ofList

/-- The lines of a marked-up text. -/
def plainLines? (s : String) : Option (List String) := (Markup.plain? s).map linesOf

/-- A text filled up with blanks to a width. -/
def filled (width : Nat) (s : String) : String :=
  s ++ String.ofList (List.replicate (width - s.length) ' ')

/-- The greatest length of the lines of a cell. -/
def cellWidth (cell : List String) : Nat := cell.foldl (fun w line => max w line.length) 0

/-- The widths of columns that are at least as wide as some widths and a row. -/
def widen : List Nat → List (List String) → List Nat
  | w :: ws, cell :: cells => max w (cellWidth cell) :: widen ws cells
  | [], cells => cells.map cellWidth
  | ws, [] => ws

/-- The line of a row at an index. -/
def rowLine (widths : List Nat) (row : List (List String)) (index : Nat) : String :=
  "  ".intercalate (List.zipWith (fun w cell => filled w ((cell[index]?).getD "")) widths row)

/-- The lines of a row. -/
def rowLines (widths : List Nat) (row : List (List String)) : List String :=
  let height := row.foldl (fun h cell => max h cell.length) 1
  (List.range height).map (rowLine widths row)

namespace Table

/-- The lines of a table: its title, the header and the rows. -/
def lines? (t : Table) : Option (List String) := do
  let title ← (t.title.map plainLines?).getD (some [])
  let cells ← (t.header :: t.rows).mapM fun row => row.mapM plainLines?
  let widths := cells.foldl widen []
  return title ++ cells.flatMap (rowLines widths)

end Table

/-- The lines of a part. -/
def Part.lines? : Part → Option (List String)
  | line text => plainLines? text
  | table t => t.lines?
  | panel title lines => do
    let title ← plainLines? title
    let body ← plainLines? ("\n".intercalate lines)
    return " ".intercalate title :: body

/-- Show parts below some lines. `exit` is the exit code of the command. -/
def showFrom (before : List String) (exit : Nat) : List Part → Screen
  | [] => ⟨before, exit⟩
  | p :: rest =>
    match p.lines? with
    | some lines => showFrom (before ++ lines) exit rest
    | none => ⟨before, 1⟩

/-- Show parts from the top. -/
def showAll (exit : Nat) (parts : List Part) : Screen := showFrom [] exit parts

/-- Without parts there is nothing but the exit code. -/
@[simp] theorem showAll_nil (exit : Nat) : showAll exit [] = ⟨[], exit⟩ := rfl

end Terminal

end LeadDesk
