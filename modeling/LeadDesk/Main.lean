import LeadDesk.Json.Reader
import LeadDesk.Terminal.Execution
import LeadDesk.Terminal.Line
import Std.Time
/-!
# The program

With words on its command line the program carries out that one command on an empty desk.
Without any it reads commands line by line from its input and carries them out on one desk,
until the input ends. The clock of the desk is set to universal time before each command.
-/

namespace LeadDesk

namespace Terminal

/-- Microseconds since the first instant of 1970. -/
def microsNow : IO Int := do
  return (← Std.Time.Timestamp.now).toNanosecondsSinceUnixEpoch.val / 1000

/-- The file that a command reads, with its document if it holds one. -/
def filesOf (words : List String) : IO Files := do
  match Command.parse words with
  | some (.seed (some path)) =>
    try
      match Json.read (← IO.FS.readFile path) with
      | .ok document => return [(path, document)]
      | .error _ => return []
    catch _ => return []
  | _ => return []

/-- Carry out a command line and print its screen: the exit code and the desk after it. -/
def runLine (office : Office) (desk : Desk) (words : List String) : IO (Nat × Desk) := do
  let desk := { desk with clock := max desk.clock (← microsNow), journal := {} }
  let (ending, desk) := (carryOut (← filesOf words) words).run (surroundings office) desk
  match ending with
  | .done screen =>
    for line in screen.lines do IO.println line
    return (screen.exit, desk)
  | _ => return (1, desk)

/-- Carry out the commands of the input, each on a line of its own. -/
partial def runLines (office : Office) (desk : Desk) (input : IO.FS.Stream) : IO Unit := do
  let line ← input.getLine
  if line.isEmpty then return
  match wordsOfLine line with
  | [] => runLines office desk input
  | words =>
    let (_, desk) ← runLine office desk words
    runLines office desk input

end Terminal

end LeadDesk

/-- The program. Its exit code is that of the command on its command line. -/
def main (words : List String) : IO UInt32 := do
  match words with
  | [] =>
    LeadDesk.Terminal.runLines {} {} (← IO.getStdin)
    return 0
  | words => return UInt32.ofNat (← LeadDesk.Terminal.runLine {} {} words).1
