import LeadDesk.Json.Printer
import LeadDesk.Time.Timestamp
/-!
# Audit lines

One line of JSON text per happening in the life of a run, with the moment of writing. Long
values are cut, and structured ones are written as text. A failed step is a warning and a
failed run an error.
-/

namespace LeadDesk

namespace Audit

/-- How serious a line is. -/
inductive Level where
  | info
  | warning
  | error
  deriving DecidableEq, Repr

/-- The word for a level. -/
def Level.word : Level → String
  | info => "INFO"
  | warning => "WARNING"
  | error => "ERROR"

/-- A value as a line holds it: truth values, numbers and null as they are, all else as text of
at most 200 characters. -/
def shorten : Json → Json
  | .null => .null
  | .bool b => .bool b
  | .int n => .int n
  | .float d => .float d
  | v => .string (String.ofList (v.plain.toList.take 200))

/-- The level of a happening. -/
def level (event : String) (data : Fields) : Level :=
  if event == "run_finished" && (Fields.getD data "status").same (.string "failed") then .error
  else if event == "step_failed" then .warning
  else .info

/-- The line of a happening. -/
def line (event : String) (now : Timestamp) (data : Fields) : String :=
  (Json.object (Fields.overlay [("event", .string event), ("ts", .string now.zuluText)]
    (data.map fun (k, v) => (k, shorten v)))).spaced

/-- Cutting a value a second time changes nothing more. -/
theorem shorten_shorten (v : Json) : shorten (shorten v) = shorten v := by
  cases v <;> simp [shorten, Json.plain, List.take_take]

end Audit

end LeadDesk
