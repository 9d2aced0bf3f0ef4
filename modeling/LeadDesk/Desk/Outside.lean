import LeadDesk.Failure
/-!
# The outside

What the desk sends out and gets back: requests to services of the web, calls of a language
model, and calls of tools whose answers are laid down in advance. The answers wait in a
script and are taken one after the other, each after a pause that the script sets; a
`Journal` keeps what was sent.
-/

namespace LeadDesk

/-- A request to a service of the web. -/
structure WebRequest where
  method : String
  url : String
  query : List (String × String) := []
  body : Option Json := none
  apiKey : Option String := none
  authorization : Option String := none
  deriving Inhabited

/-- The answer to a request: a body of data, a body of text, or trouble on the way. -/
inductive WebReply where
  | data (status : Int) (body : Json)
  | text (status : Int) (body : String)
  | broken (failure : Failure)

/-- The answer of a language model: its content, which should be a text or null, with the counts of
tokens that were read and written; something that is no answer, since it has no choice, say, so that
to take it apart is a failure; trouble; or no answer ever. -/
inductive ModelReply where
  | answer (content : Json) (usage : Option (Option Int × Option Int))
  | garbled (failure : Failure) (own : failure.IsOwn)
  | broken (failure : Failure)
  | never

/-- The answer of a tool: a value, trouble, or no answer ever. -/
inductive ToolReply where
  | value (v : Json)
  | broken (failure : Failure)
  | never

/-- How a tool with laid down answers behaves: its answer to each of its calls, which are
numbered from zero. It leaves what it is handed as it is and keeps nothing of it to change later:
only a provider does that to its input (`Enrichment.Provider.additions`). -/
structure Behaviour where
  reply : (call : Nat) → (input : Fields) → ToolReply

/-- A tool with laid down answers. Its failures bear its label. -/
structure ScriptedTool where
  name : String
  label : String
  behaviour : Behaviour

/-- What was sent out and told to observers, and how long the desk slept, in seconds. -/
structure Journal where
  callbacks : List (String × Fields) := []
  toolCalls : List (String × Fields) := []
  webCalls : List WebRequest := []
  modelCalls : List Fields := []
  sleeps : List Double := []
  deriving Inhabited

/-- The answers that are still to come. -/
structure Script where
  web : List WebReply := []
  model : List ModelReply := []
  /-- How often each tool has been called. -/
  calls : List (String × Nat) := []
  /-- How many microseconds the next answers let the desk wait, `none` for ever. Without a pause
  an answer is there at once. -/
  pauses : List (Option Nat) := []
  /-- How many microseconds the next sleeps let the desk wait. Without a nap there is no wait. -/
  naps : List Nat := []

instance : Inhabited Script := ⟨{}⟩

namespace Script

/-- How often a tool has been called. -/
def count (s : Script) (tool : String) : Nat :=
  ((s.calls.find? (·.1 == tool)).map (·.2)).getD 0

/-- The script after one more call of a tool. -/
def tick (s : Script) (tool : String) : Script :=
  { s with calls := (tool, s.count tool + 1) :: s.calls.filter (·.1 != tool) }

end Script

namespace Behaviour

/-- Gives its input back. -/
def echo : Behaviour := ⟨fun _ input => .value (.object [("echo", .object input)])⟩

/-- Gives one value. -/
def value (v : Json) : Behaviour := ⟨fun _ _ => .value v⟩

/-- The value that a sequence gives at a call. -/
def nth (values : List Json) (call : Nat) : Option Json :=
  match values[call]? with
  | some v => some v
  | none => values.getLast?

/-- Gives the next value each time, and the last one for ever. -/
def sequence (values : List Json) : Behaviour :=
  ⟨fun call _ =>
    match nth values call with
    | some v => .value v
    | none => .broken .noIndex⟩

/-- Fails. -/
def fails (failure : Failure) : Behaviour := ⟨fun _ _ => .broken failure⟩

/-- Never answers. -/
def never : Behaviour := ⟨fun _ _ => .never⟩

end Behaviour

end LeadDesk
