import LeadDesk.Number.Reader
/-!
# Commands

The commands of the command line and how their words are read. An option is a word that
begins with a dash, long ones with two; its value follows it, behind an equals sign for a
long option or as the rest of the word for a short one. After `--` all words are arguments.
`Command.parse` gives a command or says that the words make none.
-/

namespace LeadDesk

namespace Terminal

/-- A command. -/
inductive Command where
  | version
  | help
  /-- Set up the store. -/
  | setUp
  /-- Save the workflows of a document, or those that come with the desk. -/
  | seed (file : Option String)
  /-- Handle the oldest events that wait. -/
  | process (limit : Int)
  /-- Handle one stored event. -/
  | dispatch (eventId : String)
  /-- Emit an event, and handle it at once if asked to. -/
  | emit (type : String) (entityType entityId payload : Option String) (atOnce : Bool)
  /-- List the workflows, with their steps if asked to. -/
  | workflows (activeOnly steps : Bool)
  /-- Run a workflow by hand. -/
  | trigger (slug : String) (context : Option String)
  /-- List the most recent runs. -/
  | runs (status : Option String) (limit : Int)
  /-- Show one run with its log. -/
  | run (id : String)
  deriving DecidableEq, Repr, Inhabited

/-- An option: its key, the words that name it, and whether it takes a value. -/
structure OptionForm where
  key : String
  names : List String
  takesValue : Bool := true

/-- Words that have been read: options with their values, and arguments. -/
structure Words where
  options : List (String × String) := []
  arguments : List String := []

namespace Words

/-- The value of an option; the last one counts. -/
def value? (w : Words) (key : String) : Option String :=
  ((w.options.reverse).find? (·.1 == key)).map (·.2)

/-- An option is there. -/
def has (w : Words) (key : String) : Bool := (w.value? key).isSome

end Words

/-- What a word that begins with a dash says. -/
inductive Reading where
  /-- Options that are complete, and maybe one whose value is the next word. -/
  | options (complete : List (String × String)) (open? : Option String)
  | unknown

/-- The option that a word names. -/
def formOf? (forms : List OptionForm) (name : String) : Option OptionForm :=
  forms.find? fun f => f.names.contains name

/-- Read the letters of a word of short options. -/
def readLetters (forms : List OptionForm) : List Char → Reading
  | [] => .options [] none
  | c :: rest =>
    match formOf? forms (String.ofList ['-', c]) with
    | none => .unknown
    | some form =>
      if form.takesValue then
        if rest.isEmpty then .options [] (some form.key)
        else .options [(form.key, String.ofList rest)] none
      else
        match readLetters forms rest with
        | .options complete next => .options ((form.key, "") :: complete) next
        | .unknown => .unknown

/-- Read a word of one long option. -/
def readLong (forms : List OptionForm) (word : List Char) : Reading :=
  let name := word.takeWhile (· != '=')
  let value := word.drop name.length
  match formOf? forms (String.ofList name) with
  | none => .unknown
  | some form =>
    match form.takesValue, value with
    | true, [] => .options [] (some form.key)
    | true, _ :: value => .options [(form.key, String.ofList value)] none
    | false, [] => .options [(form.key, "")] none
    | false, _ :: _ => .unknown

/-- Read a word that begins with a dash. -/
def readOption (forms : List OptionForm) (word : String) : Reading :=
  match word.toList with
  | '-' :: '-' :: _ => readLong forms word.toList
  | '-' :: letters => readLetters forms letters
  | _ => .unknown

/-- The word is read as options. -/
def isOption (word : String) : Bool :=
  match word.toList with
  | '-' :: _ :: _ => true
  | _ => false

/-- Read the words of a command. -/
def readWords (forms : List OptionForm) (w : Words) : List String → Option Words
  | [] => some w
  | word :: rest =>
    if word == "--" then some { w with arguments := w.arguments ++ rest }
    else if isOption word then
      match readOption forms word with
      | .unknown => none
      | .options complete none =>
        readWords forms { w with options := w.options ++ complete } rest
      | .options complete (some key) =>
        match rest with
        | [] => none
        | value :: rest =>
          readWords forms { w with options := w.options ++ complete ++ [(key, value)] } rest
    else readWords forms { w with arguments := w.arguments ++ [word] } rest

/-- Read the options in front of the name of a command. -/
def readFront (forms : List OptionForm) (w : Words) : List String → Option (Words × List String)
  | [] => some (w, [])
  | word :: rest =>
    if word == "--" then some (w, rest)
    else if isOption word then
      match readOption forms word with
      | .unknown => none
      | .options complete none =>
        readFront forms { w with options := w.options ++ complete } rest
      | .options complete (some key) =>
        match rest with
        | [] => none
        | value :: rest =>
          readFront forms { w with options := w.options ++ complete ++ [(key, value)] } rest
    else some (w, word :: rest)

namespace Command

/-- The option that asks for help. -/
def helpForm : OptionForm := { key := "help", names := ["--help"], takesValue := false }

/-- The options in front of the name of a command. -/
def frontForms : List OptionForm := [
  { key := "version", names := ["--version", "-v"], takesValue := false },
  { key := "log-level", names := ["--log-level"] }, helpForm]

/-- The options of a command, `none` for a name that names none. -/
def formsOf? : String → Option (List OptionForm)
  | "init-db" | "dispatch" | "run" => some []
  | "seed" => some [{ key := "file", names := ["--file", "-f"] }]
  | "process" => some [{ key := "limit", names := ["--limit", "-n"] }]
  | "emit" => some [
      { key := "entity-type", names := ["--entity-type"] },
      { key := "entity-id", names := ["--entity-id"] },
      { key := "payload", names := ["--payload"] },
      { key := "process", names := ["--process"], takesValue := false }]
  | "workflows" => some [
      { key := "active", names := ["--active"], takesValue := false },
      { key := "steps", names := ["--steps"], takesValue := false }]
  | "trigger" => some [{ key := "context", names := ["--context", "-c"] }]
  | "runs" => some [
      { key := "status", names := ["--status", "-s"] },
      { key := "limit", names := ["--limit", "-n"] }]
  | _ => none

/-- The number that an option gives, or a default; `none` for a value that is no number. -/
def number? (w : Words) (key : String) (default : Int) : Option Int :=
  match w.value? key with
  | none => some default
  | some text => (readInt text).toOption

/-- The command that its name and its words make. -/
def ofWords (name : String) (w : Words) : Option Command :=
  match name, w.arguments with
  | "init-db", [] => some .setUp
  | "seed", [] => some (.seed (w.value? "file"))
  | "process", [] => (number? w "limit" 10).map .process
  | "dispatch", [id] => some (.dispatch id)
  | "emit", [type] =>
    some (.emit type (w.value? "entity-type") (w.value? "entity-id") (w.value? "payload")
      (w.has "process"))
  | "workflows", [] => some (.workflows (w.has "active") (w.has "steps"))
  | "trigger", [slug] => some (.trigger slug (w.value? "context"))
  | "runs", [] => (number? w "limit" 20).map (.runs (w.value? "status"))
  | "run", [id] => some (.run id)
  | _, _ => none

/-- The command that its name and the words behind it make. -/
def ofName (name : String) (words : List String) : Option Command :=
  match formsOf? name with
  | none => none
  | some forms =>
    match readWords (helpForm :: forms) {} words with
    | none => none
    | some w => if w.has "help" then some .help else ofWords name w

/-- Read the words of a command line. -/
def parse (words : List String) : Option Command :=
  match readFront frontForms {} words with
  | none => none
  | some (front, []) =>
    some (if front.has "version" && !front.has "help" then .version else .help)
  | some (front, name :: rest) =>
    if front.has "help" then some .help
    else if (formsOf? name).isNone then none
    else if front.has "version" then some .version
    else ofName name rest

/-- A name that names no command makes none. -/
theorem parse_of_unknown {name : String} (h : formsOf? name = none) (words : List String) :
    ofName name words = none := by
  simp [ofName, h]

end Command

end Terminal

end LeadDesk
