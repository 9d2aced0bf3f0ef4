import LeadDesk.Enrichment.Registry
import LeadDesk.Tool.Definition
import LeadDesk.Tool.Email
import LeadDesk.Tool.Notify
import LeadDesk.Tool.Sales
/-!
# The registry of tools

A tool is called by its name with an object of input. A tool with laid down answers goes
before a built-in one of the same name; the tools that work on the store are there only when
the desk has one.
-/

namespace LeadDesk

namespace Registry

/-- A built-in tool. -/
inductive Builtin where
  /-- A tool that works on the store or the outside. -/
  | onDesk (run : Fields → Action Json)
  /-- A tool whose result depends on its input alone. -/
  | onInput (run : Fields → Except Failure Json)

/-- The built-in tool with a name. -/
def builtin? : String → Option Builtin
  | "get_contact" => some (.onDesk ContactTool.get)
  | "get_contact_brief" => some (.onDesk ContactTool.brief)
  | "update_contact" => some (.onDesk ContactTool.update)
  | "parse_intake_payload" => some (.onDesk ContactTool.parseForm)
  | "search_contacts" => some (.onDesk ContactTool.search)
  | "check_existing_contact" => some (.onDesk ContactTool.check)
  | "update_inbound_tracking" => some (.onDesk ContactTool.countInbound)
  | "merge_contact_data" => some (.onDesk ContactTool.merge)
  | "delete_contact" => some (.onDesk ContactTool.delete)
  | "add_contact_note" => some (.onDesk ContactTool.addNote)
  | "classify_email" => some (.onInput Email.classify)
  | "extract_domain" => some (.onInput Email.extractDomain)
  | "upsert_company" => some (.onDesk SalesTool.upsertCompany)
  | "create_task" => some (.onDesk SalesTool.createTask)
  | "get_icp" => some (.onDesk fun _ => SalesTool.customerProfile)
  | "get_product_context" => some (.onDesk fun _ => SalesTool.productContext)
  | "send_notification" => some (.onDesk NotifyTool.send)
  | _ => none

/-- The limit of a tool when nothing else is said. -/
def defaultLimit : Limit := .seconds 30

/-- The tool with laid down answers of a name; of two with one name the later one. -/
def scripted? (office : Office) (name : String) : Option ScriptedTool :=
  office.tools.reverse.find? (·.name == name)

/-- A tool with a name is there. -/
def has (office : Office) (name : String) : Bool :=
  (scripted? office name).isSome ||
    match builtin? name with
    | some (.onDesk _) => office.hasStore
    | some (.onInput _) => true
    | none => false

/-- What a tool with laid down answers gives. -/
def behave (t : ScriptedTool) (input : Fields) : Action Json := do
  Action.note fun j => { j with toolCalls := j.toolCalls ++ [(t.name, input)] }
  let call ← Action.countCall t.name
  Action.await
  match t.behaviour.reply call input with
  | .value v => return v
  | .broken e => Action.fail e
  | .never => Action.hang

/-- Refuse input that names what the desk itself gives to a tool. -/
def checkBound (name : String) (input : Fields) : Action Unit :=
  if Fields.has input "repo" then
    Action.fail (.wrongKind s!"{name}() got multiple values for argument 'repo'")
  else pure ()

/-- The call of a tool: the name that its failures bear, and its action. -/
def call? (office : Office) (name : String) (input : Fields) : Option (String × Action Json) :=
  match scripted? office name with
  | some t => some (t.label, behave t input)
  | none =>
    match builtin? name with
    | some (.onInput run) => some (name, Action.ofExcept (run input))
    | some (.onDesk run) =>
      if office.hasStore then some (name, checkBound name input >>= fun _ => run input)
      else none
    | none => none

/-- The failure of a call of a tool that is not there. -/
def unknown (name : Json) : Failure := .tool s!"Unknown tool: {name.plain}" name.plain

/-- The input of a call, which must be an object. -/
def inputOf (input : Option Json) : Except Failure Fields :=
  match input with
  | some (.object fields) => .ok fields
  | none => .error (.wrongKind "'_Missing' object is not iterable")
  | some (.array (.string _ :: _)) | some (.array []) | some (.string _) =>
    .error (.tool "argument after ** must be a mapping" "")
  | some (.array (v :: _)) =>
    .error (.wrongKind s!"sequence item 0: expected str instance, {v.kindName} found")
  | some v => .error (.wrongKind s!"'{v.kindName}' object is not iterable")

/-- Call a tool. -/
def invoke (name : Json) (input : Option Json) : Action Json := do
  let office ← Action.office
  let key ← Action.ofExcept (Enrichment.lookupKey name)
  match key.text?.bind fun n => (call? office n []).map fun _ => n with
  | none => Action.fail (unknown name)
  | some n =>
    let input ← Action.ofExcept (inputOf input)
    match call? office n input with
    | none => Action.fail (unknown name)
    | some (label, action) =>
      Sandbox.execute label (office.toolLimit.getD defaultLimit) action

end Registry

end LeadDesk
