import LeadDesk.Tool.Signature
import LeadDesk.Validation.Scalar
/-!
# Definitions of tools

What a registry knows of a tool besides its action: its name, what it is for, the schema of
its input, how long it may take, and whether it works on the store. `ToolInfo.builtin` lists
the tools that every desk has, in the order of their registration.
-/

namespace LeadDesk

/-- What is known of a tool. -/
structure ToolInfo where
  name : String
  description : String
  parameters : Fields := []
  timeout : Int := 30
  usesStore : Bool := false
  deriving Inhabited

namespace ToolInfo

/-- Check the fields of a definition. -/
def check : Validation.Check ToolInfo :=
  Validation.record "ToolDefinition" fun f =>
    ToolInfo.mk <$> Validation.required f "name" Validation.text
      <*> Validation.required f "description" Validation.text
      <*> Validation.defaulted f "parameters" [] Validation.object
      <*> Validation.defaulted f "timeout_seconds" 30 Validation.integer
      <*> Validation.defaulted f "uses_store" false Validation.truth

/-- A definition as a data value. -/
def toJson (t : ToolInfo) : Json :=
  .object [
    ("name", .string t.name),
    ("description", .string t.description),
    ("parameters", .object t.parameters),
    ("timeout_seconds", .int t.timeout),
    ("uses_store", .bool t.usesStore)]

/-- A text parameter. -/
def textInput (name : String) : Parameter := { name := name }

/-- An object parameter. -/
def objectInput (name : String) : Parameter := { name := name, type := .object }

/-- An integer parameter. -/
def integerInput (name : String) : Parameter := { name := name, type := .integer }

/-- A truth value parameter. -/
def truthInput (name : String) : Parameter := { name := name, type := .truth }

/-- A tool that works on the store. -/
def onStore (name description : String) (inputs : List Parameter) : ToolInfo :=
  { name := name, description := description, parameters := Signature.schema inputs,
    usesStore := true }

/-- A tool that needs no store. -/
def onInput (name description : String) (inputs : List Parameter) : ToolInfo :=
  { name := name, description := description, parameters := Signature.schema inputs }

/-- The tools that every desk has. -/
def builtin : List ToolInfo := [
  onStore "get_contact" "Fetch a contact with its linked company." [textInput "contact_id"],
  onStore "get_contact_brief" "Contact plus recent notes, open tasks and recent events."
    [textInput "contact_id", textInput "contact_name"],
  onStore "update_contact" "Update contact fields. None and empty-string values are dropped."
    [textInput "contact_id"],
  onStore "parse_intake_payload"
    "Map form-submission fields onto contact columns; the rest go to custom_fields."
    [textInput "contact_id", objectInput "payload"],
  onStore "search_contacts"
    "Find contacts by email (exact, case-insensitive) or by name/email substring."
    [textInput "email", textInput "query", integerInput "limit", truthInput "exact_match",
      textInput "exclude_id"],
  onStore "check_existing_contact"
    "Whether a contact with this email exists, and how recently they reached out."
    [textInput "email"],
  onStore "update_inbound_tracking" "Count one more inbound touch on a contact."
    [textInput "contact_id"],
  onStore "merge_contact_data"
    "Fold a duplicate submission into the existing contact and delete the duplicate."
    [textInput "existing_contact_id", textInput "new_contact_id", objectInput "new_data"],
  onStore "delete_contact" "Delete a contact (spam, duplicate)."
    [textInput "contact_id", textInput "reason"],
  onStore "add_contact_note" "Attach a note to a contact."
    [textInput "contact_id", textInput "note", textInput "note_type"],
  onInput "classify_email" "Personal vs company email address." [textInput "email"],
  onInput "extract_domain" "Domain part of an email address." [textInput "email"],
  onStore "upsert_company" "Create or update a company, matched by domain."
    [textInput "domain", textInput "name", textInput "industry", textInput "employee_count",
      objectInput "enrichment_data"],
  onStore "create_task" "Create a follow-up task for a contact. Priority 1 is highest."
    [textInput "contact_id", textInput "type", integerInput "priority", textInput "reason",
      textInput "due_date"],
  onStore "get_icp" "The team's ideal customer profile." [],
  onStore "get_product_context" "What the team sells, for prompts that write outreach." [],
  onStore "send_notification"
    "Notify the sales team. Always stored; posted to Slack when a webhook is configured."
    [textInput "channel", textInput "template", textInput "message", objectInput "data"]]

end ToolInfo

end LeadDesk
