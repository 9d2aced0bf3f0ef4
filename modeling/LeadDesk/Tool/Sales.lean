import LeadDesk.Tool.Contacts
/-!
# Tools for companies, tasks and team settings
-/

namespace LeadDesk

namespace SalesTool

/-- Create a company or update the one with the same domain. -/
def upsertCompany (input : Fields) : Action Json := do
  let domain := Input.text input "domain"
  let size := Input.text input "employee_count"
  let given := [("domain", domain), ("name", Input.text input "name"),
    ("industry", Input.text input "industry"),
    ("employee_count", .string (if size.isGiven then size.plain else "")),
    ("enrichment_data", Input.value input "enrichment_data" .null)].filter fun f => f.2.isGiven
  let data := given ++ [("enrichment_status", .string "complete")]
  let now ← Action.now
  let existing ← if domain.isGiven then Archive.companyAt domain else pure none
  let id := (existing.map fun row => Row.value row "id").getD .null
  return .object (← Archive.saveCompany data [("last_enriched_at", now)] id)

/-- The date that a word or a value stands for. -/
def dueDate (today : Timestamp) (v : Json) : Json :=
  if !v.isGiven then .null
  else match v with
    | .string "today" => .string today.dateText
    | .string "tomorrow" => .string ({ today with wall := today.wall + Timestamp.day }).dateText
    | v => .string v.plain

/-- Create a task for a contact. -/
def createTask (input : Fields) : Action Json := do
  let contactId := Input.text input "contact_id"
  let companyId ←
    if contactId.isGiven then do
      let contact ← ContactTool.require contactId
      pure (Row.value contact "company_id")
    else pure .null
  let settings ← Action.settings
  let priority ← Action.ofExcept (Input.integer (Input.value input "priority" 5))
  let today ← Action.today
  let reason := Input.text input "reason"
  let task ← Archive.createTask [
    ("team_id", Json.ofText? settings.team),
    ("contact_id", contactId.orElse .null),
    ("company_id", companyId),
    ("type", Input.value input "type" (.string "follow_up")),
    ("priority", .int priority),
    ("reason", reason),
    ("due_date", dueDate today (Input.text input "due_date"))]
  return .object [("task", .object task), ("message", .string ("Created task: " ++ reason.plain))]

/-- The customers that a team looks for when it says nothing else. -/
def defaultProfile : Json := .object [
  ("titles", Json.ofTexts ["CEO", "CTO", "VP Engineering", "Head of Product"]),
  ("company_size", .object [("min", 50), ("max", 500)]),
  ("industries", Json.ofTexts ["Technology", "SaaS", "Software"]),
  ("signals", Json.ofTexts ["Recently funded", "Hiring", "New executive"])]

/-- What a team sells when it says nothing else. -/
def defaultProduct : Json := .object [
  ("name", .string "Our Product"),
  ("description", .string "A headless CRM for modern sales teams"),
  ("value_props", Json.ofTexts
    ["AI-powered lead scoring", "Automated enrichment", "Natural language interface"])]

/-- A setting of the team, or a default. -/
def teamSetting (key : String) (default : Json) : Action Json := do
  let settings ← Action.settings
  let v ← Archive.teamConfig key settings.team
  return if v.isNull then default else v

/-- The customers that the team looks for. -/
def customerProfile : Action Json := teamSetting "icp" defaultProfile

/-- What the team sells. -/
def productContext : Action Json := teamSetting "product_context" defaultProduct

end SalesTool

end LeadDesk
