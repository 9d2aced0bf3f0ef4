import LeadDesk.Store.Row
/-!
# Tables of customer records

The columns of the tables that hold contacts, companies, notes, tasks, notifications and the
settings of teams.
-/

namespace LeadDesk

namespace Tables

/-- A text column. -/
def text (name : String) : Column := { name := name, kind := .text }

/-- A text column in which every row has a value. -/
def required (name : String) : Column := { name := name, kind := .text, isRequired := true }

/-- A text column with a default. -/
def textOr (name default : String) : Column :=
  { name := name, kind := .text, default := .value (.string default) }

/-- An integer column with a default. -/
def integerOr (name : String) (default : Int) : Column :=
  { name := name, kind := .integer, default := .value (.int default) }

/-- A truth column with a default. -/
def truthOr (name : String) (default : Bool) : Column :=
  { name := name, kind := .truth, default := .value (.bool default) }

/-- A moment column. -/
def moment (name : String) : Column := { name := name, kind := .moment }

/-- A moment column that starts with the present. -/
def present (name : String) : Column := { name := name, kind := .moment, default := .now }

/-- A data column that starts with an empty object. -/
def object (name : String) : Column := { name := name, kind := .data, default := .value .empty }

/-- A data column that starts with an empty list. -/
def list (name : String) : Column :=
  { name := name, kind := .data, default := .value (.array []) }

/-- The column of ids. -/
def id : Column := { name := "id", kind := .text, default := .freshId, isRequired := true }

/-- The columns of contacts. -/
def contacts : List Column := [
  id, text "team_id", text "company_id", text "first_name", text "last_name", text "email",
  text "work_email", text "personal_email", text "phone", text "title", text "linkedin_url",
  text "company_name", text "company_size", text "industry", list "tech_stack", text "message",
  text "source", text "source_detail", text "utm_source", text "utm_medium",
  text "utm_campaign", text "notes", text "sales_notes", integerOr "score" 0,
  object "score_breakdown", text "enrichment_tier", textOr "enrichment_status" "pending",
  object "enrichment_data", moment "last_enriched_at", list "flags", object "custom_fields",
  textOr "status" "active", integerOr "inbound_count" 0, moment "last_inbound_at",
  present "created_at", present "updated_at"]

/-- The columns of companies. -/
def companies : List Column := [
  id, text "team_id", text "name", text "domain", text "industry", text "employee_count",
  textOr "enrichment_status" "pending", object "enrichment_data", moment "last_enriched_at",
  present "created_at", present "updated_at"]

/-- The columns of notes on contacts. -/
def notes : List Column := [
  id, required "contact_id", textOr "note_type" "Note", required "content", present "created_at"]

/-- The columns of tasks. -/
def tasks : List Column := [
  id, text "team_id", text "contact_id", text "company_id", required "type", integerOr "priority" 5,
  text "reason", text "due_date", moment "completed_at", present "created_at"]

/-- The columns of notifications. -/
def notifications : List Column := [
  id, text "team_id", textOr "channel" "slack", text "template", required "message", object "data",
  truthOr "delivered" false, text "error", present "created_at"]

/-- The columns of integrations. -/
def integrations : List Column := [
  id, text "team_id", required "name", text "display_name", truthOr "is_enabled" true,
  object "credentials", object "settings", present "created_at", present "updated_at"]

/-- The columns of the settings of teams. -/
def teamConfig : List Column := [
  id, text "team_id", required "config_key",
    { name := "config_value", kind := .data }, text "description",
  present "updated_at"]

/-- The names of the columns of contacts that an update may set. -/
def changeableContactColumns : List String :=
  (contacts.map (·.name)).filter fun name => name != "id" && name != "created_at"

end Tables

end LeadDesk
