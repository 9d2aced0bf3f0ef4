import LeadDesk.Tool.Input
import LeadDesk.Template.Path
import LeadDesk.Text.Letter
/-!
# Tools for contacts

Looking contacts up, updating and merging them, and reading the forms that they submit. A
tool that is asked for a contact that is not there fails and stores nothing.
-/

namespace LeadDesk

namespace ContactTool

/-- The contact that a value names. -/
def require (id : Json) : Action Row := do
  match ← (if id.isGiven then Archive.getContact id else pure none) with
  | some row => return row
  | none => Action.fail (.noContact id.plain)

/-- The limit on the notes that a brief shows. -/
def briefNotes : Int := 15

/-- The limit on the events that a brief shows. -/
def briefEvents : Int := 10

/-- Look a contact up. -/
def get (input : Fields) : Action Json := do
  return .object (← require (Input.text input "contact_id"))

/-- The contact that an id or a part of a name stands for. -/
def wanted (id name : Json) : Action Row := do
  if id.isGiven then require id
  else if name.isGiven then
    match ← Archive.findContacts (.text name.plain) .null (some 1) with
    | [] => Action.fail (.noContact name.plain)
    | row :: _ =>
      match ← Archive.getContact (Row.value row "id") with
      | some row => return row
      | none => Action.fail (.wrongKind "'NoneType' object is not subscriptable")
  else Action.fail .noContactWanted

/-- A contact with its notes, open tasks and events. -/
def brief (input : Fields) : Action Json := do
  let contact ← wanted (Input.text input "contact_id") (Input.text input "contact_name")
  let id := Row.value contact "id"
  let notes ← Archive.notesOn id (some briefNotes)
  let tasks ← Archive.openTasks id
  let events ← Archive.entityEvents id.text? (some briefEvents)
  return .object [("contact", .object contact), ("interactions", Input.rows notes),
    ("open_tasks", Input.rows tasks), ("recent_signals", Input.rows events)]

/-- A value that an update leaves out. -/
def isBlankUpdate : Json → Bool
  | .null => true
  | .string s => s == ""
  | _ => false

/-- Updates in which custom fields are put on top of the stored ones. -/
def withCustomFields (contact : Row) (updates : Fields) : Except Failure Fields :=
  match Fields.get? updates "custom_fields" with
  | some (.object more) => do
    let merged ← Input.onTopOf (Row.value contact "custom_fields") more
    return Fields.put updates "custom_fields" merged
  | _ => .ok updates

/-- Update a contact with the values that are not blank. -/
def update (input : Fields) : Action Json := do
  let id := Input.text input "contact_id"
  let updates := (Fields.drop input "contact_id").filter fun f => !isBlankUpdate f.2
  let contact ← require id
  if updates.isEmpty then return .object contact
  let updates ← Action.ofExcept (withCustomFields contact updates)
  return Input.row? (← Archive.updateContact id updates [])

/-- The columns that the keys of a form stand for. -/
def formColumns : List (String × String) := [
  ("source", "source"), ("source_detail", "source_detail"), ("utm_source", "utm_source"),
  ("utm_medium", "utm_medium"), ("utm_campaign", "utm_campaign"), ("company", "company_name"),
  ("company_name", "company_name"), ("company_size", "company_size"), ("size", "company_size"),
  ("industry", "industry"), ("title", "title"), ("job_title", "title"), ("role", "title"),
  ("tech_stack", "tech_stack"), ("technologies", "tech_stack"), ("message", "message"),
  ("how_can_we_help", "message"), ("question", "message"), ("comments", "message"),
  ("phone", "phone"), ("linkedin", "linkedin_url"), ("linkedin_url", "linkedin_url")]

/-- The keys of a form that are not kept. -/
def ignoredKeys : List String := ["delay_until", "email_type", "pdl_enriched"]

/-- A key in lower case, with an underscore for all but letters and digits. -/
def normalizeKey (key : String) : String :=
  String.ofList ((Text.lower key).toList.map fun c =>
    if Text.isLetterOrNumber c || c == '_' then c else '_')

/-- The columns and the custom fields that the entries of a form set, on top of earlier ones. -/
def sortEntries (columns custom : Fields) : Fields → Fields × Fields
  | [] => (columns, custom)
  | (key, v) :: rest =>
    if !v.isGiven then sortEntries columns custom rest
    else
      let normalized := normalizeKey key
      match formColumns.find? (·.1 == normalized) with
      | some (_, column) => sortEntries (Fields.put columns column v) custom rest
      | none =>
        if ignoredKeys.contains normalized then sortEntries columns custom rest
        else sortEntries columns (Fields.put custom key v) rest

/-- A text split at commas, without blanks around the parts. -/
def splitList (s : String) : Json :=
  .array ((splitAtEach ',' s.toList).map fun part =>
    .string (String.ofList (Text.trimBlanks part)))

/-- A text of technologies as a list. -/
def withTechList (columns : Fields) : Fields :=
  match Fields.get? columns "tech_stack" with
  | some (.string s) => Fields.put columns "tech_stack" (splitList s)
  | _ => columns

/-- Read a form into the columns of a contact; what has no column becomes a custom field. -/
def parseForm (input : Fields) : Action Json := do
  match Input.value input "payload" .null with
  | .object (entry :: more) =>
    let id := Input.text input "contact_id"
    let (columns, custom) := sortEntries [] [] (entry :: more)
    let columns := withTechList columns
    let updates ←
      if custom.isEmpty then pure columns
      else do
        let contact ← require id
        let merged ← Action.ofExcept (Input.onTopOf (Row.value contact "custom_fields") custom)
        pure (Fields.put columns "custom_fields" merged)
    if updates.isEmpty then
      return .object [("parsed", .bool true), ("fields_updated", 0)]
    let contact ← Archive.updateContact id updates []
    return .object [("parsed", .bool true), ("fields_updated", .int updates.length),
      ("updated_fields", Json.ofTexts (Fields.keys updates)), ("contact", Input.row? contact)]
  | _ => return .object [("parsed", .bool false), ("reason", .string "No payload")]

/-- What to look for: an email, if one is given, or else a text. -/
def queryOf (email text : Json) : Except Failure Store.ContactQuery :=
  if email.isGiven then
    match email with
    | .string s => .ok (.email s)
    | v => .error (.lacks v.kindName "strip")
  else if text.isGiven then .ok (.text text.plain)
  else .ok .everyone

/-- What a search shows of a contact. -/
def searchColumns : List String := ["id", "first_name", "last_name", "email"]

/-- Find contacts by email or by a part of their names. -/
def search (input : Fields) : Action Json := do
  let email := Input.text input "email"
  let text := Input.text input "query"
  let isExact := (Input.value input "exact_match" (.bool true)).isGiven
  let (email, text) :=
    if email.isGiven && !isExact then (Json.string "", email) else (email, text)
  if !email.isGiven && !text.isGiven then
    return .object [("contacts", .array []), ("count", 0), ("id", .null)]
  let limit ← Action.ofExcept (Input.integer (Input.value input "limit" 10))
  Action.guardFault "find_contacts"
  let query ← Action.ofExcept (queryOf email text)
  let found ← Archive.findContacts query (Input.text input "exclude_id") (some limit)
  let shown := found.map fun row => searchColumns.map fun c => (c, Row.value row c)
  return .object [("contacts", Input.rows shown), ("count", .int shown.length),
    ("id", (shown.head?.map fun row => Row.value row "id").getD .null)]

/-- How a contact comes back after a number of days. -/
def returnKind (days : Int) : String :=
  if days < 30 then "returning" else if days < 180 then "reengagement" else "dormant"

/-- How a contact that has written before comes back now. -/
def contactKind (contact : Row) : Action String := do
  if (Row.value contact "inbound_count").isGiven then
    match Timestamp.ofJson? (Row.value contact "last_inbound_at") with
    | .error e => Action.fail (.timestamp e)
    | .ok none => return returnKind 999
    | .ok (some last) =>
      let now ← Action.now
      return returnKind ((now.instant - last.instant) / Timestamp.day)
  else return "new"

/-- Whether a contact with an email exists, and when it last wrote. -/
def check (input : Fields) : Action Json := do
  let email := Input.text input "email"
  if !email.isGiven then return .object [("exists", .bool false)]
  Action.guardFault "find_contacts"
  let query ← Action.ofExcept (queryOf email .null)
  match ← Archive.findContacts query .null (some 1) with
  | [] => return .object [("exists", .bool false)]
  | contact :: _ =>
    let kind ← contactKind contact
    let notes ← Archive.notesOn (Row.value contact "id") (some 5)
    return .object [("exists", .bool true), ("contact", .object contact),
      ("contact_type", .string kind), ("recent_interactions", Input.rows notes)]

/-- Count one more message of a contact. -/
def countInbound (input : Fields) : Action Json := do
  let id := Input.text input "contact_id"
  let contact ← require id
  let count ← Action.ofExcept (Input.oneMore (Row.value contact "inbound_count"))
  let now ← Action.now
  let updated ← Archive.updateContact id [("inbound_count", count)] [("last_inbound_at", now)]
  return .object [("inbound_count", count), ("contact", Input.row? updated)]

/-- The keys of new data with the columns that they fill. -/
def mergeColumns : List (String × String) := [
  ("first_name", "first_name"), ("last_name", "last_name"), ("phone", "phone"),
  ("title", "title"), ("company", "company_name"), ("company_name", "company_name"),
  ("linkedin_url", "linkedin_url"), ("source", "source")]

/-- The columns that new data fill: each that is blank so far, by its first key with a value. -/
def fillBlanks (contact : Row) (data updates : Fields) : List (String × String) → Fields
  | [] => updates
  | (key, column) :: rest =>
    let v := Fields.getD data key
    if v.isGiven && !(Row.value contact column).isGiven && !Fields.has updates column then
      fillBlanks contact data (Fields.put updates column v) rest
    else fillBlanks contact data updates rest

/-- The updates of a contact that takes in new data, the count of its messages aside. -/
def mergeUpdates (contact : Row) (data : Fields) : Except Failure Fields := do
  let updates := fillBlanks contact data [] mergeColumns
  let message := Fields.getD data "message"
  let updates := if message.isGiven then Fields.put updates "message" message else updates
  match Fields.getD data "additional_fields" with
  | .object (f :: more) =>
    let merged ← Input.onTopOf (Row.value contact "custom_fields") (f :: more)
    return Fields.put updates "custom_fields" merged
  | _ => return updates

/-- Fold a repeated submission into a contact and delete its duplicate. -/
def merge (input : Fields) : Action Json := do
  let id := Input.text input "existing_contact_id"
  let duplicate := Input.text input "new_contact_id"
  let contact ← require id
  let data := (Input.value input "new_data" .null).fields?.getD []
  let updates ← Action.ofExcept (mergeUpdates contact data)
  let count ← Action.ofExcept (Input.oneMore (Row.value contact "inbound_count"))
  let now ← Action.now
  let merged ← Archive.updateContact id (updates ++ [("inbound_count", count)])
    [("last_inbound_at", now)]
  let deleted ←
    if duplicate.isGiven && !duplicate.same id then Archive.deleteContact duplicate
    else pure false
  return .object [("merged", .bool true), ("contact", Input.row? merged),
    ("fields_updated", Json.ofTexts ((Fields.keys updates).mergeSort fun a b => a ≤ b)),
    ("duplicate_deleted", .bool deleted)]

/-- Delete a contact. -/
def delete (input : Fields) : Action Json := do
  let id := Input.text input "contact_id"
  if ← Archive.deleteContact id then
    return .object [("success", .bool true), ("contact_id", id),
      ("reason", Input.text input "reason")]
  else Action.fail (.noContact id.plain)

/-- Add a note to a contact. -/
def addNote (input : Fields) : Action Json := do
  let id := Input.text input "contact_id"
  let _ ← require id
  let kind := (Input.value input "note_type" (.string "Note")).orElse (.string "Note")
  return .object (← Archive.addNote id (Input.text input "note") kind)

/-- New data never replace what a contact has: a column that is filled is left alone. -/
theorem has_fillBlanks_of_isGiven {contact : Row} {column : String}
    (h : (Row.value contact column).isGiven = true) (data : Fields)
    (pairs : List (String × String)) (updates : Fields)
    (hu : Fields.has updates column = false) :
    Fields.has (fillBlanks contact data updates pairs) column = false := by
  induction pairs generalizing updates with
  | nil => simpa [fillBlanks] using hu
  | cons p rest ih =>
    obtain ⟨key, other⟩ := p
    simp only [fillBlanks]
    split
    · rename_i hc
      apply ih
      have hne : other ≠ column := by
        rintro rfl
        simp [h] at hc
      simpa [Fields.has, Fields.get?_put_of_ne _ _ hne] using hu
    · exact ih updates hu

end ContactTool

end LeadDesk
