import LeadDesk.Failure
import LeadDesk.Workflow.Event
/-!
# Intake of triggers

A trigger comes as the insertion of a record or as an event of its own. Both forms are
brought into an `Event`; a body of any other form is refused.
-/

namespace LeadDesk

namespace Intake

/-- The optional timestamp under a key. -/
def moment? (record : Fields) (key : String) : Except Failure (Option Timestamp) :=
  match Timestamp.ofJson? (Fields.getD record key) with
  | .ok t => .ok t
  | .error e => .error (.timestamp e)

/-- The fields of an event that a record gives. -/
def eventFields (record : Fields) : Fields :=
  [("type", (Fields.getD record "event_type").orElse (Fields.getD record "type")),
    ("entity_type", Fields.getD record "entity_type"),
    ("entity_id", Fields.getD record "entity_id"),
    ("payload", (Fields.getD record "payload").orElse .empty),
    ("team_id", Fields.getD record "team_id"),
    ("source", Fields.getD record "source"),
    ("processed", .bool (Fields.getD record "processed").isGiven)] ++
  (if (Fields.getD record "id").isGiven then
    [("id", .string (Fields.getD record "id").plain)] else [])

/-- The event that a record describes; `freshId` and `now` stand in for what it leaves out. -/
def ofRecord (freshId : String) (now : Timestamp) (record : Fields) : Except Failure Event := do
  let fields := eventFields record
  if !(Fields.getD fields "type").isGiven then throw (.trigger .eventType)
  let processedAt ← moment? record "processed_at"
  let createdAt ←
    if (Fields.getD record "created_at").isGiven then moment? record "created_at" else .ok none
  if (Fields.getD fields "payload").fields?.isNone then throw (.trigger .payload)
  match Event.check freshId (createdAt.getD now) (.object fields) with
  | .good e => return { e with processedAt := processedAt }
  | .bad violations => throw (.invalid ⟨"Event", violations⟩)

/-- The value is the word of a trigger for an insertion. -/
def isInsertion : Json → Bool
  | .string s => s == "INSERT"
  | _ => false

/-- The event that the body of a trigger describes. -/
def event (freshId : String) (now : Timestamp) : Json → Except Failure Event
  | .object body =>
    match isInsertion (Fields.getD body "type"), Fields.getD body "record" with
    | true, .object record => ofRecord freshId now record
    | _, _ =>
      if (Fields.getD body "id").isGiven &&
          ((Fields.getD body "event_type").isGiven || (Fields.getD body "type").isGiven) then
        ofRecord freshId now body
      else .error (.trigger .shape)
  | _ => .error (.trigger .shape)

/-- A body that is no object is refused. -/
theorem event_of_fields?_eq_none (freshId : String) (now : Timestamp) {body : Json}
    (h : body.fields? = none) : event freshId now body = .error (.trigger .shape) := by
  cases body <;> simp_all [Json.fields?, event]

end Intake

end LeadDesk
