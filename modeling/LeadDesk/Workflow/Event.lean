import LeadDesk.Validation.Scalar
import LeadDesk.Time.Reader
/-!
# Events

An event says that something happened to a record. It may ask to wait
(`Event.delayUntil`), and it is what a run of a workflow starts from
(`Event.contextSeed`). An emission is a step's request for a further event.
-/

namespace LeadDesk

/-- A happening that may set off workflows. -/
structure Event where
  id : String
  type : String
  entityType : Option String
  entityId : Option String
  payload : Fields
  teamId : Option String
  source : Option String
  processed : Bool
  processedAt : Option Timestamp
  createdAt : Timestamp
  deriving Inhabited

/-- The moment as text, or null. -/
def Timestamp.toJson? (t : Option Timestamp) : Json := Json.ofText? (t.map Timestamp.text)

namespace Event

/-- Check the fields of an event; `freshId` and `now` stand in for fields that are left out. -/
def check (freshId : String) (now : Timestamp) : Validation.Check Event :=
  Validation.record "Event" fun f =>
    Event.mk <$> Validation.defaulted f "id" freshId Validation.text
      <*> Validation.required f "type" Validation.text
      <*> Validation.defaulted f "entity_type" none Validation.optionalText
      <*> Validation.defaulted f "entity_id" none Validation.optionalText
      <*> Validation.defaulted f "payload" [] Validation.object
      <*> Validation.defaulted f "team_id" none Validation.optionalText
      <*> Validation.defaulted f "source" none Validation.optionalText
      <*> Validation.defaulted f "processed" false Validation.truth
      <*> Validation.defaulted f "processed_at" none (Validation.optional Validation.timestamp)
      <*> Validation.defaulted f "created_at" now Validation.timestamp

/-- An event as a data value. -/
def toJson (e : Event) : Json :=
  .object [
    ("id", .string e.id),
    ("type", .string e.type),
    ("entity_type", Json.ofText? e.entityType),
    ("entity_id", Json.ofText? e.entityId),
    ("payload", .object e.payload),
    ("team_id", Json.ofText? e.teamId),
    ("source", Json.ofText? e.source),
    ("processed", .bool e.processed),
    ("processed_at", Timestamp.toJson? e.processedAt),
    ("created_at", .string e.createdAt.text)]

/-- The moment until which an event asks to wait. -/
def delayUntil (e : Event) : Except TimestampFault (Option Timestamp) :=
  Timestamp.ofJson? (Fields.getD e.payload "delay_until")

/-- The part of a run's first context that names its event. -/
def reference (e : Event) : Json :=
  .object [
    ("id", .string e.id),
    ("type", .string e.type),
    ("entity_type", Json.ofText? e.entityType),
    ("entity_id", Json.ofText? e.entityId),
    ("payload", .object e.payload)]

/-- The context that a run for an event starts from. -/
def contextSeed (e : Event) : Fields :=
  [("event", e.reference), ("team_id", Json.ofText? e.teamId)]

end Event

/-- A step's request for a further event. -/
structure Emission where
  eventType : String
  entityType : Option String
  entityId : Option String
  payload : Fields
  deriving Inhabited

namespace Emission

/-- The name that reports give to the record. -/
def recordName : String := "EmitDirective"

/-- Check the fields of an emission. -/
def check : Validation.Check Emission :=
  Validation.record recordName fun f =>
    Emission.mk <$> Validation.required f "event_type" Validation.text
      <*> Validation.defaulted f "entity_type" none Validation.optionalText
      <*> Validation.defaulted f "entity_id" none Validation.optionalText
      <*> Validation.defaulted f "payload" [] Validation.object

/-- An emission as a data value. -/
def toJson (e : Emission) : Json :=
  .object [
    ("event_type", .string e.eventType),
    ("entity_type", Json.ofText? e.entityType),
    ("entity_id", Json.ofText? e.entityId),
    ("payload", .object e.payload)]

end Emission

end LeadDesk
