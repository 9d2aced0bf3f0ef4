import LeadDesk.Failure
/-!
# Announcements

The text that the sales team gets to read: a given message, a named template filled with
data, or a list of the data under the name of an unknown template. A template's field for
which there is no data, or null, stays empty.
-/

namespace LeadDesk

namespace Announcement

/-- A part of a template: text as it stands, or the name of a field. -/
inductive Part where
  | text (s : String)
  | field (name : String)
  deriving DecidableEq, Repr

/-- The named templates. -/
def template? : String → Option (List Part)
  | "hot_lead" => some [
      .text "🔥 Hot lead: ", .field "contact_name", .text " (", .field "title", .text ") at ",
      .field "company", .text " scored ", .field "score", .text "/10. ", .field "summary"]
  | "warm_lead" => some [
      .text "Warm lead: ", .field "contact_name", .text " at ", .field "company",
      .text " scored ", .field "score", .text "/10."]
  | "returning_contact" => some [
      .text "Returning contact: ", .field "contact_name", .text " at ", .field "company",
      .text " (", .field "request_type", .text "): ", .field "message"]
  | _ => none

/-- A part filled with data. -/
def Part.fill (data : Fields) : Part → String
  | text s => s
  | field name =>
    match Fields.get? data name with
    | none | some .null => ""
    | some v => v.plain

/-- A list of data under the name of a template. -/
def listing (name : Json) (data : Fields) : String :=
  (name.orElse (.string "notification")).plain ++ ": " ++
    ", ".intercalate (data.map fun (k, v) => k ++ ": " ++ v.plain)

/-- The text of an announcement. A given message stands for itself, whatever value it is. -/
def render (template : Json) (data : Fields) (message : Json) : Except Failure Json :=
  if message.isGiven then .ok message
  else match template with
    | .array _ | .object _ => .error (.wrongKind s!"unhashable type: '{template.kindName}'")
    | template =>
      match template.text?.bind template? with
      | some parts => .ok (.string (Text.trim (String.join (parts.map (Part.fill data)))))
      | none => .ok (.string (listing template data))

/-- A message that is given wins over every template. -/
theorem render_of_isGiven (template : Json) (data : Fields) {message : Json}
    (h : message.isGiven = true) : render template data message = .ok message := by
  simp [render, h]

end Announcement

end LeadDesk
