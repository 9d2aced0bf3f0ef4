import LeadDesk.Store.Basic
import LeadDesk.Text.Case
/-!
# Stored contacts

A contact is a row with the columns `Tables.contacts`. An update may only name columns that
contacts have; its id and its moment of creation never change. Contacts are found by their
email in any case, or by a pattern in their names and email in which `%` stands for any
text and `_` for any character.
-/

namespace LeadDesk

namespace Store

/-- The contact with an id. -/
def contact? (s : Store) (id : Json) : Except Failure (Option Row) :=
  (Row.select "id" id s.contacts).map List.head?

/-- The names among some fields that no column of a table has. -/
def unknownNames (columns : List String) (fields : Fields) : List String :=
  (fields.map (·.1)).filter fun name => !columns.contains name

/-- A name that no column of a new record has. -/
def refuseUnknown (columns : List Column) (fields : Fields) : Except Failure Unit :=
  match unknownNames (columns.map (·.name)) fields with
  | [] => .ok ()
  | name :: _ => .error (.wrongKind s!"'{name}' is an invalid keyword argument")

/-- A new row of a table from given fields, which may only name its columns. -/
def newRow (columns : List Column) (rows : List Row) (freshId : String) (now : Timestamp)
    (given : Fields) : Except Failure Row := do
  refuseUnknown columns given
  let row ← Row.create columns freshId now given
  if rows.any fun r => Row.id r == Row.id row then throw .duplicateKey
  return row

/-- Store a contact. -/
def addContact (s : Store) (freshId : String) (now : Timestamp) (given : Fields) :
    Except Failure (Row × Store) := do
  let given ← Row.readMoments Tables.contacts given
  let row ← newRow Tables.contacts s.contacts freshId now given
  return (row, { s with contacts := s.contacts ++ [row] })

/-- Refuse updates that name what is no changeable column of a contact. -/
def checkContactUpdates (updates : Fields) : Except Failure Unit :=
  match unknownNames Tables.changeableContactColumns updates with
  | [] => .ok ()
  | names => .error (.unknownContactFields (names.mergeSort fun a b => a ≤ b))

/-- The row of a contact with updates, and with the moments of the desk itself on top. -/
def updatedContact (row : Row) (now : Timestamp) (updates : Fields)
    (moments : List (String × Timestamp)) : Except Failure Row := do
  let updates ← Row.readMoments Tables.contacts updates
  let own := (moments ++ [("updated_at", now)]).map fun (name, t) => (name, Column.momentText t)
  Row.change Tables.contacts row (Fields.overlay updates own)

/-- Update a contact; `none` when it is not there. -/
def updateContact (s : Store) (id : Json) (now : Timestamp) (updates : Fields)
    (moments : List (String × Timestamp)) : Except Failure (Option Row × Store) := do
  checkContactUpdates updates
  match ← s.contact? id with
  | none => return (none, s)
  | some row =>
    let row ← updatedContact row now updates moments
    return (some row, { s with contacts := Row.replace row s.contacts })

/-- Delete a contact, and whether it was there. -/
def deleteContact (s : Store) (id : Json) : Except Failure (Bool × Store) := do
  match ← s.contact? id with
  | none => return (false, s)
  | some row =>
    return (true, { s with contacts := s.contacts.filter fun r => Row.id r != Row.id row })

/-- What is left of a text after each number of its characters. -/
def suffixes : List Char → List (List Char)
  | [] => [[]]
  | c :: rest => (c :: rest) :: suffixes rest

/-- A text matches a pattern, character by character. -/
def matchesPattern : List Char → List Char → Bool
  | [], text => text.isEmpty
  | p :: pattern, text =>
    if p == '%' then (suffixes text).any (matchesPattern pattern)
    else match text with
      | [] => false
      | c :: rest => (p == '_' || p == c) && matchesPattern pattern rest

/-- A value holds a text that matches a pattern, whatever the case of ASCII letters. -/
def isLike (pattern : String) : Json → Bool
  | .string s => matchesPattern (Text.lowerAscii pattern).toList (Text.lowerAscii s).toList
  | _ => false

/-- What to look for among contacts: an email, else a text in names and email, else nothing. -/
inductive ContactQuery where
  | email (address : String)
  | text (part : String)
  | everyone
  deriving DecidableEq, Repr

/-- Whether a contact is looked for. -/
def ContactQuery.admits : ContactQuery → Row → Bool
  | email address, row =>
    match Row.value row "email" with
    | .string s => Text.lowerAscii s == Text.lower (Text.trim address)
    | _ => false
  | text part, row =>
    ["first_name", "last_name", "email"].any fun column =>
      isLike ("%" ++ part ++ "%") (Row.value row column)
  | everyone, _ => true

/-- The id of the contact to leave out, read as a text column reads it; null when none is given. -/
def excludedId (except : Json) : Except Failure Json :=
  if except.isGiven then Column.textForm except else .ok .null

/-- The contacts that are looked for, without one of them if its id is given, oldest first, up to a
limit. -/
def findContacts (s : Store) (query : ContactQuery) (except : Json) (limit : Option Int) :
    Except Failure (List Row) := do
  let excluded ← excludedId except
  let found := s.contacts.filter fun row =>
    query.admits row && !(except.isGiven && (excluded.isNull || excluded.same (Row.value row "id")))
  return Row.upTo limit (Row.sortBy "created_at" found)

/-- Add a note to a contact. -/
def addNote (s : Store) (freshId : String) (now : Timestamp) (contactId content noteType : Json) :
    Except Failure (Row × Store) := do
  let row ← newRow Tables.notes s.notes freshId now
    [("contact_id", contactId), ("content", content), ("note_type", noteType)]
  return (row, { s with notes := s.notes ++ [row] })

/-- The most recent notes on a contact, newest first. -/
def notesOn (s : Store) (contactId : Json) (limit : Option Int) : Except Failure (List Row) := do
  let own ← Row.select "contact_id" contactId s.notes
  return Row.upTo limit (Row.sortDown "created_at" own)

/-- A refused update is refused for the names that are not changeable columns. -/
theorem checkContactUpdates_eq_ok_iff (updates : Fields) :
    checkContactUpdates updates = .ok () ↔
      ∀ f ∈ updates, f.1 ∈ Tables.changeableContactColumns := by
  unfold checkContactUpdates unknownNames
  constructor
  · intro h f hf
    split at h
    · rename_i hnil
      have := List.filter_eq_nil_iff.1 hnil f.1 (List.mem_map_of_mem hf)
      simpa using this
    · simp at h
  · intro h
    have : (updates.map (·.1)).filter
        (fun name => !Tables.changeableContactColumns.contains name) = [] := by
      rw [List.filter_eq_nil_iff]
      intro a ha
      obtain ⟨f, hf, rfl⟩ := List.mem_map.1 ha
      simpa using h f hf
    rw [this]

end Store

end LeadDesk
