import LeadDesk.Store.Contacts
/-!
# Stored companies, tasks and notifications
-/

namespace LeadDesk

namespace Store

/-- The company with an id. -/
def company? (s : Store) (id : Json) : Except Failure (Option Row) :=
  (Row.select "id" id s.companies).map List.head?

/-- The first company with a domain. -/
def companyAt? (s : Store) (domain : Json) : Except Failure (Option Row) :=
  (Row.select "domain" domain s.companies).map List.head?

/-- The fields that name columns of a table. -/
def known (columns : List Column) (fields : Fields) : Fields :=
  fields.filter fun (name, _) => (Row.column? columns name).isSome

/-- Store a company, or update the one with an id. Fields that companies do not have are
ignored. -/
def saveCompany (s : Store) (freshId : String) (now : Timestamp) (given : Fields)
    (moments : List (String × Timestamp)) (id : Json) : Except Failure (Row × Store) := do
  let old ← if id.isGiven then s.company? id else .ok none
  let given ← Row.readMoments Tables.companies given
  let own := (moments ++ [("updated_at", now)]).map fun (name, t) => (name, Column.momentText t)
  let given := Fields.overlay (known Tables.companies given) own
  match old with
  | none =>
    let row ← newRow Tables.companies s.companies freshId now given
    return (row, { s with companies := s.companies ++ [row] })
  | some row =>
    let changed ← Row.change Tables.companies row given
    return (changed, { s with
      companies := s.companies.map fun r => if Row.id r == Row.id row then changed else r })

/-- Store a task. -/
def addTask (s : Store) (freshId : String) (now : Timestamp) (given : Fields) :
    Except Failure (Row × Store) := do
  let given ← Row.readMoments Tables.tasks given
  let row ← newRow Tables.tasks s.tasks freshId now given
  return (row, { s with tasks := s.tasks ++ [row] })

/-- The open tasks of a contact, by priority and then by age. -/
def openTasks (s : Store) (contactId : Json) : Except Failure (List Row) := do
  let own ← Row.select "contact_id" contactId s.tasks
  return Row.sortBy "priority" (Row.sortBy "created_at"
    (own.filter fun row => (Row.value row "completed_at").isNull))

/-- Refuse moments among given values. -/
def refuseMoments (columns : List Column) (given : Fields) : Except Failure Unit :=
  if given.any fun (name, v) =>
      !v.isNull && (Row.column? columns name).any (·.kind = .moment) then .error .unstorable
  else .ok ()

/-- Store a notification. Its moments cannot be given. -/
def addNotification (s : Store) (freshId : String) (now : Timestamp) (given : Fields) :
    Except Failure (Row × Store) := do
  let row ← newRow Tables.notifications s.notifications freshId now given
  refuseMoments Tables.notifications given
  return (row, { s with notifications := s.notifications ++ [row] })

/-- Update a notification; `none` when it is not there. -/
def updateNotification (s : Store) (id : Json) (updates : Fields) :
    Except Failure (Option Row × Store) := do
  match ← (Row.select "id" id s.notifications).map List.head? with
  | none => return (none, s)
  | some row =>
    refuseMoments Tables.notifications updates
    let row ← Row.change Tables.notifications row updates
    return (some row, { s with notifications := Row.replace row s.notifications })

end Store

end LeadDesk
