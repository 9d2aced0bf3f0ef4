import LeadDesk.Store.Companies
/-!
# Stored settings of teams

Credentials of integrations and named settings are kept for one team or for all teams. What
is kept for a team goes before what is kept for all, and no team sees what another one keeps.
-/

namespace LeadDesk

namespace Store

/-- The row belongs to a team, or to all teams. A team without a name is no team. -/
def concerns (team : Option String) (row : Row) : Bool :=
  match team, Row.value row "team_id" with
  | _, .null => true
  | some t, .string owner => t != "" && owner == t
  | _, _ => false

/-- Rows of a team before rows of all teams, in the order of insertion otherwise. -/
def teamFirst (rows : List Row) : List Row :=
  rows.filter (fun row => !(Row.value row "team_id").isNull) ++
    rows.filter fun row => (Row.value row "team_id").isNull

/-- The row is exactly that of a team, or that of all teams when no team is named. -/
def ownedBy (team : Option String) (row : Row) : Bool :=
  match team with
  | none | some "" => (Row.value row "team_id").isNull
  | some t => (Row.value row "team_id").same (.string t)

/-- A text column of the row has the given text. -/
def named (column name : String) (row : Row) : Bool := (Row.value row column).same (.string name)

/-- The credentials of an integration that is switched on. -/
def credentials? (s : Store) (name : String) (team : Option String) : Option Json :=
  let rows := s.integrations.filter fun row =>
    named "name" name row && (Row.value row "is_enabled").isGiven && concerns team row
  ((teamFirst rows).map fun row => Row.value row "credentials").find? Json.isGiven

/-- Put a row in place of the row that one team, or all teams, have under a name. A second row of
a team under one name is refused. -/
def putSetting (columns : List Column) (column name : String) (team : Option String)
    (freshId : String) (now : Timestamp) (given changes : Fields) (rows : List Row) :
    Except Failure (Row × List Row) := do
  match rows.find? fun row => named column name row && ownedBy team row with
  | some old =>
    let row ← Row.change columns old changes
    return (row, Row.replace row rows)
  | none =>
    let row ← Row.create columns freshId now (given ++ changes)
    if rows.any fun r => named column name r &&
        !(Row.value r "team_id").isNull && (Row.value r "team_id").same (Json.ofText? team) then
      throw .duplicateKey
    return (row, rows ++ [row])

/-- Save the credentials of an integration. -/
def saveIntegration (s : Store) (freshId : String) (now : Timestamp) (name : String)
    (credentials : Json) (team : Option String) (isEnabled : Json) :
    Except Failure (Row × Store) := do
  let (row, rows) ← putSetting Tables.integrations "name" name team freshId now
    [("name", .string name), ("team_id", Json.ofText? team)]
    [("credentials", credentials), ("is_enabled", isEnabled),
      ("updated_at", Column.momentText now)]
    s.integrations
  return (row, { s with integrations := rows })

/-- The value of a setting. -/
def teamConfig? (s : Store) (key : String) (team : Option String) : Option Json :=
  let rows := s.teamConfig.filter fun row => named "config_key" key row && concerns team row
  ((teamFirst rows).map fun row => Row.value row "config_value").head?

/-- Save a setting. A description that is not given stays as it is. -/
def setTeamConfig (s : Store) (freshId : String) (now : Timestamp) (key : String) (value : Json)
    (team : Option String) (description : Json) : Except Failure Store := do
  let (_, rows) ← putSetting Tables.teamConfig "config_key" key team freshId now
    [("config_key", .string key), ("team_id", Json.ofText? team)]
    ([("config_value", value)] ++
      (if description.isNull then [] else [("description", description)]) ++
      [("updated_at", Column.momentText now)])
    s.teamConfig
  return { s with teamConfig := rows }

/-- Sorting by team keeps the rows. -/
theorem teamFirst_perm (rows : List Row) : (teamFirst rows).Perm rows := by
  unfold teamFirst
  refine (List.perm_append_comm).trans ?_
  exact List.filter_append_perm (fun row => (Row.value row "team_id").isNull) rows

end Store

end LeadDesk
