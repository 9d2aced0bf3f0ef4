import LeadDesk.Desk.Archive
/-!
# Seeding

The workflows that come with the desk, or those of a document, are saved under their slugs.
To seed a second time saves them once more and leaves one workflow per slug.
-/

namespace LeadDesk

namespace Catalog

/-- Save workflows and give their slugs. -/
def saveAll : List Workflow → Action (List String)
  | [] => return []
  | w :: rest => do
    let _ ← Archive.saveWorkflow w
    let more ← saveAll rest
    return w.slug :: more

/-- The workflows that come with the desk, under new ids. -/
def bundledWorkflows : Action (List Workflow) := do
  let first ← Action.newId
  let second ← Action.newId
  let third ← Action.newId
  return bundled first second third

/-- The number of workflows that a document lists. -/
def listedIn (document : Json) : Nat :=
  match document with
  | .object fields =>
    match Fields.getD fields "workflows" with
    | .array items => items.length
    | _ => 0
  | _ => 0

/-- The workflows of a document, under new ids. -/
def workflowsOf (file : String) (document : Json) : Action (List Workflow) :=
  ⟨fun _ desk =>
    match ofDocument desk.nextId file document with
    | .ok ws => (.done ws, { desk with nextId := desk.nextId + listedIn document })
    | .error e => (.failed e, desk)⟩

/-- Save the workflows that come with the desk. -/
def seed : Action (List String) := do
  saveAll (← bundledWorkflows)

/-- Save the workflows of a document. -/
def seedDocument (file : String) (document : Json) : Action (List String) := do
  saveAll (← workflowsOf file document)

end Catalog

end LeadDesk
