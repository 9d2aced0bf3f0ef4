import LeadDesk.Desk.Archive
import LeadDesk.Enrichment.Provider
/-!
# The registry of providers

A provider is available when it has credentials: those that are stored for its integration,
or else the key in the settings. A call of a provider is bounded in time and tried again as
often as the settings say.
-/

namespace LeadDesk

namespace Enrichment

/-- A value that can be looked up by its name. Lists and objects cannot. -/
def lookupKey : Json → Except Failure Json
  | .array _ => .error (.wrongKind "unhashable type: 'list'")
  | .object _ => .error (.wrongKind "unhashable type: 'dict'")
  | v => .ok v

/-- The provider that a value names. -/
def provider? (name : Json) : Except Failure (Option Provider) :=
  (lookupKey name).map fun v => v.text?.bind Provider.ofName?

/-- The key of a provider in the settings. -/
def keyOf (s : Settings) : Provider → Option String
  | .person => s.peopleDataKey
  | .findEmail | .verifyEmail => s.hunterKey
  | .matchPerson | .company => s.apolloKey
  | .profile => s.apifyKey
  | .research => s.perplexityKey

/-- The name that the key of a provider has among its credentials. -/
def credentialName : Provider → String
  | .profile => "token"
  | _ => "api_key"

/-- The credentials that the settings give. -/
def settingsCredentials (s : Settings) (p : Provider) : Option Fields :=
  match keyOf s p with
  | none | some "" => none
  | some key => some [(credentialName p, .string key)]

/-- The credentials of a provider. -/
def credentials (p : Provider) : Action (Option Fields) := do
  let office ← Action.office
  let stored ←
    if office.hasStore then Archive.credentials p.integration office.providerTeam else pure none
  match stored with
  | some (f :: rest) => return some (f :: rest)
  | _ => return settingsCredentials office.settings p

/-- The provider has credentials. -/
def isAvailable (p : Provider) : Action Bool := do
  return (← credentials p).isSome

/-- The delay before the first repetition of a call, in seconds. -/
def baseDelay : Double := .one

/-- Call a provider once, with its input as the attempts before have left it. -/
def attempt (p : Provider) (credentials input : Fields) : Action Json := do
  let added ← Action.added
  let input := Provider.grown input added
  Action.putAside (added ++ p.additions input)
  p.call credentials input

/-- Call a provider. -/
def call (p : Provider) (input : Fields) : Action Json := do
  Action.putAside []
  match ← credentials p with
  | none => Action.fail (.unavailable p.integration)
  | some credentials =>
    let settings ← Action.settings
    Retry.run baseDelay 0
      (Sandbox.execute p.name settings.toolLimit (attempt p credentials input))
      settings.retries.toNat

/-- Call a provider with input that should be an object. -/
def callWith (p : Provider) : Option Json → Action Json
  | some (.object fields) => call p fields
  | _ => Action.fail (.tool "argument after ** must be a mapping" p.name)

end Enrichment

end LeadDesk
