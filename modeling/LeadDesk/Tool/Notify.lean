import LeadDesk.Enrichment.Provider
import LeadDesk.Tool.Announcement
import LeadDesk.Tool.Input
/-!
# The notification tool

A notification is always stored. When its channel is `slack` and a web address is known for
the team, it is sent there as well, and the stored notification says how that went.
-/

namespace LeadDesk

namespace NotifyTool

/-- The address of the team's channel, empty when there is none. -/
def webhook : Action Json := do
  let settings ← Action.settings
  let stored ← Archive.credentials "slack" settings.team
  let own := Fields.getD (stored.getD []) "webhook_url"
  if own.isGiven then return own
  else return .string (settings.webhook.getD "")

/-- The pairs that the query of an address holds. -/
def queryOf (query : List Char) : List (String × String) :=
  ((splitAtEach '&' query).filter (!·.isEmpty)).map fun pair =>
    let name := pair.takeWhile (· != '=')
    (String.ofList name, String.ofList (pair.drop (name.length + 1)))

/-- The request that posts a text to an address. -/
def requestOf (address : String) (text : Json) : Except Failure WebRequest := do
  let url := address.toList.takeWhile (· != '?')
  let body ← Provider.sendable (.object [("text", text)])
  return { method := "POST", url := String.ofList url
           query := queryOf (address.toList.drop (url.length + 1)), body := some body }

/-- Post a text to an address: whether it was delivered, and the error if it was not. -/
def deliver (address : String) (text : Json) : Action (Bool × Option String) := do
  let request ← Action.ofExcept (requestOf address text)
  match ← Action.attempt (Action.send request) with
  | .error e => if Provider.isWebTrouble e then return (false, some e.text) else Action.fail e
  | .ok reply =>
    let status := Provider.status reply
    if status < 300 then return (true, none)
    else return (false, some s!"Slack webhook error: {status}")

/-- Store a notification and send it. -/
def send (input : Fields) : Action Json := do
  let channel := Input.value input "channel" (.string "slack")
  let template := Input.text input "template"
  let data := (Input.value input "data" .null).fields?.getD []
  let text ← Action.ofExcept (Announcement.render template data (Input.text input "message"))
  let settings ← Action.settings
  let row ← Archive.createNotification [
    ("team_id", Json.ofText? settings.team), ("channel", channel),
    ("template", template.orElse .null), ("message", text), ("data", .object data)]
  let id := Row.value row "id"
  let address ← if channel.same (.string "slack") then webhook else pure (.string "")
  let (delivered, error) ←
    if address.isGiven then do
      let (delivered, error) ← deliver address.plain text
      let _ ← Archive.updateNotification id
        [("delivered", .bool delivered), ("error", Json.ofText? error)]
      pure (delivered, error)
    else pure (false, none)
  return .object [("sent", .bool true), ("notification_id", id), ("channel", channel),
    ("delivered", .bool delivered), ("error", Json.ofText? error), ("message", text)]

end NotifyTool

end LeadDesk
