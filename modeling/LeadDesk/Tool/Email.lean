import LeadDesk.Tool.Input
/-!
# Tools for emails

The domain of an email is what stands behind its first `@`, in lower case and without blanks
around it.
-/

namespace LeadDesk

namespace Email

/-- The domains of providers of personal mailboxes. -/
def personalDomains : List String := [
  "gmail.com", "googlemail.com", "yahoo.com", "yahoo.co.uk", "hotmail.com", "outlook.com",
  "live.com", "msn.com", "icloud.com", "me.com", "mac.com", "aol.com", "protonmail.com",
  "proton.me", "mail.com", "email.com"]

/-- The domain of an email. -/
def domain? (email : String) : Option String :=
  let rest := email.toList.dropWhile (· != '@')
  match rest with
  | [] => none
  | _ :: domain =>
    let domain := Text.lower (Text.trim (String.ofList domain))
    if domain == "" then none else some domain

/-- The domain of an email that should be a text. A list or object is searched for `@`. -/
def domainOf : Json → Except Failure (Option String)
  | .string s => .ok (domain? s)
  | .array items =>
    if items.any (·.same (.string "@")) then .error (.lacks "list" "split") else .ok none
  | .object fields =>
    if Fields.has fields "@" then .error (.lacks "dict" "split") else .ok none
  | v => .error (.wrongKind s!"argument of type '{v.kindName}' is not iterable")

/-- Tell a personal email from one of a company. -/
def classify (input : Fields) : Except Failure Json :=
  let email := Input.text input "email"
  if !email.isGiven then .ok (.object [("is_personal", .bool true), ("domain", .null)])
  else do
    let domain ← domainOf email
    let isPersonal := match domain with
      | some d => personalDomains.contains d
      | none => false
    return .object [("is_personal", .bool isPersonal), ("is_company", .bool !isPersonal),
      ("domain", Json.ofText? domain), ("email", email)]

/-- The domain of an email. -/
def extractDomain (input : Fields) : Except Failure Json :=
  let email := Input.text input "email"
  if !email.isGiven then .ok (.object [("domain", .null)])
  else do
    let domain ← domainOf email
    return .object [("domain", Json.ofText? domain), ("email", email)]

/-- A text without `@` has no domain. -/
theorem domain?_eq_none_of_not_mem {email : String} (h : '@' ∉ email.toList) :
    domain? email = none := by
  have key : ∀ cs : List Char, '@' ∉ cs → cs.dropWhile (· != '@') = [] := by
    intro cs hcs
    induction cs with
    | nil => rfl
    | cons c rest ih =>
      have hc : c ≠ '@' := fun e => hcs (by simp [e])
      have hr : '@' ∉ rest := fun e => hcs (List.mem_cons_of_mem c e)
      simp [hc, ih hr]
  simp [domain?, key _ h]

end Email

end LeadDesk
