import LeadDesk.Template.Path
import LeadDesk.Tool.Sandbox
/-!
# Enrichment providers

Services of the web that know more about people and companies. Each provider turns its
input into one request and the answer into an object with `success`, and with `data` or an
`error`. Trouble on the way and bad statuses become unsuccessful results that say whether
the call may be tried again; an answer that does not have the expected shape is a failure.
-/

namespace LeadDesk

/-- The providers. -/
inductive Provider where
  | person
  | findEmail
  | verifyEmail
  | matchPerson
  | company
  | profile
  | research
  deriving DecidableEq, Repr, Inhabited

namespace Provider

/-- All providers. -/
def all : List Provider :=
  [person, findEmail, verifyEmail, matchPerson, company, profile, research]

/-- The name by which workflows call a provider. -/
def name : Provider → String
  | person => "enrich_person_pdl"
  | findEmail => "find_email_hunter"
  | verifyEmail => "verify_email_hunter"
  | matchPerson => "enrich_person_apollo"
  | company => "enrich_company_apollo"
  | profile => "scrape_linkedin_profile"
  | research => "research_company_perplexity"

/-- The integration that holds the credentials of a provider. -/
def integration : Provider → String
  | person => "peopledatalabs"
  | findEmail | verifyEmail => "hunter"
  | matchPerson | company => "apollo"
  | profile => "apify"
  | research => "perplexity"

/-- The provider with a name. -/
def ofName? (name : String) : Option Provider := all.find? (·.name == name)

/-- The value under a key of an object; nothing else has members. -/
def member (key : String) : Json → Except Failure Json
  | .object fields => .ok (Fields.getD fields key)
  | v => .error (.lacks v.kindName "get")

/-- The object under a key, the empty one when it is not given. -/
def memberOrEmpty (key : String) (v : Json) : Except Failure Json :=
  (member key v).map (·.orElse .empty)

/-- The members of a value under some keys, each under a name of its own. -/
def members (v : Json) : List (String × String) → Except Failure Fields
  | [] => .ok []
  | (name, key) :: rest => do
    let value ← member key v
    return (name, value) :: (← members v rest)

/-- A successful result. -/
def success (data : Fields) : Json :=
  .object [("success", .bool true), ("data", .object data)]

/-- An unsuccessful result for input that lacks something. -/
def refusal (message : String) : Json :=
  .object [("success", .bool false), ("error", .string message)]

/-- A successful result without data. -/
def nothingFound (message : String) : Json :=
  .object [("success", .bool true), ("data", .null), ("message", .string message)]

/-- The result of an answer with a bad status. -/
def badStatus (service : String) (status : Int) : Json :=
  .object [("success", .bool false), ("error", .string s!"{service} API error: {status}"),
    ("retryable", .bool (Retry.isPassingStatus (.int status)))]

/-- The result of trouble on the way. -/
def transportFailure (e : Failure) : Json :=
  .object [("success", .bool false), ("error", .string e.text), ("retryable", .bool true)]

/-- The failure is trouble of the web. -/
def isWebTrouble : Failure → Bool
  | .outside .transport _ _ | .outside .web _ _ => true
  | _ => false

/-- The input fields that are given, each under a name of its own. -/
def givenFields (input : Fields) (names : List (String × String)) : Fields :=
  (names.map fun (name, key) => (name, Fields.getD input key)).filter (·.2.isGiven)

/-- A credential that a provider needs. -/
def credential (credentials : Fields) (key : String) : Except Failure Json :=
  match Fields.get? credentials key with
  | some v => .ok v
  | none => .error (.noKey key)

/-- A text as the value of a header, which holds ASCII alone. -/
def headerText (s : String) : Except Failure String :=
  let fits (c : Char) : Bool := c.toNat < 128
  match s.toList.dropWhile fits with
  | [] => .ok s
  | rest => .error (.unsendable (s.length - rest.length) (rest.takeWhile (!fits ·)))

/-- A value as the value of a header. -/
def header : Json → Except Failure String
  | .string s => headerText s
  | v => .error (.wrongKind
      s!"Header value must be str or bytes, not <class '{v.kindName}'>")

/-- A value as text in the query of a request. -/
def queryText : Json → String
  | .null => ""
  | .bool b => if b then "true" else "false"
  | v => v.plain

/-- The pairs of a query; a list stands for one pair per item. -/
def queryPairs (fields : Fields) : List (String × String) :=
  fields.flatMap fun (name, v) =>
    match v with
    | .array items => items.map fun item => (name, queryText item)
    | v => [(name, queryText v)]

/-- A body of data for a request. -/
def sendable (v : Json) : Except Failure Json := if v.isFinite then .ok v else .error .notJson

/-- The status of an answer. -/
def status : WebReply → Int
  | .data status _ | .text status _ => status
  | .broken _ => 0

/-- The data of an answer. A mark of byte order in front of a text is skipped. -/
def data : WebReply → Except Failure Json
  | .data _ body => .ok body
  | .text _ body =>
    match Json.read (Json.withoutMark body) with
    | .ok v => .ok v
    | .error e => .error (.json e)
  | .broken e => .error e

/-- Send a request and make a result of the answer. Requests that cannot be made fail. -/
def exchange (service : String) (good : List Int) (request : Except Failure WebRequest)
    (interpret : Json → Except Failure Json) : Action Json := do
  let request ← Action.ofExcept request
  match ← Action.attempt (Action.send request) with
  | .error e => if isWebTrouble e then return transportFailure e else Action.fail e
  | .ok reply =>
    if good.contains (status reply) then
      Action.ofExcept (data reply >>= interpret)
    else return badStatus service (status reply)

/-- A request with a body, under a key in its header. -/
def keyedPost (url : String) (body : Json) (credentials : Fields) : Except Failure WebRequest := do
  let key ← credential credentials "api_key"
  let key ← header key
  let body ← sendable body
  return { method := "POST", url := url, body := some body, apiKey := some key }

/-- Look a person up, first of all for a work email. -/
def callPerson (credentials input : Fields) : Action Json :=
  let body := givenFields input [("email", "email"), ("first_name", "first_name"),
    ("last_name", "last_name"), ("company", "company"), ("profile", "linkedin_url")]
  exchange "PDL" [200]
    (keyedPost "https://api.peopledatalabs.com/v5/person/enrich" (.object body) credentials)
    fun answer => do
      let person ← memberOrEmpty "data" answer
      let found ← members person [("first_name", "first_name"), ("last_name", "last_name"),
        ("work_email", "work_email"), ("linkedin_url", "linkedin_url"), ("title", "job_title"),
        ("company", "job_company_name"), ("company_domain", "job_company_website"),
        ("location", "location_name"), ("industry", "industry")]
      let phone ← member "mobile_phone" person
      return success (found ++ [("phone", phone.orElse .null)])

/-- Where the email service answers. -/
def hunterUrl : String := "https://api.hunter.io/v2"

/-- Find the email of a person at a domain. -/
def callFindEmail (credentials input : Fields) : Action Json :=
  let domain := Fields.getD input "domain"
  if !domain.isGiven then return refusal "domain is required"
  else
    let request : Except Failure WebRequest := do
      let key ← credential credentials "api_key"
      let query := [("domain", domain), ("api_key", key)] ++
        givenFields input [("first_name", "first_name"), ("last_name", "last_name")]
      return { method := "GET", url := hunterUrl ++ "/email-finder", query := queryPairs query }
    exchange "Hunter" [200] request fun answer => do
      let found ← memberOrEmpty "data" answer
      let email ← member "email" found
      let score ← member "score" found
      let verification ← memberOrEmpty "verification" found
      let verdict ← member "status" verification
      return success [("email", email), ("score", score), ("verification_status", verdict)]

/-- Verify that an email can be delivered. -/
def callVerifyEmail (credentials input : Fields) : Action Json :=
  let email := Fields.getD input "email"
  if !email.isGiven then return refusal "email is required"
  else
    let request : Except Failure WebRequest := do
      let key ← credential credentials "api_key"
      return { method := "GET", url := hunterUrl ++ "/email-verifier"
               query := queryPairs [("email", email), ("api_key", key)] }
    exchange "Hunter" [200] request fun answer => do
      let found ← memberOrEmpty "data" answer
      return success (← members found [("status", "status"), ("score", "score"),
        ("is_disposable", "disposable"), ("is_webmail", "webmail")])

/-- Where the matching service answers. -/
def apolloUrl : String := "https://api.apollo.io/api/v1"

/-- Match a person. -/
def callMatchPerson (credentials input : Fields) : Action Json :=
  let body := givenFields input [("email", "email"), ("first_name", "first_name"),
    ("last_name", "last_name"), ("domain", "domain")]
  exchange "Apollo" [200]
    (keyedPost (apolloUrl ++ "/people/match") (.object body) credentials)
    fun answer => do
      let person ← memberOrEmpty "person" answer
      let employer ← memberOrEmpty "organization" person
      let found ← members person [("title", "title"), ("seniority", "seniority"),
        ("linkedin_url", "linkedin_url"), ("email", "email")]
      let place ← members employer [("company", "name"), ("company_domain", "primary_domain")]
      return success (found ++ place)

/-- Look a company up. -/
def callCompany (credentials input : Fields) : Action Json :=
  let domain := Fields.getD input "domain"
  if !domain.isGiven then return refusal "domain is required"
  else
    let request : Except Failure WebRequest := do
      let key ← credential credentials "api_key"
      return { method := "GET", url := apolloUrl ++ "/organizations/enrich"
               query := queryPairs [("domain", domain)], apiKey := some (← header key) }
    exchange "Apollo" [200] request fun answer => do
      let found ← memberOrEmpty "organization" answer
      let name ← member "name" found
      let site ← member "primary_domain" found
      let more ← members found [("industry", "industry"),
        ("employee_count", "estimated_num_employees"), ("founded_year", "founded_year"),
        ("linkedin_url", "linkedin_url")]
      return success ([("name", name.orElse (Fields.getD input "name")),
        ("domain", site.orElse domain)] ++ more)

/-- The characters behind the first occurrence of a part. -/
def behind? (part : List Char) : List Char → Option (List Char)
  | [] => if part.isEmpty then some [] else none
  | c :: rest =>
    if part.isPrefixOf (c :: rest) then some ((c :: rest).drop part.length)
    else behind? part rest

/-- The part of an address that stands before a profile's name. -/
def profileMark : String := "linkedin.com/in/"

/-- The name of a profile in its address. -/
def profileName (address : Json) : Except Failure Json :=
  match address with
  | .string s =>
    match behind? profileMark.toList s.toList with
    | some rest => .ok (.string (String.ofList (rest.reverse.dropWhile (· == '/')).reverse))
    | none => .ok address
  | .array items =>
    if items.any (·.same (.string profileMark)) then .error (.lacks "list" "split")
    else .ok address
  | .object fields =>
    if Fields.has fields profileMark then .error (.lacks "dict" "split") else .ok address
  | v => .error (.wrongKind s!"argument of type '{v.kindName}' is not iterable")

/-- A count of posts between 1 and 100; ten when none can be read. -/
def postCount (v : Json) : Except Failure Int :=
  let bounded (n : Int) : Int := min (max n 1) 100
  match v with
  | .int n => .ok (bounded n)
  | .bool b => .ok (bounded (if b then 1 else 0))
  | .float d =>
    match d with
    | .infinity _ => .error (.noInteger true)
    | d => .ok ((d.truncate?.map bounded).getD 10)
  | .string s =>
    match readInt s with
    | .ok n => .ok (bounded n)
    | .error _ => .ok 10
  | _ => .ok 10

/-- The start of a text, of at most 200 characters; lists are cut alike. -/
def excerpt : Json → Except Failure Json
  | .string s => .ok (.string (String.ofList (s.toList.take 200)))
  | .array items => .ok (.array (items.take 200))
  | .object _ => .error (.wrongKind "unhashable type: 'slice'")
  | v => .error (.wrongKind s!"'{v.kindName}' object is not subscriptable")

/-- What is kept of posts. -/
def posts : List Json → Except Failure (List Json)
  | [] => .ok []
  | p :: rest => do
    let text ← member "text" p
    let text ← excerpt (text.orElse (.string ""))
    let reactions ← member "totalReactionCount" p
    return .object [("text", text), ("reactions", reactions)] :: (← posts rest)

/-- The items of an answer that should be a list of posts. -/
def postItems : Json → Except Failure (List Json)
  | .array items => .ok items
  | .string s => .ok (s.toList.map fun c => .string (String.singleton c))
  | .object _ => .error (.noPosition 0)
  | v => .error (.wrongKind s!"'{v.kindName}' object is not subscriptable")

/-- Read a public profile and its recent posts. -/
def callProfile (credentials input : Fields) : Action Json :=
  let address := Fields.getD input "linkedin_url"
  if !address.isGiven then return nothingFound "No LinkedIn URL provided"
  else
    let request : Except Failure WebRequest := do
      let name ← profileName address
      let count ← postCount ((Fields.get? input "limit").getD 10)
      let token := (Fields.getD credentials "token").orElse (Fields.getD credentials "api_key")
      let body ← sendable (.object [("username", name), ("limit", .int count)])
      return { method := "POST"
               url := "https://api.apify.com/v2/acts/apimaestro~linkedin-profile-posts/" ++
                 "run-sync-get-dataset-items"
               query := queryPairs [("token", token)], body := some body }
    exchange "Apify" [200, 201] request fun answer => do
      if !answer.isGiven then return nothingFound "No profile data"
      let items ← postItems answer
      let profile := items.head?.getD .null
      let name ← member "name" profile
      let fullName ← member "fullName" profile
      let headline ← member "headline" profile
      let summary ← member "summary" profile
      let about ← member "about" profile
      let more ← members profile [("location", "location"), ("experience", "experience"),
        ("education", "education"), ("skills", "skills")]
      let recent ← posts (items.take 5)
      return success ([("name", name.orElse fullName), ("headline", headline),
        ("summary", summary.orElse about)] ++ more ++ [("recent_posts", .array recent)])

/-- What is kept of the results of a search. -/
def searchResults : List Json → Except Failure (List Json)
  | [] => .ok []
  | item :: rest => do
    let found ← members item [("title", "title"), ("url", "url"), ("snippet", "snippet")]
    return .object found :: (← searchResults rest)

/-- The items that a value is made of. -/
def itemsOf : Json → Except Failure (List Json)
  | .array items => .ok items
  | .object fields => .ok (fields.map fun f => .string f.1)
  | .string s => .ok (s.toList.map fun c => .string (String.singleton c))
  | v => .error (.wrongKind s!"'{v.kindName}' object is not iterable")

/-- The characters of a text as items. -/
def letters (s : String) : List Json := s.toList.map fun c => .string (String.singleton c)

/-- A value with text behind it. A list takes the characters as items. -/
def extended (v : Json) (more : String) : Except Failure Json :=
  match v with
  | .string s => .ok (.string (s ++ more))
  | .array items => .ok (.array (items ++ letters more))
  | v => .error (.wrongKind
      s!"unsupported operand type(s) for +=: '{v.kindName}' and 'str'")

/-- How deep a company is to be researched. -/
def depthOf (input : Fields) : Json := (Fields.get? input "depth").getD (.string "light")

/-- The company is to be researched deeply. -/
def isDeep (input : Fields) : Bool := (depthOf input).same (.string "deep")

/-- The field of the input that names the company to be researched. -/
def subjectName (input : Fields) : String :=
  if (Fields.getD input "company_name").isGiven then "company_name" else "domain"

/-- What makes a query of the name of a company: its domain, if it has one besides, and what is
asked about it. -/
def question (input : Fields) : String :=
  let domain := Fields.getD input "domain"
  let site :=
    if domain.isGiven && (Fields.getD input "company_name").isGiven then s!" ({domain.plain})"
    else ""
  site ++ if isDeep input then
    " - company overview, recent news, funding, competitors" else " - company overview"

/-- Research a company, lightly or deeply. A list that is given as the company's name grows with
the query that is made of it. -/
def callResearch (credentials input : Fields) : Action Json :=
  let company := Fields.getD input "company_name"
  let domain := Fields.getD input "domain"
  let subject := company.orElse domain
  if !subject.isGiven then return refusal "company_name or domain is required"
  else
    let deep := isDeep input
    let query := extended subject (question input)
    let request : Except Failure WebRequest := do
      let query ← query
      let key ← credential credentials "api_key"
      let pass ← headerText ("Bearer " ++ key.plain)
      let body ← sendable (.object [("query", query), ("max_results", if deep then 10 else 3),
        ("search_recency_filter", .string "month")])
      return { method := "POST", url := "https://api.perplexity.ai/search", body := some body
               authorization := some pass }
    let grown (v : Json) : Json :=
      match v, query with
      | .array _, .ok q => q
      | v, _ => v
    exchange "Perplexity" [200] request fun answer => do
      let results ← member "results" answer
      let results ← itemsOf (results.orElse (.array []))
      let results ← searchResults results
      let company' := if company.isGiven then grown company else company
      let domain' := if company.isGiven then domain else grown domain
      return success [("company_name", company'), ("domain", domain'), ("depth", depthOf input),
        ("results", .array results)]

/-- Call a provider with credentials and input. -/
def call (p : Provider) (credentials input : Fields) : Action Json :=
  if Fields.has input "credentials" then
    Action.fail (.wrongKind s!"{p.name}() got multiple values for argument 'credentials'")
  else match p with
    | person => callPerson credentials input
    | findEmail => callFindEmail credentials input
    | verifyEmail => callVerifyEmail credentials input
    | matchPerson => callMatchPerson credentials input
    | company => callCompany credentials input
    | profile => callProfile credentials input
    | research => callResearch credentials input

/-- The items that a call adds to a list in its input: a list that names the company to be
researched takes up the question. -/
def additions (p : Provider) (input : Fields) : List Json :=
  match p, Fields.has input "credentials", Fields.getD input (subjectName input) with
  | research, false, .array (_ :: _) => letters (question input)
  | _, _, _ => []

/-- Input with items added to the list that names the company to be researched. -/
def grown (input : Fields) (added : List Json) : Fields :=
  if added.isEmpty then input
  else Fields.alter input (subjectName input) (Path.extend added [])

/-- Every provider is found by its name. -/
theorem ofName?_name (p : Provider) : ofName? p.name = some p := by
  cases p <;> decide

end Provider

end LeadDesk
