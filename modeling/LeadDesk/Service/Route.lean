import LeadDesk.Json.Reader
import LeadDesk.Template.Path
import LeadDesk.Text.Percent
import LeadDesk.Validation.Scalar
/-!
# Routes of the service

What a request to the desk asks for. A path names a resource, and each resource answers to
one method: `Route.ofRequest` tells a resource that is not there from one that is asked in
the wrong way.
-/

namespace LeadDesk

namespace Service

/-- The body of a request: nothing, data, or text that should hold data. -/
inductive Body where
  | empty
  | data (v : Json)
  | text (s : String)

/-- The text of a body is read as what it is. A null character among the first two makes it look
like text in wider units, and half a pair is no character of a text. -/
def Body.IsRegular : Body → Prop
  | .empty | .data _ => True
  | .text s => '\x00' ∉ s.toList.take 2 ∧ Json.hasHalf false s.toList = false

instance : DecidablePred Body.IsRegular
  | .empty | .data _ => .isTrue trivial
  | .text _ => inferInstanceAs (Decidable (_ ∧ _))

/-- A request to the desk. The target is a path with an optional query. -/
structure Request where
  method : String
  target : String
  body : Body := .empty

/-- What a request asks for. -/
inductive Route where
  /-- How the desk is. -/
  | health
  /-- To handle the event in the body. -/
  | processEvent
  /-- All workflows. -/
  | workflows
  /-- To run a workflow by hand. -/
  | runWorkflow (slug : String)
  /-- A run with its log. -/
  | showRun (id : String)
  deriving DecidableEq, Repr

namespace Route

/-- The method that a resource answers to. -/
def method : Route → String
  | health | workflows | showRun _ => "GET"
  | processEvent | runWorkflow _ => "POST"

/-- The resource that the parts of a path name. -/
def ofParts : List String → Option Route
  | ["", "health"] => some health
  | ["", "process-event"] => some processEvent
  | ["", "workflows"] => some workflows
  | ["", "workflows", slug, "run"] => if slug == "" then none else some (runWorkflow slug)
  | ["", "runs", id] => if id == "" then none else some (showRun id)
  | _ => none

/-- Where a request leads. -/
inductive Match where
  | found (route : Route)
  | wrongMethod
  /-- The path would name a resource without the slashes at its end. -/
  | elsewhere
  | unknown
  deriving DecidableEq, Repr

/-- The path of a target. -/
def pathOf (target : String) : String :=
  Text.percentDecoded (target.toList.takeWhile fun c => c != '?' && c != '#')

/-- The resource that a path names. -/
def ofPath (path : List Char) : Option Route :=
  ofParts ((splitAtEach '/' path).map String.ofList)

/-- A path without the slashes at its end. -/
def unended (path : List Char) : List Char := (path.reverse.dropWhile (· == '/')).reverse

/-- The route of a request. -/
def ofRequest (r : Request) : Match :=
  let path := (pathOf r.target).toList
  match ofPath path with
  | some route => if r.method.toUpper == route.method then .found route else .wrongMethod
  | none => if (ofPath (unended path)).isSome then .elsewhere else .unknown

end Route

/-- A name or value of a query, in which a plus sign stands for a blank. -/
def queryText (cs : List Char) : String :=
  Text.percentDecoded (cs.map fun c => if c == '+' then ' ' else c)

/-- The pairs of the query of a target. -/
def queryPairs (target : String) : List (String × String) :=
  let query := ((target.toList.dropWhile (· != '?')).drop 1).takeWhile (· != '#')
  ((splitAtEach '&' query).filter (!·.isEmpty)).map fun pair =>
    let name := pair.takeWhile (· != '=')
    (queryText name, queryText (pair.drop (name.length + 1)))

/-- The last value that a query gives to a name. -/
def queryValue? (target name : String) : Option String :=
  ((queryPairs target).reverse.find? (·.1 == name)).map (·.2)

/-- A truth value in a query, false when it is left out. -/
def queryTruth (target name : String) : Validation.Checked Bool :=
  match queryValue? target name with
  | none => .good false
  | some s => Validation.truth (.string s)

/-- A request that finds its route uses the method of that route. -/
theorem Route.method_of_ofRequest {r : Request} {route : Route}
    (h : ofRequest r = .found route) : r.method.toUpper = route.method := by
  unfold ofRequest at h
  dsimp only at h
  split at h
  · split at h
    · simp_all
    · simp at h
  · split at h <;> simp at h

end Service

end LeadDesk
