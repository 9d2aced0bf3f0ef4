import LeadDesk.Condition.Basic
import LeadDesk.Json.Reader
import LeadDesk.Time.Reader
import LeadDesk.Validation.Basic
/-!
# Failures

Why an action of the desk does not come to its result. A failure has a kind, a word that
answers name it by, and a message, which may be empty. `Failure.text` is what records of
runs keep: the message, or the kind where there is none.
-/

namespace LeadDesk

/-- What is wrong with the body of a trigger. -/
inductive TriggerFault where
  | shape
  | eventType
  | payload
  deriving DecidableEq, Repr

/-- The wording of a fault in a trigger. -/
def TriggerFault.message : TriggerFault → String
  | shape => "Invalid payload format"
  | eventType => "Invalid payload format: missing event_type"
  | payload => "Invalid payload format: payload must be an object"

/-- What kind of trouble comes from outside: a wait that took too long, a connection that broke,
some other trouble of the web, or anything else. -/
inductive Trouble where
  | timeout
  | transport
  | web
  | other
  deriving DecidableEq, Repr

/-- Why an action fails. -/
inductive Failure where
  | condition (fault : Condition.Fault)
  | number (fault : NumberFault)
  | timestamp (fault : TimestampFault)
  | json (fault : Json.ReadFault)
  /-- A record does not have its shape. -/
  | invalid (report : Validation.Report)
  /-- A document of workflows cannot be used. -/
  | catalog (message : String) (violations : List String)
  | trigger (fault : TriggerFault)
  | noEvent (id : String)
  | noWorkflow (slug : String)
  /-- A contact that is asked for by an id or a name is not there. -/
  | noContact (wanted : String)
  /-- Neither an id nor a name of a contact is given. -/
  | noContactWanted
  /-- An update of a contact names fields that contacts do not have. -/
  | unknownContactFields (names : List String)
  /-- An update of a run names fields that may not change. -/
  | fixedRunFields (names : List String)
  /-- The parameters of a function cannot stand in this order. -/
  | signature (message : String)
  | tool (message name : String)
  | toolTimeout (message name : String)
  /-- A provider has no credentials. -/
  | unavailable (integration : String)
  | model (message : String)
  /-- A record with this key is already stored. -/
  | duplicateKey
  /-- A value that no column of its kind can hold. -/
  | unstorable
  | noFile (path : String)
  | option (message : String)
  /-- A value of some kind is asked for a member that its kind does not have. -/
  | lacks (kind member : String)
  /-- A value of the wrong kind. -/
  | wrongKind (message : String)
  | noKey (key : String)
  /-- An object is asked for what stands at a position. -/
  | noPosition (position : Nat)
  | noIndex
  /-- An infinite or undefined number is asked for its integer. -/
  | noInteger (infinite : Bool)
  /-- An integer is beyond the floating-point numbers. -/
  | noDouble
  /-- An integer does not fit into the store. -/
  | tooLarge
  /-- A number cannot be written as JSON text. -/
  | notJson
  /-- A text with these characters, from a position on, cannot stand in a header. -/
  | unsendable (start : Nat) (found : List Char)
  /-- A text with escapes that stand for no characters. -/
  | unreadable
  | outside (trouble : Trouble) (name : String) (message : Option String)
  deriving Repr

namespace Failure

/-- The word that names a failure in answers. -/
def kind : Failure → String
  | condition fault =>
    match fault with
    | .tooLarge => "OverflowError"
    | .number _ => "ValueError"
    | _ => "ExpressionError"
  | number _ | timestamp _ | noContact _ | noContactWanted | unknownContactFields _
  | fixedRunFields _ | signature _ | notJson => "ValueError"
  | json fault =>
    match fault with
    | .problem .. => "JSONDecodeError"
    | .number _ => "ValueError"
  | invalid _ => "ValidationError"
  | catalog .. => "WorkflowValidationError"
  | trigger _ => "InvalidTriggerPayload"
  | noEvent _ => "EventNotFound"
  | noWorkflow _ => "WorkflowNotFound"
  | tool .. => "ToolError"
  | toolTimeout .. => "ToolTimeout"
  | unavailable _ => "CapabilityUnavailable"
  | model _ => "LLMError"
  | duplicateKey | unstorable => "DatabaseError"
  | noFile _ => "FileNotFoundError"
  | option _ => "BadParameter"
  | lacks .. => "AttributeError"
  | wrongKind _ => "TypeError"
  | noKey _ | noPosition _ => "KeyError"
  | noIndex => "IndexError"
  | noInteger infinite => if infinite then "OverflowError" else "ValueError"
  | noDouble | tooLarge => "OverflowError"
  | unsendable .. | unreadable => "UnicodeEncodeError"
  | outside _ name _ => name

/-- Names as messages list them. -/
def listNames (names : List String) : String := (Json.ofTexts names).display

/-- The message for characters that a header cannot hold: one by its number, more by their
positions. -/
def unsendableMessage (start : Nat) (found : List Char) : String :=
  let which :=
    match found with
    | [c] => s!"character '{String.ofList (Text.numbered c)}' in position {start}"
    | cs => s!"characters in position {start}-{start + cs.length - 1}"
  s!"'ascii' codec can't encode {which}: ordinal not in range(128)"

/-- The message of a failure. -/
def message : Failure → String
  | condition fault => fault.message
  | number fault => fault.message
  | timestamp fault => fault.message
  | json fault => fault.message
  | invalid report => report.message
  | catalog message _ => message
  | trigger fault => fault.message
  | noEvent id => s!"Event not found: {id}"
  | noWorkflow slug => s!"Workflow not found: {slug}"
  | noContact wanted => s!"Contact not found: {wanted}"
  | noContactWanted => "Must provide contact_id or contact_name"
  | unknownContactFields names => s!"Unknown contact field(s): {listNames names}"
  | fixedRunFields names => s!"Cannot update run field(s): {listNames names}"
  | signature message => message
  | tool message _ => message
  | toolTimeout message _ => message
  | unavailable integration => s!"No active {integration} integration found"
  | model message => message
  | duplicateKey => "a record with this key is already stored"
  | unstorable => "a value does not suit its column"
  | noFile path => s!"Workflow file not found: {path}"
  | option message => message
  | lacks kind member => s!"'{kind}' object has no attribute '{member}'"
  | wrongKind message => message
  | noKey key => Text.quoted key
  | noPosition position => toString position
  | noIndex => "list index out of range"
  | noInteger infinite =>
    if infinite then "cannot convert float infinity to integer"
    else "cannot convert float NaN to integer"
  | noDouble => "int too large to convert to float"
  | tooLarge => "Python int too large to convert to SQLite INTEGER"
  | notJson => "Out of range float values are not JSON compliant"
  | unsendable start found => unsendableMessage start found
  | unreadable => "a text has characters that cannot be written"
  | outside _ name message =>
    match message with
    | none => ""
    | some m => if name == "KeyError" then Text.quoted m else m

/-- The message, or the kind of a failure that has none. -/
def text (f : Failure) : String := if f.message == "" then f.kind else f.message

/-- The failure is one of the desk itself, which names its own kind. -/
def IsOwn : Failure → Prop
  | outside .. => False
  | _ => True

/-- The failure may pass when the action is tried again. -/
def isTransient : Failure → Bool
  | toolTimeout .. | outside .timeout .. | outside .transport .. => true
  | _ => false

/-- A failure that says nothing is recorded by its kind, so no record is empty. -/
theorem text_ne_empty (f : Failure) (h : f.kind ≠ "") : f.text ≠ "" := by
  unfold text
  split
  · exact h
  · simp_all

end Failure

end LeadDesk
