import LeadDesk.Proofs.Impartial
import LeadDesk.Proofs.Moments
import LeadDesk.Proofs.Polling
import LeadDesk.Service.Answer
import LeadDesk.Terminal.Execution
/-!
# The two entrances to a dispatch

A stored event is handled on a word of the command line, by its id, or on a request to the service,
by its record. The record of an event is taken in as that very event (`Intake.event_toJson`), so
both entrances come to the same dispatch by id (`Service.run_processEvent`,
`Terminal.run_carryOut_dispatch`). What is left between them is the team: the service calls
providers in the name of that of the settings, the command line in the name of none. Where this
makes no difference to any credentials, the entrances are alike (`Dispatch.entrances_alike`).
-/

namespace LeadDesk

open LeadDesk.Action

variable {o : Office} {d : Desk} {e : Event}

/-! ## Taking an event in by its record -/

/-- Every moment of the event is one of the calendar in universal time, as the store keeps it. -/
def Event.IsDated (e : Event) : Prop :=
  ∀ t ∈ e.createdAt :: e.processedAt.toList, t.InCalendar ∧ t.offset = some 0

/-- The store keeps events so. -/
theorem Store.isDated_storedEvent (h : e.createdAt.InCalendar) : (storedEvent e).IsDated := by
  intro t ht
  obtain rfl : t = e.createdAt.atUniversal := by simpa [storedEvent] using ht
  exact ⟨h, rfl⟩

namespace Timestamp

theorem text_ne_empty (t : Timestamp) : t.text ≠ "" := by
  intro h
  have hlist : t.text.toList = [] := by rw [h]; rfl
  simp [text] at hlist

/-- The data value of a moment that may be missing is read back. -/
theorem ofJson?_toJson? {moment : Option Timestamp}
    (h : ∀ t ∈ moment, t.InCalendar ∧ t.offset = some 0) :
    ofJson? (toJson? moment) = .ok moment := by
  cases moment with
  | none => rfl
  | some t => exact ofJson?_text (h t rfl).1 (h t rfl).2

end Timestamp

theorem Json.orElse_object (fields : Fields) :
    (Json.object fields).orElse .empty = .object fields := by
  cases fields <;> rfl

namespace Event

/-- The fields of an event that its record gives. -/
def given (e : Event) : Fields := [
  ("type", .string e.type),
  ("entity_type", Json.ofText? e.entityType),
  ("entity_id", Json.ofText? e.entityId),
  ("payload", .object e.payload),
  ("team_id", Json.ofText? e.teamId),
  ("source", Json.ofText? e.source),
  ("processed", .bool e.processed),
  ("id", .string e.id)]

/-- They make the event, but for its moments. -/
theorem check_given (freshId : String) (now : Timestamp) :
    check freshId now (.object e.given) =
      .good { e with processedAt := none, createdAt := now } := by
  obtain ⟨_, _, entityType, entityId, _, teamId, source, _, _, _⟩ := e
  cases entityType <;> cases entityId <;> cases teamId <;> cases source <;> rfl

end Event

namespace Intake

variable {freshId : String} {now : Timestamp} {record : Fields}

theorem eventFields_toJson (hid : e.id ≠ "") (h : e.toJson = .object record) :
    eventFields record = e.given := by
  have hid : (Json.string e.id).isGiven = true := by simp [Json.isGiven, hid]
  have hnull : ∀ v, Json.null.orElse v = v := fun _ => rfl
  have hbool : ∀ b, (Json.bool b).isGiven = b := fun _ => rfl
  cases h
  simp [eventFields, Fields.getD, Fields.get?, hid, hnull, hbool, Json.orElse_object, Event.given,
    Json.plain]

/-- The moments of an event are read back from its record. -/
theorem moment?_toJson (hdated : e.IsDated) (h : e.toJson = .object record) :
    moment? record "created_at" = .ok (some e.createdAt) ∧
      moment? record "processed_at" = .ok e.processedAt := by
  obtain ⟨hcreated, hprocessed⟩ := List.forall_mem_cons.1 hdated
  have hcreated := Timestamp.ofJson?_text hcreated.1 hcreated.2
  have hprocessed : Timestamp.ofJson? (Timestamp.toJson? e.processedAt) = .ok e.processedAt :=
    Timestamp.ofJson?_toJson? (by simpa using hprocessed)
  cases h
  simp [moment?, Fields.getD, Fields.get?, hcreated, hprocessed]

theorem ofRecord_toJson (hid : e.id ≠ "") (htype : e.type ≠ "") (hdated : e.IsDated)
    (h : e.toJson = .object record) : ofRecord freshId now record = .ok e := by
  have hfields := eventFields_toJson hid h
  obtain ⟨hcreated, hprocessed⟩ := moment?_toJson hdated h
  have hgiven : (Fields.getD record "created_at").isGiven = true := by
    cases h
    simp [Fields.getD, Fields.get?, Json.isGiven, e.createdAt.text_ne_empty]
  have htyped : (Fields.getD e.given "type").isGiven = true := by
    simp [Event.given, Fields.getD, Fields.get?, Json.isGiven, htype]
  have hpayload : (Fields.getD e.given "payload").fields?.isNone = false := rfl
  unfold ofRecord
  simp only [hfields, htyped, hprocessed, hgiven, hcreated, hpayload, Event.check_given]
  rfl

/-- The record of an event with an id and a type is taken in as that event. -/
theorem event_toJson (hid : e.id ≠ "") (htype : e.type ≠ "") (hdated : e.IsDated) :
    event freshId now e.toJson = .ok e := by
  obtain ⟨record, hrecord⟩ : ∃ record, e.toJson = .object record := ⟨_, rfl⟩
  -- without a record under `record`, even an event of the type `INSERT` is no insertion
  have hlookups : Fields.getD record "record" = .null ∧ (Fields.getD record "id").isGiven = true ∧
      (Fields.getD record "type").isGiven = true := by
    cases hrecord
    simp [Fields.getD, Fields.get?, Json.isGiven, hid, htype]
  rw [hrecord]
  simp [event, hlookups, ofRecord_toJson hid htype hdated hrecord]

/-- The record of an event without an id or without a type is no trigger. -/
theorem event_toJson_of_empty (h : e.id = "" ∨ e.type = "") :
    event freshId now e.toJson = .error (.trigger .shape) := by
  obtain ⟨record, hrecord⟩ : ∃ record, e.toJson = .object record := ⟨_, rfl⟩
  have hnone : Fields.getD record "record" = .null ∧ Fields.getD record "event_type" = .null := by
    cases hrecord
    exact ⟨rfl, rfl⟩
  have hgiven : ((Fields.getD record "id").isGiven && (Fields.getD record "type").isGiven) =
      false := by
    cases hrecord
    rcases h with h | h <;> simp [Fields.getD, Fields.get?, Json.isGiven, h]
  have hnull : Json.null.isGiven = false := rfl
  rw [hrecord]
  simp [event, hnone, hnull, hgiven]

end Intake

/-! ## The service -/

namespace Service

/-- The answer to an event, by how its dispatch ended. -/
def answerOf : Ending DispatchResult → Ending Answer
  | .done r => if r.toJson.isFinite then .done (.ok r.toJson) else .failed .notJson
  | .failed failure => .failed failure
  | .cut level => .cut level

/-- An event is accepted, handled and told of. -/
theorem run_processEvent_of_event {body : Body} {v : Json} {posted : Event}
    (hbody : bodyData body = .ok (some v))
    (hintake : Intake.event (freshId d.nextId) d.time v = .ok posted) :
    (processEvent body).run o d =
      ((Dispatch.accept posted >>= Dispatch.handle) >>= fun r => answerData r.toJson).run o
        d.next := by
  unfold processEvent
  simp only [hbody]
  rw [run_newId_now]
  simp only [hintake, run_bind]
  rcases (Dispatch.accept posted).run o d.next with ⟨stored | failure | level, m⟩ <;> rfl

/-- An event that is stored already is handled by its id. -/
theorem run_processEvent {body : Body} {v : Json} {posted : Event}
    (hbody : bodyData body = .ok (some v))
    (hintake : Intake.event (freshId d.nextId) d.time v = .ok posted)
    (hstored : d.store.event? posted.id = some e) :
    (processEvent body).run o d =
      (answerOf ((Dispatch.byId posted.id).run o d.next).1,
        ((Dispatch.byId posted.id).run o d.next).2) := by
  have haccept : (Dispatch.accept posted >>= Dispatch.handle).run o d.next =
      (Dispatch.byId posted.id).run o d.next := by
    have hstored : d.next.store.event? posted.id = some e := hstored
    simp only [Dispatch.accept, Dispatch.byId, Archive.getEvent, run_bind, query, hstored]
    cases faultOf o "get_event" <;> rfl
  rw [run_processEvent_of_event hbody hintake, run_bind, haccept]
  rcases (Dispatch.byId posted.id).run o d.next with ⟨r | failure | level, m⟩
  · simp only [answerOf, answerData]
    split <;> rfl
  · rfl
  · rfl

/-- A body that is no trigger is refused. -/
theorem run_processEvent_refused {body : Body} {v : Json} {fault : TriggerFault}
    (hbody : bodyData body = .ok (some v))
    (hintake : Intake.event (freshId d.nextId) d.time v =
      .error (.trigger fault)) :
    (processEvent body).run o d = (.done (.noTrigger fault.message), d.next) := by
  unfold processEvent
  simp only [hbody]
  rw [run_newId_now]
  simp only [hintake, run_pure]

end Service

/-! ## The command line -/

namespace Terminal

/-- The screen of an event, by how its dispatch ended. -/
def screenOf : Ending DispatchResult → Ending Screen
  | .done r => .done (showAll 0 [dispatchPart r])
  | .failed (.noEvent id) => .done (showAll 1 [.line (styled "red" (Failure.noEvent id).message)])
  | .failed _ => .done { exit := 1 }
  | .cut level => .cut level

theorem run_carryOut_dispatch {files : Files} {words : List String} {id : String}
    (h : Command.parse words = some (.dispatch id)) :
    (carryOut files words).run o d =
      (screenOf ((Dispatch.byId id).run o d).1, ((Dispatch.byId id).run o d).2) := by
  simp only [carryOut, h, Command.carryOut, dispatchEvent, run_bind, run_attempt]
  rcases (Dispatch.byId id).run o d with ⟨r | failure | level, m⟩
  · rfl
  · cases failure <;> rfl
  · rfl

end Terminal

/-! ## Credentials of all teams -/

/-- Credentials that all teams share are found in the name of each. -/
theorem Store.credentials?_of_shared {s : Store}
    (h : ∀ row ∈ s.integrations, Row.value row "team_id" = .null) (name : String)
    (team other : Option String) : s.credentials? name team = s.credentials? name other := by
  have hconcerns : ∀ team : Option String, ∀ row ∈ s.integrations, concerns team row = true := by
    intro team row hrow
    simp [concerns, h row hrow]
  have hrows : s.integrations.filter (fun row => named "name" name row &&
      (Row.value row "is_enabled").isGiven && concerns team row) =
      s.integrations.filter fun row => named "name" name row &&
        (Row.value row "is_enabled").isGiven && concerns other row := by
    refine List.filter_congr fun row hrow => ?_
    rw [hconcerns team row hrow, hconcerns other row hrow]
  simp only [credentials?, hrows]

/-- So where no team has credentials of its own, it makes no difference whose name is used. -/
theorem Office.sameCredentials_of_shared
    (h : ∀ row ∈ d.store.integrations, Row.value row "team_id" = .null) (team : Option String) :
    o.SameCredentials team d := by
  intro p
  have hstored := Store.credentials?_of_shared h p.integration team o.providerTeam
  have hlookup : (Archive.credentials p.integration team).run (o.inNameOf team) d =
      (((Archive.credentials p.integration o.providerTeam).run o d).1, d) := by
    rw [← Archive.run_credentials_of_eq (d := d) p.integration o.providerTeam o.deadlines rfl]
    simp only [Archive.credentials, query, hstored]
    rfl
  have hrun := Enrichment.run_credentials_congr (o := o) (n := o.inNameOf team) p rfl rfl hlookup
  rw [hrun]

/-- A key that a team has of its own is found in its name and in the name of no team is not. -/
example :
    let key : Row := [("name", .string "hunter"), ("is_enabled", .bool true),
      ("credentials", .object [("api_key", .string "k1")]), ("team_id", .string "t1")]
    let d : Desk := { store := { integrations := [key] } }
    let found (team : Option String) :=
      ((Enrichment.credentials .findEmail).run (Office.inNameOf {} team) d).1
    (found (some "t1"), found none) =
      (.done (some [("api_key", .string "k1")]), .done none) := by rfl

/-! ## The two entrances -/

/-- Where the store serves, a stored event that is not processed is handled by its id. -/
theorem Dispatch.exists_result_byId (hlimits : o.deadlines = []) (ho : o.Serves)
    (hget : faultOf o "get_event" = none) (hstored : d.store.event? e.id = some e)
    (hopen : e.processed = false) :
    ∃ result after, (byId e.id).run o d = (.done result, after) ∧ result.eventId = some e.id := by
  have hfound : (Archive.getEvent e.id).run o d = (.done (some e), d) := by
    simp only [Archive.getEvent, query, hget, hstored]
  obtain ⟨result, after, hrun, hevent⟩ := exists_result hlimits ho hopen d
  exact ⟨result, after, (run_bind_of_done hfound).trans hrun, hevent⟩

/-- A stored event, posted to the service and named on the command line. The service draws one id
and one moment for the request, so its dispatch starts from the desk after that. If every provider
has the same credentials for the team of the settings as for no team, and the event has an id and a
type, then the service's answer and the screen both tell of one and the same dispatch, which leaves
one and the same desk; where the store serves, that dispatch returns the result for the event. An
event without an id or without a type is refused by the service. -/
theorem Dispatch.entrances_alike (o : Office) (d : Desk) (e : Event) (r : Service.Request)
    (files : Terminal.Files) (words : List String)
    (hstored : d.store.event? e.id = some e) (hopen : e.processed = false) (hdated : e.IsDated)
    (hroute : Service.Route.ofRequest r = .found .processEvent)
    (hbody : Service.bodyData r.body = .ok (some e.toJson))
    (hwords : Terminal.Command.parse words = some (.dispatch e.id))
    (hsame : (Terminal.surroundings o).SameCredentials o.settings.team d) :
    let posted := (Service.answer true r).run (Service.surroundings o) d
    let named := (Terminal.carryOut files words).run (Terminal.surroundings o) d.next
    let dispatched := (Dispatch.byId e.id).run (Terminal.surroundings o) d.next
    (e.id ≠ "" → e.type ≠ "" →
      posted = (Service.answerOf dispatched.1, dispatched.2) ∧
      named = (Terminal.screenOf dispatched.1, dispatched.2) ∧
      (o.deadlines = [] → o.Serves → faultOf o "get_event" = none →
        ∃ result, dispatched.1 = .done result ∧ result.eventId = some e.id)) ∧
    (e.id = "" ∨ e.type = "" →
      posted = (.done (.noTrigger TriggerFault.shape.message), d.next)) := by
  intro posted named dispatched
  have hposted : posted = (Service.processEvent r.body).run (Service.surroundings o) d := by
    simp only [posted, Service.answer, hroute]
    rfl
  refine ⟨fun hid htype => ⟨?_, Terminal.run_carryOut_dispatch hwords, fun hlimits ho hget => ?_⟩,
    fun hempty => ?_⟩
  · -- the service has the surroundings of the command line, in the name of the team of the settings
    have hteams : (Dispatch.byId e.id).run (Service.surroundings o) d.next = dispatched :=
      (Dispatch.impartial_byId e.id).same (Terminal.surroundings o) d.next o.settings.team
        (hsame.of_eq _ rfl)
    rw [hposted, ← hteams]
    exact Service.run_processEvent hbody (Intake.event_toJson hid htype hdated) hstored
  · have hserves : (Terminal.surroundings o).Serves := ⟨ho.finds, ho.opens, ho.closes, ho.marks⟩
    obtain ⟨result, after, hrun, hevent⟩ := exists_result_byId (o := Terminal.surroundings o)
      (d := d.next) hlimits hserves hget hstored hopen
    exact ⟨result, congrArg Prod.fst hrun, hevent⟩
  · rw [hposted]
    exact Service.run_processEvent_refused hbody (Intake.event_toJson_of_empty hempty)

/-- A desk of the team `t1` whose one key for Hunter is kept for all teams. -/
theorem Dispatch.entrances_alike_shared :
    let key : Row := [("name", .string "hunter"), ("is_enabled", .bool true),
      ("credentials", .object [("api_key", .string "k1")]), ("team_id", .null)]
    let e : Event := { (default : Event) with
      id := "event", type := "lead", createdAt := Timestamp.utc 7 }
    let d : Desk := { store := { events := [e], integrations := [key] }, clock := 10 }
    let o : Office := { settings := { team := some "t1" } }
    ∃ result after,
      (Service.answer true ⟨"POST", "/process-event", .data e.toJson⟩).run
        (Service.surroundings o) d = (Service.answerOf (.done result), after) ∧
      (Terminal.carryOut [] ["dispatch", "event"]).run (Terminal.surroundings o) d.next =
        (Terminal.screenOf (.done result), after) ∧
      result.eventId = some "event" := by
  intro key e d o
  have hdated : e.IsDated := Store.isDated_storedEvent (e := e) ⟨by decide, by decide⟩
  have hshared : (Terminal.surroundings o).SameCredentials o.settings.team d :=
    Office.sameCredentials_of_shared (fun row hrow => by rw [List.mem_singleton.1 hrow]; rfl) _
  obtain ⟨hposted, hnamed, hreturns⟩ := (Dispatch.entrances_alike o d e
    ⟨"POST", "/process-event", .data e.toJson⟩ [] ["dispatch", "event"] (by rfl) rfl hdated
    (by decide +kernel) rfl (by decide) hshared).1 (by decide) (by decide)
  obtain ⟨result, hresult, hevent⟩ := hreturns rfl ⟨rfl, rfl, rfl, rfl⟩ rfl
  rw [hresult] at hposted hnamed
  exact ⟨result, _, hposted, hnamed, hevent⟩

end LeadDesk
