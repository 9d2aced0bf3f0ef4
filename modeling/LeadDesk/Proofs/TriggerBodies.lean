import LeadDesk.Proofs.Entrances
import LeadDesk.Proofs.StoredEvents
/-!
# What becomes of a posted body

A body is taken in as an event, or rejected as no trigger, unless its record stumbles
(`Intake.Stumbles`): a moment of it cannot be read, or something stands where a text should, which
no other check rejects before. The failure of such a record is none of a trigger
(`Intake.event_settled_iff`). So where the store serves, the service answers every body that does
not stumble: with 400 and an unchanged store what it rejects, and with the result of its dispatch
what it takes in, if this can be written (`Service.post_settled`).
-/

namespace LeadDesk

open Validation

/-! ## Checks and what they report -/

namespace Validation.Checked

variable {α β : Type} {vs ws : List Violation}

/-- The check finds just these violations, and a good value if there are none. -/
def Reports (c : Checked α) (vs : List Violation) : Prop :=
  vs = [] ∧ (∃ a, c = .good a) ∨ vs ≠ [] ∧ c = .bad vs

theorem Reports.of_good (a : α) : Reports (.good a) [] := .inl ⟨rfl, a, rfl⟩

theorem Reports.map {c : Checked α} (h : c.Reports vs) (f : α → β) : Reports (f <$> c) vs := by
  obtain ⟨rfl, a, rfl⟩ | ⟨hvs, rfl⟩ := h
  · exact .of_good (f a)
  · exact .inr ⟨hvs, rfl⟩

/-- Both checks report what is wrong, one after the other. -/
theorem Reports.seq {f : Checked (α → β)} {c : Checked α} (hf : f.Reports vs) (hc : c.Reports ws) :
    Reports (f <*> c) (vs ++ ws) := by
  obtain ⟨rfl, g, rfl⟩ | ⟨hvs, rfl⟩ := hf
  · obtain ⟨rfl, a, rfl⟩ | ⟨hws, rfl⟩ := hc
    · exact .of_good (g a)
    · exact .inr ⟨hws, rfl⟩
  · obtain ⟨rfl, a, rfl⟩ | ⟨hws, rfl⟩ := hc
    · exact .inr ⟨by simpa using hvs, by rw [List.append_nil]; rfl⟩
    · exact .inr ⟨by simp [hvs], rfl⟩

end Validation.Checked

namespace Intake

variable {freshId : String} {now : Timestamp} {record : Fields} {failure : Failure}

/-! ## Records -/

/-- The record that a body gives: that of an insertion, or else the body itself if it has an id and
a type. -/
def record? : Json → Option Fields
  | .object body =>
    match isInsertion (Fields.getD body "type"), Fields.getD body "record" with
    | true, .object record => some record
    | _, _ =>
      if (Fields.getD body "id").isGiven &&
          ((Fields.getD body "event_type").isGiven || (Fields.getD body "type").isGiven) then
        some body
      else none
  | _ => none

theorem event_eq (body : Json) : event freshId now body =
    match record? body with
    | some record => ofRecord freshId now record
    | none => .error (.trigger .shape) := by
  cases body with
  | object body =>
    simp only [event, record?]
    cases isInsertion (Fields.getD body "type") <;> cases Fields.getD body "record" <;>
      dsimp only
    all_goals first | rfl | (split <;> rfl)
  | null | bool _ | int _ | float _ | string _ | array _ => rfl

/-- What a record has for the type of its event. -/
def typeOf (record : Fields) : Json :=
  (Fields.getD record "event_type").orElse (Fields.getD record "type")

/-- What a record has for the payload of its event. -/
def payloadOf (record : Fields) : Json := (Fields.getD record "payload").orElse .empty

/-- The moment of creation that a record gives, if it gives one. -/
def createdAt? (record : Fields) : Except Failure (Option Timestamp) :=
  if (Fields.getD record "created_at").isGiven then moment? record "created_at" else .ok none

/-! ## Texts -/

/-- What is wrong with a value where a text should stand. -/
def textComplaint (name : String) : Json → List Violation
  | .string _ => []
  | v => [⟨[.key name], .text, v⟩]

/-- What is wrong with a value where a text or nothing should stand. -/
def optionalTextComplaint (name : String) : Json → List Violation
  | .null => []
  | v => textComplaint name v

/-- What is wrong with the texts of a record. -/
def textComplaints (record : Fields) : List Violation :=
  textComplaint "type" (typeOf record) ++
    optionalTextComplaint "entity_type" (Fields.getD record "entity_type") ++
    optionalTextComplaint "entity_id" (Fields.getD record "entity_id") ++
    optionalTextComplaint "team_id" (Fields.getD record "team_id") ++
    optionalTextComplaint "source" (Fields.getD record "source")

theorem reports_text (name : String) (v : Json) :
    ((text v).under (.key name)).Reports (textComplaint name v) := by
  cases v with
  | string s => exact .of_good s
  | null | bool _ | int _ | float _ | array _ | object _ => exact .inr ⟨List.cons_ne_nil _ _, rfl⟩

theorem reports_optionalText (name : String) (v : Json) :
    ((optionalText v).under (.key name)).Reports (optionalTextComplaint name v) := by
  cases v with
  | null => exact .of_good none
  | string s => exact .of_good (some s)
  | bool _ | int _ | float _ | array _ | object _ => exact .inr ⟨List.cons_ne_nil _ _, rfl⟩

/-- Of the fields that a record gives its event, only the texts can be wrong. -/
theorem reports_check (freshId : String) (now : Timestamp) {payload : Fields}
    (hpayload : payloadOf record = .object payload) :
    (Event.check freshId now (.object (eventFields record))).Reports (textComplaints record) := by
  have hid : (defaulted (eventFields record) "id" freshId text).Reports [] := by
    unfold eventFields
    split
    · exact .of_good (Fields.getD record "id").plain
    · exact .of_good freshId
  have hprocessedAt : (defaulted (eventFields record) "processed_at" none
      (optional timestamp)).Reports [] := by
    unfold eventFields
    split <;> exact .of_good none
  have hcreatedAt : (defaulted (eventFields record) "created_at" now timestamp).Reports [] := by
    unfold eventFields
    split <;> exact .of_good now
  have hpayload : (defaulted (eventFields record) "payload" [] object).Reports [] := by
    have : Fields.get? (eventFields record) "payload" = some (.object payload) :=
      congrArg some hpayload
    simp only [defaulted, this]
    exact .of_good payload
  have htexts := (((((((((hid.map Event.mk).seq (reports_text "type" (typeOf record))).seq
    (reports_optionalText "entity_type" (Fields.getD record "entity_type"))).seq
    (reports_optionalText "entity_id" (Fields.getD record "entity_id"))).seq hpayload).seq
    (reports_optionalText "team_id" (Fields.getD record "team_id"))).seq
    (reports_optionalText "source" (Fields.getD record "source"))).seq
    (Checked.Reports.of_good (Fields.getD record "processed").isGiven)).seq hprocessedAt).seq
    hcreatedAt
  simp only [List.nil_append, List.append_nil] at htexts
  exact htexts

/-! ## Records that stumble -/

/-- A record with a type fails, and not as a trigger: by a moment that cannot be read, or by what
stands in the place of a text when moments and payload are well. -/
inductive Stumbles (record : Fields) : Failure → Prop
  | processedAt {fault : Failure} (typed : (typeOf record).isGiven = true)
      (unread : moment? record "processed_at" = .error fault) : Stumbles record fault
  | createdAt {fault : Failure} {processedAt : Option Timestamp}
      (typed : (typeOf record).isGiven = true)
      (processed : moment? record "processed_at" = .ok processedAt)
      (unread : createdAt? record = .error fault) : Stumbles record fault
  | texts {processedAt createdAt : Option Timestamp} {payload : Fields}
      (typed : (typeOf record).isGiven = true)
      (processed : moment? record "processed_at" = .ok processedAt)
      (created : createdAt? record = .ok createdAt)
      (loaded : payloadOf record = .object payload) (complained : textComplaints record ≠ []) :
      Stumbles record (.invalid ⟨"Event", textComplaints record⟩)

theorem moment?_eq_error {key : String} (h : moment? record key = .error failure) :
    ∃ fault, failure = .timestamp fault := by
  unfold moment? at h
  split at h
  · cases h
  · exact ⟨_, (Except.error.inj h).symm⟩

theorem createdAt?_eq_error (h : createdAt? record = .error failure) :
    ∃ fault, failure = .timestamp fault := by
  unfold createdAt? at h
  split at h
  · exact moment?_eq_error h
  · cases h

/-- The failure of a record that stumbles is none of a trigger. -/
theorem Stumbles.ne_trigger (h : Stumbles record failure) (fault : TriggerFault) :
    failure ≠ .trigger fault := by
  rintro rfl
  cases h with
  | processedAt _ unread => cases (moment?_eq_error unread).choose_spec
  | createdAt _ _ unread => cases (createdAt?_eq_error unread).choose_spec

/-- The checks of a record, one after the other. -/
theorem ofRecord_eq (freshId : String) (now : Timestamp) (record : Fields) :
    ofRecord freshId now record =
      if (typeOf record).isGiven then
        (moment? record "processed_at").bind fun processedAt =>
          (createdAt? record).bind fun createdAt =>
            match (payloadOf record).fields? with
            | none => .error (.trigger .payload)
            | some _ =>
              match Event.check freshId (createdAt.getD now) (.object (eventFields record)) with
              | .good e => .ok { e with processedAt := processedAt }
              | .bad violations => .error (.invalid ⟨"Event", violations⟩)
      else .error (.trigger .eventType) := by
  have htype : Fields.getD (eventFields record) "type" = typeOf record := rfl
  have hpayload : Fields.getD (eventFields record) "payload" = payloadOf record := rfl
  unfold ofRecord
  simp only [htype, hpayload]
  cases (typeOf record).isGiven with
  | false => rfl
  | true =>
    cases moment? record "processed_at" with
    | error failure => rfl
    | ok processedAt =>
      unfold createdAt?
      cases (Fields.getD record "created_at").isGiven with
      | false => cases (payloadOf record).fields? <;> rfl
      | true =>
        cases moment? record "created_at" with
        | error failure => rfl
        | ok createdAt => cases (payloadOf record).fields? <;> rfl

/-- A record fails where it stumbles. -/
theorem Stumbles.ofRecord_eq (h : Stumbles record failure) :
    ofRecord freshId now record = .error failure := by
  rw [Intake.ofRecord_eq]
  cases h with
  | processedAt typed unread => rw [if_pos typed, unread]; rfl
  | createdAt typed processed unread => rw [if_pos typed, processed, unread]; rfl
  | @texts _ createdAt _ typed processed created loaded complained =>
    obtain ⟨hnone, -⟩ | ⟨-, hbad⟩ := reports_check freshId (createdAt.getD now) loaded
    · exact absurd hnone complained
    · rw [if_pos typed, processed, created, loaded]
      simp only [Except.bind, Json.fields?, hbad]

theorem ofRecord_cases (freshId : String) (now : Timestamp) (record : Fields) :
    (∃ e, ofRecord freshId now record = .ok e) ∨
      (∃ fault, ofRecord freshId now record = .error (.trigger fault)) ∨
      ∃ failure, Stumbles record failure := by
  cases htyped : (typeOf record).isGiven with
  | false =>
    refine .inr (.inl ⟨.eventType, ?_⟩)
    rw [Intake.ofRecord_eq, htyped]
    rfl
  | true =>
    cases hprocessed : moment? record "processed_at" with
    | error failure => exact .inr (.inr ⟨failure, .processedAt htyped hprocessed⟩)
    | ok processedAt =>
      cases hcreated : createdAt? record with
      | error failure => exact .inr (.inr ⟨failure, .createdAt htyped hprocessed hcreated⟩)
      | ok createdAt =>
        cases hloaded : (payloadOf record).fields? with
        | none =>
          refine .inr (.inl ⟨.payload, ?_⟩)
          rw [Intake.ofRecord_eq, htyped, hprocessed, hcreated, hloaded]
          rfl
        | some payload =>
          have hobject : payloadOf record = .object payload := by
            cases hv : payloadOf record <;> simp_all [Json.fields?]
          obtain ⟨-, e, hgood⟩ | ⟨hcomplained, -⟩ := reports_check freshId
            (createdAt.getD now) hobject
          · refine .inl ⟨{ e with processedAt := processedAt }, ?_⟩
            rw [Intake.ofRecord_eq, htyped, hprocessed, hcreated, hloaded]
            simp only [Except.bind, hgood]
            rfl
          · exact .inr (.inr ⟨_, .texts htyped hprocessed hcreated hobject hcomplained⟩)

/-! ## Bodies -/

/-- The record that the body gives stumbles. -/
def BodyStumbles (body : Json) (failure : Failure) : Prop :=
  ∃ record, record? body = some record ∧ Stumbles record failure

theorem BodyStumbles.event_eq {body : Json} (h : BodyStumbles body failure) :
    event freshId now body = .error failure := by
  obtain ⟨record, hrecord, hstumbles⟩ := h
  rw [Intake.event_eq, hrecord]
  exact hstumbles.ofRecord_eq

theorem BodyStumbles.ne_trigger {body : Json} (h : BodyStumbles body failure)
    (fault : TriggerFault) : failure ≠ .trigger fault := by
  obtain ⟨_, _, hstumbles⟩ := h
  exact hstumbles.ne_trigger fault

/-- A body is taken in, rejected or stumbles. -/
theorem event_cases (freshId : String) (now : Timestamp) (body : Json) :
    (∃ e, event freshId now body = .ok e) ∨
      (∃ fault, event freshId now body = .error (.trigger fault)) ∨
      ∃ failure, BodyStumbles body failure := by
  rw [event_eq]
  cases hrecord : record? body with
  | none => exact .inr (.inl ⟨.shape, rfl⟩)
  | some record =>
    obtain htaken | hrejected | ⟨failure, hstumbles⟩ := ofRecord_cases freshId now record
    · exact .inl htaken
    · exact .inr (.inl hrejected)
    · exact .inr (.inr ⟨failure, record, hrecord, hstumbles⟩)

/-- Bodies that do not stumble, and no others, are taken in or rejected as no triggers. -/
theorem event_settled_iff (freshId : String) (now : Timestamp) (body : Json) :
    ((∃ e, event freshId now body = .ok e) ∨
      ∃ fault, event freshId now body = .error (.trigger fault)) ↔
        ∀ failure, ¬ BodyStumbles body failure := by
  constructor
  · rintro (⟨e, htaken⟩ | ⟨fault, hrejected⟩) failure hstumbles
    · rw [hstumbles.event_eq] at htaken
      cases htaken
    · rw [hstumbles.event_eq] at hrejected
      exact hstumbles.ne_trigger fault (Except.error.inj hrejected)
  · intro hwell
    obtain htaken | hrejected | ⟨failure, hstumbles⟩ := event_cases freshId now body
    · exact .inl htaken
    · exact .inr hrejected
    · exact absurd hstumbles (hwell failure)

end Intake

/-! ## The answer to a posted body -/

variable {o : Office} {d : Desk}

namespace Dispatch

/-- An event is accepted under its id. -/
theorem exists_accepted (hget : Action.faultOf o "get_event" = none)
    (hcreate : Action.faultOf o "create_event" = none) (e : Event) (d : Desk) :
    ∃ stored m, (accept e).run o d = (.done stored, m) ∧ stored.id = e.id := by
  unfold accept
  rw [Action.run_bind_of_done (Archive.run_getEvent hget)]
  cases hfound : d.store.event? e.id with
  | some stored => exact ⟨stored, d, rfl, by simpa using List.find?_some hfound⟩
  | none => exact ⟨_, _, Archive.run_createEvent hcreate hfound, rfl⟩

/-- Where the store serves, every event is handled, whether it is processed or not. -/
theorem exists_result_of_serves (hlimits : o.deadlines = []) (ho : o.Serves) (e : Event)
    (d : Desk) : ∃ result after, (handle e).run o d = (.done result, after) ∧
      result.eventId = some e.id := by
  cases hopen : e.processed with
  | false => exact exists_result hlimits ho hopen d
  | true => exact ⟨_, d, run_event_of_processed (emitterFor o.settings) hopen o d, rfl⟩

end Dispatch

namespace Service

variable {body : Body}

/-- Text that is read as what it is gives data, or is found to hold none. -/
theorem bodyData_ne_unreadable (hregular : body.IsRegular) :
    bodyData body ≠ .error .unreadable := by
  unfold bodyData
  split
  · nofun
  · nofun
  · nofun
  · rw [if_pos hregular]
    split <;> nofun

/-- A body without data is refused, and no id is drawn for it. -/
theorem run_processEvent_of_noData (hregular : body.IsRegular)
    (hbody : ∀ v, bodyData body ≠ .ok (some v)) :
    (processEvent body).run o d = (.done (.noTrigger TriggerFault.shape.message), d) := by
  unfold processEvent
  cases hdata : bodyData body with
  | error failure =>
    cases failure with
    | unreadable => exact absurd hdata (bodyData_ne_unreadable hregular)
    | _ => rfl
  | ok data =>
    cases data with
    | none => rfl
    | some v => exact absurd hdata (hbody v)

/-- The service fails on a body that stumbles. -/
theorem run_processEvent_of_stumbles {v : Json} {failure : Failure}
    (hbody : bodyData body = .ok (some v)) (hstumbles : Intake.BodyStumbles v failure) :
    (processEvent body).run o d = (.failed failure, d.next) := by
  unfold processEvent
  simp only [hbody]
  rw [Action.run_newId_now]
  simp only [hstumbles.event_eq]
  cases failure with
  | trigger fault => exact absurd rfl (hstumbles.ne_trigger fault)
  | _ => rfl

/-- An event that is taken in is answered with its result, if this can be written. -/
theorem exists_answer (hlimits : o.deadlines = []) (ho : o.Serves)
    (hget : Action.faultOf o "get_event" = none) (hcreate : Action.faultOf o "create_event" = none)
    {v : Json} {e : Event} (hbody : bodyData body = .ok (some v))
    (hintake : Intake.event (freshId d.nextId) d.time v = .ok e) :
    ∃ result after, result.eventId = some e.id ∧
      (processEvent body).run o d = (answerOf (.done result), after) := by
  obtain ⟨stored, m, haccept, hid⟩ := Dispatch.exists_accepted hget hcreate e d.next
  obtain ⟨result, after, hhandle, hevent⟩ := Dispatch.exists_result_of_serves hlimits ho stored m
  have hdispatch : (Dispatch.accept e >>= Dispatch.handle).run o d.next = (.done result, after) :=
    (Action.run_bind_of_done haccept).trans hhandle
  refine ⟨result, after, hevent.trans (congrArg some hid), ?_⟩
  rw [run_processEvent_of_event hbody hintake, Action.run_bind_of_done hdispatch]
  simp only [answerData, answerOf]
  split <;> rfl

/-- **Posted bodies.** A body is taken in or rejected as no trigger exactly when its record does not
stumble. Where the store serves and the text of a body is read as what it is, a body without data or
one that is rejected is answered with 400 and leaves the store as it is; one that is taken in is
answered with 200 and the result for its event, if the result is finite, and fails to be written
otherwise; and one that stumbles fails with what it stumbles over and leaves the store as it is. -/
theorem post_settled {r : Request} (hroute : Route.ofRequest r = .found .processEvent)
    (hregular : r.body.IsRegular) (hlimits : o.deadlines = []) (ho : o.Serves)
    (hget : Action.faultOf o "get_event" = none)
    (hcreate : Action.faultOf o "create_event" = none) :
    let posted := (answer true r).run o d
    let taken := Intake.event (freshId d.nextId) d.time
    (∀ freshId now v, ((∃ e, Intake.event freshId now v = .ok e) ∨
        ∃ fault, Intake.event freshId now v = .error (.trigger fault)) ↔
          ∀ failure, ¬ Intake.BodyStumbles v failure) ∧
      ((∀ v, bodyData r.body ≠ .ok (some v)) →
        posted = (.done ⟨400, .object [("error", .string TriggerFault.shape.message)]⟩, d)) ∧
      ∀ v, bodyData r.body = .ok (some v) →
        (∀ fault, taken v = .error (.trigger fault) →
          posted = (.done ⟨400, .object [("error", .string fault.message)]⟩, d.next)) ∧
        (∀ e, taken v = .ok e → ∃ (result : DispatchResult) (after : Desk),
          result.eventId = some e.id ∧ posted =
            (if result.toJson.isFinite then .done ⟨200, result.toJson⟩ else .failed .notJson,
              after)) ∧
        ∀ failure, Intake.BodyStumbles v failure → posted = (.failed failure, d.next) := by
  intro posted taken
  have hposted : posted = (processEvent r.body).run o d := by
    simp only [posted, answer, hroute]
    rfl
  rw [hposted]
  refine ⟨Intake.event_settled_iff, run_processEvent_of_noData hregular, fun v hbody =>
    ⟨fun fault => run_processEvent_refused hbody,
      fun e => exists_answer hlimits ho hget hcreate hbody,
      fun failure => run_processEvent_of_stumbles hbody⟩⟩

/-- A body without a type is rejected with 400; one whose moment of creation is no moment makes the
service fail. -/
theorem post_settled_unread :
    let untyped : Json := .object [("id", .string "e1")]
    let unread : Json :=
      .object [("id", .string "e1"), ("type", .string "a"), ("created_at", .string "nope")]
    (answer true ⟨"POST", "/process-event", .data untyped⟩).run {} {} =
        (.done ⟨400, .object [("error", .string "Invalid payload format")]⟩, ({} : Desk).next) ∧
      ∃ fault, (answer true ⟨"POST", "/process-event", .data unread⟩).run {} {} =
        (.failed (.timestamp fault), ({} : Desk).next) := by
  intro untyped unread
  have hserves : ({} : Office).Serves := ⟨rfl, rfl, rfl, rfl⟩
  have hstumbles : ∃ fault, Intake.BodyStumbles unread (.timestamp fault) := by
    obtain ⟨fault, hfault⟩ : ∃ fault,
        Intake.createdAt? [("id", .string "e1"), ("type", .string "a"),
          ("created_at", .string "nope")] = .error (.timestamp fault) := ⟨_, rfl⟩
    exact ⟨fault, _, rfl, .createdAt rfl rfl hfault⟩
  have hroute : Route.ofRequest ⟨"POST", "/process-event", .empty⟩ = .found .processEvent := by
    decide +kernel
  have hsettled (v : Json) :=
    post_settled (o := {}) (d := {}) (r := ⟨"POST", "/process-event", .data v⟩) hroute trivial rfl
      hserves rfl rfl
  obtain ⟨fault, hfault⟩ := hstumbles
  exact ⟨((hsettled untyped).2.2 untyped rfl).1 .shape rfl, fault,
    ((hsettled unread).2.2 unread rfl).2.2 _ hfault⟩

end Service

end LeadDesk
