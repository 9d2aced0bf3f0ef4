import LeadDesk.Proofs.Contacts
import LeadDesk.Proofs.Placeholders
/-!
# What calls come to

Prompts and calls of tools ask their run neither for an event nor for a stop
(`StepResult.Inert`); a request for an event asks for one of the type that its input names. What a
built-in tool is given is what the template of its input fills in, field by field
(`Template.get?_resolveFields`).
-/

namespace LeadDesk

open LeadDesk.Action (Yields)

/-! ## Results that ask for nothing -/

/-- The result asks neither for an event nor for a stop. -/
structure StepResult.Inert (r : StepResult) : Prop where
  emit : r.emit = none
  stop : r.stop = false

namespace StepResult

theorem inert_fail (error : String) (input : Option Json) : (fail error input).Inert := ⟨rfl, rfl⟩

section

variable {name : Json} {failure : Failure} {input : Option Json} {r : StepResult}

theorem inert_of_ofFailure (h : ofFailure name failure input = .ok r) : r.Inert := by
  unfold ofFailure at h
  split at h
  · exact Except.ok.inj h ▸ inert_fail _ _
  · cases h

theorem success_of_ofFailure (h : ofFailure name failure input = .ok r) : r.success = false := by
  unfold ofFailure at h
  split at h
  · exact Except.ok.inj h ▸ rfl
  · cases h

end

end StepResult

open StepResult (Inert)

namespace PromptStep

theorem inert_of_resultOf {config : Fields} {input : Json} {answer : ModelAnswer} {r : StepResult}
    (h : resultOf config input answer = .ok r) : r.Inert := by
  obtain ⟨model, ⟨output, rfl⟩ | ⟨message, rfl⟩⟩ := resultOf_cases h
  · exact ⟨rfl, rfl⟩
  · exact ⟨rfl, rfl⟩

theorem inert_run (config : Fields) (context : Json) : (run config context).Yields Inert := by
  dsimp only [run]
  split
  · exact .fail _
  · refine .bind fun settings => .bind fun result => ?_
    split
    · exact .ofExcept fun _ h => inert_of_resultOf h
    · exact .pure ⟨rfl, rfl⟩
    · exact .fail _

end PromptStep

namespace ToolStep

/-- What is not a request for an event is a call of a provider or a tool. -/
theorem inert_call {name : Json} (h : name.same (.string emissionName) = false)
    (input : Option Json) : (call name input).Yields Inert := by
  unfold call
  rw [if_neg (by simp [h])]
  refine .bind fun provider => ?_
  split <;> exact .bind fun _ => .pure ⟨rfl, rfl⟩

theorem inert_run {config : Fields} (h : (toolName config).same (.string emissionName) = false)
    (context : Json) : (run config context).Yields Inert := by
  intro o d r hrun
  obtain ⟨input, called, result, _, hcalled, hresult, rfl⟩ := run_eq_done (Prod.ext hrun rfl)
  have hinert : result.Inert := by
    cases called with
    | ok own =>
      obtain rfl := Except.ok.inj hresult
      exact inert_call h input o d own (by rw [Action.run_attempt_eq_ok.1 hcalled])
    | error failure => exact StepResult.inert_of_ofFailure hresult
  exact ⟨by simpa using hinert.emit, by simpa using hinert.stop⟩

/-- A call that has succeeded has a result of its own. -/
theorem exists_called {config : Fields} {context : Json} {o : Office} {d e : Desk} {r : StepResult}
    (h : (run config context).run o d = (.done r, e)) (hsuccess : r.success = true) :
    ∃ input called, Template.resolveData context (mapping config) = .ok input ∧
      (call (toolName config) input).run o d = (.done called, e) ∧
      r = settled called (toolName config) input e.added := by
  obtain ⟨input, called, result, hinput, hcalled, hresult, rfl⟩ := run_eq_done h
  cases called with
  | ok own =>
    obtain rfl := Except.ok.inj hresult
    exact ⟨input, own, hinput, Action.run_attempt_eq_ok.1 hcalled, rfl⟩
  | error failure =>
    rw [success_settled, StepResult.success_of_ofFailure hresult] at hsuccess
    cases hsuccess

end ToolStep

/-- The step is a prompt or a call, and not a request for an event. -/
def WorkflowStep.Asks (s : WorkflowStep) : Prop :=
  s.action = .prompt ∨
    s.action = .toolCall ∧ (ToolStep.toolName s.config).same (.string ToolStep.emissionName) = false

/-- Such a step asks its run for nothing, whether it is carried out or not. -/
theorem WorkflowStep.inert_of_resultOf {s : WorkflowStep} (hs : s.Asks) {context : Fields}
    {o : Office} {d e : Desk} {r : StepResult}
    (h : (Course.resultOf s context).run o d = (.done (some r), e)) : r.Inert := by
  obtain ⟨_, ⟨habsent, _⟩ | ⟨m, _, hrun, _⟩⟩ := Course.run_resultOf_eq_some h
  · have habsence : s.absence.Yields fun found => ∀ r, found = some r → r.Inert := by
      unfold absence
      obtain haction | ⟨haction, _⟩ := hs <;> simp only [haction]
      · refine .bind fun settings => ?_
        dsimp only
        split
        · exact .pure (by simp)
        · exact .pure fun r hr => Option.some.inj hr ▸ ⟨rfl, rfl⟩
      · refine .bind fun provider => ?_
        split
        · refine .bind fun available => .pure fun r hr => ?_
          split at hr
          · cases hr
          · exact Option.some.inj hr ▸ ⟨rfl, rfl⟩
        · exact .pure (by simp)
    exact habsence o d _ (by rw [habsent]) r rfl
  · have hyields : (s.run (.object context)).Yields Inert := by
      unfold run
      obtain haction | ⟨haction, hname⟩ := hs <;> simp only [haction]
      · exact PromptStep.inert_run _ _
      · exact ToolStep.inert_run hname _
    exact hyields o m r (by rw [hrun])

/-! ## Input as its template fills it -/

namespace Template

variable {context : Json}

/-- A text without an opening brace is filled with itself. -/
theorem resolveData_of_not_mem {s : String} (h : '\x7b' ∉ s.toList) :
    resolveData context (.string s) = .ok (some (.string s)) := by
  have hpieces : pieces s = s.toList.map .char := by
    have hp := piecesAfter_append_of_not_mem h []
    rwa [List.append_nil, piecesAfter, List.append_nil] at hp
  have hpure : pureBody? s = none := by
    cases hbody : pureBody? s with
    | none => rfl
    | some body =>
      have hmem := mem_pieces_of_pureBody? hbody
      rw [hpieces] at hmem
      obtain ⟨_, _, heq⟩ := List.mem_map.1 hmem
      cases heq
  have hfill : ∀ cs : List Char, fill dropMissing context (cs.map .char) = .ok cs := by
    intro cs
    induction cs with
    | nil => rfl
    | cons c rest ih =>
      rw [List.map_cons, fill, ih]
      rfl
  rw [resolveData, pureValue?, hpure, hpieces, hfill]
  simp [Except.map]

/-- A text that is a single placeholder is filled with its value. -/
theorem resolveData_of_pureBody? {s : String} {body : List Char} (h : pureBody? s = some body) :
    resolveData context (.string s) =
      Operand.resolve context (String.ofList (Text.trimBlanks body)) := by
  rw [resolveData, pureValue?, h]
  dsimp only
  cases Operand.resolve context (String.ofList (Text.trimBlanks body)) <;> rfl

/-- A field has the value that its template is filled with; a field that is not in the template is
not there. -/
theorem get?_resolveFields {fields filled : Fields} (h : resolveFields context fields = .ok filled)
    (key : String) :
    (∀ t v, Fields.get? fields key = some t → resolveData context t = .ok (some v) →
      Fields.get? filled key = some v) ∧
    (Fields.get? fields key = none → Fields.get? filled key = none) := by
  induction fields generalizing filled with
  | nil =>
    obtain rfl := Except.ok.inj h
    exact ⟨fun _ _ ht => absurd ht (by simp), fun _ => rfl⟩
  | cons f rest ih =>
    obtain ⟨k, t'⟩ := f
    simp only [resolveFields] at h
    split at h
    · cases h
    · rename_i v' hv'
      cases hmore : resolveFields context rest with
      | error fault =>
        rw [hmore] at h
        cases h
      | ok more =>
        rw [hmore] at h
        obtain rfl := Except.ok.inj h
        simp only [Fields.get?]
        split
        · refine ⟨fun t v ht hv => ?_, fun ht => by cases ht⟩
          obtain rfl := Option.some.inj ht
          rw [hv'] at hv
          exact Except.ok.inj hv
        · exact ih hmore
    · rename_i hnone
      simp only [Fields.get?]
      split
      · refine ⟨fun t v ht hv => ?_, fun ht => by cases ht⟩
        obtain rfl := Option.some.inj ht
        rw [hnone] at hv
        cases hv
      · exact ih h

/-- A field that is a text without placeholders stays as it is. -/
theorem get?_of_plain {fields filled : Fields} (h : resolveFields context fields = .ok filled)
    (key : String) {text : String} (hfield : Fields.get? fields key = some (.string text))
    (hplain : '\x7b' ∉ text.toList) : Fields.get? filled key = some (.string text) :=
  (get?_resolveFields h key).1 _ _ hfield (resolveData_of_not_mem hplain)

end Template

/-! ## Requests for events -/

open Validation in
theorem Emission.type_of_check {fields : Fields} {em : Emission} {t : String}
    (hfield : Fields.get? fields "event_type" = some (.string t))
    (h : Emission.check (.object fields) = .good em) : em.eventType = t := by
  obtain ⟨_, _, g₁, _, rfl⟩ := Checked.seq_eq_good.1 h
  obtain ⟨_, _, g₂, _, rfl⟩ := Checked.seq_eq_good.1 g₁
  obtain ⟨_, _, g₃, _, rfl⟩ := Checked.seq_eq_good.1 g₂
  obtain ⟨_, htype, rfl⟩ := Checked.map_eq_good.1 g₃
  simp only [required, hfield, Checked.under_eq_good, text_eq_good, Json.string.injEq] at htype
  exact htype.symm

namespace ToolStep

/-- A request for an event that succeeds asks for one of the type that its input names. -/
theorem emit_of_request {input : Fields} {t : String} {r : StepResult}
    (hfield : Fields.get? input "event_type" = some (.string t)) (h : request input = .ok r)
    (hsuccess : r.success = true) :
    r.stop = false ∧ ∃ em, r.emit = some em ∧ em.eventType = t := by
  unfold request at h
  split at h
  · obtain rfl := Except.ok.inj h
    cases hsuccess
  · cases hem : emission input with
    | error failure => simp [hem, bind, Except.bind] at h
    | ok em =>
      simp only [hem, bind, Except.bind, pure, Except.pure, Except.ok.injEq] at h
      subst h
      refine ⟨rfl, em, rfl, ?_⟩
      unfold emission at hem
      split at hem
      · rename_i em' hcheck
        obtain rfl := Except.ok.inj hem
        refine Emission.type_of_check ?_ (Validation.Checked.toExcept_eq_ok.1 hcheck)
        simp [Fields.get?, Fields.getD, hfield]
      · cases hem

/-- The same of a step whose configuration names the type. -/
theorem emit_of_run {config fields : Fields} {t : String}
    (hname : toolName config = .string emissionName)
    (hmapping : (Fields.getD config "input_mapping").orElse .empty = .object fields)
    (htype : Fields.get? fields "event_type" = some (.string t)) (hplain : '\x7b' ∉ t.toList)
    {context : Json} {o : Office} {d e : Desk} {r : StepResult}
    (h : (run config context).run o d = (.done r, e)) (hsuccess : r.success = true) :
    r.stop = false ∧ ∃ em, r.emit = some em ∧ em.eventType = t := by
  obtain ⟨input, called, hinput, hcall, rfl⟩ := exists_called h hsuccess
  rw [show mapping config = .object fields from hmapping, Template.resolveData] at hinput
  cases hfilled : Template.resolveFields context fields with
  | error fault =>
    rw [hfilled] at hinput
    cases hinput
  | ok filled =>
    rw [hfilled] at hinput
    obtain rfl := Except.ok.inj hinput
    have hsame : (toolName config).same (.string emissionName) = true := by rw [hname]; rfl
    rw [call, if_pos hsame] at hcall
    rw [success_settled] at hsuccess
    rw [emit_settled, stop_settled]
    exact emit_of_request (Template.get?_of_plain hfilled _ htype hplain)
      (Action.run_ofExcept_eq_done.1 hcall).1 hsuccess

end ToolStep

/-! ## Built-in tools -/

/-- A search finds no more contacts than its limit allows. -/
theorem Store.length_findContacts_le {s : Store} {query : ContactQuery} {except : Json} {n : Nat}
    {rows : List Row} (h : s.findContacts query except (some n) = .ok rows) : rows.length ≤ n := by
  unfold findContacts at h
  cases hform : excludedId except with
  | error failure => simp [hform, bind, Except.bind] at h
  | ok excluded =>
    simp only [hform, bind, Except.bind, pure, Except.pure, Except.ok.injEq] at h
    rw [← h, Row.upTo, if_neg (by omega)]
    exact List.length_take_le _ _

namespace Registry

/-- A call of a built-in tool of the desk that comes to a value is a run of the tool, unless
another tool has taken its name. -/
theorem run_of_invoke {name : String} {tool : Fields → Action Json} {input : Option Json}
    {o : Office} {d e : Desk} {v : Json} (hown : scripted? o name = none)
    (htool : builtin? name = some (.onDesk tool))
    (h : (invoke (.string name) input).run o d = (.done v, e)) :
    ∃ fields o', input = some (.object fields) ∧ (tool fields).run o' d = (.done v, e) := by
  obtain ⟨o₁, d₁, hoffice, h⟩ := Action.run_bind_eq_done.1 h
  obtain ⟨rfl, rfl⟩ : o = o₁ ∧ d = d₁ := by simpa [Action.office] using hoffice
  obtain ⟨key, d₂, hlookup, h⟩ := Action.run_bind_eq_done.1 h
  obtain ⟨hkey, rfl⟩ := Action.run_ofExcept_eq_done.1 hlookup
  obtain rfl : Json.string name = key := Except.ok.inj hkey
  have hcall : ∀ fields, call? o name fields =
      if o.hasStore then some (name, checkBound name fields >>= fun _ => tool fields) else none :=
    fun fields => by simp only [call?, hown, htool]
  simp only [Json.text?, Option.bind_some, hcall] at h
  cases hstore : o.hasStore with
  | false => simp [hstore] at h
  | true =>
    simp only [hstore, if_true, Option.map_some] at h
    obtain ⟨fields, d₃, hread, h⟩ := Action.run_bind_eq_done.1 h
    obtain ⟨hfields, rfl⟩ := Action.run_ofExcept_eq_done.1 hread
    rw [hcall, hstore, if_pos rfl] at h
    obtain ⟨result, m, hresult, h⟩ := Action.run_bind_eq_done.1 h
    split at h
    · obtain ⟨rfl, rfl⟩ := Action.run_pure_eq_done.1 h
      obtain ⟨o', hwithin⟩ := Action.run_within_eq_some (Action.run_attempt_eq_ok.1 hresult)
      obtain ⟨⟨⟩, d₄, hbound, hrun⟩ := Action.run_bind_eq_done.1 hwithin
      obtain rfl : d = d₄ := by
        unfold checkBound at hbound
        split at hbound
        · cases hbound
        · exact (Action.run_pure_eq_done.1 hbound).2
      refine ⟨fields, o', ?_, hrun⟩
      unfold inputOf at hfields
      split at hfields <;> first | cases hfields; rfl | cases hfields
    · cases h
    · cases h

end Registry

namespace ContactTool

/-- A contact that the tool deletes was there, and is not there afterwards. -/
theorem contact?_of_delete {input : Fields} {o : Office} {d e : Desk} {v : Json}
    (h : (delete input).run o d = (.done v, e)) :
    ∃ row, d.store.contact? (Input.text input "contact_id") = .ok (some row) ∧
      e.store.contact? (Input.text input "contact_id") = .ok none := by
  obtain ⟨deleted, m, hdelete, h⟩ := Action.run_bind_eq_done.1 h
  obtain ⟨_, hfail, _⟩ | ⟨a, t, ha, ht, rfl⟩ := Action.change_cases hdelete
  · cases hfail
  · obtain rfl := Ending.done.inj ha
    cases deleted with
    | false => cases h
    | true =>
      obtain ⟨_, rfl⟩ := Action.run_pure_eq_done.1 h
      exact Store.contact?_of_deleteContact ht

/-- A search for which no limit is set counts at most ten contacts. -/
theorem count_of_search {input : Fields} (hlimit : Fields.get? input "limit" = none) {o : Office}
    {d e : Desk} {v : Json} (h : (search input).run o d = (.done v, e)) :
    ∃ (fields : Fields) (n : Nat), v = .object fields ∧
      Fields.get? fields "count" = some (.int n) ∧ n ≤ 10 := by
  have hten : Input.integer (Input.value input "limit" 10) = .ok 10 := by
    rw [Input.value, hlimit]
    rfl
  rw [search, hten] at h
  dsimp only at h
  generalize (if (Input.text input "email").isGiven && _ then _ else _ : Json × Json) = wanted at h
  split at h
  · obtain ⟨rfl, _⟩ := Action.run_pure_eq_done.1 h
    exact ⟨_, 0, rfl, rfl, Nat.zero_le _⟩
  · obtain ⟨limit, d₁, hten, h⟩ := Action.run_bind_eq_done.1 h
    obtain ⟨rfl, _⟩ := Action.run_pure_eq_done.1 hten
    obtain ⟨⟨⟩, d₂, _, h⟩ := Action.run_bind_eq_done.1 h
    obtain ⟨query, d₃, _, h⟩ := Action.run_bind_eq_done.1 h
    obtain ⟨found, d₄, hfound, h⟩ := Action.run_bind_eq_done.1 h
    obtain ⟨rfl, _⟩ := Action.run_pure_eq_done.1 h
    refine ⟨_, _, rfl, rfl, ?_⟩
    rw [List.length_map]
    rw [Archive.findContacts, Archive.ask] at hfound
    obtain ⟨_, ⟨_, hfail⟩ | ⟨rows, hrows, hfind⟩⟩ := Action.query_cases hfound
    · cases hfail
    · obtain rfl := Ending.done.inj hrows
      exact Store.length_findContacts_le (n := 10) hfind

end ContactTool

/-! ## Calls in steps -/

namespace Course

variable {s : WorkflowStep} {context : Fields} {o : Office} {d e : Desk} {r : StepResult}

/-- A step that calls no provider is carried out. -/
theorem run_of_toolCall (haction : s.action = .toolCall)
    (hprovider : Enrichment.provider? (ToolStep.toolName s.config) = .ok none)
    (h : (resultOf s context).run o d = (.done (some r), e)) :
    (ToolStep.run s.config (.object context)).run o d = (.done r, e) := by
  have habsence : s.absence.run o d = (.done none, d) := by
    rw [WorkflowStep.absence, haction]
    dsimp only [ToolStep.absence]
    rw [hprovider]
    rfl
  obtain ⟨_, ⟨habsent, _⟩ | ⟨m, hnone, hrun, _⟩⟩ := run_resultOf_eq_some h
  · rw [habsence] at habsent
    cases habsent
  · rw [habsence] at hnone
    obtain ⟨_, rfl⟩ := Prod.mk.inj hnone
    rwa [WorkflowStep.run, haction] at hrun

/-- A condition is always carried out. -/
theorem run_of_condition (haction : s.action = .condition)
    (h : (resultOf s context).run o d = (.done (some r), e)) :
    (ConditionStep.run s.config (.object context)).run o d = (.done r, e) := by
  have habsence : s.absence.run o d = (.done none, d) := by
    rw [WorkflowStep.absence, haction]
    rfl
  obtain ⟨_, ⟨habsent, _⟩ | ⟨m, hnone, hrun, _⟩⟩ := run_resultOf_eq_some h
  · rw [habsence] at habsent
    cases habsent
  · rw [habsence] at hnone
    obtain ⟨_, rfl⟩ := Prod.mk.inj hnone
    rwa [WorkflowStep.run, haction] at hrun

end Course

/-- A step that calls a built-in tool of the desk with success has run it on the filled input, and
has its value as output. -/
theorem ToolStep.output_of_run {config fields : Fields} (name : String)
    {tool : Fields → Action Json} (hname : toolName config = .string name)
    (hrequest : name ≠ emissionName) (hprovider : Enrichment.provider? (.string name) = .ok none)
    (hmapping : (Fields.getD config "input_mapping").orElse .empty = .object fields)
    (htool : Registry.builtin? name = some (.onDesk tool)) {context : Json} {o : Office}
    (hown : Registry.scripted? o name = none) {d e : Desk} {r : StepResult}
    (h : (run config context).run o d = (.done r, e)) (hsuccess : r.success = true) :
    ∃ filled o' v, Template.resolveFields context fields = .ok filled ∧
      (tool filled).run o' d = (.done v, e) ∧ r.output = some v := by
  obtain ⟨input, called, hinput, hcall, rfl⟩ := exists_called h hsuccess
  rw [show mapping config = .object fields from hmapping, Template.resolveData] at hinput
  cases hfilled : Template.resolveFields context fields with
  | error fault =>
    rw [hfilled] at hinput
    cases hinput
  | ok filled =>
    rw [hfilled] at hinput
    obtain rfl := Except.ok.inj hinput
    have hsame : (Json.string name).same (.string emissionName) = false :=
      beq_eq_false_iff_ne.2 hrequest
    rw [hname, call, if_neg (by simp [hsame]), hprovider] at hcall
    obtain ⟨provider, m₁, hlookup, hcall⟩ := Action.run_bind_eq_done.1 hcall
    obtain ⟨hnone, rfl⟩ := Action.run_ofExcept_eq_done.1 hlookup
    obtain rfl := Except.ok.inj hnone
    obtain ⟨v, m₂, hinvoke, hcall⟩ := Action.run_bind_eq_done.1 hcall
    obtain ⟨rfl, rfl⟩ := Action.run_pure_eq_done.1 hcall
    obtain ⟨input, o', hinput, hrun⟩ := Registry.run_of_invoke hown htool hinvoke
    obtain rfl := Json.object.inj (Option.some.inj hinput)
    exact ⟨filled, o', v, rfl, hrun, by rw [output_settled]; rfl⟩

/-! ## Branches -/

namespace BranchAction

/-- A field of a descriptor that is not reserved is input for its tool. -/
theorem get?_inputOf {fields : Fields} {key : String} (h : key ∉ reservedKeys) :
    Fields.get? (inputOf fields) key = Fields.get? fields key := by
  induction fields with
  | nil => rfl
  | cons f rest ih =>
    obtain ⟨k, v⟩ := f
    by_cases hk : k = key
    · subst hk
      simp [inputOf, Fields.get?, h]
    · have hskip : ∀ more, Fields.get? ((k, v) :: more) key = Fields.get? more key := fun more => by
        simp [Fields.get?, hk]
      rw [hskip, ← ih]
      by_cases hreserved : reservedKeys.contains k = true
      · rw [inputOf, List.filter_cons_of_neg (by simpa using hreserved)]
        rfl
      · rw [inputOf, List.filter_cons_of_pos (by simpa using hreserved), hskip]
        rfl

/-- The action of a descriptor that does not ask for a stop at once. -/
theorem of_parse? {f : Fields} {a : BranchAction} (h : parse? f = .ok (some a))
    (hstop : isWord (Fields.getD f "action") "stop" = false) :
    a.stop = stopsAfter f ∧ a.tool = tool? f ∧ ((tool? f).isSome = true → a.toolInput = inputOf f) ∧
      (emits f = false → a.emit = none) ∧
      (emits f = true → ∃ em, emission f = .ok em ∧ a.emit = some em) := by
  unfold parse? at h
  split at h
  · cases h
  · split at h
    · cases h
    · rw [if_neg (by simp [hstop])] at h
      split at h
      · cases h
      · rename_i emit hemit
        obtain rfl := Option.some.inj (Except.ok.inj h)
        refine ⟨rfl, rfl, fun htool => by simp [htool], fun hno => ?_, fun hyes => ?_⟩
        · rw [hno] at hemit
          exact (Except.ok.inj hemit).symm
        · rw [hyes, if_pos rfl] at hemit
          cases hem : emission f with
          | error report => simp [hem, Except.map] at hemit
          | ok em =>
            rw [hem] at hemit
            exact ⟨em, rfl, (Except.ok.inj hemit).symm⟩

/-- An action that is carried out with success has called its tool, and asks for what it is to
ask for. -/
theorem of_carryOut {a : BranchAction} {input : Json} {o : Office} {d e : Desk} {r : StepResult}
    (h : (a.carryOut input).run o d = (.done r, e)) (hsuccess : r.success = true) :
    r.emit = a.emit ∧ r.stop = a.stop ∧ ∃ output, a.callTool.run o d = (.done output, e) := by
  obtain ⟨result, m, hcall, h⟩ := Action.run_bind_eq_done.1 h
  split at h
  · rename_i output
    obtain ⟨rfl, rfl⟩ := Action.run_pure_eq_done.1 h
    have hcalled := Action.run_attempt_eq_ok.1 hcall
    unfold resultOf at hsuccess ⊢
    dsimp only at hsuccess ⊢
    split at hsuccess
    · rename_i em hem
      split at hsuccess
      · cases hsuccess
      · rename_i htype
        rw [if_neg htype]
        exact ⟨rfl, rfl, output, hcalled⟩
    · exact ⟨rfl, rfl, output, hcalled⟩
  · obtain ⟨hr, _⟩ := Action.run_ofExcept_eq_done.1 h
    rw [StepResult.success_of_ofFailure hr] at hsuccess
    cases hsuccess

/-- What a descriptor asks for is nothing, or is carried out. -/
theorem cases_of_apply {fields : Fields} (hne : fields ≠ []) {context input : Json} {o : Office}
    {d e : Desk} {r : StepResult}
    (h : (apply (.object fields) context input).run o d = (.done r, e)) :
    ∃ filled, Template.resolveFields context (Fields.drop fields "condition") = .ok filled ∧
      (parse? filled = .ok none ∧ r = nothing input ∧ e = d ∨
        ∃ a, parse? filled = .ok (some a) ∧ (a.carryOut input).run o d = (.done r, e)) := by
  have hgiven : (Json.object fields).isGiven = true := by simp [Json.isGiven, hne]
  simp only [apply, hgiven, Bool.not_true, Bool.false_eq_true, if_false] at h
  obtain ⟨found, m, hread, h⟩ := Action.run_bind_eq_done.1 h
  obtain ⟨hfound, rfl⟩ := Action.run_ofExcept_eq_done.1 hread
  unfold ofDescriptor at hfound
  split at hfound
  · cases hfound
  · rename_i filled hfilled
    have hparse : parse? filled = .ok found := by
      cases hp : parse? filled <;> rw [hp] at hfound
      · cases hfound
      · rw [Except.ok.inj hfound]
    refine ⟨filled, hfilled, ?_⟩
    cases found with
    | none =>
      obtain ⟨rfl, rfl⟩ := Action.run_pure_eq_done.1 h
      exact .inl ⟨hparse, rfl, rfl⟩
    | some a => exact .inr ⟨a, hparse, h⟩

/-- A descriptor that says to continue asks for nothing. -/
theorem inert_of_continue {fields : Fields}
    (haction : Fields.get? fields "action" = some (.string "continue"))
    (hthen : Fields.get? fields "then" = none) (hfinally : Fields.get? fields "finally" = none)
    {a : BranchAction} (hparse : parse? fields = .ok (some a)) {input : Json} {o : Office}
    {d e : Desk} {r : StepResult} (h : (a.carryOut input).run o d = (.done r, e))
    (hsuccess : r.success = true) : r.Inert ∧ e = d := by
  obtain ⟨hstop, htool, _, hemit, _⟩ := of_parse? hparse (by simp [isWord, Fields.getD, haction])
  obtain ⟨hremit, hrstop, output, hcalled⟩ := of_carryOut h hsuccess
  have htool : a.tool = none := by simp [htool, tool?, isWord, Fields.getD, haction]
  rw [callTool, htool] at hcalled
  refine ⟨⟨?_, ?_⟩, (Action.run_pure_eq_done.1 hcalled).2.symm⟩
  · rw [hremit, hemit (by simp [emits, isWord, Fields.getD, haction, hthen])]
  · rw [hrstop, hstop]
    simp [stopsAfter, isWord, Fields.getD, hthen, hfinally]

/-- A descriptor that says to delete a contact, then to emit an event and then to stop, does all of
it: the contact was there and is gone afterwards. -/
theorem deletes_emits_stops {fields : Fields} {id : Json} {t : String}
    (haction : Fields.get? fields "action" = some (.string "delete_contact"))
    (hid : Fields.get? fields "contact_id" = some id)
    (hthen : Fields.get? fields "then" = some (.string "emit_event"))
    (htype : Fields.get? fields "event_type" = some (.string t)) (hgiven : t ≠ "")
    (hfinally : Fields.get? fields "finally" = some (.string "stop"))
    {a : BranchAction} (hparse : parse? fields = .ok (some a)) {input : Json} {o : Office}
    (hown : Registry.scripted? o "delete_contact" = none) {d e : Desk} {r : StepResult}
    (h : (a.carryOut input).run o d = (.done r, e)) (hsuccess : r.success = true) :
    r.stop = true ∧ (∃ em, r.emit = some em ∧ em.eventType = t) ∧
      (∃ row, d.store.contact? id = .ok (some row)) ∧ e.store.contact? id = .ok none := by
  obtain ⟨hstop, htool, hinput, _, hemit⟩ :=
    of_parse? hparse (by simp [isWord, Fields.getD, haction])
  obtain ⟨hremit, hrstop, output, hcalled⟩ := of_carryOut h hsuccess
  have hdelete : tool? fields = some (.string "delete_contact") := by
    simp [tool?, isWord, Fields.getD, haction, Json.isGiven]
  have hcontact : Input.text a.toolInput "contact_id" = id := by
    rw [hinput (by rw [hdelete]; rfl), Input.text, Input.value,
      get?_inputOf (by decide), hid]
    rfl
  rw [callTool, htool, hdelete] at hcalled
  obtain ⟨v, m, hinvoke, hcalled⟩ := Action.run_bind_eq_done.1 hcalled
  obtain ⟨_, rfl⟩ := Action.run_pure_eq_done.1 hcalled
  obtain ⟨input', o', hinput', hrun⟩ := Registry.run_of_invoke hown rfl hinvoke
  obtain rfl := Json.object.inj (Option.some.inj hinput')
  obtain ⟨row, hbefore, hafter⟩ := ContactTool.contact?_of_delete hrun
  rw [hcontact] at hbefore hafter
  refine ⟨?_, ?_, ⟨row, hbefore⟩, hafter⟩
  · rw [hrstop, hstop]
    simp [stopsAfter, isWord, Fields.getD, hfinally]
  · obtain ⟨em, hem, ha⟩ := hemit (by simp [emits, isWord, Fields.getD, hthen])
    have hchecked := Validation.Checked.toExcept_eq_ok.1 hem
    refine ⟨em, hremit.trans ha, Emission.type_of_check ?_ hchecked⟩
    simp [Fields.get?, Fields.getD, htype, Json.orElse, Json.isGiven, hgiven]

end BranchAction

/-- A condition that is evaluated has one of its branches carried out. -/
theorem ConditionStep.apply_of_run {config : Fields} {context : Json} {o : Office} {d e : Desk}
    {r : StepResult} (h : (run config context).run o d = (.done r, e)) :
    ∃ outcome input,
      (BranchAction.apply (branch config outcome) context input).run o d = (.done r, e) := by
  obtain ⟨outcome, m, houtcome, h⟩ := Action.run_bind_eq_done.1 h
  obtain ⟨_, rfl⟩ := Action.run_ofExcept_eq_done.1 houtcome
  obtain ⟨shown, m, hshown, h⟩ := Action.run_bind_eq_done.1 h
  obtain ⟨_, rfl⟩ := Action.run_ofExcept_eq_done.1 hshown
  exact ⟨outcome, _, h⟩

end LeadDesk
