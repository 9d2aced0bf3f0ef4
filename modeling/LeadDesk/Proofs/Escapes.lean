import LeadDesk.Proofs.Steps
/-!
# When a step comes to no result

A step answers for what it calls: whatever a tool, a provider or the language model does, the step
ends in time and its trouble is a failed result (`WorkflowStep.timely_carryOut`). What a step does
outside of its calls is not caught. `WorkflowStep.Escapes` lists all that can go wrong there, in
the configuration, in the numbers of the context and in the store of credentials, and nothing else
makes a step fail (`WorkflowStep.failed_iff_escapes`).
-/

namespace LeadDesk

namespace Action

variable {α β : Type} {x : Action α} {f : α → Action β} {o : Office} {d : Desk} {e : Failure}

/-- One action after another fails with the first of the two that fails. -/
theorem failed_bind :
    ((x >>= f).run o d).1 = .failed e ↔
      (x.run o d).1 = .failed e ∨
        ∃ a m, x.run o d = (.done a, m) ∧ ((f a).run o m).1 = .failed e := by
  rw [run_bind]
  rcases x.run o d with ⟨a | failure | level, m⟩ <;> simp [and_assoc]

theorem failed_ofExcept {r : Except Failure α} :
    ((ofExcept r).run o d).1 = .failed e ↔ r = .error e := by
  cases r <;> simp [ofExcept]

theorem failed_ofExcept_bind {r : Except Failure α} :
    ((ofExcept r >>= f).run o d).1 = .failed e ↔
      r = .error e ∨ ∃ a, r = .ok a ∧ ((f a).run o d).1 = .failed e := by
  cases r <;> simp [ofExcept, run_bind]

/-- What follows an attempt decides whether the whole fails. -/
theorem failed_attempt_bind {f : Except Failure α → Action β} :
    ((attempt x >>= f).run o d).1 = .failed e ↔
      (∃ a m, x.run o d = (.done a, m) ∧ ((f (.ok a)).run o m).1 = .failed e) ∨
        ∃ failure m, x.run o d = (.failed failure, m) ∧
          ((f (.error failure)).run o m).1 = .failed e := by
  rw [run_bind, run_attempt]
  rcases x.run o d with ⟨a | failure | level, m⟩ <;> simp [and_assoc]

theorem failed_query {operation : String} {f : Store → Except Failure α} :
    ((query operation f).run o d).1 = .failed e ↔
      faultOf o operation = some e ∨ faultOf o operation = none ∧ f d.store = .error e := by
  simp only [query]
  cases faultOf o operation with
  | some failure => simp
  | none => cases f d.store <;> simp

/-- The action looks at the store and the surroundings, and changes nothing. -/
def Looks (x : Action α) : Prop :=
  ∀ o (d d' : Desk), d'.store = d.store →
    ∃ ending, x.run o d = (ending, d) ∧ x.run o d' = (ending, d')

namespace Looks

theorem pure (a : α) : Looks (pure a) := fun _ _ _ _ => ⟨_, rfl, rfl⟩

theorem ofExcept (r : Except Failure α) : Looks (ofExcept r) := by
  cases r
  · exact fun _ _ _ _ => ⟨_, rfl, rfl⟩
  · exact pure _

theorem office : Looks office := fun _ _ _ _ => ⟨_, rfl, rfl⟩

theorem settings : Looks settings := fun _ _ _ _ => ⟨_, rfl, rfl⟩

theorem query (operation : String) (f : Store → Except Failure α) : Looks (query operation f) := by
  intro o d d' hstore
  simp only [Action.query, hstore]
  cases faultOf o operation with
  | some failure => exact ⟨_, rfl, rfl⟩
  | none => cases f d.store <;> exact ⟨_, rfl, rfl⟩

theorem bind (hx : Looks x) (hf : ∀ a, Looks (f a)) : Looks (x >>= f) := by
  intro o d d' hstore
  obtain ⟨ending, h, h'⟩ := hx o d d' hstore
  rw [run_bind, run_bind, h, h']
  cases ending with
  | done a => exact hf a o d d' hstore
  | failed failure => exact ⟨_, rfl, rfl⟩
  | cut level => exact ⟨_, rfl, rfl⟩

end Looks

theorem Timely.within (limit : Limit) (hx : Punctual x) : Timely (within limit x) := by
  intro o d level h
  have h : (if limit.micros ≤ 0 then (Ending.done none, d) else
      (Action.before (d.waited + limit.micros) x).run o d).1 = .cut level := h
  split at h
  · simp at h
  · exact hx.before_level h

end Action

open LeadDesk.Action (Looks Tame Timely)

/-! ## Steps end in time -/

theorem Sandbox.timely_execute {α : Type} (name : String) (limit : Limit) {call : Action α}
    (h : call.Punctual) : (execute name limit call).Timely := by
  refine (Timely.within limit h).attempt.bind fun result => ?_
  split
  · exact .pure _
  · exact .fail _
  · exact .fail _

theorem Retry.timely_pause (base : Double) (attempt : Nat) : (pause base attempt).Timely :=
  (Timely.ofExcept _).bind fun _ => Timely.sleep _

theorem Retry.timely_run (base : Double) {call : Action Json} (h : call.Timely) (left : Nat) :
    ∀ attempt, (run base attempt call left).Timely := by
  induction left with
  | zero => exact fun _ => h
  | succ left ih =>
    intro attempt
    refine h.attempt.bind fun result => ?_
    split
    · split
      · exact (timely_pause _ _).bind fun _ => ih _
      · exact .pure _
    · split
      · exact (timely_pause _ _).bind fun _ => ih _
      · exact .fail _

theorem Enrichment.timely_credentials (p : Provider) : (credentials p).Timely := by
  refine Timely.office.bind fun office => ?_
  extract_lets goOn
  have hk : ∀ stored, (goOn stored).Timely := by
    intro stored
    dsimp only [goOn]
    split <;> exact .pure _
  split
  · exact (Timely.query _ _).bind hk
  · exact (Timely.pure _).bind hk

theorem Enrichment.timely_callWith (p : Provider) (input : Option Json) :
    (callWith p input).Timely := by
  unfold callWith
  split
  · refine (Timely.putAside _).bind fun _ => (timely_credentials p).bind fun found => ?_
    split
    · exact .fail _
    · exact Timely.settings.bind fun settings => Retry.timely_run _
        (Sandbox.timely_execute _ _ (reaches_attempt Tame.reaches p _ _).punctual) _ _
  · exact .fail _

theorem Registry.timely_invoke (name : Json) (input : Option Json) :
    (invoke name input).Timely := by
  refine Timely.office.bind fun office => (Timely.ofExcept _).bind fun key => ?_
  split
  · exact .fail _
  · refine (Timely.ofExcept _).bind fun fields => ?_
    split
    · exact .fail _
    · rename_i hc
      exact Sandbox.timely_execute _ _ (reaches_call? Tame.reaches hc).punctual

namespace BranchAction

theorem timely_apply (descriptor context input : Json) :
    (apply descriptor context input).Timely := by
  have hc : ∀ a : BranchAction, a.callTool.Timely := by
    intro a
    unfold callTool
    split
    · exact .pure _
    · exact (Registry.timely_invoke _ _).bind fun _ => .pure _
  unfold apply
  split
  · exact .pure _
  · split
    · refine (Timely.ofExcept _).bind fun found => ?_
      split
      · refine (hc _).attempt.bind fun result => ?_
        split
        · exact .pure _
        · exact .ofExcept _
      · exact .pure _
    · exact .fail _

end BranchAction

theorem ToolStep.timely_absence (config : Fields) : (absence config).Timely := by
  refine (Timely.ofExcept _).bind fun found => ?_
  split
  · exact ((Enrichment.timely_credentials _).bind fun _ => .pure _).bind fun _ => .pure _
  · exact .pure _

theorem ToolStep.timely_run (config : Fields) (context : Json) : (run config context).Timely := by
  unfold run
  split
  · exact .fail _
  · refine Timely.bind (.attempt ?_) fun result => ?_
    · unfold call
      split
      · exact .ofExcept _
      · refine (Timely.ofExcept _).bind fun found => ?_
        split
        · exact (Enrichment.timely_callWith _ _).bind fun _ => .pure _
        · exact (Registry.timely_invoke _ _).bind fun _ => .pure _
    · exact (Timely.ofExcept _).bind fun result => Timely.added.bind fun added => .pure _

theorem PromptStep.timely_run (config : Fields) (context : Json) :
    (run config context).Timely := by
  unfold run
  dsimp only
  split
  · exact .fail _
  · refine Timely.settings.bind fun settings => Timely.bind (.attempt ?_) fun result => ?_
    · have hask := ModelClient.reaches_ask Tame.reaches
      refine (Timely.within _ (hask _).punctual).attempt.bind fun answer => ?_
      split
      · exact .pure _
      · exact .fail _
      · exact .fail _
      · exact .fail _
    · split
      · exact .ofExcept _
      · exact .pure _
      · exact .fail _

namespace WorkflowStep

/-- A step ends, or it is cut off by a deadline around it. -/
theorem timely_carryOut (s : WorkflowStep) (context : Json) : (s.carryOut context).Timely := by
  have habsence : s.absence.Timely := by
    unfold absence
    cases s.action
    · exact ToolStep.timely_absence _
    · refine Timely.settings.bind fun settings => ?_
      dsimp only
      split <;> exact .pure _
    · exact .pure _
    · exact .pure _
  refine habsence.bind fun found => ?_
  split
  · exact .pure _
  · unfold run
    cases s.action
    · exact ToolStep.timely_run _ _
    · exact PromptStep.timely_run _ _
    · exact (Timely.ofExcept _).bind fun _ => (Timely.ofExcept _).bind fun _ =>
        BranchAction.timely_apply _ _ _
    · refine (Timely.ofExcept _).bind fun all => (Timely.ofExcept _).bind fun found => ?_
      split
      · exact BranchAction.timely_apply _ _ _
      · exact .pure _

end WorkflowStep

/-! ## Whether a step is set up -/

theorem Enrichment.looks_credentials (p : Provider) : (credentials p).Looks := by
  refine Looks.office.bind fun office => ?_
  extract_lets goOn
  have hk : ∀ stored, (goOn stored).Looks := by
    intro stored
    dsimp only [goOn]
    split <;> exact .pure _
  split
  · exact (Looks.query _ _).bind hk
  · exact (Looks.pure _).bind hk

/-- To look whether a step is set up changes nothing. -/
theorem WorkflowStep.looks_absence (s : WorkflowStep) : s.absence.Looks := by
  unfold absence
  cases s.action
  · refine (Looks.ofExcept _).bind fun found => ?_
    split
    · exact ((Enrichment.looks_credentials _).bind fun _ => .pure _).bind fun _ => .pure _
    · exact .pure _
  · refine Looks.settings.bind fun settings => ?_
    dsimp only
    split <;> exact .pure _
  · exact .pure _
  · exact .pure _

theorem WorkflowStep.desk_absence (s : WorkflowStep) (o : Office) (d : Desk) :
    (s.absence.run o d).2 = d := by
  obtain ⟨ending, h, -⟩ := s.looks_absence o d d rfl
  rw [h]

/-! ## What is not caught -/

variable {o : Office} {d : Desk} {e : Failure}

/-- A failed call is a failed step, unless what was called has a name that cannot be written. -/
theorem StepResult.ofFailure_eq_error {name : Json} {failure : Failure} {input : Option Json} :
    ofFailure name failure input = .error e ↔
      Template.isWritable name = false ∧ e = .number .unwritable := by
  unfold ofFailure
  split
  · simp_all
  · rename_i h
    simp [Bool.eq_false_iff.2 h, eq_comm]

/-- No tool has a name that cannot be written. -/
theorem Registry.failed_invoke {name : Json} (h : Template.isWritable name = false)
    (input : Option Json) : ∃ e, ((invoke name input).run o d).1 = .failed e := by
  cases name with
  | int n => exact ⟨unknown (.int n), rfl⟩
  | array items => exact ⟨_, rfl⟩
  | object fields => exact ⟨_, rfl⟩
  | null | bool _ | float _ | string _ => simp [Template.isWritable] at h

namespace BranchAction

/-- Why a descriptor of a branch is not carried out: it is no object, it cannot be filled or its
filled form is no action, or its tool has a name that cannot be written. -/
inductive Refused (context : Json) : Json → Failure → Prop
  | shape {v : Json} (hgiven : v.isGiven = true) (hshape : v.fields? = none) :
      Refused context v (.lacks v.kindName "items")
  | form {fields : Fields} {e : Failure} (h : ofDescriptor fields context = .error e) :
      Refused context (.object fields) e
  | name {fields : Fields} {a : BranchAction} {tool : Json}
      (h : ofDescriptor fields context = .ok (some a)) (htool : a.tool = some tool)
      (hname : Template.isWritable tool = false) :
      Refused context (.object fields) (.number .unwritable)

/-- An action fails only where its tool has a name that cannot be written. -/
theorem failed_carryOut {a : BranchAction} {input : Json} :
    ((a.carryOut input).run o d).1 = .failed e ↔
      (∃ tool, a.tool = some tool ∧ Template.isWritable tool = false) ∧
        e = .number .unwritable := by
  rw [carryOut, Action.failed_attempt_bind]
  simp only [Action.run_pure, reduceCtorEq, and_false, exists_false, false_or,
    Action.failed_ofExcept, StepResult.ofFailure_eq_error]
  constructor
  · rintro ⟨failure, m, -, hname, rfl⟩
    cases htool : a.tool with
    | none => simp [htool, Template.isWritable] at hname
    | some tool => exact ⟨⟨tool, rfl, by simpa [htool] using hname⟩, rfl⟩
  · rintro ⟨⟨tool, htool, hname⟩, rfl⟩
    obtain ⟨failure, hfailed⟩ :=
      Registry.failed_invoke (o := o) (d := d) hname (some (.object a.toolInput))
    refine ⟨failure, ((Registry.invoke tool (some (.object a.toolInput))).run o d).2, ?_,
      by simpa [htool] using hname, rfl⟩
    rw [callTool, htool]
    exact Action.run_bind_of_failed (Prod.ext hfailed rfl)

/-- Nothing is refused where nothing is asked for. -/
theorem Refused.isGiven {context descriptor : Json} (h : Refused context descriptor e) :
    descriptor.isGiven = true := by
  have hnil : ofDescriptor [] context = .ok none := rfl
  cases h with
  | shape hgiven _ => exact hgiven
  | @form fields _ h =>
    cases fields with
    | nil => simp [hnil] at h
    | cons f rest => rfl
  | @name fields _ _ h _ _ =>
    cases fields with
    | nil => simp [hnil] at h
    | cons f rest => rfl

theorem failed_apply {descriptor context input : Json} :
    ((apply descriptor context input).run o d).1 = .failed e ↔
      Refused context descriptor e := by
  unfold apply
  split
  · rename_i hgiven
    simp only [Action.run_pure, reduceCtorEq, false_iff]
    intro h
    simp [h.isGiven] at hgiven
  · rename_i hgiven
    split
    · rename_i fields
      rw [Action.failed_ofExcept_bind]
      constructor
      · rintro (h | ⟨found, h, hrun⟩)
        · exact .form h
        · cases found with
          | none => simp at hrun
          | some a =>
            obtain ⟨⟨tool, htool, hname⟩, rfl⟩ := failed_carryOut.1 hrun
            exact .name h htool hname
      · intro h
        cases h with
        | shape _ hshape => cases hshape
        | form h => exact .inl h
        | name h htool hname =>
          exact .inr ⟨_, h, failed_carryOut.2 ⟨⟨_, htool, hname⟩, rfl⟩⟩
    · rename_i hobject
      simp only [Action.run_fail, Ending.failed.injEq]
      constructor
      · rintro rfl
        refine .shape (by simpa using hgiven) ?_
        cases descriptor with
        | object fields => exact absurd rfl (hobject fields)
        | null | bool _ | int _ | float _ | string _ | array _ => rfl
      · intro h
        cases h with
        | shape _ _ => rfl
        | form _ | name _ _ _ => exact absurd rfl (hobject _)

end BranchAction

namespace Enrichment

/-- Why the stored credentials of a provider cannot be read: the store is at fault, or what it has
for the provider is no object. -/
inductive Unreadable (o : Office) (store : Store) (p : Provider) : Failure → Prop
  | fault {e : Failure} (hstore : o.hasStore = true)
      (h : Action.faultOf o "get_integration_credentials" = some e) : Unreadable o store p e
  | shape {v : Json} (hstore : o.hasStore = true)
      (hfault : Action.faultOf o "get_integration_credentials" = none)
      (hv : store.credentials? p.integration o.providerTeam = some v) (hshape : v.fields? = none) :
      Unreadable o store p (.wrongKind s!"'{v.kindName}' object is not iterable")

theorem failed_stored {p : Provider} (hstore : o.hasStore = true) :
    ((Archive.credentials p.integration o.providerTeam).run o d).1 = .failed e ↔
      Unreadable o d.store p e := by
  rw [Archive.credentials, Action.failed_query]
  constructor
  · rintro (hfault | ⟨hfault, hfound⟩)
    · exact .fault hstore hfault
    · split at hfound
      · cases hfound
      · cases hfound
      · rename_i v hobject hv
        cases hfound
        refine .shape hstore hfault hv ?_
        cases v with
        | object fields => exact absurd rfl (hobject fields)
        | null | bool _ | int _ | float _ | string _ | array _ => rfl
  · intro h
    cases h with
    | fault _ hfault => exact .inl hfault
    | @shape v _ hfault hv hshape =>
      refine .inr ⟨hfault, ?_⟩
      rw [hv]
      cases v with
      | object fields => cases hshape
      | null | bool _ | int _ | float _ | string _ | array _ => rfl

theorem failed_credentials {p : Provider} :
    ((credentials p).run o d).1 = .failed e ↔ Unreadable o d.store p e := by
  rw [credentials, Action.run_bind, Action.office]
  cases hstore : o.hasStore with
  | true =>
    simp only [hstore, if_true]
    rw [Action.failed_bind, failed_stored hstore]
    refine ⟨fun h => h.resolve_right ?_, .inl⟩
    rintro ⟨stored, m, _, hchosen⟩
    split at hchosen <;> cases hchosen
  | false =>
    simp only [hstore, Bool.false_eq_true, if_false]
    constructor
    · intro h
      cases h
    · intro h
      cases h with
      | fault h _ | shape h _ _ _ => exact absurd (h.symm.trans hstore) (by decide)

end Enrichment

namespace ToolStep

/-- What goes wrong around the call of a tool: its input cannot be filled, or its name cannot be
written. -/
inductive Escapes (config : Fields) (context : Json) : Failure → Prop
  | input {fault : NumberFault} (h : Template.resolveData context (mapping config) = .error fault) :
      Escapes config context (.number fault)
  | name {input : Option Json} (h : Template.resolveData context (mapping config) = .ok input)
      (hname : Template.isWritable (toolName config) = false) :
      Escapes config context (.number .unwritable)

theorem failed_call {name : Json} (h : Template.isWritable name = false) (input : Option Json) :
    ∃ e, ((call name input).run o d).1 = .failed e := by
  cases name with
  | int n => exact ⟨Registry.unknown (.int n), rfl⟩
  | array items => exact ⟨_, rfl⟩
  | object fields => exact ⟨_, rfl⟩
  | null | bool _ | float _ | string _ => simp [Template.isWritable] at h

/-- After a call nothing fails but the making of its result. -/
theorem failed_settled {x : Except Failure StepResult} {f : StepResult → List Json → StepResult} :
    ((do
        let result ← Action.ofExcept x
        return f result (← Action.added)).run o d).1 = .failed e ↔ x = .error e := by
  cases x with
  | ok result => simp [Action.added, Action.run_bind, Action.ofExcept]
  | error failure => simp [Action.run_bind, Action.ofExcept]

theorem failed_run {config : Fields} {context : Json} :
    ((run config context).run o d).1 = .failed e ↔ Escapes config context e := by
  unfold run
  split
  · rename_i fault hfault
    simp only [Action.run_fail, Ending.failed.injEq]
    constructor
    · rintro rfl
      exact .input hfault
    · intro h
      cases h with
      | input h => rw [hfault] at h; cases h; rfl
      | name h _ => rw [hfault] at h; cases h
  · rename_i input hinput
    rw [Action.failed_attempt_bind]
    simp only [failed_settled, concluded, reduceCtorEq, and_false, exists_false, false_or,
      StepResult.ofFailure_eq_error]
    constructor
    · rintro ⟨failure, m, -, hname, rfl⟩
      exact .name hinput hname
    · intro h
      cases h with
      | input h => rw [hinput] at h; cases h
      | name _ hname =>
        obtain ⟨failure, hfailed⟩ := failed_call (o := o) (d := d) hname input
        exact ⟨failure, _, Prod.ext hfailed rfl, hname, rfl⟩

/-- Whether a provider is set up cannot be told of a name that names nothing, and of a provider
whose credentials are unreadable. -/
theorem failed_absence {config : Fields} :
    ((absence config).run o d).1 = .failed e ↔
      Enrichment.provider? (toolName config) = .error e ∨
        ∃ p, Enrichment.provider? (toolName config) = .ok (some p) ∧
          Enrichment.Unreadable o d.store p e := by
  rw [absence, Action.failed_ofExcept_bind]
  refine or_congr_right ⟨?_, ?_⟩
  · rintro ⟨found, hfound, h⟩
    cases found with
    | none => simp at h
    | some p =>
      refine ⟨p, hfound, ?_⟩
      simpa [Enrichment.isAvailable, Action.failed_bind, Enrichment.failed_credentials,
        apply_ite] using h
  · rintro ⟨p, hp, h⟩
    refine ⟨some p, hp, ?_⟩
    dsimp only
    rw [Action.failed_bind, Enrichment.isAvailable, Action.failed_bind,
      Enrichment.failed_credentials]
    exact .inl (.inl h)

end ToolStep

namespace ModelClient

/-- The answer of a language model bears the name under which it was called. -/
theorem model_of_complete {c : ModelClient} {prompt maxTokens tier : Json} {m : Desk}
    {answer : ModelAnswer} (h : (c.complete prompt maxTokens tier).run o d = (.done answer, m)) :
    answer.model = c.modelOf tier := by
  obtain ⟨result, m', -, h⟩ := Action.run_bind_eq_done.1 h
  split at h
  · obtain ⟨rfl, -⟩ := Action.run_pure_eq_done.1 h
    rfl
  · cases h
  · cases h
  · cases h

theorem exists_failureOf (c : ModelClient) (e : Failure) :
    ∃ message, c.failureOf e = .model message := by
  unfold failureOf timeout
  split <;> exact ⟨_, rfl⟩

/-- A call fails otherwise than with a failure of the model when what comes as its answer is
none. -/
theorem failed_complete {c : ModelClient} {prompt maxTokens tier : Json}
    (hother : ∀ message, e ≠ .model message) :
    ((c.complete prompt maxTokens tier).run o d).1 = .failed e ↔
      ((c.reply prompt maxTokens tier).run o d).1 = .done (some (.error e)) := by
  rw [complete, Action.failed_attempt_bind]
  constructor
  · rintro (⟨taken, m, hrun, h⟩ | ⟨failure, m, hrun, h⟩)
    · cases taken with
      | none => exact absurd (Ending.failed.inj h).symm (hother _)
      | some taken =>
        cases taken with
        | ok answer => cases h
        | error found => rw [hrun, Ending.failed.inj h]
    · obtain ⟨message, hmessage⟩ := c.exists_failureOf failure
      exact absurd ((Ending.failed.inj h).symm.trans hmessage) (hother message)
  · intro h
    exact .inl ⟨_, _, Prod.ext h rfl, rfl⟩

end ModelClient

namespace PromptStep

/-- The prompt that a configuration lays down, before it is filled. -/
def template (config : Fields) : Json := (Fields.getD config "prompt_template").orElse (.string "")

/-- The tier of language models that a configuration asks for. -/
def tier (config : Fields) : Json := (Fields.getD config "model").orElse (.string "default")

/-- The call of the language model for a filled prompt. -/
def complete (o : Office) (config : Fields) (prompt : Json) : Action ModelAnswer :=
  (ModelClient.ofSettings o.settings).complete prompt
    ((Fields.getD config "max_tokens").orElse defaultTokens) (tier config)

/-- What comes back for a filled prompt before the limit passes. -/
def reply (o : Office) (config : Fields) (prompt : Json) :
    Action (Option (Except Failure (Json × Int))) :=
  (ModelClient.ofSettings o.settings).reply prompt
    ((Fields.getD config "max_tokens").orElse defaultTokens) (tier config)

/-- What goes wrong around the call of a language model: the prompt cannot be filled, what comes
back is no answer, it is to be read as data and is no text, or the model has answered under a name
that is no text. -/
inductive Escapes (o : Office) (d : Desk) (config : Fields) (context : Json) : Failure → Prop
  | prompt {fault : NumberFault}
      (h : Template.resolveValue (template config) context = .error fault) :
      Escapes o d config context (.number fault)
  | garbled {prompt : Json} {e : Failure}
      (h : Template.resolveValue (template config) context = .ok prompt)
      (hreply : ((reply o config prompt).run o d).1 = .done (some (.error e)))
      (hother : ∀ message, e ≠ .model message) : Escapes o d config context e
  | content {prompt : Json} {answer : ModelAnswer} {m : Desk} {e : Failure}
      (h : Template.resolveValue (template config) context = .ok prompt)
      (hanswer : (complete o config prompt).run o d = (.done answer, m))
      (hcontent : outputOf config answer.content = .error e) : Escapes o d config context e
  | model {prompt : Json} {answer : ModelAnswer} {m : Desk} {output : Except Failure Json}
      {e : Failure} (h : Template.resolveValue (template config) context = .ok prompt)
      (hanswer : (complete o config prompt).run o d = (.done answer, m))
      (hcontent : outputOf config answer.content = .ok output)
      (hname : modelName ((ModelClient.ofSettings o.settings).modelOf (tier config)) = .error e) :
      Escapes o d config context e

theorem resultOf_eq_error {config : Fields} {input : Json} {answer : ModelAnswer} :
    resultOf config input answer = .error e ↔
      outputOf config answer.content = .error e ∨
        ∃ output, outputOf config answer.content = .ok output ∧
          modelName answer.model = .error e := by
  unfold resultOf
  cases outputOf config answer.content with
  | error failure => simp [bind, Except.bind]
  | ok output =>
    cases modelName answer.model with
    | error failure => simp [bind, Except.bind]
    | ok model =>
      simp only [reduceCtorEq, and_false, exists_false, or_false, iff_false]
      intro h
      dsimp only [bind, Except.bind] at h
      split at h <;> cases h

theorem failed_run {config : Fields} {context : Json} :
    ((run config context).run o d).1 = .failed e ↔ Escapes o d config context e := by
  unfold run
  dsimp only
  split
  · rename_i fault hfault
    simp only [Action.run_fail, Ending.failed.injEq]
    constructor
    · rintro rfl
      exact .prompt hfault
    · intro h
      cases h with
      | prompt h => rw [template, hfault] at h; cases h; rfl
      | garbled h _ _ | content h _ _ | model h _ _ _ => rw [template, hfault] at h; cases h
  · rename_i prompt hprompt
    rw [Action.run_bind, Action.settings]
    dsimp only
    rw [Action.failed_attempt_bind]
    simp only [Action.failed_ofExcept, resultOf_eq_error]
    constructor
    · rintro (⟨answer, m, hanswer, hcontent | ⟨output, hcontent, hname⟩⟩ |
        ⟨failure, m, hfailed, h⟩)
      · exact .content hprompt hanswer hcontent
      · rw [ModelClient.model_of_complete hanswer] at hname
        exact .model hprompt hanswer hcontent hname
      · split at h
        · rename_i hfailure
          cases hfailure
        · cases h
        · rename_i found hother hfailure
          obtain rfl := Except.error.inj hfailure
          obtain rfl := Ending.failed.inj h
          exact .garbled hprompt
            ((ModelClient.failed_complete hother).1 (congrArg Prod.fst hfailed)) hother
    · intro h
      cases h with
      | prompt h => rw [template, hprompt] at h; cases h
      | @garbled prompt' _ h hreply hother =>
        obtain rfl : prompt = prompt' := Except.ok.inj (hprompt.symm.trans h)
        refine .inr ⟨e, _, Prod.ext ((ModelClient.failed_complete hother).2 hreply) rfl, ?_⟩
        split
        · rename_i heq
          cases heq
        · rename_i message heq
          exact absurd (Except.error.inj heq) (hother message)
        · rename_i heq
          rw [Except.error.inj heq]
          rfl
      | @content prompt' answer m _ h hanswer hcontent =>
        obtain rfl : prompt = prompt' := Except.ok.inj (hprompt.symm.trans h)
        exact .inl ⟨answer, m, hanswer, .inl hcontent⟩
      | @model prompt' answer m output _ h hanswer hcontent hname =>
        obtain rfl : prompt = prompt' := Except.ok.inj (hprompt.symm.trans h)
        exact .inl ⟨answer, m, hanswer, .inr ⟨output, hcontent,
          by rwa [ModelClient.model_of_complete hanswer]⟩⟩

end PromptStep

namespace ConditionStep

/-- The condition that a configuration lays down. -/
def condition (config : Fields) : Json := (Fields.getD config "condition").orElse (.string "")

/-- What goes wrong around the tool of a condition step: a number stands in the way of the
condition, or the branch for its outcome is refused. -/
inductive Escapes (config : Fields) (context : Json) : Failure → Prop
  | condition {e : Failure} (h : matched (condition config) context = .error e) :
      Escapes config context e
  | branch {outcome : Bool} {e : Failure}
      (hmatched : matched (condition config) context = .ok outcome)
      (h : BranchAction.Refused context (branch config outcome) e) : Escapes config context e

/-- A condition with an outcome can be shown. -/
theorem exists_shown {condition context : Json} {outcome : Bool}
    (h : matched condition context = .ok outcome) :
    ∃ shown, Template.resolveValue condition context = .ok shown := by
  cases condition with
  | string s =>
    cases hfilled : Template.resolve s context with
    | ok filled => exact ⟨.string filled, by rw [Template.resolveValue, hfilled]; rfl⟩
    | error fault =>
      simp [matched, Condition.evaluate, Condition.value, hfilled,
        Condition.Fault.isExpressionFault] at h
  | null | bool _ | int _ | float _ | array _ | object _ => exact ⟨_, rfl⟩

theorem failed_run {config : Fields} {context : Json} :
    ((run config context).run o d).1 = .failed e ↔ Escapes config context e := by
  unfold run
  dsimp only
  rw [Action.failed_ofExcept_bind]
  constructor
  · rintro (h | ⟨outcome, hmatched, h⟩)
    · exact .condition h
    · obtain ⟨shown, hshown⟩ := exists_shown hmatched
      rw [hshown, Action.failed_ofExcept_bind] at h
      obtain h | ⟨_, _, h⟩ := h
      · cases h
      · exact .branch hmatched (BranchAction.failed_apply.1 h)
  · intro h
    cases h with
    | condition h => exact .inl h
    | @branch outcome _ hmatched h =>
      obtain ⟨shown, hshown⟩ := exists_shown hmatched
      refine .inr ⟨outcome, hmatched, ?_⟩
      rw [condition] at hshown
      rw [hshown, Action.failed_ofExcept_bind]
      exact .inr ⟨shown, rfl, BranchAction.failed_apply.2 h⟩

end ConditionStep

namespace BranchStep

/-- What goes wrong around the tool of a branch step: its branches are no list, one that is looked
at is no object or has a condition that a number stands in the way of, or the branch that is taken
is refused. -/
inductive Escapes (config : Fields) (context : Json) : Failure → Prop
  | branches {e : Failure} (h : branches config = .error e) : Escapes config context e
  | condition {all : List Json} {e : Failure} (hall : BranchStep.branches config = .ok all)
      (h : firstMatch context 0 all = .error e) : Escapes config context e
  | branch {all : List Json} {index : Nat} {branch : Json} {e : Failure}
      (hall : BranchStep.branches config = .ok all)
      (hfound : firstMatch context 0 all = .ok (some (index, branch)))
      (h : BranchAction.Refused context branch e) : Escapes config context e

theorem failed_run {config : Fields} {context : Json} :
    ((run config context).run o d).1 = .failed e ↔ Escapes config context e := by
  rw [run, Action.failed_ofExcept_bind]
  constructor
  · rintro (h | ⟨all, hall, h⟩)
    · exact .branches h
    · rw [Action.failed_ofExcept_bind] at h
      obtain h | ⟨found, hfound, h⟩ := h
      · exact .condition hall h
      · cases found with
        | none => simp at h
        | some taken => exact .branch hall hfound (BranchAction.failed_apply.1 h)
  · intro h
    cases h with
    | branches h => exact .inl h
    | condition hall h => exact .inr ⟨_, hall, Action.failed_ofExcept_bind.2 (.inl h)⟩
    | branch hall hfound h =>
      exact .inr ⟨_, hall, Action.failed_ofExcept_bind.2
        (.inr ⟨_, hfound, BranchAction.failed_apply.2 h⟩)⟩

end BranchStep

namespace WorkflowStep

/-- All that makes a step fail instead of coming to a result. -/
inductive Escapes (s : WorkflowStep) (o : Office) (d : Desk) (context : Json) : Failure → Prop
  | toolName {e : Failure} (ha : s.action = .toolCall)
      (h : Enrichment.provider? (ToolStep.toolName s.config) = .error e) : Escapes s o d context e
  | credentials {p : Provider} {e : Failure} (ha : s.action = .toolCall)
      (hp : Enrichment.provider? (ToolStep.toolName s.config) = .ok (some p))
      (h : Enrichment.Unreadable o d.store p e) : Escapes s o d context e
  | tool {e : Failure} (ha : s.action = .toolCall) (hset : (s.absence.run o d).1 = .done none)
      (h : ToolStep.Escapes s.config context e) : Escapes s o d context e
  | prompt {e : Failure} (ha : s.action = .prompt) (hset : (s.absence.run o d).1 = .done none)
      (h : PromptStep.Escapes o d s.config context e) : Escapes s o d context e
  | condition {e : Failure} (ha : s.action = .condition)
      (h : ConditionStep.Escapes s.config context e) : Escapes s o d context e
  | branch {e : Failure} (ha : s.action = .branch) (h : BranchStep.Escapes s.config context e) :
      Escapes s o d context e

/-- A step fails where it is looked whether it is set up, or where it is set up and run. -/
theorem failed_carryOut {s : WorkflowStep} {context : Json} :
    ((s.carryOut context).run o d).1 = .failed e ↔
      (s.absence.run o d).1 = .failed e ∨
        ∃ m, s.absence.run o d = (.done none, m) ∧ ((s.run context).run o m).1 = .failed e := by
  rw [carryOut, Action.failed_bind]
  refine or_congr_right ⟨?_, fun ⟨m, hset, h⟩ => ⟨none, m, hset, h⟩⟩
  rintro ⟨found, m, hset, h⟩
  cases found with
  | none => exact ⟨m, hset, h⟩
  | some r => simp at h

theorem failed_iff_escapes {s : WorkflowStep} {context : Json} :
    ((s.carryOut context).run o d).1 = .failed e ↔ s.Escapes o d context e := by
  rw [failed_carryOut]
  cases ha : s.action with
  | toolCall =>
    have habsence : s.absence = ToolStep.absence s.config := by simp only [absence, ha]
    have hrun : s.run context = ToolStep.run s.config context := by simp only [run, ha]
    rw [habsence, hrun, ToolStep.failed_absence]
    constructor
    · rintro ((h | ⟨p, hp, h⟩) | ⟨m, hset, h⟩)
      · exact .toolName ha h
      · exact .credentials ha hp h
      · exact .tool ha (by rw [habsence, hset]) (ToolStep.failed_run.1 h)
    · intro h
      cases h with
      | toolName _ h => exact .inl (.inl h)
      | credentials _ hp h => exact .inl (.inr ⟨_, hp, h⟩)
      | tool _ hset h =>
        rw [habsence] at hset
        exact .inr ⟨_, Prod.ext hset rfl, ToolStep.failed_run.2 h⟩
      | prompt hb | condition hb | branch hb => exact absurd (ha.symm.trans hb) (by decide)
  | prompt =>
    have hrun : s.run context = PromptStep.run s.config context := by simp only [run, ha]
    have habsence : (s.absence.run o d).1 ≠ .failed e := by
      simp only [absence, ha, PromptStep.absence, Action.run_bind, Action.settings]
      split <;> simp
    rw [hrun]
    constructor
    · rintro (h | ⟨m, hset, h⟩)
      · exact absurd h habsence
      · have hsame := s.desk_absence o d
        rw [hset] at hsame
        subst hsame
        exact .prompt ha (by rw [hset]) (PromptStep.failed_run.1 h)
    · intro h
      cases h with
      | prompt _ hset h =>
        exact .inr ⟨d, Prod.ext hset (s.desk_absence o d), PromptStep.failed_run.2 h⟩
      | toolName hb | credentials hb | tool hb | condition hb | branch hb =>
        exact absurd (ha.symm.trans hb) (by decide)
  | condition =>
    have habsence : s.absence = pure none := by simp only [absence, ha]
    have hrun : s.run context = ConditionStep.run s.config context := by simp only [run, ha]
    rw [habsence, hrun]
    simp only [Action.run_pure, Prod.mk.injEq, true_and, reduceCtorEq, false_or, exists_eq_left',
      ConditionStep.failed_run]
    refine ⟨.condition ha, fun h => ?_⟩
    cases h with
    | condition _ h => exact h
    | toolName hb | credentials hb | tool hb | prompt hb | branch hb =>
      exact absurd (ha.symm.trans hb) (by decide)
  | branch =>
    have habsence : s.absence = pure none := by simp only [absence, ha]
    have hrun : s.run context = BranchStep.run s.config context := by simp only [run, ha]
    rw [habsence, hrun]
    simp only [Action.run_pure, Prod.mk.injEq, true_and, reduceCtorEq, false_or, exists_eq_left',
      BranchStep.failed_run]
    refine ⟨.branch ha, fun h => ?_⟩
    cases h with
    | branch _ h => exact h
    | toolName hb | credentials hb | tool hb | prompt hb | condition hb =>
      exact absurd (ha.symm.trans hb) (by decide)

end WorkflowStep

/-- No tool and no provider makes a step fail. What is laid down for the outside is part of the
desk, and only the store counts. -/
theorem WorkflowStep.Escapes.of_store_eq {d' : Desk} {context : Json} {s : WorkflowStep}
    (ha : s.action ≠ .prompt) (hstore : d'.store = d.store) (h : s.Escapes o d context e) :
    s.Escapes o d' context e := by
  cases h with
  | toolName ha h => exact .toolName ha h
  | credentials ha hp h => exact .credentials ha hp (hstore ▸ h)
  | tool ha hset h =>
    obtain ⟨ending, hrun, hrun'⟩ := s.looks_absence o d d' hstore
    rw [hrun] at hset
    exact .tool ha (by rw [hrun']; exact hset) h
  | prompt hprompt _ _ => exact absurd hprompt ha
  | condition ha h => exact .condition ha h
  | branch ha h => exact .branch ha h

/-! ## Failed results -/

/-- The result tells of an error exactly when the log shows its step as failed. -/
def StepResult.Tells (r : StepResult) : Prop := r.logStatus = .failed ↔ r.error.isSome = true

namespace StepResult

theorem tells_fail (error : String) (input : Option Json) : (fail error input).Tells := by
  simp [Tells, fail, logStatus]

theorem tells_of_ofFailure {name : Json} {failure : Failure} {input : Option Json} {r : StepResult}
    (h : ofFailure name failure input = .ok r) : r.Tells := by
  unfold ofFailure at h
  split at h
  · cases h
    exact tells_fail _ _
  · cases h

end StepResult

open LeadDesk.Action (Yields)
open StepResult (Tells)

theorem BranchAction.tells_apply (descriptor context input : Json) :
    (apply descriptor context input).Yields Tells := by
  have hnothing : (nothing input).Tells := by simp [Tells, nothing, StepResult.logStatus]
  have hresult : ∀ (a : BranchAction) output, (a.resultOf output input).Tells := by
    intro a output
    dsimp only [resultOf]
    split
    · split
      · exact StepResult.tells_fail _ _
      · simp [Tells, StepResult.logStatus]
    · simp [Tells, StepResult.logStatus]
  unfold apply
  split
  · exact .pure hnothing
  · split
    · refine .bind fun found => ?_
      split
      · refine .bind fun result => ?_
        split
        · exact .pure (hresult _ _)
        · exact .ofExcept fun r h => StepResult.tells_of_ofFailure h
      · exact .pure hnothing
    · exact .fail _

namespace ToolStep

theorem tells_of_request {input : Fields} {r : StepResult} (h : request input = .ok r) :
    r.Tells := by
  unfold request at h
  split at h
  · cases h
    exact StepResult.tells_fail _ _
  · cases he : emission input with
    | error failure =>
      rw [he] at h
      cases h
    | ok e =>
      rw [he] at h
      cases h
      simp [Tells, StepResult.logStatus]

theorem tells_call (name : Json) (input : Option Json) : (call name input).Yields Tells := by
  have hresult : ∀ output, (resultOf output input).Tells := by
    simp [Tells, resultOf, StepResult.logStatus]
  unfold call
  split
  · refine .ofExcept fun r h => ?_
    cases hi : requestInput input with
    | error failure =>
      rw [hi] at h
      cases h
    | ok fields =>
      rw [hi] at h
      exact tells_of_request h
  · refine .bind fun found => ?_
    split <;> exact .bind fun v => .pure (hresult _)

theorem tells_settled {r : StepResult} (name : Json) (input : Option Json) (added : List Json)
    (h : r.Tells) : (settled r name input added).Tells := by
  unfold settled
  split <;> exact h

theorem tells_run (config : Fields) (context : Json) : (run config context).Yields Tells :=
  yields_run_of tells_call StepResult.tells_of_ofFailure tells_settled config context

end ToolStep

theorem PromptStep.tells_run (config : Fields) (context : Json) :
    (run config context).Yields Tells := by
  unfold run
  dsimp only
  split
  · exact .fail _
  · refine .bind fun settings => .bind fun result => ?_
    split
    · refine .ofExcept fun r h => ?_
      obtain ⟨model, ⟨output, rfl⟩ | ⟨message, rfl⟩⟩ := resultOf_cases h
      · simp [Tells, StepResult.logStatus]
      · simp [Tells, StepResult.logStatus]
    · exact .pure (StepResult.tells_fail _ _)
    · exact .fail _

namespace WorkflowStep

theorem tells_carryOut (s : WorkflowStep) (context : Json) :
    (s.carryOut context).Yields Tells := by
  have habsence : s.absence.Yields fun found => ∀ r ∈ found, r.Tells := by
    unfold absence
    cases s.action
    · refine .bind fun found => ?_
      split
      · refine .bind fun isAvailable => .pure fun r hr => ?_
        split at hr
        · cases hr
        · cases hr
          simp [Tells, StepResult.notConfigured, StepResult.logStatus]
      · exact .pure (by simp)
    · refine .bind fun settings => ?_
      dsimp only
      split
      · exact .pure (by simp)
      · refine .pure fun r hr => ?_
        cases hr
        simp [Tells, StepResult.skip, StepResult.logStatus]
    · exact .pure (by simp)
    · exact .pure (by simp)
  refine habsence.bind_of fun found hfound => ?_
  split
  · exact .pure (hfound _ rfl)
  · unfold run
    cases s.action
    · exact ToolStep.tells_run _ _
    · exact PromptStep.tells_run _ _
    · exact .bind fun _ => .bind fun _ => BranchAction.tells_apply _ _ _
    · refine .bind fun all => .bind fun found => ?_
      split
      · exact BranchAction.tells_apply _ _ _
      · exact .pure (by simp [Tells, BranchStep.noMatch, StepResult.logStatus])

/-- How a step ends, whatever its tool, its provider or the language model does. It fails for the
causes that are listed and for no other, which lie in the store and the configuration unless a
language model has answered; only a deadline around it cuts it off; and in every other case it
comes to a result, which tells of its error when the log shows it as failed. -/
theorem carryOut_ends (s : WorkflowStep) (context : Json) (o : Office) (d : Desk) :
    (∀ e, ((s.carryOut context).run o d).1 = .failed e ↔ s.Escapes o d context e) ∧
      (s.action ≠ .prompt → ∀ d' : Desk, d'.store = d.store →
        ∀ e, s.Escapes o d context e → s.Escapes o d' context e) ∧
      (∀ level, ((s.carryOut context).run o d).1 = .cut level →
        1 ≤ level ∧ level ≤ o.deadlines.length) ∧
      ∀ r, ((s.carryOut context).run o d).1 = .done r →
        (r.logStatus = .failed ↔ r.error.isSome = true) :=
  ⟨fun _ => failed_iff_escapes, fun ha _ hstore _ h => h.of_store_eq ha hstore,
    s.timely_carryOut context o d, s.tells_carryOut context o d⟩

end WorkflowStep

end LeadDesk
