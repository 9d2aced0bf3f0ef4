import LeadDesk.Execution.Run
import LeadDesk.Proofs.Tools
/-!
# What a step comes to

What reaches tools reaches steps (`Course.reaches_resultOf`), so that a step leaves the work alone
(`Course.tame_resultOf`): what it does to events, to the log and to its run is done after it, by the
run. Its failures are named (`Course.named_resultOf`), and its result is sound: a success has an
output, only a completed step asks for a stop, and a result says that its capability is not set up
exactly when it was laid down for that reason.
-/

namespace LeadDesk

open LeadDesk.Action (Tame Named Yields)

/-! ## What reaches steps -/

section

variable {P : (α : Type) → Action α → Prop} (hP : Action.Reaches P)

include hP

namespace ModelClient

theorem reaches_ask (call : Fields) : P _ (ask call) := by
  refine hP.bind (hP.callModel _) fun reply => ?_
  cases reply
  · exact hP.pure _
  · exact hP.pure _
  · exact hP.fail _
  · exact hP.hang

theorem reaches_reply (c : ModelClient) (prompt maxTokens tier : Json) :
    P _ (c.reply prompt maxTokens tier) := hP.within _ (reaches_ask hP _)

theorem reaches_complete (c : ModelClient) (prompt maxTokens tier : Json) :
    P _ (c.complete prompt maxTokens tier) := by
  refine hP.bind (hP.attempt (c.reaches_reply hP _ _ _)) fun result => ?_
  split
  · exact hP.pure _
  · exact hP.fail _
  · exact hP.fail _
  · exact hP.fail _

end ModelClient

namespace BranchAction

theorem reaches_carryOut (a : BranchAction) (input : Json) : P _ (a.carryOut input) := by
  have hc : P _ a.callTool := by
    unfold callTool
    split
    · exact hP.pure _
    · exact hP.bind (Registry.reaches_invoke hP _ _) fun _ => hP.pure _
  refine hP.bind (hP.attempt hc) fun result => ?_
  split
  · exact hP.pure _
  · exact hP.ofExcept _

theorem reaches_apply (descriptor context input : Json) :
    P _ (apply descriptor context input) := by
  refine hP.ite (hP.pure _) ?_
  split
  · refine hP.bind (hP.ofExcept _) fun found => ?_
    split
    · exact reaches_carryOut hP _ _
    · exact hP.pure _
  · exact hP.fail _

end BranchAction

namespace ToolStep

theorem reaches_absence (config : Fields) : P _ (absence config) := by
  refine hP.bind (hP.ofExcept _) fun found => ?_
  split
  · exact hP.bind (Enrichment.reaches_isAvailable hP _) fun _ => hP.pure _
  · exact hP.pure _

theorem reaches_run (config : Fields) (context : Json) : P _ (run config context) := by
  unfold run
  split
  · exact hP.fail _
  · refine hP.bind (hP.attempt ?_) fun called =>
      hP.bind (hP.ofExcept _) fun result => hP.bind hP.added fun added => hP.pure _
    refine hP.ite (hP.ofExcept _) (hP.bind (hP.ofExcept _) fun found => ?_)
    split
    · exact hP.bind (Enrichment.reaches_callWith hP _ _) fun _ => hP.pure _
    · exact hP.bind (Registry.reaches_invoke hP _ _) fun _ => hP.pure _

end ToolStep

namespace PromptStep

theorem reaches_absence : P _ absence :=
  hP.bind hP.settings fun _ => hP.ite (hP.pure _) (hP.pure _)

theorem reaches_run (config : Fields) (context : Json) : P _ (run config context) := by
  unfold run
  dsimp only
  split
  · exact hP.fail _
  · refine hP.bind hP.settings fun settings => ?_
    refine hP.bind (hP.attempt (ModelClient.reaches_complete hP _ _ _ _)) fun result => ?_
    split
    · exact hP.ofExcept _
    · exact hP.pure _
    · exact hP.fail _

end PromptStep

theorem ConditionStep.reaches_run (config : Fields) (context : Json) : P _ (run config context) :=
  hP.bind (hP.ofExcept _) fun _ => hP.bind (hP.ofExcept _) fun _ =>
    BranchAction.reaches_apply hP _ _ _

theorem BranchStep.reaches_run (config : Fields) (context : Json) : P _ (run config context) := by
  refine hP.bind (hP.ofExcept _) fun all => hP.bind (hP.ofExcept _) fun found => ?_
  split
  · exact BranchAction.reaches_apply hP _ _ _
  · exact hP.pure _

namespace WorkflowStep

theorem reaches_absence (s : WorkflowStep) : P _ s.absence := by
  unfold absence
  cases s.action
  · exact ToolStep.reaches_absence hP _
  · exact PromptStep.reaches_absence hP
  · exact hP.pure _
  · exact hP.pure _

theorem reaches_run (s : WorkflowStep) (context : Json) : P _ (s.run context) := by
  unfold run
  cases s.action
  · exact ToolStep.reaches_run hP _ _
  · exact PromptStep.reaches_run hP _ _
  · exact ConditionStep.reaches_run hP _ _
  · exact BranchStep.reaches_run hP _ _

theorem reaches_carryOut (s : WorkflowStep) (context : Json) : P _ (s.carryOut context) := by
  refine hP.bind (s.reaches_absence hP) fun found => ?_
  split
  · exact hP.pure _
  · exact s.reaches_run hP _

end WorkflowStep

/-- The guards of a step and its action. -/
theorem Course.reaches_resultOf (s : WorkflowStep) (context : Fields) :
    P _ (resultOf s context) :=
  hP.bind (hP.ofExcept _) fun _ =>
    hP.ite (hP.bind (s.reaches_carryOut hP _) fun _ => hP.pure _) (hP.pure _)

end

theorem WorkflowStep.tame_absence (s : WorkflowStep) : s.absence.Tame :=
  s.reaches_absence Tame.reaches

/-- The guards and the action of a step leave the work alone. -/
theorem Course.tame_resultOf (s : WorkflowStep) (context : Fields) :
    (resultOf s context).Tame := reaches_resultOf Tame.reaches s context

/-! ## The failures of steps are named -/

theorem Failure.IsOwn.kind_ne {e : Failure} (h : e.IsOwn) : e.kind ≠ "" := by
  cases e with
  | outside => exact h.elim
  | condition fault => cases fault <;> simp [kind]
  | json fault => cases fault <;> simp [kind]
  | noInteger infinite => cases infinite <;> simp [kind]
  | _ => simp [kind]

/-- A fault that is taken for a failure of the desk's own is one. -/
theorem Failure.isOwn_of_mapError {α ε : Type} {x : Except ε α} {f : ε → Failure} {e : Failure}
    (h : x.mapError f = .error e) (hf : ∀ fault, (f fault).IsOwn) : e.IsOwn := by
  cases x with
  | error fault =>
    have he : f fault = e := Except.error.inj h
    exact he ▸ hf fault
  | ok a => cases h

theorem StepResult.isOwn_ofFailure {name : Json} {e failure : Failure} {input : Option Json}
    (h : ofFailure name e input = .error failure) : failure.IsOwn := by
  unfold ofFailure at h
  split at h
  · cases h
  · simp only [Except.error.injEq] at h
    exact h ▸ trivial

namespace BranchAction

theorem isOwn_ofDescriptor {fields : Fields} {context : Json} {e : Failure}
    (h : ofDescriptor fields context = .error e) : e.IsOwn := by
  unfold ofDescriptor at h
  split at h
  · simp only [Except.error.injEq] at h
    exact h ▸ trivial
  · exact Failure.isOwn_of_mapError h fun _ => trivial

theorem named_apply (descriptor context input : Json) :
    (apply descriptor context input).Named := by
  unfold apply
  split
  · exact .pure _
  · split
    · refine (Named.ofExcept fun e h => (isOwn_ofDescriptor h).kind_ne).bind fun found => ?_
      split
      · refine (Named.attempt _).bind fun result => ?_
        split
        · exact .pure _
        · exact .ofExcept fun e h => (StepResult.isOwn_ofFailure h).kind_ne
      · exact .pure _
    · exact .fail (Failure.IsOwn.kind_ne trivial)

end BranchAction

theorem Enrichment.isOwn_provider? {name : Json} {e : Failure}
    (h : provider? name = .error e) : e.IsOwn := by
  cases name <;> simp only [provider?, lookupKey, Except.map, Except.error.injEq, reduceCtorEq] at h
  · exact h ▸ trivial
  · exact h ▸ trivial

theorem Enrichment.named_credentials (p : Provider) : (credentials p).Named := by
  refine Named.office.bind fun office => ?_
  extract_lets goOn
  have hk : ∀ stored, (goOn stored).Named := by
    intro stored
    dsimp only [goOn]
    split <;> exact .pure _
  split
  · refine (Named.query _ fun store e h => ?_).bind hk
    split at h
    · simp at h
    · simp at h
    · simp only [Except.error.injEq] at h
      exact h ▸ Failure.IsOwn.kind_ne trivial
  · exact (Named.pure _).bind hk

namespace ToolStep

theorem named_absence (config : Fields) : (absence config).Named := by
  refine (Named.ofExcept fun e h => (Enrichment.isOwn_provider? h).kind_ne).bind fun found => ?_
  split
  · exact ((Enrichment.named_credentials _).bind fun _ => .pure _).bind fun _ => .pure _
  · exact .pure _

theorem isOwn_concluded {name : Json} {input : Option Json} {called : Except Failure StepResult}
    {e : Failure} (h : concluded name input called = .error e) : e.IsOwn := by
  cases called with
  | ok result => cases h
  | error failure => exact StepResult.isOwn_ofFailure h

theorem named_run (config : Fields) (context : Json) : (run config context).Named := by
  unfold run
  split
  · exact .fail (Failure.IsOwn.kind_ne trivial)
  · exact (Named.attempt _).bind fun called =>
      (Named.ofExcept fun e h => (isOwn_concluded h).kind_ne).bind fun result =>
        Named.added.bind fun added => .pure _

end ToolStep

namespace ModelClient

/-- What is no answer fails with a failure of the desk's own. -/
theorem yields_ask (call : Fields) :
    (ask call).Yields fun taken => ∀ e, taken = .error e → e.IsOwn := by
  refine .bind fun reply => ?_
  split
  · exact .pure nofun
  · rename_i e own
    refine .pure fun e' h => ?_
    obtain rfl := Except.error.inj h
    exact own
  · exact .fail _
  · intro o d taken h
    simp only [Action.hang] at h
    split at h <;> simp at h

/-- Trouble with a call is a failure of the model, and what is no answer one of the desk. -/
theorem named_complete (c : ModelClient) (prompt maxTokens tier : Json) :
    (c.complete prompt maxTokens tier).Named := by
  intro o d e h
  unfold complete at h
  rcases hrun : (Action.attempt (c.reply prompt maxTokens tier)).run o d with
    ⟨result | failure | level, m⟩
  · rw [Action.run_bind_of_done hrun] at h
    split at h
    · cases h
    · rename_i own
      have hown := Yields.within c.limit (yields_ask _) o d _
        (congrArg Prod.fst (Action.run_attempt_eq_ok.1 hrun)) _ rfl
      simp only [Action.run_fail, Ending.failed.injEq] at h
      exact h ▸ (hown _ rfl).kind_ne
    · simp only [Action.run_fail, Ending.failed.injEq] at h
      exact h ▸ by simp [timeout, Failure.kind]
    · simp only [Action.run_fail, Ending.failed.injEq] at h
      exact h ▸ by simp [kind_failureOf]
  · exact absurd (congrArg Prod.fst hrun) (Action.attempt_ne_failed _ o d failure)
  · rw [Action.run_bind_of_cut hrun] at h
    cases h

end ModelClient

namespace PromptStep

theorem isOwn_outputOf {config : Fields} {content : Json} {e : Failure}
    (h : outputOf config content = .error e) : e.IsOwn := by
  unfold outputOf at h
  split at h
  · split at h
    · cases h
    · exact Except.error.inj h ▸ trivial
  · cases h

theorem isOwn_resultOf {config : Fields} {input : Json} {answer : ModelAnswer} {e : Failure}
    (h : resultOf config input answer = .error e) : e.IsOwn := by
  unfold resultOf at h
  cases ho : outputOf config answer.content with
  | error fault =>
    rw [ho] at h
    exact Except.error.inj h ▸ isOwn_outputOf ho
  | ok output =>
    cases hm : modelName answer.model with
    | error fault =>
      rw [ho, hm] at h
      exact Except.error.inj h ▸ Failure.isOwn_of_mapError hm fun _ => trivial
    | ok model =>
      simp only [ho, hm, bind, Except.bind] at h
      split at h <;> simp [pure, Except.pure] at h

theorem named_run (config : Fields) (context : Json) : (run config context).Named := by
  unfold run
  dsimp only
  split
  · exact .fail (Failure.IsOwn.kind_ne trivial)
  · refine Named.settings.bind fun settings => ?_
    refine (Named.attempt _).bind_of
      (.attempt_named (ModelClient.named_complete _ _ _ _)) fun result hresult => ?_
    split
    · exact .ofExcept fun e h => (isOwn_resultOf h).kind_ne
    · exact .pure _
    · exact .fail (hresult _ rfl)

end PromptStep

namespace ConditionStep

theorem isOwn_matched {condition context : Json} {e : Failure}
    (h : matched condition context = .error e) : e.IsOwn := by
  unfold matched at h
  split at h
  · simp at h
  · split at h
    · simp at h
    · simp only [Except.error.injEq] at h
      exact h ▸ trivial

theorem named_run (config : Fields) (context : Json) : (run config context).Named := by
  refine (Named.ofExcept fun e h => (isOwn_matched h).kind_ne).bind fun outcome => ?_
  refine (Named.ofExcept fun e h => ?_).bind fun shown => BranchAction.named_apply _ _ _
  exact (Failure.isOwn_of_mapError h fun _ => trivial).kind_ne

end ConditionStep

namespace BranchStep

theorem isOwn_branches {config : Fields} {e : Failure} (h : branches config = .error e) :
    e.IsOwn := by
  unfold branches at h
  split at h <;> simp only [Except.error.injEq, reduceCtorEq] at h
  exact h ▸ trivial

theorem isOwn_firstMatch {context : Json} {bs : List Json} {e : Failure} :
    ∀ {index}, firstMatch context index bs = .error e → e.IsOwn := by
  induction bs with
  | nil =>
    intro index h
    simp [firstMatch] at h
  | cons v rest ih =>
    intro index h
    cases v with
    | object fields =>
      simp only [firstMatch] at h
      split at h
      · rename_i hm
        simp only [Except.error.injEq] at h
        exact h ▸ ConditionStep.isOwn_matched hm
      · simp at h
      · exact ih h
    | null | bool _ | int _ | float _ | string _ | array _ =>
      simp only [firstMatch, Except.error.injEq] at h
      exact h ▸ trivial

theorem named_run (config : Fields) (context : Json) : (run config context).Named := by
  refine (Named.ofExcept fun e h => (isOwn_branches h).kind_ne).bind fun all => ?_
  refine (Named.ofExcept fun e h => (isOwn_firstMatch h).kind_ne).bind fun found => ?_
  split
  · exact BranchAction.named_apply _ _ _
  · exact .pure _

end BranchStep

namespace WorkflowStep

theorem named_absence (s : WorkflowStep) : s.absence.Named := by
  unfold absence
  cases s.action
  · exact ToolStep.named_absence _
  · refine Named.settings.bind fun settings => ?_
    dsimp only
    split <;> exact .pure _
  · exact .pure _
  · exact .pure _

theorem named_run (s : WorkflowStep) (context : Json) : (s.run context).Named := by
  unfold run
  cases s.action
  · exact ToolStep.named_run _ _
  · exact PromptStep.named_run _ _
  · exact ConditionStep.named_run _ _
  · exact BranchStep.named_run _ _

theorem named_carryOut (s : WorkflowStep) (context : Json) : (s.carryOut context).Named := by
  refine s.named_absence.bind fun found => ?_
  split
  · exact .pure _
  · exact s.named_run _

end WorkflowStep

/-- Whatever is wrong with the guards or the action of a step has a name. -/
theorem Course.named_resultOf (s : WorkflowStep) (context : Fields) :
    (resultOf s context).Named := by
  refine (Named.ofExcept fun e h => ?_).bind fun holds => ?_
  · exact (Failure.isOwn_of_mapError h fun _ => trivial).kind_ne
  · split
    · exact (s.named_carryOut _).bind fun _ => .pure _
    · exact .pure _

/-! ## The results of steps are sound -/

/-- The tokens that an answer of a language model has used. -/
def ModelReply.tokens? : ModelReply → Option Int
  | .answer _ usage => some (ModelClient.tokensOf usage)
  | .garbled .. | .broken _ | .never => none

/-- The number is the count of tokens of an answer that is still to come. -/
def Script.Counts (s : Script) (n : Int) : Prop := ∃ reply ∈ s.model, reply.tokens? = some n

namespace StepResult

/-- A result of which a run can make use: a success has an output and does not show as a failure,
and only a step that completed asks for a stop. -/
structure Sound (r : StepResult) : Prop where
  output : r.success = true → r.output.isSome = true
  notFailed : r.success = true → r.logStatus ≠ .failed
  stop : r.stop = true → r.logStatus = .completed

/-- The result of a step that was carried out: the step was neither skipped nor out of reach. The
tokens it has used are one of some counts. -/
structure Actual (counts : Int → Prop) (r : StepResult) : Prop where
  output : r.success = true → r.output.isSome = true
  stop : r.stop = true → r.success = true
  status : r.status = none
  unavailable : r.unavailable = false
  tokens : ∀ n, r.tokensUsed = some n → counts n

/-- The result of a step whose capability is not set up: a failure, or a step that the log shows
as skipped. -/
structure Absent (r : StepResult) : Prop where
  output : r.success = true → r.output.isSome = true
  status : r.success = true → r.logStatus = .skipped
  stop : r.stop = false
  unavailable : r.unavailable = true
  tokens : r.tokensUsed = none

variable {r : StepResult} {counts : Int → Prop}

theorem Actual.sound (h : r.Actual counts) : r.Sound where
  output := h.output
  notFailed hs := by simp [logStatus, hs, h.status]
  stop hs := by simp [logStatus, h.stop hs, h.status]

theorem Actual.mono {more : Int → Prop} (h : r.Actual counts) (hm : ∀ n, counts n → more n) :
    r.Actual more := { h with tokens := fun n hn => hm n (h.tokens n hn) }

theorem Absent.sound (h : r.Absent) : r.Sound where
  output := h.output
  notFailed hs := by simp [h.status hs]
  stop hs := by simp [h.stop] at hs

theorem actual_fail (error : String) (input : Option Json) :
    (StepResult.fail error input).Actual counts :=
  ⟨by simp [StepResult.fail], by simp [StepResult.fail], rfl, rfl, by simp [StepResult.fail]⟩

theorem actual_of_ofFailure {name : Json} {e : Failure} {input : Option Json}
    (h : ofFailure name e input = .ok r) : r.Actual counts := by
  unfold ofFailure at h
  split at h
  · simp only [Except.ok.injEq] at h
    exact h ▸ actual_fail _ _
  · cases h

end StepResult

open StepResult (Actual Absent)

/-- No count of tokens. -/
def noCount (_ : Int) : Prop := False

theorem BranchAction.actual_nothing (input : Json) : (nothing input).Actual noCount :=
  ⟨by simp [nothing], by simp [nothing], rfl, rfl, by simp [nothing]⟩

theorem BranchAction.actual_resultOf (a : BranchAction) (output input : Json) :
    (a.resultOf output input).Actual noCount := by
  dsimp only [resultOf]
  split
  · split
    · exact StepResult.actual_fail _ _
    · exact ⟨by simp, by simp, rfl, rfl, by simp⟩
  · exact ⟨by simp, by simp, rfl, rfl, by simp⟩

theorem BranchAction.yields_apply (descriptor context input : Json) :
    (apply descriptor context input).Yields (Actual noCount) := by
  unfold apply
  split
  · exact .pure (actual_nothing _)
  · split
    · refine .bind fun found => ?_
      split
      · refine .bind fun result => ?_
        split
        · exact .pure (actual_resultOf _ _ _)
        · exact .ofExcept fun r h => StepResult.actual_of_ofFailure h
      · exact .pure (actual_nothing _)
    · exact .fail _

namespace ToolStep

theorem actual_resultOf (output : Json) (input : Option Json) :
    (resultOf output input).Actual noCount :=
  ⟨by simp [resultOf], by simp [resultOf], rfl, rfl, by simp [resultOf]⟩

theorem actual_of_request {input : Fields} {r : StepResult} (h : request input = .ok r) :
    r.Actual noCount := by
  unfold request at h
  split at h
  · simp only [Except.ok.injEq] at h
    exact h ▸ StepResult.actual_fail _ _
  · cases he : emission input <;> rw [he] at h
    · simp [bind, Except.bind] at h
    · simp only [bind, Except.bind, pure, Except.pure, Except.ok.injEq] at h
      exact h ▸ ⟨by simp, by simp, rfl, rfl, by simp⟩

theorem yields_call (name : Json) (input : Option Json) :
    (call name input).Yields (Actual noCount) := by
  unfold call
  split
  · refine .ofExcept fun r h => ?_
    cases hi : requestInput input <;> rw [hi] at h
    · simp [bind, Except.bind] at h
    · exact actual_of_request h
  · refine .bind fun found => ?_
    split <;> exact .bind fun v => .pure (actual_resultOf _ _)

theorem actual_settled {r : StepResult} {counts : Int → Prop} (name : Json)
    (input : Option Json) (added : List Json) (h : r.Actual counts) :
    (settled r name input added).Actual counts := by
  unfold settled
  split
  · exact ⟨h.output, h.stop, h.status, h.unavailable, h.tokens⟩
  · exact h

/-- A call that has come to an end comes to a result of its own or to the failure of the call. -/
theorem run_eq_done {config : Fields} {context : Json} {o : Office} {d e : Desk} {r : StepResult}
    (h : (run config context).run o d = (.done r, e)) :
    ∃ input called result, Template.resolveData context (mapping config) = .ok input ∧
      (Action.attempt (call (toolName config) input)).run o d = (.done called, e) ∧
      concluded (toolName config) input called = .ok result ∧
      r = settled result (toolName config) input e.added := by
  unfold run at h
  split at h
  · simp at h
  · rename_i input hinput
    obtain ⟨called, m, hcalled, h⟩ := Action.run_bind_eq_done.1 h
    obtain ⟨result, m', hended, h⟩ := Action.run_bind_eq_done.1 h
    obtain ⟨hresult, rfl⟩ := Action.run_ofExcept_eq_done.1 hended
    rw [Action.run_bind_of_done (Action.run_added o m)] at h
    obtain ⟨rfl, rfl⟩ := Action.run_pure_eq_done.1 h
    exact ⟨input, called, result, hinput, hcalled, hresult, rfl⟩

/-- What holds of the results of calls and of failures, and does not depend on what was added to
lists, holds of the results of steps. -/
theorem yields_run_of {P : StepResult → Prop} (hcall : ∀ name input, (call name input).Yields P)
    (hfailure : ∀ {name e input r}, StepResult.ofFailure name e input = .ok r → P r)
    (hsettled : ∀ {r} name input added, P r → P (settled r name input added)) (config : Fields)
    (context : Json) :
    (run config context).Yields P := by
  intro o d r h
  obtain ⟨input, called, result, -, hcalled, hresult, rfl⟩ := run_eq_done (Prod.ext h rfl)
  refine hsettled _ _ _ ?_
  cases called with
  | ok own =>
    obtain rfl := Except.ok.inj hresult
    exact hcall _ _ o d own (by rw [Action.run_attempt_eq_ok.1 hcalled])
  | error failure => exact hfailure hresult

theorem yields_run (config : Fields) (context : Json) :
    (run config context).Yields (Actual noCount) :=
  yields_run_of yields_call StepResult.actual_of_ofFailure actual_settled config context

end ToolStep

theorem BranchStep.yields_run (config : Fields) (context : Json) :
    (run config context).Yields (Actual noCount) := by
  refine .bind fun all => .bind fun found => ?_
  split
  · exact BranchAction.yields_apply _ _ _
  · exact .pure ⟨by simp [noMatch], by simp [noMatch], rfl, rfl, by simp [noMatch]⟩

/-- A reply of the language model is taken from the script. -/
theorem Action.mem_script_of_callModel {call : Fields} {o : Office} {d e : Desk}
    {reply : ModelReply} (h : (callModel call).run o d = (.done reply, e)) :
    reply ∈ d.script.model := by
  obtain ⟨⟨⟩, m₁, h₁, h⟩ := run_bind_eq_done.1 h
  obtain ⟨⟨⟩, m₂, h₂, h⟩ := run_bind_eq_done.1 h
  obtain ⟨found, m₃, h₃, h⟩ := run_bind_eq_done.1 h
  have hs₁ := ((Tame.note _).quiet_of_run h₁).model
  have hs₂ := (Tame.await.quiet_of_run h₂).model
  refine (hs₂.trans hs₁).mem ?_
  simp only [nextModel] at h₃
  split at h₃
  · simp only [Prod.mk.injEq, Ending.done.injEq] at h₃
    rw [← h₃.1] at h
    simp at h
  · rename_i r rest hm
    simp only [Prod.mk.injEq, Ending.done.injEq] at h₃
    rw [← h₃.1] at h
    simp only [run_pure, Prod.mk.injEq, Ending.done.injEq] at h
    rw [hm, h.1]
    exact List.mem_cons_self

namespace ModelClient

/-- The tokens of an answer are those of a reply in the script. -/
theorem counts_of_complete {c : ModelClient} {prompt maxTokens tier : Json} {o : Office}
    {d e : Desk} {answer : ModelAnswer}
    (h : (c.complete prompt maxTokens tier).run o d = (.done answer, e)) :
    d.script.Counts answer.tokens := by
  obtain ⟨result, m, hr, h⟩ := Action.run_bind_eq_done.1 h
  split at h
  · rename_i content tokens
    obtain ⟨rfl, _⟩ := Action.run_pure_eq_done.1 h
    obtain ⟨o', hr⟩ := Action.run_within_eq_some (Action.run_attempt_eq_ok.1 hr)
    obtain ⟨reply, m', hc, ha⟩ := Action.run_bind_eq_done.1 hr
    refine ⟨reply, Action.mem_script_of_callModel hc, ?_⟩
    cases reply with
    | answer content usage =>
      obtain ⟨ha, _⟩ := Action.run_pure_eq_done.1 ha
      simp only [Except.ok.injEq, Prod.mk.injEq] at ha
      simp [ModelReply.tokens?, ha.2]
    | garbled failure own => simp at ha
    | broken failure => simp at ha
    | never =>
      simp only [Action.hang] at ha
      split at ha <;> simp at ha
  · simp at h
  · simp at h
  · simp at h

end ModelClient

/-- The result of an answer is a success with its output, or a failure that shows its content. -/
theorem PromptStep.resultOf_cases {config : Fields} {input : Json} {answer : ModelAnswer}
    {r : StepResult} (h : resultOf config input answer = .ok r) :
    ∃ model,
      (∃ output, r = {
        success := true, output := some output, input := some input
        tokensUsed := some answer.tokens, modelUsed := model }) ∨
      ∃ message, r = {
        success := false, output := some answer.content, error := some message
        input := some input, tokensUsed := some answer.tokens, modelUsed := model } := by
  unfold resultOf at h
  cases ho : outputOf config answer.content with
  | error fault => simp [ho, bind, Except.bind] at h
  | ok output =>
    cases hm : modelName answer.model with
    | error fault => simp [ho, hm, bind, Except.bind] at h
    | ok model =>
      simp only [ho, hm, bind, Except.bind, pure, Except.pure] at h
      split at h
      · exact ⟨model, .inl ⟨_, (Except.ok.inj h).symm⟩⟩
      · exact ⟨model, .inr ⟨_, (Except.ok.inj h).symm⟩⟩

theorem PromptStep.actual_of_resultOf {config : Fields} {input : Json} {answer : ModelAnswer}
    {r : StepResult} (h : resultOf config input answer = .ok r) :
    r.Actual (· = answer.tokens) := by
  obtain ⟨model, ⟨output, rfl⟩ | ⟨message, rfl⟩⟩ := resultOf_cases h
  · exact ⟨by simp, by simp, rfl, rfl, by simp [eq_comm]⟩
  · exact ⟨by simp, by simp, rfl, rfl, by simp [eq_comm]⟩

theorem PromptStep.actual_of_run {config : Fields} {context : Json} {o : Office} {d e : Desk}
    {r : StepResult} (h : (run config context).run o d = (.done r, e)) :
    r.Actual d.script.Counts := by
  dsimp only [run] at h
  split at h
  · simp at h
  · obtain ⟨settings, m, hs, h⟩ := Action.run_bind_eq_done.1 h
    simp only [Action.settings, Prod.mk.injEq, Ending.done.injEq] at hs
    obtain ⟨result, m', hr, h⟩ := Action.run_bind_eq_done.1 h
    split at h
    · rename_i answer
      have hc := ModelClient.counts_of_complete (Action.run_attempt_eq_ok.1 hr)
      rw [← hs.2] at hc
      have ha := actual_of_resultOf (Action.run_ofExcept_eq_done.1 h).1
      exact ha.mono fun n hn => hn ▸ hc
    · obtain ⟨rfl, _⟩ := Action.run_pure_eq_done.1 h
      exact StepResult.actual_fail _ _
    · simp at h

namespace WorkflowStep

/-- The result of a step that is carried out is actual, and its tokens are those of a reply in the
script. -/
theorem actual_of_run {s : WorkflowStep} {context : Json} {o : Office} {d e : Desk}
    {r : StepResult} (h : (s.run context).run o d = (.done r, e)) :
    r.Actual d.script.Counts := by
  have hd : ((s.run context).run o d).1 = .done r := by rw [h]
  have hn : ∀ n, noCount n → d.script.Counts n := fun _ h => h.elim
  unfold run at h hd
  cases hs : s.action <;> simp only [hs] at h hd
  · exact (ToolStep.yields_run _ _ o d r hd).mono hn
  · exact PromptStep.actual_of_run h
  · have hy : (ConditionStep.run s.config context).Yields (Actual noCount) :=
      .bind fun _ => .bind fun _ => BranchAction.yields_apply _ _ _
    exact (hy o d r hd).mono hn
  · exact (BranchStep.yields_run _ _ o d r hd).mono hn

/-- What is laid down for a step that is out of reach says so. -/
theorem yields_absence (s : WorkflowStep) :
    s.absence.Yields fun found => ∀ r, found = some r → r.Absent := by
  unfold absence
  cases s.action
  · refine .bind fun found => ?_
    split
    · refine .bind fun isAvailable => .pure fun r h => ?_
      split at h
      · simp at h
      · simp only [Option.some.injEq] at h
        subst h
        exact ⟨by simp [StepResult.notConfigured], by simp [StepResult.notConfigured],
          rfl, rfl, rfl⟩
    · exact .pure (by simp)
  · refine .bind fun settings => ?_
    dsimp only
    split
    · exact .pure (by simp)
    · refine .pure fun r h => ?_
      simp only [Option.some.injEq] at h
      subst h
      exact ⟨by simp [StepResult.skip], by simp [StepResult.skip, StepResult.logStatus],
        rfl, rfl, rfl⟩
  · exact .pure (by simp)
  · exact .pure (by simp)

end WorkflowStep

/-- To name a failure otherwise makes no value. -/
theorem ok_of_mapError {α ε ε' : Type} {x : Except ε α} {f : ε → ε'} {a : α}
    (h : x.mapError f = .ok a) : x = .ok a := by
  cases x with
  | error fault => cases h
  | ok b =>
    have hb : b = a := Except.ok.inj h
    rw [hb]

namespace Course

/-- A step whose guards do not hold does nothing at all. -/
theorem run_resultOf_eq_none {s : WorkflowStep} {context : Fields} {o : Office} {d e : Desk}
    (h : (resultOf s context).run o d = (.done none, e)) :
    Guard.allHold (.object context) s.guards = .ok false ∧ e = d := by
  obtain ⟨holds, m, hg, h⟩ := Action.run_bind_eq_done.1 h
  obtain ⟨hk, rfl⟩ := Action.run_ofExcept_eq_done.1 hg
  split at h
  · obtain ⟨r, m', _, h⟩ := Action.run_bind_eq_done.1 h
    simp at h
  · rename_i hb
    simp only [Bool.not_eq_true] at hb
    exact ⟨hb ▸ ok_of_mapError hk, (Action.run_pure_eq_done.1 h).2.symm⟩

/-- A step with a result has guards that hold, and its result is laid down for it or comes from
its action. -/
theorem run_resultOf_eq_some {s : WorkflowStep} {context : Fields} {o : Office} {d e : Desk}
    {r : StepResult} (h : (resultOf s context).run o d = (.done (some r), e)) :
    Guard.allHold (.object context) s.guards = .ok true ∧
      (s.absence.run o d = (.done (some r), e) ∧ r.Absent ∨
        ∃ m, s.absence.run o d = (.done none, m) ∧
          (s.run (.object context)).run o m = (.done r, e) ∧ r.Actual m.script.Counts) := by
  obtain ⟨holds, m, hg, h⟩ := Action.run_bind_eq_done.1 h
  obtain ⟨hk, rfl⟩ := Action.run_ofExcept_eq_done.1 hg
  split at h
  · rename_i hb
    refine ⟨hb ▸ ok_of_mapError hk, ?_⟩
    obtain ⟨r', m', hc, h⟩ := Action.run_bind_eq_done.1 h
    obtain ⟨hr, rfl⟩ := Action.run_pure_eq_done.1 h
    simp only [Option.some.injEq] at hr
    subst hr
    obtain ⟨found, m'', hf, hc⟩ := Action.run_bind_eq_done.1 hc
    cases found with
    | some r'' =>
      obtain ⟨rfl, rfl⟩ := Action.run_pure_eq_done.1 hc
      exact .inl ⟨hf, s.yields_absence o d _ (by rw [hf]) _ rfl⟩
    | none => exact .inr ⟨m'', hf, hc, WorkflowStep.actual_of_run hc⟩
  · obtain ⟨hr, _⟩ := Action.run_pure_eq_done.1 h
    simp at hr

variable {s : WorkflowStep} {context : Fields} {o : Office} {d e : Desk} {r : StepResult}

theorem sound_of_resultOf (h : (resultOf s context).run o d = (.done (some r), e)) :
    r.Sound := by
  obtain ⟨_, ⟨_, hr⟩ | ⟨_, _, _, hr⟩⟩ := run_resultOf_eq_some h
  · exact hr.sound
  · exact hr.sound

theorem counts_of_resultOf (h : (resultOf s context).run o d = (.done (some r), e)) {n : Int}
    (hn : r.tokensUsed = some n) : d.script.Counts n := by
  obtain ⟨_, ⟨_, hr⟩ | ⟨m, ha, _, hr⟩⟩ := run_resultOf_eq_some h
  · simp [hr.tokens] at hn
  · obtain ⟨reply, hm, ht⟩ := hr.tokens n hn
    exact ⟨reply, (s.tame_absence.quiet_of_run ha).model.mem hm, ht⟩

end Course

end LeadDesk
