import LeadDesk.Proofs.Account
/-!
# The log of a run agrees with its outcome

Where logging does not fail, the log of a run shows the steps that were reached, one row each and
in their order; the rows tell how many steps were carried out, and how the run ended. The record
of the run says what its outcome says (`Workflow.auditTrail`).
-/

namespace LeadDesk

/-! ## What a story tells -/

namespace Entry

variable {e : Entry} {p : Progress}

/-- The log shows that the step failed, and the failure is not tolerated. -/
def isFatal (e : Entry) : Bool := e.shown.logStatus == .failed && e.step.onFailure == .stop

/-- An entry that is fatal has a result that is no success. -/
theorem result_of_isFatal (hs : e.IsSound) (h : e.isFatal = true) :
    ∃ r, e.result = some r ∧ r.success = false ∧ e.step.onFailure = .stop := by
  simp only [isFatal, shown, Bool.and_eq_true, beq_iff_eq] at h
  obtain ⟨hf, hpol⟩ := h
  cases hr : e.result with
  | none => simp [hr, StepResult.skip, StepResult.logStatus] at hf
  | some r =>
    simp only [hr, Option.getD_some] at hf
    refine ⟨r, rfl, ?_, hpol⟩
    by_contra hsucc
    simp only [Bool.not_eq_false] at hsucc
    exact (hs r hr).notFailed hsucc hf

/-- A fatal entry ends its run, with an error. -/
theorem error_of_isFatal (hs : e.IsSound) (h : e.isFatal = true) (p : Progress) :
    e.ends = true ∧ (e.effect p).error.isSome = true := by
  obtain ⟨r, hr, hsucc, hpol⟩ := result_of_isFatal hs h
  simp [ends, effect, hr, hsucc, hpol, Progress.fail]

/-- An entry that ends its run lets it fail or stops it. -/
theorem effect_of_ends (h : e.ends = true) (p : Progress) :
    (∃ r, e.result = some r ∧ r.stop = true ∧ (e.effect p).stopped = true) ∨
      ∃ r, e.result = some r ∧ (e.effect p).error = some (Progress.stepError e.step r) := by
  unfold ends at h
  cases hr : e.result with
  | none => simp [hr] at h
  | some r =>
    simp only [hr] at h
    split at h
    · rename_i hs
      refine .inl ⟨r, rfl, h, ?_⟩
      cases he : e.emitted <;> simp [effect, hr, hs, he, Progress.succeed, Progress.emit, h]
    · rename_i hs
      refine .inr ⟨r, rfl, ?_⟩
      simp only [beq_iff_eq] at h
      simp [effect, hr, hs, h, Progress.fail]

/-- An error that an entry leaves says something if the one before it does. -/
theorem error_effect_ne (e : Entry) (hp : p.error ≠ some "") : (e.effect p).error ≠ some "" := by
  have hstep : ∀ r, Progress.stepError e.step r ≠ "" := by
    intro r h
    unfold Progress.stepError at h
    split at h
    · exact absurd (String.append_eq_empty_iff.1 h).2 (by decide)
    · exact absurd (String.append_eq_empty_iff.1 h).2 (by decide)
    · rename_i message hne herr
      exact hne h
  unfold effect
  cases hr : e.result with
  | none => exact hp
  | some r =>
    have hcount : ((e.lengthen p).count r).error = p.error := by simp
    dsimp only
    split
    · cases e.emitted <;> exact hcount ▸ hp
    · cases e.step.onFailure with
      | goOn => exact hcount ▸ hp
      | stop => simp [Progress.fail, hstep]

/-- An entry counts when the log does not show its step as skipped. -/
theorem executed_effect (e : Entry) (p : Progress) :
    (e.effect p).executed = p.executed + if e.shown.logStatus != .skipped then 1 else 0 := by
  have hc : ∀ r : StepResult, ((e.lengthen p).count r).executed =
      p.executed + if r.logStatus != .skipped then 1 else 0 := by
    intro r
    unfold Progress.count
    by_cases h : r.logStatus = .skipped <;> simp [h]
  unfold effect shown
  cases hr : e.result with
  | none => simp [StepResult.skip, StepResult.logStatus]
  | some r =>
    dsimp only
    split
    · cases e.emitted <;> exact hc r
    · cases e.step.onFailure <;> exact hc r

end Entry

namespace Story

variable {mayFail : Prop} {ss : List WorkflowStep} {p q : Progress} {es : List Entry}
  {begun : Option Entry} {halt : Option Halt}

/-- Where logging does not fail, the steps that count are those that the log does not show as
skipped. -/
theorem executed_eq (h : Story False ss p es begun q halt) :
    q.executed = p.executed + (es.filter fun e => e.shown.logStatus != .skipped).length := by
  induction h with
  | finished | broken | cut => simp
  | unlogged _ _ _ h => exact h.elim
  | next e seen goesOn more ih =>
    rw [ih, e.executed_effect, List.filter_cons]
    split
    · simp only [List.length_cons]
      omega
    · simp
  | last e | unsent e =>
    rw [e.executed_effect, List.filter_cons]
    split <;> simp

/-- A fatal entry is the last one, and lets the run fail. -/
theorem last_of_isFatal (h : Story mayFail ss p es begun q halt) (hs : ∀ e ∈ es, e.IsSound)
    {i : Nat}
    {e : Entry} (hi : es[i]? = some e) (hf : e.isFatal = true) :
    i + 1 = es.length ∧ halt = none ∧ q.error.isSome = true := by
  induction h generalizing i with
  | finished | broken | cut | unlogged => simp at hi
  | next e' seen goesOn more ih =>
    cases i with
    | zero =>
      obtain rfl : e' = e := by simpa using hi
      have he := (Entry.error_of_isFatal (hs _ List.mem_cons_self) hf default).1
      simp [goesOn] at he
    | succ i =>
      have hl := ih (fun e he => hs e (List.mem_cons_of_mem _ he)) (by simpa using hi)
      simpa using hl
  | last e' rest seen ends =>
    obtain ⟨rfl, rfl⟩ : i = 0 ∧ e' = e := by
      cases i <;> simp_all
    exact ⟨rfl, rfl, (Entry.error_of_isFatal (hs _ List.mem_cons_self) hf _).2⟩
  | unsent e' rest halt seen result success =>
    obtain ⟨rfl, rfl⟩ : i = 0 ∧ e' = e := by
      cases i <;> simp_all
    obtain ⟨r, hr, hsucc, _⟩ := Entry.result_of_isFatal (hs _ List.mem_cons_self) hf
    obtain rfl : r = _ := Option.some.inj (hr.symm.trans result)
    simp [success] at hsucc

/-- A run that is neither halted nor failed nor stopped has reached all of its steps. -/
theorem steps_eq (h : Story mayFail ss p es begun q none) (he : q.error = none)
    (hs : q.stopped = false) : es.map Entry.step = ss := by
  generalize hh : none = halt at h
  induction h with
  | finished => rfl
  | broken | cut | unlogged | unsent => simp at hh
  | next e seen goesOn more ih => rw [List.map_cons, ih he hs hh]
  | @last e rest p seen ends =>
    obtain ⟨r, _, _, hstop⟩ | ⟨r, _, herr⟩ := Entry.effect_of_ends ends p
    · simp [hstop] at hs
    · simp [herr] at he

/-- The last entry of a run that is stopped asks for that. -/
theorem last_of_stopped (h : Story mayFail ss p es begun q none) (hp : p.stopped = false)
    (he : q.error = none) (hs : q.stopped = true) :
    ∃ e r, es.getLast? = some e ∧ e.result = some r ∧ r.stop = true := by
  generalize hh : none = halt at h
  induction h with
  | finished => simp [hp] at hs
  | broken | cut | unlogged | unsent => simp at hh
  | next e seen goesOn more ih =>
    obtain ⟨last, r, hlast, hr⟩ := ih (e.stopped_effect hp goesOn) he hs hh
    refine ⟨last, r, ?_, hr⟩
    rw [List.getLast?_cons, hlast]
    rfl
  | @last e rest p seen ends =>
    obtain ⟨r, hr, hstop, _⟩ | ⟨r, _, herr⟩ := Entry.effect_of_ends ends p
    · exact ⟨e, r, rfl, hr, hstop⟩
    · simp [herr] at he

/-- The error of a run, if it has one, says something. -/
theorem error_ne (h : Story mayFail ss p es begun q halt) (hp : p.error ≠ some "") :
    q.error ≠ some "" := by
  induction h with
  | finished | broken | cut => exact hp
  | unlogged e rest => rwa [Progress.error_count]
  | next e seen goesOn more ih => exact ih (e.error_effect_ne hp)
  | last e | unsent e => exact e.error_effect_ne hp

end Story

/-- A run has failed exactly when it has an error, and that says something. -/
theorem Workflow.failed_iff_error {mayFail : Prop} {ss : List WorkflowStep} {p q : Progress}
    {es : List Entry} {begun : Option Entry} {halt : Option Halt}
    (h : Story mayFail ss p es begun q halt)
    (hp : p.error = none) (hn : ∀ h, halt = some h → h.IsNamed) (limit : Limit) :
    (ended limit (q, halt)).status = .failed ↔
      ∃ message, (ended limit (q, halt)).error = some message ∧ message ≠ "" := by
  rw [Progress.status_eq_failed_iff, Option.isSome_iff_exists]
  refine ⟨?_, fun ⟨message, hm, _⟩ => ⟨message, hm⟩⟩
  rintro ⟨message, hm⟩
  refine ⟨message, hm, ?_⟩
  rintro rfl
  cases halt with
  | none => exact h.error_ne (by simp [hp]) hm
  | some halt =>
    simp only [ended, Progress.fail, Option.some.injEq] at hm
    exact (hn halt rfl).message_ne limit hm

/-! ## The rows of a log -/

theorem Workflow.orderedSteps_ascending (w : Workflow) :
    w.orderedSteps.Pairwise (·.order ≤ ·.order) := by
  have hs : w.orderedSteps.Pairwise fun a b => decide (a.order ≤ b.order) = true := by
    refine List.pairwise_mergeSort (fun a b c hab hbc => ?_) (fun a b => ?_) w.steps
    · simp only [decide_eq_true_eq] at hab hbc ⊢
      omega
    · simp only [Bool.or_eq_true, decide_eq_true_eq]
      omega
  exact hs.imp fun hab => of_decide_eq_true hab

/-- Steps with different orders are carried out by strictly ascending order. -/
theorem Workflow.orderedSteps_strict {w : Workflow} (h : (w.steps.map (·.order)).Nodup) :
    w.orderedSteps.Pairwise (·.order < ·.order) := by
  have hne : w.orderedSteps.Pairwise (·.order ≠ ·.order) := by
    have hn := (w.orderedSteps_perm.map WorkflowStep.order).nodup_iff.2 h
    exact List.pairwise_map.1 hn
  refine (w.orderedSteps_ascending.and hne).imp fun ⟨ha, hb⟩ => ?_
  omega

/-- Lists that agree member by member have the same image. -/
theorem map_eq_map_of_forall₂ {α β γ : Type} {R : α → β → Prop} {f : α → γ} {g : β → γ}
    (h : ∀ a b, R a b → f a = g b) {as : List α} {bs : List β} (hl : List.Forall₂ R as bs) :
    as.map f = bs.map g := by
  induction hl with
  | nil => rfl
  | cons hab _ ih => rw [List.map_cons, List.map_cons, h _ _ hab, ih]

/-- Rows by strictly ascending order are read as they were written. -/
theorem RunLog.mergeSort_eq {rows : List RunLog}
    (h : rows.Pairwise (·.stepOrder < ·.stepOrder)) :
    rows.mergeSort Store.loggedBefore = rows := by
  refine List.mergeSort_of_pairwise (h.imp fun {a b} hab => ?_)
  unfold Store.loggedBefore
  rw [if_neg (by omega)]
  simp only [decide_eq_true_eq]
  omega

/-- The log of a run agrees with its outcome and with its record. -/
structure AuditTrail (ss : List WorkflowStep) (rows : List RunLog) (out : RunOutcome)
    (record : Run) : Prop where
  /-- There is one row per step for the first of the steps, in their order. -/
  steps : rows.map (fun l => (l.stepOrder, l.stepName)) <+: ss.map fun s => (s.order, s.name)
  executed : out.stepsExecuted = (rows.filter fun l => l.status != .skipped).length
  completed : out.status = .completed → rows.length = ss.length ∧
    ∀ (i : Nat) (s : WorkflowStep) (l : RunLog), ss[i]? = some s → rows[i]? = some l →
      s.onFailure = .stop → l.status ≠ .failed
  stopped : out.status = .stopped → ∃ l, rows.getLast? = some l ∧ l.status = .completed
  fatal : ∀ (i : Nat) (s : WorkflowStep) (l : RunLog), ss[i]? = some s → rows[i]? = some l →
    s.onFailure = .stop → l.status = .failed → i + 1 = rows.length ∧ out.status = .failed
  status : record.status = out.status
  error : record.error = out.error
  failed : out.status = .failed ↔ ∃ message, out.error = some message ∧ message ≠ ""
  finalContext : record.finalContext = some out.context

namespace Workflow.Account

variable {mayFail : Prop} {w : Workflow} {em : Emitter} {context : Json} {o : Office}
  {d e : Desk} {out : RunOutcome} (a : w.Account mayFail em context o d e out)

/-- The rows show the first of the steps, in their order. -/
theorem rows_prefix :
    a.rows.map (fun l => (l.stepOrder, l.stepName)) <+:
      w.orderedSteps.map fun s => (s.order, s.name) := by
  have hmap : (a.entries.map Entry.step).map (fun s => (s.order, s.name)) =
      a.rows.map fun l => (l.stepOrder, l.stepName) := by
    rw [List.map_map]
    exact map_eq_map_of_forall₂ (fun en l h => by simp [h.stepOrder, h.stepName]) a.logged
  rw [← hmap]
  exact a.story.steps_prefix.map _

/-- While ids are fresh, the log of the run is what the run has written. -/
theorem logsOf_eq (hf : d.Fresh) (ho : (w.steps.map (·.order)).Nodup) :
    e.store.logsOf a.course.runId = a.rows := by
  have hnone : d.entriesOf a.course.runId = [] := by
    rw [a.id_eq]
    refine List.filter_eq_nil_iff.2 fun l hl => ?_
    simpa using (hf.logs l hl _ (Nat.le_refl _)).2
  have hrows : (e.store.logs.filter (·.runId == a.course.runId)) = a.rows := by
    have h := a.log
    rwa [hnone, List.nil_append] at h
  have hstrict : a.rows.Pairwise (·.stepOrder < ·.stepOrder) := by
    have hs := List.pairwise_map.2 (w.orderedSteps_strict ho)
    have hp := a.rows_prefix.map Prod.fst
    rw [List.map_map, List.map_map] at hp
    exact List.pairwise_map.1 (hs.sublist hp.sublist)
  rw [Store.logsOf, hrows, RunLog.mergeSort_eq hstrict]

/-- The step, the entry and the row at one place belong together. -/
theorem entry_of_row {i : Nat} {s : WorkflowStep} {l : RunLog} (hs : w.orderedSteps[i]? = some s)
    (hl : a.rows[i]? = some l) :
    ∃ en, a.entries[i]? = some en ∧ en.step = s ∧ l.status = en.shown.logStatus := by
  obtain ⟨hlt, rfl⟩ := List.getElem?_eq_some_iff.1 hl
  obtain ⟨hlt', rfl⟩ := List.getElem?_eq_some_iff.1 hs
  have hlen : i < a.entries.length := by
    have := a.logged.length_eq
    omega
  refine ⟨a.entries[i], List.getElem?_eq_getElem hlen, ?_, ?_⟩
  · have hp := a.story.steps_prefix.getElem (i := i) (by simpa using hlen)
    simpa using hp
  · exact (a.logged.get hlen hlt).status

theorem row_of_entry {i : Nat} {en : Entry} (h : a.entries[i]? = some en) :
    ∃ l, a.rows[i]? = some l ∧ en.LoggedAs l := by
  obtain ⟨hlt, rfl⟩ := List.getElem?_eq_some_iff.1 h
  have hlt' : i < a.rows.length := by
    have := a.logged.length_eq
    omega
  exact ⟨a.rows[i], List.getElem?_eq_getElem hlt', a.logged.get hlt hlt'⟩

/-- How the outcome says the run ended, by what halted it. -/
theorem status_eq : out.status = (ended o.limit (a.progress, a.halt)).status :=
  congrArg RunOutcome.status a.outcome

theorem error_eq : out.error = (ended o.limit (a.progress, a.halt)).error :=
  congrArg RunOutcome.error a.outcome

/-- A run that has not failed was not halted. -/
theorem halt_eq_none (h : out.status ≠ .failed) :
    a.halt = none ∧ out.status = a.progress.status := by
  have hs := a.status_eq
  cases hh : a.halt with
  | some halt =>
    rw [hh] at hs
    exact absurd hs h
  | none =>
    rw [hh] at hs
    exact ⟨rfl, hs⟩

end Workflow.Account

open Workflow in
/-- The log of a run that has come to its outcome agrees with it, where the steps have orders of
their own and logging does not fail. -/
theorem Workflow.auditTrail {w : Workflow} {em : Emitter} {context : Json} {triggeredBy : String}
    {o : Office} {d e : Desk} {out : RunOutcome} (hem : em.Apart o)
    (hl : Course.Logs o w.orderedSteps d) (ho : (w.steps.map (·.order)).Nodup)
    (h : (w.run em context triggeredBy).run o d = (.done out, e)) :
    ∃ id record, out.runId = some id ∧ e.store.run? id = some record ∧
      AuditTrail w.orderedSteps (e.store.logsOf id) out record := by
  obtain ⟨a⟩ := exists_account False hem (.inr hl) h
  refine ⟨a.course.runId, a.record, congrArg RunOutcome.runId a.outcome, a.stored, ?_⟩
  rw [a.logsOf_eq hl.fresh ho]
  have hfatal : ∀ (i : Nat) (s : WorkflowStep) (l : RunLog), w.orderedSteps[i]? = some s →
      a.rows[i]? = some l → s.onFailure = .stop → l.status = .failed →
      i + 1 = a.entries.length ∧ a.halt = none ∧ a.progress.error.isSome = true := by
    intro i s l hs hl hpol hst
    obtain ⟨en, hen, rfl, hstatus⟩ := a.entry_of_row hs hl
    refine a.story.last_of_isFatal a.isSound hen ?_
    simp [Entry.isFatal, ← hstatus, hst, hpol]
  have hlen : a.entries.length = a.rows.length := a.logged.length_eq
  exact {
    steps := a.rows_prefix
    executed := by
      have hx : out.stepsExecuted = a.progress.executed := by
        rw [congrArg RunOutcome.stepsExecuted a.outcome]
        cases a.halt <;> rfl
      have hrows : (a.entries.map fun en => en.shown.logStatus) = a.rows.map (·.status) :=
        map_eq_map_of_forall₂ (fun en l h => h.status.symm) a.logged
      have hcount := congrArg (fun sts => (sts.filter (· != StepStatus.skipped)).length) hrows
      simp only [List.filter_map, List.length_map, Function.comp_def] at hcount
      rw [hx, a.story.executed_eq, hcount, Int.zero_add]
    completed := by
      intro hst
      obtain ⟨hh, hstatus⟩ := a.halt_eq_none (by simp [hst])
      obtain ⟨herr, hstop⟩ := a.progress.status_eq_completed_iff.1 (hstatus.symm.trans hst)
      refine ⟨?_, fun i s l hs hl hpol hf => ?_⟩
      · have hsteps := (hh ▸ a.story).steps_eq herr hstop
        rw [← hlen, ← hsteps, List.length_map]
      · obtain ⟨_, _, herr'⟩ := hfatal i s l hs hl hpol hf
        simp [herr] at herr'
    stopped := by
      intro hst
      obtain ⟨hh, hstatus⟩ := a.halt_eq_none (by simp [hst])
      obtain ⟨herr, hstop⟩ := a.progress.status_eq_stopped_iff.1 (hstatus.symm.trans hst)
      obtain ⟨en, r, hlast, hr, hrstop⟩ := (hh ▸ a.story).last_of_stopped rfl herr hstop
      rw [List.getLast?_eq_getElem?] at hlast
      obtain ⟨l, hl, hlogged⟩ := a.row_of_entry hlast
      refine ⟨l, by rw [List.getLast?_eq_getElem?, ← hlen, hl], ?_⟩
      rw [hlogged.status, Entry.shown, hr]
      exact (a.isSound en (List.mem_of_getElem? hlast) r hr).stop hrstop
    fatal := by
      intro i s l hs hl hpol hf
      obtain ⟨hi, hh, herr⟩ := hfatal i s l hs hl hpol hf
      refine ⟨hlen ▸ hi, ?_⟩
      rw [a.status_eq, hh, Progress.status_eq_failed_iff]
      exact herr
    status := a.status
    error := a.error
    failed := by
      rw [a.status_eq, a.error_eq]
      exact failed_iff_error a.story rfl a.named _
    finalContext := a.finalContext }

/-- The log of a first run. -/
theorem Workflow.auditTrail_askThenCall :
    ∃ out e, (askThenCall.run (Dispatch.emitterFor {}) (.object []) "manual").run {} {} =
        (.done out, e) ∧
      ∃ id record, out.runId = some id ∧ e.store.run? id = some record ∧
        AuditTrail askThenCall.orderedSteps (e.store.logsOf id) out record := by
  obtain ⟨out, e, h⟩ := exists_outcome_askThenCall
  have hl : Course.Logs {} askThenCall.orderedSteps {} := {
    adds := rfl
    fresh := ⟨by simp, by simp⟩
    orders := by
      have h : ∀ s ∈ askThenCall.steps, Column.fits s.order = true := by decide
      exact fun s hs => h s (askThenCall.orderedSteps_perm.mem_iff.1 hs)
    tokens := by simp [Script.Counts] }
  exact ⟨out, e, h, auditTrail (Dispatch.apart_emitterFor {} {}) hl (by decide) h⟩

end LeadDesk
