import LeadDesk.Proofs.Steps
/-!
# Records of work

What is written into the store when a run is opened, when a step is logged, when a run is closed
and when an emission is queued. Each record takes a new id and a moment from the desk
(`Desk.next`); the id is one that no earlier record has while ids are fresh (`Desk.Fresh`).
-/

namespace LeadDesk

/-! ## Ids -/

theorem Timestamp.padded_injective (width : Nat) : Function.Injective (padded width) := by
  intro m n h
  have hl := String.ofList_injective h
  have hd := congrArg (fun cs => Nat.ofDigitChars 10 cs 0) hl
  simpa [Nat.ofDigitChars_append] using hd

/-- Different numbers stand for different ids. -/
theorem freshId_injective : Function.Injective freshId := by
  intro m n h
  exact Timestamp.padded_injective 12 (String.append_right_inj _ |>.1 h)

namespace Desk

/-- The desk after an id and a moment have been taken from it. -/
def next (d : Desk) : Desk := { d with nextId := d.nextId + 1, clock := d.clock + 1 }

/-- The ids to come are not yet the id of a run or of an entry in a log, or that of a run with
entries. -/
structure Fresh (d : Desk) : Prop where
  runs : ∀ r ∈ d.store.runs, ∀ n, d.nextId ≤ n → r.id ≠ freshId n
  logs : ∀ l ∈ d.store.logs, ∀ n, d.nextId ≤ n → l.id ≠ freshId n ∧ l.runId ≠ freshId n

theorem quiet_next (d : Desk) : d.Quiet d.next where
  events := rfl
  workflows := rfl
  steps := rfl
  runs := rfl
  logs := rfl
  nextId := Nat.le_succ _
  clock := by
    show d.clock ≤ d.clock + 1
    omega
  waited := Int.le_refl _
  model := List.suffix_refl _
  depth := rfl
  dial := rfl

variable {d e : Desk}

theorem Fresh.of_eq (h : d.Fresh) (hr : e.store.runs = d.store.runs)
    (hl : e.store.logs = d.store.logs) (hn : d.nextId ≤ e.nextId) : e.Fresh where
  runs r hr' n hn' := h.runs r (hr ▸ hr') n (Nat.le_trans hn hn')
  logs l hl' n hn' := h.logs l (hl ▸ hl') n (Nat.le_trans hn hn')

theorem Fresh.of_quiet (h : d.Fresh) (hq : d.Quiet e) : e.Fresh :=
  h.of_eq hq.runs hq.logs hq.nextId

/-- A run that bears an id which has been given out keeps the ids to come fresh. -/
theorem Fresh.add_run (h : d.Fresh) {r : Run} {n : Nat} (hid : r.id = freshId n)
    (hn : n < d.nextId) :
    Fresh { d with store := { d.store with runs := d.store.runs ++ [r] } } where
  runs r' hr' m hm := by
    rcases List.mem_append.1 hr' with hr' | hr'
    · exact h.runs r' hr' m hm
    · rw [List.mem_singleton.1 hr', hid]
      intro heq
      have := freshId_injective heq
      dsimp only at hm
      omega
  logs := h.logs

/-- So does an entry in the log of a run that bears such an id. -/
theorem Fresh.add_log (h : d.Fresh) {l : RunLog} {n : Nat} (hid : l.id = freshId n)
    (hn : n < d.nextId) (hrun : ∀ m, d.nextId ≤ m → l.runId ≠ freshId m) :
    Fresh { d with store := { d.store with logs := d.store.logs ++ [l] } } where
  runs := h.runs
  logs l' hl' m hm := by
    rcases List.mem_append.1 hl' with hl' | hl'
    · exact h.logs l' hl' m hm
    · rw [List.mem_singleton.1 hl']
      refine ⟨?_, hrun m hm⟩
      rw [hid]
      intro heq
      have := freshId_injective heq
      dsimp only at hm
      omega

end Desk

/-! ## Checked records -/

namespace Validation.Checked

theorem map_eq_good {α β : Type} {f : α → β} {c : Checked α} {b : β} :
    f <$> c = good b ↔ ∃ a, c = good a ∧ f a = b := by
  show map f c = good b ↔ _
  cases c <;> simp [map]

theorem seq_eq_good {α β : Type} {f : Checked (α → β)} {c : Checked α} {b : β} :
    f <*> c = good b ↔ ∃ g a, f = good g ∧ c = good a ∧ g a = b := ap_eq_good

theorem under_eq_good {α : Type} {step : Step} {c : Checked α} {a : α} :
    c.under step = good a ↔ c = good a := by
  cases c <;> simp [under]

theorem toExcept_eq_ok {α : Type} {name : String} {c : Checked α} {a : α} :
    c.toExcept name = .ok a ↔ c = good a := by
  cases c <;> simp [toExcept]

end Validation.Checked

namespace Validation

theorem text_eq_good {v : Json} {s : String} : text v = .good s ↔ v = .string s := by
  cases v <;> simp [text, Checked.complain]

theorem object_eq_good {v : Json} {f : Fields} : object v = .good f ↔ v = .object f := by
  cases v <;> simp [object, Checked.complain]

end Validation

open Validation in
/-- A run is checked field by field. -/
theorem Run.check_eq_good {freshId : String} {now : Timestamp} {f : Fields} {r : Run}
    (h : Run.check freshId now (.object f) = .good r) :
    defaulted f "id" freshId text = .good r.id ∧
      required f "workflow_template_id" text = .good r.workflowId ∧
      defaulted f "triggered_by" "manual" text = .good r.triggeredBy ∧
      defaulted f "trigger_event_id" none optionalText = .good r.triggerEventId ∧
      defaulted f "status" .running (choice RunStatus.words) = .good r.status ∧
      defaulted f "completed_at" none (optional timestamp) = .good r.completedAt ∧
      defaulted f "context" [] object = .good r.context ∧
      defaulted f "final_context" none (optional object) = .good r.finalContext ∧
      defaulted f "error_message" none optionalText = .good r.error := by
  obtain ⟨_, _, g₁, hError, rfl⟩ := Checked.seq_eq_good.1 h
  obtain ⟨_, _, g₂, hFinal, rfl⟩ := Checked.seq_eq_good.1 g₁
  obtain ⟨_, _, g₃, hContext, rfl⟩ := Checked.seq_eq_good.1 g₂
  obtain ⟨_, _, g₄, hCompleted, rfl⟩ := Checked.seq_eq_good.1 g₃
  obtain ⟨_, _, g₅, _, rfl⟩ := Checked.seq_eq_good.1 g₄
  obtain ⟨_, _, g₆, hStatus, rfl⟩ := Checked.seq_eq_good.1 g₅
  obtain ⟨_, _, g₇, _, rfl⟩ := Checked.seq_eq_good.1 g₆
  obtain ⟨_, _, g₈, _, rfl⟩ := Checked.seq_eq_good.1 g₇
  obtain ⟨_, _, g₉, hEvent, rfl⟩ := Checked.seq_eq_good.1 g₈
  obtain ⟨_, _, g₁₀, hTriggered, rfl⟩ := Checked.seq_eq_good.1 g₉
  obtain ⟨_, _, g₁₁, _, rfl⟩ := Checked.seq_eq_good.1 g₁₀
  obtain ⟨_, _, g₁₂, hWorkflow, rfl⟩ := Checked.seq_eq_good.1 g₁₁
  obtain ⟨_, hId, rfl⟩ := Checked.map_eq_good.1 g₁₂
  exact ⟨hId, hWorkflow, hTriggered, hEvent, hStatus, hCompleted, hContext, hFinal, hError⟩

/-- What the record of a new run holds. -/
structure Run.Begun (w : Workflow) (seed : Fields) (triggeredBy : String) (d : Desk)
    (r : Run) : Prop where
  id : r.id = freshId d.nextId
  workflowId : r.workflowId = w.id
  triggeredBy : r.triggeredBy = triggeredBy
  status : r.status = .running
  completedAt : r.completedAt = none
  context : r.context = seed
  finalContext : r.finalContext = none
  error : r.error = none
  /-- The run names the event of its context. -/
  triggerEventId : ∀ event, Fields.getD seed "event" = .object event →
    Validation.optionalText (Fields.getD event "id") = .good r.triggerEventId

namespace Workflow

open Validation in
theorem begun_of_check {w : Workflow} {seed fields : Fields} {triggeredBy : String} {d : Desk}
    {now : Timestamp} {r : Run} (hf : w.recordFields seed triggeredBy = .ok fields)
    (hr : Run.check (freshId d.nextId) now (.object fields) = .good r) :
    r.Begun w seed triggeredBy d := by
  unfold recordFields at hf
  split at hf
  · rename_i event he
    simp only [Except.ok.injEq] at hf
    subst hf
    obtain ⟨hId, hWorkflow, hTriggered, hEvent, hStatus, hCompleted, hContext, hFinal, hError⟩ :=
      Run.check_eq_good hr
    simp [required, defaulted, Fields.get?, Checked.under_eq_good, text_eq_good,
      object_eq_good] at hId hWorkflow hTriggered hEvent hStatus hCompleted hContext hFinal hError
    refine ⟨hId.symm, hWorkflow.symm, hTriggered.symm, hStatus.symm, hCompleted.symm,
      hContext.symm, hFinal.symm, hError.symm, fun own hown => ?_⟩
    have hsame : event = own := by
      rw [hown] at he
      cases own <;> simpa [Json.orElse, Json.isGiven, Json.empty, eq_comm] using he
    exact hsame ▸ hEvent
  · simp at hf

end Workflow

/-! ## Runs and logs as they are written -/

namespace Desk

/-- A run with the id is stored. -/
def HasRun (d : Desk) (id : String) : Prop := ∃ r ∈ d.store.runs, r.id = id

/-- The desk with one more run. -/
def withRun (d : Desk) (r : Run) : Desk :=
  { d with store := { d.store with runs := d.store.runs ++ [r] } }

/-- The desk with one more entry in a log. -/
def withLog (d : Desk) (l : RunLog) : Desk :=
  { d with store := { d.store with logs := d.store.logs ++ [l] } }

/-- The desk with a run updated. -/
def withUpdate (d : Desk) (id : String) (u : RunUpdate) : Desk :=
  { d with store := d.store.updateRun id u }

end Desk

namespace Action

variable {α : Type} {o : Office} {d e : Desk}

theorem run_newId_now {β : Type} (f : String → Timestamp → Action β) (o : Office) (d : Desk) :
    (do let id ← newId; let now ← now; f id now).run o d =
      (f (freshId d.nextId) d.time).run o d.next := rfl

/-- A look into the store leaves the desk as it is. -/
theorem query_cases {operation : String} {f : Store → Except Failure α} {ending : Ending α}
    (h : (query operation f).run o d = (ending, e)) :
    e = d ∧
      ((∃ failure, ending = .failed failure) ∨ ∃ a, ending = .done a ∧ f d.store = .ok a) := by
  simp only [query] at h
  split at h
  · obtain ⟨rfl, rfl⟩ := Prod.mk.inj h
    exact ⟨rfl, .inl ⟨_, rfl⟩⟩
  · split at h
    · rename_i a ha
      obtain ⟨rfl, rfl⟩ := Prod.mk.inj h
      exact ⟨rfl, .inr ⟨a, rfl, ha⟩⟩
    · obtain ⟨rfl, rfl⟩ := Prod.mk.inj h
      exact ⟨rfl, .inl ⟨_, rfl⟩⟩

/-- A change of the store that is refused leaves the desk as it is. -/
theorem change_cases {operation : String} {f : Store → Except Failure (α × Store)}
    {ending : Ending α} (h : (change operation f).run o d = (ending, e)) :
    (∃ failure, ending = .failed failure ∧ e = d ∧
      (faultOf o operation = some failure ∨ f d.store = .error failure)) ∨
    ∃ a t, ending = .done a ∧ f d.store = .ok (a, t) ∧ e = { d with store := t } := by
  simp only [change] at h
  split at h
  · rename_i failure hf
    simp only [Prod.mk.injEq] at h
    exact .inl ⟨failure, h.1.symm, h.2.symm, .inl hf⟩
  · split at h
    · rename_i a t ht
      simp only [Prod.mk.injEq] at h
      exact .inr ⟨a, t, h.1.symm, ht, h.2.symm⟩
    · rename_i failure hf
      simp only [Prod.mk.injEq] at h
      exact .inl ⟨failure, h.1.symm, h.2.symm, .inr hf⟩

end Action

namespace Store

theorem addRun_eq_ok {s t : Store} {r given : Run} (h : s.addRun r = .ok (given, t)) :
    (∀ old ∈ s.runs, old.id ≠ r.id) ∧ given = readRun (storedRun r) ∧
      t = { s with runs := s.runs ++ [storedRun r] } := by
  unfold addRun at h
  split at h
  · simp at h
  · rename_i hnone
    simp only [Except.ok.injEq, Prod.mk.injEq] at h
    refine ⟨fun old hold heq => hnone ?_, h.1.symm, h.2.symm⟩
    simp only [run?, Option.isSome_map, List.find?_isSome]
    exact ⟨old, hold, by simp [heq]⟩

theorem addLog_eq_ok {s t : Store} {l : RunLog} (h : s.addLog l = .ok t) :
    t = { s with logs := s.logs ++ [storedLog l] } := by
  unfold addLog at h
  split at h
  · simp at h
  · split at h
    · simp at h
    · simp only [Except.ok.injEq] at h
      exact h.symm

/-- An entry with a new id is added when its integers fit the store. -/
theorem addLog_of_fits {s : Store} {l : RunLog} (ho : Column.fits l.stepOrder = true)
    (ht : ∀ n, l.tokensUsed = some n → Column.fits n = true) (hid : ∀ old ∈ s.logs, old.id ≠ l.id) :
    s.addLog l = .ok { s with logs := s.logs ++ [storedLog l] } := by
  have hc : checkLog l = .ok () := by
    unfold checkLog
    simp only [checkInteger, ho, if_true, bind, Except.bind]
    split
    · rename_i n hn
      simp [ht n hn]
    · rfl
  have hn : (s.logs.any fun old => old.id == l.id) = false := by
    simp only [List.any_eq_false, beq_iff_eq]
    exact hid
  simp [addLog, hc, hn]

end Store

/-- To open a run either stores its record or fails and stores nothing. -/
theorem Workflow.openRun_cases {w : Workflow} {seed : Fields} {triggeredBy : String} {o : Office}
    {d e : Desk} {ending : Ending Run}
    (h : (w.openRun seed triggeredBy).run o d = (ending, e)) :
    (∃ failure, ending = .failed failure ∧ d.Quiet e) ∨
    ∃ r, ending = .done (Store.readRun r) ∧ e = d.next.withRun r ∧
      r.Begun w seed triggeredBy d ∧ ∀ old ∈ d.store.runs, old.id ≠ r.id := by
  unfold openRun at h
  rw [Action.run_bind] at h
  cases hf : w.recordFields seed triggeredBy with
  | error failure =>
    simp only [hf, Action.ofExcept, Action.run_fail, Prod.mk.injEq] at h
    exact .inl ⟨failure, h.1.symm, h.2 ▸ Desk.Quiet.refl d⟩
  | ok fields =>
    simp only [hf, Action.ofExcept, Action.run_pure, Action.run_newId_now] at h
    split at h
    · rename_i r hr
      have hb := begun_of_check hf (Validation.Checked.toExcept_eq_ok.1 hr)
      obtain ⟨failure, he, hd, _⟩ | ⟨given, t, he, ht, hd⟩ := Action.change_cases h
      · exact .inl ⟨failure, he, hd ▸ d.quiet_next⟩
      · obtain ⟨hnew, hg, hs⟩ := Store.addRun_eq_ok ht
        subst hg hs
        exact .inr ⟨Store.storedRun r, he, hd, { hb with
          completedAt := rfl, finalContext := rfl, error := rfl }, hnew⟩
    · simp only [Action.run_fail, Prod.mk.injEq] at h
      exact .inl ⟨_, h.1.symm, h.2 ▸ d.quiet_next⟩

/-- A run either fails before it has a record, or opens its record and goes on from there. -/
theorem Workflow.run_cases {w : Workflow} {em : Emitter} {context : Json} {triggeredBy : String}
    {o : Office} {d e : Desk} {ending : Ending RunOutcome}
    (h : (w.run em context triggeredBy).run o d = (ending, e)) :
    (∃ failure, ending = .failed failure ∧ d.Quiet e) ∨
    ∃ seed r, startContext context = .ok seed ∧ r.Begun w seed triggeredBy d ∧
      ¬ d.HasRun r.id ∧ (w.conduct em r.id seed).run o (d.next.withRun r) = (ending, e) := by
  unfold run at h
  cases hs : startContext context with
  | error failure =>
    have h0 : (Action.ofExcept (.error failure : Except Failure Fields)).run o d =
        (.failed failure, d) := rfl
    rw [hs, Action.run_bind_of_failed h0] at h
    obtain ⟨rfl, rfl⟩ := Prod.mk.inj h
    exact .inl ⟨failure, rfl, Desk.Quiet.refl d⟩
  | ok seed =>
    have h0 : (Action.ofExcept (.ok seed : Except Failure Fields)).run o d = (.done seed, d) := rfl
    rw [hs, Action.run_bind_of_done h0] at h
    rcases hopen : (w.openRun seed triggeredBy).run o d with ⟨opening, m⟩
    obtain ⟨failure, rfl, hq⟩ | ⟨r, rfl, rfl, hbegun, hnew⟩ := openRun_cases hopen
    · rw [Action.run_bind_of_failed hopen] at h
      obtain ⟨rfl, rfl⟩ := Prod.mk.inj h
      exact .inl ⟨failure, rfl, hq⟩
    · rw [Action.run_bind_of_done hopen] at h
      exact .inr ⟨seed, r, rfl, hbegun, fun ⟨old, hold, heq⟩ => hnew old hold heq, h⟩

/-- The entry that the log of a run gets for a result. -/
def Course.entry (c : Course) (s : WorkflowStep) (r : StepResult) (d : Desk) : RunLog where
  id := freshId d.nextId
  runId := c.runId
  stepId := s.id
  stepOrder := s.order
  stepName := s.name
  status := r.logStatus
  input := loggedInput r.input
  output := r.output.getD .null
  error := r.error
  tokensUsed := r.tokensUsed
  executedAt := d.time

/-- To log a result either adds its entry or fails and adds nothing. -/
theorem Course.log_cases {c : Course} {s : WorkflowStep} {r : StepResult} {o : Office}
    {d e : Desk} {ending : Ending Unit} (h : (c.log s r).run o d = (ending, e)) :
    (∃ failure, ending = .failed failure ∧ e = d.next ∧
      (Action.faultOf o "add_run_log" = some failure ∨
        d.store.addLog (c.entry s r d) = .error failure)) ∨
    ending = .done () ∧ e = d.next.withLog (Store.storedLog (c.entry s r d)) := by
  have h : (Archive.addLog (c.entry s r d)).run o d.next = (ending, e) := h
  obtain ⟨failure, he, hd, hf⟩ | ⟨⟨⟩, t, he, ht, hd⟩ := Action.change_cases h
  · refine .inl ⟨failure, he, hd, hf.imp_right fun hf => ?_⟩
    cases ha : d.store.addLog (c.entry s r d) with
    | error failure' =>
      have hf : (d.store.addLog (c.entry s r d)).map (fun s => ((), s)) = .error failure := hf
      rw [ha] at hf
      simpa [Except.map] using hf
    | ok t =>
      have hf : (d.store.addLog (c.entry s r d)).map (fun s => ((), s)) = .error failure := hf
      rw [ha] at hf
      simp [Except.map] at hf
  · have ht : (d.store.addLog (c.entry s r d)).map (fun s => ((), s)) = .ok ((), t) := ht
    cases ha : d.store.addLog (c.entry s r d) with
    | error failure =>
      rw [ha] at ht
      simp [Except.map] at ht
    | ok t' =>
      rw [ha] at ht
      simp only [Except.map, Except.ok.injEq, Prod.mk.injEq, true_and] at ht
      refine .inr ⟨he, ?_⟩
      rw [hd, ← ht, Store.addLog_eq_ok ha]
      rfl

/-- What is written into the record of a run that ends. -/
def Progress.closing (p : Progress) (now : Timestamp) : RunUpdate where
  status := some p.status
  completedAt := some (some now)
  finalContext := some (some p.context)
  error := some p.error

/-- To close a run either updates its record or fails and changes nothing. -/
theorem Workflow.closeRun_cases {id : String} {p : Progress} {o : Office} {d e : Desk}
    {ending : Ending Unit} (h : (closeRun id p).run o d = (ending, e)) :
    (∃ failure, ending = .failed failure ∧ d.Quiet e ∧
      Action.faultOf o "update_run" = some failure) ∨
    ending = .done () ∧ e = { d with clock := d.clock + 1 }.withUpdate id
      (p.closing d.time) := by
  have h : ((Archive.updateRun id (p.closing d.time)) >>= fun _ => pure ()).run o
      { d with clock := d.clock + 1 } = (ending, e) := h
  rw [Action.run_bind] at h
  rcases hu : (Archive.updateRun id (p.closing d.time)).run o
    { d with clock := d.clock + 1 } with ⟨found, m⟩
  rw [hu] at h
  obtain ⟨failure, he, hd, hf⟩ | ⟨a, t, he, ht, hd⟩ := Action.change_cases hu
  · subst he hd
    simp only [Prod.mk.injEq] at h
    refine .inl ⟨failure, h.1.symm, h.2 ▸ Action.Tame.now.quiet o d, hf.resolve_right ?_⟩
    simp
  · subst he
    simp only [Except.ok.injEq, Prod.mk.injEq] at ht
    simp only [Action.run_pure, Prod.mk.injEq] at h
    refine .inr ⟨h.1.symm, ?_⟩
    rw [← h.2, hd, ← ht.2]
    rfl

/-! ## Events as they are written -/

namespace Desk

/-- The desk with one more event. -/
def withEvent (d : Desk) (e : Event) : Desk :=
  { d with store := { d.store with events := d.store.events ++ [e] } }

/-- The desk with an event marked as processed at a moment. -/
def withMark (d : Desk) (id : String) (now : Timestamp) : Desk :=
  { d with store := d.store.markProcessed id now }

end Desk

open Validation in
/-- An event is checked field by field. -/
theorem Event.check_eq_good {freshId : String} {now : Timestamp} {f : Fields} {e : Event}
    (h : Event.check freshId now (.object f) = .good e) :
    defaulted f "id" freshId text = .good e.id ∧
      required f "type" text = .good e.type ∧
      defaulted f "entity_type" none optionalText = .good e.entityType ∧
      defaulted f "entity_id" none optionalText = .good e.entityId ∧
      defaulted f "payload" [] object = .good e.payload ∧
      defaulted f "team_id" none optionalText = .good e.teamId ∧
      defaulted f "source" none optionalText = .good e.source ∧
      defaulted f "processed" false truth = .good e.processed ∧
      defaulted f "created_at" now timestamp = .good e.createdAt := by
  obtain ⟨_, _, g₁, hCreated, rfl⟩ := Checked.seq_eq_good.1 h
  obtain ⟨_, _, g₂, _, rfl⟩ := Checked.seq_eq_good.1 g₁
  obtain ⟨_, _, g₃, hProcessed, rfl⟩ := Checked.seq_eq_good.1 g₂
  obtain ⟨_, _, g₄, hSource, rfl⟩ := Checked.seq_eq_good.1 g₃
  obtain ⟨_, _, g₅, hTeam, rfl⟩ := Checked.seq_eq_good.1 g₄
  obtain ⟨_, _, g₆, hPayload, rfl⟩ := Checked.seq_eq_good.1 g₅
  obtain ⟨_, _, g₇, hEntity, rfl⟩ := Checked.seq_eq_good.1 g₆
  obtain ⟨_, _, g₈, hKind, rfl⟩ := Checked.seq_eq_good.1 g₇
  obtain ⟨_, _, g₉, hType, rfl⟩ := Checked.seq_eq_good.1 g₈
  obtain ⟨_, hId, rfl⟩ := Checked.map_eq_good.1 g₉
  exact ⟨hId, hType, hKind, hEntity, hPayload, hTeam, hSource, hProcessed, hCreated⟩

/-- What the record of a queued emission holds. -/
structure Event.Queued (f : FollowUp) (d : Desk) (e : Event) : Prop where
  id : e.id = freshId d.nextId
  type : e.type = f.type
  entityType : Validation.optionalText f.entityType = .good e.entityType
  entityId : Validation.optionalText f.entityId = .good e.entityId
  payload : e.payload = f.payload
  team : Validation.optionalText f.team = .good e.teamId
  source : e.source = some "workflow"
  processed : e.processed = false
  processedAt : e.processedAt = none
  createdAt : e.createdAt = d.time.atUniversal

namespace Store

theorem addEvent_eq_ok {s t : Store} {e stored : Event} (h : s.addEvent e = .ok (stored, t)) :
    (∀ old ∈ s.events, old.id ≠ e.id) ∧ stored = storedEvent e ∧
      t = { s with events := s.events ++ [storedEvent e] } := by
  unfold addEvent at h
  split at h
  · simp at h
  · rename_i hnone
    simp only [Except.ok.injEq, Prod.mk.injEq] at h
    refine ⟨fun old hold heq => hnone ?_, h.1.symm, h.2.symm⟩
    simp only [event?, List.find?_isSome]
    exact ⟨old, hold, by simp [heq]⟩

end Store

/-- To store an event either adds it or fails and adds nothing. -/
theorem Archive.createEvent_cases {given : Event} {o : Office} {d e : Desk} {ending : Ending Event}
    (h : (createEvent given).run o d = (ending, e)) :
    (∃ failure, ending = .failed failure ∧ e = d ∧ failure.kind ≠ "") ∨
    ending = .done (Store.storedEvent given) ∧ e = d.withEvent (Store.storedEvent given) ∧
      ∀ old ∈ d.store.events, old.id ≠ given.id := by
  obtain ⟨failure, he, hd, hf⟩ | ⟨stored, t, he, ht, hd⟩ := Action.change_cases h
  · refine .inl ⟨failure, he, hd, ?_⟩
    rcases hf with hf | hf
    · exact Action.Named.kind_faultOf hf
    · simp only [Store.addEvent] at hf
      split at hf
      · simp only [Except.error.injEq] at hf
        exact hf ▸ Failure.IsOwn.kind_ne trivial
      · simp at hf
  · obtain ⟨hnew, hs, hstore⟩ := Store.addEvent_eq_ok ht
    subst hs hstore
    exact .inr ⟨he, hd, hnew⟩

/-- The fields of the event that a follow-up asks for. -/
def FollowUp.eventFields (f : FollowUp) : Fields := [
  ("type", .string f.type), ("entity_type", f.entityType), ("entity_id", f.entityId),
  ("payload", .object f.payload), ("team_id", f.team), ("source", .string "workflow")]

open Validation in
theorem FollowUp.queued_of_check {f : FollowUp} {d : Desk} {given : Event}
    (h : Event.check (freshId d.nextId) d.time (.object f.eventFields) =
      .good given) : (Store.storedEvent given).Queued f d := by
  obtain ⟨hId, hType, hKind, hEntity, hPayload, hTeam, hSource, hDone, hTime⟩ :=
    Event.check_eq_good h
  simp [eventFields, defaulted, Fields.get?, Checked.under_eq_good] at hKind hEntity hTeam
  simp [eventFields, required, defaulted, Fields.get?, Checked.under_eq_good, object_eq_good,
    optionalText, Validation.optional, text] at hId hType hPayload hSource hDone
  simp [eventFields, defaulted, Fields.get?] at hTime
  exact ⟨hId.symm, hType.symm, hKind, hEntity, hPayload.symm, hTeam, hSource.symm, hDone, rfl,
    congrArg Timestamp.atUniversal hTime.symm⟩

/-- The events that wait are looked up as they are stored. -/
theorem Archive.unprocessedEvents_cases {limit : Option Int} {o : Office} {d e : Desk}
    {ending : Ending (List Event)} (h : (unprocessedEvents limit).run o d = (ending, e)) :
    e = d ∧
      ((∃ failure, ending = .failed failure) ∨ ending = .done (d.store.unprocessed limit)) := by
  unfold unprocessedEvents ask at h
  obtain ⟨rfl, hf | ⟨es, rfl, hes⟩⟩ := Action.query_cases h
  · exact ⟨rfl, .inl hf⟩
  · refine ⟨rfl, .inr ?_⟩
    cases hc : (limit.forM Store.checkInteger : Except Failure PUnit) with
    | error failure =>
      rw [hc] at hes
      cases hes
    | ok _ =>
      rw [hc] at hes
      exact congrArg Ending.done (Except.ok.inj hes).symm

/-- To queue an emission either stores its event or fails and stores nothing. -/
theorem Emitter.queue_cases {f : FollowUp} {o : Office} {d e : Desk} {ending : Ending Event}
    (h : (queue f).run o d = (ending, e)) :
    (∃ failure, ending = .failed failure ∧ d.Quiet e ∧ failure.kind ≠ "") ∨
    ∃ ev : Event, ending = .done ev ∧ e = d.next.withEvent ev ∧ ev.Queued f d ∧
      ∀ old ∈ d.store.events, old.id ≠ ev.id := by
  unfold queue at h
  rw [Action.run_newId_now] at h
  cases hc : Event.check (freshId d.nextId) d.time (.object f.eventFields) with
  | bad violations =>
    unfold FollowUp.eventFields at hc
    simp only [hc, Validation.Checked.toExcept, Action.run_bind, Action.run_fail,
      Prod.mk.injEq] at h
    exact .inl ⟨_, h.1.symm, h.2 ▸ d.quiet_next, Failure.IsOwn.kind_ne trivial⟩
  | good given =>
    have hq := FollowUp.queued_of_check hc
    unfold FollowUp.eventFields at hc
    simp only [hc, Validation.Checked.toExcept, Action.run_bind, Action.run_pure] at h
    obtain ⟨failure, he, hd, hk⟩ | ⟨he, hd, hnew⟩ := Archive.createEvent_cases h
    · exact .inl ⟨failure, he, hd ▸ d.quiet_next, hk⟩
    · exact .inr ⟨_, he, hd, hq, hnew⟩

/-- To mark an event either changes its record alone, or nothing when it is not there. -/
theorem Archive.markProcessed_cases {id : String} {o : Office} {d e : Desk} {ending : Ending Unit}
    (h : (markProcessed id).run o d = (ending, e)) :
    (∃ failure, ending = .failed failure ∧ d.Quiet e ∧
      Action.faultOf o "mark_event_processed" = some failure) ∨
    ending = .done () ∧ e = d ∧ d.store.event? id = none ∨
    ending = .done () ∧ (d.store.event? id).isSome = true ∧
      e = { d with clock := d.clock + 1 }.withMark id d.time := by
  unfold markProcessed at h
  rw [Action.run_bind] at h
  cases hf : Action.faultOf o "mark_event_processed" with
  | some failure =>
    simp only [Action.query, hf, Prod.mk.injEq] at h
    exact .inl ⟨failure, h.1.symm, h.2 ▸ Desk.Quiet.refl d, rfl⟩
  | none =>
    simp only [Action.query, hf] at h
    cases hid : d.store.event? id with
    | none =>
      simp only [hid, Action.run_pure, Prod.mk.injEq] at h
      exact .inr (.inl ⟨h.1.symm, h.2.symm, rfl⟩)
    | some ev =>
      simp only [hid, Action.run_bind, Action.now, Action.change, hf, Prod.mk.injEq] at h
      exact .inr (.inr ⟨h.1.symm, rfl, h.2.symm⟩)

/-! ## Workflows as they are written -/

/-- What a stored head stands for depends on the stored steps only. -/
theorem Store.workflow_of_steps {s t : Store} (h : t.steps = s.steps) :
    t.workflow = s.workflow := by
  funext r
  simp only [workflow, stepsOf, h]

/-- A workflow is saved as a new one under a new id, or in place of the one under its slug. Its
steps are stored behind those of the others. -/
theorem Store.saveWorkflow_cases {s t : Store} {w stored : Workflow} {now : Timestamp}
    {ids : Nat → String} (h : s.saveWorkflow w now ids = .ok (stored, t)) :
    checkWorkflow w = .ok () ∧
      (s.workflowRecord? w.slug = none ∧ (∀ r ∈ s.workflows, r.id ≠ w.id) ∧
          t = { s with
            workflows := s.workflows ++ [newRecord w now]
            steps := s.steps ++ stepRecords w.id now ids w.orderedSteps } ∨
        ∃ old, s.workflowRecord? w.slug = some old ∧
          t = { s with
            workflows := s.workflows.map fun r =>
              if r.slug == w.slug then renewedRecord old w now else r
            steps := s.steps.filter (·.workflowId != old.id) ++
              stepRecords old.id now ids w.orderedSteps }) := by
  unfold saveWorkflow at h
  split at h
  · simp at h
  · rename_i hcheck hnone
    split at h
    · simp at h
    · rename_i hid
      simp only [Except.ok.injEq, Prod.mk.injEq] at h
      obtain ⟨_, rfl⟩ := h
      refine ⟨hcheck, .inl ⟨hnone, fun r hr heq => hid ?_, rfl⟩⟩
      exact List.any_eq_true.2 ⟨r, hr, by simp [heq]⟩
  · rename_i old hcheck hold
    simp only [Except.ok.injEq, Prod.mk.injEq] at h
    obtain ⟨_, rfl⟩ := h
    exact ⟨hcheck, .inr ⟨old, hold, rfl⟩⟩

/-- To save a workflow changes no event, no run and no log. -/
theorem Store.saveWorkflow_eq_ok {s t : Store} {w stored : Workflow} {now : Timestamp}
    {ids : Nat → String} (h : s.saveWorkflow w now ids = .ok (stored, t)) :
    t.events = s.events ∧ t.runs = s.runs ∧ t.logs = s.logs ∧
      (s.workflowRecord? w.slug = none ∧ (∀ r ∈ s.workflows, r.id ≠ w.id) ∧
          t.workflows = s.workflows ++ [newRecord w now] ∨
        ∃ old, s.workflowRecord? w.slug = some old ∧
          t.workflows = s.workflows.map fun r =>
            if r.slug == w.slug then renewedRecord old w now else r) := by
  obtain ⟨_, ⟨hnone, hid, rfl⟩ | ⟨old, hold, rfl⟩⟩ := saveWorkflow_cases h
  · exact ⟨rfl, rfl, rfl, .inl ⟨hnone, hid, rfl⟩⟩
  · exact ⟨rfl, rfl, rfl, .inr ⟨old, hold, rfl⟩⟩

/-- To take a moment and ids changes no more. -/
theorem Desk.quiet_nextIds (d : Desk) (count : Nat) :
    d.Quiet { d with clock := d.clock + 1, nextId := d.nextId + count } := by
  refine ⟨{ Desk.Steady.refl d with nextId := ?_, clock := ?_ }, rfl⟩
  · exact Nat.le_add_right _ _
  · show d.clock ≤ d.clock + 1
    omega

/-- To save a workflow either fails and changes nothing, or changes the store so, at the present and
with the next ids for the steps. -/
theorem Archive.saveWorkflow_outcome {w : Workflow} {o : Office} {d e : Desk}
    {ending : Ending Workflow} (h : (saveWorkflow w).run o d = (ending, e)) :
    (∃ failure, ending = .failed failure ∧ d.Quiet e ∧
      (Action.faultOf o "save_workflow" = some failure ∨
        d.store.saveWorkflow w d.time (fun n => freshId (d.nextId + n)) =
          .error failure)) ∨
    Action.faultOf o "save_workflow" = none ∧ ∃ stored t, ending = .done stored ∧
      d.store.saveWorkflow w d.time (fun n => freshId (d.nextId + n)) =
        .ok (stored, t) ∧
      e = { d with store := t, clock := d.clock + 1, nextId := d.nextId + w.steps.length } := by
  unfold saveWorkflow at h
  rw [Action.run_bind] at h
  cases hf : Action.faultOf o "save_workflow" with
  | some failure =>
    simp only [Action.guardFault, Action.query, hf, Prod.mk.injEq] at h
    exact .inl ⟨failure, h.1.symm, h.2 ▸ Desk.Quiet.refl d, .inl rfl⟩
  | none =>
    simp only [Action.guardFault, Action.query, hf, Action.run_bind, Action.now,
      Action.newIds] at h
    obtain ⟨failure, he, rfl, hfail⟩ | ⟨stored, t, he, ht, rfl⟩ := Action.change_cases h
    · rw [hf] at hfail
      exact .inl ⟨failure, he, d.quiet_nextIds _, hfail.imp_left fun hfault => by cases hfault⟩
    · exact .inr ⟨rfl, stored, t, he, ht, rfl⟩

/-- To save a workflow either changes the store so or fails and changes nothing. -/
theorem Archive.saveWorkflow_cases {w : Workflow} {o : Office} {d e : Desk}
    {ending : Ending Workflow} (h : (saveWorkflow w).run o d = (ending, e)) :
    (∃ failure, ending = .failed failure ∧ d.Quiet e) ∨
    ∃ stored t now ids m, ending = .done stored ∧
      d.store.saveWorkflow w now ids = .ok (stored, t) ∧ d.Quiet m ∧ e = { m with store := t } := by
  obtain ⟨failure, he, hq, _⟩ | ⟨_, stored, t, he, ht, rfl⟩ := saveWorkflow_outcome h
  · exact .inl ⟨failure, he, hq⟩
  · exact .inr ⟨stored, t, _, _, _, he, ht, d.quiet_nextIds _, rfl⟩

end LeadDesk
