import LeadDesk.Proofs.Growth
import LeadDesk.Proofs.Rows
import Mathlib.Data.List.Forall2
/-!
# The story of a run

The steps of a run in the order in which they were logged, each with the context that it saw and
the result that it came to (`Entry`). A `Story` tells how these entries follow from one another:
each sees what the ones before it have made of the context, and all but the last let the run go
on. Every run that comes to an end has a story, and its log shows one row per entry
(`Course.exists_story`).
-/

namespace LeadDesk

open LeadDesk.Action (Leads Tame)
open Desk (Grows)

/-- The office in which the parts of a run are carried out. -/
def Course.under (c : Course) (o : Office) : Office :=
  { o with deadlines := c.deadline :: o.deadlines }

/-- A step that a run has logged: the context that it saw, its result, which is `none` when its
guards did not hold, the event that was emitted for it, and the items that its call has added to a
list of the context. -/
structure Entry where
  step : WorkflowStep
  seen : Fields
  result : Option StepResult
  emitted : Option String := none
  added : List Json := []

namespace Entry

/-- The result that the log shows. -/
def shown (e : Entry) : StepResult := e.result.getD (.skip Course.skipReason)

/-- What the call of the entry makes of the progress of its run: a list of the context has the
items that were added to it. -/
def lengthen (e : Entry) (p : Progress) : Progress :=
  p.lengthen (e.step.subject? (.object e.seen)) e.added

/-- What the entry makes of the progress of its run. -/
def effect (e : Entry) (p : Progress) : Progress :=
  match e.result with
  | none => p
  | some r =>
    let p := (e.lengthen p).count r
    if r.success then
      match e.emitted with
      | none => p.succeed e.step r
      | some id => (p.succeed e.step r).emit id
    else
      match e.step.onFailure with
      | .goOn => p.tolerate e.step r
      | .stop => p.fail (Progress.stepError e.step r)

/-- The entry ends its run: it asks for a stop, or its failure is not tolerated. -/
def ends (e : Entry) : Bool :=
  match e.result with
  | none => false
  | some r => if r.success then r.stop else e.step.onFailure == .stop

/-- The step was begun when the steps `before` it had been carried out, from a desk and some
progress on: it saw the context that they led to, added its items, and ended so. -/
def BegunAfter (e : Entry) (before : List WorkflowStep) (c : Course) (p : Progress) (o : Office)
    (d : Desk) (ending : Ending (Option StepResult)) : Prop :=
  ∃ (q : Progress) (m m' : Desk), (c.steps before p).run o d = (.done (q, none), m) ∧
    e.seen = q.context ∧
    (Course.resultOf e.step e.seen).run (c.under o) { m with added := [] } = (ending, m') ∧
    m'.added = e.added

/-- The step was carried out when the steps `before` it had been, and came to its result. -/
def AroseAfter (e : Entry) (before : List WorkflowStep) (c : Course) (p : Progress) (o : Office)
    (d : Desk) : Prop :=
  e.BegunAfter before c p o d (.done e.result)

/-- A row of a log shows the entry, with an input and an output that suit its columns. -/
structure LoggedAs (e : Entry) (l : RunLog) : Prop where
  stepId : l.stepId = e.step.id
  stepOrder : l.stepOrder = e.step.order
  stepName : l.stepName = e.step.name
  status : l.status = e.shown.logStatus
  input : ColumnKind.data.Suits (Course.loggedInput e.shown.input) →
    l.input = Course.loggedInput e.shown.input
  output : ColumnKind.data.Suits (e.shown.output.getD .null) → l.output = e.shown.output.getD .null
  error : l.error = e.shown.error
  tokensUsed : l.tokensUsed = e.shown.tokensUsed

/-- What follows the entry once it is in the log: the run goes on or is over, as the entry says, or
it is halted because what a success emits could not be sent. -/
inductive Decides (e : Entry) : Verdict → Prop
  | next (goesOn : e.ends = false) : Decides e .next
  | last (ends : e.ends = true) : Decides e .over
  | unsent {r : StepResult} (halt : Halt) (result : e.result = some r) (success : r.success = true)
      (unsent : e.emitted = none) : Decides e (.halted halt)

end Entry

/-- How a run goes on from some progress with some steps: by which entries, with which step begun
but not logged, to which progress, and whether it is halted. A step that was not logged has no
effect but that items were added to a list and, when it had a result, that it counts; logging does
not fail where it may not. -/
inductive Story (mayFail : Prop) :
    List WorkflowStep → Progress → List Entry → Option Entry → Progress → Option Halt → Prop
  | finished (p : Progress) : Story mayFail [] p [] none p none
  | broken (ss : List WorkflowStep) (p : Progress) (halt : Halt) :
    Story mayFail ss p [] none p (some halt)
  | cut (e : Entry) (rest : List WorkflowStep) {p : Progress} (halt : Halt)
      (seen : e.seen = p.context) :
    Story mayFail (e.step :: rest) p [] (some e) (e.lengthen p) (some halt)
  | unlogged (e : Entry) (rest : List WorkflowStep) {p : Progress} {r : StepResult} (halt : Halt)
      (h : mayFail) (seen : e.seen = p.context) (result : e.result = some r) :
    Story mayFail (e.step :: rest) p [] (some e) ((e.lengthen p).count r) (some halt)
  | next (e : Entry) {rest : List WorkflowStep} {p q : Progress} {es : List Entry}
      {begun : Option Entry} {halt : Option Halt} (seen : e.seen = p.context)
      (goesOn : e.ends = false) (more : Story mayFail rest (e.effect p) es begun q halt) :
    Story mayFail (e.step :: rest) p (e :: es) begun q halt
  | last (e : Entry) (rest : List WorkflowStep) {p : Progress} (seen : e.seen = p.context)
      (ends : e.ends = true) : Story mayFail (e.step :: rest) p [e] none (e.effect p) none
  | unsent (e : Entry) (rest : List WorkflowStep) {p : Progress} {r : StepResult} (halt : Halt)
      (seen : e.seen = p.context) (result : e.result = some r) (success : r.success = true)
      (unsent : e.emitted = none) :
    Story mayFail (e.step :: rest) p [e] none (e.effect p) (some halt)

/-- The steps of a story are those that were to be carried out, up to where it ends. -/
theorem Story.begun_prefix {mayFail : Prop} {ss : List WorkflowStep} {p q : Progress}
    {es : List Entry} {begun : Option Entry} {halt : Option Halt}
    (h : Story mayFail ss p es begun q halt) :
    (es ++ begun.toList).map Entry.step <+: ss := by
  induction h with
  | finished | broken => exact List.nil_prefix
  | cut e rest | unlogged e rest | last e rest | unsent e rest =>
    exact List.cons_prefix_cons.2 ⟨rfl, List.nil_prefix⟩
  | next e seen goesOn more ih => exact List.cons_prefix_cons.2 ⟨rfl, ih⟩

theorem Story.steps_prefix {mayFail : Prop} {ss : List WorkflowStep} {p q : Progress}
    {es : List Entry} {begun : Option Entry} {halt : Option Halt}
    (h : Story mayFail ss p es begun q halt) : es.map Entry.step <+: ss := by
  have hbegun := h.begun_prefix
  rw [List.map_append] at hbegun
  exact (List.prefix_append _ _).trans hbegun

namespace Progress

@[simp] theorem stopped_count (p : Progress) (r : StepResult) :
    (p.count r).stopped = p.stopped := by
  unfold count
  split <;> rfl

@[simp] theorem error_count (p : Progress) (r : StepResult) : (p.count r).error = p.error := by
  unfold count
  split <;> rfl

theorem emitted_count (p : Progress) (r : StepResult) : (p.count r).emitted = p.emitted := by
  unfold count
  split <;> rfl

@[simp] theorem stopped_lengthen (p : Progress) (place : Option (List String))
    (items : List Json) : (p.lengthen place items).stopped = p.stopped := rfl

@[simp] theorem error_lengthen (p : Progress) (place : Option (List String))
    (items : List Json) : (p.lengthen place items).error = p.error := rfl

@[simp] theorem emitted_lengthen (p : Progress) (place : Option (List String))
    (items : List Json) : (p.lengthen place items).emitted = p.emitted := rfl

@[simp] theorem context_count (p : Progress) (r : StepResult) :
    (p.count r).context = p.context := by
  unfold count
  split <;> rfl

end Progress

namespace Entry

@[simp] theorem stopped_lengthen (e : Entry) (p : Progress) :
    (e.lengthen p).stopped = p.stopped := rfl

@[simp] theorem error_lengthen (e : Entry) (p : Progress) :
    (e.lengthen p).error = p.error := rfl

@[simp] theorem executed_lengthen (e : Entry) (p : Progress) :
    (e.lengthen p).executed = p.executed := rfl

end Entry

/-- An entry that does not end its run leaves it unstopped. -/
theorem Entry.stopped_effect (e : Entry) {p : Progress} (hp : p.stopped = false)
    (he : e.ends = false) : (e.effect p).stopped = false := by
  unfold effect
  unfold ends at he
  cases hr : e.result with
  | none => exact hp
  | some r =>
    simp only [hr] at he ⊢
    split
    · rename_i hs
      simp only [hs, if_true] at he
      cases e.emitted <;> simp [Progress.succeed, Progress.emit, hp, he]
    · cases e.step.onFailure <;> simp [Progress.tolerate, Progress.fail, hp]

namespace Course

variable {b o : Office} {c : Course} {d e : Desk}

theorem like_under (h : o.Like b) : (c.under o).Like b := Office.Like.under h _

/-- A part of a run either comes to its value or does not come to an end of its own. -/
theorem part_cases {α : Type} {x : Action α} {result : Except Halt α}
    (h : (c.part x).run o d = (.done result, e)) :
    (∃ a, result = .ok a ∧ x.run (c.under o) d = (.done a, e)) ∨
    ∃ halt ending, result = .error halt ∧ x.run (c.under o) d = (ending, e) ∧
      ∀ a, ending ≠ .done a := by
  obtain ⟨attempted, m, ha, h⟩ := Action.run_bind_eq_done.1 h
  cases attempted with
  | ok found =>
    have hb := Action.run_attempt_eq_ok.1 ha
    cases found with
    | some a =>
      obtain ⟨rfl, rfl⟩ := Action.run_pure_eq_done.1 h
      exact .inl ⟨a, rfl, Action.run_before_eq_some.1 hb⟩
    | none =>
      obtain ⟨rfl, rfl⟩ := Action.run_pure_eq_done.1 h
      rw [Action.run_before] at hb
      rcases hx : x.run { o with deadlines := c.deadline :: o.deadlines } d with
        ⟨a | failure | level, m'⟩ <;> rw [hx] at hb
      · simp at hb
      · simp at hb
      · refine .inr ⟨.late, .cut level, rfl, ?_, by simp⟩
        dsimp only at hb
        split at hb <;> simp only [Prod.mk.injEq, reduceCtorEq, false_and, true_and] at hb
        exact hb ▸ hx
  | error failure =>
    have hb := Action.run_attempt_eq_error.1 ha
    obtain ⟨rfl, rfl⟩ := Action.run_pure_eq_done.1 h
    rw [Action.run_before] at hb
    rcases hx : x.run { o with deadlines := c.deadline :: o.deadlines } d with
      ⟨a | failure' | level, m'⟩ <;> rw [hx] at hb
    · simp at hb
    · simp only [Prod.mk.injEq, Ending.failed.injEq] at hb
      exact .inr ⟨_, .failed failure', rfl, hb.2 ▸ hx, by simp⟩
    · dsimp only at hb
      split at hb <;> simp at hb

theorem part_eq_ok {α : Type} {x : Action α} {a : α}
    (h : (c.part x).run o d = (.done (.ok a), e)) : x.run (c.under o) d = (.done a, e) := by
  obtain ⟨a', ha, hx⟩ | ⟨_, _, ha, _⟩ := part_cases h
  · cases ha
    exact hx
  · cases ha

/-- What must hold for the steps of a run to be logged without fail: the office lets entries be
added, ids are fresh, and the orders of the steps and the counts of tokens fit the store. -/
structure Logs (b : Office) (ss : List WorkflowStep) (d : Desk) : Prop where
  adds : Action.faultOf b "add_run_log" = none
  fresh : d.Fresh
  orders : ∀ s ∈ ss, Column.fits s.order = true
  tokens : ∀ n, d.script.Counts n → Column.fits n = true

theorem Logs.of_grows {ss ss' : List WorkflowStep} {own : Option String} (h : Logs b ss d)
    (hsub : ∀ s ∈ ss', s ∈ ss) (hg : Grows own d e) (ho : ∀ id, own = some id → d.HasRun id) :
    Logs b ss' e where
  adds := h.adds
  fresh := hg.fresh h.fresh ho
  orders s hs := h.orders s (hsub s hs)
  tokens n := fun ⟨reply, hm, hn⟩ => h.tokens n ⟨reply, hg.model.mem hm, hn⟩

/-- An entry in the log of a run is one more entry of the run. -/
theorem entriesOf_withLog {l : RunLog} {id : String} (h : l.runId = id) :
    (d.withLog l).entriesOf id = d.entriesOf id ++ [l] := by
  simp [Desk.entriesOf, Desk.withLog, List.filter_append, h]

/-- The entry of a log that is written for a result shows it. -/
theorem loggedAs_entry (en : Entry) (c : Course) (d : Desk) :
    en.LoggedAs (Store.storedLog (c.entry en.step en.shown d)) :=
  ⟨rfl, rfl, rfl, rfl, Column.dataForm_of_suits, Column.dataForm_of_suits, rfl, rfl⟩

/-- To log a result within the time of a run either adds its entry or fails and adds nothing. -/
theorem part_log_cases {s : WorkflowStep} {r : StepResult} {result : Except Halt Unit}
    (h : (c.part (c.log s r)).run o d = (.done result, e)) :
    result = .ok () ∧ e = d.next.withLog (Store.storedLog (c.entry s r d)) ∨
    ∃ halt failure, result = .error halt ∧ e = d.next ∧
      (Action.faultOf (c.under o) "add_run_log" = some failure ∨
        d.store.addLog (c.entry s r d) = .error failure) := by
  obtain ⟨⟨⟩, rfl, hl⟩ | ⟨halt, ending, rfl, hl, hne⟩ := part_cases h
  · obtain ⟨failure, he, _⟩ | ⟨_, he⟩ := log_cases hl
    · simp at he
    · exact .inl ⟨rfl, he⟩
  · obtain ⟨failure, _, he, hf⟩ | ⟨he, _⟩ := log_cases hl
    · exact .inr ⟨halt, failure, rfl, he, hf⟩
    · exact absurd he (hne ())

/-- Where all is well for logging, the result of a step is logged. -/
theorem Logs.not_refused {s : WorkflowStep} {rest : List WorkflowStep} {r : StepResult}
    {failure : Failure} (h : Logs b (s :: rest) d) (ho : o.Like b) (hq : d.Quiet e)
    (ht : ∀ n, r.tokensUsed = some n → d.script.Counts n)
    (hf : Action.faultOf (c.under o) "add_run_log" = some failure ∨
      e.store.addLog (c.entry s r e) = .error failure) : False := by
  rcases hf with hf | hf
  · rw [(like_under ho).faultOf, h.adds] at hf
    simp at hf
  · have hl := Store.addLog_of_fits (s := e.store) (l := c.entry s r e)
      (h.orders s List.mem_cons_self) (fun n hn => h.tokens n (ht n hn))
      (fun old hold => ((h.fresh.of_quiet hq).logs old hold _ (Nat.le_refl _)).1)
    rw [hl] at hf
    simp at hf

/-- What follows the result of a step that is in the log. -/
theorem settle_cases {s : WorkflowStep} {r : StepResult} {p q : Progress} {v : Verdict}
    {added : List Json} (hp : p.stopped = false)
    (h : (c.settle s r ((p.lengthen (s.subject? (.object p.context)) added).count r)).run o d =
      (.done (q, v), e)) :
    ∃ emitted, q = Entry.effect ⟨s, p.context, some r, emitted, added⟩ p ∧
      Entry.Decides ⟨s, p.context, some r, emitted, added⟩ v := by
  set p' := (p.lengthen (s.subject? (.object p.context)) added).count r with hp'
  have hstopped : p'.stopped = false := by simpa [hp'] using hp
  have hdecides (hs : r.success = true) (emitted : Option String) :
      Entry.Decides ⟨s, p.context, some r, emitted, added⟩ (if r.stop then .over else .next) := by
    cases hstop : r.stop
    · exact .next (by simp [Entry.ends, hs, hstop])
    · exact .last (by simp [Entry.ends, hs, hstop])
  unfold settle at h
  split at h
  · rename_i hs
    obtain ⟨⟨⟩, m, _, h⟩ := Action.run_bind_eq_done.1 h
    have hv : verdict (p'.succeed s r) = if r.stop then .over else .next := by
      simp [verdict, Progress.succeed, hstopped]
    dsimp only at h
    split at h
    · simp only [Action.run_pure, Prod.mk.injEq, Ending.done.injEq] at h
      obtain ⟨⟨rfl, rfl⟩, _⟩ := h
      exact ⟨none, by simp [Entry.effect, Entry.lengthen, hs, hp'], hv ▸ hdecides hs none⟩
    · obtain ⟨sent, m', hsent, h⟩ := Action.run_bind_eq_done.1 h
      split at h
      · simp only [Action.run_pure, Prod.mk.injEq, Ending.done.injEq] at h
        obtain ⟨⟨rfl, rfl⟩, _⟩ := h
        exact ⟨none, by simp [Entry.effect, Entry.lengthen, hs, hp'], .unsent _ rfl hs rfl⟩
      · rename_i f event
        obtain ⟨⟨⟩, m'', _, h⟩ := Action.run_bind_eq_done.1 h
        simp only [Action.run_pure, Prod.mk.injEq, Ending.done.injEq] at h
        obtain ⟨⟨rfl, rfl⟩, _⟩ := h
        have hv' : verdict ((p'.succeed s r).emit event.id) = verdict (p'.succeed s r) := rfl
        exact ⟨some event.id, by simp [Entry.effect, Entry.lengthen, hs, hp'],
          (hv'.trans hv) ▸ hdecides hs _⟩
  · rename_i hs
    obtain ⟨⟨⟩, m, _, h⟩ := Action.run_bind_eq_done.1 h
    refine ⟨none, ?_⟩
    cases hpol : s.onFailure with
    | goOn =>
      simp only [hpol, Action.run_pure, Prod.mk.injEq, Ending.done.injEq] at h
      obtain ⟨⟨rfl, rfl⟩, _⟩ := h
      exact ⟨by simp [Entry.effect, Entry.lengthen, hs, hpol, hp'],
        .next (by simp [Entry.ends, hs, hpol])⟩
    | stop =>
      simp only [hpol, Action.run_pure, Prod.mk.injEq, Ending.done.injEq] at h
      obtain ⟨⟨rfl, rfl⟩, _⟩ := h
      exact ⟨by simp [Entry.effect, Entry.lengthen, hs, hpol, hp'],
        .last (by simp [Entry.ends, hs, hpol])⟩

/-- A step that is performed comes to its result within the time of the run. -/
theorem perform_eq_done {s : WorkflowStep} {context : Fields}
    {performed : Except Halt (Option StepResult) × List Json} :
    (c.perform s context).run o d = (.done performed, e) ↔
      (c.part (resultOf s context)).run o { d with added := [] } = (.done performed.1, e) ∧
        e.added = performed.2 := by
  unfold perform
  rw [Action.run_bind_of_done (Action.run_putAside [] o d)]
  constructor
  · intro h
    obtain ⟨result, m, hpart, h⟩ := Action.run_bind_eq_done.1 h
    rw [Action.run_bind_of_done (Action.run_added o m)] at h
    obtain ⟨rfl, rfl⟩ := Action.run_pure_eq_done.1 h
    exact ⟨hpart, rfl⟩
  · rintro ⟨hpart, hadded⟩
    rw [Action.run_bind_of_done hpart, Action.run_bind_of_done (Action.run_added o e), hadded]
    rfl

theorem tame_perform (c : Course) (s : WorkflowStep) (context : Fields) :
    (c.perform s context).Tame :=
  carries_perform (Action.Tame.reaches.carries fun _ _ => .tell _ _) s context

/-- How a step ends that is carried out from some progress on. Either its run is halted with no row
for it in the log: that it is skipped could not be logged, or it came to no result, or its result
was refused. Or it leaves one row, and then its entry has its effect and decides what follows. -/
inductive StepEnds (b o : Office) (c : Course) (p : Progress) (d e : Desk) :
    WorkflowStep → Progress → Verdict → Prop
  | broken (s : WorkflowStep) (halt : Halt) (same : e.entriesOf c.runId = d.entriesOf c.runId) :
    StepEnds b o c p d e s p (.halted halt)
  | cut (en : Entry) {ending : Ending (Option StepResult)} (halt : Halt)
      (seen : en.seen = p.context) (begun : en.BegunAfter [] c p o d ending)
      (same : e.entriesOf c.runId = d.entriesOf c.runId) :
    StepEnds b o c p d e en.step (en.lengthen p) (.halted halt)
  | unlogged (en : Entry) {ending : Ending (Option StepResult)} {r : StepResult} (halt : Halt)
      (seen : en.seen = p.context) (begun : en.BegunAfter [] c p o d ending)
      (same : e.entriesOf c.runId = d.entriesOf c.runId) (result : en.result = some r)
      (refused : ∀ rest, ¬ Logs b (en.step :: rest) d) :
    StepEnds b o c p d e en.step ((en.lengthen p).count r) (.halted halt)
  | logged (en : Entry) {row : RunLog} {v : Verdict} (seen : en.seen = p.context)
      (arose : en.AroseAfter [] c p o d) (shown : en.LoggedAs row)
      (log : e.entriesOf c.runId = d.entriesOf c.runId ++ [row]) (decides : en.Decides v) :
    StepEnds b o c p d e en.step (en.effect p) v

/-- To perform a step logs nothing. -/
theorem entriesOf_perform {s : WorkflowStep} {context : Fields} {m : Desk}
    {ending : Ending (Except Halt (Option StepResult) × List Json)}
    (h : (c.perform s context).run o d = (ending, m)) (id : String) :
    m.entriesOf id = d.entriesOf id := by
  simp only [Desk.entriesOf, ((tame_perform _ _ _).quiet_of_run h).logs]

section

variable {s : WorkflowStep} {p q : Progress} {v : Verdict} {m : Desk} {added : List Json}

theorem stepEnds_of_halted {halt : Halt}
    (hperformed : (c.perform s p.context).run o d = (.done (.error halt, added), m))
    (h : (c.step s p).run o d = (.done (q, v), e)) : StepEnds b o c p d e s q v := by
  have hsame := entriesOf_perform hperformed c.runId
  rw [step, Action.run_bind_of_done hperformed] at h
  simp only [Action.run_pure, Prod.mk.injEq, Ending.done.injEq] at h
  obtain ⟨⟨rfl, rfl⟩, rfl⟩ := h
  obtain ⟨hres, hadded⟩ := perform_eq_done.1 hperformed
  obtain ⟨_, hok, _⟩ | ⟨_, ending, _, hx, _⟩ := part_cases hres
  · cases hok
  · exact .cut ⟨s, p.context, none, none, added⟩ halt rfl ⟨p, d, m, rfl, rfl, hx, hadded⟩ hsame

/-- A step whose guards do not hold. -/
theorem stepEnds_of_skipped
    (hperformed : (c.perform s p.context).run o d = (.done (.ok none, added), m))
    (h : (c.step s p).run o d = (.done (q, v), e)) : StepEnds b o c p d e s q v := by
  have hsame := entriesOf_perform hperformed c.runId
  obtain ⟨hres, hadded⟩ := perform_eq_done.1 hperformed
  rw [step, Action.run_bind_of_done hperformed] at h
  obtain ⟨logged, m', hlog, h⟩ := Action.run_bind_eq_done.1 h
  obtain ⟨rfl, rfl⟩ | ⟨halt, failure, rfl, rfl, _⟩ := part_log_cases hlog
  · obtain ⟨⟨⟩, m'', htell, h⟩ := Action.run_bind_eq_done.1 h
    simp only [Action.run_pure, Prod.mk.injEq, Ending.done.injEq] at h
    obtain ⟨⟨rfl, rfl⟩, rfl⟩ := h
    let en : Entry := ⟨s, p.context, none, none, added⟩
    refine .logged en rfl ⟨_, _, _, rfl, rfl, part_eq_ok hres, hadded⟩ (loggedAs_entry en c m) ?_
      (.next rfl)
    rw [← hsame]
    have hl := (Tame.tell _ _).quiet_of_run htell |>.logs
    simp only [Desk.entriesOf, hl]
    exact entriesOf_withLog (d := m.next) rfl
  · simp only [Action.run_pure, Prod.mk.injEq, Ending.done.injEq] at h
    obtain ⟨⟨rfl, rfl⟩, rfl⟩ := h
    exact .broken s _ hsame

/-- A step that has come to a result. -/
theorem stepEnds_of_result {r : StepResult}
    (hem : ∀ f, Leads (·.Like b) (Grows none) (c.emitter f)) (ho : o.Like b)
    (hp : p.stopped = false) (hr : d.HasRun c.runId)
    (hperformed : (c.perform s p.context).run o d = (.done (.ok (some r), added), m))
    (h : (c.step s p).run o d = (.done (q, v), e)) : StepEnds b o c p d e s q v := by
  have hsame := entriesOf_perform hperformed c.runId
  have hq : d.Quiet m := (tame_perform _ _ _).quiet_of_run hperformed
  obtain ⟨hres, hadded⟩ := perform_eq_done.1 hperformed
  have hx := part_eq_ok hres
  rw [step, Action.run_bind_of_done hperformed] at h
  obtain ⟨logged, m', hlog, h⟩ := Action.run_bind_eq_done.1 h
  obtain ⟨rfl, rfl⟩ | ⟨halt, failure, rfl, rfl, hf⟩ := part_log_cases hlog
  · obtain ⟨emitted, rfl, hdecides⟩ := settle_cases hp h
    let en : Entry := ⟨s, p.context, some r, emitted, added⟩
    refine .logged en rfl ⟨_, _, _, rfl, rfl, hx, hadded⟩ (loggedAs_entry en c m) ?_ hdecides
    have hg := leads_settle (R := Grows none) hem s r
      ((p.lengthen (s.subject? (.object p.context)) added).count r) o
      (m.next.withLog (Store.storedLog (c.entry s r m))) ho
    rw [h] at hg
    have hm : (m.next.withLog (Store.storedLog (c.entry s r m))).HasRun c.runId := by
      obtain ⟨r', hr', hid⟩ := hr
      exact ⟨r', hq.runs ▸ hr', hid⟩
    rw [hg.logs _ hm (by simp), ← hsame]
    exact entriesOf_withLog (d := m.next) rfl
  · simp only [Action.run_pure, Prod.mk.injEq, Ending.done.injEq] at h
    obtain ⟨⟨rfl, rfl⟩, rfl⟩ := h
    refine .unlogged ⟨s, p.context, some r, none, added⟩ _ rfl ⟨p, d, _, rfl, rfl, hx, hadded⟩ hsame
      rfl fun rest hl => ?_
    exact hl.not_refused ho hq (fun n hn => counts_of_resultOf hx hn) hf

/-- A step that is carried out leaves its row in the log, or halts its run. -/
theorem stepEnds_of_step (hem : ∀ f, Leads (·.Like b) (Grows none) (c.emitter f)) (ho : o.Like b)
    (hp : p.stopped = false) (hr : d.HasRun c.runId)
    (h : (c.step s p).run o d = (.done (q, v), e)) : StepEnds b o c p d e s q v := by
  obtain ⟨⟨result, added⟩, m, hperformed, _⟩ := Action.run_bind_eq_done.1 h
  cases result with
  | error halt => exact stepEnds_of_halted hperformed h
  | ok result =>
    cases result with
    | none => exact stepEnds_of_skipped hperformed h
    | some r => exact stepEnds_of_result hem ho hp hr hperformed h

end

theorem run_steps_of_next {s : WorkflowStep} {rest : List WorkflowStep} {p q : Progress} {m : Desk}
    (h : (c.step s p).run o d = (.done (q, .next), m)) :
    (c.steps (s :: rest) p).run o d = (c.steps rest q).run o m := by
  rw [steps, Action.run_bind_of_done h]

/-- What comes after some steps from a step on comes after that step and them. -/
theorem begunAfter_cons {s : WorkflowStep} {p q : Progress} {m : Desk}
    (h : (c.step s p).run o d = (.done (q, .next), m)) {en : Entry} {before : List WorkflowStep}
    {ending : Ending (Option StepResult)} (hb : en.BegunAfter before c q o m ending) :
    en.BegunAfter (s :: before) c p o d ending := by
  obtain ⟨q', m', m'', hs, hseen, hres⟩ := hb
  exact ⟨q', m', m'', (run_steps_of_next h).trans hs, hseen, hres⟩

/-- The steps of a run that come to an end have a story, and the log of the run shows one row per
entry. -/
theorem exists_story (mayFail : Prop)
    (hem : ∀ f, Leads (·.Like b) (Grows none) (c.emitter f)) (ho : o.Like b)
    {ss : List WorkflowStep} :
    ∀ {p q : Progress} {halt : Option Halt} {d e : Desk}, p.stopped = false →
      d.HasRun c.runId → mayFail ∨ Logs b ss d →
      (c.steps ss p).run o d = (.done (q, halt), e) →
      ∃ es begun rows, Story mayFail ss p es begun q halt ∧
        (∀ (i : Nat) (en : Entry), es[i]? = some en → en.AroseAfter (ss.take i) c p o d) ∧
        (∀ en ∈ begun, ∃ ending, en.BegunAfter (ss.take es.length) c p o d ending) ∧
        List.Forall₂ Entry.LoggedAs es rows ∧
        e.entriesOf c.runId = d.entriesOf c.runId ++ rows := by
  induction ss with
  | nil =>
    intro p q halt d e _ _ _ h
    simp only [steps, Action.run_pure, Prod.mk.injEq, Ending.done.injEq] at h
    obtain ⟨⟨rfl, rfl⟩, rfl⟩ := h
    exact ⟨[], none, [], .finished p, by simp, by simp, .nil, by simp⟩
  | cons s rest ih =>
    intro p q halt d e hp hr hl h
    obtain ⟨⟨p', v⟩, m, hs, h⟩ := Action.run_bind_eq_done.1 h
    have hg : Grows (some c.runId) d m := by
      have := leads_step (R := Grows (some c.runId)) c.leads_log
        (fun f => (hem f).mono fun h => h.of_none) s p o d ho
      rw [hs] at this
      exact this
    cases stepEnds_of_step hem ho hp hr hs with
    | broken _ halt' hsame =>
      simp only [Action.run_pure, Prod.mk.injEq, Ending.done.injEq] at h
      obtain ⟨⟨rfl, rfl⟩, rfl⟩ := h
      exact ⟨[], none, [], .broken _ _ _, by simp, by simp, .nil, by simp [hsame]⟩
    | cut en halt' hseen hbegun hsame =>
      simp only [Action.run_pure, Prod.mk.injEq, Ending.done.injEq] at h
      obtain ⟨⟨rfl, rfl⟩, rfl⟩ := h
      exact ⟨[], some en, [], .cut en rest _ hseen, by simp,
        fun en' hen' => ⟨_, Option.some.inj hen' ▸ hbegun⟩, .nil, by simp [hsame]⟩
    | unlogged en halt' hseen hbegun hsame hresult hrefused =>
      simp only [Action.run_pure, Prod.mk.injEq, Ending.done.injEq] at h
      obtain ⟨⟨rfl, rfl⟩, rfl⟩ := h
      exact ⟨[], some en, [], .unlogged en rest _ (hl.resolve_right (hrefused rest)) hseen hresult,
        by simp, fun en' hen' => ⟨_, Option.some.inj hen' ▸ hbegun⟩, .nil, by simp [hsame]⟩
    | @logged en row _ hseen ha hrow hlog hdecides =>
      have hone : ∀ (i : Nat) (en' : Entry), [en][i]? = some en' →
          en'.AroseAfter ((en.step :: rest).take i) c p o d := by
        intro i en' h'
        obtain ⟨rfl, rfl⟩ : i = 0 ∧ en = en' := by
          cases i <;> simp_all
        exact ha
      cases hdecides with
      | next hends =>
        obtain ⟨es, begun, rows, hst, hes, hbegun, hall, hlog'⟩ := ih (en.stopped_effect hp hends)
          (hg.hasRun _ hr) (hl.imp_right fun hl => hl.of_grows (fun _ => List.mem_cons_of_mem _) hg
            fun _ heq => Option.some.inj heq ▸ hr) h
        refine ⟨en :: es, begun, row :: rows, .next en hseen hends hst, ?_, ?_, .cons hrow hall, ?_⟩
        · intro i en' hen'
          cases i with
          | zero => exact hone 0 en' hen'
          | succ i => exact begunAfter_cons hs (hes i en' hen')
        · intro en' hen'
          obtain ⟨ending, hen'⟩ := hbegun en' hen'
          exact ⟨ending, begunAfter_cons hs hen'⟩
        · rw [hlog', hlog, List.append_assoc, List.singleton_append]
      | last hends =>
        simp only [Action.run_pure, Prod.mk.injEq, Ending.done.injEq] at h
        obtain ⟨⟨rfl, rfl⟩, rfl⟩ := h
        exact ⟨[en], none, [row], .last en rest hseen hends, hone, by simp, .cons hrow .nil, hlog⟩
      | unsent halt' hresult hsucc hunsent =>
        simp only [Action.run_pure, Prod.mk.injEq, Ending.done.injEq] at h
        obtain ⟨⟨rfl, rfl⟩, rfl⟩ := h
        exact ⟨[en], none, [row], .unsent en rest halt' hseen hresult hsucc hunsent, hone, by simp,
          .cons hrow .nil, hlog⟩

end Course

end LeadDesk
