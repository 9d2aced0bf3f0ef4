import LeadDesk.Proofs.Growth
/-!
# How runs and dispatches end

The parts of a run are carried out before the deadline of the run, so that a run is cut off by a
deadline around it only (`Workflow.timely_run`), and the same holds of a dispatch. Whatever fails
in the steps of a run ends them and not the run: a run whose record is stored comes to its outcome
unless it is cut off or its record cannot be updated (`Workflow.conduct_cases`). So does a dispatch
whose workflows can be looked up and whose event can be marked (`Dispatch.handling_of_event`).
-/

namespace LeadDesk

namespace Action

variable {α β : Type} {x : Action α}

/-- The action does not fail. -/
def Sure (x : Action α) : Prop := ∀ o d failure, (x.run o d).1 ≠ .failed failure

namespace Sure

theorem pure (a : α) : Sure (pure a) := by simp [Sure]

theorem bind {f : α → Action β} (hx : Sure x) (hf : ∀ a, Sure (f a)) : Sure (x >>= f) := by
  intro o d failure h
  rw [run_bind] at h
  rcases hm : x.run o d with ⟨a | failure' | level, m⟩ <;> rw [hm] at h
  · exact hf a o m failure h
  · exact hx o d failure' (by rw [hm])
  · simp at h

theorem attempt (x : Action α) : Sure (attempt x) := attempt_ne_failed x

theorem tell (event : String) (data : Fields) : Sure (tell event data) := by
  simp [Sure, Action.run_tell]

theorem office : Sure office := by simp [Sure, Action.office]

theorem deadline (limit : Limit) : Sure (deadline limit) := by simp [Sure, Action.deadline]

theorem now : Sure now := by simp [Sure, Action.now]

theorem added : Sure added := by simp [Sure]

theorem putAside (items : List Json) : Sure (putAside items) := by simp [Sure]

theorem note (f : Journal → Journal) : Sure (note f) := by simp [Sure, Action.note]

theorem sleep (seconds : Double) : Sure (sleep seconds) := by
  refine (note _).bind fun _ => bind ?_ fun nap => ?_
  · intro o d failure
    unfold nextNap
    dsimp only
    split <;> simp
  · cases nap with
    | zero => exact pure _
    | succ micros =>
      intro o d failure
      simp only [elapse]
      split
      · split <;> simp
      · simp

end Sure

end Action

open LeadDesk.Action (Sure Tame Timely Punctual)

/-! ## The steps of a run -/

namespace Course

variable {c : Course}

theorem sure_part {α : Type} (c : Course) (x : Action α) : (c.part x).Sure := by
  refine (Sure.attempt _).bind fun result => ?_
  split <;> exact .pure _

/-- A part of a run is cut off by the deadlines around the run only: its own deadline halts it. -/
theorem timely_part {α : Type} (c : Course) {x : Action α} (hx : x.Punctual) :
    (c.part x).Timely := by
  refine (Timely.before _ hx).attempt.bind fun result => ?_
  split <;> exact .pure _

theorem sure_settle (c : Course) (s : WorkflowStep) (r : StepResult) (p : Progress) :
    (c.settle s r p).Sure := by
  unfold settle
  split
  · refine (Sure.tell _ _).bind fun _ => ?_
    dsimp only
    split
    · exact .pure _
    · refine (sure_part c _).bind fun result => ?_
      split
      · exact .pure _
      · exact (Sure.tell _ _).bind fun _ => .pure _
  · refine (Sure.tell _ _).bind fun _ => ?_
    cases s.onFailure <;> exact .pure _

theorem sure_perform (c : Course) (s : WorkflowStep) (context : Fields) :
    (c.perform s context).Sure :=
  (Sure.putAside _).bind fun _ => (sure_part c _).bind fun _ => Sure.added.bind fun _ => .pure _

theorem sure_step (c : Course) (s : WorkflowStep) (p : Progress) : (c.step s p).Sure := by
  refine (sure_perform c s _).bind fun performed => ?_
  split
  · exact .pure _
  · refine (sure_part c _).bind fun logged => ?_
    split
    · exact .pure _
    · exact (Sure.tell _ _).bind fun _ => .pure _
  · refine (sure_part c _).bind fun logged => ?_
    split
    · exact .pure _
    · exact sure_settle _ _ _ _

/-- Whatever fails in the steps of a run is a matter of its progress. -/
theorem sure_steps (c : Course) (ss : List WorkflowStep) : ∀ p, (c.steps ss p).Sure := by
  induction ss with
  | nil => exact fun p => .pure _
  | cons s rest ih =>
    intro p
    refine (sure_step c s p).bind fun out => ?_
    split
    · exact ih _
    · exact .pure _
    · exact .pure _

theorem timely_log (c : Course) (s : WorkflowStep) (r : StepResult) : (c.log s r).Timely :=
  Timely.newId.bind fun _ => Timely.now.bind fun _ => .change _ _

theorem timely_settle (hem : ∀ f, (c.emitter f).Punctual) (s : WorkflowStep) (r : StepResult)
    (p : Progress) : (c.settle s r p).Timely := by
  unfold settle
  split
  · refine (Timely.tell _ _).bind fun _ => ?_
    dsimp only
    split
    · exact .pure _
    · have hemit := (Timely.ofExcept (followUp (p.succeed s r).context ‹_›)).punctual.bind fun f =>
        (hem f).bind fun event => Punctual.pure (f, event)
      refine (timely_part c hemit).bind fun result => ?_
      split
      · exact .pure _
      · exact (Timely.tell _ _).bind fun _ => .pure _
  · refine (Timely.tell _ _).bind fun _ => ?_
    cases s.onFailure <;> exact .pure _

theorem timely_perform (c : Course) (s : WorkflowStep) (context : Fields) :
    (c.perform s context).Timely :=
  (Timely.putAside _).bind fun _ =>
    (timely_part c (tame_resultOf s context).punctual).bind fun _ =>
      Timely.added.bind fun _ => .pure _

theorem timely_step (hem : ∀ f, (c.emitter f).Punctual) (s : WorkflowStep) (p : Progress) :
    (c.step s p).Timely := by
  refine (timely_perform c s _).bind fun performed => ?_
  split
  · exact .pure _
  · refine (timely_part c (timely_log c _ _).punctual).bind fun logged => ?_
    split
    · exact .pure _
    · exact (Timely.tell _ _).bind fun _ => .pure _
  · refine (timely_part c (timely_log c _ _).punctual).bind fun logged => ?_
    split
    · exact .pure _
    · exact timely_settle hem _ _ _

/-- However long a step takes, the steps of a run end in time. -/
theorem timely_steps (hem : ∀ f, (c.emitter f).Punctual) (ss : List WorkflowStep) :
    ∀ p, (c.steps ss p).Timely := by
  induction ss with
  | nil => exact fun p => .pure _
  | cons s rest ih =>
    intro p
    refine (timely_step hem s p).bind fun out => ?_
    split
    · exact ih _
    · exact .pure _
    · exact .pure _

end Course

/-! ## Runs -/

namespace Workflow

variable {w : Workflow} {em : Emitter}

theorem sure_carryOut (w : Workflow) (em : Emitter) (id : String) (seed : Fields) :
    (w.carryOut em id seed).Sure := by
  refine Sure.office.bind fun office => ?_
  dsimp only
  split
  · exact .pure _
  · exact (Sure.deadline _).bind fun _ => (Course.sure_steps _ _ _).bind fun _ => .pure _

theorem timely_carryOut (hem : ∀ f, (em f).Punctual) (id : String) (seed : Fields) :
    (w.carryOut em id seed).Timely := by
  refine Timely.office.bind fun office => ?_
  dsimp only
  split
  · exact .pure _
  · refine (Timely.deadline _).bind fun deadline => ?_
    exact (Course.timely_steps hem _ _).bind fun _ => .pure _

theorem timely_closeRun (id : String) (p : Progress) : (closeRun id p).Timely :=
  Timely.now.bind fun _ => (Timely.change _ _).bind fun _ => .pure _

theorem timely_conduct (hem : ∀ f, (em f).Punctual) (id : String) (seed : Fields) :
    (w.conduct em id seed).Timely :=
  (Timely.tell _ _).bind fun _ => (timely_carryOut hem id seed).bind fun _ =>
    (timely_closeRun _ _).bind fun _ => (Timely.tell _ _).bind fun _ => .pure _

theorem timely_openRun (w : Workflow) (seed : Fields) (triggeredBy : String) :
    (w.openRun seed triggeredBy).Timely := by
  refine (Timely.ofExcept _).bind fun fields => Timely.newId.bind fun id =>
    Timely.now.bind fun now => ?_
  split
  · exact .change _ _
  · exact .fail _

/-- A run is cut off by a deadline around it only. -/
theorem timely_run (hem : ∀ f, (em f).Punctual) (context : Json) (triggeredBy : String) :
    (w.run em context triggeredBy).Timely :=
  (Timely.ofExcept _).bind fun _ => (timely_openRun w _ _).bind fun _ => timely_conduct hem _ _

/-- From its opening on a run is either cut off in its steps, or carried out and then closed. -/
theorem conduct_cases {id : String} {seed : Fields} {o : Office} {d e : Desk}
    {ending : Ending RunOutcome} (h : (w.conduct em id seed).run o d = (ending, e)) :
    ∃ m, d.Quiet m ∧
      ((∃ level, ending = .cut level ∧ (w.carryOut em id seed).run o m = (.cut level, e)) ∨
      ∃ p m', (w.carryOut em id seed).run o m = (.done p, m') ∧
        ((∃ failure, ending = .failed failure ∧ m'.Quiet e ∧
            Action.faultOf o "update_run" = some failure) ∨
          ending = .done (w.outcome id p) ∧
            (m'.withUpdate id (p.closing m'.time)).Quiet e)) := by
  rcases htell : (Action.tell "run_started" [("run_id", .string id), ("workflow", .string w.slug),
    ("steps", .int w.steps.length)]).run o d with ⟨⟨⟩ | _ | _, m⟩
  · refine ⟨m, (Action.Tame.tell _ _).quiet_of_run htell, ?_⟩
    rw [conduct, Action.run_bind_of_done htell] at h
    rcases hcarry : (w.carryOut em id seed).run o m with ⟨p | failure | level, m'⟩
    · rw [Action.run_bind_of_done hcarry] at h
      refine .inr ⟨p, m', rfl, ?_⟩
      rcases hclose : (closeRun id p).run o m' with ⟨closing, m''⟩
      obtain ⟨failure, rfl, hq, hf⟩ | ⟨rfl, rfl⟩ := closeRun_cases hclose
      · rw [Action.run_bind_of_failed hclose] at h
        obtain ⟨rfl, rfl⟩ := Prod.mk.inj h
        exact .inl ⟨failure, rfl, hq, hf⟩
      · rw [Action.run_bind_of_done hclose, Action.run_bind, Action.run_tell] at h
        obtain ⟨rfl, rfl⟩ := Prod.mk.inj h
        refine .inr ⟨rfl, ?_⟩
        have hc : m'.clock ≤ m'.clock + 1 := by omega
        exact ⟨{ Desk.Steady.refl _ with clock := hc }, rfl⟩
    · exact absurd (by rw [hcarry]) (sure_carryOut w em id seed o m failure)
    · rw [Action.run_bind_of_cut hcarry] at h
      obtain ⟨rfl, rfl⟩ := Prod.mk.inj h
      exact .inl ⟨level, rfl, rfl⟩
  · simp [Action.run_tell] at htell
  · simp [Action.run_tell] at htell

/-- Where no deadline is set and records of runs can be updated, a run whose record is stored comes
to its outcome. -/
theorem exists_outcome {seed : Fields} {context : Json} {triggeredBy : String} {o : Office}
    {d : Desk} (hem : ∀ f, (em f).Punctual) (ho : o.deadlines = [])
    (hw : Action.faultOf o "update_run" = none) (hs : startContext context = .ok seed)
    (hopen : ∃ r, ((w.openRun seed triggeredBy).run o d).1 = .done r) :
    ∃ out e, (w.run em context triggeredBy).run o d = (.done out, e) := by
  obtain ⟨r, hr⟩ := hopen
  rcases hm : (w.openRun seed triggeredBy).run o d with ⟨ending, m⟩
  rw [hm] at hr
  subst hr
  have hrun : (w.run em context triggeredBy).run o d = (w.conduct em r.id seed).run o m := by
    rw [run, hs]
    exact Action.run_bind_of_done hm
  rcases hc : (w.conduct em r.id seed).run o m with ⟨ending, e⟩
  obtain ⟨_, _, ⟨level, rfl, _⟩ | ⟨p, m', _, ⟨failure, _, _, hf⟩ | ⟨rfl, _⟩⟩⟩ := conduct_cases hc
  · have hlevel := timely_conduct hem r.id seed o m level (by rw [hc])
    simp only [ho, List.length_nil] at hlevel
    omega
  · simp [hw] at hf
  · exact ⟨_, e, hrun.trans hc⟩

end Workflow

/-! ## Dispatches -/

theorem Emitter.timely_queue (f : FollowUp) : (queue f).Timely := by
  refine Timely.newId.bind fun id => Timely.now.bind fun now => ?_
  dsimp only
  split
  · exact (Timely.pure _).bind fun _ => .change _ _
  · exact (Timely.fail _).bind fun _ => .change _ _

namespace Dispatch

variable {em : Emitter}

theorem timely_markProcessed (id : String) : (Archive.markProcessed id).Timely := by
  refine (Timely.query _ _).bind fun found => ?_
  split
  · exact .pure _
  · exact Timely.now.bind fun _ => .change _ _

/-- A dispatch is cut off by a deadline around it only. -/
theorem timely_event (hem : ∀ f, (em f).Punctual) (e : Event) : (event em e).Timely :=
  composes_event Timely.composes (fun _ => Workflow.timely_run hem _ _) (timely_markProcessed _)

/-- The runs of a dispatch end one after the other, whatever becomes of them. -/
theorem sure_runAll (em : Emitter) (e : Event) (ws : List Workflow) : (runAll em e ws).Sure := by
  induction ws with
  | nil => exact .pure _
  | cons w rest ih =>
    have hone : (runOne em e w).Sure := by
      refine (Sure.attempt _).bind fun result => ?_
      split <;> exact .pure _
    exact hone.bind fun _ => ih.bind fun _ => .pure _

theorem timely_inline (bound : Int) (levels : Nat) : ∀ f, (inline bound levels f).Timely :=
  composes_inline Timely.composes Emitter.timely_queue
    (fun _ ih e => timely_event (fun f => (ih f).punctual) e) levels

theorem timely_emitterFor (settings : Settings) (f : FollowUp) :
    (emitterFor settings f).Timely := by
  unfold emitterFor
  split
  · exact timely_inline _ _ f
  · exact Emitter.timely_queue f

/-- To wait for an event changes nothing that is stored. -/
theorem tame_wait (ev : Event) : Tame (wait ev) := by
  unfold wait
  split
  · refine Tame.now.bind fun now => ?_
    dsimp only
    split
    · exact .sleep _
    · exact .pure _
  · exact .pure _

theorem sure_wait (ev : Event) : (wait ev).Sure := by
  unfold wait
  split
  · refine Sure.now.bind fun now => ?_
    dsimp only
    split
    · exact .sleep _
    · exact .pure _
  · exact .pure _

end Dispatch

/-- Active workflows are looked up unless the store refuses. -/
theorem Archive.activeWorkflows_cases {trigger : String} {o : Office} {d e : Desk}
    {ending : Ending (List Workflow)} (h : (activeWorkflows trigger).run o d = (ending, e)) :
    e = d ∧ ((∃ failure, ending = .failed failure ∧
        Action.faultOf o "list_active_workflows" = some failure) ∨
      ending = .done (d.store.activeWorkflows trigger)) := by
  simp only [activeWorkflows, Action.query] at h
  split at h
  · rename_i failure hf
    obtain ⟨rfl, rfl⟩ := Prod.mk.inj h
    exact ⟨rfl, .inl ⟨failure, rfl, hf⟩⟩
  · obtain ⟨rfl, rfl⟩ := Prod.mk.inj h
    exact ⟨rfl, .inr rfl⟩

/-- The result of a dispatch tells of an event that was handled with these outcomes. -/
structure DispatchResult.Tells (r : DispatchResult) (ev : Event) (outs : List RunOutcome) :
    Prop where
  eventId : r.eventId = some ev.id
  results : r.results = outs
  workflowsRun : r.workflowsRun = outs.length
  handled : r.skipped = false

namespace Dispatch

variable {em : Emitter} {ev : Event} {o : Office} {d : Desk}

/-- How a dispatch of an event that is not processed may end, and where: it is cut off while it
waits, it cannot look the workflows up, it is cut off while these are run, the event cannot be
marked, or it returns. -/
inductive Handling (em : Emitter) (ev : Event) (o : Office) (d : Desk) :
    Ending DispatchResult → Desk → Prop
  | late {level : Nat} {e : Desk} (quiet : d.Quiet e) : Handling em ev o d (.cut level) e
  | unlisted {failure : Failure} {e : Desk} (quiet : d.Quiet e)
      (fault : Action.faultOf o "list_active_workflows" = some failure) :
      Handling em ev o d (.failed failure) e
  | cut {level : Nat} {m e : Desk} (quiet : d.Quiet m)
      (ran : (runAll em ev (m.store.activeWorkflows ev.type)).run o m = (.cut level, e)) :
      Handling em ev o d (.cut level) e
  | unmarked {failure : Failure} {outs : List RunOutcome} {m m' e : Desk} (quiet : d.Quiet m)
      (ran : (runAll em ev (m.store.activeWorkflows ev.type)).run o m = (.done outs, m'))
      (fault : Action.faultOf o "mark_event_processed" = some failure) :
      Handling em ev o d (.failed failure) e
  | handled {r : DispatchResult} {outs : List RunOutcome} {m m' e : Desk} (quiet : d.Quiet m)
      (ran : (runAll em ev (m.store.activeWorkflows ev.type)).run o m = (.done outs, m'))
      (marked : (Archive.markProcessed ev.id).run o m' = (.done (), e)) (tells : r.Tells ev outs) :
      Handling em ev o d (.done r) e

/-- When its runs are made a dispatch marks the event and tells of them. -/
theorem handling_of_runAll {m m' e : Desk} {outs : List RunOutcome} {r : DispatchResult}
    {ending : Ending DispatchResult} (quiet : d.Quiet m)
    (ran : (runAll em ev (m.store.activeWorkflows ev.type)).run o m = (.done outs, m'))
    (tells : r.Tells ev outs)
    (h : (do Archive.markProcessed ev.id; return r : Action DispatchResult).run o m' =
      (ending, e)) : Handling em ev o d ending e := by
  rcases hmark : (Archive.markProcessed ev.id).run o m' with ⟨marking, m''⟩
  obtain ⟨failure, rfl, _, hf⟩ | ⟨rfl, _⟩ | ⟨rfl, _⟩ := Archive.markProcessed_cases hmark
  · rw [Action.run_bind_of_failed hmark] at h
    obtain ⟨rfl, rfl⟩ := Prod.mk.inj h
    exact .unmarked quiet ran hf
  · rw [Action.run_bind_of_done hmark] at h
    obtain ⟨rfl, rfl⟩ := Prod.mk.inj h
    exact .handled quiet ran hmark tells
  · rw [Action.run_bind_of_done hmark] at h
    obtain ⟨rfl, rfl⟩ := Prod.mk.inj h
    exact .handled quiet ran hmark tells

/-- An event that is not processed is waited for and its workflows are looked up. Then these are
run and the event is marked. -/
theorem handling_of_event (hopen : ev.processed = false) {ending : Ending DispatchResult} {e : Desk}
    (h : (event em ev).run o d = (ending, e)) : Handling em ev o d ending e := by
  rw [event, if_neg (Bool.eq_false_iff.1 hopen)] at h
  rcases hwait : (wait ev).run o d with ⟨⟨⟩ | failure | level, m⟩
  · have hq : d.Quiet m := (tame_wait ev).quiet_of_run hwait
    rw [Action.run_bind_of_done hwait] at h
    rcases hws : (Archive.activeWorkflows ev.type).run o m with ⟨found, m'⟩
    obtain ⟨rfl, ⟨failure, rfl, hf⟩ | rfl⟩ := Archive.activeWorkflows_cases hws
    · rw [Action.run_bind_of_failed hws] at h
      obtain ⟨rfl, rfl⟩ := Prod.mk.inj h
      exact .unlisted hq hf
    rw [Action.run_bind_of_done hws] at h
    -- Without workflows, there is nothing to run before the event is marked.
    cases hfound : m'.store.activeWorkflows ev.type with
    | nil =>
      rw [hfound] at h
      exact handling_of_runAll hq (by rw [hfound]; rfl) ⟨rfl, rfl, rfl, rfl⟩ h
    | cons w rest =>
      rw [hfound] at h
      rcases hall : (runAll em ev (w :: rest)).run o m' with ⟨outs | failure | level, m''⟩
      · rw [Action.run_bind_of_done hall] at h
        exact handling_of_runAll hq (hfound ▸ hall) ⟨rfl, rfl, rfl, rfl⟩ h
      · exact absurd (by rw [hall]) (sure_runAll em ev (w :: rest) o m' failure)
      · rw [Action.run_bind_of_cut hall] at h
        obtain ⟨rfl, rfl⟩ := Prod.mk.inj h
        exact .cut hq (hfound ▸ hall)
  · exact absurd (by rw [hwait]) (sure_wait ev o d failure)
  · rw [Action.run_bind_of_cut hwait] at h
    obtain ⟨rfl, rfl⟩ := Prod.mk.inj h
    exact .late ((tame_wait ev).quiet_of_run hwait)

/-- A dispatch does not fail where workflows can be looked up and events be marked. -/
theorem event_ne_failed (hfinds : Action.faultOf o "list_active_workflows" = none)
    (hmarks : Action.faultOf o "mark_event_processed" = none) (failure : Failure) :
    ((event em ev).run o d).1 ≠ .failed failure := by
  intro h
  cases hopen : ev.processed with
  | true =>
    rw [run_event_of_processed em hopen] at h
    cases h
  | false =>
    rcases hrun : (event em ev).run o d with ⟨ending, e⟩
    rw [hrun] at h
    cases handling_of_event hopen hrun with
    | late _ | cut _ _ | handled _ _ _ _ => cases h
    | unlisted _ fault =>
      rw [hfinds] at fault
      cases fault
    | unmarked _ _ fault =>
      rw [hmarks] at fault
      cases fault

end Dispatch

/-- A workflow that asks for an answer and then calls a tool that is not there. -/
def Workflow.askThenCall : Workflow where
  id := "ask-then-call"
  slug := "ask-then-call"
  name := "Ask, then call"
  trigger := "asked"
  steps := [
    { order := 2, name := "call", action := .toolCall, config := [("tool", .string "missing")],
      onFailure := .goOn },
    { order := 1, name := "ask", action := .prompt, output := some "answer" }]

/-- Its run at an empty desk comes to its outcome. -/
theorem Workflow.exists_outcome_askThenCall :
    ∃ out e, (askThenCall.run (Dispatch.emitterFor {}) (.object []) "manual").run {} {} =
      (.done out, e) :=
  exists_outcome (fun f => (Dispatch.timely_emitterFor {} f).punctual) rfl rfl rfl ⟨_, rfl⟩

end LeadDesk
