import LeadDesk.Proofs.Backlog
import LeadDesk.Proofs.Delays
import LeadDesk.Proofs.Oblivious
import LeadDesk.Proofs.SavedWorkflows
/-!
# Runs by hand

A workflow can be run for an event or by hand. The dispatch looks it up by the type of the event and
marks the event afterwards, the run by hand looks it up by its slug; the run itself is the same,
since nothing that it does depends on what its own record says of how it was set off
(`Workflow.run_credit`). A run by hand from the context of an event therefore comes to the outcome
that the dispatch of the event reports, and to the same desk but for the record and the mark
(`Dispatch.handle_as_by_hand`).
-/

namespace LeadDesk

open LeadDesk.Action (Concurs Leads)

/-! ## How a run was set off -/

/-- The run, if it is the one with the id, as set off by something else. -/
def Run.credit (runId triggeredBy : String) (r : Run) : Run :=
  if r.id == runId then { r with triggeredBy := triggeredBy } else r

namespace Run

variable {runId triggeredBy : String} {r : Run}

@[simp] theorem id_credit : (r.credit runId triggeredBy).id = r.id := by
  unfold credit
  split <;> rfl

theorem credit_of_ne (h : r.id ≠ runId) : r.credit runId triggeredBy = r :=
  if_neg (by simpa using h)

/-- An update of a run has no part in how it was set off. -/
theorem credit_apply (u : RunUpdate) (r : Run) :
    (u.apply r).credit runId triggeredBy = u.apply (r.credit runId triggeredBy) := by
  have hid : (u.apply r).id = r.id := rfl
  unfold credit
  rw [hid]
  split <;> rfl

end Run

namespace Desk

/-- The desk on which the record of a run says that something else set it off. -/
def credit (d : Desk) (runId triggeredBy : String) : Desk :=
  d.but (d.store.runs.map (Run.credit runId triggeredBy)) d.journal.callbacks

/-- A new record is the only one with its id. -/
theorem credit_withRun {d : Desk} {r : Run} (hnew : ∀ old ∈ d.store.runs, old.id ≠ r.id)
    (triggeredBy : String) :
    (d.withRun r).credit r.id triggeredBy = d.withRun { r with triggeredBy := triggeredBy } := by
  have hold : d.store.runs.map (Run.credit r.id triggeredBy) = d.store.runs :=
    (List.map_congr_left fun old h => Run.credit_of_ne (hnew old h)).trans (List.map_id _)
  have hown : r.credit r.id triggeredBy = { r with triggeredBy := triggeredBy } :=
    if_pos (beq_self_eq_true r.id)
  have hruns : (d.withRun r).store.runs.map (Run.credit r.id triggeredBy) =
      d.store.runs ++ [{ r with triggeredBy := triggeredBy }] := by
    rw [withRun, List.map_append, hold, List.map_singleton, hown]
  rw [credit, hruns]
  rfl

end Desk

namespace Workflow

variable {em : Emitter} {o : Office} {d : Desk}

/-- What a run does with its record stored does not depend on how it was set off. -/
theorem run_conduct_credit (hem : ∀ f, (em f).Oblivious) (w : Workflow) (runId : String)
    (seed : Fields) (triggeredBy : String) :
    (w.conduct em runId seed).run o (d.credit runId triggeredBy) =
      (((w.conduct em runId seed).run o d).1,
        ((w.conduct em runId seed).run o d).2.credit runId triggeredBy) := by
  have hsame : (w.conduct em runId seed).Concurs (Run.credit runId triggeredBy) :=
    carries_conduct (Concurs.carries runId) (fun c _ s r => .of_oblivious (c.oblivious_log s r))
      (fun f => .of_oblivious (hem f))
      (concurs_closeRun (fun _ => Run.id_credit) Run.credit_apply runId) seed
  obtain ⟨told, hcallbacks, hrun⟩ := hsame o d
  have hrun := hrun o.observers o.reaction d.journal.callbacks
  rw [← hcallbacks] at hrun
  exact hrun

/-- A run from the context of an event comes to the same outcome whatever sets it off, and to the
same desk but for what its record says of that. -/
theorem run_credit (hem : ∀ f, (em f).Oblivious) (hopens : Action.faultOf o "create_run" = none)
    (hd : d.Fresh) (w : Workflow) (ev : Event) (triggeredBy other : String) :
    (w.run em (.object ev.contextSeed) other).run o d =
      (((w.run em (.object ev.contextSeed) triggeredBy).run o d).1,
        ((w.run em (.object ev.contextSeed) triggeredBy).run o d).2.credit (freshId d.nextId)
          other) := by
  let record (cause : String) : Run :=
    Store.storedRun (w.newRun ev cause (freshId d.nextId) d.time)
  have hrun : ∀ cause, (w.run em (.object ev.contextSeed) cause).run o d =
      (w.conduct em (freshId d.nextId) ev.contextSeed).run o (d.next.withRun (record cause)) := by
    intro cause
    rw [run]
    exact Action.run_bind_of_done (w.run_openRun ev cause hopens hd)
  have hnew : ∀ old ∈ d.next.store.runs, old.id ≠ (record triggeredBy).id :=
    fun old hold => hd.runs old hold d.nextId (Nat.le_refl _)
  have hcredit : (d.next.withRun (record triggeredBy)).credit (freshId d.nextId) other =
      d.next.withRun (record other) := Desk.credit_withRun hnew other
  rw [hrun other, hrun triggeredBy, ← hcredit]
  exact run_conduct_credit hem w _ _ other

/-- With queued emissions a run from the context of an event comes to its outcome, and leaves a
record that says what set it off. An event that waits still does so afterwards. -/
theorem exists_recorded_run {ev : Event} (hlimits : o.deadlines = []) (ho : o.Serves)
    (hd : d.Fresh) (hwaits : ev ∈ d.waiting) (w : Workflow) (triggeredBy : String) :
    ∃ out e, (w.run Emitter.queue (.object ev.contextSeed) triggeredBy).run o d = (.done out, e) ∧
      out.runId = some (freshId d.nextId) ∧
      (∃ r ∈ e.store.runs, r.id = freshId d.nextId ∧ r.triggeredBy = triggeredBy) ∧
      ev ∈ e.waiting := by
  have hseed : startContext (.object ev.contextSeed) = .ok ev.contextSeed := rfl
  obtain ⟨out, e, hrun⟩ := exists_outcome (fun f => (Emitter.timely_queue f).punctual) hlimits
    ho.closes hseed ⟨_, congrArg Prod.fst (w.run_openRun ev triggeredBy ho.opens hd)⟩
  have hbooked : ∀ f, Leads (·.Like o) (Desk.Booked o False) (Emitter.queue f) :=
    Emitter.booked_queue
  obtain ⟨seed, r, p, now, rs, _, hbegun, rfl, hruns⟩ := runs_of_done hbooked (.refl o) hrun
  obtain ⟨new, _, hswept⟩ := swept_run hrun
  refine ⟨_, e, hrun, congrArg some hbegun.id, ⟨(p.closing now).apply r, ?_, hbegun.id,
    hbegun.triggeredBy⟩, ?_⟩
  · rw [hruns]
    exact List.mem_append_right _ List.mem_cons_self
  · rw [hswept.waiting]
    exact List.mem_append_left _ (List.mem_filter.2 ⟨hwaits, by simp⟩)

end Workflow

/-! ## The workflow for an event -/

namespace Store

/-- The workflow is stored and active, and no other active workflow is for the events that it is
for. -/
structure HasOnly (s : Store) (w : Workflow) : Prop where
  stored : s.workflow? w.slug = some w
  active : w.isActive = true
  only : ∀ r ∈ s.workflows, r.isActive = true → r.trigger = w.trigger → r.slug = w.slug

/-- Where slugs are unique it is the one that the type of an event sets off. -/
theorem HasOnly.activeWorkflows_eq {s : Store} {w : Workflow} (h : s.HasOnly w)
    (hslugs : (s.workflows.map (·.slug)).Nodup) : s.activeWorkflows w.trigger = [w] := by
  obtain ⟨r, hr, rfl⟩ := Option.map_eq_some_iff.1 h.stored
  obtain ⟨hmem, _⟩ := mem_of_workflowRecord? hr
  obtain ⟨rs, hrs, heq⟩ := s.exists_setOff r.trigger
  have hsingle : rs.Perm [r] := by
    refine hrs.perm.trans ((List.perm_ext_iff_of_nodup ((hslugs.of_map _).filter _)
      (List.nodup_singleton r)).2 fun old => ?_)
    rw [List.mem_filter, List.mem_singleton]
    constructor
    · rintro ⟨hold, hfor⟩
      simp only [Bool.and_eq_true, beq_iff_eq] at hfor
      exact List.inj_on_of_nodup_map hslugs hold hmem (h.only old hold hfor.1 hfor.2)
    · rintro rfl
      have hactive : old.isActive = true := h.active
      exact ⟨hmem, by rw [hactive, beq_self_eq_true, Bool.and_self]⟩
  exact heq.trans (by rw [List.perm_singleton.1 hsingle]; rfl)

end Store

/-! ## A dispatch and a run by hand -/

/-- The desk when an event has been marked as processed at the moment that the clock shows. -/
def Desk.marked (d : Desk) (id : String) : Desk :=
  { d with clock := d.clock + 1 }.withMark id d.time

/-- An event that is stored can be marked. -/
theorem Archive.run_markProcessed {id : String} {o : Office} {d : Desk}
    (hmarks : Action.faultOf o "mark_event_processed" = none) (h : id ∈ d.eventIds) :
    (markProcessed id).run o d = (.done (), d.marked id) := by
  rcases hrun : (markProcessed id).run o d with ⟨ending, e⟩
  obtain ⟨_, _, _, hfault⟩ | ⟨_, _, hnone⟩ | ⟨rfl, _, rfl⟩ := markProcessed_cases hrun
  · rw [hmarks] at hfault
    cases hfault
  · obtain ⟨ev, hev, rfl⟩ := List.mem_map.1 h
    exact absurd (List.find?_eq_none.1 hnone ev hev) (by simp)
  · rfl

namespace Dispatch

variable {o : Office} {d : Desk} {w : Workflow} {ev : Event}

/-- The desk after the wait for an event that is ready: if the event asks for a moment, the clock
was read. -/
def waited (ev : Event) (d : Desk) : Desk :=
  if hasDelay ev then { d with clock := d.clock + 1 } else d

theorem quiet_waited (ev : Event) (d : Desk) : d.Quiet (waited ev d) := by
  unfold waited
  split
  · exact { Desk.Quiet.refl d with clock := Int.le.intro 1 rfl }
  · exact Desk.Quiet.refl d

theorem nextId_waited (ev : Event) (d : Desk) : (waited ev d).nextId = d.nextId := by
  unfold waited
  split <;> rfl

/-- By hand a workflow is run from the context of an event as it is, which names a team. -/
theorem run_trigger (hfinds : Action.faultOf o "get_workflow_by_slug" = none)
    (hw : d.store.workflow? w.slug = some w) :
    (trigger w.slug (.object ev.contextSeed)).run o d =
      (w.run (emitterFor o.settings) (.object ev.contextSeed) "manual").run o d := by
  have hget : (Archive.getWorkflow w.slug).run o d = (.done (some w), d) := by
    simp only [Archive.getWorkflow, Action.query, hfinds, hw]
  rw [trigger, Action.run_bind_of_done hget]
  rfl

/-- For an event that sets off one workflow that one is run, and the event is marked. -/
theorem run_serve_of_one {em : Emitter} {m e : Desk} {out : RunOutcome}
    (hfinds : Action.faultOf o "list_active_workflows" = none)
    (hone : d.store.activeWorkflows ev.type = [w])
    (hrun : (w.run em (.object ev.contextSeed) "event").run o d = (.done out, m))
    (hmark : (Archive.markProcessed ev.id).run o m = (.done (), e)) :
    (serve em ev).run o d =
      (.done { eventId := some ev.id, workflowsRun := 1, results := [out] }, e) := by
  have hlist : (Archive.activeWorkflows ev.type).run o d = (.done [w], d) := by
    simp only [Archive.activeWorkflows, Action.query, hfinds, hone]
  have hall : (runAll em ev [w]).run o d = (.done [out], m) := by
    have hsingle : (runOne em ev w).run o d = (.done out, m) := by
      rw [runOne, Action.run_bind_of_done (Action.run_attempt_eq_ok.2 hrun)]
      rfl
    rw [runAll, Action.run_bind_of_done hsingle]
    rfl
  rw [serve, Action.run_bind_of_done hlist]
  dsimp only
  rw [Action.run_bind_of_done hall, Action.run_bind_of_done hmark]
  rfl

/-- An event that is not processed and not to be waited for is served at once. -/
theorem run_handle_of_ready (hopen : ev.processed = false)
    (hready : delay ev d.time = 0) :
    (handle ev).run o d = (serve (emitterFor o.settings) ev).run o (waited ev d) := by
  have hwait : (waitBy Action.sleep ev).run o d = (.done (), waited ev d) :=
    run_waitBy_of_ready ((Monitor.isReady_iff ev _).2 hready)
  have hhandle : (handle ev).run o d = (event (emitterFor o.settings) ev).run o d := rfl
  rw [hhandle, ← eventBy_sleep, eventBy_of_open hopen, Action.run_bind_of_done hwait]

/-- With queued emissions, the dispatch of an event that one workflow is for, and that is neither
processed nor to be waited for, does what a run of that workflow by hand from the context of the
event does when the wait is over. It reports the outcome of that run and leaves the same desk, but
for what the record of the run says of how it was set off, which says by hand there, and for the
mark on the event, which still waits there. -/
theorem handle_as_by_hand (hqueued : o.settings.inline = false) (hlimits : o.deadlines = [])
    (ho : o.Serves) (hfinds : Action.faultOf o "get_workflow_by_slug" = none) (hd : d.Fresh)
    (hslugs : (d.store.workflows.map (·.slug)).Nodup) (hw : d.store.HasOnly w)
    (htype : ev.type = w.trigger) (hev : d.store.event? ev.id = some ev)
    (hopen : ev.processed = false) (hready : delay ev d.time = 0) :
    ∃ out byHand,
      (trigger w.slug (.object ev.contextSeed)).run o (waited ev d) = (.done out, byHand) ∧
      (handle ev).run o d =
        (.done { eventId := some ev.id, workflowsRun := 1, results := [out] },
          (byHand.credit (freshId d.nextId) "event").marked ev.id) ∧
      out.runId = some (freshId d.nextId) ∧
      (∃ r ∈ byHand.store.runs, r.id = freshId d.nextId ∧ r.triggeredBy = "manual") ∧
      ev ∈ byHand.waiting := by
  have hq := quiet_waited ev d
  have hqueue : emitterFor o.settings = Emitter.queue := by
    rw [emitterFor, hqueued]
    rfl
  have hwaits : ev ∈ (waited ev d).waiting := by
    rw [Desk.waiting, hq.events]
    exact List.mem_filter.2 ⟨List.mem_of_find?_eq_some hev, by simp [hopen]⟩
  obtain ⟨out, byHand, hrun, hid, hrecord, hstill⟩ :=
    w.exists_recorded_run hlimits ho (hd.of_quiet hq) hwaits "manual"
  rw [nextId_waited] at hid hrecord
  have hbyEvent := Workflow.run_credit Emitter.oblivious_queue ho.opens (hd.of_quiet hq) w ev
    "manual" "event"
  rw [hrun, nextId_waited] at hbyEvent
  have hstored : (waited ev d).store.workflow? w.slug = some w :=
    (Store.workflow?_of_eq hq.workflows hq.steps w.slug).trans hw.stored
  have hone : (waited ev d).store.activeWorkflows ev.type = [w] := by
    rw [Store.activeWorkflows_of_eq hq.workflows hq.steps, htype, hw.activeWorkflows_eq hslugs]
  have hmem : ev.id ∈ (byHand.credit (freshId d.nextId) "event").eventIds :=
    List.mem_map_of_mem (List.mem_of_mem_filter hstill)
  refine ⟨out, byHand, ?_, ?_, hid, hrecord, hstill⟩
  · rw [run_trigger hfinds hstored, hqueue, hrun]
  · rw [run_handle_of_ready hopen hready, hqueue]
    exact run_serve_of_one ho.finds hone hbyEvent (Archive.run_markProcessed ho.marks hmem)

/-- A first question is answered alike, whether it is handled or its workflow is run by hand. It
asks to wait until a moment that has passed, which costs a reading of the clock, and another
workflow for its type is not active any more. -/
theorem handle_as_by_hand_askThenCall :
    let ev : Event := { (default : Event) with
      id := "event", type := "asked", payload := [("delay_until", "1970-01-01T00:00:00")] }
    let asked := Store.newRecord Workflow.askThenCall (Timestamp.utc 0)
    let retired := { asked with id := "retired", slug := "retired", isActive := false }
    let steps := Store.stepRecords asked.id (Timestamp.utc 0) (fun n => s!"step-{n}")
      Workflow.askThenCall.orderedSteps
    let d : Desk :=
      { store := { events := [ev], workflows := [retired, asked], steps := steps }, clock := 5 }
    hasDelay ev = true ∧
    ∃ out byHand,
      (trigger asked.slug (.object ev.contextSeed)).run {} { d with clock := 6 } =
        (.done out, byHand) ∧
      (handle ev).run {} d =
        (.done { eventId := some "event", workflowsRun := 1, results := [out] },
          (byHand.credit (freshId 1) "event").marked "event") ∧
      out.runId = some (freshId 1) := by
  intro ev asked retired steps d
  have hasks : hasDelay ev = true := by decide +kernel
  have hready : delay ev d.time = 0 := by decide +kernel
  have hd : d.Fresh := ⟨by simp [d], by simp [d]⟩
  have hw : d.store.HasOnly (d.store.workflow asked) := by
    refine ⟨rfl, rfl, fun r hr hactive _ => ?_⟩
    obtain rfl | rfl : r = retired ∨ r = asked := by simpa [d] using hr
    · cases hactive
    · rfl
  have hev : d.store.event? ev.id = some ev := rfl
  obtain ⟨out, byHand, hrun, hhandle, hid, _⟩ := handle_as_by_hand (o := {}) rfl rfl
    ⟨rfl, rfl, rfl, rfl⟩ rfl hd (by decide) hw rfl hev rfl hready
  rw [waited, if_pos hasks] at hrun
  exact ⟨hasks, out, byHand, hrun, hhandle, hid⟩

end Dispatch

end LeadDesk
