import LeadDesk.Proofs.Firings
import LeadDesk.Proofs.OpenRuns
/-!
# An event runs the workflows that match it

A dispatch of an event that is not processed looks up the active workflows of its type, runs one
after the other, and marks the event. Each of them makes one record for the event, which starts
from the context of the event whatever the runs before it came to, and none of them keeps the next
from running (`Dispatch.handle_matching`).
-/

namespace LeadDesk

open LeadDesk.Action (Leads Sure)
open Desk (Booked Traces)

/-! ## How a dispatch ends -/

/-- The store of the office lets workflows be looked up, records of runs be made and closed, and
events be marked. -/
structure Office.Serves (o : Office) : Prop where
  finds : Action.faultOf o "list_active_workflows" = none
  opens : Action.faultOf o "create_run" = none
  closes : Action.faultOf o "update_run" = none
  marks : Action.faultOf o "mark_event_processed" = none

namespace Dispatch

variable {o : Office} {d : Desk} {em : Emitter} {ev : Event}

/-- Where no deadline is set and the store serves, a dispatch of an event that is not processed
runs the workflows of the event, marks it, and tells of the outcomes. -/
theorem event_returns (hem : ∀ f, (em f).Punctual) (hlimits : o.deadlines = []) (ho : o.Serves)
    (hopen : ev.processed = false) :
    ∃ r outs m m' e, (event em ev).run o d = (.done r, e) ∧ r.Tells ev outs ∧ d.Quiet m ∧
      (runAll em ev (m.store.activeWorkflows ev.type)).run o m = (.done outs, m') ∧
      (Archive.markProcessed ev.id).run o m' = (.done (), e) := by
  rcases hrun : (event em ev).run o d with ⟨ending, e⟩
  have hcut : ∀ level, ending ≠ .cut level := by
    rintro level rfl
    have hlevel := timely_event hem ev o d level (by rw [hrun])
    simp only [hlimits, List.length_nil] at hlevel
    omega
  cases handling_of_event hopen hrun with
  | late _ | cut _ _ => exact absurd rfl (hcut _)
  | unlisted _ fault =>
    rw [ho.finds] at fault
    cases fault
  | unmarked _ _ fault =>
    rw [ho.marks] at fault
    cases fault
  | handled quiet ran marked tells => exact ⟨_, _, _, _, _, rfl, tells, quiet, ran, marked⟩

end Dispatch

/-! ## The run that an event sets off -/

/-- The record of a new run that starts from the context of an event. -/
def Workflow.newRun (w : Workflow) (ev : Event) (triggeredBy id : String) (now : Timestamp) :
    Run where
  id := id
  workflowId := w.id
  teamId := ev.teamId
  triggeredBy := triggeredBy
  triggerEventId := some ev.id
  entityType := ev.entityType
  entityId := ev.entityId
  status := .running
  startedAt := now
  completedAt := none
  context := ev.contextSeed
  finalContext := none
  error := none

/-- The record of a run that starts from the context of an event is well formed. -/
theorem Workflow.check_newRun (w : Workflow) (ev : Event) (triggeredBy id : String)
    (now : Timestamp) :
    ∃ fields, w.recordFields ev.contextSeed triggeredBy = .ok fields ∧
      Run.check id now (.object fields) = .good (w.newRun ev triggeredBy id now) := by
  obtain ⟨_, _, entityType, entityId, _, teamId⟩ := ev
  cases entityType <;> cases entityId <;> cases teamId <;> exact ⟨_, rfl, rfl⟩

/-- Ids that are still to come are fresh, so the record of a run that starts from the context of an
event can be stored. -/
theorem Workflow.run_openRun {o : Office} {d : Desk} (w : Workflow) (ev : Event)
    (triggeredBy : String) (hopens : Action.faultOf o "create_run" = none) (hd : d.Fresh) :
    let r := w.newRun ev triggeredBy (freshId d.nextId) d.time
    (w.openRun ev.contextSeed triggeredBy).run o d =
      (.done (Store.readRun (Store.storedRun r)), d.next.withRun (Store.storedRun r)) := by
  intro r
  obtain ⟨fields, hfields, hr⟩ :=
    w.check_newRun ev triggeredBy (freshId d.nextId) d.time
  have hnew : d.next.store.run? r.id = none := by
    simp only [Store.run?, Option.map_eq_none_iff, List.find?_eq_none, beq_iff_eq]
    exact fun old hold heq => hd.runs old hold d.nextId (Nat.le_refl _) heq
  have hcreate : (Archive.createRun r).run o d.next =
      (.done (Store.readRun (Store.storedRun r)), d.next.withRun (Store.storedRun r)) := by
    simp only [Archive.createRun, Action.change, hopens, Store.addRun, hnew, Option.isSome_none,
      Bool.false_eq_true, if_false]
    rfl
  refine Eq.trans ?_ hcreate
  rw [openRun, hfields, Action.run_bind_of_done (e := d) rfl, Action.run_newId_now, hr]
  rfl

/-- What one workflow makes of an event: the outcome that is reported, and the run that is
stored. -/
structure Answer where
  workflow : Workflow
  outcome : RunOutcome
  run : Run

/-- The workflow was run for the event, from the context of the event, and the outcome tells of the
stored run. -/
structure Answer.IsFor (a : Answer) (ev : Event) : Prop where
  workflowId : a.run.workflowId = a.workflow.id
  triggeredBy : a.run.triggeredBy = "event"
  triggerEventId : a.run.triggerEventId = some ev.id
  context : a.run.context = ev.contextSeed
  runId : a.outcome.runId = some a.run.id
  slug : a.outcome.slug = some a.workflow.slug
  status : a.outcome.status = a.run.status

namespace Desk

/-- The runs that were made for an event. -/
def runsFor (d : Desk) (id : String) : List Run := d.store.runs.filter (isFiring id)

end Desk

section

variable {b o : Office} {mayNest : Prop} {d e : Desk} {em : Emitter}

/-- A run that comes to its outcome has made its record, closed as the outcome tells, before those
of the runs that its events set off. -/
theorem Workflow.runs_of_done {w : Workflow} {context : Json} {triggeredBy : String}
    (hem : ∀ f, Leads (·.Like b) (Booked b mayNest) (em f)) (ho : o.Like b) {out : RunOutcome}
    (h : (w.run em context triggeredBy).run o d = (.done out, e)) :
    ∃ seed r p now rs, startContext context = .ok seed ∧ r.Begun w seed triggeredBy d ∧
      out = w.outcome r.id p ∧
      e.store.runs = d.store.runs ++ (p.closing now).apply r :: rs := by
  obtain ⟨_, hf, _⟩ | ⟨seed, r, hs, hbegun, hnew, hconduct⟩ := run_cases h
  · cases hf
  obtain ⟨m, hm, ⟨_, hcut, _⟩ | ⟨p, m', hdone, ⟨_, hf, _⟩ | ⟨hout, hq⟩⟩⟩ := conduct_cases hconduct
  · cases hcut
  · cases hf
  have hcarry : Booked b mayNest m ((w.carryOut em r.id seed).run o m).2 :=
    leads_carryOut (fun c _ => c.booked_log) hem seed o m ho
  rw [hdone] at hcarry
  obtain ⟨cs, rs, hl⟩ := hcarry
  have hruns : m.store.runs = d.store.runs ++ [r] := hm.runs
  exact ⟨seed, r, p, m'.time, rs, hs, hbegun, Ending.done.inj hout,
    hq.runs.trans (hl.runs_withUpdate hruns hnew _)⟩

/-- Where no deadline is set, a run that an event sets off comes to its outcome, and makes one run
for the event. -/
theorem Workflow.exists_answer (w : Workflow) {ev : Event} (hlimits : o.deadlines = [])
    (ho : o.Serves) (hd : d.Fresh) (hev : ev.id ∈ d.eventIds) :
    ∃ (a : Answer) (e : Desk), a.workflow = w ∧
      (w.run (Dispatch.emitterFor o.settings) (.object ev.contextSeed) "event").run o d =
        (.done a.outcome, e) ∧
      a.IsFor ev ∧ e.runsFor ev.id = d.runsFor ev.id ++ [a.run] ∧ e.Fresh ∧
      ev.id ∈ e.eventIds := by
  let em := Dispatch.emitterFor o.settings
  have hallowed := Dispatch.allows_emitterFor o.settings
  have hseed : startContext (.object ev.contextSeed) = .ok ev.contextSeed := rfl
  have hends : ∃ out e, (w.run em (.object ev.contextSeed) "event").run o d = (.done out, e) := by
    exact exists_outcome (fun f => (hallowed.timely f).punctual) hlimits ho.closes hseed
      ⟨_, congrArg Prod.fst (w.run_openRun ev "event" ho.opens hd)⟩
  obtain ⟨out, e, hrun⟩ := hends
  obtain ⟨seed, r, p, now, rs, hs, hbegun, rfl, hruns⟩ :=
    runs_of_done (Dispatch.booked_of_allows hallowed ho.closes) (.refl o) hrun
  obtain rfl : ev.contextSeed = seed := Except.ok.inj (hseed.symm.trans hs)
  obtain ⟨⟨_, ht⟩, _, new, hnew, hone⟩ :=
    traced_run_event (Dispatch.traces_of_allows hallowed ho.marks) (.refl o) hev hrun
  have hgrows := leads_run (b := o) (Dispatch.grows_emitterFor o.settings) w
    (.object ev.contextSeed) "event" o d (.refl o)
  rw [hrun] at hgrows
  let closed := (p.closing now).apply r
  let a : Answer := ⟨w, w.outcome r.id p, closed⟩
  have htrigger := hbegun.triggerEventId_eq hs
  have ha : a.IsFor ev :=
    ⟨hbegun.workflowId, hbegun.triggeredBy, htrigger, hbegun.context, rfl, rfl, rfl⟩
  have hfiring : Desk.isFiring ev.id closed = true := by
    have htriggeredBy : closed.triggeredBy = "event" := ha.triggeredBy
    have htrigger' : closed.triggerEventId = some ev.id := ha.triggerEventId
    simp [Desk.isFiring, htriggeredBy, htrigger']
  have hfor : e.runsFor ev.id = d.runsFor ev.id ++ closed :: rs.filter (Desk.isFiring ev.id) := by
    rw [Desk.runsFor, hruns, List.filter_append, List.filter_cons_of_pos hfiring]
    rfl
  -- The run makes at most one run for the event, so its events make none.
  have hnone : rs.filter (Desk.isFiring ev.id) = [] := by
    have hfirings : ∀ m : Desk,
        m.firings ev.id = (m.runsFor ev.id).map fun r => (r.id, r.workflowId) := fun _ => rfl
    rw [hfirings, hfirings, hfor, List.map_append, List.append_cancel_left_eq] at hnew
    have hlength := hone.length_le
    rw [← hnew] at hlength
    simpa using hlength
  exact ⟨a, e, rfl, hrun, ha, by rw [hfor, hnone], hgrows.fresh hd (by simp),
    ht.precedes.events.subset hev⟩

end

/-! ## The dispatch -/

/-- The stored workflows that a type of event sets off, in the order in which they run: the active
ones that it triggers, the oldest first, and by slug where they are equally old. -/
structure Store.SetOff (s : Store) (type : String) (rs : List WorkflowRecord) : Prop where
  perm : rs.Perm (s.workflows.filter fun r => r.isActive && r.trigger == type)
  sorted : rs.Pairwise fun a b => a.createdAt.wall < b.createdAt.wall ∨
    a.createdAt.wall = b.createdAt.wall ∧ a.slug ≤ b.slug

namespace Store

theorem runsBefore_iff {a b : WorkflowRecord} : runsBefore a b = true ↔
    a.createdAt.wall < b.createdAt.wall ∨
      a.createdAt.wall = b.createdAt.wall ∧ a.slug ≤ b.slug := by
  unfold runsBefore
  split
  · rename_i heq
    simp [heq]
  · rename_i hne
    simp only [decide_eq_true_eq]
    omega

/-- The active workflows that are looked up are those. -/
theorem exists_setOff (s : Store) (type : String) :
    ∃ rs, s.SetOff type rs ∧ s.activeWorkflows type = rs.map s.workflow := by
  refine ⟨_, ⟨?_, ?_⟩, rfl⟩
  · simp only [Bool.and_comm]
    exact List.mergeSort_perm _ _
  · refine (List.pairwise_mergeSort (fun a b c hab hbc => ?_) (fun a b => ?_) _).imp
      runsBefore_iff.1
    · rw [runsBefore_iff] at hab hbc ⊢
      obtain hab | ⟨hab, hslug⟩ := hab <;> obtain hbc | ⟨hbc, hslug'⟩ := hbc
      · exact .inl (Int.lt_trans hab hbc)
      · exact .inl (hbc ▸ hab)
      · exact .inl (hab ▸ hbc)
      · exact .inr ⟨hab.trans hbc, String.le_trans hslug hslug'⟩
    · rw [Bool.or_eq_true, runsBefore_iff, runsBefore_iff]
      obtain hlt | heq | hgt := Int.lt_trichotomy a.createdAt.wall b.createdAt.wall
      · exact .inl (.inl hlt)
      · exact (String.le_total a.slug b.slug).imp (fun h => .inr ⟨heq, h⟩)
          fun h => .inr ⟨heq.symm, h⟩
      · exact .inr (.inl hgt)

theorem activeWorkflows_of_eq {s t : Store} (hw : t.workflows = s.workflows)
    (hs : t.steps = s.steps) (type : String) : t.activeWorkflows type = s.activeWorkflows type := by
  simp only [activeWorkflows, hw, workflow_of_steps hs]

end Store

theorem Archive.runs_of_markProcessed {id : String} {o : Office} {d e : Desk} {ending : Ending Unit}
    (h : (markProcessed id).run o d = (ending, e)) : e.store.runs = d.store.runs := by
  obtain ⟨_, _, hq, _⟩ | ⟨_, rfl, _⟩ | ⟨_, _, rfl⟩ := markProcessed_cases h
  · exact hq.runs
  · rfl
  · rfl

namespace Dispatch

variable {o : Office} {d : Desk} {ev : Event}

/-- The runs that an event sets off come to their outcomes one after the other. -/
theorem exists_answers (hlimits : o.deadlines = []) (ho : o.Serves) (ws : List Workflow) :
    ∀ {d : Desk}, d.Fresh → ev.id ∈ d.eventIds →
      ∃ (as : List Answer) (e : Desk), as.map (·.workflow) = ws ∧
        (runAll (emitterFor o.settings) ev ws).run o d = (.done (as.map (·.outcome)), e) ∧
        (∀ a ∈ as, a.IsFor ev) ∧ e.runsFor ev.id = d.runsFor ev.id ++ as.map (·.run) := by
  induction ws with
  | nil => exact fun _ _ => ⟨[], _, rfl, rfl, by simp, by simp⟩
  | cons w rest ih =>
    intro d hd hev
    obtain ⟨a, m, rfl, hrun, ha, hruns, hm, hevm⟩ := w.exists_answer hlimits ho hd hev
    obtain ⟨as, e, rfl, hrest, has, hruns'⟩ := ih hm hevm
    have hone : (runOne (emitterFor o.settings) ev a.workflow).run o d = (.done a.outcome, m) := by
      rw [runOne, Action.run_bind_of_done (Action.run_attempt_eq_ok.2 hrun)]
      rfl
    refine ⟨a :: as, e, rfl, ?_, ?_, ?_⟩
    · rw [runAll, Action.run_bind_of_done hone, Action.run_bind_of_done hrest]
      rfl
    · exact List.forall_mem_cons.2 ⟨ha, has⟩
    · rw [hruns', hruns, List.append_assoc]
      rfl

/-- Where no deadline is set and the store serves, the dispatch of an event that is stored and not
processed returns. It has run the active workflows of the type of the event, the oldest first, each
of them once and from the context of the event, and the event is processed afterwards. -/
theorem handle_matching (o : Office) (d : Desk) (ev : Event) (hlimits : o.deadlines = [])
    (ho : o.Serves) (hd : d.Fresh) (hev : ev.id ∈ d.eventIds) (hopen : ev.processed = false) :
    ∃ (records : List WorkflowRecord) (answers : List Answer) (r : DispatchResult) (e : Desk),
      (handle ev).run o d = (.done r, e) ∧ d.store.SetOff ev.type records ∧
      answers.map (·.workflow) = records.map d.store.workflow ∧
      r.Tells ev (answers.map (·.outcome)) ∧ (∀ a ∈ answers, a.IsFor ev) ∧
      e.runsFor ev.id = d.runsFor ev.id ++ answers.map (·.run) ∧ e.IsProcessed ev.id := by
  have hallowed := allows_emitterFor o.settings
  have hem := traces_of_allows hallowed ho.marks
  obtain ⟨r, outs, m, m', e, hrun, hr, hq, hall, hmark⟩ :=
    event_returns (d := d) (fun f => (hallowed.timely f).punctual) hlimits ho hopen
  obtain ⟨records, hrecords, hws⟩ := d.store.exists_setOff ev.type
  have hm : ev.id ∈ m.eventIds := by
    rwa [Desk.eventIds, hq.events]
  obtain ⟨answers, m'', hworkflows, hall', hfor, hruns⟩ := exists_answers hlimits ho
    (m.store.activeWorkflows ev.type) (hd.of_quiet hq) hm
  obtain ⟨houts, rfl⟩ := Prod.mk.inj (hall'.symm.trans hall)
  obtain rfl := Ending.done.inj houts
  obtain ⟨⟨_, ht⟩, _⟩ := traced_runAll hem (.refl o) _ hm hall
  obtain ⟨_, _, _, hprocessed⟩ :=
    traced_mark o.settings.Nests (.refl o) ho.marks (ht.precedes.events.subset hm) hmark
  refine ⟨records, answers, r, e, hrun, hrecords, ?_, hr, hfor, ?_, hprocessed⟩
  · rw [hworkflows, Store.activeWorkflows_of_eq hq.workflows hq.steps, hws]
  · have hmarked : e.runsFor ev.id = m''.runsFor ev.id := by
      simp only [Desk.runsFor, Archive.runs_of_markProcessed hmark]
    rw [hmarked, hruns]
    simp only [Desk.runsFor, hq.runs]

/-- An event that one of two stored workflows is for runs that one. -/
theorem handle_matching_askThenCall :
    let ev : Event := { (default : Event) with id := "event", type := "asked" }
    let asked := Store.newRecord Workflow.askThenCall (Timestamp.utc 0)
    let other := { asked with id := "other", slug := "other", trigger := "told" }
    let d : Desk := { store := { events := [ev], workflows := [other, asked] } }
    ({} : Office).Serves ∧ d.Fresh ∧ ev.id ∈ d.eventIds ∧ ev.processed = false ∧
      ∃ r e, (handle ev).run {} d = (.done r, e) ∧ r.workflowsRun = 1 ∧ e.IsProcessed ev.id := by
  intro ev asked other d
  have ho : ({} : Office).Serves := ⟨rfl, rfl, rfl, rfl⟩
  have hd : d.Fresh := ⟨by simp [d], by simp [d]⟩
  have hev : ev.id ∈ d.eventIds := List.mem_singleton_self _
  obtain ⟨records, answers, r, e, hrun, hrecords, hanswers, hr, _, _, hdone⟩ :=
    handle_matching {} d ev rfl ho hd hev rfl
  refine ⟨ho, hd, hev, rfl, r, e, hrun, ?_, hdone⟩
  have hlength : records.length = 1 := hrecords.perm.length_eq
  have hsame := congrArg List.length hanswers
  simp only [List.length_map] at hsame
  rw [hr.workflowsRun, List.length_map, hsame, hlength]
  rfl

end Dispatch

end LeadDesk
