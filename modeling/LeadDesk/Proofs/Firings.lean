import LeadDesk.Proofs.Errands
/-!
# Which dispatch made the runs of an event

The runs that an event has set off (`Desk.firings`) are made by the dispatches of the event. Along
a run, every event that is dispatched is a new one, dispatched once, and the events that were there
stay as they are (`Desk.Traced`). A dispatch makes at most one run of each workflow for its event,
and marks the event unless it is cut off (`Dispatch.handled_or_quiet`).
-/

namespace LeadDesk

open LeadDesk.Action (Leads Tame)

namespace Desk

/-- The ids of the stored workflows. -/
def workflowIds (d : Desk) : List String := d.store.workflows.map (·.id)

/-- The stored event with the id is processed. -/
def IsProcessed (d : Desk) (id : String) : Prop :=
  ∃ e ∈ d.store.events, e.id = id ∧ e.processed = true

/-- The stored event with the id is not processed. -/
def IsWaiting (d : Desk) (id : String) : Prop :=
  ∃ e ∈ d.store.events, e.id = id ∧ e.processed = false

/-- The run was made for the event with the id. -/
def isFiring (id : String) (r : Run) : Bool :=
  r.triggeredBy == "event" && r.triggerEventId == some id

/-- The runs that were made for an event: the id of each with that of its workflow. -/
def firings (d : Desk) (id : String) : List (String × String) :=
  (d.store.runs.filter (isFiring id)).map fun r => (r.id, r.workflowId)

end Desk

/-- A call of the dispatcher: an event that is handled in an office from a desk on. -/
structure DispatchCall where
  emitter : Emitter
  event : Event
  office : Office
  desk : Desk

namespace DispatchCall

/-- How the call ends, and the desk that it leaves. -/
def result (c : DispatchCall) : Ending DispatchResult × Desk :=
  (Dispatch.event c.emitter c.event).run c.office c.desk

/-- The call was cut off by one of the deadlines around it. -/
def IsCut (c : DispatchCall) : Prop := c.office.Cuts c.result.1

/-- The runs that the call has made for its event. -/
def made (c : DispatchCall) : List (String × String) :=
  (c.result.2.firings c.event.id).drop (c.desk.firings c.event.id).length

theorem made_eq {c : DispatchCall} {new : List (String × String)}
    (h : c.result.2.firings c.event.id = c.desk.firings c.event.id ++ new) : c.made = new := by
  rw [made, h, List.drop_left]

end DispatchCall

/-- The runs that calls have made for an event. -/
def madeFor (cs : List DispatchCall) (id : String) : List (String × String) :=
  (cs.filter fun c => c.event.id == id).flatMap DispatchCall.made

theorem madeFor_append (cs cs' : List DispatchCall) (id : String) :
    madeFor (cs ++ cs') id = madeFor cs id ++ madeFor cs' id := by
  simp [madeFor, List.filter_append, List.flatMap_append]

theorem madeFor_eq_nil {cs : List DispatchCall} {id : String} (h : ∀ c ∈ cs, c.event.id ≠ id) :
    madeFor cs id = [] := by
  have hf : cs.filter (fun c => c.event.id == id) = [] :=
    List.filter_eq_nil_iff.2 fun c hc => by simpa using h c hc
  rw [madeFor, hf, List.flatMap_nil]

namespace Desk

/-- Between two desks calls of the dispatcher were made for different events. They have made the
further runs of all events but one's own, each call at most one of a workflow, and an event is
processed after a call for it unless the call was cut off. There are calls within the time of runs
only if `mayNest`. -/
structure Called (b : Office) (mayNest : Prop) (own : Option String) (d e : Desk)
    (cs : List DispatchCall) : Prop where
  precedes : d.Precedes e
  nodup : d.eventIds.Nodup → e.eventIds.Nodup
  workflows : e.store.workflows = d.store.workflows
  firings : ∀ id, own ≠ some id → e.firings id = d.firings id ++ madeFor cs id
  stored : ∀ c ∈ cs, c.event.id ∈ e.eventIds
  once : cs.Pairwise fun c c' => c.event.id ≠ c'.event.id
  processed : ∀ c ∈ cs, ¬ c.IsCut → e.IsProcessed c.event.id
  waiting : ∀ c ∈ cs, c.IsCut → c.result.2.IsWaiting c.event.id
  made : d.workflowIds.Nodup → ∀ c ∈ cs, (c.made.map Prod.snd).Nodup
  between : ∀ c ∈ cs, d.Precedes c.desk ∧ c.result.2.Precedes e
  office : ∀ c ∈ cs, c.office.Like b ∧ (c.office.deadlines ≠ [] → mayNest)

/-- The calls were made for new events, and the stored ones stay as they are, but for one's own. -/
structure Traced (b : Office) (mayNest : Prop) (own : Option String) (d e : Desk)
    (cs : List DispatchCall) : Prop extends Called b mayNest own d e cs where
  events : ∀ ev ∈ d.store.events, own ≠ some ev.id → ev ∈ e.store.events
  isNew : ∀ c ∈ cs, c.event.id ∉ d.eventIds ∧ own ≠ some c.event.id

/-- Some calls of the dispatcher lead from one desk to another. -/
def Traces (b : Office) (mayNest : Prop) (own : Option String) (d e : Desk) : Prop :=
  ∃ cs, Traced b mayNest own d e cs

variable {b : Office} {mayNest : Prop} {own : Option String} {d e f : Desk}
  {cs cs' : List DispatchCall}

theorem firings_of_runs (h : e.store.runs = d.store.runs) (id : String) :
    e.firings id = d.firings id := by
  rw [firings, firings, h]

/-- Where no event and no workflow changes, and no run is made, no call is made. -/
theorem Traced.of_eq (hp : d.Precedes e) (he : e.store.events = d.store.events)
    (hw : e.store.workflows = d.store.workflows)
    (hf : ∀ id, own ≠ some id → e.firings id = d.firings id) :
    Traced b mayNest own d e [] where
  precedes := hp
  events ev hev _ := he ▸ hev
  nodup hn := by
    rwa [eventIds, he]
  workflows := hw
  firings id hne := by simp [hf id hne, madeFor]
  stored := by simp
  isNew := by simp
  once := .nil
  processed := by simp
  waiting := by simp
  made := by simp
  between := by simp
  office := by simp

theorem IsProcessed.of_events {id : String} (h : d.IsProcessed id)
    (hk : ∀ ev ∈ d.store.events, ev.id = id → ev ∈ e.store.events) : e.IsProcessed id := by
  obtain ⟨ev, hev, hid, hp⟩ := h
  exact ⟨ev, hk ev hev hid, hid, hp⟩

theorem mem_eventIds {ev : Event} (h : ev ∈ d.store.events) : ev.id ∈ d.eventIds :=
  List.mem_map_of_mem h

theorem Traced.trans (h : Traced b mayNest own d e cs) (k : Traced b mayNest own e f cs') :
    Traced b mayNest own d f (cs ++ cs') where
  precedes := h.precedes.trans k.precedes
  events ev hev hne := k.events ev (h.events ev hev hne) hne
  nodup hn := k.nodup (h.nodup hn)
  workflows := k.workflows.trans h.workflows
  firings id hne := by
    rw [k.firings id hne, h.firings id hne, madeFor_append, List.append_assoc]
  isNew c hc := by
    rcases List.mem_append.1 hc with hc | hc
    · exact h.isNew c hc
    · obtain ⟨he, hne⟩ := k.isNew c hc
      exact ⟨fun hd => he (h.precedes.events.subset hd), hne⟩
  stored := List.forall_mem_append.2
    ⟨fun c hc => k.precedes.events.subset (h.stored c hc), k.stored⟩
  once := by
    refine List.pairwise_append.2 ⟨h.once, k.once, fun c hc c' hc' heq => ?_⟩
    exact (k.isNew c' hc').1 (heq ▸ h.stored c hc)
  processed c hc hcut := by
    rcases List.mem_append.1 hc with hc | hc
    · refine (h.processed c hc hcut).of_events fun ev hev hid => k.events ev hev ?_
      exact hid ▸ (h.isNew c hc).2
    · exact k.processed c hc hcut
  waiting := List.forall_mem_append.2 ⟨h.waiting, k.waiting⟩
  made hn c hc := by
    rcases List.mem_append.1 hc with hc | hc
    · exact h.made hn c hc
    · refine k.made ?_ c hc
      rwa [workflowIds, h.workflows]
  between c hc := by
    rcases List.mem_append.1 hc with hc | hc
    · exact ⟨(h.between c hc).1, (h.between c hc).2.trans k.precedes⟩
    · exact ⟨h.precedes.trans (k.between c hc).1, (k.between c hc).2⟩
  office c hc := by
    rcases List.mem_append.1 hc with hc | hc
    · exact h.office c hc
    · exact k.office c hc

/-- A level that is entered and left again makes no difference. -/
theorem Traced.deeper (h : Traced b mayNest own { d with depth := d.depth + 1 } e cs) :
    Traced b mayNest own d { e with depth := d.depth } cs where
  precedes := h.precedes.of_depth.with_depth _
  nodup := h.nodup
  workflows := h.workflows
  firings := h.firings
  stored := h.stored
  once := h.once
  processed := h.processed
  waiting := h.waiting
  made := h.made
  between c hc := ⟨(h.between c hc).1.of_depth, (h.between c hc).2.with_depth _⟩
  office := h.office
  events := h.events
  isNew := h.isNew

instance : Trail (Traces b mayNest own) where
  quiet h := ⟨[], .of_eq (.of_quiet h) h.events h.workflows fun id _ => firings_of_runs h.runs id⟩
  trans := fun ⟨_, h⟩ ⟨_, k⟩ => ⟨_, h.trans k⟩
  deeper := fun ⟨_, h⟩ => ⟨_, h.deeper⟩

/-- What leaves all events alone leaves them alone but for one's own. -/
theorem Traced.of_none (h : Traced b mayNest none d e cs) (hown : ∀ id, own = some id →
    id ∈ d.eventIds) : Traced b mayNest own d e cs :=
  { h with
    events := fun ev hev _ => h.events ev hev (by simp)
    firings := fun id _ => h.firings id (by simp)
    isNew := fun c hc => by
      obtain ⟨hd, _⟩ := h.isNew c hc
      exact ⟨hd, fun heq => hd (hown _ heq)⟩ }

/-- The runs of an event that is there are left alone by what leaves all events alone. -/
theorem Traced.firings_eq (h : Traced b mayNest none d e cs) {id : String}
    (hid : id ∈ d.eventIds) : e.firings id = d.firings id := by
  have hnil : madeFor cs id = [] :=
    madeFor_eq_nil fun c hc heq => (h.isNew c hc).1 (heq ▸ hid)
  rw [h.firings id (by simp), hnil, List.append_nil]

/-- A run that is closed stays the run that it is. -/
theorem firings_withUpdate (d : Desk) (u : RunUpdate) (runId id : String) :
    (d.withUpdate runId u).firings id = d.firings id := by
  have h : ∀ r : Run, isFiring id (if r.id == runId then u.apply r else r) = isFiring id r ∧
      ((if r.id == runId then u.apply r else r).id,
        (if r.id == runId then u.apply r else r).workflowId) = (r.id, r.workflowId) := by
    intro r
    split <;> exact ⟨rfl, rfl⟩
  simp only [firings, withUpdate, Store.updateRun, List.filter_map, List.map_map,
    Function.comp_def, h]

/-- One more run is one of its event. -/
theorem firings_withRun (d : Desk) (r : Run) (id : String) :
    (d.withRun r).firings id =
      d.firings id ++ if isFiring id r then [(r.id, r.workflowId)] else [] := by
  simp only [firings, withRun, List.filter_append, List.map_append, List.filter_cons,
    List.filter_nil]
  split <;> rfl

end Desk

open Desk (Precedes Traced Traces)

variable {b : Office} {mayNest : Prop} {o : Office} {d e : Desk}

/-! ## Runs -/

theorem Course.traces_log (c : Course) (s : WorkflowStep) (r : StepResult) :
    Leads (·.Like b) (Traces b mayNest none) (c.log s r) := by
  intro o d _
  rcases h : (c.log s r).run o d with ⟨ending, e⟩
  obtain ⟨_, _, rfl, _⟩ | ⟨_, rfl⟩ := log_cases h
  · exact Desk.Trail.quiet d.quiet_next
  · refine ⟨[], .of_eq ?_ rfl rfl fun _ _ => rfl⟩
    exact (Precedes.of_quiet d.quiet_next).trans (d.next.precedes_withLog _)

/-- From its opening on a run leaves all events alone but for new ones. -/
theorem Workflow.traces_run {w : Workflow} {em : Emitter}
    (hem : ∀ f, Leads (·.Like b) (Traces b mayNest none) (em f)) (ho : o.Like b) {context : Json}
    {triggeredBy : String} {ending : Ending RunOutcome}
    (h : (w.run em context triggeredBy).run o d = (ending, e)) :
    d.Quiet e ∨ ∃ seed r, startContext context = .ok seed ∧ r.Begun w seed triggeredBy d ∧
      Traces b mayNest none (d.next.withRun r) e := by
  obtain ⟨_, _, hq⟩ | ⟨seed, r, hs, hbegun, _, hconduct⟩ := run_cases h
  · exact .inl hq
  · obtain ⟨m, hm, hend⟩ := conduct_cases hconduct
    have hcarry : Traces b mayNest none m ((w.carryOut em r.id seed).run o m).2 :=
      leads_carryOut (fun c _ => c.traces_log) hem seed o m ho
    refine .inr ⟨seed, r, hs, hbegun, Desk.Trail.trans (Desk.Trail.quiet hm) ?_⟩
    obtain ⟨_, _, hcut⟩ | ⟨p, m', hdone, ⟨_, _, hq, _⟩ | ⟨_, hq⟩⟩ := hend
    · rwa [hcut] at hcarry
    · rw [hdone] at hcarry
      exact Desk.Trail.trans hcarry (Desk.Trail.quiet hq)
    · rw [hdone] at hcarry
      refine Desk.Trail.trans hcarry (Desk.Trail.trans ?_ (Desk.Trail.quiet hq))
      exact ⟨[], .of_eq (m'.precedes_withUpdate _ _) rfl rfl fun id _ =>
        m'.firings_withUpdate _ r.id id⟩

theorem Workflow.precedes_begun (r : Run) : d.Precedes (d.next.withRun r) :=
  (Precedes.of_quiet d.quiet_next).trans (d.next.precedes_withRun r)

/-- A run that is not set off by an event makes none for an event by itself. -/
theorem Workflow.traces_run_manual {w : Workflow} {em : Emitter}
    (hem : ∀ f, Leads (·.Like b) (Traces b mayNest none) (em f)) (context : Json) :
    Leads (·.Like b) (Traces b mayNest none) (w.run em context "manual") := by
  intro o d ho
  rcases h : (w.run em context "manual").run o d with ⟨ending, e⟩
  obtain hq | ⟨seed, r, _, hbegun, ht⟩ := traces_run hem ho h
  · exact Desk.Trail.quiet hq
  · have hopen : Traces b mayNest none d (d.next.withRun r) := by
      refine ⟨[], .of_eq (precedes_begun r) rfl rfl fun id _ => ?_⟩
      have hr : Desk.isFiring id r = false := by
        simp [Desk.isFiring, hbegun.triggeredBy]
      rw [Desk.firings_withRun, hr]
      exact List.append_nil _
    exact Desk.Trail.trans hopen ht

open Validation in
/-- The record of a run that an event sets off names the event. -/
theorem Run.Begun.triggerEventId_eq {w : Workflow} {ev : Event} {seed : Fields} {r : Run}
    (hs : Workflow.startContext (.object ev.contextSeed) = .ok seed)
    (h : r.Begun w seed "event" d) : r.triggerEventId = some ev.id := by
  obtain rfl : ev.contextSeed = seed := by
    simpa [Workflow.startContext, Event.contextSeed, Json.orElse, Json.isGiven] using hs
  have hid := h.triggerEventId _ rfl
  simpa [optionalText, Validation.optional, text, Fields.getD, Fields.get?] using hid.symm

/-- A run that an event sets off makes one run of its workflow for the event, or none. -/
theorem Workflow.traced_run_event {w : Workflow} {em : Emitter}
    (hem : ∀ f, Leads (·.Like b) (Traces b mayNest none) (em f)) (ho : o.Like b) {ev : Event}
    (hev : ev.id ∈ d.eventIds) {ending : Ending RunOutcome}
    (h : (w.run em (.object ev.contextSeed) "event").run o d = (ending, e)) :
    Traces b mayNest (some ev.id) d e ∧ (∀ old ∈ d.store.events, old ∈ e.store.events) ∧
      ∃ new, e.firings ev.id = d.firings ev.id ++ new ∧ (new.map Prod.snd).Sublist [w.id] := by
  obtain hq | ⟨seed, r, hs, hbegun, ht⟩ := traces_run hem ho h
  · refine ⟨Desk.Trail.quiet hq, fun old hold => hq.events ▸ hold, [], ?_, List.nil_sublist _⟩
    rw [Desk.firings_of_runs hq.runs, List.append_nil]
  · have hr := hbegun.triggerEventId_eq hs
    have hown : Desk.isFiring ev.id r = true := by
      simp [Desk.isFiring, hbegun.triggeredBy, hr]
    have hopen : Traced b mayNest (some ev.id) d (d.next.withRun r) [] := by
      refine .of_eq (precedes_begun r) rfl rfl fun id hne => ?_
      have hother : Desk.isFiring id r = false := by
        simpa [Desk.isFiring, hr] using fun _ heq => hne (congrArg some heq)
      rw [Desk.firings_withRun, hother]
      exact List.append_nil _
    obtain ⟨cs, ht⟩ := ht
    refine ⟨⟨_, hopen.trans (ht.of_none ?_)⟩, fun old hold => ht.events old hold (by simp),
      [(r.id, w.id)], ?_, List.Sublist.refl _⟩
    · intro id hid
      exact Option.some.inj hid ▸ hev
    · have hsame : e.firings ev.id = (d.next.withRun r).firings ev.id := ht.firings_eq hev
      rw [hsame, Desk.firings_withRun, hown, if_pos rfl, hbegun.workflowId]
      rfl

/-! ## Dispatches -/

/-- What is known of a call of the dispatcher that has handled its event, with the calls that were
made within it. -/
structure DispatchCall.Handled (b : Office) (mayNest : Prop) (c : DispatchCall)
    (cs : List DispatchCall) : Prop where
  traced : Traced b mayNest (some c.event.id) c.desk c.result.2 cs
  firings : c.result.2.firings c.event.id = c.desk.firings c.event.id ++ c.made
  made : c.desk.workflowIds.Nodup → (c.made.map Prod.snd).Nodup
  processed : ¬ c.IsCut → c.result.2.IsProcessed c.event.id
  waiting : c.IsCut → c.result.2.IsWaiting c.event.id

namespace Dispatch

/-- The workflows that an event sets off have different ids when the stored ones do. -/
theorem nodup_activeWorkflows {s : Store} (h : (s.workflows.map (·.id)).Nodup) (trigger : String) :
    ((s.activeWorkflows trigger).map (·.id)).Nodup := by
  let matching := s.workflows.filter fun r => r.trigger == trigger && r.isActive
  have hperm : (matching.mergeSort Store.runsBefore).Perm matching := List.mergeSort_perm _ _
  have hid : (s.activeWorkflows trigger).map (·.id) =
      (matching.mergeSort Store.runsBefore).map (·.id) := by
    rw [Store.activeWorkflows, List.map_map]
    rfl
  rw [hid, (hperm.map _).nodup_iff]
  exact h.sublist (List.filter_sublist.map _)

/-- To mark an event that is stored changes its record alone. -/
theorem traced_mark (mayNest : Prop) (ho : o.Like b)
    (hm : Action.faultOf b "mark_event_processed" = none) {id : String} (hid : id ∈ d.eventIds)
    {ending : Ending Unit}
    (h : (Archive.markProcessed id).run o d = (ending, e)) :
    ending = .done () ∧ Traced b mayNest (some id) d e [] ∧ e.firings id = d.firings id ∧
      e.IsProcessed id := by
  obtain ⟨ev, hev, hevid⟩ := List.mem_map.1 hid
  obtain ⟨_, _, _, hf⟩ | ⟨_, _, hnone⟩ | ⟨rfl, _, rfl⟩ := Archive.markProcessed_cases h
  · rw [ho.faultOf, hm] at hf
    simp at hf
  · simp only [Store.event?, List.find?_eq_none] at hnone
    exact absurd (by simpa using hevid) (hnone ev hev)
  · let mark : Event → Event := fun e =>
      if e.id == id then
        { e with processed := true, processedAt := some d.time.atUniversal }
      else e
    have hids := { d with clock := d.clock + 1 }.eventIds_withMark id d.time
    refine ⟨rfl, ?_, rfl, mark ev, List.mem_map_of_mem hev, ?_⟩
    · exact {
        precedes := (Precedes.of_quiet (Tame.now.quiet o d)).trans (Desk.precedes_withMark _ _ _)
        events := fun e he hne => by
          have hne : (e.id == id) = false := by simpa using fun h : e.id = id => hne (by rw [h])
          exact List.mem_map.2 ⟨e, he, by simp [hne]⟩
        nodup := fun hn => by
          rw [hids]
          exact hn
        workflows := rfl
        firings := fun _ _ => by simp [madeFor]; rfl
        stored := by simp
        isNew := by simp
        once := .nil
        processed := by simp
        waiting := by simp
        made := by simp
        between := by simp
        office := by simp }
    · simp [mark, hevid]

/-- What one run of a dispatch does is what the run does. -/
theorem run_runOne {em : Emitter} {ev : Event} {w : Workflow} {ending : Ending RunOutcome}
    (h : (runOne em ev w).run o d = (ending, e)) :
    ∃ ending', (w.run em (.object ev.contextSeed) "event").run o d = (ending', e) := by
  rw [runOne, Action.run_bind, Action.run_attempt] at h
  rcases hrun : (w.run em (.object ev.contextSeed) "event").run o d with ⟨_ | _ | _, m⟩ <;>
    rw [hrun] at h <;> exact ⟨_, congrArg (Prod.mk _) (Prod.mk.inj h).2⟩

/-- The runs that an event sets off are made in turn, for different workflows. -/
theorem traced_runAll {em : Emitter} (hem : ∀ f, Leads (·.Like b) (Traces b mayNest none) (em f))
    (ho : o.Like b) {ev : Event} (ws : List Workflow) :
    ∀ {d e : Desk} {ending : Ending (List RunOutcome)}, ev.id ∈ d.eventIds →
      (runAll em ev ws).run o d = (ending, e) →
      Traces b mayNest (some ev.id) d e ∧ (∀ old ∈ d.store.events, old ∈ e.store.events) ∧
        ∃ new, e.firings ev.id = d.firings ev.id ++ new ∧
          (new.map Prod.snd).Sublist (ws.map (·.id)) := by
  induction ws with
  | nil =>
    intro d e ending _ h
    obtain ⟨_, rfl⟩ := Prod.mk.inj h
    exact ⟨Desk.Trail.refl d, fun _ hold => hold, [], by simp, List.nil_sublist _⟩
  | cons w rest ih =>
    intro d e ending hev h
    rcases hone : (runOne em ev w).run o d with ⟨oneEnding, m⟩
    obtain ⟨_, hrun⟩ := run_runOne hone
    obtain ⟨⟨cs, ht⟩, hkept, new, hnew, hsub⟩ := Workflow.traced_run_event hem ho hev hrun
    have hstop : e = m → Traces b mayNest (some ev.id) d e ∧
        (∀ old ∈ d.store.events, old ∈ e.store.events) ∧
        ∃ new, e.firings ev.id = d.firings ev.id ++ new ∧
          (new.map Prod.snd).Sublist ((w :: rest).map (·.id)) := by
      rintro rfl
      refine ⟨⟨cs, ht⟩, hkept, new, hnew, hsub.trans ?_⟩
      exact List.singleton_sublist.2 List.mem_cons_self
    cases oneEnding with
    | failed failure =>
      rw [runAll, Action.run_bind_of_failed hone] at h
      exact hstop (Prod.mk.inj h).2.symm
    | cut level =>
      rw [runAll, Action.run_bind_of_cut hone] at h
      exact hstop (Prod.mk.inj h).2.symm
    | done outcome =>
      rw [runAll, Action.run_bind_of_done hone] at h
      have he := congrArg Prod.snd h
      rw [Action.desk_bind_pure] at he
      rcases hmore : (runAll em ev rest).run o m with ⟨moreEnding, m'⟩
      obtain ⟨⟨cs', ht'⟩, hkept', new', hnew', hsub'⟩ := ih (ht.precedes.events.subset hev) hmore
      obtain rfl : m' = e := by rwa [hmore] at he
      refine ⟨⟨_, ht.trans ht'⟩, fun old hold => hkept' old (hkept old hold), new ++ new', ?_, ?_⟩
      · rw [hnew', hnew, List.append_assoc]
      · rw [List.map_append, List.map_cons]
        exact hsub.append hsub'

/-- So are the runs after a wait. -/
theorem traced_runAll_of_quiet {em : Emitter}
    (hem : ∀ f, Leads (·.Like b) (Traces b mayNest none) (em f)) (ho : o.Like b) {ev : Event}
    {m : Desk} {ending : Ending (List RunOutcome)} (hq : d.Quiet m) (hid : ev.id ∈ d.eventIds)
    (h : (runAll em ev (m.store.activeWorkflows ev.type)).run o m = (ending, e)) :
    Traces b mayNest (some ev.id) d e ∧ (∀ old ∈ d.store.events, old ∈ e.store.events) ∧
      ∃ new, e.firings ev.id = d.firings ev.id ++ new ∧
        (d.workflowIds.Nodup → (new.map Prod.snd).Nodup) := by
  have hid' : ev.id ∈ m.eventIds := by
    rwa [Desk.eventIds, hq.events]
  obtain ⟨ht, hkept, new, hnew, hsub⟩ := traced_runAll hem ho _ hid' h
  refine ⟨Desk.Trail.trans (Desk.Trail.quiet hq) ht, fun old hold => hkept old (hq.events ▸ hold),
    new, by rw [hnew, Desk.firings_of_runs hq.runs], fun hn => ?_⟩
  have hn' : (m.store.workflows.map (·.id)).Nodup := by
    rw [hq.workflows]
    exact hn
  exact (nodup_activeWorkflows hn' _).sublist hsub

/-- A call of the dispatcher whose event is stored and not yet processed handles the event, unless
it is cut off while it waits or the workflows cannot be looked up. -/
theorem handled_or_quiet {c : DispatchCall} (mayNest : Prop)
    (hp : ∀ f, (c.emitter f).Punctual)
    (hem : ∀ f, Leads (·.Like b) (Traces b mayNest none) (c.emitter f)) (ho : c.office.Like b)
    (hm : Action.faultOf b "mark_event_processed" = none) (hopen : c.event.processed = false)
    (hev : c.event ∈ c.desk.store.events) :
    c.desk.Quiet c.result.2 ∨ ∃ cs, c.Handled b mayNest cs := by
  have hid := Desk.mem_eventIds hev
  rcases hc : c.result with ⟨ending, e⟩
  cases handling_of_event hopen hc with
  | late quiet => exact .inl quiet
  | unlisted quiet _ => exact .inl quiet
  | unmarked _ _ fault =>
    rw [ho.faultOf, hm] at fault
    cases fault
  | @cut level m _ quiet ran =>
    obtain ⟨⟨cs, ht⟩, hkept, new, hnew, hnodup⟩ := traced_runAll_of_quiet hem ho quiet hid ran
    have hlevel := timely_event hp c.event c.office c.desk level (by
      show c.result.1 = _
      rw [hc])
    have hmade : c.made = new := DispatchCall.made_eq (hc ▸ hnew)
    exact .inr ⟨cs, {
      traced := by rwa [hc]
      firings := by rw [hc, hmade, hnew]
      made := hmade ▸ hnodup
      processed := fun hcut => absurd ⟨level, by rw [hc], hlevel⟩ hcut
      waiting := fun _ => by
        rw [hc]
        exact ⟨c.event, hkept _ hev, rfl, hopen⟩ }⟩
  | @handled r outs m m' _ quiet ran marked _ =>
    obtain ⟨⟨cs, ht⟩, _, new, hnew, hnodup⟩ := traced_runAll_of_quiet hem ho quiet hid ran
    obtain ⟨_, ht', hsame, hdone⟩ :=
      traced_mark mayNest ho hm (ht.precedes.events.subset hid) marked
    have hmade : c.made = new := DispatchCall.made_eq (by rw [hc]; exact hsame.trans hnew)
    exact .inr ⟨_, {
      traced := by
        rw [hc]
        exact ht.trans ht'
      firings := by
        rw [hc, hmade]
        exact hsame.trans hnew
      made := hmade ▸ hnodup
      processed := fun _ => by
        rw [hc]
        exact hdone
      waiting := fun hcut => by
        rw [DispatchCall.IsCut, hc] at hcut
        exact absurd hcut Office.not_cuts_done }⟩

end Dispatch

/-! ## Emitters -/

/-- A further event is stored, and no call is made. -/
theorem Desk.traced_withEvent {m : Desk} {ev : Event} (hq : d.Quiet m)
    (hnew : ∀ old ∈ d.store.events, old.id ≠ ev.id) :
    Traced b mayNest none d (m.withEvent ev) [] where
  precedes := (Precedes.of_quiet hq).trans (m.precedes_withEvent ev)
  events old hold _ := List.mem_append_left _ (hq.events ▸ hold)
  nodup hn := by
    have h : (m.withEvent ev).eventIds = d.eventIds ++ [ev.id] := by
      simp [Desk.eventIds, Desk.withEvent, hq.events]
    rw [h]
    refine List.nodup_append.2 ⟨hn, by simp, fun id hid id' hid' => ?_⟩
    obtain ⟨old, hold, rfl⟩ := List.mem_map.1 hid
    obtain rfl := List.mem_singleton.1 hid'
    exact hnew old hold
  workflows := hq.workflows
  firings id _ := by
    rw [Desk.firings_of_runs (e := m.withEvent ev) hq.runs]
    exact (List.append_nil _).symm
  stored := by simp
  isNew := by simp
  once := .nil
  processed := by simp
  waiting := by simp
  made := by simp
  between := by simp
  office := by simp

theorem Emitter.traces_queue (f : FollowUp) :
    Leads (·.Like b) (Traces b mayNest none) (queue f) := by
  intro o d _
  rcases h : (queue f).run o d with ⟨ending, e⟩
  obtain ⟨_, _, hq, _⟩ | ⟨ev, _, rfl, _, hnew⟩ := queue_cases h
  · exact Desk.Trail.quiet hq
  · exact ⟨[], Desk.traced_withEvent d.quiet_next hnew⟩

namespace DispatchCall.Handled

variable {c : DispatchCall} {cs : List DispatchCall} (h : c.Handled b mayNest cs)
  (hid : c.event.id ∈ c.desk.eventIds)
  (hc : c.office.Like b ∧ (c.office.deadlines ≠ [] → mayNest))

include h hid

/-- The calls within a call are for other events. -/
theorem ne_of_mem : ∀ c' ∈ cs, c'.event.id ≠ c.event.id :=
  fun c' hc' heq => (h.traced.isNew c' hc').1 (heq ▸ hid)

/-- A call and the calls within it have made the further runs of all events. -/
theorem firings_cons (id : String) :
    c.result.2.firings id = c.desk.firings id ++ madeFor (c :: cs) id := by
  by_cases hi : c.event.id = id
  · subst hi
    have hnil : madeFor cs c.event.id = [] := madeFor_eq_nil (h.ne_of_mem hid)
    have hcons : madeFor (c :: cs) c.event.id = c.made ++ madeFor cs c.event.id := by
      simp [madeFor]
    rw [h.firings, hcons, hnil, List.append_nil]
  · have hcons : madeFor (c :: cs) id = madeFor cs id := by
      simp [madeFor, hi]
    rw [h.traced.firings id (by simpa using hi), hcons]

include hc

/-- The calls that a call accounts for are itself and those within it. -/
theorem called : Desk.Called b mayNest none c.desk c.result.2 (c :: cs) where
  precedes := h.traced.precedes
  nodup := h.traced.nodup
  workflows := h.traced.workflows
  firings id _ := h.firings_cons hid id
  stored := List.forall_mem_cons.2 ⟨h.traced.precedes.events.subset hid, h.traced.stored⟩
  once := List.pairwise_cons.2 ⟨fun c' hc' => (h.ne_of_mem hid c' hc').symm, h.traced.once⟩
  processed := List.forall_mem_cons.2 ⟨h.processed, h.traced.processed⟩
  waiting := List.forall_mem_cons.2 ⟨h.waiting, h.traced.waiting⟩
  made hn := List.forall_mem_cons.2 ⟨h.made hn, h.traced.made hn⟩
  between := List.forall_mem_cons.2 ⟨⟨Precedes.refl _, Precedes.refl _⟩, h.traced.between⟩
  office := List.forall_mem_cons.2 ⟨hc, h.traced.office⟩

/-- A call that handles an event as soon as it is queued is one for a new event. -/
theorem traced_cons (hd : Traced b mayNest none d c.desk []) (hnew : c.event.id ∉ d.eventIds) :
    Traced b mayNest none d c.result.2 (c :: cs) :=
  have hcalled := h.called hid hc
  { precedes := hd.precedes.trans hcalled.precedes
    nodup := fun hn => hcalled.nodup (hd.nodup hn)
    workflows := hcalled.workflows.trans hd.workflows
    firings := fun id hne => by
      have hf : c.desk.firings id = d.firings id := by
        simpa [madeFor] using hd.firings id hne
      rw [hcalled.firings id hne, hf]
    stored := hcalled.stored
    once := hcalled.once
    processed := hcalled.processed
    waiting := hcalled.waiting
    made := fun hn => hcalled.made (by rwa [Desk.workflowIds, hd.workflows])
    between := fun c' hc' =>
      ⟨hd.precedes.trans (hcalled.between c' hc').1, (hcalled.between c' hc').2⟩
    office := hcalled.office
    events := fun ev hev _ => by
      refine h.traced.events ev (hd.events ev hev (by simp)) fun heq => hnew ?_
      exact Option.some.inj heq ▸ Desk.mem_eventIds hev
    isNew := fun c' hc' => by
      refine ⟨fun hin => ?_, by simp⟩
      rcases List.mem_cons.1 hc' with rfl | hc'
      · exact hnew hin
      · exact (h.traced.isNew c' hc').1 (hd.precedes.events.subset hin) }

end DispatchCall.Handled

namespace Dispatch

/-- The emitter that handles events at once makes a call for each new event, unless it is too
deep. -/
theorem traces_inline (hn : mayNest) (hm : Action.faultOf b "mark_event_processed" = none)
    (bound : Int) (levels : Nat) :
    ∀ f, Leads (·.Like b) (Traces b mayNest none) (inline bound levels f) := by
  induction levels with
  | zero => exact Emitter.traces_queue
  | succ levels ih =>
    intro f o d ho
    rcases hqueue : (Emitter.queue f).run o d with ⟨ending, m⟩
    obtain ⟨_, rfl, hq, _⟩ | ⟨ev, rfl, rfl, hqueued, hnew⟩ := Emitter.queue_cases hqueue
    · rw [inline, Action.run_bind_of_failed hqueue]
      exact Desk.Trail.quiet hq
    · rw [inline, Action.run_bind_of_done hqueue]
      unfold atOnce
      rw [Action.run_bind_of_done rfl]
      split
      · exact ⟨_, Desk.traced_withEvent d.quiet_next hnew⟩
      · rw [Action.desk_bind_pure, Action.run_deeper]
        let d' : Desk := { d with depth := d.depth + 1 }
        let c : DispatchCall := ⟨inline bound levels, ev, o, d'.next.withEvent ev⟩
        have hd : Traced b mayNest none d' c.desk [] := Desk.traced_withEvent d'.quiet_next hnew
        have hev : c.event ∈ c.desk.store.events :=
          List.mem_append_right _ (List.mem_singleton_self ev)
        have hold : c.event.id ∉ d'.eventIds := by
          intro hin
          obtain ⟨old, hmem, heq⟩ := List.mem_map.1 hin
          exact hnew old hmem heq
        obtain hq | ⟨cs, hcs⟩ := handled_or_quiet (c := c) mayNest
          (fun f => (timely_inline bound levels f).punctual) ih ho hm hqueued.processed hev
        · have hstart : Traces b mayNest none d' c.desk := ⟨_, hd⟩
          exact Desk.Trail.deeper (Desk.Trail.trans hstart (Desk.Trail.quiet hq))
        · exact ⟨_, (hcs.traced_cons (Desk.mem_eventIds hev) ⟨ho, fun _ => hn⟩ hd hold).deeper⟩

/-- So do the emitters that the settings allow. -/
theorem traces_of_allows {em : Emitter} (h : b.settings.Allows em)
    (hm : Action.faultOf b "mark_event_processed" = none) (f : FollowUp) :
    Leads (·.Like b) (Traces b b.settings.Nests none) (em f) := by
  obtain rfl | ⟨hn, levels, rfl⟩ := h
  · exact Emitter.traces_queue f
  · exact traces_inline hn hm _ levels f

end Dispatch

end LeadDesk
