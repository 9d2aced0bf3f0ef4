import LeadDesk.Proofs.LastWriter
import LeadDesk.Proofs.Nesting
/-!
# What an emitted event inherits

Behind every event that a run emits stands an emission, asked for by the last of the entries that
the run has come to (`Course.Asks`). The event is about the record that the emission names itself,
and otherwise about the one in the variable `event` of the context; its team is the variable
`team_id`. Both are those of the event that has set the run off as long as no step has written over
them (`DispatchCall.followUp_inherits`), which only a step does that has this name for its output
(`lastWritten_eq_none`).
-/

namespace LeadDesk

open LeadDesk.Action (Leads Tame)
open Desk (Grows Overlooks)

variable {b o : Office} {d : Desk}

/-! ## The emission behind an event -/

theorem Entry.AroseAfter.isSound {en : Entry} {before : List WorkflowStep} {c : Course}
    {p : Progress} (h : en.AroseAfter before c p o d) : en.IsSound := by
  obtain ⟨_, _, _, _, _, hres, _⟩ := h
  exact fun r hr => Course.sound_of_resultOf (hr ▸ hres)

namespace Course

/-- The steps of a run have come to an emission by these entries, the last of which asks for it. -/
structure Asks (c : Course) (o : Office) (ss : List WorkflowStep) (p : Progress) (d : Desk)
    (es : List Entry) (em : Emission) (x : EmitCall) : Prop where
  steps : es.map Entry.step <+: ss
  arose : ∀ (i : Nat) (en : Entry), es[i]? = some en → en.AroseAfter (ss.take i) c p o d
  asked : ∃ en r, es.getLast? = some en ∧ en.result = some r ∧ r.emit = some em
  followUp : followUp (contextLeft p.context es) em = .ok x.followUp

variable {c : Course} {ss : List WorkflowStep} {p : Progress} {x : EmitCall}

theorem Asks.cons {en : Entry} {p' : Progress} {m : Desk} {es : List Entry} {em : Emission}
    (stepped : (c.step en.step p).run o d = (.done (p', .next), m))
    (arose : en.AroseAfter [] c p o d) (context : p'.context = Entry.leave p.context en)
    (h : c.Asks o ss p' m es em x) : c.Asks o (en.step :: ss) p d (en :: es) em x where
  steps := List.cons_prefix_cons.2 ⟨rfl, h.steps⟩
  arose i en' hi := by
    cases i with
    | zero =>
      obtain rfl : en = en' := by simpa using hi
      exact arose
    | succ i => exact begunAfter_cons stepped (h.arose i en' (by simpa using hi))
  asked := by
    obtain ⟨last, r, hlast, hr⟩ := h.asked
    exact ⟨last, r, by simp [List.getLast?_cons, hlast], hr⟩
  followUp := by
    rw [← h.followUp, context]
    rfl

/-- Every emission that the steps make is asked for. -/
theorem Emits.exists_asks (hem : ∀ f, Leads (·.Like b) (Grows none) (c.emitter f))
    (ho : o.Like b) (h : c.Emits o ss p d x) :
    p.stopped = false → d.HasRun c.runId → ∃ es em, c.Asks o ss p d es em x := by
  induction h with
  | @now s rest p d m m' m'' r added em f resulted logged success told asked followUp =>
    intro _ _
    obtain ⟨hpart, hadded⟩ := perform_eq_done.1 resulted
    let en : Entry := ⟨s, p.context, some r, none, added⟩
    have harose : en.AroseAfter [] c p o d := ⟨p, d, m, rfl, rfl, part_eq_ok hpart, hadded⟩
    have hcontext : contextLeft p.context [en] =
        (((en.lengthen p).count r).succeed s r).context := by
      have heffect : en.effect p = ((en.lengthen p).count r).succeed s r := by
        simp [en, Entry.effect, success]
      rw [← heffect, Entry.context_effect harose.isSound]
      rfl
    refine ⟨[en], em, ⟨List.cons_prefix_cons.2 ⟨rfl, List.nil_prefix⟩, ?_, ⟨en, r, rfl, rfl, asked⟩,
      hcontext ▸ followUp⟩⟩
    intro i en' hi
    obtain ⟨rfl, rfl⟩ : i = 0 ∧ en = en' := by
      cases i <;> simp_all
    exact harose
  | @later s rest p p' d m x stepped _ ih =>
    intro hp hr
    cases stepEnds_of_step hem ho hp hr stepped with
    | logged en seen harose shown log hdecides =>
      cases hdecides with
      | next hends =>
        have hm : m.HasRun c.runId := by
          have hlead := leads_step (R := Grows (some c.runId)) c.leads_log
            (fun f => (hem f).mono fun h => h.of_none) en.step p o d ho
          rw [stepped] at hlead
          exact hlead.hasRun _ hr
        obtain ⟨es, em, hasks⟩ := ih (en.stopped_effect hp hends) hm
        exact ⟨en :: es, em, hasks.cons stepped harose (Entry.context_effect harose.isSound p)⟩

end Course

/-- A workflow that the event of a dispatch sets off has come to an emission by these entries of
its run. -/
structure DispatchCall.Asks (c : DispatchCall) (w : Workflow) (es : List Entry) (em : Emission)
    (x : EmitCall) : Prop where
  found : w ∈ c.desk.store.activeWorkflows c.event.type
  run : ∃ (run : Course) (m : Desk), run.slug = w.slug ∧ run.emitter = c.emitter ∧
    run.Asks c.office w.orderedSteps { context := c.event.contextSeed } m es em x

/-- Every emission that a run makes for an event is asked for. -/
theorem Workflow.Emits.exists_asks {w : Workflow} {em : Emitter} {ev : Event} {x : EmitCall}
    (hem : em.Apart o) (h : w.Emits em (.object ev.contextSeed) "event" o d x) :
    ∃ (run : Course) (m : Desk) (es : List Entry) (emission : Emission), run.slug = w.slug ∧
      run.emitter = em ∧
      run.Asks o w.orderedSteps { context := ev.contextSeed } m es emission x := by
  obtain @⟨seed, r, m, m', hstart, hopened, htold, _, hsteps⟩ := h
  obtain rfl : ev.contextSeed = seed := by
    simpa [startContext, Event.contextSeed, Json.orElse, Json.isGiven] using hstart
  have hrun : m'.HasRun r.id := by
    obtain ⟨_, hfailed, _⟩ | ⟨r', hdone, rfl, _⟩ := openRun_cases hopened
    · cases hfailed
    · obtain rfl := Ending.done.inj hdone
      have hruns := ((Tame.tell _ _).quiet_of_run htold).runs
      exact ⟨r', hruns ▸ List.mem_append_right _ (List.mem_singleton_self r'), rfl⟩
  obtain ⟨es, emission, hasks⟩ := hsteps.exists_asks hem.grows (.refl o) rfl hrun
  exact ⟨_, m', es, emission, rfl, rfl, hasks⟩

/-- An emission of a dispatch is one of the runs that it makes. -/
theorem Dispatch.Emits.exists_run {em : Emitter} {ev : Event} {ws : List Workflow} {x : EmitCall}
    (h : Emits em ev o ws d x) :
    ∃ w ∈ ws, ∃ m, w.Emits em (.object ev.contextSeed) "event" o m x := by
  induction h with
  | now run => exact ⟨_, List.mem_cons_self, _, run⟩
  | later _ _ ih =>
    obtain ⟨w, hw, m, run⟩ := ih
    exact ⟨w, List.mem_cons_of_mem _ hw, m, run⟩

/-- Every emission that a dispatch makes is asked for. -/
theorem DispatchCall.Emits.exists_asks {c : DispatchCall} {x : EmitCall}
    (hem : c.emitter.Apart c.office) (h : c.Emits x) : ∃ w es em, c.Asks w es em x := by
  obtain @⟨m, ws, _, hwaited, hfound, hruns⟩ := h
  obtain ⟨w, hw, _, hrun⟩ := hruns.exists_run
  obtain ⟨run, m', es, em, hslug, hemitter, hasks⟩ := hrun.exists_asks hem
  refine ⟨w, es, em, ?_, run, m', hslug, hemitter, hasks⟩
  have hq := (Dispatch.tame_wait _).quiet_of_run hwaited
  obtain ⟨_, ⟨_, hfailed, _⟩ | hdone⟩ := Archive.activeWorkflows_cases hfound
  · cases hfailed
  · obtain rfl := Ending.done.inj hdone
    rwa [Store.activeWorkflows_of_eq hq.workflows hq.steps] at hw

/-! ## What the fields of a follow-up say -/

theorem Validation.optionalText_eq_good {v : Json} {s : Option String} :
    optionalText v = .good s ↔ v = Json.ofText? s := by
  cases v <;> cases s <;>
    simp [optionalText, Validation.optional, text, Json.ofText?, Checked.map, Checked.complain]

namespace Emission

/-- The kind of record that the emission names itself. -/
def ownType (em : Emission) : Option String := em.entityType.filter (· ≠ "")

/-- The id that the emission names itself. -/
def ownId (em : Emission) : Option String := em.entityId.filter (· ≠ "")

end Emission

namespace Course

/-- The field of a follow-up is the one that its emission names, or that of the variable. -/
theorem inherited_eq_ok {own : Option String} {event v : Json} {key : String}
    (h : inherited own event key = .ok v) :
    (∀ t, own.filter (· ≠ "") = some t → v = .string t) ∧
      (own.filter (· ≠ "") = none →
        ∃ fields, event.orElse .empty = .object fields ∧ v = Fields.getD fields key) := by
  have hevent : inherited.fromEvent event key = .ok v →
      ∃ fields, event.orElse .empty = .object fields ∧ v = Fields.getD fields key := by
    intro h
    unfold inherited.fromEvent at h
    split at h
    · exact ⟨_, ‹_›, (Except.ok.inj h).symm⟩
    · cases h
  unfold inherited at h
  split at h
  · rename_i t
    by_cases ht : t = ""
    · simp only [ht, BEq.rfl, if_true] at h
      simpa [ht] using hevent h
    · simp only [beq_iff_eq, ht, if_false, Except.ok.injEq] at h
      simp [ht, ← h]
  · simpa using hevent h

theorem followUp_eq_ok {context : Fields} {em : Emission} {f : FollowUp}
    (h : followUp context em = .ok f) :
    f.type = em.eventType ∧ f.payload = em.payload ∧ f.team = Fields.getD context "team_id" ∧
      inherited em.entityType (Fields.getD context "event") "entity_type" = .ok f.entityType ∧
      inherited em.entityId (Fields.getD context "event") "entity_id" = .ok f.entityId := by
  unfold followUp at h
  cases htype : inherited em.entityType (Fields.getD context "event") "entity_type" with
  | error failure => simp [htype, bind, Except.bind] at h
  | ok type =>
    cases hid : inherited em.entityId (Fields.getD context "event") "entity_id" with
    | error failure => simp [htype, hid, bind, Except.bind] at h
    | ok id =>
      simp only [htype, hid, bind, Except.bind, pure, Except.pure, Except.ok.injEq] at h
      subst h
      exact ⟨rfl, rfl, rfl, rfl, rfl⟩

end Course

/-! ## What no step has written over -/

/-- Steps give their failures names of one form, when they have none themselves. -/
theorem Progress.failureName_eq {s : WorkflowStep} {k : String} (hk : k.toList.head? ≠ some 's')
    (h : failureName s = k) : outputName? s = some k := by
  unfold failureName at h
  cases hname : outputName? s with
  | some name => rw [← h, hname]; rfl
  | none =>
    rw [hname] at h
    subst h
    refine absurd ?_ hk
    show ("step_" ++ toString s.order ++ "_error").toList.head? = some 's'
    simp

/-- An entry whose step has not this name for its output does not write under it. -/
theorem Entry.value?_eq_none {en : Entry} {k : String} (hk : k.toList.head? ≠ some 's')
    (h : Progress.outputName? en.step ≠ some k) : en.value? k = none := by
  unfold value? write?
  cases en.result with
  | none => rfl
  | some r =>
    dsimp only
    split
    · cases hname : Progress.outputName? en.step with
      | none => rfl
      | some name => exact if_neg fun heq => h (hname.trans (congrArg some heq))
    · cases en.step.onFailure with
      | stop => rfl
      | goOn => exact if_neg fun heq => h (Progress.failureName_eq hk heq)

/-- Entries whose steps have not this name for their output do not write under it. -/
theorem lastWritten_eq_none {es : List Entry} {k : String} (hk : k.toList.head? ≠ some 's')
    (h : ∀ en ∈ es, Progress.outputName? en.step ≠ some k) : lastWritten es k = none := by
  rw [lastWritten, List.findSome?_eq_none_iff]
  exact fun en hen => Entry.value?_eq_none hk (h en (List.mem_reverse.1 hen))

/-! ## What a follow-up has from the event of its run -/

/-- What an event that is emitted in a run has from the event that has set the run off: what its
emission does not name itself, as long as the entries of the run have not written over the variable
that says it. Where they have, it has what they have written. -/
structure Event.InheritsFrom (origin : Event) (es : List Entry) (em : Emission) (ev : Event) :
    Prop where
  type : ev.type = em.eventType
  payload : ev.payload = em.payload
  ownType : ∀ t, em.ownType = some t → ev.entityType = some t
  ownId : ∀ id, em.ownId = some id → ev.entityId = some id
  entityType : em.ownType = none → lastWritten es "event" = none →
    ev.entityType = origin.entityType
  entityId : em.ownId = none → lastWritten es "event" = none → ev.entityId = origin.entityId
  team : lastWritten es "team_id" = none → ev.teamId = origin.teamId
  writtenType : ∀ v, em.ownType = none → lastWritten es "event" = some v →
    ∃ fields, v.orElse .empty = .object fields ∧
      Json.ofText? ev.entityType = Fields.getD fields "entity_type"
  writtenId : ∀ v, em.ownId = none → lastWritten es "event" = some v →
    ∃ fields, v.orElse .empty = .object fields ∧
      Json.ofText? ev.entityId = Fields.getD fields "entity_id"
  writtenTeam : ∀ v, lastWritten es "team_id" = some v → Json.ofText? ev.teamId = v

theorem Json.ofText?_injective : Function.Injective ofText? := by
  rintro (_ | s) (_ | t) h <;> simp_all [ofText?]

/-- An event that is queued for a follow-up inherits so. -/
theorem Event.Queued.inheritsFrom {origin ev : Event} {es : List Entry} {em : Emission}
    {f : FollowUp} (hf : Course.followUp (contextLeft origin.contextSeed es) em = .ok f)
    (hq : ev.Queued f d) : origin.InheritsFrom es em ev := by
  obtain ⟨htype, hpayload, hteam, hkind, hid⟩ := Course.followUp_eq_ok hf
  -- What a call has added to a list is neither the text of a field nor that of the team.
  have hfield : ∀ (v : Json) (key : String) (text : Option String), (∃ fields,
      (Fields.getD (contextLeft origin.contextSeed es) "event").orElse .empty = .object fields ∧
        Json.ofText? text = Fields.getD fields key) →
      (lastWritten es "event").getD origin.reference = v →
      ∃ fields, v.orElse .empty = .object fields ∧ Json.ofText? text = Fields.getD fields key := by
    rintro v key text ⟨fields, hfields, htext⟩ rfl
    exact Json.exists_field_of_outline (outline_getD_contextLeft es rfl) hfields htext
  rw [Validation.optionalText_eq_good.1 hq.team] at hteam
  have hteam : (lastWritten es "team_id").getD (Json.ofText? origin.teamId) =
      Json.ofText? ev.teamId := by
    refine Json.eq_ofText?_of_outline ?_
    have hseed : Fields.get? origin.contextSeed "team_id" = some (Json.ofText? origin.teamId) := rfl
    rw [← outline_getD_contextLeft es hseed, ← hteam, Json.outline_ofText?]
  obtain ⟨hownType, hvarType⟩ := Course.inherited_eq_ok hkind
  obtain ⟨hownId, hvarId⟩ := Course.inherited_eq_ok hid
  rw [Validation.optionalText_eq_good.1 hq.entityType] at hownType hvarType
  rw [Validation.optionalText_eq_good.1 hq.entityId] at hownId hvarId
  exact {
    type := hq.type.trans htype
    payload := hq.payload.trans hpayload
    ownType := fun t ht => Json.ofText?_injective (hownType t ht)
    ownId := fun id hid => Json.ofText?_injective (hownId id hid)
    entityType := fun hnone hkept => by
      obtain ⟨fields, hfields, hv⟩ := hfield _ _ _ (hvarType hnone) rfl
      rw [hkept] at hfields
      obtain rfl := Json.object.inj hfields
      exact Json.ofText?_injective hv
    entityId := fun hnone hkept => by
      obtain ⟨fields, hfields, hv⟩ := hfield _ _ _ (hvarId hnone) rfl
      rw [hkept] at hfields
      obtain rfl := Json.object.inj hfields
      exact Json.ofText?_injective hv
    team := fun hkept => Json.ofText?_injective (by rw [← hteam, hkept]; rfl)
    writtenType := fun v hnone hwritten => hfield v _ _ (hvarType hnone) (by rw [hwritten]; rfl)
    writtenId := fun v hnone hwritten => hfield v _ _ (hvarId hnone) (by rw [hwritten]; rfl)
    writtenTeam := fun v hwritten => by rw [← hteam, hwritten]; rfl }

/-! ## The record of an event lasts -/

/-- Nothing has become of an event but that it was processed. -/
def Event.Becomes (ev row : Event) : Prop :=
  ∃ processed processedAt, row = { ev with processed := processed, processedAt := processedAt }

namespace Desk

/-- Nothing becomes of the stored events but that they are processed. -/
def KeepsEvents (d e : Desk) : Prop :=
  ∀ ev ∈ d.store.events, ∃ row ∈ e.store.events, ev.Becomes row

theorem keepsEvents_of_subset {d e : Desk} (h : d.store.events ⊆ e.store.events) :
    d.KeepsEvents e := fun ev hev => ⟨ev, h hev, ev.processed, ev.processedAt, rfl⟩

instance : Trail KeepsEvents where
  quiet h := keepsEvents_of_subset (h.events ▸ List.Subset.refl _)
  trans h k ev hev := by
    obtain ⟨_, hrow, _, _, rfl⟩ := h ev hev
    obtain ⟨row, hrow', processed, processedAt, rfl⟩ := k _ hrow
    exact ⟨_, hrow', processed, processedAt, rfl⟩
  deeper h := h

instance : Overlooks KeepsEvents where
  withRun _ _ := keepsEvents_of_subset (List.Subset.refl _)
  withLog _ _ := keepsEvents_of_subset (List.Subset.refl _)
  withUpdate _ _ _ := keepsEvents_of_subset (List.Subset.refl _)

theorem keepsEvents_withEvent (d : Desk) (ev : Event) : d.KeepsEvents (d.withEvent ev) :=
  keepsEvents_of_subset (List.subset_append_left _ _)

theorem keepsEvents_withMark (d : Desk) (id : String) (now : Timestamp) :
    d.KeepsEvents (d.withMark id now) := by
  intro ev hev
  refine ⟨_, List.mem_map_of_mem hev, ?_⟩
  split
  · exact ⟨true, some now.atUniversal, rfl⟩
  · exact ⟨ev.processed, ev.processedAt, rfl⟩

end Desk

namespace Dispatch

theorem keepsEvents_queue (f : FollowUp) : Leads (·.Like b) Desk.KeepsEvents (Emitter.queue f) := by
  intro o d _
  rcases h : (Emitter.queue f).run o d with ⟨ending, e⟩
  obtain ⟨_, _, hq, _⟩ | ⟨ev, _, rfl, _⟩ := Emitter.queue_cases h
  · exact Desk.Trail.quiet hq
  · exact Desk.Trail.trans (Desk.Trail.quiet d.quiet_next) (d.next.keepsEvents_withEvent ev)

theorem keepsEvents_emitterFor (s : Settings) (f : FollowUp) :
    Leads (·.Like b) Desk.KeepsEvents (emitterFor s f) :=
  overlooks_emitterFor keepsEvents_queue Desk.keepsEvents_withMark s f

end Dispatch

/-- When an emission has ended, its event is stored, if it was queued at all. -/
theorem EmitCall.Queues.stored {x : EmitCall} {ev : Event} {m : Desk} {s : Settings}
    (hem : x.emitter = Dispatch.emitterFor s) (hq : x.Queues ev m) :
    ∃ row ∈ x.result.2.store.events, ev.Becomes row := by
  have hkeeps : m.KeepsEvents x.result.2 := by
    rw [EmitCall.result, hem]
    cases hinline : s.inline with
    | true =>
      have hevent : Leads (·.Like x.office) Desk.KeepsEvents
          (Dispatch.event (Dispatch.emitterFor s) ev) :=
        Dispatch.overlooks_event (Dispatch.keepsEvents_emitterFor s)
          (Desk.keepsEvents_withMark · ev.id)
      rw [Dispatch.run_emitterFor hinline, Action.run_bind_of_done hq]
      exact Dispatch.composes_atOnce Leads.composes hevent s.maxDepth x.office m (.refl _)
    | false =>
      rw [Dispatch.emitterFor, hinline, if_neg (by simp)]
      rw [show (Emitter.queue x.followUp).run x.office x.desk = _ from hq]
      exact Desk.Trail.refl m
  exact hkeeps ev hq.mem

/-- Whatever the steps of the runs do that a dispatch makes, each event that they emit inherits from
the event of the dispatch, and is stored with what it has inherited when the dispatch ends. -/
theorem DispatchCall.followUp_inherits {c : DispatchCall} {s : Settings} {x : EmitCall} {ev : Event}
    {m : Desk} (hem : c.emitter = Dispatch.emitterFor s) (hx : c.Emits x) (hq : x.Queues ev m) :
    ∃ w es em, c.Asks w es em x ∧ c.event.InheritsFrom es em ev ∧
      ∃ row ∈ c.result.2.store.events, ev.Becomes row := by
  obtain ⟨w, es, em, hasks⟩ := hx.exists_asks (hem ▸ Dispatch.apart_emitterFor c.office s)
  refine ⟨w, es, em, hasks, ?_, ?_⟩
  · obtain ⟨_, _, _, _, hrun⟩ := hasks.run
    obtain ⟨_, hfailed, _⟩ | ⟨ev', hdone, _, hqueued, _⟩ := Emitter.queue_cases hq
    · cases hfailed
    · obtain rfl := Ending.done.inj hdone
      exact hqueued.inheritsFrom hrun.followUp
  · obtain ⟨row, hrow, hbecomes⟩ := hq.stored (hx.emitter_eq.trans hem)
    have hafter := hx.after (R := Desk.KeepsEvents) (b := c.office)
      (hem ▸ Dispatch.keepsEvents_emitterFor s) (Desk.keepsEvents_withMark · c.event.id) (.refl _)
    obtain ⟨_, _, rfl⟩ := hbecomes
    obtain ⟨row, hrow', processed, processedAt, rfl⟩ := hafter _ hrow
    exact ⟨_, hrow', processed, processedAt, rfl⟩

/-- Where emitted events wait, all further events of a dispatch are emitted by its runs. -/
theorem DispatchCall.gains_of_waiting {c : DispatchCall} (hem : c.emitter = Emitter.queue) :
    Desk.Gains (fun id => ∃ x ev m, c.Emits x ∧ x.Queues ev m ∧ ev.id = id) c.desk c.result.2 := by
  refine trail_of_emits (fun d now => Desk.gains_of_eventIds (d.eventIds_withMark _ now))
    fun x hx => ?_
  rcases hqueue : (Emitter.queue x.followUp).run x.office x.desk with ⟨ending, m⟩
  have hresult : x.result = (ending, m) := by
    rw [EmitCall.result, hx.emitter_eq, hem, hqueue]
  rw [hresult]
  obtain ⟨_, _, hquiet, _⟩ | ⟨ev, rfl, rfl, _⟩ := Emitter.queue_cases hqueue
  · exact Desk.Trail.quiet hquiet
  · intro id hid
    have hid : id ∈ x.desk.eventIds ++ [ev.id] := by
      simpa [Desk.eventIds, Desk.withEvent, Desk.next] using hid
    rcases List.mem_append.1 hid with hold | hnew
    · exact .inl hold
    · exact .inr ⟨x, ev, _, hx, hqueue, (List.mem_singleton.1 hnew).symm⟩

/-- The workflow that sets itself off again hands on the record and the team of its event. -/
theorem DispatchCall.followUp_inherits_echo :
    let ev : Event := { (default : Event) with
      id := "event", type := "asked", entityType := some "contact", entityId := some "7"
      teamId := some "north" }
    let d : Desk := { store := {
      events := [ev], workflows := [Store.newRecord .echo (Timestamp.utc 0)]
      steps := Workflow.echo.steps.map fun s => ⟨s.name, "echo", s, Timestamp.utc 0⟩ } }
    let c : DispatchCall := ⟨Dispatch.emitterFor {}, ev, {}, d⟩
    c.emitter = Dispatch.emitterFor {} ∧ ∃ x ev' m, c.Emits x ∧ x.Queues ev' m ∧
      ∃ w es em, c.Asks w es em x ∧ c.event.InheritsFrom es em ev' ∧
        lastWritten es "event" = none ∧ lastWritten es "team_id" = none ∧
        ev'.teamId = some "north" := by
  intro ev d c
  have hnew : freshId 3 ∈ c.result.2.eventIds := by decide +kernel
  obtain hold | ⟨x, ev', m, hx, hq, _⟩ := DispatchCall.gains_of_waiting (c := c) rfl _ hnew
  · exact absurd hold (by decide +kernel)
  obtain ⟨w, es, em, hasks, hinherits, _⟩ := followUp_inherits (c := c) (s := {}) rfl hx hq
  have hsteps : ∀ w ∈ d.store.activeWorkflows "asked", ∀ s ∈ w.orderedSteps,
      Progress.outputName? s = none := by decide +kernel
  have hnames : ∀ en ∈ es, Progress.outputName? en.step = none := fun en hen => by
    obtain ⟨_, _, _, _, hrun⟩ := hasks.run
    exact hsteps w hasks.found _ (hrun.steps.subset (List.mem_map_of_mem hen))
  have hevent : lastWritten es "event" = none :=
    lastWritten_eq_none (by decide) fun en hen => by simp [hnames en hen]
  have hteam : lastWritten es "team_id" = none :=
    lastWritten_eq_none (by decide) fun en hen => by simp [hnames en hen]
  exact ⟨rfl, x, ev', m, hx, hq, w, es, em, hasks, hinherits, hevent, hteam, hinherits.team hteam⟩

end LeadDesk
