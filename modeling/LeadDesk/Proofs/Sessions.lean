import LeadDesk.Proofs.Firings
import Mathlib.Data.List.Nodup
/-!
# Sessions

A session is a list of errands, one after the other. From an empty store on, whatever the errands
are, an event that is processed stays as it is, and all dispatches of an event but the last were
cut off by the deadline of a run around them (`Desk.dispatches_of_session`). So an event is
dispatched once while events are queued.
-/

namespace LeadDesk

open LeadDesk.Action (Leads Tame)
open Desk (Called Precedes Traced Traces)

/-- A workflow is saved under an id and a slug of its own. -/
theorem Store.nodup_of_saveWorkflow {s t : Store} {w stored : Workflow} {now : Timestamp}
    {ids : Nat → String} (hids : (s.workflows.map (·.id)).Nodup)
    (hslugs : (s.workflows.map (·.slug)).Nodup)
    (h : s.saveWorkflow w now ids = .ok (stored, t)) :
    (t.workflows.map (·.id)).Nodup ∧ (t.workflows.map (·.slug)).Nodup := by
  obtain ⟨_, _, _, ⟨hnone, hid, hw⟩ | ⟨old, hold, hw⟩⟩ := saveWorkflow_eq_ok h
  · have hslug : ∀ r ∈ s.workflows, r.slug ≠ w.slug := by
      simpa [workflowRecord?] using hnone
    simp only [hw, List.map_append, List.map_cons, List.map_nil]
    constructor
    · refine List.nodup_append.2 ⟨hids, List.nodup_singleton _, ?_⟩
      intro id hmem id' hmem'
      obtain ⟨r, hr, rfl⟩ := List.mem_map.1 hmem
      obtain rfl := List.mem_singleton.1 hmem'
      exact hid r hr
    · refine List.nodup_append.2 ⟨hslugs, List.nodup_singleton _, ?_⟩
      intro slug hmem slug' hmem'
      obtain ⟨r, hr, rfl⟩ := List.mem_map.1 hmem
      obtain rfl := List.mem_singleton.1 hmem'
      exact hslug r hr
  · have hmem : old ∈ s.workflows := List.mem_of_find?_eq_some hold
    have hslug : old.slug = w.slug := by simpa using List.find?_some hold
    -- The renewed record takes the place of the only one with its slug.
    have hsame : ∀ r ∈ s.workflows, ∀ r',
        (if r.slug == w.slug then renewedRecord old w now else r) = r' →
          r'.id = r.id ∧ r'.slug = r.slug := by
      intro r hr r' hr'
      by_cases heq : r.slug = w.slug
      · have hold' : r = old := List.inj_on_of_nodup_map hslugs hr hmem (heq.trans hslug.symm)
        rw [if_pos (by simpa using heq)] at hr'
        subst hr' hold'
        exact ⟨rfl, rfl⟩
      · rw [if_neg (by simpa using heq)] at hr'
        subst hr'
        exact ⟨rfl, rfl⟩
    rw [hw, List.map_map, List.map_map]
    have hi := List.map_congr_left fun r hr => (hsame r hr _ rfl).1
    have hl := List.map_congr_left fun r hr => (hsame r hr _ rfl).2
    exact ⟨hi ▸ hids, hl ▸ hslugs⟩

namespace Desk

/-- The calls of the dispatcher up to a desk: they have made all runs for events, each call at most
one of a workflow; a later call for the same event comes after one that was cut off, which leaves
the event waiting, and an event is processed after a call that was not. -/
structure Chronicle (Q : Office → Prop) (cs : List DispatchCall) (d : Desk) : Prop where
  nodup : d.eventIds.Nodup
  workflowIds : d.workflowIds.Nodup
  slugs : (d.store.workflows.map (·.slug)).Nodup
  stored : ∀ c ∈ cs, c.event.id ∈ d.eventIds
  firings : ∀ id, d.firings id = madeFor cs id
  cut : cs.Pairwise fun c c' => c.event.id = c'.event.id →
    c.IsCut ∧ c.result.2.Precedes c'.desk
  processed : ∀ c ∈ cs, ¬ c.IsCut → d.IsProcessed c.event.id
  waiting : ∀ c ∈ cs, c.IsCut → c.result.2.IsWaiting c.event.id
  made : ∀ c ∈ cs, (c.made.map Prod.snd).Nodup
  ended : ∀ c ∈ cs, c.result.2.Precedes d
  office : ∀ c ∈ cs, Q c.office

/-- From one desk to another the chronicle goes on, and events that are processed stay as they are
and set off nothing more. -/
structure Follows (Q : Office → Prop) (cs : List DispatchCall) (d e : Desk) : Prop where
  goesOn : ∃ more, Chronicle Q (cs ++ more) e
  kept : ∀ ev ∈ d.store.events, ev.processed = true → ev ∈ e.store.events
  firings : ∀ id, d.IsProcessed id → e.firings id = d.firings id

variable {Q : Office → Prop} {cs : List DispatchCall} {d e : Desk} {b : Office} {mayNest : Prop}

/-- There is one stored event under an id. -/
theorem eq_of_id_eq (h : d.eventIds.Nodup) {ev ev' : Event} (hev : ev ∈ d.store.events)
    (hev' : ev' ∈ d.store.events) (hid : ev.id = ev'.id) : ev = ev' :=
  List.inj_on_of_nodup_map h hev hev' hid

/-- A chronicle goes on with calls for events that are not processed before. -/
theorem Chronicle.append {more : List DispatchCall} (h : Chronicle Q cs d)
    (hc : Called b mayNest none d e more)
    (hQ : ∀ o, o.Like b → (o.deadlines ≠ [] → mayNest) → Q o)
    (hopen : ∀ c ∈ more, ¬ d.IsProcessed c.event.id)
    (hkept : ∀ ev ∈ d.store.events, ev.processed = true → ev ∈ e.store.events) :
    Follows Q cs d e where
  goesOn := by
    refine ⟨more, ?_⟩
    exact {
      nodup := hc.nodup h.nodup
      workflowIds := by
        rw [Desk.workflowIds, hc.workflows]
        exact h.workflowIds
      slugs := hc.workflows ▸ h.slugs
      stored := List.forall_mem_append.2
        ⟨fun c hmem => hc.precedes.events.subset (h.stored c hmem), hc.stored⟩
      firings := fun id => by rw [hc.firings id (by simp), h.firings, madeFor_append]
      cut := by
        refine List.pairwise_append.2 ⟨h.cut, hc.once.imp fun hne heq => absurd heq hne, ?_⟩
        intro c hmem c' hmem' heq
        refine ⟨?_, (h.ended c hmem).trans (hc.between c' hmem').1⟩
        by_contra hcut
        exact hopen c' hmem' (heq ▸ h.processed c hmem hcut)
      processed := by
        refine List.forall_mem_append.2 ⟨fun c hmem hcut => ?_, hc.processed⟩
        obtain ⟨ev, hev, hid, hp⟩ := h.processed c hmem hcut
        exact ⟨ev, hkept ev hev hp, hid, hp⟩
      waiting := List.forall_mem_append.2 ⟨h.waiting, hc.waiting⟩
      made := List.forall_mem_append.2 ⟨h.made, hc.made h.workflowIds⟩
      ended := List.forall_mem_append.2
        ⟨fun c hmem => (h.ended c hmem).trans hc.precedes, fun c hmem => (hc.between c hmem).2⟩
      office := List.forall_mem_append.2
        ⟨h.office, fun c hmem => hQ _ (hc.office c hmem).1 (hc.office c hmem).2⟩ }
  kept := hkept
  firings id hid := by
    have hnil : madeFor more id = [] :=
      madeFor_eq_nil fun c hmem heq => hopen c hmem (heq ▸ hid)
    rw [hc.firings id (by simp), hnil, List.append_nil]

/-- The calls that are made along a run continue a chronicle. -/
theorem Chronicle.traced (h : Chronicle Q cs d) (ht : Traces b mayNest none d e)
    (hQ : ∀ o, o.Like b → (o.deadlines ≠ [] → mayNest) → Q o) : Follows Q cs d e := by
  obtain ⟨more, ht⟩ := ht
  refine h.append ht.toCalled hQ ?_ fun ev hev _ => ht.events ev hev (by simp)
  rintro c hc ⟨ev, hev, hid, _⟩
  exact (ht.isNew c hc).1 (hid ▸ mem_eventIds hev)

/-- So does a call for a stored event that is not processed, with the calls within it. -/
theorem Chronicle.handled {c : DispatchCall} {more : List DispatchCall}
    (h : Chronicle Q cs c.desk) (hc : c.Handled b mayNest more)
    (hev : c.event ∈ c.desk.store.events) (hopen : c.event.processed = false)
    (hQ : ∀ o, o.Like b → (o.deadlines ≠ [] → mayNest) → Q o)
    (hoffice : c.office.Like b ∧ (c.office.deadlines ≠ [] → mayNest)) :
    Follows Q cs c.desk c.result.2 := by
  have hid := mem_eventIds hev
  have hunprocessed : ∀ ev ∈ c.desk.store.events, ev.id = c.event.id → ev.processed = false := by
    intro ev hev' heq
    rw [eq_of_id_eq h.nodup hev' hev heq]
    exact hopen
  refine h.append (hc.called hid hoffice) hQ ?_ fun ev hev' hp => ?_
  · rintro c' hc' ⟨ev, hev', hid', hp⟩
    rcases List.mem_cons.1 hc' with rfl | hc'
    · simp [hunprocessed ev hev' hid'] at hp
    · exact (hc.traced.isNew c' hc').1 (hid' ▸ mem_eventIds hev')
  · refine hc.traced.events ev hev' fun heq => ?_
    simp [hunprocessed ev hev' (Option.some.inj heq).symm] at hp

/-- From one desk to another every chronicle goes on. -/
def Continues (Q : Office → Prop) (d e : Desk) : Prop :=
  ∀ cs : List DispatchCall, Chronicle Q cs d → Follows Q cs d e

theorem Follows.trans {f : Desk} (h : Follows Q cs d e) (k : Continues Q e f) :
    Follows Q cs d f := by
  obtain ⟨⟨more, he⟩, hkept, hfirings⟩ := h
  obtain ⟨⟨more', hf⟩, hkept', hfirings'⟩ := k _ he
  refine ⟨⟨more ++ more', ?_⟩, fun ev hev hp => hkept' ev (hkept ev hev hp) hp, fun id hid => ?_⟩
  · rwa [← List.append_assoc]
  · obtain ⟨ev, hev, rfl, hp⟩ := hid
    rw [hfirings' _ ⟨ev, hkept ev hev hp, rfl, hp⟩, hfirings _ ⟨ev, hev, rfl, hp⟩]

/-- Where no event and no run changes, and workflows keep their ids and slugs, a chronicle stays
as it is. -/
theorem Chronicle.of_eq (h : Chronicle Q cs d) (hde : d.Precedes e)
    (he : e.store.events = d.store.events) (hr : e.store.runs = d.store.runs)
    (hw : e.workflowIds.Nodup) (hs : (e.store.workflows.map (·.slug)).Nodup) :
    Follows Q cs d e where
  goesOn := by
    refine ⟨[], ?_⟩
    have hids : e.eventIds = d.eventIds := by rw [eventIds, eventIds, he]
    rw [List.append_nil]
    exact {
      nodup := hids ▸ h.nodup
      workflowIds := hw
      slugs := hs
      stored := hids ▸ h.stored
      firings := fun id => by rw [firings_of_runs hr, h.firings]
      cut := h.cut
      processed := fun c hc hcut => (h.processed c hc hcut).of_events fun ev hev _ => he ▸ hev
      waiting := h.waiting
      made := h.made
      ended := fun c hc => (h.ended c hc).trans hde
      office := h.office }
  kept ev hev _ := he ▸ hev
  firings id _ := firings_of_runs hr id

/-- A chronicle is the same at every depth. -/
theorem Chronicle.with_depth (h : Chronicle Q cs d) (n : Nat) :
    Chronicle Q cs { d with depth := n } where
  nodup := h.nodup
  workflowIds := h.workflowIds
  slugs := h.slugs
  stored := h.stored
  firings := h.firings
  cut := h.cut
  processed := h.processed
  waiting := h.waiting
  made := h.made
  ended c hc := (h.ended c hc).with_depth n
  office := h.office

instance : Trail (Continues Q) where
  quiet hq _ h := by
    refine h.of_eq (.of_quiet hq) hq.events hq.runs ?_ ?_
    · rw [Desk.workflowIds, hq.workflows]
      exact h.workflowIds
    · rw [hq.workflows]
      exact h.slugs
  trans h k _ hc := (h _ hc).trans k
  deeper h cs hc := by
    obtain ⟨⟨more, hgo⟩, hkept, hfirings⟩ := h cs (hc.with_depth _)
    exact ⟨⟨more, hgo.with_depth _⟩, hkept, hfirings⟩

/-- The empty store has an empty chronicle. -/
theorem Chronicle.start (hd : d.store = {}) : Chronicle Q [] d where
  nodup := by simp [eventIds, hd]
  workflowIds := by simp [Desk.workflowIds, hd]
  slugs := by simp [hd]
  stored := by simp
  firings id := by simp [Desk.firings, hd, madeFor]
  cut := .nil
  processed := by simp
  waiting := by simp
  made := by simp
  ended := by simp
  office := by simp

/-- To save a workflow carries the chronicle on without a call. -/
theorem Chronicle.saved {w stored : Workflow} {t : Store} {now : Timestamp} {ids : Nat → String}
    {m : Desk} (h : Chronicle Q cs d) (hq : d.Quiet m)
    (hs : d.store.saveWorkflow w now ids = .ok (stored, t)) :
    Follows Q cs d { m with store := t } := by
  obtain ⟨hevents, hruns, _⟩ := Store.saveWorkflow_eq_ok hs
  obtain ⟨hw, hslugs⟩ := Store.nodup_of_saveWorkflow h.workflowIds h.slugs hs
  exact h.of_eq (precedes_save hq hs) hevents hruns hw hslugs

/-- Events are at hand as they are stored, each once. -/
structure Holds (d : Desk) (es : List Event) : Prop where
  stored : ∀ ev ∈ es, ev ∈ d.store.events
  once : (es.map (·.id)).Nodup

/-- The events that are still to be handled are at hand while the others change. -/
theorem Holds.tail {ev : Event} {rest : List Event} (h : d.Holds (ev :: rest))
    (hk : ∀ ev' ∈ d.store.events, ev'.id ≠ ev.id → ev' ∈ e.store.events) : e.Holds rest := by
  have hn : ev.id ∉ rest.map (·.id) ∧ (rest.map (·.id)).Nodup := List.nodup_cons.1 h.once
  refine ⟨fun ev' hev' => ?_, hn.2⟩
  refine hk ev' (h.stored ev' (List.mem_cons_of_mem _ hev')) fun heq => hn.1 ?_
  exact heq ▸ List.mem_map_of_mem hev'

end Desk

open Desk (Continues Holds)

/-- The oldest events that wait are at hand. -/
theorem Desk.holds_unprocessed {d : Desk} (h : d.eventIds.Nodup) (limit : Option Int) :
    d.Holds (d.store.unprocessed limit) := by
  have hsub : (d.store.unprocessed limit).Sublist d.store.pending := by
    unfold Store.unprocessed Row.upTo
    split
    · exact List.Sublist.refl _
    · split
      · exact List.Sublist.refl _
      · exact List.take_sublist _ _
  have hperm : d.store.pending.Perm (d.store.events.filter (!·.processed)) :=
    List.mergeSort_perm _ _
  refine ⟨fun ev hev => ?_, ?_⟩
  · exact List.mem_of_mem_filter (hperm.subset (hsub.subset hev))
  · have hn : (d.store.pending.map (·.id)).Nodup :=
      (hperm.map _).nodup_iff.2 (h.sublist (List.filter_sublist.map _))
    exact hn.sublist (hsub.map _)

section Dispatches

variable {Q : Office → Prop} {b o : Office} {d e : Desk}
  (hQ : ∀ o, o.Like b → (o.deadlines ≠ [] → b.settings.Nests) → Q o)
  (hm : Action.faultOf b "mark_event_processed" = none) (ho : o.Like b) (hd : o.deadlines = [])

namespace Dispatch

section

include hQ

/-- An action that makes calls for new events only carries the chronicle on. -/
theorem continues_of_traces {α : Type} {x : Action α}
    (h : Leads (·.Like b) (Traces b b.settings.Nests none) x) (ho : o.Like b) :
    Continues Q d (x.run o d).2 :=
  fun _ hc => hc.traced (h o d ho) hQ

/-- An event that is taken in is stored. -/
theorem continues_accept (given : Event) :
    Continues Q d ((accept given).run o d).2 ∧
      ∀ ev m, (accept given).run o d = (.done ev, m) → ev ∈ m.store.events := by
  rcases hget : (Archive.getEvent given.id).run o d with ⟨found, m⟩
  obtain ⟨rfl, ⟨failure, rfl⟩ | ⟨stored, rfl, hstored⟩⟩ := Action.query_cases hget
  · rw [accept, Action.run_bind_of_failed hget]
    refine ⟨Desk.Trail.refl m, fun _ _ h => ?_⟩
    cases h
  · rw [accept, Action.run_bind_of_done hget]
    have hfind : m.store.event? given.id = stored := Except.ok.inj hstored
    cases stored with
    | some ev =>
      refine ⟨Desk.Trail.refl m, fun _ _ h => ?_⟩
      cases h
      exact List.mem_of_find?_eq_some hfind
    | none =>
      dsimp only
      rcases hcreate : (Archive.createEvent given).run o m with ⟨ending, m'⟩
      obtain ⟨_, rfl, rfl, _⟩ | ⟨rfl, rfl, hnew⟩ := Archive.createEvent_cases hcreate
      · refine ⟨Desk.Trail.refl _, fun _ _ h => ?_⟩
        cases h
      · have ht : Traces b b.settings.Nests none m (m.withEvent (Store.storedEvent given)) :=
          ⟨[], Desk.traced_withEvent (Desk.Quiet.refl m) hnew⟩
        refine ⟨fun _ hc => hc.traced ht hQ, fun _ _ h => ?_⟩
        cases h
        exact List.mem_append_right _ (List.mem_singleton_self _)

end

include hQ hm ho hd

/-- A dispatch of a stored event carries the chronicle on and leaves the other events as they
are. -/
theorem continues_event {em : Emitter} (hem : b.settings.Allows em) {ev : Event}
    (hev : ev ∈ d.store.events) :
    Continues Q d ((event em ev).run o d).2 ∧
      ∀ ev' ∈ d.store.events, ev'.id ≠ ev.id → ev' ∈ ((event em ev).run o d).2.store.events := by
  cases hp : ev.processed with
  | true =>
    rw [run_event_of_processed em hp]
    exact ⟨Desk.Trail.refl d, fun _ hev' _ => hev'⟩
  | false =>
    let c : DispatchCall := ⟨em, ev, o, d⟩
    obtain hq | ⟨cs, hcs⟩ := handled_or_quiet (c := c) b.settings.Nests
      (fun f => (hem.timely f).punctual) (traces_of_allows hem hm) ho hm hp hev
    · exact ⟨Desk.Trail.quiet hq, fun ev' hev' _ => hq.events ▸ hev'⟩
    · refine ⟨fun _ h => h.handled (c := c) hcs hev hp hQ ⟨ho, fun hne => absurd hd hne⟩, ?_⟩
      intro ev' hev' hne
      exact hcs.traced.events ev' hev' fun heq => hne (Option.some.inj heq).symm

theorem continues_handle {ev : Event} (hev : ev ∈ d.store.events) :
    Continues Q d ((handle ev).run o d).2 ∧
      ∀ ev' ∈ d.store.events, ev'.id ≠ ev.id → ev' ∈ ((handle ev).run o d).2.store.events := by
  have hs : o.settings = b.settings := by
    obtain ⟨times, rfl⟩ := ho
    rfl
  have hrun : (handle ev).run o d = (event (emitterFor b.settings) ev).run o d := by
    rw [← hs]
    rfl
  rw [hrun]
  exact continues_event hQ hm ho hd (allows_emitterFor b.settings) hev

/-- Events at hand are handled in turn. -/
theorem continues_handleAll (es : List Event) :
    ∀ {d : Desk}, d.Holds es → Continues Q d ((handleAll es).run o d).2 := by
  induction es with
  | nil => exact fun _ => Desk.Trail.refl _
  | cons ev rest ih =>
    intro d h
    obtain ⟨hgo, hkept⟩ := continues_handle hQ hm ho hd (h.stored ev List.mem_cons_self)
    refine Action.trail_bind hgo fun result m hmid => ?_
    rw [hmid] at hkept
    exact Action.trail_bind (ih (h.tail hkept)) fun _ _ _ => Desk.Trail.refl _

/-- A sweep handles the events that it finds. -/
theorem continues_pending (limit : Option Int) :
    Continues Q d ((pending limit).run o d).2 := by
  intro cs h
  have hgo : Continues Q d ((pending limit).run o d).2 := by
    refine Action.trail_bind (Desk.Trail.quiet ((Archive.tame_unprocessedEvents _).quiet o d))
      fun es m hes => ?_
    obtain ⟨rfl, ⟨_, hf⟩ | hes⟩ := Archive.unprocessedEvents_cases hes
    · cases hf
    · obtain rfl := Ending.done.inj hes
      exact continues_handleAll hQ hm ho hd _ (Desk.holds_unprocessed h.nodup limit)
  exact hgo cs h

/-- The stored event with an id is handled. -/
theorem continues_byId (id : String) : Continues Q d ((byId id).run o d).2 := by
  refine Action.trail_bind (Desk.Trail.quiet ((Tame.query _ _).quiet o d)) fun found m hfound => ?_
  obtain ⟨rfl, ⟨_, hf⟩ | ⟨_, hf, hstored⟩⟩ := Action.query_cases hfound
  · cases hf
  · obtain rfl := Ending.done.inj hf
    cases found with
    | none => exact Desk.Trail.refl m
    | some ev =>
      have hev : m.store.event? id = some ev := Except.ok.inj hstored
      exact (continues_handle hQ hm ho hd (List.mem_of_find?_eq_some hev)).1

/-- A stored event that is handled at once is dispatched or left as it is. -/
theorem continues_atOnce {em : Emitter} (hem : b.settings.Allows em) {ev : Event}
    (hev : ev ∈ d.store.events) (bound : Int) :
    Continues Q d ((atOnce bound em ev).run o d).2 := by
  refine Action.trail_bind (Desk.Trail.refl d) fun depth m hm' => ?_
  obtain ⟨rfl, rfl⟩ : d.depth = depth ∧ d = m := by
    cases hm'
    exact ⟨rfl, rfl⟩
  split
  · exact Desk.Trail.refl d
  · refine Action.trail_bind ?_ fun _ _ _ => Desk.Trail.refl _
    exact Desk.Trail.deeper
      (continues_event (d := { d with depth := d.depth + 1 }) hQ hm ho hd hem hev).1

/-- To emit an event stores it, and handles it where that is asked for. -/
theorem continues_emit (f : Emission) (team : Json) (immediately : Option Bool) :
    Continues Q d ((emit f team immediately).run o d).2 := by
  refine Action.trail_bind (Desk.Trail.refl d) fun s m hs => ?_
  obtain ⟨rfl, rfl⟩ : s = b.settings ∧ d = m := by
    obtain ⟨times, rfl⟩ := ho
    cases hs
    exact ⟨rfl, rfl⟩
  refine Action.trail_bind ?_ fun ev m hqueue => ?_
  · exact continues_of_traces hQ (Emitter.traces_queue _) ho
  obtain ⟨_, hf, _⟩ | ⟨_, hdone, rfl, _⟩ := Emitter.queue_cases hqueue
  · cases hf
  obtain rfl := Ending.done.inj hdone
  split
  · have hev : ev ∈ (d.next.withEvent ev).store.events :=
      List.mem_append_right _ (List.mem_singleton_self ev)
    exact continues_atOnce hQ hm ho hd (allows_emitterFor b.settings) hev _
  · exact Desk.Trail.refl _

omit hd in
/-- A run by hand makes calls for new events only. -/
theorem continues_trigger (slug : String) (context : Json) :
    Continues Q d ((trigger slug context).run o d).2 := by
  have hP : Action.Composes fun _ => Leads (·.Like b) (Traces b b.settings.Nests none) :=
    Leads.composes
  refine continues_of_traces hQ (hP.bind (hP.query _ _) fun found => ?_) ho
  split
  · exact hP.fail _
  · refine hP.bind (.of_tame .settings) fun _ => hP.bind (.ofExcept _) fun context => ?_
    refine Action.leads_settings (f := fun s => Workflow.run _ (emitterFor s) context "manual")
      (fun _ h => h) fun s hs => ?_
    subst hs
    exact Workflow.traces_run_manual (traces_of_allows (allows_emitterFor _) hm) context

end Dispatch

include hQ hm ho hd

/-- The monitor handles those of the events at hand that are ready. -/
theorem Monitor.continues_handleReady (now : Timestamp) (es : List Event) :
    ∀ {d : Desk}, d.Holds es → Continues Q d ((handleReady now es).run o d).2 := by
  induction es with
  | nil => exact fun _ => Desk.Trail.refl _
  | cons ev rest ih =>
    intro d h
    unfold handleReady
    split
    · obtain ⟨hgo, hkept⟩ :=
        Dispatch.continues_handle hQ hm ho hd (h.stored ev List.mem_cons_self)
      refine Action.trail_bind ?_ fun result m hmid => ?_
      · rwa [Action.desk_attempt]
      have hm' : ((Dispatch.handle ev).run o d).2 = m := by
        rw [← Action.desk_attempt, hmid]
      have hrest := ih (h.tail (hm' ▸ hkept))
      split
      · exact Action.trail_bind hrest fun _ _ _ => Desk.Trail.refl _
      · exact hrest
    · exact ih ⟨fun ev' hev' => h.stored ev' (List.mem_cons_of_mem _ hev'),
        (List.nodup_cons.1 h.once).2⟩

theorem Monitor.continues_poll (size : Option Int) :
    Continues Q d ((poll size).run o d).2 := by
  intro cs h
  have hgo : Continues Q d ((poll size).run o d).2 := by
    refine Action.trail_bind (Desk.Trail.refl d) fun s m hs => ?_
    obtain rfl : d = m := (Prod.mk.inj hs).2
    refine Action.trail_bind (Desk.Trail.quiet ((Archive.tame_unprocessedEvents _).quiet o d))
      fun es m hes => ?_
    obtain ⟨rfl, ⟨_, hf⟩ | hes⟩ := Archive.unprocessedEvents_cases hes
    · cases hf
    obtain rfl := Ending.done.inj hes
    refine Action.trail_bind (Desk.Trail.quiet (Tame.now.quiet o _)) fun now m' hnow => ?_
    obtain rfl := (Prod.mk.inj hnow).2
    have hhold := Desk.holds_unprocessed h.nodup (some (batch s size))
    exact continues_handleReady hQ hm ho hd now _ ⟨hhold.stored, hhold.once⟩
  exact hgo cs h

/-- The event of a body is taken in and handled. -/
theorem Service.continues_processEvent (body : Body) :
    Continues Q d ((processEvent body).run o d).2 := by
  unfold processEvent
  split
  · refine Action.trail_bind (Desk.Trail.quiet (Tame.newId.quiet o d)) fun id m _ => ?_
    refine Action.trail_bind (Desk.Trail.quiet (Tame.now.quiet o m)) fun now m' _ => ?_
    split
    · rename_i given _
      obtain ⟨hgo, hstored⟩ := Dispatch.continues_accept (o := o) (d := m') hQ given
      refine Action.trail_bind hgo fun ev m'' hev => ?_
      have hhandle := (Dispatch.continues_handle hQ hm ho hd (hstored ev m'' hev)).1
      refine Action.trail_bind hhandle fun result _ _ => ?_
      unfold answerData
      split <;> exact Desk.Trail.refl _
    · exact Desk.Trail.refl _
    · exact Desk.Trail.refl _
  · exact Desk.Trail.refl _
  · exact Desk.Trail.refl _

omit hQ hm ho hd in
theorem Archive.continues_saveWorkflow (w : Workflow) :
    Continues Q d ((saveWorkflow w).run o d).2 := by
  rcases hsave : (saveWorkflow w).run o d with ⟨ending, e⟩
  obtain ⟨_, _, hq⟩ | ⟨_, _, _, _, _, _, hs, hq, rfl⟩ := saveWorkflow_cases hsave
  · exact Desk.Trail.quiet hq
  · exact fun _ h => h.saved hq hs

end Dispatches

/-! ## Turns -/

/-- The errand is about stored events only. An event that is given is taken in first. -/
def Errand.IsFiled : Errand → Prop
  | .dispatch _ => False
  | _ => True

/-- A turn of a session: the desk stands idle for some microseconds and carries out an errand. -/
structure Turn where
  idle : Nat := 0
  office : Office
  errand : Errand

namespace Turn

/-- The turn is one of its own: no deadline surrounds it, events can be marked in it, and the
events that it handles are stored. -/
structure Fair (t : Turn) : Prop where
  deadlines : t.office.deadlines = []
  marks : Action.faultOf t.office "mark_event_processed" = none
  isFiled : t.errand.IsFiled

/-- The desk after a turn. -/
def play (d : Desk) (t : Turn) : Desk :=
  (t.errand.carryOut.run t.office { d with clock := d.clock + t.idle }).2

/-- The dispatcher is called in the office of a turn, or in a run in it where runs nest. -/
def Calls (t : Turn) (o : Office) : Prop :=
  o.Like t.office ∧ (o.deadlines ≠ [] → t.office.settings.Nests)

/-- A turn carries the chronicle on. -/
theorem Fair.continues {Q : Office → Prop} {t : Turn} (h : t.Fair) (hQ : ∀ o, t.Calls o → Q o)
    (d : Desk) : Continues Q d (t.play d) := by
  have hQ' : ∀ o, o.Like t.office → (o.deadlines ≠ [] → t.office.settings.Nests) → Q o :=
    fun o hl hn => hQ o ⟨hl, hn⟩
  have ho := Office.Like.refl t.office
  let m : Desk := { d with clock := d.clock + t.idle }
  have hidle : d.Quiet m := by
    refine ⟨{ Desk.Steady.refl d with clock := ?_ }, rfl⟩
    show d.clock ≤ d.clock + t.idle
    omega
  refine Desk.Trail.trans (Desk.Trail.quiet hidle) ?_
  have hfiled := h.isFiled
  show Continues Q m (t.errand.carryOut.run t.office m).2
  cases herrand : t.errand with
  | dispatch e =>
    rw [herrand] at hfiled
    exact hfiled.elim
  | dispatchById id =>
    simp only [Errand.carryOut, Action.desk_bind_pure]
    exact Dispatch.continues_byId hQ' h.marks ho h.deadlines id
  | processPending limit =>
    simp only [Errand.carryOut, Action.desk_bind_pure]
    exact Dispatch.continues_pending hQ' h.marks ho h.deadlines limit
  | trigger slug context =>
    simp only [Errand.carryOut, Action.desk_bind_pure]
    exact Dispatch.continues_trigger hQ' h.marks ho slug context
  | post body =>
    simp only [Errand.carryOut, Action.desk_bind_pure]
    exact Service.continues_processEvent hQ' h.marks ho h.deadlines body
  | poll size =>
    simp only [Errand.carryOut, Action.desk_bind_pure]
    exact Monitor.continues_poll hQ' h.marks ho h.deadlines size
  | emit e team atOnce =>
    simp only [Errand.carryOut, Action.desk_bind_pure]
    exact Dispatch.continues_emit hQ' h.marks ho h.deadlines e team atOnce
  | save w =>
    simp only [Errand.carryOut, Action.desk_bind_pure]
    exact Archive.continues_saveWorkflow w

end Turn

namespace Desk

/-- The desk after the turns of a session. -/
def after (d : Desk) (ts : List Turn) : Desk := ts.foldl Turn.play d

theorem after_append (d : Desk) (ts ts' : List Turn) :
    d.after (ts ++ ts') = (d.after ts).after ts' :=
  List.foldl_append

/-- Turns carry the chronicle on. -/
theorem continues_after {Q : Office → Prop} (ts : List Turn) (h : ∀ t ∈ ts, t.Fair)
    (hQ : ∀ t ∈ ts, ∀ o, t.Calls o → Q o) (d : Desk) : Continues Q d (d.after ts) := by
  induction ts generalizing d with
  | nil => exact Trail.refl d
  | cons t rest ih =>
    have hfirst := (h t List.mem_cons_self).continues (hQ t List.mem_cons_self) d
    refine Trail.trans hfirst (ih (fun t' ht' => ?_) (fun t' ht' => ?_) (Turn.play d t))
    · exact h t' (List.mem_cons_of_mem _ ht')
    · exact hQ t' (List.mem_cons_of_mem _ ht')

/-- The calls of the dispatcher that have made the runs of an event: one after the other, each at
most one run of a workflow. All but the last were cut off, which leaves the event waiting, and one
that is not cut off leaves it processed. -/
structure Dispatched (Q : Office → Prop) (d : Desk) (id : String) (cs : List DispatchCall) :
    Prop where
  event : ∀ c ∈ cs, c.event.id = id
  firings : d.firings id = cs.flatMap DispatchCall.made
  made : ∀ c ∈ cs, (c.made.map Prod.snd).Nodup
  cut : cs.Pairwise fun c c' => c.IsCut ∧ c.result.2.Precedes c'.desk
  waiting : ∀ c ∈ cs, c.IsCut → c.result.2.IsWaiting id
  processed : ∀ c ∈ cs, ¬ c.IsCut → d.IsProcessed id
  ended : ∀ c ∈ cs, c.result.2.Precedes d
  office : ∀ c ∈ cs, Q c.office

/-- A chronicle holds the calls for each event. -/
theorem Chronicle.dispatched {Q : Office → Prop} {cs : List DispatchCall} {d : Desk}
    (h : Chronicle Q cs d) (id : String) :
    Dispatched Q d id (cs.filter fun c => c.event.id == id) := by
  have hsub : ∀ c ∈ cs.filter (fun c => c.event.id == id), c ∈ cs ∧ c.event.id = id := by
    intro c hc
    obtain ⟨hmem, hid⟩ := List.mem_filter.1 hc
    exact ⟨hmem, by simpa using hid⟩
  exact {
    event := fun c hc => (hsub c hc).2
    firings := h.firings id
    made := fun c hc => h.made c (hsub c hc).1
    cut := by
      refine (h.cut.filter _).imp_of_mem fun {c c'} hc hc' hcut => hcut ?_
      rw [(hsub c hc).2, (hsub c' hc').2]
    waiting := fun c hc hcut => (hsub c hc).2 ▸ h.waiting c (hsub c hc).1 hcut
    processed := fun c hc hcut => (hsub c hc).2 ▸ h.processed c (hsub c hc).1 hcut
    ended := fun c hc => h.ended c (hsub c hc).1
    office := fun c hc => h.office c (hsub c hc).1 }

/-- Where no run nests, an event is dispatched once, and is processed after that. -/
theorem Dispatched.once {Q : Office → Prop} {d : Desk} {id : String} {cs : List DispatchCall}
    (h : Dispatched Q d id cs) (hQ : ∀ o, Q o → o.deadlines = []) :
    cs.length ≤ 1 ∧ (cs ≠ [] → d.IsProcessed id) := by
  have huncut : ∀ c ∈ cs, ¬ c.IsCut := by
    intro c hc hcut
    exact Office.Cuts.deadlines_ne hcut (hQ c.office (h.office c hc))
  match cs, h, huncut with
  | [], _, _ => exact ⟨Nat.zero_le _, fun hne => absurd rfl hne⟩
  | [c], h, huncut =>
    have hc : c ∈ [c] := List.mem_singleton_self c
    exact ⟨Nat.le_refl _, fun _ => h.processed c hc (huncut c hc)⟩
  | c :: c' :: rest, h, huncut =>
    have hcut := (List.pairwise_cons.1 h.cut).1 c' List.mem_cons_self
    exact absurd hcut.1 (huncut c List.mem_cons_self)

/-- In a session from an empty store on, events that are processed stay as they are and set off no
further run. The runs of an event were made by calls of the dispatcher of which all but the last
were cut off by the deadline of a run around them, and by one call where no run nests. -/
theorem dispatches_of_session {d : Desk} (hd : d.store = {}) (past more : List Turn)
    (h : ∀ t ∈ past ++ more, t.Fair) :
    (∀ ev ∈ (d.after past).store.events, ev.processed = true →
      ev ∈ (d.after (past ++ more)).store.events ∧
        (d.after (past ++ more)).firings ev.id = (d.after past).firings ev.id) ∧
    (d.after (past ++ more)).eventIds.Nodup ∧
    ∀ id, ∃ cs, Dispatched (fun o => ∃ t ∈ past ++ more, t.Calls o) (d.after (past ++ more)) id cs ∧
      ((∀ t ∈ past ++ more, ¬ t.office.settings.Nests) →
        cs.length ≤ 1 ∧ (cs ≠ [] → (d.after (past ++ more)).IsProcessed id)) := by
  let Q : Office → Prop := fun o => ∃ t ∈ past ++ more, t.Calls o
  have hpast := continues_after (Q := Q) past (fun t ht => h t (List.mem_append_left _ ht))
    (fun t ht o ho => ⟨t, List.mem_append_left _ ht, ho⟩) d
  have hmore := continues_after (Q := Q) more (fun t ht => h t (List.mem_append_right _ ht))
    (fun t ht o ho => ⟨t, List.mem_append_right _ ht, ho⟩) (d.after past)
  obtain ⟨cs, hcs⟩ := (hpast _ (.start hd)).goesOn
  have hfollows := hmore _ hcs
  rw [← after_append] at hfollows
  obtain ⟨cs', hcs'⟩ := hfollows.goesOn
  refine ⟨fun ev hev hp => ⟨hfollows.kept ev hev hp, hfollows.firings _ ⟨ev, hev, rfl, hp⟩⟩,
    hcs'.nodup, fun id => ⟨_, hcs'.dispatched id, fun hn => ?_⟩⟩
  refine (hcs'.dispatched id).once fun o ho => ?_
  obtain ⟨t, ht, _, hnest⟩ := ho
  by_contra hne
  exact hn t ht (hnest hne)

/-- A workflow is saved, an event that sets it off is queued, and a minute later it is handled:
once. -/
theorem dispatches_of_session_askThenCall :
    let past : List Turn := [{ office := {}, errand := .save Workflow.askThenCall }]
    let more : List Turn := [
      { office := {}, errand := .emit ⟨"asked", none, none, []⟩ .null none },
      { idle := 60000000, office := {}, errand := .processPending none }]
    (∀ t ∈ past ++ more, t.Fair) ∧
      ∃ cs, Dispatched (fun o => ∃ t ∈ past ++ more, t.Calls o)
        (({} : Desk).after (past ++ more)) (freshId 3) cs ∧ cs.length ≤ 1 := by
  intro past more
  have hfair : ∀ t ∈ past ++ more, t.Fair := by
    intro t ht
    simp only [past, more, List.cons_append, List.nil_append, List.mem_cons, List.not_mem_nil,
      or_false] at ht
    rcases ht with rfl | rfl | rfl <;> exact ⟨rfl, rfl, trivial⟩
  have hn : ∀ t ∈ past ++ more, ¬ t.office.settings.Nests := by
    intro t ht
    simp only [past, more, List.cons_append, List.nil_append, List.mem_cons, List.not_mem_nil,
      or_false] at ht
    rcases ht with rfl | rfl | rfl <;> simp [Settings.Nests]
  obtain ⟨_, _, hid⟩ := dispatches_of_session (d := {}) rfl past more hfair
  obtain ⟨cs, hcs, honce⟩ := hid (freshId 3)
  exact ⟨hfair, cs, hcs, (honce hn).1⟩

end Desk

end LeadDesk
