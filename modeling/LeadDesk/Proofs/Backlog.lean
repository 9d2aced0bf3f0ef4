import LeadDesk.Proofs.Account
import LeadDesk.Proofs.Matching
import Mathlib.Algebra.Group.Int.Defs
import Mathlib.Data.List.Nodup
/-!
# Sweeping the events that wait

While the events that runs emit are queued, an event leaves the list of those that wait when it is
handled, and an event joins it when a run emits it. A sweep over the oldest events takes just these
off the list and adds just what their runs report as emitted, in the order of emission as long as
the clock does not go back (`Dispatch.pending_conserves`).
-/

namespace LeadDesk

open LeadDesk.Action (Leads Tame)

namespace Desk

/-- The stored events that wait, in the order in which they were stored. -/
def waiting (d : Desk) : List Event := d.store.events.filter (!·.processed)

/-- Between two desks the events with some ids were handled and new ones were emitted. The handled
ones do not wait any longer, and the new ones wait behind all others. Each was created at a moment
in between, and not before the one in front of it where the clock does not go back. -/
structure Swept (d : Desk) (ids : List String) (new : List Event) (e : Desk) : Prop where
  waiting : e.waiting = d.waiting.filter (fun ev => ev.id ∉ ids) ++ new
  eventIds : e.eventIds = d.eventIds ++ new.map (·.id)
  isNew : ∀ ev ∈ new, ev.id ∉ d.eventIds
  nodup : d.eventIds.Nodup → e.eventIds.Nodup
  source : ∀ ev ∈ new, ev.source = some "workflow"
  clock : d.clock ≤ e.clock
  dial : e.dial = d.dial
  times : ∀ ev ∈ new, ∃ moment, d.clock ≤ moment ∧ moment < e.clock ∧
    ev.createdAt.wall = d.dial moment
  sorted : d.ClockKeepsOn → new.Pairwise fun a b => a.createdAt.wall ≤ b.createdAt.wall

variable {d e f : Desk}

theorem Swept.of_eq (he : e.store.events = d.store.events) (hc : d.clock ≤ e.clock)
    (hd : e.dial = d.dial) : d.Swept [] [] e where
  waiting := by simp [Desk.waiting, he]
  eventIds := by simp [Desk.eventIds, he]
  isNew := by simp
  nodup h := by rwa [Desk.eventIds, he]
  source := by simp
  clock := hc
  dial := hd
  times := by simp
  sorted _ := .nil

theorem Swept.of_quiet (h : d.Quiet e) : d.Swept [] [] e := .of_eq h.events h.clock h.dial

theorem Swept.trans {ids ids' : List String} {new new' : List Event} (h : d.Swept ids new e)
    (k : e.Swept ids' new' f) (hnew : ∀ ev ∈ new, ev.id ∉ ids') :
    d.Swept (ids ++ ids') (new ++ new') f where
  waiting := by
    have hkept : new.filter (fun ev => ev.id ∉ ids') = new :=
      List.filter_eq_self.2 fun ev hev => by simpa using hnew ev hev
    rw [k.waiting, h.waiting, List.filter_append, hkept, List.filter_filter, List.append_assoc]
    congr 1
    refine List.filter_congr fun ev _ => ?_
    simp [Bool.and_comm]
  eventIds := by rw [k.eventIds, h.eventIds, List.map_append, List.append_assoc]
  isNew := by
    refine List.forall_mem_append.2 ⟨h.isNew, fun ev hev hd => k.isNew ev hev ?_⟩
    rw [h.eventIds]
    exact List.mem_append_left _ hd
  nodup hn := k.nodup (h.nodup hn)
  source := List.forall_mem_append.2 ⟨h.source, k.source⟩
  clock := Int.le_trans h.clock k.clock
  dial := k.dial.trans h.dial
  times := by
    refine List.forall_mem_append.2 ⟨fun ev hev => ?_, fun ev hev => ?_⟩
    · obtain ⟨moment, hfirst, hlast, hwall⟩ := h.times ev hev
      exact ⟨moment, hfirst, Int.lt_of_lt_of_le hlast k.clock, hwall⟩
    · obtain ⟨moment, hfirst, hlast, hwall⟩ := k.times ev hev
      exact ⟨moment, Int.le_trans h.clock hfirst, hlast, by rw [hwall, h.dial]⟩
  sorted hdial := by
    have hlater : e.ClockKeepsOn := hdial.of_dial_eq h.dial
    refine List.pairwise_append.2 ⟨h.sorted hdial, k.sorted hlater, fun a ha b hb => ?_⟩
    obtain ⟨earlier, -, hearlier, hwall⟩ := h.times a ha
    obtain ⟨later, hlater, -, hwall'⟩ := k.times b hb
    rw [hwall, hwall', h.dial]
    exact hdial (Int.le_of_lt (Int.lt_of_lt_of_le hearlier hlater))

/-- Where nothing was handled before or after, what is emitted adds up. -/
theorem Swept.append {new new' : List Event} (h : d.Swept [] new e) (k : e.Swept [] new' f) :
    d.Swept [] (new ++ new') f := h.trans k (by simp)

theorem Swept.then_quiet {ids : List String} {new : List Event} (h : d.Swept ids new e)
    (hq : e.Quiet f) : d.Swept ids new f := by
  simpa using h.trans (.of_quiet hq) (by simp)

theorem Swept.after_quiet {ids : List String} {new : List Event} (hq : d.Quiet e)
    (h : e.Swept ids new f) : d.Swept ids new f := by
  simpa using (Swept.of_quiet hq).trans h (by simp)

/-- One more event is emitted. -/
theorem swept_withEvent {f : FollowUp} {ev : Event} (hev : ev.Queued f d)
    (hnew : ∀ old ∈ d.store.events, old.id ≠ ev.id) :
    d.Swept [] [ev] (d.next.withEvent ev) where
  waiting := by simp [Desk.waiting, withEvent, next, List.filter_append, hev.processed]
  eventIds := by simp [Desk.eventIds, withEvent, next]
  isNew := by simpa [Desk.eventIds] using hnew
  nodup hn := by
    have hids : (d.next.withEvent ev).eventIds = d.eventIds ++ [ev.id] := by
      simp [Desk.eventIds, withEvent, next]
    rw [hids]
    refine List.nodup_append.2 ⟨hn, by simp, fun id hid id' hid' => ?_⟩
    obtain ⟨old, hold, rfl⟩ := List.mem_map.1 hid
    obtain rfl := List.mem_singleton.1 hid'
    exact hnew old hold
  source := by simpa using hev.source
  clock := d.quiet_next.clock
  dial := rfl
  times := by
    simp only [List.mem_singleton, forall_eq, hev.createdAt]
    exact ⟨d.clock, Int.le_refl _, Int.lt_succ _, rfl⟩
  sorted _ := List.pairwise_singleton _ _

/-- An event that is marked does not wait any longer. -/
theorem swept_withMark (d : Desk) (id : String) (now : Timestamp) :
    d.Swept [id] [] (d.withMark id now) where
  waiting := by
    simp only [Desk.waiting, withMark, Store.markProcessed, List.append_nil]
    induction d.store.events with
    | nil => rfl
    | cons ev rest ih =>
      rw [List.map_cons, List.filter_cons, List.filter_cons, ih]
      by_cases hid : ev.id = id <;> cases hp : ev.processed <;> simp [hid, hp]
  eventIds := by rw [d.eventIds_withMark id now]; simp
  isNew := by simp
  nodup hn := by rwa [d.eventIds_withMark id now]
  source := by simp
  clock := Int.le_refl _
  dial := rfl
  times := by simp
  sorted _ := .nil

end Desk

open Desk (Swept)

/-! ## What a run emits -/

namespace Course

variable {c : Course} {o : Office} {d e : Desk}

/-- To hand an emission on to the queue either emits its event or emits nothing. -/
theorem emit_cases (hc : c.emitter = Emitter.queue) {context : Fields} {em : Emission}
    {ending : Ending (FollowUp × Event)} (h : (c.emit context em).run o d = (ending, e)) :
    (∃ f ev, ending = .done (f, ev) ∧ d.Swept [] [ev] e) ∨
      (∀ sent, ending ≠ .done sent) ∧ d.Quiet e := by
  unfold emit at h
  cases hf : followUp context em with
  | error failure =>
    rw [hf, Action.run_bind_of_failed rfl] at h
    obtain ⟨rfl, rfl⟩ := Prod.mk.inj h
    exact .inr ⟨by simp, Desk.Quiet.refl d⟩
  | ok f =>
    rw [hf, Action.run_bind_of_done (e := d) rfl, hc] at h
    rcases hqueue : (Emitter.queue f).run o d with ⟨queued, m⟩
    obtain ⟨_, rfl, hq, _⟩ | ⟨ev, rfl, rfl, hev, hnew⟩ := Emitter.queue_cases hqueue
    · rw [Action.run_bind_of_failed hqueue] at h
      obtain ⟨rfl, rfl⟩ := Prod.mk.inj h
      exact .inr ⟨by simp, hq⟩
    · rw [Action.run_bind_of_done hqueue] at h
      obtain ⟨rfl, rfl⟩ := Prod.mk.inj h
      exact .inl ⟨f, ev, rfl, Desk.swept_withEvent hev hnew⟩

theorem swept_pure {β : Type} {p q q' : Progress} {a a' : β} {new : List Event} {m : Desk}
    (hq : q'.emitted = p.emitted ++ new.map (·.id)) (hs : d.Swept [] new m)
    (h : (pure (q', a') : Action (Progress × β)).run o m = (.done (q, a), e)) :
    ∃ new, q.emitted = p.emitted ++ new.map (·.id) ∧ d.Swept [] new e := by
  obtain ⟨heq, rfl⟩ := Action.run_pure_eq_done.1 h
  obtain ⟨rfl, _⟩ := Prod.mk.inj heq
  exact ⟨new, hq, hs⟩

/-- What a step that succeeded emits is what its progress remembers. -/
theorem swept_settle (hc : c.emitter = Emitter.queue) {s : WorkflowStep} {r : StepResult}
    {p q : Progress} {v : Verdict} (h : (c.settle s r p).run o d = (.done (q, v), e)) :
    ∃ new, q.emitted = p.emitted ++ new.map (·.id) ∧ d.Swept [] new e := by
  unfold settle at h
  split at h
  · obtain ⟨⟨⟩, m, htell, h⟩ := Action.run_bind_eq_done.1 h
    have hm : d.Quiet m := (Tame.tell _ _).quiet_of_run htell
    dsimp only at h
    split at h
    · exact swept_pure (by simp [Progress.succeed]) (.of_quiet hm) h
    · obtain ⟨sent, m', hsent, h⟩ := Action.run_bind_eq_done.1 h
      obtain ⟨⟨f, ev⟩, rfl, hemit⟩ | ⟨halt, ending, rfl, hemit, hne⟩ := part_cases hsent
      · obtain ⟨f', ev', hf, hs⟩ | ⟨hne, _⟩ := emit_cases hc hemit
        · obtain ⟨rfl, rfl⟩ := Prod.mk.inj (Ending.done.inj hf)
          obtain ⟨⟨⟩, m'', htold, h⟩ := Action.run_bind_eq_done.1 h
          have hsent := (hs.after_quiet hm).then_quiet ((Tame.tell _ _).quiet_of_run htold)
          exact swept_pure (by simp [Progress.succeed, Progress.emit]) hsent h
        · exact absurd rfl (hne _)
      · obtain ⟨f, ev, rfl, _⟩ | ⟨_, hquiet⟩ := emit_cases hc hemit
        · exact absurd rfl (hne _)
        · exact swept_pure (by simp [Progress.succeed]) (.of_quiet (hm.trans hquiet)) h
  · obtain ⟨⟨⟩, m, htell, h⟩ := Action.run_bind_eq_done.1 h
    have hm : d.Swept [] [] m := .of_quiet ((Tame.tell _ _).quiet_of_run htell)
    split at h <;> exact swept_pure (by simp [Progress.tolerate, Progress.fail]) hm h

/-- To log a step emits nothing, whether it can be logged or not. -/
theorem swept_part_log {s : WorkflowStep} {r : StepResult} {logged : Except Halt Unit}
    (h : (c.part (c.log s r)).run o d = (.done logged, e)) : d.Swept [] [] e := by
  obtain ⟨_, rfl⟩ | ⟨_, _, _, rfl, _⟩ := part_log_cases h
  · exact .of_eq rfl d.quiet_next.clock rfl
  · exact .of_quiet d.quiet_next

theorem swept_step (hc : c.emitter = Emitter.queue) {s : WorkflowStep}
    {p q : Progress} {v : Verdict} (h : (c.step s p).run o d = (.done (q, v), e)) :
    ∃ new, q.emitted = p.emitted ++ new.map (·.id) ∧ d.Swept [] new e := by
  obtain ⟨performed, m, hperformed, h⟩ := Action.run_bind_eq_done.1 h
  have hm : d.Quiet m := (tame_perform _ _ _).quiet_of_run hperformed
  split at h
  · exact swept_pure (by simp) (.of_quiet hm) h
  · obtain ⟨logged, m', hlog, h⟩ := Action.run_bind_eq_done.1 h
    have hm' : d.Swept [] [] m' := (swept_part_log hlog).after_quiet hm
    split at h
    · exact swept_pure (by simp) hm' h
    · obtain ⟨⟨⟩, m'', htell, h⟩ := Action.run_bind_eq_done.1 h
      exact swept_pure (by simp) (hm'.then_quiet ((Tame.tell _ _).quiet_of_run htell)) h
  · rename_i r added
    have hcount : ((p.lengthen (s.subject? (.object p.context)) added).count r).emitted =
        p.emitted := by
      rw [Progress.emitted_count, Progress.emitted_lengthen]
    obtain ⟨logged, m', hlog, h⟩ := Action.run_bind_eq_done.1 h
    have hm' : d.Swept [] [] m' := (swept_part_log hlog).after_quiet hm
    split at h
    · exact swept_pure (by simp [hcount]) hm' h
    · obtain ⟨new, hnew, hs⟩ := swept_settle hc h
      exact ⟨new, by rw [hnew, hcount], hm'.append hs⟩

/-- The steps of a run emit what its progress remembers, whatever ends them. -/
theorem swept_steps (hc : c.emitter = Emitter.queue) (ss : List WorkflowStep) :
    ∀ {p q : Progress} {halt : Option Halt} {d e : Desk},
      (c.steps ss p).run o d = (.done (q, halt), e) →
      ∃ new, q.emitted = p.emitted ++ new.map (·.id) ∧ d.Swept [] new e := by
  induction ss with
  | nil =>
    intro p q halt d e h
    exact swept_pure (by simp) (.of_quiet (Desk.Quiet.refl d)) h
  | cons s rest ih =>
    intro p q halt d e h
    obtain ⟨⟨p', v⟩, m, hstep, h⟩ := Action.run_bind_eq_done.1 h
    obtain ⟨new, hnew, hs⟩ := swept_step hc hstep
    match v, h with
    | .next, h =>
      obtain ⟨new', hnew', hs'⟩ := ih h
      exact ⟨new ++ new', by rw [hnew', hnew, List.map_append, List.append_assoc], hs.append hs'⟩
    | .over, h | .halted _, h =>
      exact swept_pure hnew hs h

end Course

namespace Workflow

variable {w : Workflow} {o : Office} {d e : Desk}

theorem swept_carryOut {runId : String} {seed : Fields} {p : Progress}
    (h : (w.carryOut Emitter.queue runId seed).run o d = (.done p, e)) :
    ∃ new, p.emitted = new.map (·.id) ∧ d.Swept [] new e := by
  obtain ⟨rfl, rfl⟩ | ⟨c, ⟨q, halt⟩, _, hc, hsteps, rfl⟩ := run_carryOut_eq_done h
  · exact ⟨[], by rw [emitted_ended]; rfl, .of_quiet (Desk.Quiet.refl _)⟩
  · obtain ⟨new, hnew, hs⟩ := Course.swept_steps hc _ hsteps
    exact ⟨new, by rw [emitted_ended, hnew]; rfl, hs⟩

/-- A run that comes to its outcome has emitted what that tells. -/
theorem swept_run {context : Json} {triggeredBy : String} {out : RunOutcome}
    (h : (w.run Emitter.queue context triggeredBy).run o d = (.done out, e)) :
    ∃ new, out.emitted = new.map (·.id) ∧ d.Swept [] new e := by
  obtain ⟨_, hf, _⟩ | ⟨seed, r, _, _, _, hconduct⟩ := run_cases h
  · cases hf
  have hopened : d.Swept [] [] (d.next.withRun r) := .of_eq rfl d.quiet_next.clock rfl
  obtain ⟨m, hm, ⟨_, hcut, _⟩ | ⟨p, m', hcarry, ⟨_, hf, _⟩ | ⟨hout, hq⟩⟩⟩ := conduct_cases hconduct
  · cases hcut
  · cases hf
  obtain rfl := Ending.done.inj hout
  obtain ⟨new, hnew, hs⟩ := swept_carryOut hcarry
  have hclosed : m'.Swept [] [] (m'.withUpdate r.id (p.closing m'.time)) :=
    .of_eq rfl (Int.le_refl _) rfl
  refine ⟨new, hnew, ?_⟩
  simpa using ((hopened.then_quiet hm).append (hs.append hclosed)).then_quiet hq

/-- A run that fails has not emitted anything, unless its record could not be closed. -/
theorem swept_run_of_failed {context : Json} {triggeredBy : String} {failure : Failure}
    (hcloses : Action.faultOf o "update_run" = none)
    (h : (w.run Emitter.queue context triggeredBy).run o d = (.failed failure, e)) : d.Quiet e := by
  obtain ⟨_, _, hq⟩ | ⟨seed, r, _, _, _, hconduct⟩ := run_cases h
  · exact hq
  obtain ⟨m, hm, ⟨_, hcut, _⟩ | ⟨p, m', hcarry, ⟨_, _, _, hf⟩ | ⟨hout, hq⟩⟩⟩ :=
    conduct_cases hconduct
  · cases hcut
  · rw [hcloses] at hf
    cases hf
  · cases hout

end Workflow

/-! ## What a dispatch emits -/

namespace DispatchResult

/-- The ids of the events that the runs of a dispatch report as emitted. -/
def emitted (r : DispatchResult) : List String := r.results.flatMap (·.emitted)

end DispatchResult

namespace Dispatch

variable {o : Office} {d e : Desk} {ev : Event}

theorem swept_runOne {w : Workflow} {out : RunOutcome}
    (hcloses : Action.faultOf o "update_run" = none)
    (h : (runOne Emitter.queue ev w).run o d = (.done out, e)) :
    ∃ new, out.emitted = new.map (·.id) ∧ d.Swept [] new e := by
  obtain ⟨result, m, hattempt, h⟩ := Action.run_bind_eq_done.1 h
  cases result with
  | ok given =>
    obtain ⟨rfl, rfl⟩ := Action.run_pure_eq_done.1 h
    exact Workflow.swept_run (Action.run_attempt_eq_ok.1 hattempt)
  | error failure =>
    obtain ⟨rfl, rfl⟩ := Action.run_pure_eq_done.1 h
    exact ⟨[], rfl, .of_quiet (Workflow.swept_run_of_failed hcloses
      (Action.run_attempt_eq_error.1 hattempt))⟩

/-- The runs that an event sets off have emitted what their outcomes tell, in order. -/
theorem swept_runAll (hcloses : Action.faultOf o "update_run" = none) (ws : List Workflow) :
    ∀ {d e : Desk} {outs : List RunOutcome},
      (runAll Emitter.queue ev ws).run o d = (.done outs, e) →
      ∃ new, outs.flatMap (·.emitted) = new.map (·.id) ∧ d.Swept [] new e := by
  induction ws with
  | nil =>
    intro d e outs h
    obtain ⟨rfl, rfl⟩ := Action.run_pure_eq_done.1 h
    exact ⟨[], rfl, .of_quiet (Desk.Quiet.refl d)⟩
  | cons w rest ih =>
    intro d e outs h
    obtain ⟨out, m, hone, h⟩ := Action.run_bind_eq_done.1 h
    obtain ⟨more, m', hrest, h⟩ := Action.run_bind_eq_done.1 h
    obtain ⟨rfl, rfl⟩ := Action.run_pure_eq_done.1 h
    obtain ⟨new, hnew, hs⟩ := swept_runOne hcloses hone
    obtain ⟨new', hnew', hs'⟩ := ih hrest
    exact ⟨new ++ new', by rw [List.flatMap_cons, hnew, hnew', List.map_append], hs.append hs'⟩

/-- Where no deadline is set, a dispatch whose runs queue what they emit takes its event off the
list of those that wait, and adds what its runs report as emitted. -/
theorem exists_swept (hlimits : o.deadlines = []) (ho : o.Serves) (hev : ev.id ∈ d.eventIds)
    (hopen : ev.processed = false) :
    ∃ r e new, (event Emitter.queue ev).run o d = (.done r, e) ∧ r.eventId = some ev.id ∧
      r.emitted = new.map (·.id) ∧ d.Swept [ev.id] new e := by
  obtain ⟨r, outs, m, m', e, hrun, hr, hq, hall, hmark⟩ :=
    event_returns (d := d) (fun f => (Emitter.timely_queue f).punctual) hlimits ho hopen
  obtain ⟨new, hnew, hs⟩ := swept_runAll ho.closes _ hall
  refine ⟨r, e, new, hrun, hr.eventId, by rw [DispatchResult.emitted, hr.results, hnew], ?_⟩
  have hs := hs.after_quiet hq
  have hother : ∀ ev' ∈ new, ev'.id ∉ [ev.id] := by
    intro ev' hev' heq
    exact hs.isNew ev' hev' (List.mem_singleton.1 heq ▸ hev)
  have hmarked : m'.Swept [ev.id] [] e := by
    obtain ⟨_, hf, _⟩ | ⟨_, _, hnone⟩ | ⟨_, _, rfl⟩ := Archive.markProcessed_cases hmark
    · cases hf
    · have hm' : ev.id ∈ m'.eventIds := by
        rw [hs.eventIds]
        exact List.mem_append_left _ hev
      obtain ⟨old, hold, hid⟩ := List.mem_map.1 hm'
      simp only [Store.event?, List.find?_eq_none] at hnone
      exact absurd (by simpa using hid) (hnone old hold)
    · exact (Desk.swept_withMark _ _ _).after_quiet (Tame.now.quiet o m')
  simpa using hs.trans hmarked hother

end Dispatch

/-! ## Sweeps -/

namespace Dispatch

variable {o : Office} {d : Desk}

/-- Events at hand that wait are handled in turn. -/
theorem exists_swept_handleAll (hqueue : o.settings.inline = false) (hlimits : o.deadlines = [])
    (ho : o.Serves) (es : List Event) :
    ∀ {d : Desk}, (∀ ev ∈ es, ev.id ∈ d.eventIds ∧ ev.processed = false) →
      ∃ rs e new, (handleAll es).run o d = (.done rs, e) ∧
        rs.map (·.eventId) = es.map (some ·.id) ∧ rs.flatMap (·.emitted) = new.map (·.id) ∧
        d.Swept (es.map (·.id)) new e := by
  induction es with
  | nil => exact fun _ => ⟨[], _, [], rfl, rfl, rfl, .of_quiet (Desk.Quiet.refl _)⟩
  | cons ev rest ih =>
    intro d hes
    obtain ⟨⟨hev, hopen⟩, hrest⟩ := List.forall_mem_cons.1 hes
    obtain ⟨r, m, new, hrun, hid, hemitted, hs⟩ := exists_swept hlimits ho hev hopen
    have hhandle : (handle ev).run o d = (.done r, m) := by
      have hemitter : emitterFor o.settings = Emitter.queue := by simp [emitterFor, hqueue]
      rw [← hrun, ← hemitter]
      rfl
    have hkept : ∀ id ∈ d.eventIds, id ∈ m.eventIds := fun id hid => by
      rw [hs.eventIds]
      exact List.mem_append_left _ hid
    obtain ⟨rs, e, new', hmore, hids, hemitted', hs'⟩ :=
      ih fun ev' hev' => ⟨hkept _ (hrest ev' hev').1, (hrest ev' hev').2⟩
    refine ⟨r :: rs, e, new ++ new', ?_, ?_, ?_, hs.trans hs' fun ev' hev' hin => ?_⟩
    · rw [handleAll, Action.run_bind_of_done hhandle, Action.run_bind_of_done hmore]
      rfl
    · rw [List.map_cons, List.map_cons, hid, hids]
    · rw [List.flatMap_cons, hemitted, hemitted', List.map_append]
    · obtain ⟨old, hold, heq⟩ := List.mem_map.1 hin
      exact hs.isNew ev' hev' (heq ▸ (hrest old hold).1)

/-- Of events with different ids, those that are not among the first ones come after them. -/
theorem filter_not_mem_take {es : List Event} (h : (es.map (·.id)).Nodup) (n : Nat) :
    es.filter (fun ev => ev.id ∉ (es.take n).map (·.id)) = es.drop n := by
  have hsplit := List.take_append_drop n es
  have hnodup : ((es.take n).map (·.id) ++ (es.drop n).map (·.id)).Nodup := by
    rwa [← List.map_append, hsplit]
  have hfirst : (es.take n).filter (fun ev => ev.id ∉ (es.take n).map (·.id)) = [] :=
    List.filter_eq_nil_iff.2 fun ev hev => by simpa using List.mem_map_of_mem hev
  have hlater : (es.drop n).filter (fun ev => ev.id ∉ (es.take n).map (·.id)) = es.drop n := by
    refine List.filter_eq_self.2 fun ev hev => decide_eq_true fun hin => ?_
    exact (List.nodup_append.1 hnodup).2.2 _ hin _ (List.mem_map_of_mem hev) rfl
  calc es.filter (fun ev => ev.id ∉ (es.take n).map (·.id))
      = (es.take n ++ es.drop n).filter (fun ev => ev.id ∉ (es.take n).map (·.id)) := by
        rw [hsplit]
    _ = es.drop n := by rw [List.filter_append, hfirst, hlater, List.nil_append]

end Dispatch

namespace Store

/-- Events with different moments of creation can be listed by these in one way only. -/
theorem pending_unique {s : Store} (htimes : (s.events.map (·.createdAt.wall)).Nodup)
    {es : List Event} (hes : es.Perm (s.events.filter (!·.processed)))
    (hsorted : es.Pairwise fun a b => a.createdAt.wall ≤ b.createdAt.wall) : s.pending = es := by
  have hperm : s.pending.Perm (s.events.filter (!·.processed)) := List.mergeSort_perm _ _
  have hlisted : s.pending.Pairwise fun a b => a.createdAt.wall ≤ b.createdAt.wall := by
    refine (List.pairwise_mergeSort (fun a b c hab hbc => ?_) (fun a b => ?_) _).imp
      of_decide_eq_true
    · exact decide_eq_true (Int.le_trans (of_decide_eq_true hab) (of_decide_eq_true hbc))
    · simpa using Int.le_total a.createdAt.wall b.createdAt.wall
  refine List.Perm.eq_of_pairwise (fun a b ha hb hab hba => ?_) hlisted hsorted
    (hperm.trans hes.symm)
  exact List.inj_on_of_nodup_map htimes (List.mem_of_mem_filter (hperm.subset ha))
    (List.mem_of_mem_filter (hes.subset hb)) (Int.le_antisymm hab hba)

/-- Events that were stored in the order of their moments of creation are listed in that order. -/
theorem sublist_pending {s : Store} {es : List Event}
    (hes : es.Sublist (s.events.filter (!·.processed)))
    (hsorted : es.Pairwise fun a b => a.createdAt.wall ≤ b.createdAt.wall) :
    es.Sublist s.pending := by
  refine List.sublist_mergeSort (fun a b c hab hbc => ?_) (fun a b => ?_)
    (hsorted.imp decide_eq_true) hes
  · exact decide_eq_true (Int.le_trans (of_decide_eq_true hab) (of_decide_eq_true hbc))
  · simpa using Int.le_total a.createdAt.wall b.createdAt.wall

end Store

namespace Archive

section

variable {α : Type} {operation : String} {f : Store → Except Failure α} {o : Office} {d : Desk}

/-- With a limit that the store can hold a question is put to it. -/
theorem run_ask_of_fits {limit : Option Int} (hfault : Action.faultOf o operation = none)
    (hfits : ∀ n ∈ limit, Column.fits n = true) {a : α} (hf : f d.store = .ok a) :
    (ask operation limit f).run o d = (.done a, d) := by
  have hcheck : (limit.forM Store.checkInteger : Except Failure PUnit) = .ok () := by
    cases limit with
    | none => rfl
    | some n => simp [Store.checkInteger, hfits n rfl]
  have hask : ((limit.forM Store.checkInteger : Except Failure PUnit) >>= fun _ => f d.store) =
      .ok a := by
    rw [hcheck]
    exact hf
  simp only [ask, Action.query, hfault, hask]

/-- A limit that the store cannot hold is refused. -/
theorem run_ask_of_large {n : Int} (hfault : Action.faultOf o operation = none)
    (hfits : Column.fits n = false) :
    (ask operation (some n) f).run o d = (.failed .tooLarge, d) := by
  have hcheck : ((some n).forM Store.checkInteger : Except Failure PUnit) = .error .tooLarge := by
    simp [Store.checkInteger, hfits]
  simp only [ask, Action.query, hfault, hcheck]
  rfl

end

/-- The events that wait are listed when the store can hold the limit. -/
theorem run_unprocessedEvents {o : Office} {d : Desk} {limit : Option Int}
    (hlists : Action.faultOf o "list_unprocessed_events" = none)
    (hfits : ∀ n ∈ limit, Column.fits n = true) :
    (unprocessedEvents limit).run o d = (.done (d.store.unprocessed limit), d) :=
  run_ask_of_fits hlists hfits rfl

end Archive

namespace Dispatch

/-- A sweep over the oldest events that wait. Let `es` be all that wait, by their moments of
creation. The first of them are handled in this order, as many as the limit says. Afterwards these
do not wait any longer and all others do, followed by the events that the runs of the sweep report
as emitted: each is stored once, comes from a workflow, and is listed in the order of emission,
unless the clock goes back. -/
theorem pending_conserves (o : Office) (d : Desk) (n : Int) (es : List Event)
    (hqueue : o.settings.inline = false) (hlimits : o.deadlines = []) (ho : o.Serves)
    (hlists : Action.faultOf o "list_unprocessed_events" = none) (hids : d.eventIds.Nodup)
    (htimes : (d.store.events.map (·.createdAt.wall)).Nodup) (hn : 0 ≤ n) (hmax : n < 2 ^ 63)
    (hes : es.Perm d.waiting)
    (hsorted : es.Pairwise fun a b => a.createdAt.wall ≤ b.createdAt.wall) :
    ∃ rs e new, (pending (some n)).run o d = (.done rs, e) ∧
      rs.map (·.eventId) = (es.take n.toNat).map (some ·.id) ∧
      e.waiting.Perm (es.drop n.toNat ++ new) ∧
      rs.flatMap (·.emitted) = new.map (·.id) ∧
      e.eventIds = d.eventIds ++ new.map (·.id) ∧ e.eventIds.Nodup ∧
      (∀ ev ∈ new, ev.source = some "workflow") ∧
      ∃ listed, (Archive.unprocessedEvents none).run o e = (.done listed, e) ∧
        listed.Perm e.waiting ∧ (d.ClockKeepsOn → new.Sublist listed) := by
  have hpending : d.store.pending = es := Store.pending_unique htimes hes hsorted
  have hfits : Column.fits n = true := by
    have hpower : (twoTo 63 : Int) = 2 ^ 63 := rfl
    simp only [Column.fits, hpower, Bool.and_eq_true, decide_eq_true_eq]
    omega
  have hfound : (Archive.unprocessedEvents (some n)).run o d = (.done (es.take n.toNat), d) := by
    rw [Archive.run_unprocessedEvents hlists (by simpa using hfits), Store.unprocessed, Row.upTo,
      hpending, if_neg (by omega)]
  have hwaiting : ∀ ev ∈ es.take n.toNat, ev.id ∈ d.eventIds ∧ ev.processed = false := by
    intro ev hev
    obtain ⟨hstored, hopen⟩ := List.mem_filter.1 (hes.subset (List.mem_of_mem_take hev))
    exact ⟨Desk.mem_eventIds hstored, by simpa using hopen⟩
  have hnodup : (es.map (·.id)).Nodup :=
    (hes.map _).nodup_iff.2 (hids.sublist (List.filter_sublist.map _))
  obtain ⟨rs, e, new, hrun, hrs, hemitted, hs⟩ :=
    exists_swept_handleAll hqueue hlimits ho (es.take n.toNat) hwaiting
  refine ⟨rs, e, new, (Action.run_bind_of_done hfound).trans hrun, hrs, ?_, hemitted, hs.eventIds,
    hs.nodup hids, hs.source, e.store.pending, ?_, List.mergeSort_perm _ _, ?_⟩
  · rw [hs.waiting]
    refine List.Perm.append_right _ ?_
    rw [← filter_not_mem_take hnodup]
    exact (hes.filter _).symm
  · exact Archive.run_unprocessedEvents hlists (by simp)
  · intro hdial
    refine Store.sublist_pending ?_ (hs.sorted hdial)
    have hall : e.store.events.filter (!·.processed) = _ := hs.waiting
    rw [hall]
    exact List.sublist_append_right _ _

/-- Of two events that wait, a sweep over one takes the older one. -/
theorem pending_conserves_oldest :
    let late : Event := { (default : Event) with id := "late", createdAt := Timestamp.utc 7 }
    let early : Event := { (default : Event) with id := "early", createdAt := Timestamp.utc 3 }
    let d : Desk := { store := { events := [late, early] } }
    ({} : Office).Serves ∧ d.eventIds.Nodup ∧
      (d.store.events.map (·.createdAt.wall)).Nodup ∧ [early, late].Perm d.waiting ∧
      ∃ rs e new, (pending (some 1)).run {} d = (.done rs, e) ∧
        rs.map (·.eventId) = [some "early"] ∧ e.waiting.Perm (late :: new) := by
  intro late early d
  have ho : ({} : Office).Serves := ⟨rfl, rfl, rfl, rfl⟩
  have hids : d.eventIds.Nodup := by decide
  have htimes : (d.store.events.map (·.createdAt.wall)).Nodup := by decide
  have hes : [early, late].Perm d.waiting := .swap late early []
  obtain ⟨rs, e, new, hrun, hrs, hwaiting, _⟩ :=
    pending_conserves {} d 1 [early, late] rfl rfl ho rfl hids htimes (by decide) (by decide) hes
      (by simp [early, late, Timestamp.utc])
  exact ⟨ho, hids, htimes, hes, rs, e, new, hrun, hrs, hwaiting⟩

/-- A limit beyond the integers of the store is refused, and no event is handled. -/
theorem pending_beyond_store :
    let ev : Event := { (default : Event) with id := "event" }
    let d : Desk := { store := { events := [ev] } }
    d.waiting = [ev] ∧ (pending (some (2 ^ 63))).run {} d = (.failed .tooLarge, d) :=
  ⟨rfl, rfl⟩

end Dispatch

end LeadDesk
