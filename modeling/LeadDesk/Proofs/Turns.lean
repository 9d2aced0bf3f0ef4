import LeadDesk.Proofs.Contacts
import LeadDesk.Proofs.Lengthening
import LeadDesk.Proofs.Story
/-!
# The turns of a run

What one step of a run comes to while emissions are queued (`Course.Turn`): it halts the run, is
skipped, fails, or succeeds, and it tells at the same time which rows and which events it has
written (`Course.Writes`). A run whose steps end it when they fail is followed leg by leg
(`Course.leg_of_steps`).
-/

namespace LeadDesk

open LeadDesk.Action (Spares Tame)
open Desk (Grows)

namespace Course

/-- What a stretch of a run has written: rows of its log, and events, whose ids its progress
remembers. -/
structure Writes (c : Course) (rows : List RunLog) (new : List Event) (p : Progress) (d : Desk)
    (q : Progress) (e : Desk) : Prop where
  logs : e.store.logs = d.store.logs ++ rows
  own : ∀ l ∈ rows, l.runId = c.runId
  events : e.store.events = d.store.events ++ new
  emitted : q.emitted = p.emitted ++ new.map (·.id)

section

variable {c : Course} {p q p' : Progress} {d e f : Desk} {rows rows' : List RunLog}
  {new new' : List Event}

theorem Writes.of_quiet (h : d.Quiet e) (hq : q.emitted = p.emitted) : c.Writes [] [] p d q e where
  logs := by rw [h.logs, List.append_nil]
  own := by simp
  events := by rw [h.events, List.append_nil]
  emitted := by simpa using hq

theorem Writes.append (h : c.Writes rows new p d p' e) (k : c.Writes rows' new' p' e q f) :
    c.Writes (rows ++ rows') (new ++ new') p d q f where
  logs := by rw [k.logs, h.logs, List.append_assoc]
  own := List.forall_mem_append.2 ⟨h.own, k.own⟩
  events := by rw [k.events, h.events, List.append_assoc]
  emitted := by rw [k.emitted, h.emitted, List.map_append, List.append_assoc]

end

/-- The row that the log of a run gets for the result that a step has at a desk. -/
def row (c : Course) (s : WorkflowStep) (r : StepResult) (d : Desk) : RunLog :=
  Store.storedLog (c.entry s r d)

/-- What a step of a run comes to: the progress and the desk that it leaves, and what follows. -/
inductive Turn (c : Course) (s : WorkflowStep) (p : Progress) (o : Office) (d : Desk) :
    Progress → Verdict → Desk → Prop
  /-- The run is halted before anything is emitted. -/
  | halted {q : Progress} {e : Desk} {rows : List RunLog} (halt : Halt)
      (named : ∀ l ∈ rows, l.stepName = s.name) (writes : c.Writes rows [] p d q e) :
      Turn c s p o d q (.halted halt) e
  | skipped {m e : Desk} (guards : Guard.allHold (.object p.context) s.guards = .ok false)
      (writes : c.Writes [c.row s (.skip skipReason) m] [] p d p e) : Turn c s p o d p .next e
  | failed {r : StepResult} {q : Progress} {m e : Desk}
      (result : (resultOf s p.context).run (c.under o) { d with added := [] } = (.done (some r), m))
      (failure : r.success = false) (policy : s.onFailure = .stop) (error : q.error.isSome = true)
      (writes : c.Writes [c.row s r m] [] p d q e) : Turn c s p o d q .over e
  | tolerated {r : StepResult} {m e : Desk}
      (result : (resultOf s p.context).run (c.under o) { d with added := [] } = (.done (some r), m))
      (failure : r.success = false) (policy : s.onFailure = .goOn)
      (writes : c.Writes [c.row s r m] [] p d ((p.count r).tolerate s r) e) :
      Turn c s p o d ((p.count r).tolerate s r) .next e
  | succeeded {r : StepResult} {q : Progress} {m e : Desk} {new : List Event}
      (result : (resultOf s p.context).run (c.under o) { d with added := [] } = (.done (some r), m))
      (success : r.success = true)
      (sent : new.map (·.type) = (r.emit.map (·.eventType)).toList)
      (context : q.context = (p.succeed s r).context)
      (stopped : q.stopped = (p.stopped || r.stop)) (error : q.error = p.error)
      (writes : c.Writes [c.row s r m] new p d q e)
      (contacts : e.store.contacts = m.store.contacts) : Turn c s p o d q (verdict q) e

variable {c : Course} {s : WorkflowStep} {p q : Progress} {o : Office} {d e : Desk}

/-! ## One step -/

theorem type_of_followUp {context : Fields} {em : Emission} {f : FollowUp}
    (h : followUp context em = .ok f) : f.type = em.eventType := by
  unfold followUp at h
  cases ht : inherited em.entityType (Fields.getD context "event") "entity_type" with
  | error failure => simp [ht, bind, Except.bind] at h
  | ok entityType =>
    cases hi : inherited em.entityId (Fields.getD context "event") "entity_id" with
    | error failure => simp [ht, hi, bind, Except.bind] at h
    | ok entityId =>
      simp only [ht, hi, bind, Except.bind, pure, Except.pure, Except.ok.injEq] at h
      rw [← h]

/-- To hand an emission on to the queue either stores an event of its type or stores nothing. -/
theorem emit_queue_cases (hc : c.emitter = Emitter.queue) {context : Fields} {em : Emission}
    {ending : Ending (FollowUp × Event)} (h : (c.emit context em).run o d = (ending, e)) :
    (∃ f ev, ending = .done (f, ev) ∧ ev.type = em.eventType ∧ e = d.next.withEvent ev) ∨
      (∀ sent, ending ≠ .done sent) ∧ d.Quiet e := by
  unfold emit at h
  cases hf : followUp context em with
  | error failure =>
    rw [hf, Action.run_bind_of_failed rfl] at h
    obtain ⟨rfl, rfl⟩ := Prod.mk.inj h
    exact .inr ⟨by simp, Desk.Quiet.refl d⟩
  | ok f =>
    rw [hf, Action.run_bind_of_done (e := d) rfl, hc] at h
    rcases hqueue : (Emitter.queue f).run o d with ⟨queued, m⟩
    obtain ⟨_, rfl, hq, _⟩ | ⟨ev, rfl, rfl, hev, _⟩ := Emitter.queue_cases hqueue
    · rw [Action.run_bind_of_failed hqueue] at h
      obtain ⟨rfl, rfl⟩ := Prod.mk.inj h
      exact .inr ⟨by simp, hq⟩
    · rw [Action.run_bind_of_done hqueue] at h
      obtain ⟨rfl, rfl⟩ := Prod.mk.inj h
      exact .inl ⟨f, ev, rfl, hev.type.trans (type_of_followUp hf), rfl⟩

/-- To log a result adds its row, or halts the run and adds none. -/
theorem writes_part_log {r : StepResult} {logged : Except Halt Unit} (hq : q.emitted = p.emitted)
    (h : (c.part (c.log s r)).run o d = (.done logged, e)) :
    logged = .ok () ∧ c.Writes [c.row s r d] [] p d q e ∨
      (∃ halt, logged = .error halt) ∧ c.Writes [] [] p d q e := by
  obtain ⟨rfl, rfl⟩ | ⟨halt, _, rfl, rfl, _⟩ := part_log_cases h
  · refine .inl ⟨rfl, rfl, ?_, (List.append_nil _).symm, by simpa using hq⟩
    exact fun l hl => List.mem_singleton.1 hl ▸ rfl
  · exact .inr ⟨⟨halt, rfl⟩, .of_quiet d.quiet_next hq⟩

/-- A result that is in the log halts the run, fails, or takes effect with its emission. -/
theorem settle_writes (hc : c.emitter = Emitter.queue) {r : StepResult} {v : Verdict}
    (h : (c.settle s r p).run o d = (.done (q, v), e)) :
    (∃ halt, v = .halted halt) ∧ c.Writes [] [] p d q e ∨
    r.success = false ∧ c.Writes [] [] p d q e ∧
      (s.onFailure = .stop ∧ v = .over ∧ q.error.isSome = true ∨
        s.onFailure = .goOn ∧ v = .next ∧ q = p.tolerate s r) ∨
    r.success = true ∧ v = verdict q ∧ q.context = (p.succeed s r).context ∧
      q.stopped = (p.stopped || r.stop) ∧ q.error = p.error ∧
      ∃ new, new.map (·.type) = (r.emit.map (·.eventType)).toList ∧ c.Writes [] new p d q e := by
  unfold settle at h
  split at h
  · rename_i hsuccess
    obtain ⟨⟨⟩, m, htell, h⟩ := Action.run_bind_eq_done.1 h
    have hm : c.Writes [] [] p d (p.succeed s r) m :=
      .of_quiet ((Tame.tell _ _).quiet_of_run htell) rfl
    dsimp only at h
    split at h
    · rename_i hemit
      obtain ⟨heq, rfl⟩ := Action.run_pure_eq_done.1 h
      obtain ⟨rfl, rfl⟩ := Prod.mk.inj heq
      exact .inr (.inr ⟨hsuccess, rfl, rfl, rfl, rfl, [], by simp [hemit], hm⟩)
    · rename_i em hemit
      obtain ⟨sent, m', hsent, h⟩ := Action.run_bind_eq_done.1 h
      obtain ⟨⟨f, ev⟩, rfl, hrun⟩ | ⟨halt, ending, rfl, hrun, hne⟩ := part_cases hsent
      · obtain ⟨f', ev', hf, htype, rfl⟩ | ⟨hne, _⟩ := emit_queue_cases hc hrun
        · obtain ⟨rfl, rfl⟩ := Prod.mk.inj (Ending.done.inj hf)
          obtain ⟨⟨⟩, m'', htold, h⟩ := Action.run_bind_eq_done.1 h
          obtain ⟨heq, rfl⟩ := Action.run_pure_eq_done.1 h
          obtain ⟨rfl, rfl⟩ := Prod.mk.inj heq
          have hadds : c.Writes [] [ev] (p.succeed s r) m ((p.succeed s r).emit ev.id)
              (m.next.withEvent ev) := ⟨(List.append_nil _).symm, by simp, rfl, rfl⟩
          have htold : c.Writes [] [] ((p.succeed s r).emit ev.id) (m.next.withEvent ev)
              ((p.succeed s r).emit ev.id) m'' := .of_quiet ((Tame.tell _ _).quiet_of_run htold) rfl
          refine .inr (.inr ⟨hsuccess, rfl, rfl, rfl, rfl, [ev], by simp [hemit, htype], ?_⟩)
          exact (hm.append hadds).append htold
        · exact absurd rfl (hne _)
      · obtain ⟨f, ev, rfl, _⟩ | ⟨_, hquiet⟩ := emit_queue_cases hc hrun
        · exact absurd rfl (hne _)
        · obtain ⟨heq, rfl⟩ := Action.run_pure_eq_done.1 h
          obtain ⟨rfl, rfl⟩ := Prod.mk.inj heq
          exact .inl ⟨⟨halt, rfl⟩, hm.append (.of_quiet hquiet rfl)⟩
  · rename_i hfailure
    obtain ⟨⟨⟩, m, htell, h⟩ := Action.run_bind_eq_done.1 h
    have hq := (Tame.tell _ _).quiet_of_run htell
    refine .inr (.inl ⟨by simpa using hfailure, ?_⟩)
    split at h <;> rename_i hpolicy <;> obtain ⟨heq, rfl⟩ := Action.run_pure_eq_done.1 h <;>
      obtain ⟨rfl, rfl⟩ := Prod.mk.inj heq
    · exact ⟨.of_quiet hq rfl, .inr ⟨hpolicy, rfl, rfl⟩⟩
    · exact ⟨.of_quiet hq rfl, .inl ⟨hpolicy, rfl, rfl⟩⟩

/-- Every step of a run that lengthens no list comes to one of these ends. -/
theorem turn_of_step (hc : c.emitter = Emitter.queue)
    (hkeeps : s.KeepsLists) {v : Verdict}
    (hstep : (c.step s p).run o d = (.done (q, v), e)) : Turn c s p o d q v e := by
  unfold step at hstep
  obtain ⟨⟨result, added⟩, m, hperformed, h⟩ := Action.run_bind_eq_done.1 hstep
  have hm : d.Quiet m := (tame_perform _ _ _).quiet_of_run hperformed
  obtain ⟨hresult, _⟩ := perform_eq_done.1 hperformed
  have hkept : ∀ items, p.lengthen (s.subject? (.object p.context)) items = p := by
    rw [hkeeps]
    exact fun items => rfl
  have hstart : c.Writes [] [] p d p m := .of_quiet hm rfl
  split at h
  · obtain ⟨heq, rfl⟩ := Action.run_pure_eq_done.1 h
    obtain ⟨rfl, rfl⟩ := Prod.mk.inj heq
    exact .halted _ (by simp) (.of_quiet hm rfl)
  · rename_i heq
    obtain ⟨rfl, rfl⟩ := Prod.mk.inj heq
    obtain ⟨hguards, rfl⟩ := run_resultOf_eq_none (part_eq_ok hresult)
    obtain ⟨logged, m', hlog, h⟩ := Action.run_bind_eq_done.1 h
    have hwrites := writes_part_log (p := p) (q := p) rfl hlog
    obtain ⟨rfl, hrow⟩ | ⟨⟨halt, rfl⟩, hnone⟩ := hwrites
    · obtain ⟨⟨⟩, m'', htell, h⟩ := Action.run_bind_eq_done.1 h
      obtain ⟨heq, rfl⟩ := Action.run_pure_eq_done.1 h
      obtain ⟨rfl, rfl⟩ := Prod.mk.inj heq
      have htold := Writes.of_quiet (c := c) (p := p) ((Tame.tell _ _).quiet_of_run htell) rfl
      exact .skipped hguards (hstart.append (hrow.append htold))
    · obtain ⟨heq, rfl⟩ := Action.run_pure_eq_done.1 h
      obtain ⟨rfl, rfl⟩ := Prod.mk.inj heq
      exact .halted _ (List.forall_mem_nil _) (hstart.append hnone)
  · rename_i r _ heq
    obtain ⟨rfl, rfl⟩ := Prod.mk.inj heq
    have hresult := part_eq_ok hresult
    rw [hkept] at h
    obtain ⟨logged, m', hlog, h⟩ := Action.run_bind_eq_done.1 h
    obtain ⟨rfl, hrow⟩ | ⟨⟨halt, rfl⟩, hnone⟩ := writes_part_log (p.emitted_count r) hlog
    · have hrow := hstart.append hrow
      have hname : ∀ l ∈ [c.row s r m] ++ [], l.stepName = s.name := by simp [row]; rfl
      obtain ⟨⟨halt, rfl⟩, hw⟩ | ⟨hfailure, hw, hpolicy⟩ | ⟨hsuccess, rfl, hcontext, hstopped,
        herror, new, hnew, hw⟩ := settle_writes hc h
      · exact .halted halt hname (hrow.append hw)
      · obtain ⟨hpolicy, rfl, herror⟩ | ⟨hpolicy, rfl, rfl⟩ := hpolicy
        · exact .failed hresult hfailure hpolicy herror (hrow.append hw)
        · exact .tolerated hresult hfailure hpolicy (hrow.append hw)
      · refine .succeeded hresult hsuccess hnew ?_ ?_ ?_ (hrow.append hw) ?_
        · rw [hcontext]
          simp [Progress.succeed]
        · rw [hstopped, Progress.stopped_count]
        · rw [herror, Progress.error_count]
        · rw [(spares_settle hc s r _).of_run h, (c.spares_part (c.spares_log _ _)).of_run hlog]
    · obtain ⟨heq, rfl⟩ := Action.run_pure_eq_done.1 h
      obtain ⟨rfl, rfl⟩ := Prod.mk.inj heq
      exact .halted _ (by simp) (hstart.append hnone)

/-! ## The steps of a run -/

/-- The run is stored, and the steps that are left can be logged when they are skipped. -/
structure Ready (c : Course) (o : Office) (ss : List WorkflowStep) (d : Desk) : Prop where
  stored : d.HasRun c.runId
  adds : Action.faultOf o "add_run_log" = none
  fresh : d.Fresh
  orders : ∀ s ∈ ss, Column.fits s.order = true

/-- To log that a step is skipped is not refused. -/
theorem Ready.not_refused {rest : List WorkflowStep} {failure : Failure}
    (hready : c.Ready o (s :: rest) d)
    (h : Action.faultOf (c.under o) "add_run_log" = some failure ∨
      d.store.addLog (c.entry s (.skip skipReason) d) = .error failure) : False := by
  obtain hfault | hstore := h
  · rw [(like_under (.refl o)).faultOf, hready.adds] at hfault
    cases hfault
  · have hadd := Store.addLog_of_fits (s := d.store) (l := c.entry s (.skip skipReason) d)
      (hready.orders s List.mem_cons_self) (fun _ hn => by cases hn)
      (fun old hold => (hready.fresh.logs old hold _ (Nat.le_refl _)).1)
    rw [hadd] at hstore
    cases hstore

/-- A run that is ready for a step is ready for those behind it. -/
theorem Ready.after_step {rest : List WorkflowStep} {ending : Ending (Progress × Verdict)}
    (hc : c.emitter = Emitter.queue) (hready : c.Ready o (s :: rest) d)
    (h : (c.step s p).run o d = (ending, e)) : c.Ready o rest e := by
  have hg : Grows (some c.runId) d e := by
    have hl := leads_step (b := o) (R := Grows (some c.runId)) c.leads_log
      (fun f => by rw [hc]; exact Emitter.leads_queue f) s p o d (.refl o)
    rwa [h] at hl
  exact {
    stored := hg.hasRun _ hready.stored
    adds := hready.adds
    fresh := hg.fresh hready.fresh fun _ heq => Option.some.inj heq ▸ hready.stored
    orders := fun s' hs' => hready.orders s' (List.mem_cons_of_mem _ hs') }

/-- A run that is ready for a step whose guards do not hold goes on behind it. -/
theorem step_of_not_held {rest : List WorkflowStep} {v : Verdict} (hready : c.Ready o (s :: rest) d)
    (hguards : Guard.allHold (.object p.context) s.guards = .ok false)
    (h : (c.step s p).run o d = (.done (q, v), e)) :
    q = p ∧ v = .next ∧ c.Writes [c.row s (.skip skipReason) d] [] p d p e := by
  let start : Desk := { d with added := [] }
  have hnone : (resultOf s p.context).run (c.under o) start = (.done none, start) := by
    rw [resultOf, hguards]
    rfl
  have hpart : (c.part (resultOf s p.context)).run o start = (.done (.ok none), start) :=
    Action.run_bind_of_done (Action.run_attempt_eq_ok.2 (Action.run_before_eq_some.2 hnone))
  have hperform : (c.perform s p.context).run o d = (.done (.ok none, []), start) :=
    perform_eq_done.2 ⟨hpart, rfl⟩
  rw [step, Action.run_bind_of_done hperform] at h
  obtain ⟨logged, m, hlog, h⟩ := Action.run_bind_eq_done.1 h
  have hrow := writes_part_log (p := p) (q := p) rfl hlog
  obtain ⟨rfl, _⟩ | ⟨_, failure, _, _, hrefused⟩ := part_log_cases hlog
  · obtain ⟨⟨⟩, m', htell, h⟩ := Action.run_bind_eq_done.1 h
    obtain ⟨heq, rfl⟩ := Action.run_pure_eq_done.1 h
    obtain ⟨rfl, rfl⟩ := Prod.mk.inj heq
    have hrow := (hrow.resolve_right (by simp)).2
    have hstart : c.Writes [] [] p d p start :=
      .of_quiet ((Tame.putAside []).quiet_of_run (Action.run_putAside [] o d)) rfl
    exact ⟨rfl, rfl,
      (hstart.append hrow).append (.of_quiet ((Tame.tell _ _).quiet_of_run htell) rfl)⟩
  · exact (hready.not_refused hrefused).elim

/-- The first step leads to the others, or the run ends with it. -/
theorem run_steps_cons {rest : List WorkflowStep} {halt : Option Halt}
    (h : (c.steps (s :: rest) p).run o d = (.done (q, halt), e)) :
    ∃ p' v m, (c.step s p).run o d = (.done (p', v), m) ∧
      (v = .next ∧ (c.steps rest p').run o m = (.done (q, halt), e) ∨
        v = .over ∧ q = p' ∧ halt = none ∧ e = m ∨
        ∃ cause, v = .halted cause ∧ q = p' ∧ halt = some cause ∧ e = m) := by
  obtain ⟨⟨p', v⟩, m, hstep, h⟩ := Action.run_bind_eq_done.1 h
  refine ⟨p', v, m, hstep, ?_⟩
  match v, h with
  | .next, h => exact .inl ⟨rfl, h⟩
  | .over, h =>
    obtain ⟨heq, rfl⟩ := Action.run_pure_eq_done.1 h
    obtain ⟨rfl, rfl⟩ := Prod.mk.inj heq
    exact .inr (.inl ⟨rfl, rfl, rfl, rfl⟩)
  | .halted cause, h =>
    obtain ⟨heq, rfl⟩ := Action.run_pure_eq_done.1 h
    obtain ⟨rfl, rfl⟩ := Prod.mk.inj heq
    exact .inr (.inr ⟨cause, rfl, rfl, rfl, rfl⟩)

/-- A run that is ready goes past steps whose guards do not hold. -/
theorem steps_past (hc : c.emitter = Emitter.queue) {halt : Option Halt} (ss : List WorkflowStep)
    {rest : List WorkflowStep} :
    ∀ {d : Desk}, c.Ready o (ss ++ rest) d →
      (∀ s ∈ ss, Guard.allHold (.object p.context) s.guards = .ok false) →
      (c.steps (ss ++ rest) p).run o d = (.done (q, halt), e) →
      ∃ rows m, c.Writes rows [] p d p m ∧ (∀ l ∈ rows, l.status = .skipped) ∧
        c.Ready o rest m ∧ (c.steps rest p).run o m = (.done (q, halt), e) := by
  induction ss with
  | nil =>
    intro d hready _ h
    exact ⟨[], d, .of_quiet (Desk.Quiet.refl d) rfl, by simp, hready, h⟩
  | cons s more ih =>
    intro d hready hguards h
    obtain ⟨hs, hmore⟩ := List.forall_mem_cons.1 hguards
    obtain ⟨p', v, m, hstep, h⟩ := run_steps_cons h
    obtain ⟨rfl, rfl, hrow⟩ := step_of_not_held hready hs hstep
    obtain ⟨_, h⟩ | ⟨hv, _⟩ | ⟨_, hv, _⟩ := h
    · obtain ⟨rows, m', hrows, hskipped, hready', h⟩ := ih (hready.after_step hc hstep) hmore h
      exact ⟨_ :: rows, m', hrow.append hrows, List.forall_mem_cons.2 ⟨rfl, hskipped⟩, hready', h⟩
    · cases hv
    · cases hv

/-- How the steps of a run go on from a step that is due and whose failure ends the run: they fail
with it, or take it and go on from what it has come to, unless it stops them. -/
inductive Leg (c : Course) (s : WorkflowStep) (rest : List WorkflowStep) (p : Progress) (o : Office)
    (d : Desk) (q : Progress) (halt : Option Halt) (e : Desk) : Prop
  | broken {rows : List RunLog}
      (failed : ∀ limit, (Workflow.ended limit (q, halt)).status = .failed)
      (named : ∀ l ∈ rows, l.stepName = s.name) (writes : c.Writes rows [] p d q e)
  | taken {r : StepResult} {p' : Progress} {m m' : Desk} {new : List Event}
      (result : (resultOf s p.context).run (c.under o) { d with added := [] } = (.done (some r), m))
      (success : r.success = true)
      (sent : new.map (·.type) = (r.emit.map (·.eventType)).toList)
      (context : p'.context = (p.succeed s r).context) (error : p'.error = p.error)
      (writes : c.Writes [c.row s r m] new p d p' m')
      (contacts : m'.store.contacts = m.store.contacts) (ready : c.Ready o rest m')
      (stopped : p'.stopped = (p.stopped || r.stop))
      (more : p'.stopped = false → (c.steps rest p').run o m' = (.done (q, halt), e))
      (last : p'.stopped = true → q = p' ∧ halt = none ∧ e = m')

theorem leg_of_steps (hc : c.emitter = Emitter.queue) (hpolicy : s.onFailure = .stop)
    (hdue : Guard.allHold (.object p.context) s.guards = .ok true)
    (hkeeps : s.KeepsLists) {rest : List WorkflowStep}
    {halt : Option Halt} (hready : c.Ready o (s :: rest) d)
    (h : (c.steps (s :: rest) p).run o d = (.done (q, halt), e)) : c.Leg s rest p o d q halt e := by
  obtain ⟨p', v, m, hstep, h⟩ := run_steps_cons h
  have hrest := hready.after_step hc hstep
  cases turn_of_step hc hkeeps hstep with
  | halted cause named writes =>
    obtain ⟨hv, _⟩ | ⟨hv, _⟩ | ⟨_, _, rfl, rfl, rfl⟩ := h
    · cases hv
    · cases hv
    · exact .broken (fun _ => rfl) named writes
  | skipped guards _ =>
    rw [hdue] at guards
    cases guards
  | failed _ _ _ error writes =>
    obtain ⟨hv, _⟩ | ⟨_, rfl, rfl, rfl⟩ | ⟨_, hv, _⟩ := h
    · cases hv
    · refine .broken (fun _ => (Progress.status_eq_failed_iff _).2 error) ?_ writes
      exact fun l hl => List.mem_singleton.1 hl ▸ rfl
    · cases hv
  | tolerated _ _ policy _ =>
    rw [hpolicy] at policy
    cases policy
  | succeeded result success sent context stopped error writes contacts =>
    refine .taken result success sent context error writes contacts hrest stopped ?_ ?_ <;>
      intro hstopped <;> simp only [verdict, hstopped, if_true, Bool.false_eq_true, if_false] at h
    · obtain ⟨_, more⟩ | ⟨hv, _⟩ | ⟨_, hv, _⟩ := h
      · exact more
      · cases hv
      · cases hv
    · obtain ⟨hv, _⟩ | ⟨_, rfl, rfl, rfl⟩ | ⟨_, hv, _⟩ := h
      · cases hv
      · exact ⟨rfl, rfl, rfl⟩
      · cases hv

end Course

end LeadDesk
