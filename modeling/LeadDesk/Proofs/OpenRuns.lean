import LeadDesk.Proofs.Errands
import Mathlib.Data.List.Forall2
/-!
# Which runs are left open

A run that comes to its outcome closes its record. Nothing closes the record of a run that is cut
off, and that happens to runs within the time of another run only: to those of events that are
handled at once. So the records that an errand leaves open are exactly those of the runs in it
that were cut off (`Errand.open_iff_cut`), and there are none while events are queued.
-/

namespace LeadDesk

open LeadDesk.Action (Leads Tame)

/-- The record of the run shows no end. -/
def Run.IsOpen (r : Run) : Prop := r.status = .running ∨ r.completedAt = none

/-- A call of the engine: a workflow that is run in an office from a desk on. -/
structure RunCall where
  workflow : Workflow
  emitter : Emitter
  context : Json
  triggeredBy : String
  office : Office
  desk : Desk

namespace RunCall

/-- How the call ends, and the desk that it leaves. -/
def result (c : RunCall) : Ending RunOutcome × Desk :=
  (c.workflow.run c.emitter c.context c.triggeredBy).run c.office c.desk

/-- The call was cut off by one of the deadlines around it. -/
def IsCut (c : RunCall) : Prop := c.office.Cuts c.result.1

/-- The call has made the record and has left it so. -/
structure Left (c : RunCall) (r : Run) : Prop where
  isNew : ¬ c.desk.HasRun r.id
  stored : r ∈ c.result.2.store.runs
  workflowId : r.workflowId = c.workflow.id
  triggeredBy : r.triggeredBy = c.triggeredBy
  isOpen_iff : r.IsOpen ↔ c.IsCut

end RunCall

namespace Desk

/-- From one desk to another the runs that are stored stay as they are, and each further one was
left by a call of the engine between the two. There are calls within the time of other runs only if
`mayNest`. -/
structure Ledger (b : Office) (mayNest : Prop) (d e : Desk) (cs : List RunCall)
    (rs : List Run) : Prop where
  precedes : d.Precedes e
  runs : e.store.runs = d.store.runs ++ rs
  isNew : ∀ r ∈ rs, ¬ d.HasRun r.id
  left : List.Forall₂ RunCall.Left cs rs
  between : ∀ c ∈ cs, d.Precedes c.desk ∧ c.result.2.Precedes e
  office : ∀ c ∈ cs, c.office.Like b ∧ (c.office.deadlines ≠ [] → mayNest)

/-- Some ledger leads from one desk to another. -/
def Booked (b : Office) (mayNest : Prop) (d e : Desk) : Prop := ∃ cs rs, Ledger b mayNest d e cs rs

variable {b : Office} {mayNest : Prop} {d e f : Desk}

theorem Booked.of_runs (hp : d.Precedes e) (h : e.store.runs = d.store.runs) :
    Booked b mayNest d e :=
  ⟨[], [], hp, by simp [h], by simp, .nil, by simp, by simp⟩

theorem Ledger.hasRun {cs : List RunCall} {rs : List Run} (h : Ledger b mayNest d e cs rs)
    {id : String} (hid : d.HasRun id) : e.HasRun id := by
  obtain ⟨r, hr, rfl⟩ := hid
  exact ⟨r, h.runs ▸ List.mem_append_left _ hr, rfl⟩

/-- The further runs have other ids than those that were there. -/
theorem Ledger.ne_of_mem {cs : List RunCall} {rs : List Run} (h : Ledger b mayNest d e cs rs)
    {r : Run} (hr : r ∈ d.store.runs) : ∀ r' ∈ rs, r'.id ≠ r.id :=
  fun r' hr' heq => h.isNew r' hr' ⟨r, hr, heq.symm⟩

theorem Booked.trans (h : Booked b mayNest d e) (k : Booked b mayNest e f) :
    Booked b mayNest d f := by
  obtain ⟨cs, rs, h⟩ := h
  obtain ⟨cs', rs', k⟩ := k
  refine ⟨cs ++ cs', rs ++ rs', h.precedes.trans k.precedes, ?_, ?_,
    List.rel_append h.left k.left, ?_, ?_⟩
  · rw [k.runs, h.runs, List.append_assoc]
  · intro r hr hd
    rcases List.mem_append.1 hr with hr | hr
    · exact h.isNew r hr hd
    · exact k.isNew r hr (h.hasRun hd)
  · intro c hc
    rcases List.mem_append.1 hc with hc | hc
    · exact ⟨(h.between c hc).1, (h.between c hc).2.trans k.precedes⟩
    · exact ⟨h.precedes.trans (k.between c hc).1, (k.between c hc).2⟩
  · intro c hc
    rcases List.mem_append.1 hc with hc | hc
    · exact h.office c hc
    · exact k.office c hc

/-- A record that was opened before a ledger, and is left by its call after it, comes first. -/
theorem Ledger.cons {m : Desk} {r r' : Run} {c : RunCall} {cs : List RunCall} {rs : List Run}
    (h : Ledger b mayNest m e cs rs) (hdm : c.desk.Precedes m)
    (hm : m.store.runs = c.desk.store.runs ++ [r]) (hr : ¬ c.desk.HasRun r'.id)
    (hee' : e.Precedes c.result.2) (he : c.result.2.store.runs = c.desk.store.runs ++ r' :: rs)
    (hworkflow : r'.workflowId = c.workflow.id) (htrigger : r'.triggeredBy = c.triggeredBy)
    (hopen : r'.IsOpen ↔ c.IsCut) (hc : c.office.Like b ∧ (c.office.deadlines ≠ [] → mayNest)) :
    Ledger b mayNest c.desk c.result.2 (c :: cs) (r' :: rs) where
  precedes := (hdm.trans h.precedes).trans hee'
  runs := he
  isNew r'' hr'' hd := by
    rcases List.mem_cons.1 hr'' with rfl | hr''
    · exact hr hd
    · obtain ⟨old, hold, heq⟩ := hd
      exact h.isNew r'' hr'' ⟨old, hm ▸ List.mem_append_left _ hold, heq⟩
  left := by
    have hstored : r' ∈ c.result.2.store.runs := he ▸ List.mem_append_right _ List.mem_cons_self
    exact .cons ⟨hr, hstored, hworkflow, htrigger, hopen⟩ h.left
  between c' hc' := by
    rcases List.mem_cons.1 hc' with rfl | hc'
    · exact ⟨Precedes.refl _, Precedes.refl _⟩
    · exact ⟨hdm.trans (h.between c' hc').1, (h.between c' hc').2.trans hee'⟩
  office c' hc' := by
    rcases List.mem_cons.1 hc' with rfl | hc'
    · exact hc
    · exact h.office c' hc'

instance : Trail (Booked b mayNest) where
  quiet h := .of_runs (.of_quiet h) h.runs
  trans := Booked.trans
  deeper := fun ⟨cs, rs, h⟩ => ⟨cs, rs, h.precedes.of_depth.with_depth _, h.runs, h.isNew, h.left,
    fun c hc => ⟨(h.between c hc).1.of_depth, (h.between c hc).2.with_depth _⟩, h.office⟩

end Desk

open Desk (Booked Ledger Precedes)

variable {b : Office} {mayNest : Prop}

theorem Course.booked_log (c : Course) (s : WorkflowStep) (r : StepResult) :
    Leads (·.Like b) (Booked b mayNest) (c.log s r) := by
  intro o d _
  rcases h : (c.log s r).run o d with ⟨ending, e⟩
  obtain ⟨_, _, he, _⟩ | ⟨_, he⟩ := log_cases h
  · subst he
    exact Desk.Trail.quiet d.quiet_next
  · subst he
    exact .of_runs ((Precedes.of_quiet d.quiet_next).trans (d.next.precedes_withLog _)) rfl

/-- An update of a run that is stored once changes that run alone. -/
theorem Store.runs_updateRun {s : Store} {u : RunUpdate} {r : Run} {before after : List Run}
    (hs : s.runs = before ++ r :: after) (hb : ∀ r' ∈ before, r'.id ≠ r.id)
    (ha : ∀ r' ∈ after, r'.id ≠ r.id) :
    (s.updateRun r.id u).runs = before ++ u.apply r :: after := by
  have hsame : ∀ rs : List Run, (∀ r' ∈ rs, r'.id ≠ r.id) →
      rs.map (fun r' => if r'.id == r.id then u.apply r' else r') = rs := by
    intro rs h
    refine (List.map_congr_left fun r' hr' => ?_).trans (List.map_id rs)
    rw [if_neg (by simpa using h r' hr')]
    rfl
  simp only [updateRun, hs, List.map_append, List.map_cons, hsame before hb, hsame after ha,
    beq_self_eq_true, if_true]

/-- To close a new run changes that run alone, and none of those that its events set off. -/
theorem Desk.Ledger.runs_withUpdate {d m e : Desk} {r : Run} {cs : List RunCall} {rs : List Run}
    (h : Ledger b mayNest m e cs rs) (hruns : m.store.runs = d.store.runs ++ [r])
    (hnew : ¬ d.HasRun r.id) (u : RunUpdate) :
    (e.withUpdate r.id u).store.runs = d.store.runs ++ u.apply r :: rs := by
  have he : e.store.runs = d.store.runs ++ r :: rs := by
    rw [h.runs, hruns, List.append_assoc, List.singleton_append]
  refine Store.runs_updateRun he (fun old hold heq => hnew ⟨old, hold, heq⟩) (h.ne_of_mem ?_)
  rw [hruns]
  exact List.mem_append_right _ (List.mem_singleton_self r)

/-- A run leaves its own record, after those that it finds and before those of the runs that its
events set off. -/
theorem Workflow.booked_run {w : Workflow} {em : Emitter} (hp : ∀ f, (em f).Punctual)
    (hem : ∀ f, Leads (·.Like b) (Booked b mayNest) (em f))
    (hw : Action.faultOf b "update_run" = none) (context : Json) (triggeredBy : String) :
    Leads (fun o => o.Like b ∧ (o.deadlines ≠ [] → mayNest)) (Booked b mayNest)
      (w.run em context triggeredBy) := by
  rintro o d ⟨ho, hnest⟩
  rcases hrun : (w.run em context triggeredBy).run o d with ⟨ending, e⟩
  obtain ⟨_, _, hq⟩ | ⟨seed, r, _, hbegun, hnew, hconduct⟩ := run_cases hrun
  · exact Desk.Trail.quiet hq
  obtain ⟨m, hm, hend⟩ := conduct_cases hconduct
  have hruns : m.store.runs = d.store.runs ++ [r] := hm.runs
  have hdm : d.Precedes m :=
    ((Precedes.of_quiet d.quiet_next).trans (d.next.precedes_withRun r)).trans (.of_quiet hm)
  have hcarry : Booked b mayNest m ((w.carryOut em r.id seed).run o m).2 :=
    leads_carryOut (fun c _ => c.booked_log) hem seed o m ho
  -- The call that leaves the record, whatever becomes of it.
  let c : RunCall := ⟨w, em, context, triggeredBy, o, d⟩
  have hc : c.result = (ending, e) := hrun
  have hce : c.result.2 = e := by rw [hc]
  show Booked b mayNest c.desk e
  rw [← hce]
  obtain ⟨level, rfl, hcut⟩ | ⟨p, m', hdone, ⟨_, _, _, hf⟩ | ⟨rfl, hq⟩⟩ := hend
  · rw [hcut] at hcarry
    obtain ⟨cs, rs, hl⟩ := hcarry
    have he : c.result.2.store.runs = d.store.runs ++ r :: rs := by
      rw [hc, hl.runs, hruns, List.append_assoc, List.singleton_append]
    have hee' : e.Precedes c.result.2 := by
      rw [hce]
      exact Precedes.refl e
    have hlevel := timely_run hp context triggeredBy o d level (by rw [hrun])
    have hopen : r.IsOpen ↔ c.IsCut := iff_of_true (.inl hbegun.status) ⟨level, by rw [hc], hlevel⟩
    exact ⟨c :: cs, r :: rs, hl.cons hdm hruns hnew hee' he hbegun.workflowId hbegun.triggeredBy
      hopen ⟨ho, hnest⟩⟩
  · rw [ho.faultOf, hw] at hf
    simp at hf
  · rw [hdone] at hcarry
    obtain ⟨cs, rs, hl⟩ := hcarry
    let closed := (p.closing m'.time).apply r
    have he : c.result.2.store.runs = d.store.runs ++ closed :: rs := by
      rw [hc]
      exact hq.runs.trans (hl.runs_withUpdate hruns hnew _)
    have hee' : m'.Precedes c.result.2 := by
      rw [hc]
      exact (m'.precedes_withUpdate _ _).trans (.of_quiet hq)
    have hnew' : ¬ d.HasRun closed.id := hnew
    have hopen : closed.IsOpen ↔ c.IsCut := by
      refine iff_of_false ?_ ?_
      · rintro (hrunning | hnone)
        · exact p.status_ne_running hrunning
        · exact absurd hnone (Option.some_ne_none _)
      · rw [RunCall.IsCut, hc]
        exact Office.not_cuts_done
    exact ⟨c :: cs, closed :: rs, hl.cons hdm hruns hnew' hee' he hbegun.workflowId
      hbegun.triggeredBy hopen ⟨ho, hnest⟩⟩

/-! ## Dispatches -/

theorem Emitter.booked_queue (f : FollowUp) : Leads (·.Like b) (Booked b mayNest) (queue f) := by
  intro o d _
  rcases h : (queue f).run o d with ⟨ending, e⟩
  obtain ⟨_, _, he, _⟩ | ⟨ev, _, he, _⟩ := queue_cases h
  · exact Desk.Trail.quiet he
  · subst he
    exact .of_runs ((Precedes.of_quiet d.quiet_next).trans (d.next.precedes_withEvent _)) rfl

theorem Archive.booked_markProcessed (id : String) :
    Leads (·.Like b) (Booked b mayNest) (markProcessed id) := by
  intro o d _
  rcases h : (markProcessed id).run o d with ⟨ending, e⟩
  obtain ⟨_, _, he, _⟩ | ⟨_, he, _⟩ | ⟨_, _, he⟩ := markProcessed_cases h
  · exact Desk.Trail.quiet he
  · subst he
    exact Desk.Trail.refl e
  · subst he
    have hnow : d.Precedes _ := .of_quiet (Tame.now.quiet o d)
    exact .of_runs (hnow.trans (Desk.precedes_withMark _ _ _)) rfl

namespace Dispatch

/-- A dispatch leaves the records of its runs and of those that their events set off. -/
theorem booked_event {em : Emitter} (hp : ∀ f, (em f).Punctual)
    (hem : ∀ f, Leads (·.Like b) (Booked b mayNest) (em f))
    (hw : Action.faultOf b "update_run" = none) (e : Event) :
    Leads (fun o => o.Like b ∧ (o.deadlines ≠ [] → mayNest)) (Booked b mayNest) (event em e) :=
  composes_event Leads.composes (fun _ => Workflow.booked_run hp hem hw _ _)
    fun o d ho => Archive.booked_markProcessed _ o d ho.1

/-- Where runs may be made within the time of others, the emitter may handle events at once. -/
theorem booked_inline (hn : mayNest) (hw : Action.faultOf b "update_run" = none) (bound : Int)
    (levels : Nat) : ∀ f, Leads (·.Like b) (Booked b mayNest) (inline bound levels f) :=
  composes_inline Leads.composes Emitter.booked_queue (fun levels ih e o d ho =>
    booked_event (fun f => (timely_inline bound levels f).punctual) ih hw e o d
      ⟨ho, fun _ => hn⟩) levels

end Dispatch

theorem Dispatch.booked_of_allows {em : Emitter} (h : b.settings.Allows em)
    (hw : Action.faultOf b "update_run" = none) (f : FollowUp) :
    Leads (·.Like b) (Booked b b.settings.Nests) (em f) := by
  obtain rfl | ⟨hn, levels, rfl⟩ := h
  · exact Emitter.booked_queue f
  · exact booked_inline hn hw _ levels f

/-- An errand leaves the records of its runs. -/
theorem Errand.booked (hw : Action.faultOf b "update_run" = none) (x : Errand) :
    Leads (fun o => o.Like b ∧ (o.deadlines ≠ [] → b.settings.Nests))
      (Booked b b.settings.Nests) x.carryOut := by
  refine composes Leads.composes (T := (· = b.settings))
    (fun h => Action.leads_settings (fun _ ho => ho.1) h)
    (fun f o d ho => Emitter.booked_queue f o d ho.1) (fun e o d _ => ?_) (fun w o d _ => ?_)
    ?_ ?_ x
  · rcases h : (Archive.createEvent e).run o d with ⟨ending, e'⟩
    obtain ⟨_, _, rfl, _⟩ | ⟨_, rfl, _⟩ := Archive.createEvent_cases h
    · exact Desk.Trail.refl e'
    · exact .of_runs (d.precedes_withEvent _) rfl
  · rcases h : (Archive.saveWorkflow w).run o d with ⟨ending, e'⟩
    obtain ⟨_, _, hq⟩ | ⟨_, _, _, _, m, _, hs, hq, rfl⟩ := Archive.saveWorkflow_cases h
    · exact Desk.Trail.quiet hq
    · exact .of_runs (Desk.precedes_save hq hs) (Store.saveWorkflow_eq_ok hs).2.1
  · rintro _ rfl em hem e
    exact Dispatch.booked_event (fun f => (hem.timely f).punctual)
      (Dispatch.booked_of_allows hem hw) hw e
  · rintro _ rfl em hem w context
    exact Workflow.booked_run (fun f => (hem.timely f).punctual)
      (Dispatch.booked_of_allows hem hw) hw _ _

/-- An errand that no deadline surrounds ends by itself. The stored runs stay as they are, and each
further run was left by a call of the engine: open if the call was cut off by the deadline of a run
around it, and closed otherwise. None is open unless events are handled at once. -/
theorem Errand.open_iff_cut (x : Errand) {o : Office} (d : Desk) (ho : o.deadlines = [])
    (hw : Action.faultOf o "update_run" = none) :
    (∀ level, (x.carryOut.run o d).1 ≠ .cut level) ∧
      ∃ cs rs, Ledger o o.settings.Nests d (x.carryOut.run o d).2 cs rs ∧
        (¬ o.settings.Nests → ∀ r ∈ rs, ¬ r.IsOpen) := by
  refine ⟨fun level h => ?_, ?_⟩
  · have hl := x.timely o d level h
    simp only [ho, List.length_nil] at hl
    omega
  · obtain ⟨cs, rs, hl⟩ := x.booked hw o d ⟨Office.Like.refl o, fun h => absurd ho h⟩
    refine ⟨cs, rs, hl, fun hn r hr hopen => hn ?_⟩
    obtain ⟨i, hi, rfl⟩ := List.getElem_of_mem hr
    have hi' : i < cs.length := by
      have := hl.left.length_eq
      omega
    have hleft : cs[i].Left rs[i] := hl.left.get hi' hi
    exact (hl.office _ (List.getElem_mem hi')).2 (hleft.isOpen_iff.1 hopen).deadlines_ne

/-- An event that sets off a saved workflow leaves its record, where events are handled at once. -/
theorem Errand.open_iff_cut_askThenCall :
    let o : Office := { settings := { inline := true } }
    let d : Desk := ((Errand.save Workflow.askThenCall).carryOut.run o {}).2
    let x : Errand := .dispatch { (default : Event) with type := "asked" }
    o.deadlines = [] ∧ Action.faultOf o "update_run" = none ∧ o.settings.Nests ∧
      ∃ cs rs, Ledger o o.settings.Nests d (x.carryOut.run o d).2 cs rs := by
  intro o d x
  obtain ⟨_, cs, rs, hl, _⟩ := x.open_iff_cut (o := o) d rfl rfl
  exact ⟨rfl, rfl, ⟨rfl, by decide⟩, cs, rs, hl⟩

end LeadDesk
