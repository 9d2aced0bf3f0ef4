import LeadDesk.Proofs.Account
import LeadDesk.Proofs.Firings
/-!
# The emissions of a run

A run hands follow-ups to its emitter, one after the other, each in an office and from a desk on
(`EmitCall`). Which ones it makes is read off its steps (`Course.Emits`), and so for a dispatch
(`DispatchCall.Emits`). These are all: a run depends on its emitter in its emissions only, so that
two emitters that agree on them make the same run (`DispatchCall.run_event_congr`), and a trail
that the emissions follow is followed by the whole (`DispatchCall.trail_of_emits`).
-/

namespace LeadDesk

open LeadDesk.Action (Leads Tame)

/-- A follow-up that is handed to an emitter in an office, from a desk on. -/
structure EmitCall where
  emitter : Emitter
  followUp : FollowUp
  office : Office
  desk : Desk

namespace EmitCall

/-- How the call ends, and the desk that it leaves. -/
def result (x : EmitCall) : Ending Event × Desk := (x.emitter x.followUp).run x.office x.desk

/-- Another emitter ends the call in the same way. -/
def Agrees (em : Emitter) (x : EmitCall) : Prop :=
  (em x.followUp).run x.office x.desk = x.result

end EmitCall

/-- From a desk and some progress on, the steps make an emission: a step that succeeds and is
logged asks for it. -/
inductive Course.Emits (c : Course) (o : Office) :
    List WorkflowStep → Progress → Desk → EmitCall → Prop
  | now {s : WorkflowStep} {rest : List WorkflowStep} {p : Progress} {d m m' m'' : Desk}
      {r : StepResult} {added : List Json} {em : Emission} {f : FollowUp}
      (resulted : (c.perform s p.context).run o d = (.done (.ok (some r), added), m))
      (logged : (c.part (c.log s r)).run o m = (.done (.ok ()), m'))
      (success : r.success = true)
      (told : (c.tell "step_completed" s [("status", .string r.logStatus.word)]).run o m' =
        (.done (), m''))
      (asked : r.emit = some em)
      (followUp : followUp ((((p.lengthen (s.subject? (.object p.context)) added).count r).succeed s
        r).context) em = .ok f) :
      Emits c o (s :: rest) p d ⟨c.emitter, f, c.under o, m''⟩
  | later {s : WorkflowStep} {rest : List WorkflowStep} {p p' : Progress} {d m : Desk}
      {x : EmitCall} (stepped : (c.step s p).run o d = (.done (p', .next), m))
      (more : Emits c o rest p' m x) : Emits c o (s :: rest) p d x

namespace Workflow

/-- The course of a run whose steps begin at a desk. -/
def course (w : Workflow) (em : Emitter) (runId : String) (o : Office) (d : Desk) : Course where
  runId := runId
  slug := w.slug
  deadline := d.waited + o.limit.micros
  emitter := em

/-- A run makes an emission: its record is opened, there is time for its steps, and these make
it. -/
inductive Emits (w : Workflow) (em : Emitter) (context : Json) (triggeredBy : String) (o : Office)
    (d : Desk) (x : EmitCall) : Prop
  | intro {seed : Fields} {r : Run} {m m' : Desk} (start : startContext context = .ok seed)
      (opened : (w.openRun seed triggeredBy).run o d = (.done r, m))
      (told : (Action.tell "run_started" [("run_id", .string r.id), ("workflow", .string w.slug),
        ("steps", .int w.steps.length)]).run o m = (.done (), m'))
      (time : 0 < o.limit.micros)
      (steps : (w.course em r.id o m').Emits o w.orderedSteps { context := seed } m' x)

end Workflow

/-- The runs that an event sets off make an emission. -/
inductive Dispatch.Emits (em : Emitter) (ev : Event) (o : Office) :
    List Workflow → Desk → EmitCall → Prop
  | now {w : Workflow} {rest : List Workflow} {d : Desk} {x : EmitCall}
      (run : w.Emits em (.object ev.contextSeed) "event" o d x) : Emits em ev o (w :: rest) d x
  | later {w : Workflow} {rest : List Workflow} {d m : Desk} {out : RunOutcome} {x : EmitCall}
      (ran : (runOne em ev w).run o d = (.done out, m)) (more : Emits em ev o rest m x) :
      Emits em ev o (w :: rest) d x

/-- A call of the dispatcher makes an emission: its event is not processed, and one of the
workflows that are looked up after the wait makes it. -/
inductive DispatchCall.Emits (c : DispatchCall) (x : EmitCall) : Prop
  | intro {m : Desk} {ws : List Workflow} (opened : c.event.processed = false)
      (waited : (Dispatch.wait c.event).run c.office c.desk = (.done (), m))
      (found : (Archive.activeWorkflows c.event.type).run c.office m = (.done ws, m))
      (runs : Dispatch.Emits c.emitter c.event c.office ws m x)

/-! ## A run depends on its emitter in its emissions only -/

namespace Course

variable {c : Course} {o : Office} {d : Desk} {em : Emitter}

theorem run_part_congr {α : Type} {x y : Action α}
    (h : x.run (c.under o) d = y.run (c.under o) d) :
    (c.part x).run o d = (c.part y).run o d := by
  refine Action.run_bind_congr ?_ fun _ _ _ => rfl
  rw [Action.run_attempt, Action.run_attempt, Action.run_before, Action.run_before]
  have h : x.run { o with deadlines := c.deadline :: o.deadlines } d =
      y.run { o with deadlines := c.deadline :: o.deadlines } d := h
  rw [h]

theorem run_settle_congr {s : WorkflowStep} {r : StepResult} {p : Progress}
    (h : ∀ m e f, r.success = true →
      (c.tell "step_completed" s [("status", .string r.logStatus.word)]).run o d = (.done (), m) →
      r.emit = some e → followUp (p.succeed s r).context e = .ok f →
      (em f).run (c.under o) m = (c.emitter f).run (c.under o) m) :
    (({ c with emitter := em } : Course).settle s r p).run o d = (c.settle s r p).run o d := by
  unfold settle
  cases hsuccess : r.success with
  | false => rfl
  | true =>
    refine Action.run_bind_congr rfl fun _ m htold => ?_
    dsimp only
    cases hasked : r.emit with
    | none => rfl
    | some e =>
      refine Action.run_bind_congr (run_part_congr ?_) fun _ _ _ => rfl
      refine Action.run_bind_congr rfl fun f m' hdone => ?_
      obtain ⟨hf, rfl⟩ := Action.run_ofExcept_eq_done.1 hdone
      exact Action.run_bind_congr (h m e f hsuccess htold hasked hf) fun _ _ _ => rfl

/-- The steps of a run depend on the emitter in their emissions only. -/
theorem run_steps_congr (ss : List WorkflowStep) :
    ∀ {p : Progress} {d : Desk}, (∀ x, c.Emits o ss p d x → x.Agrees em) →
      (({ c with emitter := em } : Course).steps ss p).run o d = (c.steps ss p).run o d := by
  induction ss with
  | nil => exact fun _ => rfl
  | cons s rest ih =>
    intro p d h
    have hstep : (({ c with emitter := em } : Course).step s p).run o d = (c.step s p).run o d := by
      refine Action.run_bind_congr rfl fun performed m hperformed => ?_
      match performed with
      | (.error _, _) => rfl
      | (.ok none, _) => rfl
      | (.ok (some r), added) =>
        refine Action.run_bind_congr rfl fun logged m' hlogged => ?_
        match logged with
        | .error _ => rfl
        | .ok () =>
          exact run_settle_congr fun m'' e f hsuccess htold hasked hf =>
            h _ (.now hperformed hlogged hsuccess htold hasked hf)
    refine Action.run_bind_congr hstep fun out m hout => ?_
    match out with
    | (p', .next) => exact ih fun x hx => h x (.later hout hx)
    | (p', .over) => rfl
    | (p', .halted _) => rfl

end Course

theorem Workflow.run_carryOut (w : Workflow) (em : Emitter) (runId : String) (seed : Fields)
    (o : Office) (d : Desk) :
    (w.carryOut em runId seed).run o d =
      if o.limit.micros ≤ 0 then (.done (ended o.limit ({ context := seed }, some .late)), d)
      else (do return ended o.limit (← (w.course em runId o d).steps w.orderedSteps
        { context := seed })).run o d := by
  unfold carryOut
  rw [Action.run_bind_of_done rfl]
  dsimp only
  split
  · rename_i hlimit
    have hlimit : o.limit.micros ≤ 0 := hlimit
    rw [if_pos hlimit]
    rfl
  · rename_i hlimit
    have hlimit : ¬ o.limit.micros ≤ 0 := hlimit
    rw [if_neg hlimit]
    rfl

/-- A run depends on its emitter in its emissions only. -/
theorem Workflow.run_run_congr {w : Workflow} {em em' : Emitter} {context : Json}
    {triggeredBy : String} {o : Office} {d : Desk}
    (h : ∀ x, w.Emits em context triggeredBy o d x → x.Agrees em') :
    (w.run em' context triggeredBy).run o d = (w.run em context triggeredBy).run o d := by
  refine Action.run_bind_congr rfl fun seed m hdone => ?_
  obtain ⟨hseed, rfl⟩ := Action.run_ofExcept_eq_done.1 hdone
  refine Action.run_bind_congr rfl fun r m hopened => ?_
  refine Action.run_bind_congr rfl fun _ m' htold => ?_
  refine Action.run_bind_congr ?_ fun _ _ _ => rfl
  rw [run_carryOut, run_carryOut]
  split
  · rfl
  · refine Action.run_bind_congr ?_ fun _ _ _ => rfl
    exact Course.run_steps_congr w.orderedSteps fun x hx =>
      h x (.intro hseed hopened htold (by omega) hx)

namespace Dispatch

variable {em em' : Emitter} {ev : Event} {o : Office}

theorem run_runAll_congr (ws : List Workflow) :
    ∀ {d : Desk}, (∀ x, Emits em ev o ws d x → x.Agrees em') →
      (runAll em' ev ws).run o d = (runAll em ev ws).run o d := by
  induction ws with
  | nil => exact fun _ => rfl
  | cons w rest ih =>
    intro d h
    have hone : (runOne em' ev w).run o d = (runOne em ev w).run o d := by
      refine Action.run_bind_congr ?_ fun _ _ _ => rfl
      rw [Action.run_attempt, Action.run_attempt, Workflow.run_run_congr fun x hx => h x (.now hx)]
    refine Action.run_bind_congr hone fun out m hran => ?_
    exact Action.run_bind_congr (ih fun x hx => h x (.later hran hx)) fun _ _ _ => rfl

end Dispatch

/-- A dispatch depends on its emitter in its emissions only. -/
theorem DispatchCall.run_event_congr {c : DispatchCall} {em : Emitter}
    (h : ∀ x, c.Emits x → x.Agrees em) :
    (Dispatch.event em c.event).run c.office c.desk = c.result := by
  obtain ⟨em', ev, o, d⟩ := c
  show (Dispatch.event em ev).run o d = (Dispatch.event em' ev).run o d
  unfold Dispatch.event
  cases hopen : ev.processed with
  | true => rfl
  | false =>
    refine Action.run_bind_congr rfl fun _ m hwaited => ?_
    refine Action.run_bind_congr rfl fun ws m' hfound => ?_
    obtain ⟨rfl, _⟩ := Action.query_cases hfound
    cases ws with
    | nil => rfl
    | cons w rest =>
      refine Action.run_bind_congr ?_ fun _ _ _ => rfl
      exact Dispatch.run_runAll_congr _ fun x hx => h x (.intro hopen hwaited hfound hx)

/-! ## Trails up to an emission and on from it -/

/-- A relation that overlooks what is written about runs. -/
class Desk.Overlooks (R : Desk → Desk → Prop) : Prop where
  withRun : ∀ d r, R d (d.withRun r)
  withLog : ∀ d l, R d (d.withLog l)
  withUpdate : ∀ d id u, R d (d.withUpdate id u)

section

variable {b o : Office} {R : Desk → Desk → Prop} [Desk.Trail R]

/-- What follows an action goes on from where the action has led. -/
theorem Action.trail_rest {α β : Type} {x : Action α} {f : α → Action β} {d m : Desk}
    (hx : R m (x.run o d).2) (hf : ∀ a e, R e ((f a).run o e).2) : R m ((x >>= f).run o d).2 := by
  rw [run_bind]
  rcases h : x.run o d with ⟨a | failure | level, e⟩ <;> rw [h] at hx
  · exact Desk.Trail.trans hx (hf a e)
  · exact hx
  · exact hx

theorem Dispatch.leads_markProcessed {id : String} (h : ∀ d now, R d (d.withMark id now)) :
    Leads (·.Like b) R (Archive.markProcessed id) := by
  intro o d _
  rcases hrun : (Archive.markProcessed id).run o d with ⟨ending, e⟩
  obtain ⟨_, _, hq, _⟩ | ⟨_, rfl, _⟩ | ⟨_, _, rfl⟩ := Archive.markProcessed_cases hrun
  · exact Desk.Trail.quiet hq
  · exact Desk.Trail.refl _
  · exact Desk.Trail.trans (Desk.Trail.quiet (Tame.now.quiet o d)) (h _ _)

section

variable [Desk.Overlooks R]

theorem Course.overlooks_log (c : Course) (s : WorkflowStep) (r : StepResult) :
    Leads (·.Like b) R (c.log s r) := by
  intro o d _
  rcases h : (c.log s r).run o d with ⟨ending, e⟩
  obtain ⟨_, _, rfl, _⟩ | ⟨_, rfl⟩ := log_cases h
  · exact Desk.Trail.quiet d.quiet_next
  · exact Desk.Trail.trans (Desk.Trail.quiet d.quiet_next) (Desk.Overlooks.withLog _ _)

namespace Workflow

theorem overlooks_openRun (w : Workflow) (seed : Fields) (triggeredBy : String) :
    Leads (·.Like b) R (w.openRun seed triggeredBy) := by
  intro o d _
  rcases h : (w.openRun seed triggeredBy).run o d with ⟨ending, e⟩
  obtain ⟨_, _, hq⟩ | ⟨_, _, rfl, _⟩ := openRun_cases h
  · exact Desk.Trail.quiet hq
  · exact Desk.Trail.trans (Desk.Trail.quiet d.quiet_next) (Desk.Overlooks.withRun _ _)

theorem overlooks_closeRun (runId : String) (p : Progress) :
    Leads (·.Like b) R (closeRun runId p) := by
  intro o d _
  rcases h : (closeRun runId p).run o d with ⟨ending, e⟩
  obtain ⟨_, _, hq, _⟩ | ⟨_, rfl⟩ := closeRun_cases h
  · exact Desk.Trail.quiet hq
  · exact Desk.Trail.trans (Desk.Trail.quiet (Tame.now.quiet o d)) (Desk.Overlooks.withUpdate _ _ _)

/-- A run leads where its emissions do. -/
theorem overlooks_run {em : Emitter} (hem : ∀ f, Leads (·.Like b) R (em f)) (w : Workflow)
    (context : Json) (triggeredBy : String) :
    Leads (·.Like b) R (w.run em context triggeredBy) :=
  (Leads.ofExcept _).bind fun seed => (overlooks_openRun w seed triggeredBy).bind fun _ =>
    (Leads.of_tame (Tame.tell _ _)).bind fun _ =>
      (leads_carryOut (fun c _ => c.overlooks_log) hem seed).bind fun _ =>
        (overlooks_closeRun _ _).bind fun _ => (Leads.of_tame (Tame.tell _ _)).bind fun _ =>
          .pure _

end Workflow

namespace Dispatch

/-- A dispatch leads where its emissions and the mark of its event do. -/
theorem overlooks_event {em : Emitter} (hem : ∀ f, Leads (·.Like b) R (em f)) {ev : Event}
    (hmark : ∀ d now, R d (d.withMark ev.id now)) : Leads (·.Like b) R (event em ev) :=
  composes_event Leads.composes (fun w => Workflow.overlooks_run hem w _ _)
    (leads_markProcessed hmark)

end Dispatch

end

namespace Course

variable {c : Course} {d : Desk} {ss : List WorkflowStep} {p : Progress} {x : EmitCall}

/-- To carry a part of a run out before its deadline changes no more than the part does. -/
theorem desk_part {α : Type} (c : Course) (y : Action α) (o : Office) (d : Desk) :
    ((c.part y).run o d).2 = (y.run (c.under o) d).2 := by
  have hend : ((c.part y).run o d).2 =
      ((Action.attempt (Action.before c.deadline y)).run o d).2 := by
    unfold part
    rw [Action.run_bind]
    rcases (Action.attempt (Action.before c.deadline y)).run o d with ⟨result | _ | _, m⟩
    · rcases result with _ | _ | _ <;> rfl
    · rfl
    · rfl
  rw [hend, Action.desk_attempt, Action.run_before]
  have hunder : y.run { o with deadlines := c.deadline :: o.deadlines } d = y.run (c.under o) d :=
    rfl
  rw [hunder]
  rcases y.run (c.under o) d with ⟨_ | _ | _, m⟩
  · rfl
  · rfl
  · dsimp only
    split <;> rfl

namespace Emits

theorem emitter_eq (h : c.Emits o ss p d x) : x.emitter = c.emitter := by
  induction h with
  | now => rfl
  | later _ _ ih => exact ih

theorem office_eq (h : c.Emits o ss p d x) : x.office = c.under o := by
  induction h with
  | now => rfl
  | later _ _ ih => exact ih

variable (hlog : ∀ s r, Leads (·.Like b) R (c.log s r))
  (hem : ∀ f, Leads (·.Like b) R (c.emitter f)) (ho : o.Like b)

include hlog hem ho

/-- The steps lead to the desk of each of their emissions. -/
theorem before (h : c.Emits o ss p d x) : R d x.desk := by
  induction h with
  | @now s rest p d m m' m'' r added em f resulted logged success told asked followUp =>
    have hm : d.Quiet m := (tame_perform _ _ _).quiet_of_run resulted
    have hm' : R m m' := by
      have hpart : ((c.log s r).run (c.under o) m).2 = m' := by
        rw [← desk_part, logged]
      exact hpart ▸ hlog s r _ m (like_under ho)
    have hm'' : m'.Quiet m'' := (Tame.tell _ _).quiet_of_run told
    exact Desk.Trail.trans (Desk.Trail.quiet hm) (Desk.Trail.trans hm' (Desk.Trail.quiet hm''))
  | @later s rest p p' d m x stepped _ ih =>
    have hstep := leads_step hlog hem s p o d ho
    rw [stepped] at hstep
    exact Desk.Trail.trans hstep ih

/-- The steps go on from where each of their emissions leads. -/
theorem after (h : c.Emits o ss p d x) : R x.result.2 ((c.steps ss p).run o d).2 := by
  induction h with
  | @now s rest p d m m' m'' r added em f resulted logged success told asked followUp =>
    set q := (p.lengthen (s.subject? (.object p.context)) added).count r
    have hrun : (c.step s p).run o d = (c.settle s r q).run o m' := by
      rw [step, Action.run_bind_of_done resulted]
      exact Action.run_bind_of_done logged
    have hemitted : ((c.part (c.emit (q.succeed s r).context em)).run o m'').2 =
        ((c.emitter f).run (c.under o) m'').2 := by
      rw [desk_part, emit, followUp, Action.run_bind_of_done (e := m'') rfl,
        Action.desk_bind_pure]
    refine Action.trail_rest ?_ fun out e => ?_
    · rw [hrun, settle, success, if_pos rfl, Action.run_bind_of_done told]
      dsimp only
      simp only [asked]
      refine Action.trail_rest ?_ fun sent e => ?_
      · rw [hemitted]
        exact Desk.Trail.refl _
      · split
        · exact Desk.Trail.refl _
        · exact Action.trail_rest (Desk.Trail.quiet ((Tame.tell _ _).quiet o e)) fun _ _ =>
            Desk.Trail.refl _
    · split
      · exact leads_steps hlog hem _ _ o e ho
      · exact Desk.Trail.refl _
      · exact Desk.Trail.refl _
  | @later s rest p p' d m x stepped _ ih =>
    rw [run_steps_of_next stepped]
    exact ih

end Emits

end Course

namespace Workflow.Emits

variable {w : Workflow} {em : Emitter} {context : Json} {triggeredBy : String} {d : Desk}
  {x : EmitCall}

theorem emitter_eq (h : w.Emits em context triggeredBy o d x) : x.emitter = em := by
  obtain ⟨_, _, _, _, hsteps⟩ := h
  exact hsteps.emitter_eq

theorem office_like (ho : o.Like b) (h : w.Emits em context triggeredBy o d x) :
    x.office.Like b := by
  obtain ⟨_, _, _, _, hsteps⟩ := h
  exact hsteps.office_eq ▸ Course.like_under ho

/-- A run leads to the desk of each of its emissions. -/
theorem before [Desk.Overlooks R] (hem : ∀ f, Leads (·.Like b) R (em f)) (ho : o.Like b)
    (h : w.Emits em context triggeredBy o d x) : R d x.desk := by
  obtain @⟨seed, r, m, m', _, hopened, htold, _, hsteps⟩ := h
  have hm := w.overlooks_openRun (R := R) seed triggeredBy o d ho
  rw [hopened] at hm
  have hm' : m.Quiet m' := (Tame.tell _ _).quiet_of_run htold
  exact Desk.Trail.trans hm (Desk.Trail.trans (Desk.Trail.quiet hm')
    (hsteps.before (Course.overlooks_log _) hem ho))

/-- A run goes on from where each of its emissions leads. -/
theorem after [Desk.Overlooks R] (hem : ∀ f, Leads (·.Like b) R (em f)) (ho : o.Like b)
    (h : w.Emits em context triggeredBy o d x) :
    R x.result.2 ((w.run em context triggeredBy).run o d).2 := by
  obtain @⟨seed, r, m, m', hstart, hopened, htold, htime, hsteps⟩ := h
  have hrun : (w.run em context triggeredBy).run o d = (w.conduct em r.id seed).run o m := by
    rw [run, hstart]
    exact Action.run_bind_of_done hopened
  rw [hrun, conduct, Action.run_bind_of_done htold]
  refine Action.trail_rest ?_ fun p e =>
    Action.trail_rest (overlooks_closeRun r.id p o e ho) fun _ e' =>
      Action.trail_rest (Desk.Trail.quiet ((Tame.tell _ _).quiet o e')) fun _ _ =>
        Desk.Trail.refl _
  rw [run_carryOut, if_neg (by omega), Action.desk_bind_pure]
  exact hsteps.after (Course.overlooks_log _) hem ho

end Workflow.Emits

namespace Dispatch

variable {em : Emitter} {ev : Event} {ws : List Workflow} {d : Desk} {x : EmitCall}

/-- One run of a dispatch changes what the run changes. -/
theorem desk_runOne (em : Emitter) (ev : Event) (w : Workflow) (o : Office) (d : Desk) :
    ((runOne em ev w).run o d).2 = ((w.run em (.object ev.contextSeed) "event").run o d).2 := by
  rcases hone : (runOne em ev w).run o d with ⟨ending, e⟩
  obtain ⟨_, hrun⟩ := run_runOne hone
  rw [hrun]

namespace Emits

theorem emitter_eq (h : Emits em ev o ws d x) : x.emitter = em := by
  induction h with
  | now run => exact run.emitter_eq
  | later _ _ ih => exact ih

theorem office_like (ho : o.Like b) (h : Emits em ev o ws d x) : x.office.Like b := by
  induction h with
  | now run => exact run.office_like ho
  | later _ _ ih => exact ih

theorem before [Desk.Overlooks R] (hem : ∀ f, Leads (·.Like b) R (em f)) (ho : o.Like b)
    (h : Emits em ev o ws d x) : R d x.desk := by
  induction h with
  | now run => exact run.before hem ho
  | @later w rest d m out x ran _ ih =>
    have hrun := Workflow.overlooks_run hem w (.object ev.contextSeed) "event" o d ho
    rw [← desk_runOne, ran] at hrun
    exact Desk.Trail.trans hrun ih

/-- The runs of a dispatch go on from where each of their emissions leads. -/
theorem after [Desk.Overlooks R] (hem : ∀ f, Leads (·.Like b) R (em f)) (ho : o.Like b)
    (h : Emits em ev o ws d x) : R x.result.2 ((runAll em ev ws).run o d).2 := by
  induction h with
  | @now w rest d x run =>
    refine Action.trail_rest ?_ fun out e => Action.trail_rest ?_ fun _ _ => Desk.Trail.refl _
    · rw [desk_runOne]
      exact run.after hem ho
    · exact composes_runAll Leads.composes (fun w => Workflow.overlooks_run hem w _ _) rest o e ho
  | @later w rest d m out x ran _ ih =>
    rw [runAll, Action.run_bind_of_done ran, Action.desk_bind_pure]
    exact ih

end Emits

end Dispatch

namespace DispatchCall.Emits

variable {c : DispatchCall} {x : EmitCall}

theorem emitter_eq (h : c.Emits x) : x.emitter = c.emitter := by
  obtain ⟨_, _, _, hruns⟩ := h
  exact hruns.emitter_eq

theorem office_like (ho : c.office.Like b) (h : c.Emits x) : x.office.Like b := by
  obtain ⟨_, _, _, hruns⟩ := h
  exact hruns.office_like ho

/-- A dispatch leads to the desk of each of its emissions. -/
theorem before [Desk.Overlooks R] (hem : ∀ f, Leads (·.Like b) R (c.emitter f))
    (ho : c.office.Like b) (h : c.Emits x) : R c.desk x.desk := by
  obtain ⟨_, hwaited, _, hruns⟩ := h
  have hq := (Dispatch.tame_wait _).quiet_of_run hwaited
  exact Desk.Trail.trans (Desk.Trail.quiet hq) (hruns.before hem ho)

/-- A dispatch goes on from where each of its emissions leads. -/
theorem after [Desk.Overlooks R] (hem : ∀ f, Leads (·.Like b) R (c.emitter f))
    (hmark : ∀ d now, R d (d.withMark c.event.id now)) (ho : c.office.Like b) (h : c.Emits x) :
    R x.result.2 c.result.2 := by
  obtain ⟨em, ev, o, d⟩ := c
  obtain @⟨m, ws, hopen, hwaited, hfound, hruns⟩ := h
  have hmarked : ∀ e, R e ((Archive.markProcessed ev.id).run o e).2 := fun e =>
    Dispatch.leads_markProcessed hmark o e ho
  show R x.result.2 ((Dispatch.event em ev).run o d).2
  cases ws with
  | nil => cases hruns
  | cons w rest =>
    have hevent : (Dispatch.event em ev).run o d = (do
        let outcomes ← Dispatch.runAll em ev (w :: rest)
        Archive.markProcessed ev.id
        return ({ eventId := some ev.id, workflowsRun := outcomes.length,
                  results := outcomes } : DispatchResult)).run o m := by
      have hopen : ¬ ev.processed = true := Bool.eq_false_iff.1 hopen
      rw [Dispatch.event, if_neg hopen, Action.run_bind_of_done hwaited]
      exact Action.run_bind_of_done hfound
    rw [hevent]
    exact Action.trail_rest (hruns.after hem ho) fun _ e =>
      Action.trail_rest (hmarked e) fun _ _ => Desk.Trail.refl _

end DispatchCall.Emits

/-- A trail that the emissions of a dispatch follow is followed by the whole dispatch. -/
theorem DispatchCall.trail_of_emits [Desk.Overlooks R] {c : DispatchCall}
    (hmark : ∀ d now, R d (d.withMark c.event.id now))
    (h : ∀ x, c.Emits x → R x.desk x.result.2) : R c.desk c.result.2 := by
  classical
  -- An emitter that follows the trail everywhere, and agrees with the one of the call on its
  -- emissions.
  let guarded : Emitter := fun f => ⟨fun o d =>
    if R d ((c.emitter f).run o d).2 then (c.emitter f).run o d else (.cut 0, d)⟩
  have hguarded : ∀ f, Leads (·.Like c.office) R (guarded f) := by
    intro f o d _
    show R d (if R d ((c.emitter f).run o d).2 then (c.emitter f).run o d else (.cut 0, d)).2
    split
    · assumption
    · exact Desk.Trail.refl d
  have hagrees : ∀ x, c.Emits x → x.Agrees guarded := by
    intro x hx
    have hfollows := h x hx
    unfold EmitCall.Agrees
    rw [EmitCall.result, hx.emitter_eq] at hfollows ⊢
    exact if_pos hfollows
  rw [← run_event_congr hagrees]
  exact Dispatch.overlooks_event hguarded hmark c.office c.desk (.refl _)

end

end LeadDesk
