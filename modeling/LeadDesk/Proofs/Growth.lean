import LeadDesk.Dispatch.Monitor
import LeadDesk.Proofs.Records
/-!
# Work only grows

What the steps of a run do to the desk, and what a dispatch does. Whatever holds along every
trail of records, emissions and marks holds of a whole run (`Course.leads_steps`) and of a whole
dispatch (`Dispatch.composes_event`). The trail that the log of a run needs is `Desk.Grows`: runs
that are there stay as they are, and only one of them, or none, gets entries in its log.
-/

namespace LeadDesk

open LeadDesk.Action (Leads Tame)

/-! ## Along a run and along a dispatch -/

namespace Dispatch

variable {P : (α : Type) → Action α → Prop}

theorem composes_runAll (hP : Action.Composes P) {em : Emitter} {e : Event}
    (hrun : ∀ w : Workflow, P _ (w.run em (.object e.contextSeed) "event"))
    (ws : List Workflow) : P _ (runAll em e ws) := by
  induction ws with
  | nil => exact hP.pure _
  | cons w rest ih =>
    have hone : P _ (runOne em e w) := by
      refine hP.bind (hP.attempt (hrun w)) fun result => ?_
      split <;> exact hP.pure _
    exact hP.bind hone fun _ => hP.bind ih fun _ => hP.pure _

/-- A dispatch has what its runs and the mark at its end have. -/
theorem composes_event (hP : Action.Composes P) {em : Emitter} {e : Event}
    (hrun : ∀ w : Workflow, P _ (w.run em (.object e.contextSeed) "event"))
    (hmark : P _ (Archive.markProcessed e.id)) : P _ (event em e) := by
  have hwait : P _ (wait e) := by
    unfold wait
    split
    · refine hP.bind hP.now fun now => ?_
      dsimp only
      split
      · exact hP.sleep _
      · exact hP.pure _
    · exact hP.pure _
  unfold event
  split
  · exact hP.pure _
  · refine hP.bind hwait fun _ => hP.bind (hP.query _ _) fun ws => ?_
    split
    · exact hP.bind hmark fun _ => hP.pure _
    · exact hP.bind (composes_runAll hP hrun _) fun _ => hP.bind hmark fun _ => hP.pure _

end Dispatch

section Runs

/-- A property of actions that the parts of a run have, and that is kept when they are put together:
its steps, what is told of it, and how they are bounded in time. -/
structure Action.Carries (runId : String) (P : (α : Type) → Action α → Prop) : Prop
    extends Combines P where
  before : ∀ {α : Type} {x : Action α} (time : Int), P α x → P (Option α) (before time x)
  consult : ∀ {α : Type} {f : Office → Action α},
    (∀ o team, f { o with providerTeam := team } = f o) →
    (∀ o observers reaction, f (o.heardBy observers reaction) = f o) → (∀ o, P α (f o)) →
    P α (office >>= f)
  deadline : ∀ limit, P Int (deadline limit)
  added : P (List Json) added
  putAside : ∀ items, P Unit (putAside items)
  resultOf : ∀ s context, P (Option StepResult) (Course.resultOf s context)
  tell : ∀ event more, P Unit (tell event (("run_id", .string runId) :: more))

/-- What reaches tools carries over to runs, if it holds of what is told of them. -/
theorem Action.Reaches.carries {runId : String} {P : (α : Type) → Action α → Prop}
    (hP : Action.Reaches P)
    (htell : ∀ event more, P Unit (Action.tell event (("run_id", .string runId) :: more))) :
    Action.Carries runId P where
  toCombines := hP.toCombines
  before := hP.before
  consult := hP.consult
  deadline := hP.deadline
  added := hP.added
  putAside := hP.putAside
  resultOf := Course.reaches_resultOf hP
  tell := htell

variable {P : (α : Type) → Action α → Prop}

namespace Course

variable {c : Course} (hP : Action.Carries c.runId P)

include hP

theorem carries_part {α : Type} {x : Action α} (hx : P _ x) : P _ (c.part x) := by
  refine hP.bind (hP.attempt (hP.before _ hx)) fun result => ?_
  split <;> exact hP.pure _

theorem carries_settle (hem : ∀ f, P _ (c.emitter f)) (s : WorkflowStep) (r : StepResult)
    (p : Progress) : P _ (c.settle s r p) := by
  have hemit : ∀ context em, P _ (c.emit context em) := fun context em =>
    hP.bind (hP.ofExcept _) fun f => hP.bind (hem f) fun _ => hP.pure _
  unfold settle
  split
  · refine hP.bind (hP.tell _ _) fun _ => ?_
    dsimp only
    split
    · exact hP.pure _
    · refine hP.bind (carries_part hP (hemit _ _)) fun result => ?_
      split
      · exact hP.pure _
      · exact hP.bind (hP.tell _ _) fun _ => hP.pure _
  · refine hP.bind (hP.tell _ _) fun _ => ?_
    cases s.onFailure <;> exact hP.pure _

theorem carries_perform (s : WorkflowStep) (context : Fields) : P _ (c.perform s context) :=
  hP.bind (hP.putAside _) fun _ => hP.bind (carries_part hP (hP.resultOf s context)) fun _ =>
    hP.bind hP.added fun _ => hP.pure _

theorem carries_step (hlog : ∀ s r, P _ (c.log s r)) (hem : ∀ f, P _ (c.emitter f))
    (s : WorkflowStep) (p : Progress) : P _ (c.step s p) := by
  refine hP.bind (carries_perform hP s p.context) fun performed => ?_
  split
  · exact hP.pure _
  · refine hP.bind (carries_part hP (hlog _ _)) fun logged => ?_
    split
    · exact hP.pure _
    · exact hP.bind (hP.tell _ _) fun _ => hP.pure _
  · refine hP.bind (carries_part hP (hlog _ _)) fun logged => ?_
    split
    · exact hP.pure _
    · exact carries_settle hP hem _ _ _

/-- The steps of a run have what its logging and its emissions have. -/
theorem carries_steps (hlog : ∀ s r, P _ (c.log s r)) (hem : ∀ f, P _ (c.emitter f))
    (ss : List WorkflowStep) : ∀ p, P _ (c.steps ss p) := by
  induction ss with
  | nil => exact fun p => hP.pure _
  | cons s rest ih =>
    intro p
    refine hP.bind (carries_step hP hlog hem s p) fun out => ?_
    split
    · exact ih _
    · exact hP.pure _
    · exact hP.pure _

end Course

theorem Workflow.carries_carryOut {w : Workflow} {em : Emitter} {runId : String}
    (hP : Action.Carries runId P)
    (hlog : ∀ c : Course, c.runId = runId → ∀ s r, P _ (c.log s r)) (hem : ∀ f, P _ (em f))
    (seed : Fields) : P _ (w.carryOut em runId seed) := by
  refine hP.consult (fun _ _ => rfl) (fun _ _ _ => rfl) fun office => ?_
  dsimp only
  split
  · exact hP.pure _
  · refine hP.bind (hP.deadline _) fun deadline => ?_
    exact hP.bind (Course.carries_steps hP (hlog _ rfl) hem _ _) fun _ => hP.pure _

/-- From its opening on a run has what its logging, its emissions and its closing have. -/
theorem Workflow.carries_conduct {w : Workflow} {em : Emitter} {runId : String}
    (hP : Action.Carries runId P)
    (hlog : ∀ c : Course, c.runId = runId → ∀ s r, P _ (c.log s r)) (hem : ∀ f, P _ (em f))
    (hclose : ∀ p, P _ (closeRun runId p)) (seed : Fields) :
    P _ (w.conduct em runId seed) :=
  hP.bind (hP.tell _ _) fun _ => hP.bind (carries_carryOut hP hlog hem seed) fun p =>
    hP.bind (hclose p) fun _ => hP.bind (hP.tell _ _) fun _ => hP.pure _

end Runs

section Trails

variable {b : Office} {R : Desk → Desk → Prop} [Desk.Trail R]

/-- Every trail goes through all that runs do. -/
theorem Action.Leads.carries (runId : String) :
    Action.Carries runId fun _ => Leads (·.Like b) R :=
  Leads.reaches.carries fun _ _ => .of_tame (.tell _ _)

namespace Course

variable {c : Course} (hlog : ∀ s r, Leads (·.Like b) R (c.log s r))
  (hem : ∀ f, Leads (·.Like b) R (c.emitter f))

include hem in
theorem leads_settle (s : WorkflowStep) (r : StepResult) (p : Progress) :
    Leads (·.Like b) R (c.settle s r p) := carries_settle (Leads.carries _) hem s r p

include hlog hem

theorem leads_step (s : WorkflowStep) (p : Progress) : Leads (·.Like b) R (c.step s p) :=
  carries_step (Leads.carries _) hlog hem s p

/-- The steps of a run keep to a trail when its logging and its emissions do. -/
theorem leads_steps (ss : List WorkflowStep) (p : Progress) : Leads (·.Like b) R (c.steps ss p) :=
  carries_steps (Leads.carries _) hlog hem ss p

end Course

theorem Workflow.leads_carryOut {w : Workflow} {em : Emitter} {runId : String}
    (hlog : ∀ c : Course, c.runId = runId → ∀ s r, Leads (·.Like b) R (c.log s r))
    (hem : ∀ f, Leads (·.Like b) R (em f)) (seed : Fields) :
    Leads (·.Like b) R (w.carryOut em runId seed) :=
  carries_carryOut (Leads.carries _) hlog hem seed

namespace Dispatch

/-- To handle an emitted event at once has what a dispatch has. -/
theorem composes_atOnce {P : (α : Type) → Action α → Prop} (hP : Action.Composes P) {em : Emitter}
    {e : Event} (hevent : P _ (event em e)) (bound : Int) : P _ (atOnce bound em e) := by
  refine hP.bind hP.depth fun depth => ?_
  split
  · exact hP.pure _
  · exact hP.bind (hP.deeper hevent) fun _ => hP.pure _

/-- The emitter that handles events at once has what the queue has and every dispatch whose
emitter has it. -/
theorem composes_inline {P : (α : Type) → Action α → Prop} (hP : Action.Composes P) {bound : Int}
    (hqueue : ∀ f, P _ (Emitter.queue f))
    (hevent : ∀ levels, (∀ f, P _ (inline bound levels f)) →
      ∀ e, P _ (event (inline bound levels) e)) (levels : Nat) :
    ∀ f, P _ (inline bound levels f) := by
  induction levels with
  | zero => exact hqueue
  | succ levels ih =>
    exact fun f => hP.bind (hqueue f) fun e => composes_atOnce hP (hevent levels ih e) bound

end Dispatch

end Trails

/-! ## One desk before another -/

namespace Desk

/-- The ids of the stored events. -/
def eventIds (d : Desk) : List String := d.store.events.map (·.id)

/-- The ids of the stored runs. -/
def runIds (d : Desk) : List String := d.store.runs.map (·.id)

/-- One desk comes before another: time goes on, ids and answers are used up, events and runs are
added, and the clock has the same dial. -/
structure Precedes (d e : Desk) : Prop where
  events : d.eventIds <+: e.eventIds
  runs : d.runIds <+: e.runIds
  nextId : d.nextId ≤ e.nextId
  clock : d.clock ≤ e.clock
  waited : d.waited ≤ e.waited
  model : e.script.model <:+ d.script.model
  dial : e.dial = d.dial

variable {d e f : Desk}

theorem Precedes.of_quiet (h : d.Quiet e) : d.Precedes e where
  events := by
    have heq : d.eventIds = e.eventIds := by rw [eventIds, eventIds, h.events]
    exact heq ▸ List.prefix_rfl
  runs := by
    have heq : d.runIds = e.runIds := by rw [runIds, runIds, h.runs]
    exact heq ▸ List.prefix_rfl
  nextId := h.nextId
  clock := h.clock
  waited := h.waited
  model := h.model
  dial := h.dial

theorem Precedes.refl (d : Desk) : d.Precedes d := .of_quiet (Quiet.refl d)

theorem Precedes.trans (h : d.Precedes e) (k : e.Precedes f) : d.Precedes f where
  events := h.events.trans k.events
  runs := h.runs.trans k.runs
  nextId := Nat.le_trans h.nextId k.nextId
  clock := Int.le_trans h.clock k.clock
  waited := Int.le_trans h.waited k.waited
  model := k.model.trans h.model
  dial := k.dial.trans h.dial

/-- How deep the first desk is does not matter. -/
theorem Precedes.of_depth {n : Nat} (h : Precedes { d with depth := n } e) : d.Precedes e :=
  ⟨h.events, h.runs, h.nextId, h.clock, h.waited, h.model, h.dial⟩

/-- Nor does it matter how deep the second one is. -/
theorem Precedes.with_depth (h : d.Precedes e) (n : Nat) : d.Precedes { e with depth := n } :=
  ⟨h.events, h.runs, h.nextId, h.clock, h.waited, h.model, h.dial⟩

/-- A change of the store that only adds events and runs. -/
theorem Precedes.of_store {s : Store} (he : d.eventIds <+: s.events.map (·.id))
    (hr : d.runIds <+: s.runs.map (·.id)) : d.Precedes { d with store := s } where
  events := he
  runs := hr
  nextId := Nat.le_refl _
  clock := Int.le_refl _
  waited := Int.le_refl _
  model := List.suffix_refl _
  dial := rfl

theorem eventIds_withMark (d : Desk) (id : String) (now : Timestamp) :
    (d.withMark id now).eventIds = d.eventIds := by
  simp only [eventIds, withMark, Store.markProcessed, List.map_map]
  refine List.map_congr_left fun ev _ => ?_
  simp only [Function.comp_apply]
  split <;> rfl

theorem runIds_withUpdate (d : Desk) (id : String) (u : RunUpdate) :
    (d.withUpdate id u).runIds = d.runIds := by
  simp only [runIds, withUpdate, Store.updateRun, List.map_map]
  refine List.map_congr_left fun r _ => ?_
  simp only [Function.comp_apply]
  split <;> rfl

theorem precedes_withRun (d : Desk) (r : Run) : d.Precedes (d.withRun r) := by
  refine .of_store List.prefix_rfl ?_
  rw [List.map_append]
  exact List.prefix_append _ _

theorem precedes_withLog (d : Desk) (l : RunLog) : d.Precedes (d.withLog l) :=
  .of_store List.prefix_rfl List.prefix_rfl

theorem precedes_withUpdate (d : Desk) (id : String) (u : RunUpdate) :
    d.Precedes (d.withUpdate id u) := by
  refine .of_store List.prefix_rfl ?_
  have h := d.runIds_withUpdate id u
  rw [← h]
  exact List.prefix_rfl

theorem precedes_withEvent (d : Desk) (ev : Event) : d.Precedes (d.withEvent ev) := by
  refine .of_store ?_ List.prefix_rfl
  rw [List.map_append]
  exact List.prefix_append _ _

/-- To save a workflow adds no event and no run. -/
theorem precedes_save {w stored : Workflow} {t : Store} {now : Timestamp} {ids : Nat → String}
    (hq : d.Quiet e) (h : d.store.saveWorkflow w now ids = .ok (stored, t)) :
    d.Precedes { e with store := t } := by
  obtain ⟨hevents, hruns, _⟩ := Store.saveWorkflow_eq_ok h
  have he : e.eventIds = t.events.map (·.id) := by rw [eventIds, hq.events, hevents]
  have hr : e.runIds = t.runs.map (·.id) := by rw [runIds, hq.runs, hruns]
  exact (Precedes.of_quiet hq).trans (.of_store (he ▸ List.prefix_rfl) (hr ▸ List.prefix_rfl))

theorem precedes_withMark (d : Desk) (id : String) (now : Timestamp) :
    d.Precedes (d.withMark id now) := by
  refine .of_store ?_ List.prefix_rfl
  have h := d.eventIds_withMark id now
  rw [← h]
  exact List.prefix_rfl

end Desk

/-! ## Runs stay, and only one log grows -/

namespace Desk

/-- The entries that the log of a run has, in the order of writing. -/
def entriesOf (d : Desk) (id : String) : List RunLog := d.store.logs.filter (·.runId == id)

/-- From one desk to another the stored runs stay as they are, record and log, but for one's own
run. Ids that were fresh stay so as long as one's own run is stored. -/
structure Grows (own : Option String) (d e : Desk) : Prop where
  hasRun : ∀ id, d.HasRun id → e.HasRun id
  runs : ∀ r ∈ d.store.runs, own ≠ some r.id → r ∈ e.store.runs
  logs : ∀ id, d.HasRun id → own ≠ some id → e.entriesOf id = d.entriesOf id
  fresh : d.Fresh → (∀ id, own = some id → d.HasRun id) → e.Fresh
  model : e.script.model <:+ d.script.model

variable {own : Option String} {d e f : Desk} {id : String}

theorem HasRun.ne_freshId (h : d.HasRun id) (hf : d.Fresh) {n : Nat} (hn : d.nextId ≤ n) :
    id ≠ freshId n := by
  obtain ⟨r, hmem, rfl⟩ := h
  exact hf.runs r hmem n hn

/-- Where no run and no log changes, they stay as they are. -/
theorem Grows.of_eq (hr : e.store.runs = d.store.runs) (hl : e.store.logs = d.store.logs)
    (hn : d.nextId ≤ e.nextId) (hm : e.script.model <:+ d.script.model) : Grows own d e where
  hasRun id hid := by
    obtain ⟨r, hr', rfl⟩ := hid
    exact ⟨r, hr ▸ hr', rfl⟩
  runs r hr' _ := hr ▸ hr'
  logs id _ _ := by simp only [entriesOf, hl]
  fresh hf _ := hf.of_eq hr hl hn
  model := hm

theorem Grows.of_quiet (h : d.Quiet e) : Grows own d e :=
  Grows.of_eq h.runs h.logs h.nextId h.model

theorem Grows.trans (h : Grows own d e) (k : Grows own e f) : Grows own d f where
  hasRun id hid := k.hasRun id (h.hasRun id hid)
  runs r hr hne := k.runs r (h.runs r hr hne) hne
  logs id hid hne := (k.logs id (h.hasRun id hid) hne).trans (h.logs id hid hne)
  fresh hf ho := k.fresh (h.fresh hf ho) fun id hid => h.hasRun id (ho id hid)
  model := k.model.trans h.model

instance : Trail (Grows own) where
  quiet := Grows.of_quiet
  trans := Grows.trans
  deeper h := ⟨h.hasRun, h.runs, h.logs, fun hf ho => (h.fresh (hf.of_eq rfl rfl (Nat.le_refl _))
    ho).of_eq rfl rfl (Nat.le_refl _), h.model⟩

/-- What leaves all runs alone leaves them alone but for one's own. -/
theorem Grows.of_none (h : Grows none d e) : Grows own d e where
  hasRun := h.hasRun
  runs r hr _ := h.runs r hr (by simp)
  logs id hid _ := h.logs id hid (by simp)
  fresh hf _ := h.fresh hf (by simp)
  model := h.model

/-- What is done to one's own run from its opening on leaves all earlier runs alone. -/
theorem Grows.of_new (h : Grows none d e) (hnew : ¬ d.HasRun id) (hid : e.HasRun id)
    (k : Grows (some id) e f) : Grows none d f where
  hasRun id' h' := k.hasRun id' (h.hasRun id' h')
  runs r hr _ := by
    refine k.runs r (h.runs r hr (by simp)) fun heq => hnew ⟨r, hr, ?_⟩
    exact (Option.some.inj heq).symm
  logs id' h' _ := by
    refine (k.logs id' (h.hasRun id' h') fun heq => hnew ?_).trans (h.logs id' h' (by simp))
    exact Option.some.inj heq ▸ h'
  fresh hf _ := k.fresh (h.fresh hf (by simp)) fun id' heq => Option.some.inj heq ▸ hid
  model := k.model.trans h.model

/-- One more entry in the log of one's own run. -/
theorem grows_withLog {l : RunLog} (hid : l.id = freshId d.nextId) :
    Grows (some l.runId) d (d.next.withLog l) where
  hasRun _ h := h
  runs _ hr _ := hr
  logs id _ hne := by
    have hne : (l.runId == id) = false := by simpa using fun h : l.runId = id => hne (by rw [h])
    simp [entriesOf, withLog, next, List.filter_append, hne]
  fresh hf ho := (hf.of_quiet d.quiet_next).add_log hid (Nat.lt_succ_self _) fun m hm =>
    (ho _ rfl).ne_freshId hf (Nat.le_of_succ_le hm)
  model := List.suffix_refl _

/-- One more run. -/
theorem grows_withRun {r : Run} (hid : r.id = freshId d.nextId) :
    Grows own d (d.next.withRun r) where
  hasRun := by
    rintro _ ⟨r', hr', rfl⟩
    exact ⟨r', List.mem_append_left _ hr', rfl⟩
  runs _ hr' _ := List.mem_append_left _ hr'
  logs _ _ _ := rfl
  fresh hf _ := (hf.of_quiet d.quiet_next).add_run hid (Nat.lt_succ_self _)
  model := List.suffix_refl _

/-- An update of a run gives it no other id. -/
theorem mem_withUpdate {u : RunUpdate} {r : Run} :
    r ∈ (d.withUpdate id u).store.runs ↔
      ∃ r' ∈ d.store.runs, (if r'.id == id then u.apply r' else r') = r := by
  simp [withUpdate, Store.updateRun]

theorem id_apply (u : RunUpdate) (r : Run) : (u.apply r).id = r.id := rfl

/-- An update of one's own run. -/
theorem grows_withUpdate (u : RunUpdate) : Grows (some id) d (d.withUpdate id u) where
  hasRun := by
    rintro _ ⟨r, hr, rfl⟩
    refine ⟨_, mem_withUpdate.2 ⟨r, hr, rfl⟩, ?_⟩
    split <;> rfl
  runs r hr hne := by
    refine mem_withUpdate.2 ⟨r, hr, if_neg ?_⟩
    simpa using fun h : r.id = id => hne (by rw [h])
  logs _ _ _ := rfl
  fresh hf _ := by
    refine ⟨fun r hr n hn => ?_, hf.logs⟩
    obtain ⟨r', hr', rfl⟩ := mem_withUpdate.1 hr
    split <;> exact hf.runs r' hr' n hn
  model := List.suffix_refl _

end Desk

open Desk (Grows)

variable {b : Office} {own : Option String}

/-- To log a step writes into the log of its run alone. -/
theorem Course.leads_log (c : Course) (s : WorkflowStep) (r : StepResult) :
    Leads (·.Like b) (Grows (some c.runId)) (c.log s r) := by
  intro o d _
  rcases h : (c.log s r).run o d with ⟨ending, e⟩
  obtain ⟨failure, _, he, _⟩ | ⟨_, he⟩ := log_cases h
  · subst he
    exact Desk.Trail.quiet d.quiet_next
  · subst he
    exact Desk.grows_withLog (l := Store.storedLog (c.entry s r d)) rfl

namespace Workflow

theorem leads_closeRun (id : String) (p : Progress) :
    Leads (·.Like b) (Grows (some id)) (closeRun id p) := by
  intro o d _
  rcases h : (closeRun id p).run o d with ⟨ending, e⟩
  obtain ⟨failure, _, he, _⟩ | ⟨_, he⟩ := closeRun_cases h
  · exact Desk.Trail.quiet he
  · subst he
    exact Desk.Trail.trans (Desk.Trail.quiet (Tame.now.quiet o d)) (Desk.grows_withUpdate _)

/-- From its opening on a run writes into its own record and log. -/
theorem leads_conduct {em : Emitter} (hem : ∀ f, Leads (·.Like b) (Grows none) (em f))
    (w : Workflow) (runId : String) (seed : Fields) :
    Leads (·.Like b) (Grows (some runId)) (w.conduct em runId seed) :=
  carries_conduct (Leads.carries _) (fun c hc s r => hc ▸ c.leads_log s r)
    (fun f => (hem f).mono fun h => h.of_none) (leads_closeRun _) seed

/-- A run leaves all earlier runs alone. -/
theorem leads_run {em : Emitter} (hem : ∀ f, Leads (·.Like b) (Grows none) (em f)) (w : Workflow)
    (context : Json) (triggeredBy : String) :
    Leads (·.Like b) (Grows none) (w.run em context triggeredBy) := by
  intro o d ho
  rcases h : (w.run em context triggeredBy).run o d with ⟨ending, e⟩
  obtain ⟨_, _, hq⟩ | ⟨seed, r, _, hb, hnew, hrun⟩ := run_cases h
  · exact Grows.of_quiet hq
  · have hg := leads_conduct hem w r.id seed o (d.next.withRun r) ho
    rw [hrun] at hg
    refine Grows.of_new (Desk.grows_withRun hb.id) hnew ?_ hg
    exact ⟨r, List.mem_append_right _ (List.mem_singleton_self r), rfl⟩

end Workflow

/-! ## The emitters of the desk leave runs alone -/

theorem Emitter.leads_queue (f : FollowUp) : Leads (·.Like b) (Grows own) (queue f) := by
  intro o d _
  rcases h : (queue f).run o d with ⟨ending, e⟩
  obtain ⟨failure, _, he, _⟩ | ⟨ev, _, he, _⟩ := queue_cases h
  · exact Desk.Trail.quiet he
  · subst he
    exact Grows.of_eq rfl rfl (Nat.le_succ _) (List.suffix_refl _)

theorem Archive.leads_markProcessed (id : String) :
    Leads (·.Like b) (Grows own) (markProcessed id) := by
  intro o d _
  rcases h : (markProcessed id).run o d with ⟨ending, e⟩
  obtain ⟨failure, _, he, _⟩ | ⟨_, he, _⟩ | ⟨_, _, he⟩ := markProcessed_cases h
  · exact Desk.Trail.quiet he
  · subst he
    exact Desk.Trail.refl e
  · subst he
    exact Grows.of_eq rfl rfl (Nat.le_refl _) (List.suffix_refl _)

/-- Every dispatch leaves the runs that are there alone. -/
theorem Dispatch.leads_event_of_emitter (em : Emitter)
    (hem : ∀ f, Leads (·.Like b) (Grows none) (em f)) (e : Event) :
    Leads (·.Like b) (Grows none) (event em e) :=
  composes_event Action.Leads.composes (fun w => w.leads_run hem _ _)
    (Archive.leads_markProcessed _)

theorem Dispatch.grows_emitterFor (settings : Settings) (f : FollowUp) :
    Leads (·.Like b) (Grows none) (emitterFor settings f) := by
  unfold emitterFor
  split
  · exact composes_inline Action.Leads.composes Emitter.leads_queue
      (fun _ => leads_event_of_emitter _) _ f
  · exact Emitter.leads_queue f

end LeadDesk
