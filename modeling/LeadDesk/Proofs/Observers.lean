import LeadDesk.Proofs.AuditTrail
import LeadDesk.Proofs.Nesting
import LeadDesk.Proofs.Oblivious
/-!
# What observers hear of a run

The observers of a run hear that it has started, then of each entry in its log in the order of the
log, and last that it has finished (`Workflow.Mirror`). Who they are, and whether they fail, makes
no difference to the run (`Workflow.mirror_of_run`).
-/

namespace LeadDesk

open LeadDesk.Action (Leads Tame Candid Oblivious)
open Desk (Grows Precedes)

/-! ## What is heard of a run -/

/-- The happening is one of the run with an id. -/
def Journal.isOf (id : String) (happening : String × Fields) : Bool :=
  (Fields.get? happening.2 "run_id").bind Json.text? == some id

theorem Journal.isOf_mk (id runId event : String) (more : Fields) :
    isOf id (event, ("run_id", .string runId) :: more) = (runId == id) := by
  simp [isOf, Fields.get?, Json.text?]

namespace Desk

/-- What observers have heard of a run. -/
def heardOf (d : Desk) (id : String) : List (String × Fields) :=
  d.journal.callbacks.filter (Journal.isOf id)

/-- From one desk to another nothing is heard of the runs that are there, but for one's own. -/
structure Hushed (own : Option String) (d e : Desk) : Prop where
  hasRun : ∀ id, d.HasRun id → e.HasRun id
  heard : ∀ id, d.HasRun id → own ≠ some id → e.heardOf id = d.heardOf id

variable {own : Option String} {d e f : Desk} {id : String}

theorem Hushed.trans (h : Hushed own d e) (k : Hushed own e f) : Hushed own d f where
  hasRun id hid := k.hasRun id (h.hasRun id hid)
  heard id hid hne := (k.heard id (h.hasRun id hid) hne).trans (h.heard id hid hne)

instance : Way (Hushed own) where
  refl _ := ⟨fun _ h => h, fun _ _ _ => rfl⟩
  trans := Hushed.trans
  deeper h := ⟨h.hasRun, h.heard⟩

/-- What leaves all runs unheard of leaves them so but for one's own. -/
theorem Hushed.of_none (h : Hushed none d e) : Hushed own d e :=
  ⟨h.hasRun, fun id hid _ => h.heard id hid (by simp)⟩

/-- Nothing is heard of earlier runs while one's own is carried out from its opening on. -/
theorem Hushed.of_new (h : Hushed none d e) (hnew : ¬ d.HasRun id) (k : Hushed (some id) e f) :
    Hushed none d f where
  hasRun id' h' := k.hasRun id' (h.hasRun id' h')
  heard id' h' _ := by
    refine (k.heard id' (h.hasRun id' h') fun heq => hnew ?_).trans (h.heard id' h' (by simp))
    exact Option.some.inj heq ▸ h'

end Desk

open Desk (Hushed)

/-! ## Actions that tell nobody anything -/

namespace Action

variable {α β : Type} {x : Action α} {S : Office → Prop} {own own' : Option String}

/-- Nobody is told of anything. -/
def Mute (x : Action α) : Prop :=
  ∀ (o : Office) (d : Desk), (x.run o d).2.journal.callbacks = d.journal.callbacks

namespace Mute

theorem of_oblivious (hx : Oblivious x) : Mute x := hx.callbacks_eq

theorem bind {f : α → Action β} (hx : Mute x) (hf : ∀ a, Mute (f a)) : Mute (x >>= f) := by
  intro o d
  have hcallbacks := hx o d
  rw [run_bind]
  rcases hm : x.run o d with ⟨a | failure | level, m⟩ <;> rw [hm] at hcallbacks
  · exact (hf a o m).trans hcallbacks
  · exact hcallbacks
  · exact hcallbacks

theorem query (operation : String) (f : Store → Except Failure α) : Mute (query operation f) := by
  intro o d
  rcases h : (Action.query operation f).run o d with ⟨ending, e⟩
  rw [(query_cases h).1]

theorem change (operation : String) (f : Store → Except Failure (α × Store)) :
    Mute (change operation f) := by
  intro o d
  rcases h : (Action.change operation f).run o d with ⟨ending, e⟩
  obtain ⟨_, _, rfl, _⟩ | ⟨_, _, _, _, rfl⟩ := change_cases h <;> rfl

end Mute

/-- Where nobody is told of anything, it does not matter who there is. -/
theorem Mute.run_heardBy (hm : Mute x) (hx : Candid x) (o : Office) (d : Desk) (observers : Nat)
    (reaction : Nat → String → Fields → Except Failure Unit) :
    x.run (o.heardBy observers reaction) d = x.run o d := by
  obtain ⟨told, _, hrun⟩ := hx.exists_told o d
  have hnone : told = [] := by
    have hone := hm (o.heardBy 1 reaction) (d.withCallbacks d.journal.callbacks)
    rw [hrun, Journal.heard_one] at hone
    exact List.append_cancel_left (hone.trans (List.append_nil _).symm)
  have hsame : (x.run o d).2.withCallbacks d.journal.callbacks = (x.run o d).2 := by
    rw [← hm o d]
    rfl
  calc x.run (o.heardBy observers reaction) d
    _ = ((x.run o d).1, (x.run o d).2.withCallbacks (d.journal.callbacks ++ [])) := by
      rw [← hnone]
      exact hnone ▸ hrun observers reaction d.journal.callbacks
    _ = x.run o d := by rw [List.append_nil, hsame]

/-- Where runs stay and nobody is told of anything, nothing is heard of them. -/
theorem Leads.hushed (hx : Leads S (Grows own') x) (hm : Mute x) : Leads S (Hushed own) x :=
  fun o d ho => ⟨(hx o d ho).hasRun, fun id _ _ => by rw [Desk.heardOf, hm o d]; rfl⟩

theorem Leads.hushed_of_tame (hx : Tame x) (hm : Mute x) : Leads S (Hushed own) x :=
  (Leads.of_tame (R := Grows none) hx).hushed hm

variable {b : Office}

theorem Leads.composes_hushed : Composes fun _ => Leads (·.Like b) (Hushed own) where
  pure := Leads.pure
  fail := Leads.fail
  bind := Leads.bind
  attempt := Leads.attempt
  sleep _ := .hushed_of_tame (.sleep _) (.of_oblivious (.sleep _))
  now := .hushed_of_tame .now (.of_oblivious .now)
  newId := .hushed_of_tame .newId (.of_oblivious .newId)
  depth := .hushed_of_tame .depth (.of_oblivious .depth)
  deeper := Leads.deeper
  query _ _ := .hushed_of_tame (.query _ _) (.query _ _)

/-- What is told of a run is not heard of another. -/
theorem Leads.hushed_tell (runId event : String) (more : Fields) :
    Leads S (Hushed (some runId)) (tell event (("run_id", .string runId) :: more)) := by
  intro o d _
  rw [run_tell]
  refine ⟨fun _ h => h, fun id _ hne => ?_⟩
  have hid : Journal.isOf id (event, ("run_id", .string runId) :: more) = false := by
    rw [Journal.isOf_mk]
    exact beq_eq_false_iff_ne.2 fun h => hne (congrArg some h)
  simp only [Desk.heardOf, List.filter_append, List.filter_replicate, hid]
  simp

theorem Leads.carries_hushed (runId : String) :
    Carries runId fun _ => Leads (·.Like b) (Hushed (some runId)) where
  toCombines := Leads.composes_hushed.toCombines
  before := Leads.before
  consult _ _ h := (Leads.hushed_of_tame .office fun _ _ => rfl).bind h
  deadline _ := .hushed_of_tame (.deadline _) (.of_oblivious (.deadline _))
  added := .hushed_of_tame .added (.of_oblivious .added)
  putAside _ := .hushed_of_tame (.putAside _) (.of_oblivious (.putAside _))
  resultOf s context := .hushed_of_tame (Course.tame_resultOf s context)
    (.of_oblivious (Course.reaches_resultOf Oblivious.reaches s context))
  tell := Leads.hushed_tell runId

end Action

/-! ## Runs and dispatches keep silent of earlier runs -/

namespace Workflow

variable {b : Office} {em : Emitter}

theorem mute_openRun (w : Workflow) (seed : Fields) (triggeredBy : String) :
    (w.openRun seed triggeredBy).Mute := by
  refine (Action.Mute.of_oblivious (Oblivious.reaches.ofExcept _)).bind fun fields =>
    (Action.Mute.of_oblivious .newId).bind fun id =>
      (Action.Mute.of_oblivious .now).bind fun now => ?_
  split
  · exact .change _ _
  · exact .of_oblivious (.fail _)

theorem mute_closeRun (runId : String) (p : Progress) : (closeRun runId p).Mute :=
  (Action.Mute.of_oblivious .now).bind fun _ => (Action.Mute.change _ _).bind fun _ =>
    .of_oblivious (.pure _)

theorem hushed_conduct (hem : ∀ f, Leads (·.Like b) (Hushed none) (em f)) (w : Workflow)
    (runId : String) (seed : Fields) :
    Leads (·.Like b) (Hushed (some runId)) (w.conduct em runId seed) :=
  carries_conduct (Leads.carries_hushed runId)
    (fun c _ s r => (c.leads_log s r).hushed (.of_oblivious (c.oblivious_log s r)))
    (fun f => (hem f).mono Hushed.of_none)
    (fun p => (leads_closeRun runId p).hushed (mute_closeRun runId p)) seed

/-- While a run is carried out, nothing is heard of earlier ones. -/
theorem hushed_run (hem : ∀ f, Leads (·.Like b) (Hushed none) (em f)) (w : Workflow)
    (context : Json) (triggeredBy : String) :
    Leads (·.Like b) (Hushed none) (w.run em context triggeredBy) := by
  refine Leads.bind (Leads.ofExcept _) fun seed o d ho => ?_
  have hmute := w.mute_openRun seed triggeredBy o d
  rw [Action.run_bind]
  rcases hopen : (w.openRun seed triggeredBy).run o d with ⟨ending, m⟩
  rw [hopen] at hmute
  have hheard : ∀ id, m.heardOf id = d.heardOf id := fun id => by
    rw [Desk.heardOf, hmute]
    rfl
  obtain ⟨failure, rfl, hq⟩ | ⟨r, rfl, rfl, hbegun, hnew⟩ := openRun_cases hopen
  · have hgrows : Grows none d m := .of_quiet hq
    exact ⟨hgrows.hasRun, fun id _ _ => hheard id⟩
  · have hgrows : Grows none d (d.next.withRun r) := Desk.grows_withRun hbegun.id
    have hm : Hushed none d (d.next.withRun r) := ⟨hgrows.hasRun, fun id _ _ => hheard id⟩
    exact hm.of_new (fun ⟨old, hold, heq⟩ => hnew old hold heq)
      (hushed_conduct hem w r.id seed o _ ho)

end Workflow

/-- An emitter that minds its own business: it leaves the runs that are there alone, tells nobody of
them, does not turn back time, and does not look at who is told. -/
structure Emitter.Discreet (em : Emitter) : Prop where
  grows : ∀ b f, Leads (·.Like b) (Grows none) (em f)
  precedes : ∀ b f, Leads (·.Like b) Precedes (em f)
  hushed : ∀ b f, Leads (·.Like b) (Hushed none) (em f)
  punctual : ∀ f, (em f).Punctual
  candid : ∀ f, (em f).Candid

namespace Dispatch

theorem hushed_event {b : Office} {em : Emitter}
    (hem : ∀ f, Leads (·.Like b) (Hushed none) (em f)) (ev : Event) :
    Leads (·.Like b) (Hushed none) (event em ev) := by
  have hmark : (Archive.markProcessed ev.id).Mute := by
    refine (Action.Mute.query _ _).bind fun found => ?_
    cases found with
    | none => exact .of_oblivious (.pure _)
    | some _ => exact (Action.Mute.of_oblivious .now).bind fun _ => .change _ _
  have hgrows : Leads (·.Like b) (Grows none) (Archive.markProcessed ev.id) :=
    Archive.leads_markProcessed ev.id
  exact composes_event Leads.composes_hushed (fun w => w.hushed_run hem _ _) (hgrows.hushed hmark)

theorem hushed_emitterFor {b : Office} (settings : Settings) (f : FollowUp) :
    Leads (·.Like b) (Hushed none) (emitterFor settings f) := by
  have hqueue : ∀ f, Leads (·.Like b) (Hushed none) (Emitter.queue f) := by
    intro f
    have hgrows : Leads (·.Like b) (Grows none) (Emitter.queue f) := Emitter.leads_queue f
    exact hgrows.hushed (.of_oblivious (Emitter.oblivious_queue f))
  unfold emitterFor
  split
  · exact composes_inline Leads.composes_hushed hqueue (fun _ => hushed_event) _ f
  · exact hqueue f

theorem precedes_emitterFor {b : Office} (settings : Settings) (f : FollowUp) :
    Leads (·.Like b) Precedes (emitterFor settings f) := by
  unfold emitterFor
  split
  · exact overlooks_inline precedes_queue Desk.precedes_withMark _ _ f
  · exact precedes_queue f

/-- The emitters of the desk mind their own business. -/
theorem discreet_emitterFor (settings : Settings) : (emitterFor settings).Discreet where
  grows _ := grows_emitterFor settings
  precedes _ := precedes_emitterFor settings
  hushed _ := hushed_emitterFor settings
  punctual f := (timely_emitterFor settings f).punctual
  candid := candid_emitterFor settings

end Dispatch

/-- A run that is still to come has no entries. -/
theorem Desk.Fresh.entriesOf_freshId {d : Desk} (h : d.Fresh) :
    d.entriesOf (freshId d.nextId) = [] := by
  refine List.filter_eq_nil_iff.2 fun l hl => ?_
  simpa using (h.logs l hl _ (Nat.le_refl _)).2

/-- A run that is there is there later on. -/
theorem Desk.Precedes.hasRun {d e : Desk} {id : String} (h : d.Precedes e) (hid : d.HasRun id) :
    e.HasRun id := List.mem_map.1 (h.runs.mem (List.mem_map.2 hid))

/-! ## The log of a run, retold -/

/-- What is told of the entry of a log. -/
def RunLog.news (l : RunLog) (more : Fields) : Fields :=
  [("run_id", .string l.runId), ("step_order", .int l.stepOrder), ("step", .string l.stepName)] ++
    more

/-- What observers are told after an entry has got into the log as a row: that the step was skipped
when its guards did not hold, that it failed when the row shows a failure, and else that it was
completed, and then of the event that was emitted for it. -/
inductive Entry.Told (en : Entry) (l : RunLog) : List (String × Fields) → Prop
  | skipped (guards : en.result = none) (unsent : en.emitted = none)
      (status : l.status = .skipped) :
    Told en l [("step_skipped", l.news [])]
  | completed {r : StepResult} (result : en.result = some r) (unsent : en.emitted = none)
      (status : l.status ≠ .failed) :
    Told en l [("step_completed", l.news [("status", .string l.status.word)])]
  | emitted {r : StepResult} (event : Event) (type : String) (entityId : Json)
      (result : en.result = some r) (sent : en.emitted = some event.id)
      (status : l.status ≠ .failed) :
    Told en l [("step_completed", l.news [("status", .string l.status.word)]),
      ("event_emitted", [("run_id", .string l.runId), ("event_id", .string event.id),
        ("event_type", .string type), ("entity_id", entityId)])]
  | failed {r : StepResult} (result : en.result = some r) (unsent : en.emitted = none)
      (status : l.status = .failed) :
    Told en l [("step_failed", l.news [("error", Json.ofText? l.error),
      ("on_error", .string en.step.onFailure.word)])]

/-- An entry in the log of a run, the row that shows it, and what observers are told of it. -/
structure Chapter where
  entry : Entry
  row : RunLog
  told : List (String × Fields)

/-- The chapter is one of a run. -/
structure Chapter.IsOf (id : String) (ch : Chapter) : Prop where
  runId : ch.row.runId = id
  logged : ch.entry.LoggedAs ch.row
  told : ch.entry.Told ch.row ch.told

namespace Course

variable {c : Course} {o : Office} {d e m : Desk} {s : WorkflowStep} {p q : Progress} {v : Verdict}

/-- One observer hears of what is told of a run once. -/
theorem heardOf_of_tell {id event : String} {more : Fields} (ho : o.observers = 1)
    (h : (Action.tell event (("run_id", .string id) :: more)).run o d = (.done (), m)) :
    m.heardOf id = d.heardOf id ++ [(event, ("run_id", .string id) :: more)] := by
  rw [Action.run_tell, ho] at h
  obtain ⟨_, rfl⟩ := Prod.mk.inj h
  have hid : Journal.isOf id (event, ("run_id", .string id) :: more) = true := by
    simp [Journal.isOf_mk]
  simp [Desk.heardOf, List.filter_append, hid]

/-- What is carried out as a part of a run of which it tells nothing is not heard. -/
theorem heardOf_of_part {α : Type} {x : Action α} {result : Except Halt α}
    (hx : Leads (·.Like o) (Hushed none) x) (hr : d.HasRun c.runId)
    (h : (c.part x).run o d = (.done result, m)) : m.heardOf c.runId = d.heardOf c.runId := by
  have hm : m = (x.run (c.under o) d).2 := by rw [← desk_part, h]
  rw [hm]
  exact (hx _ d (like_under (.refl o))).heard _ hr (by simp)

/-- Nothing is heard while a step is performed. -/
theorem heardOf_of_perform {performed : Except Halt (Option StepResult) × List Json}
    (hr : d.HasRun c.runId) (h : (c.perform s p.context).run o d = (.done performed, m)) :
    m.heardOf c.runId = d.heardOf c.runId := by
  have hmute : (resultOf s p.context).Mute :=
    .of_oblivious (reaches_resultOf Oblivious.reaches s p.context)
  exact heardOf_of_part (d := { d with added := [] })
    (.hushed_of_tame (tame_resultOf s p.context) hmute) hr (perform_eq_done.1 h).1

/-- What is told of a step whose result is in the log. -/
theorem told_of_settle (hem : c.emitter.Discreet) (ho : o.observers = 1) (hr : d.HasRun c.runId)
    {r : StepResult} (hsound : r.Sound) (seen : Fields) (added : List Json)
    (h : (c.settle s r p).run o d = (.done (q, v), e)) :
    ∃ (emitted : Option String) (told : List (String × Fields)),
      (∀ m, Entry.Told ⟨s, seen, some r, emitted, added⟩ (Store.storedLog (c.entry s r m)) told) ∧
      q.emitted = p.emitted ++ emitted.toList ∧
      e.heardOf c.runId = d.heardOf c.runId ++ told := by
  unfold settle at h
  split at h
  · rename_i hs
    obtain ⟨⟨⟩, m, htold, h⟩ := Action.run_bind_eq_done.1 h
    have hm := heardOf_of_tell ho htold
    have hrm : m.HasRun c.runId := by
      rw [tell, Action.run_tell] at htold
      obtain ⟨_, rfl⟩ := Prod.mk.inj htold
      exact hr
    dsimp only at h
    split at h
    · simp only [Action.run_pure, Prod.mk.injEq, Ending.done.injEq] at h
      obtain ⟨⟨rfl, rfl⟩, rfl⟩ := h
      exact ⟨none, _, fun m => .completed rfl rfl (hsound.notFailed hs), by simp [Progress.succeed],
        hm⟩
    · rename_i em hemit
      obtain ⟨sent, m', hsent, h⟩ := Action.run_bind_eq_done.1 h
      have hemission : ∀ context, Leads (·.Like o) (Hushed none) (c.emit context em) :=
        fun context => Leads.bind (Leads.ofExcept _) fun f =>
          Leads.bind (hem.hushed o f) fun _ => Leads.pure _
      have hm' := heardOf_of_part (hemission _) hrm hsent
      split at h
      · simp only [Action.run_pure, Prod.mk.injEq, Ending.done.injEq] at h
        obtain ⟨⟨rfl, rfl⟩, rfl⟩ := h
        exact ⟨none, _, fun m => .completed rfl rfl (hsound.notFailed hs),
          by simp [Progress.succeed], hm'.trans hm⟩
      · rename_i f event
        obtain ⟨⟨⟩, m'', htold', h⟩ := Action.run_bind_eq_done.1 h
        simp only [Action.run_pure, Prod.mk.injEq, Ending.done.injEq] at h
        obtain ⟨⟨rfl, rfl⟩, rfl⟩ := h
        have hheard := heardOf_of_tell ho htold'
        rw [hm', hm, List.append_assoc] at hheard
        exact ⟨some event.id, _, fun m => .emitted event f.type f.entityId rfl rfl
          (hsound.notFailed hs), rfl, hheard⟩
  · rename_i hs
    obtain ⟨⟨⟩, m, htold, h⟩ := Action.run_bind_eq_done.1 h
    have hfailed : r.logStatus = .failed := by simp [StepResult.logStatus, hs]
    have hq : q.emitted = p.emitted ∧ m = e := by
      split at h <;> simp only [Action.run_pure, Prod.mk.injEq, Ending.done.injEq] at h <;>
        exact ⟨by rw [← h.1.1]; rfl, h.2⟩
    exact ⟨none, _, fun m => .failed rfl rfl hfailed, by simpa using hq.1,
      hq.2 ▸ heardOf_of_tell ho htold⟩

/-- What some steps of a run, from a desk and some progress on, have left in its log and told of it,
chapter by chapter. -/
structure Retold (c : Course) (o : Office) (ss : List WorkflowStep) (p : Progress) (d : Desk)
    (q : Progress) (e : Desk) (chs : List Chapter) : Prop where
  isOf : ∀ ch ∈ chs, ch.IsOf c.runId
  steps : chs.map (·.entry.step) <+: ss
  arose : ∀ (i : Nat) (ch : Chapter), chs[i]? = some ch →
    ch.entry.AroseAfter (ss.take i) c p o d
  rows : e.entriesOf c.runId = d.entriesOf c.runId ++ chs.map Chapter.row
  heard : e.heardOf c.runId = d.heardOf c.runId ++ chs.flatMap Chapter.told
  emitted : q.emitted = p.emitted ++ chs.filterMap (·.entry.emitted)
  ascending : d.ClockKeepsOn → chs.Pairwise (·.row.executedAt.wall ≤ ·.row.executedAt.wall)
  times : ∀ ch ∈ chs, ∃ moment, d.clock ≤ moment ∧ moment < e.clock ∧
    ch.row.executedAt.wall = d.dial moment

/-- Steps that leave nothing behind. -/
theorem Retold.nil {ss : List WorkflowStep} (hrows : e.entriesOf c.runId = d.entriesOf c.runId)
    (hheard : e.heardOf c.runId = d.heardOf c.runId) (hemitted : q.emitted = p.emitted) :
    c.Retold o ss p d q e [] where
  isOf := by simp
  steps := List.nil_prefix
  arose := by simp
  rows := by simp [hrows]
  heard := by simp [hheard]
  emitted := by simp [hemitted]
  ascending _ := .nil
  times := by simp

/-- A step that leaves one chapter: its entry is in the log from the desk `m` on. -/
theorem Retold.one {ch : Chapter} (hof : ch.IsOf c.runId) (harose : ch.entry.AroseAfter [] c p o d)
    (hm : d.Quiet m) (hheard : m.heardOf c.runId = d.heardOf c.runId)
    (htime : ch.row.executedAt.wall = m.dial m.clock)
    (hgrows : Grows none (m.next.withLog ch.row) e) (hr : m.HasRun c.runId)
    (hclock : m.next.clock ≤ e.clock) (htold : e.heardOf c.runId = m.heardOf c.runId ++ ch.told)
    (hemitted : q.emitted = p.emitted ++ ch.entry.emitted.toList) :
    c.Retold o [ch.entry.step] p d q e [ch] where
  isOf := by simpa using hof
  steps := List.prefix_rfl
  arose i ch' hi := by
    obtain ⟨rfl, rfl⟩ : i = 0 ∧ ch = ch' := by
      cases i <;> simp_all
    exact harose
  rows := by
    have hrows : m.entriesOf c.runId = d.entriesOf c.runId := by
      simp only [Desk.entriesOf, hm.logs]
    rw [hgrows.logs c.runId hr (by simp), entriesOf_withLog hof.runId, List.map_singleton, ← hrows]
    rfl
  heard := by rw [htold, hheard]; simp
  emitted := by rw [hemitted]; cases hsent : ch.entry.emitted <;> simp [hsent]
  ascending _ := List.pairwise_singleton _ _
  times := by
    simp only [List.mem_singleton, forall_eq]
    exact ⟨m.clock, hm.clock, Int.lt_of_lt_of_le (Int.lt_succ _) hclock, by rw [htime, hm.dial]⟩

/-- The chapter of one step, and those of the steps that follow. -/
theorem Retold.cons {rest : List WorkflowStep} {p' : Progress} {ch : Chapter} {chs : List Chapter}
    (h : c.Retold o [s] p d p' m [ch]) (hnext : (c.step s p).run o d = (.done (p', .next), m))
    (hrest : c.Retold o rest p' m q e chs) (hfirst : d.Precedes m) (hlater : m.Precedes e) :
    c.Retold o (s :: rest) p d q e (ch :: chs) where
  isOf ch' hch' := by
    rcases List.mem_cons.1 hch' with rfl | hch'
    · exact h.isOf _ List.mem_cons_self
    · exact hrest.isOf _ hch'
  steps := List.cons_prefix_cons.2 ⟨(List.cons_prefix_cons.1 h.steps).1, hrest.steps⟩
  arose i ch' hi := by
    cases i with
    | zero => exact h.arose 0 ch' hi
    | succ i => exact begunAfter_cons hnext (hrest.arose i ch' hi)
  rows := by rw [hrest.rows, h.rows]; simp
  heard := by rw [hrest.heard, h.heard]; simp
  emitted := by
    rw [hrest.emitted, h.emitted, List.append_assoc, ← List.filterMap_append]
    rfl
  ascending hdial := by
    refine List.pairwise_cons.2 ⟨fun ch' hch' => ?_, hrest.ascending (hdial.of_dial_eq hfirst.dial)⟩
    obtain ⟨moment, -, hlast, hwall⟩ := h.times _ List.mem_cons_self
    obtain ⟨moment', hnext, -, hwall'⟩ := hrest.times _ hch'
    rw [hwall, hwall', hfirst.dial]
    exact hdial (Int.le_of_lt (Int.lt_of_lt_of_le hlast hnext))
  times ch' hch' := by
    rcases List.mem_cons.1 hch' with rfl | hch'
    · obtain ⟨moment, hopened, hlast, hwall⟩ := h.times _ List.mem_cons_self
      exact ⟨moment, hopened, Int.lt_of_lt_of_le hlast hlater.clock, hwall⟩
    · obtain ⟨moment, hopened, hlast, hwall⟩ := hrest.times _ hch'
      exact ⟨moment, Int.le_trans hfirst.clock hopened, hlast, by rw [hwall, hfirst.dial]⟩

/-- A step whose guards do not hold leaves one chapter once that is in the log. -/
theorem retold_skipped (ho : o.observers = 1) (hr : m.HasRun c.runId) (hquiet : d.Quiet m)
    (hheard : m.heardOf c.runId = d.heardOf c.runId)
    (hres : (resultOf s p.context).run (c.under o) { d with added := [] } = (.done none, m))
    (h : (c.tell "step_skipped" s []).run o
      (m.next.withLog (Store.storedLog (c.entry s (.skip skipReason) m))) = (.done (), e)) :
    ∃ ch, c.Retold o [s] p d p e [ch] := by
  let en : Entry := ⟨s, p.context, none, none, m.added⟩
  let row := Store.storedLog (c.entry s (.skip skipReason) m)
  have hof : Chapter.IsOf c.runId ⟨en, row, [("step_skipped", row.news [])]⟩ :=
    ⟨rfl, loggedAs_entry en c m, .skipped rfl rfl rfl⟩
  have hq := (Tame.tell _ _).quiet_of_run h
  have htold : e.heardOf c.runId = (m.next.withLog row).heardOf c.runId ++ _ := heardOf_of_tell ho h
  exact ⟨_, .one hof ⟨_, _, _, rfl, rfl, hres, rfl⟩ hquiet hheard rfl (.of_quiet hq) hr hq.clock
    htold
    (by simp [en])⟩

/-- A step that has a result leaves one chapter once that is in the log. -/
theorem retold_settled {r : StepResult} (hem : c.emitter.Discreet) (ho : o.observers = 1)
    (hr : m.HasRun c.runId) (hquiet : d.Quiet m) (hheard : m.heardOf c.runId = d.heardOf c.runId)
    (hres : (resultOf s p.context).run (c.under o) { d with added := [] } = (.done (some r), m))
    {p' : Progress} (hp' : p'.emitted = p.emitted)
    (h : (c.settle s r p').run o (m.next.withLog (Store.storedLog (c.entry s r m))) =
      (.done (q, v), e)) :
    ∃ ch, c.Retold o [s] p d q e [ch] := by
  let row := Store.storedLog (c.entry s r m)
  have hrow : (m.next.withLog row).HasRun c.runId := hr
  obtain ⟨emitted, told, htold, hq, hh⟩ :=
    told_of_settle hem ho hrow (sound_of_resultOf hres) p.context m.added h
  have hgrows : Grows none (m.next.withLog row) e := by
    have hall := leads_settle (R := Grows none) (hem.grows o) s r p' o
      (m.next.withLog row) (.refl o)
    rwa [h] at hall
  have hclock : (m.next.withLog row).clock ≤ e.clock := by
    have hall := leads_settle (R := Precedes) (hem.precedes o) s r p' o
      (m.next.withLog row) (.refl o)
    rw [h] at hall
    exact hall.clock
  let en : Entry := ⟨s, p.context, some r, emitted, m.added⟩
  have hof : Chapter.IsOf c.runId ⟨en, row, told⟩ := ⟨rfl, loggedAs_entry en c m, htold m⟩
  exact ⟨_, .one hof ⟨_, _, _, rfl, rfl, hres, rfl⟩ hquiet hheard rfl hgrows hr hclock hh
    (by rw [hq, hp'])⟩

/-- A step either leaves nothing behind and halts its run, or leaves one chapter. -/
theorem retold_step (hem : c.emitter.Discreet) (ho : o.observers = 1) (hr : d.HasRun c.runId)
    (h : (c.step s p).run o d = (.done (q, v), e)) :
    (∃ halt, v = .halted halt) ∧ c.Retold o [s] p d q e [] ∨
      ∃ ch, c.Retold o [s] p d q e [ch] := by
  obtain ⟨⟨result, added⟩, m, hperformed, h⟩ := Action.run_bind_eq_done.1 h
  have hquiet : d.Quiet m := (tame_perform _ _ _).quiet_of_run hperformed
  have hheard : m.heardOf c.runId = d.heardOf c.runId := heardOf_of_perform hr hperformed
  obtain ⟨hres, hadded⟩ := perform_eq_done.1 hperformed
  have hrows : m.entriesOf c.runId = d.entriesOf c.runId := by
    simp only [Desk.entriesOf, hquiet.logs]
  have hrm : m.HasRun c.runId := by
    obtain ⟨r, hmem, hid⟩ := hr
    exact ⟨r, hquiet.runs ▸ hmem, hid⟩
  split at h
  · -- the step came to no result
    obtain ⟨heq, rfl⟩ := Action.run_pure_eq_done.1 h
    obtain ⟨rfl, rfl⟩ := Prod.mk.inj heq
    exact .inl ⟨⟨_, rfl⟩, .nil hrows hheard rfl⟩
  · -- its guards did not hold
    rename_i heq
    obtain ⟨rfl, rfl⟩ := Prod.mk.inj heq
    obtain ⟨logged, m', hlog, h⟩ := Action.run_bind_eq_done.1 h
    obtain ⟨rfl, rfl⟩ | ⟨halt, failure, rfl, rfl, _⟩ := part_log_cases hlog
    · obtain ⟨⟨⟩, m'', htold, h⟩ := Action.run_bind_eq_done.1 h
      obtain ⟨heq, rfl⟩ := Action.run_pure_eq_done.1 h
      obtain ⟨rfl, rfl⟩ := Prod.mk.inj heq
      exact .inr (retold_skipped ho hrm hquiet hheard (part_eq_ok hres) htold)
    · obtain ⟨heq, rfl⟩ := Action.run_pure_eq_done.1 h
      obtain ⟨rfl, rfl⟩ := Prod.mk.inj heq
      exact .inl ⟨⟨_, rfl⟩, .nil hrows hheard rfl⟩
  · -- it has a result
    rename_i r _ heq
    obtain ⟨rfl, rfl⟩ := Prod.mk.inj heq
    have hcount : ((p.lengthen (s.subject? (.object p.context)) added).count r).emitted =
        p.emitted := Progress.emitted_count _ r
    obtain ⟨logged, m', hlog, h⟩ := Action.run_bind_eq_done.1 h
    obtain ⟨rfl, rfl⟩ | ⟨halt, failure, rfl, rfl, _⟩ := part_log_cases hlog
    · exact .inr (retold_settled hem ho hrm hquiet hheard (part_eq_ok hres) hcount h)
    · obtain ⟨heq, rfl⟩ := Action.run_pure_eq_done.1 h
      obtain ⟨rfl, rfl⟩ := Prod.mk.inj heq
      exact .inl ⟨⟨_, rfl⟩, .nil hrows hheard hcount⟩

/-- The steps of a run are retold chapter by chapter. -/
theorem retold_steps (hem : c.emitter.Discreet) (ho : o.observers = 1) (ss : List WorkflowStep) :
    ∀ {p q : Progress} {halt : Option Halt} {d e : Desk}, d.HasRun c.runId →
      (c.steps ss p).run o d = (.done (q, halt), e) → ∃ chs, c.Retold o ss p d q e chs := by
  induction ss with
  | nil =>
    intro p q halt d e _ h
    simp only [steps, Action.run_pure, Prod.mk.injEq, Ending.done.injEq] at h
    obtain ⟨⟨rfl, _⟩, rfl⟩ := h
    exact ⟨[], .nil rfl rfl rfl⟩
  | cons s rest ih =>
    intro p q halt d e hr h
    have hafter : ∀ (p' : Progress) (m : Desk), m.Precedes ((c.steps rest p').run o m).2 :=
      fun p' m => leads_steps (R := Precedes) c.overlooks_log (hem.precedes o) rest p' o m (.refl o)
    have hstep := leads_step (R := Precedes) c.overlooks_log (hem.precedes o) s p o d (.refl o)
    obtain ⟨⟨p', v⟩, m, hs, h⟩ := Action.run_bind_eq_done.1 h
    rw [hs] at hstep
    have hrm : m.HasRun c.runId := hstep.hasRun hr
    obtain ⟨⟨halt', rfl⟩, hnil⟩ | ⟨ch, hone⟩ := retold_step hem ho hr hs
    · simp only [Action.run_pure, Prod.mk.injEq, Ending.done.injEq] at h
      obtain ⟨⟨rfl, _⟩, rfl⟩ := h
      exact ⟨[], .nil (by simpa using hnil.rows) (by simpa using hnil.heard)
        (by simpa using hnil.emitted)⟩
    · have hlast : c.Retold o (s :: rest) p d p' m [ch] :=
        { hone with
          steps := hone.steps.trans (List.cons_prefix_cons.2 ⟨rfl, List.nil_prefix⟩)
          arose := fun i ch' hi => by
            obtain ⟨rfl, rfl⟩ : i = 0 ∧ ch = ch' := by
              cases i <;> simp_all
            exact hone.arose 0 ch rfl }
      rcases v with _ | _ | _
      · obtain ⟨chs, hchs⟩ := ih hrm h
        have hlater := hafter p' m
        rw [h] at hlater
        exact ⟨ch :: chs, .cons hone hs hchs hstep hlater⟩
      · -- the run is over
        simp only [Action.run_pure, Prod.mk.injEq, Ending.done.injEq] at h
        obtain ⟨⟨rfl, _⟩, rfl⟩ := h
        exact ⟨[ch], hlast⟩
      · -- the run is halted
        simp only [Action.run_pure, Prod.mk.injEq, Ending.done.injEq] at h
        obtain ⟨⟨rfl, _⟩, rfl⟩ := h
        exact ⟨[ch], hlast⟩

/-- Chapters of steps in their order are in the order of the log, unless the clock goes back. -/
theorem Retold.mergeSort_rows {w : Workflow} {chs : List Chapter}
    (h : c.Retold o w.orderedSteps p d q e chs) (hdial : d.ClockKeepsOn) :
    (chs.map Chapter.row).mergeSort Store.loggedBefore = chs.map Chapter.row := by
  have hsteps : (chs.map (·.entry.step)).Pairwise (·.order ≤ ·.order) :=
    w.orderedSteps_ascending.sublist h.steps.sublist
  have horders := List.pairwise_map.1 hsteps
  have hrows : ∀ ch ∈ chs, ch.row.stepOrder = ch.entry.step.order := fun ch hch =>
    (h.isOf ch hch).logged.stepOrder
  refine List.mergeSort_of_pairwise (List.pairwise_map.2 ?_)
  refine (horders.and (h.ascending hdial)).imp_of_mem fun {a b} ha hb hab => ?_
  unfold Store.loggedBefore
  rw [hrows a ha, hrows b hb]
  split <;> simp only [decide_eq_true_eq] <;> omega

end Course

namespace Workflow

/-- What observers are told when a run starts. -/
def startNews (w : Workflow) (runId : String) : Fields :=
  [("run_id", .string runId), ("workflow", .string w.slug), ("steps", .int w.steps.length)]

/-- What observers are told when a run has finished. -/
def finishNews (w : Workflow) (runId : String) (out : RunOutcome) : Fields :=
  [("run_id", .string runId), ("workflow", .string w.slug), ("status", .string out.status.word),
    ("steps_executed", .int out.stepsExecuted), ("error", Json.ofText? out.error)]

/-- What was told while a run came to its outcome mirrors its log: it has started, then one chapter
for each row of the log, and it has finished. Read by the orders of the steps and the times of the
rows, the log has the order in which it was written unless the clock has gone back. -/
structure Mirror (w : Workflow) (em : Emitter) (context : Json) (triggeredBy : String) (o : Office)
    (d e : Desk) (out : RunOutcome) (told : List (String × Fields)) where
  seed : Fields
  start : startContext context = .ok seed
  course : Course
  emitter : course.emitter = em
  runId : out.runId = some course.runId
  /-- The desk from which the steps were carried out. -/
  opened : Desk
  opening : (do
    let r ← w.openRun seed triggeredBy
    Action.tell "run_started" (w.startNews r.id)).run o d = (.done (), opened)
  chapters : List Chapter
  isOf : ∀ ch ∈ chapters, ch.IsOf course.runId
  arose : ∀ (i : Nat) (ch : Chapter), chapters[i]? = some ch →
    ch.entry.AroseAfter (w.orderedSteps.take i) course { context := seed } o opened
  rows : e.entriesOf course.runId = chapters.map Chapter.row
  log : d.ClockKeepsOn → e.store.logsOf course.runId = chapters.map Chapter.row
  told : told.filter (Journal.isOf course.runId) =
    ("run_started", w.startNews course.runId) :: chapters.flatMap Chapter.told ++
      [("run_finished", w.finishNews course.runId out)]
  emitted : out.emitted = chapters.filterMap (·.entry.emitted)

variable {w : Workflow} {em : Emitter} {context : Json} {triggeredBy : String} {o : Office}
  {d e : Desk} {out : RunOutcome} {told : List (String × Fields)}

/-- The steps of a run are retold, none of them if it is out of time from the start. -/
theorem exists_retold {runId : String} {seed : Fields} {p : Progress} (hem : em.Discreet)
    (ho : o.observers = 1) (hr : d.HasRun runId)
    (h : (w.carryOut em runId seed).run o d = (.done p, e)) :
    ∃ (c : Course) (q : Progress) (halt : Option Halt) (chs : List Chapter), c.runId = runId ∧
      c.emitter = em ∧ p = ended o.limit (q, halt) ∧
      c.Retold o w.orderedSteps { context := seed } d q e chs := by
  obtain ⟨rfl, rfl⟩ | ⟨c, ⟨q, halt⟩, hid, rfl, hsteps, rfl⟩ := run_carryOut_eq_done h
  · let c : Course := { runId := runId, slug := w.slug, deadline := 0, emitter := em }
    exact ⟨c, _, _, [], rfl, rfl, rfl, .nil rfl rfl rfl⟩
  · obtain ⟨chs, hchs⟩ := Course.retold_steps hem ho w.orderedSteps (hid ▸ hr) hsteps
    exact ⟨c, q, halt, chs, hid, rfl, rfl, hchs⟩

/-- One observer hears what mirrors the log of the run. -/
theorem exists_mirror_of_one (hem : em.Discreet) (ho : o.observers = 1) (hf : d.Fresh)
    (h : (w.run em context triggeredBy).run o d = (.done out, e))
    (htold : e.journal.callbacks = d.journal.callbacks ++ told) :
    Nonempty (w.Mirror em context triggeredBy o d e out told) := by
  obtain ⟨seed, m, hstart, h⟩ := Action.run_bind_eq_done.1 h
  obtain ⟨hseed, rfl⟩ := Action.run_ofExcept_eq_done.1 hstart
  obtain ⟨r, m, hopen, h⟩ := Action.run_bind_eq_done.1 h
  obtain ⟨⟨⟩, m₁, hstarted, h⟩ := Action.run_bind_eq_done.1 h
  obtain ⟨p, m₂, hcarry, h⟩ := Action.run_bind_eq_done.1 h
  obtain ⟨⟨⟩, m₃, hclose, h⟩ := Action.run_bind_eq_done.1 h
  obtain ⟨⟨⟩, m₄, hfinished, h⟩ := Action.run_bind_eq_done.1 h
  obtain ⟨rfl, rfl⟩ := Action.run_pure_eq_done.1 h
  obtain ⟨_, hfail, _⟩ | ⟨stored, hr, rfl, hbegun, _⟩ := openRun_cases hopen
  · simp at hfail
  have hid : r.id = freshId d.nextId := by
    rw [Ending.done.inj hr]
    exact hbegun.id
  have hstarts := Course.heardOf_of_tell ho hstarted
  have hq₁ := (Tame.tell _ _).quiet_of_run hstarted
  have hrun : m₁.HasRun r.id := by
    rw [Ending.done.inj hr]
    exact ⟨stored, hq₁.runs ▸ List.mem_append_right _ (List.mem_singleton_self _), rfl⟩
  obtain ⟨c, q, halt, chs, hcid, hcem, rfl, hret⟩ := exists_retold hem ho hrun hcarry
  obtain ⟨_, hfail, _⟩ | ⟨_, rfl⟩ := closeRun_cases hclose
  · simp at hfail
  have hfinishes := Course.heardOf_of_tell ho hfinished
  have hq₄ := (Tame.tell _ _).quiet_of_run hfinished
  have hentries : m₄.entriesOf c.runId = chs.map Chapter.row := by
    have hnone : d.entriesOf c.runId = [] := by rw [hcid, hid, hf.entriesOf_freshId]
    have h₁ : m₁.entriesOf c.runId = d.entriesOf c.runId := by
      simp only [Desk.entriesOf, hq₁.logs]
      rfl
    have h₄ : m₄.entriesOf c.runId = m₂.entriesOf c.runId := by
      simp only [Desk.entriesOf, hq₄.logs]
      rfl
    rw [h₄, hret.rows, h₁, hnone, List.nil_append]
  have hheard : m₄.heardOf c.runId = d.heardOf c.runId ++
      (("run_started", w.startNews c.runId) :: chs.flatMap Chapter.told ++ [("run_finished",
        w.finishNews c.runId (w.outcome c.runId (ended o.limit (q, halt))))]) := by
    rw [hcid, hfinishes]
    have h₂ : m₂.heardOf r.id = m₁.heardOf r.id ++ chs.flatMap Chapter.told := hcid ▸ hret.heard
    show m₂.heardOf r.id ++ _ = _
    rw [h₂, hstarts]
    simp only [List.append_assoc, List.cons_append, List.nil_append]
    rfl
  exact ⟨{
    seed := seed, start := hseed, course := c, emitter := hcem
    runId := congrArg some hcid.symm
    opened := m₁
    opening := Action.run_bind_eq_done.2 ⟨_, _, hopen, hstarted⟩
    chapters := chs, isOf := hret.isOf, arose := hret.arose
    rows := hentries
    log := fun hdial => (congrArg (List.mergeSort · Store.loggedBefore) hentries).trans
      (hret.mergeSort_rows (hdial.of_dial_eq hq₁.dial))
    told := by
      rw [Desk.heardOf, htold, List.filter_append] at hheard
      rw [List.append_cancel_left hheard, hcid]
    emitted := by
      have hemitted := hret.emitted
      rw [← emitted_ended o.limit (q, halt)] at hemitted
      exact hemitted }⟩

theorem candid_steps {c : Course} (hem : c.emitter.Discreet) (ss : List WorkflowStep)
    (p : Progress) : (c.steps ss p).Candid :=
  Course.carries_steps (Action.Concurs.carries _) (fun s r => .of_oblivious (c.oblivious_log s r))
    hem.candid ss p

/-- What a step came to under other observers it comes to. -/
theorem aroseAfter_of_heardBy {en : Entry} {before : List WorkflowStep} {c : Course} {p : Progress}
    {observers : Nat} {reaction : Nat → String → Fields → Except Failure Unit}
    {callbacks : List (String × Fields)} (hem : c.emitter.Discreet)
    (h : en.AroseAfter before c p (o.heardBy observers reaction) (d.withCallbacks callbacks)) :
    en.AroseAfter before c p o d := by
  obtain ⟨q, m, m', hsteps, hseen, hres, hadded⟩ := h
  obtain ⟨m₀, callbacks', hsteps₀, rfl⟩ := (candid_steps hem before p).run_of_heardBy hsteps
  have hres : (Course.resultOf en.step en.seen).run ((c.under o).heardBy observers reaction)
    (Desk.withCallbacks { m₀ with added := [] } callbacks') = _ := hres
  have hcandid : (Course.resultOf en.step en.seen).Candid :=
    .of_oblivious (Course.reaches_resultOf Oblivious.reaches en.step en.seen)
  obtain ⟨m₁, _, hres₀, rfl⟩ := hcandid.run_of_heardBy hres
  exact ⟨q, m₀, m₁, hsteps₀, hseen, hres₀, hadded⟩

/-- What mirrors the log of a run for other observers mirrors it. -/
theorem Mirror.of_heardBy {observers : Nat}
    {reaction : Nat → String → Fields → Except Failure Unit} {callbacks : List (String × Fields)}
    (hem : em.Discreet)
    (M : w.Mirror em context triggeredBy (o.heardBy observers reaction) d
      (e.withCallbacks callbacks) out told) :
    Nonempty (w.Mirror em context triggeredBy o d e out told) := by
  have hcandid : (do
      let r ← w.openRun M.seed triggeredBy
      Action.tell "run_started" (w.startNews r.id)).Candid :=
    (w.candid_openRun M.seed triggeredBy).bind fun r => .tell _ _
  have hopening : (do
      let r ← w.openRun M.seed triggeredBy
      Action.tell "run_started" (w.startNews r.id)).run (o.heardBy observers reaction)
        (d.withCallbacks d.journal.callbacks) = (.done (), M.opened) := M.opening
  obtain ⟨opened, callbacks', hopening, hopened⟩ := hcandid.run_of_heardBy hopening
  have harose := hopened ▸ M.arose
  have hcem : M.course.emitter.Discreet := M.emitter.symm ▸ hem
  exact ⟨{
    seed := M.seed, start := M.start, course := M.course, emitter := M.emitter, runId := M.runId
    opened := opened, opening := hopening, chapters := M.chapters, isOf := M.isOf
    arose := fun i ch hi => aroseAfter_of_heardBy hcem (harose i ch hi)
    rows := M.rows, log := M.log, told := M.told, emitted := M.emitted }⟩

/-- Whoever observes runs, and whether observers fail or not, a run fails before it has a record and
nobody is told of it, or it comes to one and the same outcome and one and the same desk but for what
was told: and that mirrors its log. -/
theorem mirror_of_run (hem : em.Discreet) (ho : o.deadlines = [])
    (hw : Action.faultOf o "update_run" = none) (hf : d.Fresh) (w : Workflow) (context : Json)
    (triggeredBy : String) :
    (∃ failure e, d.Quiet e ∧ ∀ observers reaction,
      (w.run em context triggeredBy).run (o.heardBy observers reaction) d = (.failed failure, e)) ∨
    ∃ out e told, (∀ observers reaction,
        (w.run em context triggeredBy).run (o.heardBy observers reaction) d =
          (.done out, e.withCallbacks (d.journal.callbacks ++ Journal.heard observers told))) ∧
      Nonempty (w.Mirror em context triggeredBy o d e out told) := by
  cases hs : startContext context with
  | error failure =>
    refine .inl ⟨failure, d, Desk.Quiet.refl d, fun observers reaction => ?_⟩
    rw [run, hs]
    rfl
  | ok seed =>
    rcases hopen : (w.openRun seed triggeredBy).run o d with ⟨ending, m⟩
    obtain ⟨failure, rfl, hq⟩ | ⟨r, rfl, _⟩ := openRun_cases hopen
    · refine .inl ⟨failure, m, hq, fun observers reaction => ?_⟩
      have hsame := (w.mute_openRun seed triggeredBy).run_heardBy
        (w.candid_openRun seed triggeredBy) o d observers reaction
      rw [run, hs]
      exact (Action.run_bind_of_done rfl).trans (Action.run_bind_of_failed (hsame.trans hopen))
    · obtain ⟨out, e, hrun⟩ := exists_outcome hem.punctual ho hw hs ⟨_, congrArg Prod.fst hopen⟩
      obtain ⟨told, _, hall⟩ := (w.candid_run hem.candid context triggeredBy).exists_told o d
      rw [hrun] at hall
      have hone := hall 1 o.reaction d.journal.callbacks
      rw [Journal.heard_one] at hone
      obtain ⟨M⟩ := exists_mirror_of_one hem rfl hf hone rfl
      exact .inr ⟨out, e, told, fun observers reaction => hall observers reaction _,
        M.of_heardBy hem⟩

/-- Whoever observes it, a first run comes to its outcome, and what is told mirrors its log. -/
theorem mirror_of_run_askThenCall :
    ∃ out e told, (∀ observers reaction,
        (askThenCall.run (Dispatch.emitterFor {}) (.object []) "manual").run
            (({} : Office).heardBy observers reaction) {} =
          (.done out, e.withCallbacks (Journal.heard observers told))) ∧
      Nonempty (askThenCall.Mirror (Dispatch.emitterFor {}) (.object []) "manual" {} {} e out
        told) := by
  have hf : Desk.Fresh {} := ⟨by simp, by simp⟩
  obtain ⟨failure, e, _, hall⟩ | ⟨out, e, told, hall, hmirror⟩ :=
    mirror_of_run (o := {}) (Dispatch.discreet_emitterFor {}) rfl rfl hf askThenCall (.object [])
      "manual"
  · obtain ⟨out, e', h⟩ := exists_outcome_askThenCall
    exact absurd (h.symm.trans (hall 1 fun _ _ _ => .ok ())) (by simp)
  · exact ⟨out, e, told, hall, hmirror⟩

/-- Where the record of a run cannot be closed, an observer hears that the run has started and never
that it has finished. -/
theorem told_of_unclosed :
    let empty : Workflow := { id := "w", slug := "empty", name := "Empty", trigger := "asked" }
    let o : Office := { faults := [("update_run", "boom")] }
    let after := ((empty.run (Dispatch.emitterFor {}) (.object []) "manual").run o {}).2
    after.journal.callbacks.map Prod.fst = ["run_started"] := by
  decide +kernel

end Workflow

end LeadDesk
