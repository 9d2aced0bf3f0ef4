import LeadDesk.Proofs.Endings
import LeadDesk.Proofs.Story
/-!
# How a run comes to its outcome

Every run that comes to an outcome has an account: the story of its steps, the rows that its log
got, and the record that it left (`Workflow.exists_account`). A run that is halted is halted for a
reason that its error names.
-/

namespace LeadDesk

open LeadDesk.Action (Leads Tame)
open Desk (Grows)

/-! ## How a run is halted -/

/-- The error of a run that halts so says something. -/
def Halt.IsNamed : Halt → Prop
  | late => True
  | broken failure => failure.kind ≠ ""

theorem Halt.IsNamed.message_ne {halt : Halt} (h : halt.IsNamed) (limit : Limit) :
    halt.message limit ≠ "" := by
  cases halt with
  | late =>
    intro hm
    exact absurd (String.append_eq_empty_iff.1 hm).2 (by decide)
  | broken failure => exact failure.text_ne_empty h

theorem Store.isOwn_addLog {store : Store} {l : RunLog} {e : Failure}
    (h : store.addLog l = .error e) : e.IsOwn := by
  have hc : ∀ n e, Store.checkInteger n = .error e → e.IsOwn := by
    intro n e h
    unfold checkInteger at h
    split at h
    · simp at h
    · simp only [Except.error.injEq] at h
      exact h ▸ trivial
  unfold addLog at h
  split at h
  · rename_i failure hf
    simp only [Except.error.injEq] at h
    subst h
    unfold checkLog at hf
    cases ho : checkInteger l.stepOrder with
    | error failure' =>
      simp only [ho, bind, Except.bind, Except.error.injEq] at hf
      exact hf ▸ hc _ _ ho
    | ok _ =>
      simp only [ho, bind, Except.bind] at hf
      split at hf
      · exact hc _ _ hf
      · simp [pure, Except.pure] at hf
  · split at h
    · simp only [Except.error.injEq] at h
      exact h ▸ trivial
    · simp at h

namespace Course

theorem isNamed_haltOf {failure : Failure} (h : failure.kind ≠ "") : (haltOf failure).IsNamed := by
  unfold haltOf
  split
  · trivial
  · exact h

/-- A part whose failures are named halts its run for a reason that says something. -/
theorem yields_part {α : Type} (c : Course) {x : Action α} (hx : x.Named) :
    (c.part x).Yields fun result => ∀ halt, result = .error halt → halt.IsNamed := by
  intro o d result h halt hres
  subst hres
  rcases hm : (c.part x).run o d with ⟨ending, m⟩
  rw [hm] at h
  subst h
  obtain ⟨attempted, m', ha, h⟩ := Action.run_bind_eq_done.1 hm
  split at h
  · simp at h
  · simp only [Action.run_pure, Prod.mk.injEq, Ending.done.injEq, Except.error.injEq] at h
    exact h.1 ▸ trivial
  · rename_i failure
    simp only [Action.run_pure, Prod.mk.injEq, Ending.done.injEq, Except.error.injEq] at h
    have hf := (hx.before c.deadline) o d failure (by rw [Action.run_attempt_eq_error.1 ha])
    exact h.1 ▸ isNamed_haltOf hf

theorem named_log (c : Course) (s : WorkflowStep) (r : StepResult) : (c.log s r).Named := by
  refine Action.Named.newId.bind fun id => Action.Named.now.bind fun now => ?_
  refine .change _ fun store e h => Failure.IsOwn.kind_ne ?_
  generalize RunLog.mk .. = l at h
  cases hl : store.addLog l with
  | ok t => simp [hl, Except.map] at h
  | error failure =>
    simp only [hl, Except.map, Except.error.injEq] at h
    exact h ▸ Store.isOwn_addLog hl

theorem isOwn_inherited {own : Option String} {event : Json} {key : String} {e : Failure}
    (h : inherited own event key = .error e) : e.IsOwn := by
  have hf : inherited.fromEvent event key = .error e → e.IsOwn := by
    intro h
    unfold inherited.fromEvent at h
    split at h
    · simp at h
    · simp only [Except.error.injEq] at h
      exact h ▸ trivial
  unfold inherited at h
  split at h
  · split at h
    · exact hf h
    · simp at h
  · exact hf h

theorem isOwn_followUp {context : Fields} {em : Emission} {e : Failure}
    (h : followUp context em = .error e) : e.IsOwn := by
  unfold followUp at h
  cases ht : inherited em.entityType (Fields.getD context "event") "entity_type" with
  | error failure =>
    simp only [ht, bind, Except.bind, Except.error.injEq] at h
    exact h ▸ isOwn_inherited ht
  | ok type =>
    cases hi : inherited em.entityId (Fields.getD context "event") "entity_id" with
    | error failure =>
      simp only [ht, hi, bind, Except.bind, Except.error.injEq] at h
      exact h ▸ isOwn_inherited hi
    | ok id => simp [ht, hi, bind, Except.bind, pure, Except.pure] at h

theorem named_emit {c : Course} (hem : ∀ f, (c.emitter f).Named) (context : Fields)
    (em : Emission) : (c.emit context em).Named :=
  (Action.Named.ofExcept fun _ h => (isOwn_followUp h).kind_ne).bind fun f =>
    (hem f).bind fun _ => .pure _

/-- What a step halts its run for is named. -/
theorem yields_step {c : Course} (hem : ∀ f, (c.emitter f).Named) (s : WorkflowStep)
    (p : Progress) :
    (c.step s p).Yields fun x => ∀ halt, x.2 = .halted halt → halt.IsNamed := by
  have hlog : ∀ r, (c.part (c.log s r)).Yields fun x => ∀ halt, x = .error halt → halt.IsNamed :=
    fun r => c.yields_part (c.named_log s r)
  have hset : ∀ r p, (c.settle s r p).Yields fun x =>
      ∀ halt, x.2 = .halted halt → halt.IsNamed := by
    intro r p
    have hv : ∀ (p : Progress) halt, verdict p = .halted halt → halt.IsNamed := by
      intro p halt h
      unfold verdict at h
      split at h <;> simp at h
    unfold settle
    split
    · refine .bind fun _ => ?_
      dsimp only
      split
      · exact .pure (hv _)
      · refine .bind_of (c.yields_part (named_emit hem _ _)) fun result hresult => ?_
        split
        · exact .pure fun halt h => hresult halt (by simpa using h)
        · exact .bind fun _ => .pure (hv _)
    · refine .bind fun _ => ?_
      cases s.onFailure <;> exact .pure (by simp)
  have hperform : (c.perform s p.context).Yields fun x =>
      ∀ halt, x.1 = .error halt → halt.IsNamed :=
    .bind fun _ => .bind_of (c.yields_part (named_resultOf s p.context)) fun result hresult =>
      .bind fun _ => .pure hresult
  refine .bind_of hperform fun performed hperformed => ?_
  split
  · exact .pure fun halt h => hperformed halt (by simpa using h)
  · refine .bind_of (hlog _) fun logged hlogged => ?_
    split
    · exact .pure fun halt h => hlogged halt (by simpa using h)
    · exact .bind fun _ => .pure (by simp)
  · refine .bind_of (hlog _) fun logged hlogged => ?_
    split
    · exact .pure fun halt h => hlogged halt (by simpa using h)
    · exact hset _ _

/-- What the steps of a run are halted for is named. -/
theorem yields_steps {c : Course} (hem : ∀ f, (c.emitter f).Named) (ss : List WorkflowStep) :
    ∀ p, (c.steps ss p).Yields fun x => ∀ halt, x.2 = some halt → halt.IsNamed := by
  induction ss with
  | nil => exact fun p => .pure (by simp)
  | cons s rest ih =>
    intro p
    refine .bind_of (yields_step hem s p) fun out hout => ?_
    split
    · exact ih _
    · exact .pure (by simp)
    · exact .pure fun halt h => hout halt (by simpa using h)

end Course

/-! ## The emitters of the desk name their failures -/

theorem Emitter.named_queue (f : FollowUp) : (queue f).Named := by
  intro o d e h
  rcases hm : (queue f).run o d with ⟨ending, m⟩
  rw [hm] at h
  obtain ⟨failure, rfl, _, hk⟩ | ⟨_, rfl, _⟩ := queue_cases hm
  · simp only [Ending.failed.injEq] at h
    exact h ▸ hk
  · simp at h

namespace Dispatch

theorem named_markProcessed (id : String) : (Archive.markProcessed id).Named := by
  refine (Action.Named.query _ fun store e h => by simp at h).bind fun found => ?_
  split
  · exact .pure _
  · exact Action.Named.now.bind fun now => .change _ fun store e h => by simp at h

theorem named_runAll (em : Emitter) (e : Event) (ws : List Workflow) : (runAll em e ws).Named := by
  induction ws with
  | nil => exact .pure _
  | cons w rest ih =>
    have hone : (runOne em e w).Named := by
      refine (Action.Named.attempt _).bind fun result => ?_
      split <;> exact .pure _
    exact hone.bind fun _ => ih.bind fun _ => .pure _

theorem named_wait (e : Event) : (wait e).Named := by
  unfold wait
  split
  · refine Action.Named.now.bind fun now => ?_
    dsimp only
    split
    · exact .sleep _
    · exact .pure _
  · exact .pure _

/-- A dispatch fails by a failure of the store at most. -/
theorem named_event (em : Emitter) (e : Event) : (event em e).Named := by
  unfold event
  split
  · exact .pure _
  · refine (named_wait e).bind fun _ => ?_
    refine (Action.Named.query _ fun store e h => by simp at h).bind fun ws => ?_
    split
    · exact (named_markProcessed _).bind fun _ => .pure _
    · exact (named_runAll em e _).bind fun _ => (named_markProcessed _).bind fun _ => .pure _

theorem named_inline (bound : Int) (levels : Nat) (f : FollowUp) :
    (inline bound levels f).Named := by
  cases levels with
  | zero => exact Emitter.named_queue f
  | succ levels =>
    refine (Emitter.named_queue f).bind fun e => Action.Named.depth.bind fun depth => ?_
    split
    · exact .pure _
    · exact (named_event _ e).deeper.bind fun _ => .pure _

theorem named_emitterFor (settings : Settings) (f : FollowUp) :
    (emitterFor settings f).Named := by
  unfold emitterFor
  split
  · exact named_inline _ _ f
  · exact Emitter.named_queue f

end Dispatch

/-! ## The account of a run -/

/-- The result of the entry, if it has one, is sound. -/
def Entry.IsSound (e : Entry) : Prop := ∀ r, e.result = some r → r.Sound

/-- The limit of time of the runs of an office. -/
def Office.limit (o : Office) : Limit := o.runLimit.getD o.settings.runLimit

/-- An emitter that leaves the runs that are there alone, and whose failures are named. -/
structure Emitter.Apart (b : Office) (em : Emitter) : Prop where
  grows : ∀ f, Leads (·.Like b) (Grows none) (em f)
  named : ∀ f, (em f).Named

/-- The emitters of the desk are such. -/
theorem Dispatch.apart_emitterFor (b : Office) (settings : Settings) :
    (emitterFor settings).Apart b :=
  ⟨grows_emitterFor settings, named_emitterFor settings⟩

namespace Workflow

/-- What there is to say of a run that has come to an outcome. -/
structure Account (mayFail : Prop) (w : Workflow) (em : Emitter) (context : Json) (o : Office)
    (d e : Desk) (out : RunOutcome) where
  seed : Fields
  start : startContext context = .ok seed
  course : Course
  emitter : course.emitter = em
  id_eq : course.runId = freshId d.nextId
  isNew : ¬ d.HasRun course.runId
  /-- The desk from which the steps were carried out. -/
  opened : Desk
  entries : List Entry
  /-- The step that was begun but could not be logged, if there is one. -/
  begun : Option Entry
  rows : List RunLog
  progress : Progress
  halt : Option Halt
  story : Story mayFail w.orderedSteps { context := seed } entries begun progress halt
  arose : ∀ (i : Nat) (en : Entry), entries[i]? = some en →
    en.AroseAfter (w.orderedSteps.take i) course { context := seed } o opened
  broke : ∀ en ∈ begun, ∃ ending,
    en.BegunAfter (w.orderedSteps.take entries.length) course { context := seed } o opened ending
  logged : List.Forall₂ Entry.LoggedAs entries rows
  log : e.entriesOf course.runId = d.entriesOf course.runId ++ rows
  named : ∀ h, halt = some h → h.IsNamed
  outcome : out = w.outcome course.runId (ended o.limit (progress, halt))
  record : Run
  stored : e.store.run? course.runId = some record
  status : record.status = out.status
  error : record.error = out.error
  finalContext : record.finalContext = some out.context
  completed : record.completedAt.isSome = true

theorem emitted_ended (limit : Limit) (x : Progress × Option Halt) :
    (ended limit x).emitted = x.1.emitted := by
  obtain ⟨p, _ | halt⟩ := x <;> rfl

/-- The steps of a run either are out of time before the first of them, or are carried out. -/
theorem run_carryOut_eq_done {w : Workflow} {em : Emitter} {id : String} {seed : Fields}
    {o : Office} {d e : Desk} {p : Progress}
    (h : (w.carryOut em id seed).run o d = (.done p, e)) :
    p = ended o.limit ({ context := seed }, some .late) ∧ e = d ∨
    ∃ (c : Course) (x : Progress × Option Halt), c.runId = id ∧ c.emitter = em ∧
      (c.steps w.orderedSteps { context := seed }).run o d = (.done x, e) ∧
      p = ended o.limit x := by
  obtain ⟨o', m, ho, h⟩ := Action.run_bind_eq_done.1 h
  obtain ⟨rfl, rfl⟩ : o = o' ∧ d = m := by
    simpa [Action.office] using ho
  dsimp only at h
  split at h
  · obtain ⟨rfl, rfl⟩ := Action.run_pure_eq_done.1 h
    exact .inl ⟨rfl, rfl⟩
  · obtain ⟨deadline, m, hd, h⟩ := Action.run_bind_eq_done.1 h
    obtain rfl : d = m := by
      simp only [Action.deadline, Prod.mk.injEq] at hd
      exact hd.2
    obtain ⟨x, m, hx, h⟩ := Action.run_bind_eq_done.1 h
    obtain ⟨rfl, rfl⟩ := Action.run_pure_eq_done.1 h
    exact .inr ⟨_, x, rfl, rfl, hx, rfl⟩

/-- A run that is stored is found as it was closed. -/
theorem run?_withUpdate {d : Desk} {id : String} (h : d.HasRun id) (p : Progress)
    (now : Timestamp) :
    ∃ r, (d.withUpdate id (p.closing now)).store.run? id = some r ∧ r.status = p.status ∧
      r.error = p.error ∧ r.finalContext = some p.context ∧ r.completedAt.isSome = true := by
  have hsome : ((d.withUpdate id (p.closing now)).store.run? id).isSome = true := by
    obtain ⟨r, hr, hid⟩ := h
    simp only [Store.run?, Option.isSome_map, List.find?_isSome]
    refine ⟨_, Desk.mem_withUpdate.2 ⟨r, hr, rfl⟩, ?_⟩
    simp [hid, Desk.id_apply]
  obtain ⟨r, hr⟩ := Option.isSome_iff_exists.1 hsome
  refine ⟨r, hr, ?_⟩
  simp only [Store.run?, Option.map_eq_some_iff] at hr
  obtain ⟨found, hfound, rfl⟩ := hr
  obtain ⟨r', _, hr'⟩ := Desk.mem_withUpdate.1 (List.mem_of_find?_eq_some hfound)
  have hid : found.id = id := by simpa using List.find?_some hfound
  have hown : (r'.id == id) = true := by
    subst hr'
    split at hid
    · assumption
    · rename_i hne
      exact absurd (by simpa using hid) hne
  rw [if_pos hown] at hr'
  subst hr'
  exact ⟨rfl, rfl, rfl, rfl⟩

/-- The record of a run is found as the run was closed, after nothing more than what is quiet. -/
theorem run?_of_closed {d e : Desk} {id : String} {p : Progress} {now : Timestamp}
    (h : d.HasRun id) (hq : (d.withUpdate id (p.closing now)).Quiet e) :
    ∃ r, e.store.run? id = some r ∧ r.status = p.status ∧ r.error = p.error ∧
      r.finalContext = some p.context ∧ r.completedAt.isSome = true := by
  obtain ⟨r, hr, hfields⟩ := run?_withUpdate h p now
  refine ⟨r, ?_, hfields⟩
  unfold Store.run? at hr ⊢
  rw [hq.runs]
  exact hr

/-- A run that comes to an outcome has an account. Where all is well for logging, no result is
left out of it. -/
theorem exists_account (mayFail : Prop) {w : Workflow} {em : Emitter} {context : Json}
    {triggeredBy : String} {o : Office} {d e : Desk} {out : RunOutcome} (hem : em.Apart o)
    (hl : mayFail ∨ Course.Logs o w.orderedSteps d)
    (h : (w.run em context triggeredBy).run o d = (.done out, e)) :
    Nonempty (w.Account mayFail em context o d e out) := by
  obtain ⟨_, hfail, _⟩ | ⟨seed, r, hseed, hbegun, hnew, h⟩ := run_cases h
  · simp at hfail
  obtain ⟨m, hq, ⟨_, hcut, _⟩ | ⟨p, m', hcarry, ⟨_, hfail, _⟩ | ⟨hout, hq'⟩⟩⟩ := conduct_cases h
  · simp at hcut
  · simp at hfail
  obtain rfl : out = w.outcome r.id p := by simpa using hout
  have hg : Grows none d m :=
    Desk.Trail.trans (Desk.grows_withRun hbegun.id) (Desk.Trail.quiet hq)
  have hhas : m.HasRun r.id :=
    ⟨r, hq.runs ▸ List.mem_append_right _ (List.mem_singleton_self r), rfl⟩
  have hm : m.entriesOf r.id = d.entriesOf r.id := by
    simp only [Desk.entriesOf, hq.logs]
    rfl
  have he : e.entriesOf r.id = m'.entriesOf r.id := by
    simp only [Desk.entriesOf, hq'.logs]
    rfl
  have hl' : mayFail ∨ Course.Logs o w.orderedSteps m :=
    hl.imp_right fun hl => hl.of_grows (fun _ h => h) hg (by simp)
  obtain ⟨rfl, rfl⟩ | ⟨c, ⟨q, halt⟩, hid, hcem, hsteps, rfl⟩ := run_carryOut_eq_done hcarry
  · obtain ⟨record, hrecord, hstatus, herror, hfinal, hcompleted⟩ := run?_of_closed hhas hq'
    exact ⟨{
      seed := seed, start := hseed, emitter := rfl, id_eq := hbegun.id, isNew := hnew
      course := { runId := r.id, slug := w.slug, deadline := 0, emitter := em }
      opened := m', entries := [], begun := none, rows := [], progress := { context := seed }
      halt := some .late, story := .broken _ _ _, arose := by simp
      broke := by simp, logged := .nil
      log := by rw [he, hm, List.append_nil], named := by simp [Halt.IsNamed], outcome := rfl
      record := record, stored := hrecord, status := hstatus, error := herror
      finalContext := hfinal, completed := hcompleted }⟩
  · have hgem : ∀ f, Leads (·.Like o) (Grows none) (c.emitter f) := hcem ▸ hem.grows
    obtain ⟨es, begun, rows, hstory, harose, hbroke, hlogged, hlog⟩ :=
      Course.exists_story mayFail hgem (Office.Like.refl o) rfl (hid ▸ hhas) hl' hsteps
    have hnamed := Course.yields_steps (hcem ▸ hem.named) w.orderedSteps { context := seed } o m
      (q, halt) (by rw [hsteps])
    have hhas' : m'.HasRun r.id := by
      have hl := Course.leads_steps (R := Grows (some c.runId)) c.leads_log
        (fun f => (hgem f).mono fun h => h.of_none) w.orderedSteps { context := seed } o m
        (Office.Like.refl o)
      rw [hsteps] at hl
      exact hl.hasRun _ hhas
    obtain ⟨record, hrecord, hstatus, herror, hfinal, hcompleted⟩ := run?_of_closed hhas' hq'
    exact ⟨{
      seed := seed, start := hseed, emitter := hcem, id_eq := hid.trans hbegun.id
      isNew := hid ▸ hnew, course := c, opened := m, entries := es, begun := begun, rows := rows
      progress := q, halt := halt, story := hstory, arose := harose, broke := hbroke
      logged := hlogged
      log := by rw [hid] at hlog ⊢; rw [he, hlog, hm]
      named := hnamed, outcome := by rw [hid]
      record := record, stored := by rw [hid]; exact hrecord, status := hstatus, error := herror
      finalContext := hfinal, completed := hcompleted }⟩

/-- The results of an account are sound. -/
theorem Account.isSound {mayFail : Prop} {w : Workflow} {em : Emitter} {context : Json} {o : Office}
    {d e : Desk} {out : RunOutcome} (a : w.Account mayFail em context o d e out) :
    ∀ en ∈ a.entries, en.IsSound := by
  intro en hen r hr
  obtain ⟨i, hi⟩ := List.getElem?_of_mem hen
  obtain ⟨q, m, m', _, _, hres, _⟩ := a.arose i en hi
  exact Course.sound_of_resultOf (hr ▸ hres)

end Workflow

end LeadDesk
