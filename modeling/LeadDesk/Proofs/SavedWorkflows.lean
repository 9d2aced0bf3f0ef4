import LeadDesk.Proofs.AuditTrail
import LeadDesk.Proofs.Sessions
/-!
# Saved workflows

A workflow is stored as a head and as steps that name the head by its id. Where heads have ids and
slugs of their own and every step has its head (`Store.IsTidy`), the workflows that are kept make a
list with one member for each slug (`Store.kept`). To save a workflow renews the member under its
slug or adds one behind all others, and nothing else (`Store.IsTidy.saved`).
-/

namespace LeadDesk

/-- The step without its id. -/
def WorkflowStep.content (s : WorkflowStep) : WorkflowStep := { s with id := none }

/-! ## What is kept -/

/-- What is kept of a saved workflow, but for the moment of its last change and for the ids and
moments of its steps. -/
structure KeptWorkflow where
  id : String
  slug : String
  name : String
  description : String
  category : Option String
  trigger : String
  version : Int
  isActive : Bool
  createdAt : Timestamp
  steps : List WorkflowStep

namespace KeptWorkflow

/-- What is kept of a workflow that is saved as the first one under its slug. -/
def added (w : Workflow) (now : Timestamp) : KeptWorkflow where
  id := w.id
  slug := w.slug
  name := w.name
  description := w.description
  category := some (w.category.getD Store.generalCategory)
  trigger := w.trigger
  version := w.version
  isActive := w.isActive
  createdAt := now.atUniversal
  steps := w.orderedSteps.map WorkflowStep.content

/-- What is kept after a workflow is saved in place of another: the id, the slug and the moment of
creation are those of the other. -/
def renewed (k : KeptWorkflow) (w : Workflow) : KeptWorkflow :=
  { k with
    name := w.name, description := w.description, category := w.category, trigger := w.trigger,
    version := w.version, isActive := w.isActive, steps := w.orderedSteps.map WorkflowStep.content }

/-- What is kept is the workflow, whatever the id, the category and the moment of creation are. -/
structure Is (k : KeptWorkflow) (w : Workflow) : Prop where
  slug : k.slug = w.slug
  name : k.name = w.name
  description : k.description = w.description
  trigger : k.trigger = w.trigger
  version : k.version = w.version
  isActive : k.isActive = w.isActive
  steps : k.steps = w.orderedSteps.map WorkflowStep.content

theorem is_added (w : Workflow) (now : Timestamp) : (added w now).Is w :=
  ⟨rfl, rfl, rfl, rfl, rfl, rfl, rfl⟩

theorem is_renewed {k : KeptWorkflow} {w : Workflow} (h : k.slug = w.slug) : (k.renewed w).Is w :=
  ⟨h, rfl, rfl, rfl, rfl, rfl, rfl⟩

/-- Save a workflow in place of the one under its slug, or behind all others. -/
def save (w : Workflow) (now : Timestamp) (ks : List KeptWorkflow) : List KeptWorkflow :=
  if ks.any (·.slug == w.slug) then ks.map fun k => if k.slug == w.slug then k.renewed w else k
  else ks ++ [added w now]

theorem save_of_mem {w : Workflow} {now : Timestamp} {ks : List KeptWorkflow}
    (h : ∃ k ∈ ks, k.slug = w.slug) :
    save w now ks = ks.map fun k => if k.slug == w.slug then k.renewed w else k := by
  refine if_pos (List.any_eq_true.2 ?_)
  simpa using h

theorem save_of_not_mem {w : Workflow} {now : Timestamp} {ks : List KeptWorkflow}
    (h : ∀ k ∈ ks, k.slug ≠ w.slug) : save w now ks = ks ++ [added w now] := by
  refine if_neg fun hany => ?_
  obtain ⟨k, hk, hslug⟩ := List.any_eq_true.1 hany
  exact h k hk (beq_iff_eq.1 hslug)

/-- What is kept after a workflow is saved was kept under another slug, was renewed, or was
added. -/
theorem mem_save_cases {w : Workflow} {now : Timestamp} {ks : List KeptWorkflow} {k : KeptWorkflow}
    (hk : k ∈ save w now ks) :
    (k ∈ ks ∧ k.slug ≠ w.slug) ∨ (∃ old ∈ ks, old.slug = w.slug ∧ k = old.renewed w) ∨
      (∀ old ∈ ks, old.slug ≠ w.slug) ∧ k = added w now := by
  by_cases htaken : ∃ old ∈ ks, old.slug = w.slug
  · rw [save_of_mem htaken] at hk
    obtain ⟨old, hold, rfl⟩ := List.mem_map.1 hk
    by_cases heq : old.slug = w.slug
    · exact .inr (.inl ⟨old, hold, heq, if_pos (beq_iff_eq.2 heq)⟩)
    · rw [if_neg (by simpa using heq)]
      exact .inl ⟨hold, heq⟩
  · have hnew : ∀ old ∈ ks, old.slug ≠ w.slug := by simpa using htaken
    rw [save_of_not_mem hnew] at hk
    rcases List.mem_append.1 hk with hk | hk
    · exact .inl ⟨hk, hnew k hk⟩
    · exact .inr (.inr ⟨hnew, List.mem_singleton.1 hk⟩)

/-- To save a workflow leaves what is kept under other slugs as it is. -/
theorem mem_save_of_ne {w : Workflow} {now : Timestamp} {ks : List KeptWorkflow} {k : KeptWorkflow}
    (hslug : k.slug ≠ w.slug) (hk : k ∈ ks) : k ∈ save w now ks := by
  unfold save
  split
  · exact List.mem_map.2 ⟨k, hk, if_neg (by simpa using hslug)⟩
  · exact List.mem_append_left _ hk

end KeptWorkflow

namespace Store

/-- What is kept of the workflow with a stored head. -/
def keptOf (s : Store) (r : WorkflowRecord) : KeptWorkflow where
  id := r.id
  slug := r.slug
  name := r.name
  description := r.description
  category := r.category
  trigger := r.trigger
  version := r.version
  isActive := r.isActive
  createdAt := r.createdAt
  steps := (s.stepsOf r.id).map WorkflowStep.content

/-- What is kept of all workflows, in the order in which they were first saved. -/
def kept (s : Store) : List KeptWorkflow := s.workflows.map s.keptOf

/-- Every stored workflow has an id and a slug of its own, and every stored step belongs to one of
them. -/
structure IsTidy (s : Store) : Prop where
  ids : (s.workflows.map (·.id)).Nodup
  slugs : (s.workflows.map (·.slug)).Nodup
  owned : ∀ step ∈ s.steps, ∃ r ∈ s.workflows, r.id = step.workflowId

variable {s t : Store} {w stored : Workflow} {now : Timestamp} {ids : Nat → String}

theorem slugs_kept (s : Store) : s.kept.map (·.slug) = s.workflows.map (·.slug) := by
  simp [kept, keptOf]

/-- What is kept depends on heads and steps only. -/
theorem kept_of_eq (hw : t.workflows = s.workflows) (hs : t.steps = s.steps) : t.kept = s.kept := by
  have hkeptOf : t.keptOf = s.keptOf := by
    funext r
    simp only [keptOf, stepsOf, hs]
  rw [kept, kept, hw, hkeptOf]

/-- So does what is read under a slug. -/
theorem workflow?_of_eq (hw : t.workflows = s.workflows) (hs : t.steps = s.steps) (slug : String) :
    t.workflow? slug = s.workflow? slug := by
  rw [workflow?, workflow?, workflowRecord?, workflowRecord?, hw, workflow_of_steps hs]

theorem IsTidy.of_eq (h : s.IsTidy) (hw : t.workflows = s.workflows) (hs : t.steps = s.steps) :
    t.IsTidy where
  ids := hw ▸ h.ids
  slugs := hw ▸ h.slugs
  owned := by
    rw [hs, hw]
    exact h.owned

theorem workflowRecord?_eq_none_iff {slug : String} :
    s.workflowRecord? slug = none ↔ ∀ k ∈ s.kept, k.slug ≠ slug := by
  simp [workflowRecord?, kept, keptOf]

theorem mem_of_workflowRecord? {slug : String} {r : WorkflowRecord}
    (h : s.workflowRecord? slug = some r) : r ∈ s.workflows ∧ r.slug = slug :=
  ⟨List.mem_of_find?_eq_some h, by simpa using List.find?_some h⟩

/-- A workflow is found under its slug. -/
theorem IsTidy.workflowRecord?_eq (hs : s.IsTidy) {r : WorkflowRecord} (hr : r ∈ s.workflows) :
    s.workflowRecord? r.slug = some r := by
  have hsome : (s.workflowRecord? r.slug).isSome = true :=
    List.find?_isSome.2 ⟨r, hr, beq_self_eq_true r.slug⟩
  obtain ⟨old, hold⟩ := Option.isSome_iff_exists.1 hsome
  obtain ⟨hmem, hslug⟩ := mem_of_workflowRecord? hold
  exact hold.trans (congrArg some (List.inj_on_of_nodup_map hs.slugs hmem hr hslug))

/-! ## Steps -/

theorem workflowId_of_mem_stepRecords {owner : String} {ss : List WorkflowStep} {r : StepRecord}
    (h : r ∈ stepRecords owner now ids ss) : r.workflowId = owner := by
  induction ss generalizing ids with
  | nil => simp [stepRecords] at h
  | cons step rest ih =>
    rcases List.mem_cons.1 h with rfl | h
    · rfl
    · exact ih h

theorem map_stepRecords {α : Type} (f : WorkflowStep → α)
    (hf : ∀ step id, f { step with id := id } = f step) (owner : String) (ss : List WorkflowStep) :
    (stepRecords owner now ids ss).map (fun r => f r.step) = ss.map f := by
  induction ss generalizing ids with
  | nil => rfl
  | cons step rest ih => rw [stepRecords, List.map_cons, List.map_cons, hf, ih]

/-- The steps of a workflow that are stored by ascending order, behind steps of others, are read as
they are stored. -/
theorem content_stepsOf {owner : String} {before : List StepRecord}
    (h : s.steps = before ++ stepRecords owner now ids w.orderedSteps)
    (hbefore : ∀ r ∈ before, r.workflowId ≠ owner) :
    (s.stepsOf owner).map WorkflowStep.content = w.orderedSteps.map WorkflowStep.content := by
  have hothers : before.filter (·.workflowId == owner) = [] :=
    List.filter_eq_nil_iff.2 fun r hr => by simpa using hbefore r hr
  have hown : (stepRecords owner now ids w.orderedSteps).filter (·.workflowId == owner) =
      stepRecords owner now ids w.orderedSteps :=
    List.filter_eq_self.2 fun _ hr => beq_iff_eq.2 (workflowId_of_mem_stepRecords hr)
  have hsorted : ((stepRecords owner now ids w.orderedSteps).map fun r => r.step.order).Pairwise
      (· ≤ ·) := by
    rw [map_stepRecords _ (fun _ _ => rfl), List.pairwise_map]
    exact w.orderedSteps_ascending
  rw [List.pairwise_map] at hsorted
  have hlisted := List.mergeSort_of_pairwise (hsorted.imp fun hab => decide_eq_true hab)
  rw [stepsOf, h, List.filter_append, hothers, hown, List.nil_append, hlisted, List.map_map]
  exact map_stepRecords WorkflowStep.content (fun _ _ => rfl) owner _

/-- Where the steps of one workflow are stored anew, behind the others, those of another workflow
are read as before. -/
theorem stepsOf_of_ne {owner other : String} {ss : List WorkflowStep} {p : StepRecord → Bool}
    (h : t.steps = s.steps.filter p ++ stepRecords owner now ids ss) (hne : other ≠ owner)
    (hp : ∀ r, r.workflowId = other → p r = true) : t.stepsOf other = s.stepsOf other := by
  have hnone : (stepRecords owner now ids ss).filter (·.workflowId == other) = [] := by
    refine List.filter_eq_nil_iff.2 fun r hr => ?_
    rw [workflowId_of_mem_stepRecords hr]
    simpa using hne.symm
  have hsame : (s.steps.filter p).filter (·.workflowId == other) =
      s.steps.filter (·.workflowId == other) := by
    rw [List.filter_filter]
    refine List.filter_congr fun r _ => ?_
    by_cases hr : r.workflowId = other
    · simp [hr, hp r hr]
    · simp [hr]
  rw [stepsOf, stepsOf, h, List.filter_append, hnone, List.append_nil, hsame]

theorem keptOf_of_stepsOf {r : WorkflowRecord} (h : t.stepsOf r.id = s.stepsOf r.id) :
    t.keptOf r = s.keptOf r := by
  rw [keptOf, keptOf, h]

/-! ## To save -/

/-- To save a workflow under its own slug for the first time. -/
theorem IsTidy.saved_first (hs : s.IsTidy) (hnone : s.workflowRecord? w.slug = none)
    (hid : ∀ r ∈ s.workflows, r.id ≠ w.id)
    (ht : t = { s with
      workflows := s.workflows ++ [newRecord w now]
      steps := s.steps ++ stepRecords w.id now ids w.orderedSteps }) :
    t.kept = KeptWorkflow.save w now s.kept ∧
      ∀ slug, slug ≠ w.slug → t.workflow? slug = s.workflow? slug := by
  have hsteps : t.steps = s.steps ++ stepRecords w.id now ids w.orderedSteps := by rw [ht]
  have hothers : ∀ r ∈ s.workflows, t.stepsOf r.id = s.stepsOf r.id := fun r hr =>
    stepsOf_of_ne (p := fun _ => true) (by rw [hsteps, List.filter_true]) (hid r hr) fun _ _ => rfl
  have hown : (t.stepsOf w.id).map WorkflowStep.content =
      w.orderedSteps.map WorkflowStep.content := by
    refine content_stepsOf hsteps fun step hstep heq => ?_
    -- No step was stored under an id that no workflow had.
    obtain ⟨r, hr, howner⟩ := hs.owned step hstep
    exact hid r hr (howner.trans heq)
  refine ⟨?_, fun slug hslug => ?_⟩
  · rw [KeptWorkflow.save_of_not_mem (workflowRecord?_eq_none_iff.1 hnone)]
    have hlast : t.keptOf (newRecord w now) = KeptWorkflow.added w now := by
      simp [keptOf, newRecord, KeptWorkflow.added, hown]
    have hworkflows : t.workflows = s.workflows ++ [newRecord w now] := by rw [ht]
    rw [kept, hworkflows, List.map_append, List.map_singleton, hlast, kept,
      List.map_congr_left fun r hr => keptOf_of_stepsOf (hothers r hr)]
  · have hfind : t.workflowRecord? slug = s.workflowRecord? slug := by
      simp [workflowRecord?, ht, List.find?_append, newRecord, hslug.symm]
    unfold workflow?
    rw [hfind]
    refine Option.map_congr fun r hr => ?_
    simp only [workflow, hothers r (mem_of_workflowRecord? hr).1]

/-- To save a workflow in place of the one under its slug. -/
theorem IsTidy.saved_again (hs : s.IsTidy) {old : WorkflowRecord}
    (hold : s.workflowRecord? w.slug = some old)
    (ht : t = { s with
      workflows := s.workflows.map fun r => if r.slug == w.slug then renewedRecord old w now else r
      steps := s.steps.filter (·.workflowId != old.id) ++
        stepRecords old.id now ids w.orderedSteps }) :
    t.kept = KeptWorkflow.save w now s.kept ∧
      ∀ slug, slug ≠ w.slug → t.workflow? slug = s.workflow? slug := by
  obtain ⟨hmem, hslug⟩ := mem_of_workflowRecord? hold
  have hsteps : t.steps = s.steps.filter (·.workflowId != old.id) ++
      stepRecords old.id now ids w.orderedSteps := by rw [ht]
  have hothers : ∀ r ∈ s.workflows, r.slug ≠ w.slug → t.stepsOf r.id = s.stepsOf r.id := by
    intro r hr hne
    have hid : r.id ≠ old.id := fun heq =>
      hne (List.inj_on_of_nodup_map hs.ids hr hmem heq ▸ hslug)
    refine stepsOf_of_ne hsteps hid fun step heq => ?_
    simpa [heq] using hid
  have hown : (t.stepsOf old.id).map WorkflowStep.content =
      w.orderedSteps.map WorkflowStep.content := by
    refine content_stepsOf hsteps fun step hstep => ?_
    simpa using (List.mem_filter.1 hstep).2
  refine ⟨?_, fun slug hne => ?_⟩
  · have htaken : ∃ k ∈ s.kept, k.slug = w.slug := ⟨_, List.mem_map_of_mem hmem, hslug⟩
    rw [KeptWorkflow.save_of_mem htaken]
    have hworkflows : t.workflows = s.workflows.map fun r =>
      if r.slug == w.slug then renewedRecord old w now else r := by rw [ht]
    rw [kept, hworkflows, kept, List.map_map, List.map_map]
    refine List.map_congr_left fun r hr => ?_
    by_cases heq : r.slug = w.slug
    · obtain rfl : r = old := List.inj_on_of_nodup_map hs.slugs hr hmem (heq.trans hslug.symm)
      simp [keptOf, heq, renewedRecord, KeptWorkflow.renewed, hown]
    · have hkept := keptOf_of_stepsOf (hothers r hr heq)
      simp [heq, hkept, show (s.keptOf r).slug = r.slug from rfl]
  · have hfind : t.workflowRecord? slug = s.workflowRecord? slug := by
      have hsame : ∀ r : WorkflowRecord,
          (if r.slug == w.slug then renewedRecord old w now else r).slug = r.slug := by
        intro r
        split
        · rename_i heq
          exact hslug.trans (beq_iff_eq.1 heq).symm
        · rfl
      simp only [workflowRecord?, ht, List.find?_map, Function.comp_def, hsame]
      cases hfound : s.workflows.find? (·.slug == slug) with
      | none => rfl
      | some r =>
        have hr : r.slug = slug := by simpa using List.find?_some hfound
        simp [hr, hne]
    unfold workflow?
    rw [hfind]
    refine Option.map_congr fun r hr => ?_
    obtain ⟨hmem, rfl⟩ := mem_of_workflowRecord? hr
    simp only [workflow, hothers r hmem hne]

/-- To save a workflow keeps the store tidy, changes what is kept as asked, and nothing under other
slugs. -/
theorem IsTidy.saved (hs : s.IsTidy) (h : s.saveWorkflow w now ids = .ok (stored, t)) :
    t.IsTidy ∧ t.kept = KeptWorkflow.save w now s.kept ∧
      ∀ slug, slug ≠ w.slug → t.workflow? slug = s.workflow? slug := by
  obtain ⟨hids, hslugs⟩ := nodup_of_saveWorkflow hs.ids hs.slugs h
  obtain ⟨_, ⟨hnone, hid, ht⟩ | ⟨old, hold, ht⟩⟩ := saveWorkflow_cases h
  · refine ⟨⟨hids, hslugs, ?_⟩, hs.saved_first hnone hid ht⟩
    subst ht
    refine List.forall_mem_append.2 ⟨fun step hstep => ?_, fun step hstep => ?_⟩
    · obtain ⟨r, hr, howner⟩ := hs.owned step hstep
      exact ⟨r, List.mem_append_left _ hr, howner⟩
    · refine ⟨_, List.mem_append_right _ (List.mem_singleton_self _), ?_⟩
      exact (workflowId_of_mem_stepRecords hstep).symm
  · refine ⟨⟨hids, hslugs, ?_⟩, hs.saved_again hold ht⟩
    obtain ⟨hmem, hslug⟩ := mem_of_workflowRecord? hold
    subst ht
    -- Every head is still there, under its id.
    have hstays : ∀ r ∈ s.workflows, ∃ r' ∈ s.workflows.map fun r =>
        if r.slug == w.slug then renewedRecord old w now else r, r'.id = r.id := by
      intro r hr
      refine ⟨_, List.mem_map_of_mem hr, ?_⟩
      by_cases heq : r.slug = w.slug
      · rw [if_pos (beq_iff_eq.2 heq),
          List.inj_on_of_nodup_map hs.slugs hr hmem (heq.trans hslug.symm)]
        rfl
      · rw [if_neg (by simpa using heq)]
    refine List.forall_mem_append.2 ⟨fun step hstep => ?_, fun step hstep => ?_⟩
    · obtain ⟨r, hr, howner⟩ := hs.owned step (List.mem_of_mem_filter hstep)
      obtain ⟨r', hr', hid⟩ := hstays r hr
      exact ⟨r', hr', hid.trans howner⟩
    · obtain ⟨r', hr', hid⟩ := hstays old hmem
      exact ⟨r', hr', hid.trans (workflowId_of_mem_stepRecords hstep).symm⟩

/-- A workflow whose integers fit is saved where its slug is taken or its id is free. -/
theorem exists_saved (hcheck : checkWorkflow w = .ok ())
    (hfree : (∃ k ∈ s.kept, k.slug = w.slug) ∨ ∀ k ∈ s.kept, k.id ≠ w.id) (now : Timestamp)
    (ids : Nat → String) : ∃ stored t, s.saveWorkflow w now ids = .ok (stored, t) := by
  unfold saveWorkflow
  rw [hcheck]
  cases hrecord : s.workflowRecord? w.slug with
  | some old => exact ⟨_, _, rfl⟩
  | none =>
    have hid : ∀ k ∈ s.kept, k.id ≠ w.id := by
      refine hfree.resolve_left fun ⟨k, hk, hslug⟩ => ?_
      exact workflowRecord?_eq_none_iff.1 hrecord k hk hslug
    have hnew : (s.workflows.any fun r => r.id == w.id) = false := by
      refine List.any_eq_false.2 fun r hr heq => ?_
      exact hid _ (List.mem_map_of_mem hr) (beq_iff_eq.1 heq)
    simp only [hnew]
    exact ⟨_, _, rfl⟩

end Store

end LeadDesk
