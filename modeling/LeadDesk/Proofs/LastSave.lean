import LeadDesk.Proofs.Matching
import LeadDesk.Proofs.SavedWorkflows
/-!
# The last save wins

After any calls that save workflows there is one stored workflow for each slug that was saved. It
has the id that came with the first save under the slug, and all else that came with the last one;
its steps are those of the last one, by ascending order, and nothing of an earlier one is left. It
is read so under its slug, in the list of all workflows and in the list of those that a type of
event sets off. If the clock shows a later time at each save than at those before it, the last list
is in the order in which the slugs were first saved (`Desk.shows_saved`).
-/

namespace LeadDesk

/-! ## Calls that save -/

/-- A call that saves a workflow, after the desk has stood idle for some microseconds. -/
structure SaveCall where
  idle : Nat := 0
  office : Office := {}
  workflow : Workflow

namespace SaveCall

/-- The call as a turn of a session. -/
def turn (c : SaveCall) : Turn :=
  { idle := c.idle, office := c.office, errand := .save c.workflow }

/-- The desk at which the call begins. -/
def start (c : SaveCall) (d : Desk) : Desk := { d with clock := d.clock + c.idle }

/-- The call saves its workflow. It is refused when an integer does not fit the store, or when a new
slug comes with an id that is taken. -/
def saves (c : SaveCall) (d : Desk) : Bool :=
  match ((Archive.saveWorkflow c.workflow).run c.office (c.start d)).1 with
  | .done _ => true
  | _ => false

end SaveCall

namespace Desk

/-- The desk after calls that save workflows. -/
def afterSaves (d : Desk) (cs : List SaveCall) : Desk := d.after (cs.map SaveCall.turn)

/-- The workflows that calls save, in turn. -/
def saved (d : Desk) : List SaveCall → List Workflow
  | [] => []
  | c :: rest =>
    if c.saves d then c.workflow :: (c.turn.play d).saved rest else (c.turn.play d).saved rest

/-- The times that the clock shows when calls save their workflows, in turn. -/
def savedAt (d : Desk) : List SaveCall → List Int
  | [] => []
  | c :: rest =>
    if c.saves d then (c.start d).time.wall :: (c.turn.play d).savedAt rest
    else (c.turn.play d).savedAt rest

end Desk

/-! ## What is read -/

/-- The workflow is what is left of several that were saved under one slug: it has the id of the
first one, and is like the last one in all else, with its steps by ascending order. -/
structure Workflow.StandsFor (shown first last : Workflow) : Prop where
  id : shown.id = first.id
  slug : shown.slug = last.slug
  name : shown.name = last.name
  description : shown.description = last.description
  trigger : shown.trigger = last.trigger
  isActive : shown.isActive = last.isActive
  steps : shown.steps.map WorkflowStep.content = last.orderedSteps.map WorkflowStep.content
  ascending : (last.steps.map (·.order)).Nodup → shown.steps.Pairwise (·.order < ·.order)

namespace Store

/-- What is read under the slugs of some workflows, in the order in which these first come. -/
def shown (s : Store) (ws : List Workflow) : List Workflow :=
  (ws.map (·.slug)).eraseDups.filterMap s.workflow?

/-- Every reader shows what was saved. -/
structure Shows (s : Store) (ws : List Workflow) : Prop where
  /-- There is one stored workflow for each slug, -/
  slugs : s.workflows.map (·.slug) = (ws.map (·.slug)).eraseDups
  once : (s.workflows.map (·.slug)).Nodup
  /-- which stands for those that were saved under it. -/
  latest : ∀ slug ∈ ws.map (·.slug), ∃ first last shown,
    ws.find? (·.slug == slug) = some first ∧ ws.reverse.find? (·.slug == slug) = some last ∧
    s.workflow? slug = some shown ∧ shown.StandsFor first last
  /-- All workflows, or all active ones, are listed by slug, -/
  all : ∀ activeOnly,
    (s.allWorkflows activeOnly).Perm ((s.shown ws).filter fun w => !activeOnly || w.isActive) ∧
    (s.allWorkflows activeOnly).Pairwise (·.slug < ·.slug)
  /-- and so are those that a type of event sets off. -/
  active : ∀ trigger,
    (s.activeWorkflows trigger).Perm
      ((s.shown ws).filter fun w => w.trigger == trigger && w.isActive)

end Store

/-! ## What calls leave behind -/

namespace KeptWorkflow

variable {w : Workflow} {now : Timestamp} {ks : List KeptWorkflow} {k : KeptWorkflow}

theorem map_slug_save (w : Workflow) (now : Timestamp) (ks : List KeptWorkflow) :
    (save w now ks).map (·.slug) =
      if w.slug ∈ ks.map (·.slug) then ks.map (·.slug) else ks.map (·.slug) ++ [w.slug] := by
  by_cases h : ∃ k ∈ ks, k.slug = w.slug
  · rw [save_of_mem h, if_pos (List.mem_map.2 h), List.map_map]
    refine List.map_congr_left fun k _ => ?_
    simp only [Function.comp_apply]
    split <;> rfl
  · rw [if_neg (mt List.mem_map.1 h), save_of_not_mem (by simpa using h), List.map_append]
    rfl

/-- To save a workflow at most adds its time to those at which workflows were first saved. -/
theorem times_save (w : Workflow) (now : Timestamp) (ks : List KeptWorkflow) :
    ((save w now ks).map (·.createdAt.wall)).Sublist (ks.map (·.createdAt.wall) ++ [now.wall]) := by
  unfold save
  split
  · have hsame : (ks.map fun k => if k.slug == w.slug then k.renewed w else k).map
        (·.createdAt.wall) = ks.map (·.createdAt.wall) := by
      rw [List.map_map]
      refine List.map_congr_left fun k _ => ?_
      simp only [Function.comp_apply]
      split <;> rfl
    rw [hsame]
    exact List.sublist_append_left _ _
  · rw [List.map_append]
    exact List.Sublist.refl _

end KeptWorkflow

/-- A further word counts among different ones if it is not one of them. -/
theorem eraseDups_concat (l : List String) (a : String) :
    (l ++ [a]).eraseDups = if a ∈ l then l.eraseDups else l.eraseDups ++ [a] := by
  rw [List.eraseDups_append]
  by_cases h : a ∈ l
  · simp [List.removeAll, h]
  · simp [List.removeAll, h, List.eraseDups_cons]

namespace Desk

/-- What is stored stands for the workflows that were saved up to a desk, in the order in which
their slugs were first saved. -/
structure Recalls (d : Desk) (ws : List Workflow) : Prop where
  tidy : d.store.IsTidy
  slugs : d.store.kept.map (·.slug) = (ws.map (·.slug)).eraseDups
  latest : ∀ k ∈ d.store.kept, ∃ first last, ws.find? (·.slug == k.slug) = some first ∧
    ws.reverse.find? (·.slug == k.slug) = some last ∧ k.id = first.id ∧ k.Is last

variable {d e : Desk} {ws : List Workflow} {w : Workflow}

theorem Recalls.mem_iff (h : d.Recalls ws) {slug : String} :
    (∃ k ∈ d.store.kept, k.slug = slug) ↔ slug ∈ ws.map (·.slug) := by
  rw [← List.mem_map, h.slugs, List.mem_eraseDups]

theorem Recalls.of_eq (h : d.Recalls ws) (hw : e.store.workflows = d.store.workflows)
    (hs : e.store.steps = d.store.steps) : e.Recalls ws := by
  have hkept : e.store.kept = d.store.kept := Store.kept_of_eq hw hs
  exact {
    tidy := h.tidy.of_eq hw hs
    slugs := hkept ▸ h.slugs
    latest := hkept ▸ h.latest }

/-- A workflow that is saved comes last under its slug, and first if the slug is a new one. -/
theorem Recalls.latest_of_save {now : Timestamp} (h : d.Recalls ws) {k : KeptWorkflow}
    (hk : k ∈ KeptWorkflow.save w now d.store.kept) :
    ∃ first last, (ws ++ [w]).find? (·.slug == k.slug) = some first ∧
      (ws ++ [w]).reverse.find? (·.slug == k.slug) = some last ∧ k.id = first.id ∧ k.Is last := by
  rw [List.find?_append, List.reverse_append, List.reverse_singleton, List.singleton_append]
  obtain ⟨hk, hslug⟩ | ⟨old, hold, hslug, rfl⟩ | ⟨hnew, rfl⟩ := KeptWorkflow.mem_save_cases hk
  · obtain ⟨first, last, hfirst, hlast, hid, his⟩ := h.latest k hk
    refine ⟨first, last, congrArg (Option.or · _) hfirst, ?_, hid, his⟩
    rw [List.find?_cons_of_neg (by simpa using Ne.symm hslug)]
    exact hlast
  · obtain ⟨first, last, hfirst, _, hid, _⟩ := h.latest old hold
    refine ⟨first, w, congrArg (Option.or · _) hfirst, ?_, hid, KeptWorkflow.is_renewed hslug⟩
    exact List.find?_cons_of_pos (beq_iff_eq.2 hslug.symm)
  · have hnone : ws.find? (·.slug == w.slug) = none := by
      refine List.find?_eq_none.2 fun v hv heq => ?_
      obtain ⟨old, hold, hslug⟩ := h.mem_iff.2 (List.mem_map.2 ⟨v, hv, beq_iff_eq.1 heq⟩)
      exact hnew old hold hslug
    have hown : (w.slug == w.slug) = true := beq_self_eq_true w.slug
    refine ⟨w, w, ?_, List.find?_cons_of_pos hown, rfl, KeptWorkflow.is_added w now⟩
    show (ws.find? (·.slug == w.slug)).or ([w].find? (·.slug == w.slug)) = some w
    rw [hnone, Option.none_or]
    exact List.find?_cons_of_pos hown

/-- To save a workflow adds it to those that are recalled. -/
theorem Recalls.save {now : Timestamp} (h : d.Recalls ws) (htidy : e.store.IsTidy)
    (hkept : e.store.kept = KeptWorkflow.save w now d.store.kept) : e.Recalls (ws ++ [w]) where
  tidy := htidy
  slugs := by
    rw [hkept, KeptWorkflow.map_slug_save, List.map_append, List.map_singleton, eraseDups_concat,
      h.slugs]
    simp only [List.mem_eraseDups]
  latest k hk := h.latest_of_save (hkept ▸ hk)

/-- The empty store recalls that nothing was saved. -/
theorem Recalls.start (hw : d.store.workflows = []) (hs : d.store.steps = []) : d.Recalls [] := by
  have hkept : d.store.kept = [] := by rw [Store.kept, hw, List.map_nil]
  exact {
    tidy := ⟨by simp [hw], by simp [hw], by simp [hs]⟩
    slugs := by simp [hkept]
    latest := by simp [hkept] }

end Desk

/-- A call either saves its workflow at the present or leaves all workflows as they are. -/
theorem SaveCall.play_cases (c : SaveCall) (d : Desk) :
    (c.saves d = false ∧ (c.turn.play d).store.workflows = d.store.workflows ∧
      (c.turn.play d).store.steps = d.store.steps ∧
      (Action.faultOf c.office "save_workflow" = none →
        ∃ now ids failure, d.store.saveWorkflow c.workflow now ids = .error failure)) ∨
    c.saves d = true ∧ ∃ stored ids,
      d.store.saveWorkflow c.workflow (c.start d).time ids =
        .ok (stored, (c.turn.play d).store) := by
  have hplay : c.turn.play d = ((Archive.saveWorkflow c.workflow).run c.office (c.start d)).2 :=
    Action.desk_bind_pure _ _ _ _
  rcases hrun : (Archive.saveWorkflow c.workflow).run c.office (c.start d) with ⟨ending, e⟩
  rw [hplay, SaveCall.saves, hrun]
  obtain ⟨failure, rfl, hq, hfail⟩ | ⟨_, stored, t, rfl, ht, rfl⟩ :=
    Archive.saveWorkflow_outcome hrun
  · refine .inl ⟨rfl, hq.workflows, hq.steps, fun hnone => ?_⟩
    rw [hnone] at hfail
    obtain hfail | hfail := hfail
    · cases hfail
    · exact ⟨_, _, _, hfail⟩
  · exact .inr ⟨rfl, stored, _, ht⟩

namespace Desk

variable {d : Desk} {ws : List Workflow}

/-- A call adds its workflow to those that are recalled if it saves it. -/
theorem Recalls.play (h : d.Recalls ws) (c : SaveCall) :
    (c.turn.play d).Recalls (ws ++ if c.saves d then [c.workflow] else []) := by
  obtain ⟨hno, hw, hs, _⟩ | ⟨hyes, stored, ids, hsave⟩ := c.play_cases d
  · rw [hno, if_neg Bool.false_ne_true, List.append_nil]
    exact h.of_eq hw hs
  · obtain ⟨htidy, hkept, _⟩ := h.tidy.saved hsave
    rw [hyes, if_pos rfl]
    exact h.save htidy hkept

theorem Recalls.afterSaves (cs : List SaveCall) :
    ∀ {d : Desk} {ws : List Workflow}, d.Recalls ws →
      (d.afterSaves cs).Recalls (ws ++ d.saved cs) := by
  induction cs with
  | nil =>
    intro d ws h
    rwa [saved, List.append_nil]
  | cons c rest ih =>
    intro d ws h
    have hrest := ih (h.play c)
    rw [List.append_assoc] at hrest
    have hsaved : d.saved (c :: rest) =
        (if c.saves d then [c.workflow] else []) ++ (c.turn.play d).saved rest := by
      rw [saved]
      split <;> rfl
    rw [hsaved]
    exact hrest

/-- Where the times at which workflows were first saved ascend, and those at which calls save more
of them go on so, they ascend after the calls. -/
theorem times_afterSaves (cs : List SaveCall) :
    ∀ {d : Desk}, d.store.IsTidy →
      (d.store.kept.map (·.createdAt.wall) ++ d.savedAt cs).Pairwise (· < ·) →
      ((d.afterSaves cs).store.kept.map (·.createdAt.wall)).Pairwise (· < ·) := by
  induction cs with
  | nil =>
    intro d _ h
    rwa [savedAt, List.append_nil] at h
  | cons c rest ih =>
    intro d htidy h
    rw [savedAt] at h
    obtain ⟨hno, hw, hs, _⟩ | ⟨hyes, stored, ids, hsave⟩ := c.play_cases d
    · rw [hno, if_neg Bool.false_ne_true, ← Store.kept_of_eq hw hs] at h
      exact ih (htidy.of_eq hw hs) h
    · obtain ⟨htidy', hkept, _⟩ := htidy.saved hsave
      rw [hyes, if_pos rfl, List.append_cons] at h
      refine ih htidy' (h.sublist (List.Sublist.append_right ?_ _))
      rw [hkept]
      exact KeptWorkflow.times_save c.workflow _ _

/-- A call leaves what is read under other slugs as it is. -/
theorem workflow?_play (h : d.store.IsTidy) (c : SaveCall) {slug : String}
    (hne : slug ≠ c.workflow.slug) :
    (c.turn.play d).store.workflow? slug = d.store.workflow? slug := by
  obtain ⟨_, hw, hs, _⟩ | ⟨_, _, _, hsave⟩ := c.play_cases d
  · exact Store.workflow?_of_eq hw hs slug
  · exact (h.saved hsave).2.2 slug hne

end Desk

/-! ## What readers show -/

namespace Store

variable {s : Store} {ws : List Workflow}

/-- A stored head stands for what is kept of its workflow. -/
theorem standsFor_workflow {r : WorkflowRecord} {first last : Workflow}
    (hid : r.id = first.id) (h : (s.keptOf r).Is last) : (s.workflow r).StandsFor first last where
  id := hid
  slug := h.slug
  name := h.name
  description := h.description
  trigger := h.trigger
  isActive := h.isActive
  steps := h.steps
  ascending hnodup := by
    have hcontent : ((s.workflow r).steps.map WorkflowStep.content).map (·.order) =
        (last.orderedSteps.map WorkflowStep.content).map (·.order) :=
      congrArg (List.map (·.order)) h.steps
    rw [List.map_map, List.map_map] at hcontent
    have horders : ((s.workflow r).steps.map (·.order)).Pairwise (· < ·) := by
      refine Eq.mpr (congrArg (List.Pairwise (· < ·)) hcontent) ?_
      exact List.pairwise_map.2 (Workflow.orderedSteps_strict hnodup)
    exact List.pairwise_map.1 horders

/-- A stored workflow is read under its slug. -/
theorem IsTidy.workflow?_eq (hs : s.IsTidy) {r : WorkflowRecord} (hr : r ∈ s.workflows) :
    s.workflow? r.slug = some (s.workflow r) :=
  congrArg (Option.map s.workflow) (hs.workflowRecord?_eq hr)

/-- What is read under the slugs of the stored heads is what these stand for. -/
theorem IsTidy.shown_eq (hs : s.IsTidy)
    (hslugs : s.workflows.map (·.slug) = (ws.map (·.slug)).eraseDups) :
    s.shown ws = s.workflows.map s.workflow := by
  rw [shown, ← hslugs, List.filterMap_map, ← List.filterMap_eq_map]
  exact List.filterMap_congr fun r hr => hs.workflow?_eq hr

/-- Workflows are listed by slug, each once. -/
theorem IsTidy.allWorkflows_spec (hs : s.IsTidy) (activeOnly : Bool) :
    (s.allWorkflows activeOnly).Perm
      ((s.workflows.map s.workflow).filter fun w => !activeOnly || w.isActive) ∧
    (s.allWorkflows activeOnly).Pairwise (·.slug < ·.slug) := by
  have hperm := List.mergeSort_perm (s.workflows.filter fun r => !activeOnly || r.isActive)
    fun a b => decide (a.slug ≤ b.slug)
  constructor
  · rw [List.filter_map]
    exact hperm.map s.workflow
  · have hsorted : ((s.workflows.filter fun r => !activeOnly || r.isActive).mergeSort
          fun a b => decide (a.slug ≤ b.slug)).Pairwise
        fun a b => decide (a.slug ≤ b.slug) = true := by
      refine List.pairwise_mergeSort (fun a b c hab hbc => ?_) (fun a b => ?_) _
      · exact decide_eq_true (String.le_trans (of_decide_eq_true hab) (of_decide_eq_true hbc))
      · simpa using String.le_total a.slug b.slug
    have hnodup := (hperm.map (·.slug)).nodup_iff.2 (hs.slugs.sublist (List.filter_sublist.map _))
    refine List.pairwise_map.2 ((hsorted.and (List.pairwise_map.1 hnodup)).imp fun ⟨hle, hne⟩ => ?_)
    exact Std.lt_of_le_of_ne (of_decide_eq_true hle) hne

/-- Those that a type of event sets off are among the stored workflows, each as often as there. -/
theorem activeWorkflows_perm (s : Store) (trigger : String) :
    (s.activeWorkflows trigger).Perm
      ((s.workflows.map s.workflow).filter fun w => w.trigger == trigger && w.isActive) := by
  rw [activeWorkflows, List.filter_map]
  exact (List.mergeSort_perm _ _).map s.workflow

/-- Where heads are stored in the order of their creation, those that a type of event sets off are
listed in that order. -/
theorem activeWorkflows_eq (htimes : (s.kept.map (·.createdAt.wall)).Pairwise (· < ·))
    (trigger : String) : s.activeWorkflows trigger =
      (s.workflows.map s.workflow).filter fun w => w.trigger == trigger && w.isActive := by
  have hheads : s.workflows.Pairwise fun a b => a.createdAt.wall < b.createdAt.wall := by
    rwa [kept, List.map_map, List.pairwise_map] at htimes
  have hsorted := (hheads.filter fun r => r.trigger == trigger && r.isActive).imp
    fun hab => runsBefore_iff.2 (.inl hab)
  rw [activeWorkflows, List.mergeSort_of_pairwise hsorted, List.filter_map]
  rfl

end Store

namespace Desk

variable {d : Desk} {ws : List Workflow}

/-- What is recalled is shown. -/
theorem Recalls.shows (h : d.Recalls ws) : d.store.Shows ws := by
  have hslugs : d.store.workflows.map (·.slug) = (ws.map (·.slug)).eraseDups := by
    rw [← h.slugs, Store.slugs_kept]
  have hshown := h.tidy.shown_eq hslugs
  exact {
    slugs := hslugs
    once := h.tidy.slugs
    latest := fun slug hslug => by
      obtain ⟨k, hk, rfl⟩ := h.mem_iff.2 hslug
      obtain ⟨first, last, hfirst, hlast, hid, his⟩ := h.latest k hk
      obtain ⟨r, hr, rfl⟩ := List.mem_map.1 hk
      exact ⟨first, last, _, hfirst, hlast, h.tidy.workflow?_eq hr,
        Store.standsFor_workflow hid his⟩
    all := by
      rw [hshown]
      exact h.tidy.allWorkflows_spec
    active := by
      rw [hshown]
      exact d.store.activeWorkflows_perm }

/-- Calls in which every integer fits the store, and in which no two slugs come with one id, save
their workflows. -/
theorem Recalls.saved_eq (cs : List SaveCall)
    (hcalls : ∀ c ∈ cs, Action.faultOf c.office "save_workflow" = none ∧
      Store.checkWorkflow c.workflow = .ok ()) :
    ∀ {d : Desk} {ws : List Workflow}, d.Recalls ws →
      (∀ w ∈ ws ++ cs.map (·.workflow), ∀ w' ∈ ws ++ cs.map (·.workflow),
        w.id = w'.id → w.slug = w'.slug) →
      d.saved cs = cs.map (·.workflow) := by
  induction cs with
  | nil => exact fun _ _ => rfl
  | cons c rest ih =>
    intro d ws h hids
    obtain ⟨⟨hfault, hcheck⟩, hrest⟩ := List.forall_mem_cons.1 hcalls
    have hown : c.workflow ∈ ws ++ (c :: rest).map (·.workflow) :=
      List.mem_append_right _ List.mem_cons_self
    -- A stored workflow has its slug, or another id.
    have hfree : (∃ k ∈ d.store.kept, k.slug = c.workflow.slug) ∨
        ∀ k ∈ d.store.kept, k.id ≠ c.workflow.id := by
      refine or_iff_not_imp_right.2 fun htaken => ?_
      obtain ⟨k, hk, hid⟩ : ∃ k ∈ d.store.kept, k.id = c.workflow.id := by simpa using htaken
      obtain ⟨first, last, hfirst, _, hid', _⟩ := h.latest k hk
      have hfirst' : first ∈ ws ++ (c :: rest).map (·.workflow) :=
        List.mem_append_left _ (List.mem_of_find?_eq_some hfirst)
      have hslug : first.slug = k.slug := by simpa using List.find?_some hfirst
      exact ⟨k, hk, hslug ▸ hids first hfirst' _ hown (hid'.symm.trans hid)⟩
    have hsaves : c.saves d = true := by
      obtain ⟨_, _, _, hfail⟩ | ⟨hyes, _⟩ := c.play_cases d
      · obtain ⟨now, ids, failure, hfailure⟩ := hfail hfault
        obtain ⟨_, _, hsave⟩ := Store.exists_saved hcheck hfree now ids
        rw [hsave] at hfailure
        cases hfailure
      · exact hyes
    have hplay := h.play c
    rw [hsaves, if_pos rfl] at hplay
    rw [saved, hsaves, if_pos rfl, List.map_cons]
    refine congrArg (c.workflow :: ·) (ih hrest hplay ?_)
    rw [List.append_assoc]
    exact hids

/-- From a store without workflows on, whatever calls save workflows: every reader shows what was
saved last under each slug, each call leaves what is read under other slugs as it is, and no call is
refused whose integers fit the store and whose id does not come with another slug. If the clock
shows a later time at each save than at those before it, the workflows that a type of event sets off
are listed in the order in which their slugs were first saved. -/
theorem shows_saved (d : Desk) (hworkflows : d.store.workflows = []) (hsteps : d.store.steps = [])
    (cs : List SaveCall) :
    (d.afterSaves cs).store.Shows (d.saved cs) ∧
    ((d.savedAt cs).Pairwise (· < ·) → ∀ trigger,
      (d.afterSaves cs).store.activeWorkflows trigger =
        ((d.afterSaves cs).store.shown (d.saved cs)).filter fun w =>
          w.trigger == trigger && w.isActive) ∧
    (∀ (c : SaveCall) (slug : String), slug ≠ c.workflow.slug →
      (d.afterSaves (cs ++ [c])).store.workflow? slug = (d.afterSaves cs).store.workflow? slug) ∧
    ((∀ c ∈ cs, Action.faultOf c.office "save_workflow" = none ∧
        Store.checkWorkflow c.workflow = .ok ()) →
      (∀ c ∈ cs, ∀ c' ∈ cs, c.workflow.id = c'.workflow.id → c.workflow.slug = c'.workflow.slug) →
      d.saved cs = cs.map (·.workflow)) := by
  have hstart : d.Recalls [] := .start hworkflows hsteps
  have hafter : (d.afterSaves cs).Recalls (d.saved cs) := hstart.afterSaves cs
  refine ⟨hafter.shows, fun htimes trigger => ?_, fun c slug hne => ?_, fun hcalls hids => ?_⟩
  · rw [hafter.tidy.shown_eq hafter.shows.slugs]
    refine Store.activeWorkflows_eq (times_afterSaves cs hstart.tidy ?_) trigger
    rwa [Store.kept, hworkflows, List.map_nil, List.map_nil, List.nil_append]
  · have hlast : d.afterSaves (cs ++ [c]) = c.turn.play (d.afterSaves cs) := by
      rw [afterSaves, List.map_append, after_append]
      rfl
    rw [hlast]
    exact workflow?_play hafter.tidy c hne
  · refine hstart.saved_eq cs hcalls fun w hw w' hw' => ?_
    obtain ⟨c, hc, rfl⟩ := List.mem_map.1 hw
    obtain ⟨c', hc', rfl⟩ := List.mem_map.1 hw'
    exact hids c hc c' hc'

/-- A workflow is saved once more under its slug, after another one: it has the id that came first,
the name that came last, and the one step that came with it. -/
theorem shows_saved_renamed :
    let hello : WorkflowStep := { order := 1, name := "Hello", action := .prompt }
    let bye : WorkflowStep := { order := 2, name := "Bye", action := .prompt }
    let greet : Workflow :=
      { id := "one", slug := "greet", name := "Greet", trigger := "asked", steps := [bye, hello] }
    let other : Workflow := { id := "two", slug := "other", name := "Other", trigger := "asked" }
    let renamed : Workflow := { greet with id := "three", name := "Renamed", steps := [hello] }
    let cs : List SaveCall :=
      [{ workflow := greet }, { workflow := other }, { workflow := renamed }]
    (∃ shown, (({} : Desk).afterSaves cs).store.workflow? "greet" = some shown ∧
      shown.id = "one" ∧ shown.name = "Renamed" ∧ shown.steps.length = 1) ∧
    (({} : Desk).afterSaves cs).store.activeWorkflows "asked" =
      ((({} : Desk).afterSaves cs).store.shown [greet, other, renamed]).filter fun w =>
        w.trigger == "asked" && w.isActive := by
  intro hello bye greet other renamed cs
  obtain ⟨hshows, hactive, _, hall⟩ := shows_saved {} rfl rfl cs
  have htimes : ({} : Desk).savedAt cs = [0, 1, 2] := by decide +kernel
  have hsaved : ({} : Desk).saved cs = [greet, other, renamed] := by
    refine hall ?_ ?_
    · simp only [cs, List.forall_mem_cons]
      exact ⟨⟨rfl, rfl⟩, ⟨rfl, rfl⟩, ⟨rfl, rfl⟩, by simp⟩
    · simp [cs, greet, other, renamed]
  rw [hsaved] at hshows hactive
  obtain ⟨first, last, shown, hfirst, hlast, hread, hstands⟩ :=
    hshows.latest "greet" List.mem_cons_self
  obtain rfl : greet = first := Option.some.inj hfirst
  obtain rfl : renamed = last := Option.some.inj hlast
  refine ⟨⟨shown, hread, hstands.id, hstands.name, ?_⟩,
    hactive (by rw [htimes]; decide) "asked"⟩
  have hsteps := congrArg List.length hstands.steps
  rw [List.length_map, List.length_map, renamed.orderedSteps_perm.length_eq] at hsteps
  exact hsteps

/-- With a clock that goes back, the workflow that was saved last is listed first. -/
theorem active_of_clock_back :
    let greet : Workflow := { id := "one", slug := "greet", name := "Greet", trigger := "asked" }
    let other : Workflow := { id := "two", slug := "other", name := "Other", trigger := "asked" }
    let d : Desk := { dial := fun moment => -moment }
    let cs : List SaveCall := [{ workflow := greet }, { workflow := other }]
    ((d.afterSaves cs).store.activeWorkflows "asked").map (·.slug) = ["other", "greet"] ∧
    (((d.afterSaves cs).store.shown (d.saved cs)).filter fun w =>
      w.trigger == "asked" && w.isActive).map (·.slug) = ["greet", "other"] := by
  intro greet other d cs
  refine ⟨?_, by decide +kernel⟩
  obtain ⟨first, last, hheads, hfirst, hlast, hback⟩ : ∃ first last : WorkflowRecord,
      ((d.afterSaves cs).store.workflows.filter fun r => r.trigger == "asked" && r.isActive) =
        [first, last] ∧ first.slug = "greet" ∧ last.slug = "other" ∧
      last.createdAt.wall < first.createdAt.wall := ⟨_, _, rfl, rfl, rfl, by decide +kernel⟩
  have hsorted : [first, last].mergeSort Store.runsBefore = [last, first] := by
    have hnot : Store.runsBefore first last = false := by
      rw [Bool.eq_false_iff, Ne, Store.runsBefore_iff]
      omega
    simp [List.mergeSort, hnot]
  rw [Store.activeWorkflows, hheads, hsorted]
  exact congrArg₂ (fun a b => [a, b]) hlast hfirst

end Desk

end LeadDesk
