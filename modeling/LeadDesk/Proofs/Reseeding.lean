import LeadDesk.Catalog.Bundled
import LeadDesk.Catalog.Seed
import LeadDesk.Proofs.SavedWorkflows
/-!
# To seed again

A workflow that is saved a second time is kept as the first save has left it, but for its category.
Without a category of its own it is filed under the general one when it is the first under its slug,
and under none at every later save (`Store.save_again`). So to seed a document a second time changes
nothing exactly when each of its workflows has a category or was stored before the first time
(`Catalog.seed_again`).
-/

namespace LeadDesk

namespace KeptWorkflow

variable {w : Workflow} {ws : List Workflow} {now : Timestamp} {ks : List KeptWorkflow}
  {k : KeptWorkflow}

/-- Put what is kept under the slugs of some workflows into the categories of these. -/
def refile (ws : List Workflow) (ks : List KeptWorkflow) : List KeptWorkflow :=
  ks.map fun k =>
    match ws.find? (·.slug == k.slug) with
    | some w => { k with category := w.category }
    | none => k

theorem refile_nil (ks : List KeptWorkflow) : refile [] ks = ks := List.map_id ks

theorem refile_singleton (w : Workflow) (ks : List KeptWorkflow) : refile [w] ks =
    ks.map fun k => if w.slug == k.slug then { k with category := w.category } else k := by
  refine List.map_congr_left fun k _ => ?_
  by_cases hslug : w.slug = k.slug <;> simp [hslug]

/-- Workflows with different slugs are put into their categories one after the other. -/
theorem refile_refile (h : ∀ v ∈ ws, v.slug ≠ w.slug) (ks : List KeptWorkflow) :
    refile ws (refile [w] ks) = refile (w :: ws) ks := by
  rw [refile_singleton, refile, refile, List.map_map]
  refine List.map_congr_left fun k _ => ?_
  by_cases hslug : w.slug = k.slug
  · have hnone : ws.find? (·.slug == k.slug) = none := by
      rw [List.find?_eq_none]
      intro v hv heq
      exact h v hv ((beq_iff_eq.1 heq).trans hslug.symm)
    simp [hslug, hnone]
  · simp [hslug]

/-- To put workflows into their categories changes nothing when they are in them. -/
theorem refile_eq_self_iff : refile ws ks = ks ↔
    ∀ k ∈ ks, ∀ w, ws.find? (·.slug == k.slug) = some w → k.category = w.category := by
  have hself : (refile ws ks = ks) = (refile ws ks = ks.map fun k => k) := by rw [List.map_id']
  rw [hself, refile, List.map_inj_left]
  refine forall₂_congr fun k _ => ?_
  cases hfound : ws.find? (·.slug == k.slug) with
  | none => simp
  | some w =>
    simp only [Option.some.injEq, forall_eq']
    constructor
    · intro h
      exact (congrArg KeptWorkflow.category h).symm
    · intro h
      rw [← h]

/-- What is put into another category is the same workflow. -/
theorem exists_is_refile (h : ∃ k ∈ ks, k.Is w) : ∃ k ∈ refile ws ks, k.Is w := by
  obtain ⟨k, hk, his⟩ := h
  refine ⟨_, List.mem_map_of_mem hk, ?_⟩
  split
  · exact ⟨his.slug, his.name, his.description, his.trigger, his.version, his.isActive, his.steps⟩
  · exact his

/-- To save a workflow that is kept puts it into its category and changes nothing else. -/
theorem save_of_is (hslugs : (ks.map (·.slug)).Nodup) (h : ∃ k ∈ ks, k.Is w) (now : Timestamp) :
    save w now ks = refile [w] ks := by
  obtain ⟨k, hk, his⟩ := h
  rw [save_of_mem ⟨k, hk, his.slug⟩, refile_singleton]
  refine List.map_congr_left fun k' hk' => ?_
  by_cases hslug : k'.slug = w.slug
  · obtain rfl : k' = k := List.inj_on_of_nodup_map hslugs hk' hk (hslug.trans his.slug.symm)
    simp [hslug, renewed, ← his.name, ← his.description, ← his.trigger, ← his.version,
      ← his.isActive, ← his.steps]
  · simp [hslug, Ne.symm hslug]

end KeptWorkflow

namespace Store

variable {s t : Store} {w stored : Workflow} {now : Timestamp} {ids : Nat → String}

/-- The category that a workflow is filed under when it is saved. The first one under a slug is
filed under the general category if it has none. -/
def categoryFor (s : Store) (w : Workflow) : Option String :=
  if (s.workflow? w.slug).isSome then w.category else some (w.category.getD generalCategory)

/-- The workflow is filed under its own category if it has one or is not the first under its
slug. -/
theorem categoryFor_eq_iff : s.categoryFor w = w.category ↔
    w.category.isSome = true ∨ (s.workflow? w.slug).isSome = true := by
  unfold categoryFor
  split
  · rename_i hstored
    exact iff_of_true rfl (.inr hstored)
  · rename_i hnone
    rw [or_iff_left hnone]
    cases w.category <;> simp

/-- A workflow that was saved is kept. -/
theorem IsTidy.exists_is (hs : s.IsTidy) (h : s.saveWorkflow w now ids = .ok (stored, t)) :
    ∃ k ∈ t.kept, k.Is w ∧ k.category = s.categoryFor w := by
  obtain ⟨_, hkept, _⟩ := hs.saved h
  have hstored : (s.workflow? w.slug).isSome = (s.workflowRecord? w.slug).isSome :=
    Option.isSome_map
  rw [hkept, categoryFor, hstored]
  cases hrecord : s.workflowRecord? w.slug with
  | none =>
    rw [KeptWorkflow.save_of_not_mem (workflowRecord?_eq_none_iff.1 hrecord)]
    exact ⟨_, List.mem_append_right _ (List.mem_singleton_self _), KeptWorkflow.is_added w now, rfl⟩
  | some old =>
    obtain ⟨hmem, hslug⟩ := mem_of_workflowRecord? hrecord
    have hmem' : s.keptOf old ∈ s.kept := List.mem_map_of_mem hmem
    rw [KeptWorkflow.save_of_mem ⟨_, hmem', hslug⟩]
    refine ⟨(s.keptOf old).renewed w, List.mem_map.2 ⟨_, hmem', ?_⟩,
      KeptWorkflow.is_renewed hslug, rfl⟩
    exact if_pos (beq_iff_eq.2 hslug)

theorem IsTidy.slugs_kept_nodup (hs : s.IsTidy) : (s.kept.map (·.slug)).Nodup :=
  s.slugs_kept ▸ hs.slugs

/-- A workflow that is kept can be saved at any time, which puts it into its category and changes
nothing else. -/
theorem IsTidy.exists_resaved (hs : s.IsTidy) (hkept : ∃ k ∈ s.kept, k.Is w)
    (hcheck : checkWorkflow w = .ok ()) (now : Timestamp) (ids : Nat → String) :
    ∃ stored t, s.saveWorkflow w now ids = .ok (stored, t) ∧ t.IsTidy ∧
      t.kept = KeptWorkflow.refile [w] s.kept := by
  obtain ⟨k, hk, his⟩ := hkept
  obtain ⟨stored, t, ht⟩ := exists_saved hcheck (.inl ⟨k, hk, his.slug⟩) now ids
  obtain ⟨htidy, hsave, _⟩ := hs.saved ht
  exact ⟨stored, t, ht, htidy,
    hsave.trans (KeptWorkflow.save_of_is hs.slugs_kept_nodup ⟨k, hk, his⟩ now)⟩

/-- Where workflows were saved, to put them into their categories changes nothing exactly when each
of them has a category or was stored before. -/
theorem IsTidy.refile_eq_self_iff {ws : List Workflow} (ht : t.IsTidy)
    (hws : (ws.map (·.slug)).Nodup)
    (hkept : ∀ w ∈ ws, ∃ k ∈ t.kept, k.Is w ∧ k.category = s.categoryFor w) :
    KeptWorkflow.refile ws t.kept = t.kept ↔
      ∀ w ∈ ws, w.category.isSome = true ∨ (s.workflow? w.slug).isSome = true := by
  rw [KeptWorkflow.refile_eq_self_iff]
  constructor
  · intro h w hw
    obtain ⟨k, hk, his, hcategory⟩ := hkept w hw
    have hsome : (ws.find? (·.slug == k.slug)).isSome = true :=
      List.find?_isSome.2 ⟨w, hw, beq_iff_eq.2 his.slug.symm⟩
    obtain ⟨v, hv⟩ := Option.isSome_iff_exists.1 hsome
    have hslug : v.slug = k.slug := by simpa using List.find?_some hv
    obtain rfl : v = w :=
      List.inj_on_of_nodup_map hws (List.mem_of_find?_eq_some hv) hw (hslug.trans his.slug)
    exact categoryFor_eq_iff.1 (hcategory.symm.trans (h k hk v hv))
  · intro h k hk w hfound
    have hw := List.mem_of_find?_eq_some hfound
    have hslug : w.slug = k.slug := by simpa using List.find?_some hfound
    obtain ⟨k', hk', his, hcategory⟩ := hkept w hw
    obtain rfl : k' = k :=
      List.inj_on_of_nodup_map ht.slugs_kept_nodup hk' hk (his.slug.trans hslug)
    exact hcategory.trans (categoryFor_eq_iff.2 (h w hw))

/-- A workflow that was saved can be saved again at any time. That changes at most its category, and
changes nothing exactly when the workflow has a category or its slug was stored before. -/
theorem save_again (hs : s.IsTidy) (h : s.saveWorkflow w now ids = .ok (stored, t))
    (now' : Timestamp) (ids' : Nat → String) :
    ∃ stored' u, t.saveWorkflow w now' ids' = .ok (stored', u) ∧
      u.kept = KeptWorkflow.refile [w] t.kept ∧
      (u.kept = t.kept ↔ w.category.isSome = true ∨ (s.workflow? w.slug).isSome = true) := by
  obtain ⟨htidy, _⟩ := hs.saved h
  obtain ⟨k, hk, his, hcategory⟩ := hs.exists_is h
  obtain ⟨stored', u, hu, _, hrefiled⟩ :=
    htidy.exists_resaved ⟨k, hk, his⟩ (saveWorkflow_cases h).1 now' ids'
  refine ⟨stored', u, hu, hrefiled, ?_⟩
  have hkept : ∀ v ∈ [w], ∃ k ∈ t.kept, k.Is v ∧ k.category = s.categoryFor v := by
    simpa using ⟨k, hk, his, hcategory⟩
  rw [hrefiled, htidy.refile_eq_self_iff (by simp) hkept]
  simp

end Store

namespace Catalog

variable {o : Office} {d e : Desk} {w : Workflow} {ws ws' : List Workflow}

theorem saveAll_cons_eq_done {slugs : List String}
    (h : (saveAll (w :: ws)).run o d = (.done slugs, e)) :
    ∃ stored m more, (Archive.saveWorkflow w).run o d = (.done stored, m) ∧
      (saveAll ws).run o m = (.done more, e) ∧ slugs = w.slug :: more := by
  obtain ⟨stored, m, hsave, hrest⟩ := Action.run_bind_eq_done.1 h
  obtain ⟨more, m', hmore, hdone⟩ := Action.run_bind_eq_done.1 hrest
  obtain ⟨rfl, rfl⟩ := Action.run_pure_eq_done.1 hdone
  exact ⟨stored, m, more, hsave, hmore, rfl⟩

/-- Workflows with different slugs that are saved in turn are all kept. -/
theorem kept_of_saveAll (ws : List Workflow) (hws : (ws.map (·.slug)).Nodup) :
    ∀ {d : Desk} {slugs : List String}, d.store.IsTidy →
      (saveAll ws).run o d = (.done slugs, e) →
      slugs = ws.map (·.slug) ∧ e.store.IsTidy ∧
      (∀ w ∈ ws, Store.checkWorkflow w = .ok () ∧
        ∃ k ∈ e.store.kept, k.Is w ∧ k.category = d.store.categoryFor w) ∧
      ∀ k, (∀ w ∈ ws, k.slug ≠ w.slug) → k ∈ d.store.kept → k ∈ e.store.kept := by
  induction ws with
  | nil =>
    intro d slugs hd h
    obtain ⟨rfl, rfl⟩ := Action.run_pure_eq_done.1 h
    exact ⟨rfl, hd, by simp, fun _ _ hk => hk⟩
  | cons w rest ih =>
    intro d slugs hd h
    obtain ⟨hown, hrest⟩ := List.nodup_cons.1 hws
    obtain ⟨stored, m, more, hsave, hmore, rfl⟩ := saveAll_cons_eq_done h
    obtain ⟨_, hf, _⟩ | ⟨_, stored', t, _, ht, hm⟩ := Archive.saveWorkflow_outcome hsave
    · cases hf
    have hstore : m.store = t := by rw [hm]
    subst hstore
    obtain ⟨htidy, hkept, hothers⟩ := hd.saved ht
    obtain ⟨rfl, he, hall, hstay⟩ := ih hrest htidy hmore
    have hne : ∀ v ∈ rest, v.slug ≠ w.slug := fun v hv heq =>
      hown (List.mem_map.2 ⟨v, hv, heq⟩)
    refine ⟨rfl, he, List.forall_mem_cons.2 ⟨⟨(Store.saveWorkflow_cases ht).1, ?_⟩,
      fun v hv => ?_⟩, fun k hk hmem => ?_⟩
    · obtain ⟨k, hk, his, hcategory⟩ := hd.exists_is ht
      refine ⟨k, hstay k (fun v hv => ?_) hk, his, hcategory⟩
      rw [his.slug]
      exact (hne v hv).symm
    · obtain ⟨hcheck, k, hk, his, hcategory⟩ := hall v hv
      refine ⟨hcheck, k, hk, his, hcategory.trans ?_⟩
      rw [Store.categoryFor, Store.categoryFor, hothers v.slug (hne v hv)]
    · obtain ⟨hslug, hslugs⟩ := List.forall_mem_cons.1 hk
      refine hstay k hslugs ?_
      rw [hkept]
      exact KeptWorkflow.mem_save_of_ne hslug hmem

/-- The lists have the same workflows, under ids that may differ. -/
def SameButIds : List Workflow → List Workflow → Prop :=
  List.Forall₂ fun w w' => ∃ id, w' = { w with id := id }

/-- Workflows that are kept can be saved in turn, which puts them into their categories and changes
nothing else. -/
theorem exists_saveAll (hsame : SameButIds ws ws') (hws : (ws.map (·.slug)).Nodup)
    (hfault : Action.faultOf o "save_workflow" = none) :
    ∀ {d : Desk}, d.store.IsTidy →
      (∀ w ∈ ws, Store.checkWorkflow w = .ok () ∧ ∃ k ∈ d.store.kept, k.Is w) →
      ∃ e, (saveAll ws').run o d = (.done (ws.map (·.slug)), e) ∧
        e.store.kept = KeptWorkflow.refile ws d.store.kept := by
  induction hsame with
  | nil => exact fun {d} _ _ => ⟨d, rfl, (KeptWorkflow.refile_nil _).symm⟩
  | @cons w w' rest rest' hw _ ih =>
    intro d hd hall
    obtain ⟨id, rfl⟩ := hw
    obtain ⟨hown, hrest⟩ := List.nodup_cons.1 hws
    obtain ⟨⟨hcheck, k, hk, his⟩, hlater⟩ := List.forall_mem_cons.1 hall
    have his' : k.Is { w with id := id } :=
      ⟨his.slug, his.name, his.description, his.trigger, his.version, his.isActive, his.steps⟩
    obtain ⟨stored, t, ht, htidy, hkept⟩ := hd.exists_resaved ⟨k, hk, his'⟩ hcheck
      d.time fun n => freshId (d.nextId + n)
    rcases hsave : (Archive.saveWorkflow { w with id := id }).run o d with ⟨ending, m⟩
    obtain ⟨_, _, _, hf | hf⟩ | ⟨_, stored', t', rfl, ht', hm⟩ := Archive.saveWorkflow_outcome hsave
    · rw [hfault] at hf
      cases hf
    · rw [ht] at hf
      cases hf
    obtain ⟨rfl, rfl⟩ : stored = stored' ∧ t = t' := by
      simpa using Except.ok.inj (ht.symm.trans ht')
    have hstore : m.store = t := by rw [hm]
    obtain ⟨e, hmore, hrefiled⟩ := ih hrest (hstore ▸ htidy) fun v hv => by
      obtain ⟨hcheck', hv'⟩ := hlater v hv
      refine ⟨hcheck', ?_⟩
      rw [hstore, hkept]
      exact KeptWorkflow.exists_is_refile hv'
    refine ⟨e, ?_, ?_⟩
    · rw [saveAll, Action.run_bind_of_done hsave, Action.run_bind_of_done hmore]
      rfl
    · have hsingle : KeptWorkflow.refile [{ w with id := id }] d.store.kept =
          KeptWorkflow.refile [w] d.store.kept := by
        rw [KeptWorkflow.refile_singleton, KeptWorkflow.refile_singleton]
      rw [hrefiled, hstore, hkept, hsingle]
      exact KeptWorkflow.refile_refile
        (fun v hv heq => hown (List.mem_map.2 ⟨v, hv, heq⟩)) d.store.kept

/-- To save workflows a second time, under ids that may differ. -/
theorem saveAll_again {o' : Office} {e' : Desk} {slugs : List String} (hd : d.store.IsTidy)
    (hsame : SameButIds ws ws') (hws : (ws.map (·.slug)).Nodup)
    (h : (saveAll ws).run o d = (.done slugs, e))
    (hfault : Action.faultOf o' "save_workflow" = none) (hstore : e'.store = e.store) :
    ∃ f, (saveAll ws').run o' e' = (.done slugs, f) ∧
      f.store.kept = KeptWorkflow.refile ws e.store.kept ∧
      (f.store.kept = e.store.kept ↔
        ∀ w ∈ ws, w.category.isSome = true ∨ (d.store.workflow? w.slug).isSome = true) := by
  obtain ⟨rfl, he, hall, _⟩ := kept_of_saveAll ws hws hd h
  obtain ⟨f, hrun, hrefiled⟩ := exists_saveAll hsame hws hfault (d := e') (hstore ▸ he)
    fun w hw => by
      obtain ⟨hcheck, k, hk, his, _⟩ := hall w hw
      exact ⟨hcheck, k, hstore ▸ hk, his⟩
  rw [hstore] at hrefiled
  refine ⟨f, hrun, hrefiled, ?_⟩
  rw [hrefiled]
  exact he.refile_eq_self_iff hws fun w hw => (hall w hw).2

/-- A written workflow is read in the same way under every id. -/
theorem toWorkflow_same {written : WrittenWorkflow} {id : String}
    (h : written.toWorkflow id = .ok w) (id' : String) :
    written.toWorkflow id' = .ok { w with id := id' } := by
  unfold WrittenWorkflow.toWorkflow at h ⊢
  cases hrepeated : repeatedOrder? [] (placeSteps 1 written.steps) with
  | some n =>
    simp only [hrepeated] at h
    cases h
  | none =>
    simp only [hrepeated] at h ⊢
    obtain rfl := Except.ok.inj h
    rfl

theorem toWorkflows_same {written : List WrittenWorkflow} {n : Nat}
    (h : toWorkflows n written = .ok ws) (m : Nat) :
    ∃ ws', toWorkflows m written = .ok ws' ∧ SameButIds ws ws' := by
  induction written generalizing n m ws with
  | nil =>
    obtain rfl := Except.ok.inj h
    exact ⟨[], rfl, .nil⟩
  | cons first rest ih =>
    unfold toWorkflows at h ⊢
    cases hfirst : first.toWorkflow (freshId n) with
    | error failure =>
      rw [hfirst] at h
      cases h
    | ok w =>
      cases hrest : toWorkflows (n + 1) rest with
      | error failure =>
        rw [hfirst, hrest] at h
        cases h
      | ok more =>
        rw [hfirst, hrest] at h
        obtain rfl : w :: more = ws := Except.ok.inj h
        obtain ⟨more', hmore, hsame⟩ := ih hrest (m + 1)
        rw [toWorkflow_same hfirst, hmore]
        exact ⟨_, rfl, .cons ⟨_, rfl⟩ hsame⟩

theorem ofDocument_same {file : String} {document : Json} {n : Nat}
    (h : ofDocument n file document = .ok ws) (m : Nat) :
    ∃ ws', ofDocument m file document = .ok ws' ∧ SameButIds ws ws' := by
  unfold ofDocument at h ⊢
  split at h
  · cases h
  · exact toWorkflows_same h m

theorem run_seedDocument {file : String} {document : Json} (o : Office)
    (h : ofDocument d.nextId file document = .ok ws) :
    (seedDocument file document).run o d =
      (saveAll ws).run o { d with nextId := d.nextId + listedIn document } := by
  have hload : (workflowsOf file document).run o d =
      (.done ws, { d with nextId := d.nextId + listedIn document }) := by
    simp only [workflowsOf, h]
  rw [seedDocument, Action.run_bind_of_done hload]

/-- Saving is idempotent but for the category. A workflow that was saved can be saved again at any
time, and so can all workflows of a document with different slugs that were seeded. The second time
leaves what is kept as the first time has left it, except that a workflow without a category loses
the general one; so nothing changes exactly when each workflow has a category or was stored before
the first time. -/
theorem seed_again (o : Office) (d : Desk) (hd : d.store.IsTidy) :
    (∀ w stored t now ids, d.store.saveWorkflow w now ids = .ok (stored, t) →
      ∀ now' ids', ∃ stored' u, t.saveWorkflow w now' ids' = .ok (stored', u) ∧
        u.kept = KeptWorkflow.refile [w] t.kept ∧
        (u.kept = t.kept ↔ w.category.isSome = true ∨ (d.store.workflow? w.slug).isSome = true)) ∧
    ∀ file document ws slugs e, ofDocument d.nextId file document = .ok ws →
      (ws.map (·.slug)).Nodup → (seedDocument file document).run o d = (.done slugs, e) →
      ∀ (o' : Office) (e' : Desk), Action.faultOf o' "save_workflow" = none → e'.store = e.store →
        ∃ f, (seedDocument file document).run o' e' = (.done slugs, f) ∧
          f.store.kept = KeptWorkflow.refile ws e.store.kept ∧
          (f.store.kept = e.store.kept ↔
            ∀ w ∈ ws, w.category.isSome = true ∨ (d.store.workflow? w.slug).isSome = true) := by
  refine ⟨fun w stored t now ids h now' ids' => Store.save_again hd h now' ids', ?_⟩
  intro file document ws slugs e hread hws h o' e' hfault hstore
  obtain ⟨ws', hread', hsame⟩ := ofDocument_same hread e'.nextId
  rw [run_seedDocument o hread] at h
  rw [run_seedDocument o' hread']
  exact saveAll_again (d := { d with nextId := d.nextId + listedIn document }) hd hsame hws h hfault
    hstore

/-- A document with one workflow that has no category is seeded twice: the workflow is in the
general category after the first time and in none after the second. -/
theorem seed_again_uncategorized :
    let document : Json := .object [("workflows", .array [.object [("slug", .string "greet"),
      ("name", .string "Greet"), ("trigger_event", .string "asked")]])]
    ∃ d e, (seedDocument "greet" document).run {} {} = (.done ["greet"], d) ∧
      (seedDocument "greet" document).run {} d = (.done ["greet"], e) ∧
      d.store.kept.map (·.category) = [some "general"] ∧
      e.store.kept.map (·.category) = [none] := by
  intro document
  have hstart : ({} : Desk).store.IsTidy := ⟨.nil, .nil, fun _ h => nomatch h⟩
  obtain ⟨d, hd, hgeneral⟩ : ∃ d, (seedDocument "greet" document).run {} {} = (.done ["greet"], d) ∧
      ∃ k : KeptWorkflow, d.store.kept = [k] ∧ k.slug = "greet" ∧ k.category = some "general" :=
    ⟨_, rfl, _, rfl, rfl, rfl⟩
  obtain ⟨k, hkept, hslug, hcategory⟩ := hgeneral
  let greet : Workflow := { id := freshId 1, slug := "greet", name := "Greet", trigger := "asked" }
  have hread : ofDocument 1 "greet" document = .ok [greet] := rfl
  obtain ⟨e, he, hrefiled, _⟩ := (seed_again {} {} hstart).2 "greet" document [greet] ["greet"] d
    hread (by simp) hd {} d rfl rfl
  refine ⟨d, e, hd, he, by simp [hkept, hcategory], ?_⟩
  rw [hrefiled, hkept, KeptWorkflow.refile_singleton]
  simp [hslug, greet]

/-- The workflows that come with the desk have categories, so to seed them again changes nothing. -/
theorem seedBundled_again {o o' : Office} {d e e' : Desk} {slugs : List String}
    (hd : d.store.IsTidy) (h : seed.run o d = (.done slugs, e))
    (hfault : Action.faultOf o' "save_workflow" = none) (hstore : e'.store = e.store) :
    ∃ f, seed.run o' e' = (.done slugs, f) ∧ f.store.kept = e.store.kept := by
  let ws (n : Nat) : List Workflow := bundled (freshId n) (freshId (n + 1)) (freshId (n + 2))
  have hseed : ∀ (o : Office) (d : Desk),
      seed.run o d = (saveAll (ws d.nextId)).run o { d with nextId := d.nextId + 3 } :=
    fun _ _ => rfl
  have hsame : SameButIds (ws d.nextId) (ws e'.nextId) :=
    .cons ⟨_, rfl⟩ (.cons ⟨_, rfl⟩ (.cons ⟨_, rfl⟩ .nil))
  have hslugs : ((ws d.nextId).map (·.slug)).Nodup := by
    simp [ws, bundled]
  rw [hseed] at h
  have hstore' : ({ e' with nextId := e'.nextId + 3 } : Desk).store = e.store := hstore
  obtain ⟨f, hrun, _, hiff⟩ :=
    saveAll_again (d := { d with nextId := d.nextId + 3 }) hd hsame hslugs h hfault hstore'
  refine ⟨f, (hseed o' e').trans hrun, hiff.2 fun w hw => .inl ?_⟩
  have hcategories : ∀ w ∈ ws d.nextId, w.category.isSome = true := by
    simp [ws, bundled]
  exact hcategories w hw

end Catalog

end LeadDesk
