import LeadDesk.Proofs.AuditTrail
/-!
# The places of steps in a document

A document gives each step its fields and perhaps an order; a step without one is numbered by its
position. Every document is either refused or read entry by entry and step by step under such a
numbering (`Catalog.Loads`), and one that keeps to the schema is accepted exactly when no workflow
of it has two steps of one order. The numbering is the one that was meant, except that an order of
zero counts as none (`Catalog.loads_by`).
-/

namespace LeadDesk

open Validation

/-! ## Lists of good values -/

namespace Validation

variable {α : Type} {check : Check α} {as : List α}

/-- The items of a list are checked one by one. -/
theorem itemsFrom_eq_good {index : Nat} {items : List Json} :
    itemsFrom check index items = .good as ↔
      List.Forall₂ (fun v a => check v = .good a) items as := by
  induction items generalizing index as with
  | nil => simp [itemsFrom, eq_comm]
  | cons v rest ih =>
    rw [itemsFrom, Checked.ap_eq_good, List.forall₂_cons_left_iff]
    constructor
    · rintro ⟨_, more, hfirst, hmore, rfl⟩
      obtain ⟨a, ha, rfl⟩ := Checked.map_eq_good.1 hfirst
      exact ⟨a, more, Checked.under_eq_good.1 ha, ih.1 hmore, rfl⟩
    · rintro ⟨a, more, ha, hmore, rfl⟩
      exact ⟨List.cons a, more, Checked.map_eq_good.2 ⟨a, Checked.under_eq_good.2 ha, rfl⟩,
        ih.2 hmore, rfl⟩

/-- The items under a key of an object. -/
def itemsUnder (key : String) : Json → List Json
  | .object fields =>
    match Fields.get? fields key with
    | some (.array items) => items
    | _ => []
  | _ => []

/-- A list that may be left out is the list of its items, and empty when it is left out. -/
theorem forall₂_of_defaulted_list {fields : Fields} {key : String}
    (h : defaulted fields key [] (list check) = .good as) :
    List.Forall₂ (fun v a => check v = .good a) (itemsUnder key (.object fields)) as := by
  unfold defaulted at h
  cases hget : Fields.get? fields key with
  | none =>
    simp only [hget, Checked.good.injEq] at h
    simp only [itemsUnder, hget, ← h, List.Forall₂.nil]
  | some v =>
    simp only [hget, Checked.under_eq_good] at h
    simp only [itemsUnder, hget]
    cases v with
    | array items => exact itemsFrom_eq_good.1 h
    | null | bool _ | int _ | float _ | string _ | object _ => cases h

end Validation

namespace Catalog

/-! ## What a document gives -/

/-- The content of a document; an empty one has no workflows. -/
def contentOf (document : Json) : Json := document.orElse (.object [("workflows", .array [])])

/-- The entries of a document, one for each workflow. -/
def entriesOf (document : Json) : List Json := itemsUnder "workflows" (contentOf document)

/-- The document keeps to the schema. -/
def IsValid (document : Json) : Prop := ∃ ws, checkDocument (contentOf document) = .good ws

/-- The order that a step of a document gives, if it gives one that is not null. -/
def givenOrder? : Json → Option Int
  | .object fields =>
    (defaulted fields "step_order" none (Validation.optional integer)).toOption.join
  | _ => none

/-- The step has the fields that its entry gives it, each checked by itself, with the words for its
action and its policy in lower case. -/
structure IsStep (fields : Fields) (s : WorkflowStep) : Prop where
  id : s.id = none
  name : required fields "name" text = .good s.name
  description : defaulted fields "description" "" text = .good s.description
  action : required fields "action_type" (choice ActionType.words ∘ lowerWord) = .good s.action
  config : defaulted fields "action_config" [] object = .good s.config
  guards : defaulted fields "run_conditions" [] (list checkGuard) = .good s.guards
  output : defaulted fields "output_variable" none optionalText = .good s.output
  onFailure : defaulted fields "on_error" .stop (choice FailurePolicy.words ∘ lowerWord) =
    .good s.onFailure

/-- A numbering of steps: the order of a step by its position, from one, and by the order that it
gives. -/
abbrev Numbering := (position : Nat) → (given : Option Int) → Int

namespace Numbering

/-- Every order that is given counts. -/
def byGiven : Numbering := fun position given => given.getD position

/-- Every order that is given counts but zero. -/
def byNonzero : Numbering := fun position given => (given.filter (· ≠ 0)).getD position

theorem byNonzero_of_ne {given : Option Int} (h : given ≠ some 0) (position : Nat) :
    byNonzero position given = byGiven position given := by
  cases given with
  | none => rfl
  | some n =>
    have hn : n ≠ 0 := fun h0 => h (congrArg some h0)
    simp [byNonzero, byGiven, Option.filter, hn]

end Numbering

/-- The step stands at its position in the list of an entry: its fields are those that are given,
and its order is as numbered. -/
def StandsAt (number : Numbering) (entry : Json × Nat) (s : WorkflowStep) : Prop :=
  (∃ fields, entry.1 = .object fields ∧ IsStep fields s) ∧
    s.order = number entry.2 (givenOrder? entry.1)

/-- The steps that an entry gives, with their positions. -/
def placesOf (entry : Json) : List (Json × Nat) := (itemsUnder "steps" entry).zipIdx 1

/-- The orders that the steps of an entry have. -/
def ordersOf (number : Numbering) (entry : Json) : List Int :=
  (placesOf entry).map fun p => number p.2 (givenOrder? p.1)

/-- The workflow is the one that an entry gives: it has its fields, and its steps one by one in
their places. -/
structure IsWorkflow (number : Numbering) (entry : Json) (w : Workflow) : Prop where
  fields : ∃ fields, entry = .object fields ∧
    required fields "slug" text = .good w.slug ∧
    required fields "name" text = .good w.name ∧
    defaulted fields "description" "" text = .good w.description ∧
    defaulted fields "category" none optionalText = .good w.category ∧
    required fields "trigger_event" text = .good w.trigger ∧
    defaulted fields "is_active" true truth = .good w.isActive ∧
    defaulted fields "version" 1 integer = .good w.version
  steps : List.Forall₂ (StandsAt number) (placesOf entry) w.steps

/-- A document comes to a result that keeps every step in its place. -/
structure Loads (number : Numbering) (document : Json) (result : Except Failure (List Workflow)) :
    Prop where
  /-- It is refused, or there is one workflow for each entry, in their order. -/
  total : (∃ message violations, result = .error (.catalog message violations)) ∨
    ∃ ws, result = .ok ws ∧ List.Forall₂ (IsWorkflow number) (entriesOf document) ws
  /-- If it keeps to the schema, it is accepted when the orders within each entry differ, and only
  then. -/
  accepted : IsValid document →
    ((∃ ws, result = .ok ws) ↔ ∀ entry ∈ entriesOf document, (ordersOf number entry).Nodup)
  /-- The steps of what is accepted can be brought into a strict order. -/
  ordered : ∀ ws, result = .ok ws → ∀ w ∈ ws,
    w.orderedSteps.Perm w.steps ∧ w.orderedSteps.Pairwise (·.order < ·.order)

/-! ## Checked entries -/

theorem orderAt_eq (s : WrittenStep) (position : Nat) :
    s.orderAt position = Numbering.byNonzero position s.order := by
  cases hs : s.order with
  | none => simp [WrittenStep.orderAt, Numbering.byNonzero, hs]
  | some n =>
    by_cases hn : n = 0 <;>
      simp [WrittenStep.orderAt, Numbering.byNonzero, Option.filter, hs, hn]

/-- A good step is one with the fields of its entry, at any order. -/
theorem isStep_of_checkStep {entry : Json} {s : WrittenStep} (h : checkStep entry = .good s) :
    givenOrder? entry = s.order ∧
      ∃ fields, entry = .object fields ∧ ∀ order, IsStep fields { s.step with order := order } := by
  cases entry with
  | object fields =>
    obtain ⟨_, _, g₁, hPolicy, rfl⟩ := Checked.seq_eq_good.1 h
    obtain ⟨_, _, g₂, hOutput, rfl⟩ := Checked.seq_eq_good.1 g₁
    obtain ⟨_, _, g₃, hGuards, rfl⟩ := Checked.seq_eq_good.1 g₂
    obtain ⟨_, _, g₄, hConfig, rfl⟩ := Checked.seq_eq_good.1 g₃
    obtain ⟨_, _, g₅, hAction, rfl⟩ := Checked.seq_eq_good.1 g₄
    obtain ⟨_, _, g₆, hOrder, rfl⟩ := Checked.seq_eq_good.1 g₅
    obtain ⟨_, _, g₇, hDescription, rfl⟩ := Checked.seq_eq_good.1 g₆
    obtain ⟨_, hName, rfl⟩ := Checked.map_eq_good.1 g₇
    refine ⟨?_, fields, rfl, fun order => ⟨rfl, hName, hDescription, hAction, hConfig, hGuards,
      hOutput, hPolicy⟩⟩
    rw [givenOrder?, hOrder]
    rfl
  | null | bool _ | int _ | float _ | string _ | array _ => cases h

/-- Good steps that are placed stand at their positions. -/
theorem standsAt_placeSteps {entries : List Json} {ss : List WrittenStep}
    (h : List.Forall₂ (fun v s => checkStep v = .good s) entries ss) (position : Nat) :
    List.Forall₂ (StandsAt Numbering.byNonzero) (entries.zipIdx position)
      (placeSteps position ss) := by
  induction h generalizing position with
  | nil => exact .nil
  | cons hstep _ ih =>
    obtain ⟨horder, fields, rfl, hfields⟩ := isStep_of_checkStep hstep
    rw [List.zipIdx_cons, placeSteps, orderAt_eq]
    refine .cons ⟨⟨fields, rfl, hfields _⟩, ?_⟩ (ih (position + 1))
    rw [horder]

/-- Steps that stand at their positions have the orders of these. -/
theorem map_order_of_standsAt {number : Numbering} {places : List (Json × Nat)}
    {ss : List WorkflowStep} (h : List.Forall₂ (StandsAt number) places ss) :
    ss.map (·.order) = places.map fun p => number p.2 (givenOrder? p.1) :=
  (map_eq_map_of_forall₂ (fun _ _ hp => hp.2.symm) h).symm

/-- The workflow that an entry gives, whatever the orders of its steps. -/
def WrittenWorkflow.placed (w : WrittenWorkflow) (id : String) : Workflow :=
  { id := id, slug := w.slug, name := w.name, description := w.description
    category := w.category, trigger := w.trigger, isActive := w.isActive
    version := w.version, steps := placeSteps 1 w.steps }

/-- A good entry gives its workflow. -/
theorem isWorkflow_placed {entry : Json} {w : WrittenWorkflow} (h : checkWorkflow entry = .good w)
    (id : String) : IsWorkflow Numbering.byNonzero entry (w.placed id) := by
  cases entry with
  | object fields =>
    obtain ⟨_, _, g₁, hSteps, rfl⟩ := Checked.seq_eq_good.1 h
    obtain ⟨_, _, g₂, hVersion, rfl⟩ := Checked.seq_eq_good.1 g₁
    obtain ⟨_, _, g₃, hActive, rfl⟩ := Checked.seq_eq_good.1 g₂
    obtain ⟨_, _, g₄, hTrigger, rfl⟩ := Checked.seq_eq_good.1 g₃
    obtain ⟨_, _, g₅, hCategory, rfl⟩ := Checked.seq_eq_good.1 g₄
    obtain ⟨_, _, g₆, hDescription, rfl⟩ := Checked.seq_eq_good.1 g₅
    obtain ⟨_, _, g₇, hName, rfl⟩ := Checked.seq_eq_good.1 g₆
    obtain ⟨_, hSlug, rfl⟩ := Checked.map_eq_good.1 g₇
    exact ⟨⟨fields, rfl, hSlug, hName, hDescription, hCategory, hTrigger, hActive, hVersion⟩,
      standsAt_placeSteps (forall₂_of_defaulted_list hSteps) 1⟩
  | null | bool _ | int _ | float _ | string _ | array _ => cases h

/-- The entries of a good document are good. -/
theorem forall₂_of_checkDocument {document : Json} {ws : List WrittenWorkflow}
    (h : checkDocument (contentOf document) = .good ws) :
    List.Forall₂ (fun v w => checkWorkflow v = .good w) (entriesOf document) ws := by
  unfold entriesOf
  cases hcontent : contentOf document with
  | object fields =>
    rw [hcontent] at h
    exact forall₂_of_defaulted_list h
  | null | bool _ | int _ | float _ | string _ | array _ =>
    rw [hcontent] at h
    cases h

/-! ## Repeated orders -/

/-- No order is found to be repeated exactly when the orders differ, from each other and from those
that were seen before. -/
theorem repeatedOrder?_eq_none_iff {seen : List Int} {ss : List WorkflowStep} :
    repeatedOrder? seen ss = none ↔
      (ss.map (·.order)).Nodup ∧ ∀ n ∈ ss.map (·.order), n ∉ seen := by
  induction ss generalizing seen with
  | nil => simp [repeatedOrder?]
  | cons s rest ih =>
    rw [repeatedOrder?, List.map_cons, List.nodup_cons, List.forall_mem_cons]
    by_cases hs : s.order ∈ seen
    · simp [hs]
    · rw [if_neg hs, ih]
      simp only [List.mem_cons, not_or]
      constructor
      · rintro ⟨hnodup, hnew⟩
        exact ⟨⟨fun hmem => (hnew _ hmem).1 rfl, hnodup⟩, hs, fun n hn => (hnew n hn).2⟩
      · rintro ⟨⟨hmem, hnodup⟩, -, hnew⟩
        exact ⟨hnodup, fun n hn => ⟨fun heq => hmem (heq ▸ hn), hnew n hn⟩⟩

/-- An entry is refused exactly when two of its steps have one order. -/
theorem toWorkflow_cases (w : WrittenWorkflow) (id : String) :
    ((w.placed id).steps.map (·.order)).Nodup ∧ w.toWorkflow id = .ok (w.placed id) ∨
    ¬ ((w.placed id).steps.map (·.order)).Nodup ∧
      ∃ message violations, w.toWorkflow id = .error (.catalog message violations) := by
  have hiff : repeatedOrder? [] (placeSteps 1 w.steps) = none ↔
      ((w.placed id).steps.map (·.order)).Nodup := by
    rw [repeatedOrder?_eq_none_iff]
    simp [WrittenWorkflow.placed]
  unfold WrittenWorkflow.toWorkflow
  cases hrepeated : repeatedOrder? [] (placeSteps 1 w.steps) with
  | none =>
    simp only [hrepeated]
    exact .inl ⟨hiff.1 hrepeated, rfl⟩
  | some n =>
    simp only [hrepeated]
    refine .inr ⟨fun hnodup => ?_, _, _, rfl⟩
    rw [hiff.2 hnodup] at hrepeated
    cases hrepeated

/-- All entries are accepted, each for itself, or the first one that is refused refuses the
document. -/
theorem toWorkflows_cases {entries : List Json} {ws : List WrittenWorkflow}
    (h : List.Forall₂ (fun v w => checkWorkflow v = .good w) entries ws) (firstId : Nat) :
    (∀ entry ∈ entries, (ordersOf Numbering.byNonzero entry).Nodup) ∧
      (∃ made, toWorkflows firstId ws = .ok made ∧
        List.Forall₂ (IsWorkflow Numbering.byNonzero) entries made ∧
        ∀ w ∈ made, (w.steps.map (·.order)).Nodup) ∨
    (∃ entry ∈ entries, ¬ (ordersOf Numbering.byNonzero entry).Nodup) ∧
      ∃ message violations, toWorkflows firstId ws = .error (.catalog message violations) := by
  induction h generalizing firstId with
  | nil => exact .inl ⟨by simp, [], rfl, .nil, by simp⟩
  | @cons entry w entries ws hentry _ ih =>
    have his := isWorkflow_placed hentry (freshId firstId)
    have horders : ((w.placed (freshId firstId)).steps.map (·.order)) =
        ordersOf Numbering.byNonzero entry := map_order_of_standsAt his.steps
    unfold toWorkflows
    obtain ⟨hnodup, hmade⟩ | ⟨hrepeated, message, violations, hrefused⟩ :=
      toWorkflow_cases w (freshId firstId)
    · rw [hmade]
      obtain ⟨hall, made, hmore, hare, hdiffer⟩ | ⟨⟨bad, hbad, hrepeated⟩, message, violations,
        hrefused⟩ := ih (firstId + 1)
      · refine .inl ⟨List.forall_mem_cons.2 ⟨horders ▸ hnodup, hall⟩, _ :: made, ?_,
          .cons his hare, List.forall_mem_cons.2 ⟨hnodup, hdiffer⟩⟩
        rw [hmore]
        rfl
      · refine .inr ⟨⟨bad, List.mem_cons_of_mem _ hbad, hrepeated⟩, message, violations, ?_⟩
        rw [hrefused]
        rfl
    · refine .inr ⟨⟨entry, List.mem_cons_self, horders ▸ hrepeated⟩, message, violations, ?_⟩
      rw [hrefused]
      rfl

/-! ## Loading -/

/-- Whatever the document, its steps are kept in their places where zero counts as no order. -/
theorem loads_byNonzero (firstId : Nat) (file : String) (document : Json) :
    Loads Numbering.byNonzero document (ofDocument firstId file document) := by
  unfold ofDocument
  cases hcheck : checkDocument (document.orElse (.object [("workflows", .array [])])) with
  | bad violations =>
    refine ⟨.inl ⟨_, _, rfl⟩, ?_, fun ws h => by cases h⟩
    rintro ⟨ws, hvalid⟩
    rw [contentOf, hcheck] at hvalid
    cases hvalid
  | good ws =>
    dsimp only
    obtain ⟨hall, made, hmade, hare, hdiffer⟩ | ⟨⟨bad, hbad, hrepeated⟩, message, violations,
      hrefused⟩ := toWorkflows_cases (forall₂_of_checkDocument hcheck) firstId
    · rw [hmade]
      refine ⟨.inr ⟨made, rfl, hare⟩, fun _ => iff_of_true ⟨made, rfl⟩ hall, ?_⟩
      rintro _ ⟨⟩ w hw
      exact ⟨w.orderedSteps_perm, Workflow.orderedSteps_strict (hdiffer w hw)⟩
    · rw [hrefused]
      refine ⟨.inl ⟨message, violations, rfl⟩, fun _ => iff_of_false ?_ ?_, fun _ h => by cases h⟩
      · rintro ⟨_, ⟨⟩⟩
      · exact fun hall => hrepeated (hall bad hbad)

/-- No step of the document gives zero as its order. -/
def AvoidsZero (document : Json) : Prop :=
  ∀ entry ∈ entriesOf document, ∀ step ∈ itemsUnder "steps" entry, givenOrder? step ≠ some 0

/-- Two numberings that agree on the steps of a list place them alike. -/
theorem standsAt_congr {number other : Numbering} {places : List (Json × Nat)}
    (h : ∀ p ∈ places, number p.2 (givenOrder? p.1) = other p.2 (givenOrder? p.1))
    {ss : List WorkflowStep} (hs : List.Forall₂ (StandsAt number) places ss) :
    List.Forall₂ (StandsAt other) places ss := by
  induction hs with
  | nil => exact .nil
  | cons hstep _ ih =>
    rw [List.forall_mem_cons] at h
    exact .cons ⟨hstep.1, hstep.2.trans h.1⟩ (ih h.2)

/-- Two numberings that agree on the steps of a document load it alike. -/
theorem Loads.congr {number other : Numbering} {document : Json}
    {result : Except Failure (List Workflow)}
    (h : ∀ entry ∈ entriesOf document, ∀ p ∈ placesOf entry,
      number p.2 (givenOrder? p.1) = other p.2 (givenOrder? p.1))
    (hl : Loads number document result) : Loads other document result where
  total := by
    refine hl.total.imp_right fun ⟨ws, hws, hare⟩ => ⟨ws, hws, ?_⟩
    clear hl hws
    generalize entriesOf document = entries at h hare
    induction hare with
    | nil => exact .nil
    | cons his _ ih =>
      rw [List.forall_mem_cons] at h
      exact .cons ⟨his.fields, standsAt_congr h.1 his.steps⟩ (ih h.2)
  accepted hvalid := by
    rw [hl.accepted hvalid]
    refine forall₂_congr fun entry hentry => ?_
    rw [ordersOf, ordersOf, List.map_congr_left (h entry hentry)]
  ordered := hl.ordered

theorem mem_of_mem_placesOf {entry : Json} {p : Json × Nat} (h : p ∈ placesOf entry) :
    p.1 ∈ itemsUnder "steps" entry ∧ 1 ≤ p.2 := by
  obtain ⟨step, position⟩ := p
  obtain ⟨hle, -, hmem⟩ := List.mem_zipIdx h
  exact ⟨hmem ▸ List.getElem_mem _, hle⟩

/-- A document that gives zero to a step is not loaded as it says. -/
theorem avoidsZero_of_loads {document : Json} {ws : List Workflow}
    (h : Loads Numbering.byNonzero document (.ok ws))
    (hgiven : Loads Numbering.byGiven document (.ok ws)) : AvoidsZero document := by
  intro entry hentry step hstep hzero
  obtain ⟨_, _, hrefused⟩ | ⟨_, hws, hare⟩ := h.total
  · cases hrefused
  obtain ⟨_, _, hrefused⟩ | ⟨_, hws', hare'⟩ := hgiven.total
  · cases hrefused
  obtain rfl := Except.ok.inj hws
  obtain rfl := Except.ok.inj hws'
  obtain ⟨i, hi⟩ := List.getElem?_of_mem hentry
  obtain ⟨hlt, rfl⟩ := List.getElem?_eq_some_iff.1 hi
  have hlt' : i < ws.length := hare.length_eq ▸ hlt
  -- the step has one order by both numberings, its position by one and zero by the other
  have horders : ordersOf Numbering.byNonzero (entriesOf document)[i] =
      ordersOf Numbering.byGiven (entriesOf document)[i] :=
    (map_order_of_standsAt (hare.get hlt hlt').steps).symm.trans
      (map_order_of_standsAt (hare'.get hlt hlt').steps)
  have hmap := List.map_inj_left.1 horders
  obtain ⟨j, hj⟩ := List.getElem?_of_mem hstep
  have hplace : (step, 1 + j) ∈ placesOf (entriesOf document)[i] := by
    refine List.mem_of_getElem? (i := j) ?_
    rw [placesOf, List.getElem?_zipIdx, hj]
    rfl
  have hsame := hmap _ hplace
  simp [hzero, Numbering.byNonzero, Numbering.byGiven, Option.filter] at hsame
  omega

/-- Loading keeps the place of every step, but for an order of zero. Every document is refused, or
gives one workflow for each entry with the steps of the entry one by one, each with its own fields
and numbered by its order or else by its position; a document of the schema is accepted exactly when
these numbers differ within each entry, and then the steps can be brought into their strict order.
This holds of every document with zero counted as no order, it holds as said of documents that avoid
zero, and of what is loaded it holds for these alone. -/
theorem loads_by (firstId : Nat) (file : String) (document : Json) :
    Loads Numbering.byNonzero document (ofDocument firstId file document) ∧
    (AvoidsZero document → Loads Numbering.byGiven document (ofDocument firstId file document)) ∧
    ∀ ws, ofDocument firstId file document = .ok ws →
      (Loads Numbering.byGiven document (.ok ws) ↔ AvoidsZero document) := by
  have hloads := loads_byNonzero firstId file document
  have hgiven : AvoidsZero document →
      Loads Numbering.byGiven document (ofDocument firstId file document) := by
    refine fun hzero => hloads.congr fun entry hentry p hp => ?_
    exact Numbering.byNonzero_of_ne (hzero entry hentry p.1 (mem_of_mem_placesOf hp).1) p.2
  refine ⟨hloads, hgiven, fun ws hws => ⟨fun h => ?_, fun h => ?_⟩⟩
  · exact avoidsZero_of_loads (hws ▸ hloads) h
  · exact hws ▸ hgiven h

/-- Orders that are given and positions mix: steps with the orders three and minus one around one
with none are loaded as they are. Steps with the orders zero and one are refused instead, as if
both had the order one. -/
theorem loads_by_mixed :
    let step (given : Json) : Json :=
      .object [("name", "ask"), ("action_type", "AI_Prompt"), ("step_order", given)]
    let document (steps : List Json) : Json := .object [("workflows", .array [.object
      [("slug", "w"), ("name", "W"), ("trigger_event", "asked"), ("steps", .array steps)]])]
    let mixed := document [step (.int 3), step .null, step (.int (-1))]
    let fromZero := document [step (.int 0), step (.int 1)]
    (∃ ws, ofDocument 1 "w.yaml" mixed = .ok ws ∧
      ws.map (fun w => w.steps.map (·.order)) = [[3, 2, -1]] ∧
      Loads Numbering.byGiven mixed (.ok ws)) ∧
    IsValid fromZero ∧ (entriesOf fromZero).map (ordersOf Numbering.byGiven) = [[0, 1]] ∧
    ¬ Loads Numbering.byGiven fromZero (ofDocument 1 "w.yaml" fromZero) := by
  intro step document mixed fromZero
  have hmixed : AvoidsZero mixed := by
    intro entry hentry s hs
    obtain rfl := List.mem_singleton.1 hentry
    have hgiven : ∀ given ∈ [Json.int 3, .null, .int (-1)], givenOrder? (step given) ≠ some 0 := by
      simp [step, givenOrder?, defaulted, Fields.get?, Validation.optional, integer, Checked.under,
        Checked.toOption, Checked.map]
    obtain ⟨given, hmem, rfl⟩ : ∃ given ∈ [Json.int 3, .null, .int (-1)], step given = s :=
      List.mem_map.1 hs
    exact hgiven given hmem
  have hvalid : IsValid fromZero := ⟨_, rfl⟩
  have horders : (entriesOf fromZero).map (ordersOf Numbering.byGiven) = [[0, 1]] := rfl
  refine ⟨⟨_, rfl, rfl, (loads_by 1 "w.yaml" mixed).2.1 hmixed⟩, hvalid, horders, fun h => ?_⟩
  obtain ⟨_, hws⟩ := (h.accepted hvalid).2 fun entry hentry => by
    have hmem := List.mem_map_of_mem (f := ordersOf Numbering.byGiven) hentry
    rw [horders, List.mem_singleton] at hmem
    rw [hmem]
    decide
  cases hws

end Catalog

end LeadDesk
