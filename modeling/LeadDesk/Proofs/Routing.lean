import LeadDesk.Catalog.Bundled
import LeadDesk.Proofs.Account
import LeadDesk.Proofs.Calls
import LeadDesk.Proofs.Matching
import LeadDesk.Proofs.Turns
/-!
# Where the intake sends a contact

The bundled intake asks the language model for the data of a new contact and for an opinion on it,
then deletes the contact as spam, or looks for a contact that it doubles and passes on the one or
the other. Whatever the model answers, and whatever is stored, a run of it announces one of the
three outcomes, or fails and announces none (`Catalog.intake_routes`).
-/

namespace LeadDesk

open LeadDesk.Action (Spares Tame)

/-! ## The guards on a count -/

/-- The value of a field of an object of the context. -/
theorem Operand.resolve_of_field (path key field : String) {context found : Fields} {v : Json}
    (hbars : splitAtBars path.toList = [path.toList]) (hpath : Path.segments path = [key, field])
    (hkey : Fields.get? context key = some (.object found))
    (hfield : Fields.get? found field = some v) :
    resolve (.object context) path = .ok (some v) := by
  rw [resolve, hbars]
  simp only [Path.lookup, hpath, Path.walk, Path.step, hkey, hfield]

namespace Guard

open Catalog (slotText)

/-- A small count lies to zero as its floating-point number does. -/
theorem toOption_greater_zero : ∀ n ∈ List.range 11,
    (Check.run (.order .greater) (some (.int n)) 0).toOption = some (decide (0 < n)) := by
  decide +kernel

theorem run_greater_zero {n : Nat} (hn : n ≤ 10) :
    Check.run (.order .greater) (some (.int n)) 0 = .ok (decide (0 < n)) := by
  have h := toOption_greater_zero n (List.mem_range.2 (Nat.lt_succ_of_le hn))
  -- The result is a variable from here on, so that nothing evaluates the number of `n`.
  generalize Check.run (.order .greater) (some (.int n)) 0 = result at h ⊢
  cases result with
  | error fault => cases h
  | ok b => exact congrArg Except.ok (Option.some.inj h)

theorem run_equals_zero {n : Nat} (hn : n ≤ 10) :
    Check.run .equals (some (.int n)) 0 = .ok (decide (n = 0)) := by
  match n, hn with
  | 0, _ | 1, _ | 2, _ | 3, _ | 4, _ | 5, _ | 6, _ | 7, _ | 8, _ | 9, _ | 10, _ => rfl

/-- A guard on the count of a search checks the count. -/
theorem allHold_count {context found : Fields} {n : Nat} (op : String) {check : Check} {b : Bool}
    (hop : check? op = some check)
    (hfound : Fields.get? context "existing_contact" = some (.object found))
    (hcount : Fields.get? found "count" = some (.int n))
    (hcheck : check.run (some (.int n)) 0 = .ok b) :
    allHold (.object context) [⟨slotText "existing_contact.count", op, 0⟩] = .ok b := by
  have hpath : Text.trim (String.ofList (withoutPairs '\x7d' (withoutPairs '\x7b'
      (slotText "existing_contact.count").toList))) = "existing_contact.count" := by
    decide +kernel
  have hvalue := Operand.resolve_of_field "existing_contact.count" _ _ (by decide +kernel)
    (by decide +kernel) hfound hcount
  have hholds : holds ⟨slotText "existing_contact.count", op, 0⟩ (.object context) = .ok b := by
    simp only [holds, path, hpath, hvalue, hop, hcheck]
  rw [allHold, hholds]
  cases b <;> rfl

end Guard

/-! ## Stretches of steps -/

/-- The rows of a log show that a step of the name was carried out. -/
def Executed (rows : List RunLog) (name : String) : Prop :=
  ∃ l ∈ rows, l.stepName = name ∧ l.status ≠ .skipped

theorem not_executed_of_named {rows : List RunLog} {a name : String}
    (h : ∀ l ∈ rows, l.stepName = a) (hne : a ≠ name) : ¬ Executed rows name :=
  fun ⟨l, hl, hname, _⟩ => hne ((h l hl).symm.trans hname)

theorem executed_append {rows more : List RunLog} {name : String} :
    Executed (rows ++ more) name ↔ Executed rows name ∨ Executed more name := by
  simp only [Executed, List.mem_append, or_and_right, exists_or]

theorem executed_of_append_named {rows more : List RunLog} {a name : String}
    (h : ∀ l ∈ rows, l.stepName = a) (hne : a ≠ name) (hx : Executed (rows ++ more) name) :
    Executed more name :=
  (executed_append.1 hx).resolve_left (not_executed_of_named h hne)

namespace Progress

/-- Nothing has ended the run so far. -/
structure Open (p : Progress) : Prop where
  error : p.error = none
  stopped : p.stopped = false

theorem context_succeed {s : WorkflowStep} (h : s.output = none) (p : Progress) (r : StepResult) :
    (p.succeed s r).context = p.context := by
  simp only [succeed, outputName?, h]

/-- The output of a step leaves the other variables alone. -/
theorem get?_succeed_of_ne {s : WorkflowStep} {key : String} (h : s.output ≠ some key)
    (p : Progress) (r : StepResult) :
    Fields.get? (p.succeed s r).context key = Fields.get? p.context key := by
  simp only [succeed]
  split
  · rename_i name v hname hv
    have houtput : s.output = some name := by
      unfold outputName? at hname
      split at hname
      · cases hname
      · cases hname
      · rename_i heq
        exact heq.trans hname
    exact Fields.get?_put_of_ne _ _ fun heq => h (heq ▸ houtput)
  · rfl

end Progress

/-- The step requests an event of the type. -/
structure WorkflowStep.Requests (s : WorkflowStep) (t : String) : Prop where
  action : s.action = .toolCall
  name : ToolStep.toolName s.config = .string ToolStep.emissionName
  mapping : ∃ fields, (Fields.getD s.config "input_mapping").orElse .empty = .object fields ∧
    Fields.get? fields "event_type" = some (.string t)

theorem WorkflowStep.Requests.keepsLists {s : WorkflowStep} {t : String} (h : s.Requests t) :
    s.KeepsLists :=
  WorkflowStep.keepsLists_of_provider? (h.name ▸ rfl)

namespace Course

variable {c : Course} {s : WorkflowStep} {rest : List WorkflowStep} {p q : Progress} {o : Office}
  {d e : Desk} {halt : Option Halt}

@[simp] theorem stepName_row (r : StepResult) : (c.row s r d).stepName = s.name := rfl

/-- The run fails with the step before it has emitted anything. -/
def FailsIn (c : Course) (s : WorkflowStep) (p : Progress) (d : Desk) (q : Progress)
    (halt : Option Halt) (e : Desk) : Prop :=
  (∀ limit, (Workflow.ended limit (q, halt)).status = .failed) ∧
    ∃ rows, (∀ l ∈ rows, l.stepName = s.name) ∧ c.Writes rows [] p d q e

/-- The run takes the step, which asks for nothing, and goes on with the rest. -/
structure Onward (c : Course) (s : WorkflowStep) (rest : List WorkflowStep) (p : Progress)
    (o : Office) (d : Desk) (q : Progress) (halt : Option Halt) (e : Desk) (r : StepResult)
    (p' : Progress) (m m' : Desk) : Prop where
  result : (resultOf s p.context).run (c.under o) { d with added := [] } = (.done (some r), m)
  success : r.success = true
  context : p'.context = (p.succeed s r).context
  isOpen : p'.Open
  writes : c.Writes [c.row s r m] [] p d p' m'
  contacts : m'.store.contacts = m.store.contacts
  ready : c.Ready o rest m'
  more : (c.steps rest p').run o m' = (.done (q, halt), e)

/-- A run fails in a step that asks for nothing, or goes on behind it. -/
theorem onward_of_asks (hc : c.emitter = Emitter.queue) (hpolicy : s.onFailure = .stop)
    (hdue : Guard.allHold (.object p.context) s.guards = .ok true) (hkeeps : s.KeepsLists)
    (hs : s.Asks)
    (hp : p.Open) (hready : c.Ready o (s :: rest) d)
    (h : (c.steps (s :: rest) p).run o d = (.done (q, halt), e)) :
    c.FailsIn s p d q halt e ∨
      ∃ r p' m m', c.Onward s rest p o d q halt e r p' m m' := by
  cases leg_of_steps hc hpolicy hdue hkeeps hready h with
  | broken failed named writes => exact .inl ⟨failed, _, named, writes⟩
  | @taken r p' m m' new result success sent context error writes contacts ready stopped more
      last =>
    have hinert := WorkflowStep.inert_of_resultOf hs result
    have hopen : p'.stopped = false := by rw [stopped, hp.stopped, hinert.stop]; rfl
    rw [hinert.emit] at sent
    obtain rfl : new = [] := List.map_eq_nil_iff.1 sent
    exact .inr ⟨r, p', m, m', result, success, context, ⟨error.trans hp.error, hopen⟩, writes,
      contacts, ready, more hopen⟩

/-- The run either completes with one event of the type, or fails and emits nothing. -/
def Sends (t : String) (new : List Event) (status : RunStatus) : Prop :=
  status = .completed ∧ (∃ sent, new = [sent] ∧ sent.type = t) ∨ status = .failed ∧ new = []

/-- A run whose last steps that are due are a call and a request for an event either fails in one of
them, or emits the event and is complete. -/
theorem sends_of_call_request {sa sb : WorkflowStep} {t : String} (hc : c.emitter = Emitter.queue)
    (ha : sa.Asks) (hkeeps : sa.KeepsLists) (hb : sb.Requests t) (hplain : '\x7b' ∉ t.toList)
    (houta : sa.output = none) (houtb : sb.output = none) (hpola : sa.onFailure = .stop)
    (hpolb : sb.onFailure = .stop)
    (hduea : Guard.allHold (.object p.context) sa.guards = .ok true)
    (hdueb : Guard.allHold (.object p.context) sb.guards = .ok true)
    (hrest : ∀ s ∈ rest, Guard.allHold (.object p.context) s.guards = .ok false)
    (hp : p.Open) (hready : c.Ready o (sa :: sb :: rest) d)
    (h : (c.steps (sa :: sb :: rest) p).run o d = (.done (q, halt), e)) :
    ∃ rows new, c.Writes rows new p d q e ∧
      (∀ limit, Sends t new (Workflow.ended limit (q, halt)).status) ∧
      ∀ name, Executed rows name → name = sa.name ∨ name = sb.name := by
  obtain ⟨failed, rows, named, writes⟩ | ⟨r, p', m, m', ho⟩ :=
    onward_of_asks hc hpola hduea hkeeps ha hp hready h
  · refine ⟨rows, [], writes, fun limit => .inr ⟨failed limit, rfl⟩, ?_⟩
    rintro name ⟨l, hl, rfl, _⟩
    exact .inl (named l hl)
  have hcontext : p'.context = p.context := ho.context.trans (Progress.context_succeed houta p r)
  cases leg_of_steps hc hpolb (hcontext ▸ hdueb) hb.keepsLists ho.ready ho.more with
  | @broken rows failed named writes =>
    refine ⟨_, [], ho.writes.append writes, fun limit => .inr ⟨failed limit, rfl⟩, ?_⟩
    rintro name ⟨l, hl, rfl, _⟩
    obtain hl | hl := List.mem_append.1 hl
    · rw [List.mem_singleton.1 hl]
      exact .inl rfl
    · exact .inr (named l hl)
  | @taken rb p'' m₂ m₂' new result success sent context error writes contacts ready stopped more
      last =>
    obtain ⟨fields, hmapping, htype⟩ := hb.mapping
    have hrun := run_of_toolCall hb.action (by rw [hb.name]; rfl) result
    obtain ⟨hstop, em, hem, hemtype⟩ :=
      ToolStep.emit_of_run hb.name hmapping htype hplain hrun success
    have hopen : p''.stopped = false := by rw [stopped, ho.isOpen.stopped, hstop]; rfl
    have hcontext' : p''.context = p.context :=
      (context.trans (Progress.context_succeed houtb p' rb)).trans hcontext
    have hmore := more hopen
    -- The event is sent. Nothing behind it is due, so nothing can fail the run any more.
    rw [← List.append_nil rest] at hmore ready
    obtain ⟨skips, m₃, hskips, hskipped, -, hend⟩ :=
      steps_past hc rest ready (fun s hs => hcontext' ▸ hrest s hs) hmore
    obtain ⟨heq, rfl⟩ := Action.run_pure_eq_done.1 hend
    obtain ⟨rfl, rfl⟩ := Prod.mk.inj heq
    rw [hem] at sent
    obtain ⟨event, rfl, hevent⟩ := List.map_eq_singleton_iff.1 sent
    refine ⟨_, _, (ho.writes.append writes).append hskips,
      fun limit => .inl ⟨?_, event, ?_, ?_⟩, ?_⟩
    · exact (Progress.status_eq_completed_iff _).2 ⟨error.trans ho.isOpen.error, hopen⟩
    · rfl
    · exact hevent.trans hemtype
    · rintro name ⟨l, hl, rfl, hnot⟩
      simp only [List.mem_append, List.mem_singleton] at hl
      obtain (rfl | rfl) | hl := hl
      · exact .inl rfl
      · exact .inr rfl
      · exact absurd (hskipped l hl) hnot

end Course

/-! ## The steps of the intake -/

/-- The step does what another one does, under whatever id and description. -/
structure WorkflowStep.Copies (s t : WorkflowStep) : Prop where
  order : s.order = t.order
  name : s.name = t.name
  action : s.action = t.action
  config : s.config = t.config
  guards : s.guards = t.guards
  output : s.output = t.output
  onFailure : s.onFailure = t.onFailure

/-- The workflow has the steps of the bundled intake. -/
def Workflow.IsIntake (w : Workflow) : Prop :=
  List.Forall₂ WorkflowStep.Copies w.orderedSteps Catalog.intakeSteps

namespace Catalog

/-- The step of the intake at a position. -/
def intakeStep (i : Fin 8) : WorkflowStep := intakeSteps.get i

/-- Steps by their positions that do what those of the intake do. -/
def IntakeSteps (s : Fin 8 → WorkflowStep) : Prop := ∀ i, (s i).Copies (intakeStep i)

theorem intakeSteps_of_isIntake {w : Workflow} (h : w.IsIntake) :
    ∃ s, IntakeSteps s ∧ w.orderedSteps = [s 0, s 1, s 2, s 3, s 4, s 5, s 6, s 7] := by
  have hlength : w.orderedSteps.length = 8 := List.Forall₂.length_eq h
  refine ⟨fun i => w.orderedSteps.get (i.cast hlength.symm), fun i => h.get _ i.2, ?_⟩
  refine List.ext_get hlength fun i hi hi' => ?_
  match i, hi' with
  | 0, _ | 1, _ | 2, _ | 3, _ | 4, _ | 5, _ | 6, _ | 7, _ => rfl

namespace IntakeSteps

variable {s : Fin 8 → WorkflowStep} (hs : IntakeSteps s)
include hs

theorem stops (i : Fin 8) : (s i).onFailure = .stop := by
  have h : ∀ i, (intakeStep i).onFailure = .stop := by decide
  exact (hs i).onFailure.trans (h i)

theorem fits (i : Fin 8) : Column.fits (s i).order = true := by
  have h : ∀ i, Column.fits (intakeStep i).order = true := by decide
  exact (congrArg Column.fits (hs i).order).trans (h i)

theorem keepsLists (i : Fin 8) : (s i).KeepsLists := by
  have h : ∀ i, Enrichment.provider? (ToolStep.toolName (intakeStep i).config) = .ok none := by
    intro i
    match i with
    | 0 | 1 | 2 | 3 | 4 | 5 | 6 | 7 => rfl
  exact WorkflowStep.keepsLists_of_provider? ((hs i).config ▸ h i)

/-- All but the condition and the two requests for events ask for nothing. -/
theorem asks {i : Fin 8} (hi : i ∈ [0, 1, 3, 4, 6]) : (s i).Asks := by
  rw [WorkflowStep.Asks, (hs i).action, (hs i).config]
  simp only [List.mem_cons, List.not_mem_nil, or_false] at hi
  obtain rfl | rfl | rfl | rfl | rfl := hi
  · exact .inl rfl
  · exact .inl rfl
  · exact .inr ⟨rfl, rfl⟩
  · exact .inr ⟨rfl, rfl⟩
  · exact .inr ⟨rfl, rfl⟩

theorem requests_existing : (s 5).Requests "intake.existing_updated" :=
  ⟨(hs 5).action, (hs 5).config ▸ rfl, (hs 5).config ▸ ⟨_, rfl, rfl⟩⟩

theorem requests_new : (s 7).Requests "intake.new_contact" :=
  ⟨(hs 7).action, (hs 7).config ▸ rfl, (hs 7).config ▸ ⟨_, rfl, rfl⟩⟩

/-- The first four steps are always due. -/
theorem due {i : Fin 8} (hi : i ∈ [0, 1, 2, 3]) (context : Json) :
    Guard.allHold context (s i).guards = .ok true := by
  rw [(hs i).guards]
  simp only [List.mem_cons, List.not_mem_nil, or_false] at hi
  obtain rfl | rfl | rfl | rfl := hi <;> rfl

/-- The other four are due as the search has found a contact or has not. -/
theorem due_of_count {context found : Fields} {n : Nat} (hn : n ≤ 10)
    (hfound : Fields.get? context "existing_contact" = some (.object found))
    (hcount : Fields.get? found "count" = some (.int n)) :
    (∀ i ∈ [4, 5], Guard.allHold (.object context) (s i).guards = .ok (decide (0 < n))) ∧
      ∀ i ∈ [6, 7], Guard.allHold (.object context) (s i).guards = .ok (decide (n = 0)) := by
  have hmore := Guard.allHold_count ">" rfl hfound hcount (Guard.run_greater_zero hn)
  have hnone := Guard.allHold_count "==" rfl hfound hcount (Guard.run_equals_zero hn)
  refine ⟨fun i hi => ?_, fun i hi => ?_⟩ <;> rw [(hs i).guards] <;>
    simp only [List.mem_cons, List.not_mem_nil, or_false] at hi <;> obtain rfl | rfl := hi
  · exact hmore
  · exact hmore
  · exact hnone
  · exact hnone

variable {c : Course} {p q : Progress} {o : Office} {d e : Desk} {halt : Option Halt}

/-- Behind the search one of the two ways is taken, and not the other. -/
theorem sends_of_count (hc : c.emitter = Emitter.queue) {found : Fields} {n : Nat} (hn : n ≤ 10)
    (hfound : Fields.get? p.context "existing_contact" = some (.object found))
    (hcount : Fields.get? found "count" = some (.int n)) (hp : p.Open)
    (hready : c.Ready o [s 4, s 5, s 6, s 7] d)
    (h : (c.steps [s 4, s 5, s 6, s 7] p).run o d = (.done (q, halt), e)) :
    ∃ rows new t, c.Writes rows new p d q e ∧
      (∀ limit, Course.Sends t new (Workflow.ended limit (q, halt)).status) ∧
      (t = "intake.existing_updated" ∨ t = "intake.new_contact") ∧
      ¬ (Executed rows "Merge Into Existing" ∧ Executed rows "Save New Contact") := by
  obtain ⟨hexisting, hnew⟩ := hs.due_of_count hn hfound hcount
  -- The guards of the two ways exclude each other, as both look at the one count.
  obtain rfl | hpos := Nat.eq_zero_or_pos n
  · obtain ⟨skips, m, hskips, hskipped, hready', h'⟩ :=
      Course.steps_past hc [s 4, s 5] hready (by simpa using hexisting) h
    obtain ⟨rows, new, hwrites, hsends, hexecuted⟩ :=
      Course.sends_of_call_request hc (hs.asks (i := 6) (by decide)) (hs.keepsLists 6)
        hs.requests_new (by simp)
        (hs 6).output (hs 7).output (hs.stops 6) (hs.stops 7) (hnew 6 (by decide))
        (hnew 7 (by decide)) (by simp) hp hready' h'
    refine ⟨_, _, _, hskips.append hwrites, hsends, .inr rfl, fun ⟨hmerge, _⟩ => ?_⟩
    obtain ⟨l, hl, _, hnot⟩ | hmerge := executed_append.1 hmerge
    · exact hnot (hskipped l hl)
    · exact absurd (hexecuted _ hmerge) (by rw [(hs 6).name, (hs 7).name]; decide)
  · have hpast : ∀ i ∈ [6, 7], Guard.allHold (.object p.context) (s i).guards = .ok false :=
      fun i hi => by rw [hnew i hi, decide_eq_false (Nat.ne_of_gt hpos)]
    have hdue : ∀ i ∈ [4, 5], Guard.allHold (.object p.context) (s i).guards = .ok true :=
      fun i hi => by rw [hexisting i hi, decide_eq_true hpos]
    obtain ⟨rows, new, hwrites, hsends, hexecuted⟩ :=
      Course.sends_of_call_request hc (hs.asks (i := 4) (by decide)) (hs.keepsLists 4)
        hs.requests_existing (by simp)
        (hs 4).output (hs 5).output (hs.stops 4) (hs.stops 5) (hdue 4 (by decide))
        (hdue 5 (by decide)) (by simpa using hpast) hp hready h
    refine ⟨_, _, _, hwrites, hsends, .inl rfl, fun ⟨_, hsave⟩ => ?_⟩
    exact absurd (hexecuted _ hsave) (by rw [(hs 4).name, (hs 5).name]; decide)

/-- The search puts a small count into the context. -/
theorem count_of_result {context : Fields} (hown : Registry.scripted? o "search_contacts" = none)
    {r : StepResult} (hsuccess : r.success = true)
    (h : (Course.resultOf (s 3) context).run o d = (.done (some r), e)) :
    ∃ found n, r.output = some (.object found) ∧ Fields.get? found "count" = some (.int (n : Nat)) ∧
      n ≤ 10 := by
  have hrun := Course.run_of_toolCall (hs 3).action (by rw [(hs 3).config]; rfl) h
  rw [(hs 3).config] at hrun
  obtain ⟨filled, o', v, hfilled, htool, houtput⟩ :=
    ToolStep.output_of_run "search_contacts" rfl (by decide) rfl rfl rfl hown hrun hsuccess
  have hlimit := (Template.get?_resolveFields hfilled "limit").2 rfl
  obtain ⟨found, n, rfl, hcount, hn⟩ := ContactTool.count_of_search hlimit htool
  exact ⟨found, n, houtput, hcount, hn⟩

/-- From the search on a run sends one of two events, or fails. -/
theorem sends_of_search (hc : c.emitter = Emitter.queue)
    (hown : Registry.scripted? o "search_contacts" = none) (hp : p.Open)
    (hready : c.Ready o [s 3, s 4, s 5, s 6, s 7] d)
    (h : (c.steps [s 3, s 4, s 5, s 6, s 7] p).run o d = (.done (q, halt), e)) :
    ∃ rows new t, c.Writes rows new p d q e ∧
      (∀ limit, Course.Sends t new (Workflow.ended limit (q, halt)).status) ∧
      (t = "intake.existing_updated" ∨ t = "intake.new_contact") ∧
      ¬ (Executed rows "Merge Into Existing" ∧ Executed rows "Save New Contact") := by
  have hmerge : (s 3).name ≠ "Merge Into Existing" := by rw [(hs 3).name]; decide
  obtain ⟨failed, rows, named, writes⟩ | ⟨r, p', m, m', ho⟩ :=
    Course.onward_of_asks hc (hs.stops 3) (hs.due (by decide) _) (hs.keepsLists 3)
      (hs.asks (by decide)) hp hready h
  · exact ⟨rows, [], _, writes, fun limit => .inr ⟨failed limit, rfl⟩, .inl rfl,
      fun hboth => not_executed_of_named named hmerge hboth.1⟩
  · obtain ⟨found, n, houtput, hcount, hn⟩ :=
      hs.count_of_result (o := c.under o) hown ho.success ho.result
    have hfound : Fields.get? p'.context "existing_contact" = some (.object found) := by
      rw [ho.context]
      exact Progress.get?_succeed (by rw [Progress.outputName?, (hs 3).output]; rfl) houtput
    obtain ⟨rows, new, t, writes, sends, ht, hexclusive⟩ :=
      hs.sends_of_count hc hn hfound hcount ho.isOpen ho.ready ho.more
    refine ⟨_, new, t, ho.writes.append writes, sends, ht, fun ⟨hmerged, hsaved⟩ => ?_⟩
    have hsave : (s 3).name ≠ "Save New Contact" := by rw [(hs 3).name]; decide
    have hrow : ∀ l ∈ [c.row (s 3) r m], l.stepName = (s 3).name := by simp
    exact hexclusive ⟨executed_of_append_named hrow hmerge hmerged,
      executed_of_append_named hrow hsave hsaved⟩

/-- The condition either lets the run go on, or has the contact of the event deleted and stops the
run with the event that tells so. -/
theorem spam_cases {ev : Event} {context : Fields}
    (hown : Registry.scripted? o "delete_contact" = none)
    (hevent : Fields.get? context "event" = some ev.reference) {r : StepResult}
    (hsuccess : r.success = true)
    (h : (Course.resultOf (s 2) context).run o d = (.done (some r), e)) :
    r.Inert ∨ r.stop = true ∧ (∃ em, r.emit = some em ∧ em.eventType = "intake.spam_deleted") ∧
      (∃ row, d.store.contact? (Json.ofText? ev.entityId) = .ok (some row)) ∧
      e.store.contact? (Json.ofText? ev.entityId) = .ok none := by
  have hrun := Course.run_of_condition (hs 2).action h
  rw [(hs 2).config] at hrun
  obtain ⟨outcome, input, happly⟩ := ConditionStep.apply_of_run hrun
  cases outcome with
  | false =>
    obtain ⟨filled, hfilled, ⟨_, rfl, _⟩ | ⟨a, hparse, hcarry⟩⟩ :=
      BranchAction.cases_of_apply (by simp) happly
    · exact .inl ⟨rfl, rfl⟩
    · have haction := Template.get?_of_plain hfilled "action" rfl (by simp)
      have hthen := (Template.get?_resolveFields hfilled "then").2 rfl
      have hfinally := (Template.get?_resolveFields hfilled "finally").2 rfl
      exact .inl (BranchAction.inert_of_continue haction hthen hfinally hparse hcarry hsuccess).1
  | true =>
    obtain ⟨filled, hfilled, ⟨_, rfl, _⟩ | ⟨a, hparse, hcarry⟩⟩ :=
      BranchAction.cases_of_apply (by simp) happly
    · exact .inl ⟨rfl, rfl⟩
    · refine .inr (BranchAction.deletes_emits_stops
        (Template.get?_of_plain hfilled "action" rfl (by simp)) ?_
        (Template.get?_of_plain hfilled "then" rfl (by simp))
        (Template.get?_of_plain hfilled "event_type" rfl (by simp)) (by decide)
        (Template.get?_of_plain hfilled "finally" rfl (by simp)) hparse hown hcarry hsuccess)
      have hbody : Template.pureBody? (slotText "event.entity_id") =
          some "event.entity_id".toList := by decide +kernel
      refine (Template.get?_resolveFields hfilled "contact_id").1 (slot "event.entity_id") _ rfl ?_
      rw [slot, Template.resolveData_of_pureBody? hbody]
      exact Operand.resolve_of_field "event.entity_id" "event" "entity_id" (by decide +kernel)
        (by decide +kernel) hevent rfl

end IntakeSteps

end Catalog

/-! ## Where a run leads -/

/-- Where a run for an event has led that has ended with the status and has written the rows and the
events: it has announced one outcome, and what it announces has happened. -/
structure Event.Routed (ev : Event) (d e : Desk) (status : RunStatus) (rows : List RunLog)
    (new : List Event) : Prop where
  completed : status = .completed → ∃ sent, new = [sent] ∧
    (sent.type = "intake.existing_updated" ∨ sent.type = "intake.new_contact")
  stopped : status = .stopped → (∃ sent, new = [sent] ∧ sent.type = "intake.spam_deleted") ∧
    rows.getLast?.map (·.stepName) = some "Handle Spam" ∧
    (∃ row, d.store.contact? (Json.ofText? ev.entityId) = .ok (some row)) ∧
    e.store.contact? (Json.ofText? ev.entityId) = .ok none
  failed : status = .failed → new = []
  exclusive : ¬ (Executed rows "Merge Into Existing" ∧ Executed rows "Save New Contact")

namespace Event.Routed

variable {ev : Event} {d m e : Desk} {status : RunStatus} {rows : List RunLog} {new : List Event}

/-- A run that fails in a step before it has emitted anything. -/
theorem of_failed (name : String) (hnamed : ∀ l ∈ rows, l.stepName = name) :
    ev.Routed d e .failed rows [] where
  completed h := by cases h
  stopped h := by cases h
  failed _ := rfl
  exclusive := fun ⟨⟨l, hl, hmerge, _⟩, l', hl', hsave, _⟩ =>
    absurd (hmerge.symm.trans ((hnamed l hl).trans ((hnamed l' hl').symm.trans hsave))) (by decide)

theorem of_sends {t : String} (h : Course.Sends t new status)
    (ht : t = "intake.existing_updated" ∨ t = "intake.new_contact")
    (hexclusive : ¬ (Executed rows "Merge Into Existing" ∧ Executed rows "Save New Contact")) :
    ev.Routed d e status rows new := by
  obtain ⟨rfl, sent, rfl, rfl⟩ | ⟨rfl, rfl⟩ := h
  · exact ⟨fun _ => ⟨sent, rfl, ht⟩, nofun, nofun, hexclusive⟩
  · exact ⟨nofun, nofun, fun _ => rfl, hexclusive⟩

/-- A step of another name that leaves the contacts alone changes nothing about it. -/
theorem of_step {front : List RunLog} {name : String} (hnamed : ∀ l ∈ front, l.stepName = name)
    (hmerge : name ≠ "Merge Into Existing") (hsave : name ≠ "Save New Contact")
    (hcontacts : m.store.contacts = d.store.contacts) (h : ev.Routed m e status rows new) :
    ev.Routed d e status (front ++ rows) new where
  completed := h.completed
  stopped hstatus := by
    obtain ⟨hsent, hlast, hbefore, hafter⟩ := h.stopped hstatus
    refine ⟨hsent, ?_, ?_, hafter⟩
    · cases hrows : rows.getLast? with
      | none =>
        rw [hrows] at hlast
        cases hlast
      | some l => rwa [List.getLast?_append, hrows, Option.some_or, ← hrows]
    · rwa [Store.contact?_congr hcontacts] at hbefore
  failed := h.failed
  exclusive := fun ⟨hmerged, hsaved⟩ => h.exclusive
    ⟨executed_of_append_named hnamed hmerge hmerged, executed_of_append_named hnamed hsave hsaved⟩

/-- What comes before and after it, and leaves the contacts alone, changes nothing about it. -/
theorem of_contacts {m' : Desk} (hbefore : m.store.contacts = d.store.contacts)
    (hafter : e.store.contacts = m'.store.contacts) (h : ev.Routed m m' status rows new) :
    ev.Routed d e status rows new where
  completed := h.completed
  stopped hstatus := by
    obtain ⟨hsent, hlast, hthere, hgone⟩ := h.stopped hstatus
    rw [Store.contact?_congr hbefore] at hthere
    exact ⟨hsent, hlast, hthere, (Store.contact?_congr hafter _).trans hgone⟩
  failed := h.failed
  exclusive := h.exclusive

end Event.Routed

namespace Catalog.IntakeSteps

variable {s : Fin 8 → WorkflowStep} (hs : IntakeSteps s)
include hs

variable {c : Course} {p q : Progress} {o : Office} {d e : Desk} {halt : Option Halt} {ev : Event}

/-- From the condition on a run deletes the contact or looks for another one. -/
theorem routed_of_condition (hc : c.emitter = Emitter.queue)
    (hdelete : Registry.scripted? o "delete_contact" = none)
    (hsearch : Registry.scripted? o "search_contacts" = none)
    (hevent : Fields.get? p.context "event" = some ev.reference) (hp : p.Open)
    (hready : c.Ready o [s 2, s 3, s 4, s 5, s 6, s 7] d)
    (h : (c.steps [s 2, s 3, s 4, s 5, s 6, s 7] p).run o d = (.done (q, halt), e)) :
    ∃ rows new, c.Writes rows new p d q e ∧
      ∀ limit, ev.Routed d e (Workflow.ended limit (q, halt)).status rows new := by
  have hmerge : (s 2).name ≠ "Merge Into Existing" := by rw [(hs 2).name]; decide
  have hsave : (s 2).name ≠ "Save New Contact" := by rw [(hs 2).name]; decide
  cases Course.leg_of_steps hc (hs.stops 2) (hs.due (by decide) _) (hs.keepsLists 2) hready h with
  | @broken rows failed named writes =>
    exact ⟨rows, [], writes, fun limit => failed limit ▸ .of_failed _ named⟩
  | @taken r p' m m' new result success sent context error writes contacts ready stopped more
      last =>
    have hrow : ∀ l ∈ [c.row (s 2) r m], l.stepName = (s 2).name := by simp
    obtain hinert | ⟨hstop, ⟨em, hem, htype⟩, hbefore, hafter⟩ :=
      hs.spam_cases (o := c.under o) hdelete hevent success result
    · have hopen : p'.stopped = false := by rw [stopped, hp.stopped, hinert.stop]; rfl
      rw [hinert.emit] at sent
      obtain rfl : new = [] := List.map_eq_nil_iff.1 sent
      obtain ⟨rows, new, t, writes', sends, ht, hexclusive⟩ :=
        hs.sends_of_search hc hsearch ⟨error.trans hp.error, hopen⟩ ready (more hopen)
      refine ⟨_, new, writes.append writes', fun limit => .of_sends (sends limit) ht ?_⟩
      exact fun ⟨hmerged, hsaved⟩ => hexclusive ⟨executed_of_append_named hrow hmerge hmerged,
        executed_of_append_named hrow hsave hsaved⟩
    · -- The stop ends the steps here, so the row of the condition is the last one.
      have hstopped : p'.stopped = true := by rw [stopped, hstop, Bool.or_true]
      obtain ⟨rfl, rfl, rfl⟩ := last hstopped
      have hstatus : q.status = .stopped :=
        (Progress.status_eq_stopped_iff _).2 ⟨error.trans hp.error, hstopped⟩
      rw [hem] at sent
      obtain ⟨event, rfl, hevent'⟩ := List.map_eq_singleton_iff.1 sent
      refine ⟨_, _, writes, fun limit => ?_⟩
      show ev.Routed d e q.status _ _
      rw [hstatus]
      refine ⟨nofun, fun _ => ⟨⟨event, rfl, hevent'.trans htype⟩, ?_, hbefore, ?_⟩, nofun, ?_⟩
      · exact congrArg some (hs 2).name
      · rwa [Store.contact?_congr contacts]
      · exact fun ⟨hmerged, _⟩ => not_executed_of_named hrow hmerge hmerged

/-- A prompt leads where the steps behind it lead. -/
theorem routed_of_prompt (hc : c.emitter = Emitter.queue) {i : Fin 8} (hi : i ∈ [0, 1])
    {rest : List WorkflowStep} (hevent : Fields.get? p.context "event" = some ev.reference)
    (hp : p.Open) (hready : c.Ready o (s i :: rest) d)
    (h : (c.steps (s i :: rest) p).run o d = (.done (q, halt), e))
    (hrest : ∀ p' m', Fields.get? p'.context "event" = some ev.reference → p'.Open →
      c.Ready o rest m' → (c.steps rest p').run o m' = (.done (q, halt), e) →
      ∃ rows new, c.Writes rows new p' m' q e ∧
        ∀ limit, ev.Routed m' e (Workflow.ended limit (q, halt)).status rows new) :
    ∃ rows new, c.Writes rows new p d q e ∧
      ∀ limit, ev.Routed d e (Workflow.ended limit (q, halt)).status rows new := by
  have hstep : ∀ i ∈ ([0, 1] : List (Fin 8)), (intakeStep i).action = .prompt ∧
      (intakeStep i).output ≠ some "event" ∧ (intakeStep i).name ≠ "Merge Into Existing" ∧
      (intakeStep i).name ≠ "Save New Contact" := by decide
  obtain ⟨haction, houtput, hmerge, hsave⟩ := hstep i hi
  rw [← (hs i).action] at haction
  rw [← (hs i).output] at houtput
  rw [← (hs i).name] at hmerge hsave
  have hfirst : i ∈ [0, 1, 2, 3] ∧ i ∈ [0, 1, 3, 4, 6] := by
    revert hi
    clear * -
    revert i
    decide
  obtain ⟨failed, rows, named, writes⟩ | ⟨r, p', m, m', ho⟩ :=
    Course.onward_of_asks hc (hs.stops i) (hs.due hfirst.1 _) (hs.keepsLists i)
      (hs.asks hfirst.2) hp hready h
  · exact ⟨rows, [], writes, fun limit => failed limit ▸ .of_failed _ named⟩
  · have hevent' : Fields.get? p'.context "event" = some ev.reference := by
      rw [ho.context, Progress.get?_succeed_of_ne houtput, hevent]
    obtain ⟨rows, new, writes, hrouted⟩ := hrest p' m' hevent' ho.isOpen ho.ready ho.more
    have hcontacts : m'.store.contacts = d.store.contacts := ho.contacts.trans
      ((Course.spares_resultOf haction _).of_run (d := { d with added := [] }) ho.result)
    exact ⟨_, new, ho.writes.append writes, fun limit =>
      (hrouted limit).of_step (by simp) hmerge hsave hcontacts⟩

/-- The steps of the intake lead to one of its outcomes. -/
theorem routed_of_steps (hc : c.emitter = Emitter.queue)
    (hdelete : Registry.scripted? o "delete_contact" = none)
    (hsearch : Registry.scripted? o "search_contacts" = none)
    (hevent : Fields.get? p.context "event" = some ev.reference) (hp : p.Open)
    (hready : c.Ready o [s 0, s 1, s 2, s 3, s 4, s 5, s 6, s 7] d)
    (h : (c.steps [s 0, s 1, s 2, s 3, s 4, s 5, s 6, s 7] p).run o d = (.done (q, halt), e)) :
    ∃ rows new, c.Writes rows new p d q e ∧
      ∀ limit, ev.Routed d e (Workflow.ended limit (q, halt)).status rows new :=
  hs.routed_of_prompt hc (by decide) hevent hp hready h fun _ _ hevent₁ hp₁ hready₁ h₁ =>
    hs.routed_of_prompt hc (by decide) hevent₁ hp₁ hready₁ h₁ fun _ _ hevent₂ hp₂ hready₂ h₂ =>
      hs.routed_of_condition hc hdelete hsearch hevent₂ hp₂ hready₂ h₂

end Catalog.IntakeSteps

/-! ## Runs of the intake -/

/-- The store of the office takes the record of a run and its log. -/
structure Office.Records (o : Office) : Prop where
  opens : Action.faultOf o "create_run" = none
  closes : Action.faultOf o "update_run" = none
  adds : Action.faultOf o "add_run_log" = none

/-- What the run of an outcome has written: the rows of its log, and the events that it has
emitted. -/
structure RunOutcome.Wrote (out : RunOutcome) (rows : List RunLog) (new : List Event) (d e : Desk) :
    Prop where
  logs : e.store.logs = d.store.logs ++ rows
  own : ∀ l ∈ rows, out.runId = some l.runId
  events : e.store.events = d.store.events ++ new
  emitted : out.emitted = new.map (·.id)

namespace Workflow

variable {w : Workflow} {em : Emitter} {id : String} {seed : Fields} {o : Office} {d e : Desk}
  {out : RunOutcome}

/-- Around its steps a run leaves contacts, logs and events alone. -/
theorem conduct_eq_done (h : (w.conduct em id seed).run o d = (.done out, e)) :
    ∃ m p m', d.Quiet m ∧ m.store.contacts = d.store.contacts ∧
      (w.carryOut em id seed).run o m = (.done p, m') ∧ out = w.outcome id p ∧
      e.store.logs = m'.store.logs ∧ e.store.events = m'.store.events ∧
      e.store.contacts = m'.store.contacts := by
  obtain ⟨⟨⟩, m, hstarted, h⟩ := Action.run_bind_eq_done.1 h
  obtain ⟨p, m', hcarry, h⟩ := Action.run_bind_eq_done.1 h
  obtain ⟨⟨⟩, m₂, hclose, h⟩ := Action.run_bind_eq_done.1 h
  obtain ⟨⟨⟩, m₃, hfinished, h⟩ := Action.run_bind_eq_done.1 h
  obtain ⟨rfl, rfl⟩ := Action.run_pure_eq_done.1 h
  have hquiet := (Tame.tell _ _).quiet_of_run hfinished
  have hspared := (Spares.tell _ _).of_run hfinished
  obtain ⟨_, hfail, _⟩ | ⟨_, rfl⟩ := closeRun_cases hclose
  · cases hfail
  · exact ⟨m, p, m', (Tame.tell _ _).quiet_of_run hstarted, (Spares.tell _ _).of_run hstarted,
      hcarry, rfl, hquiet.logs, hquiet.events, hspared⟩

end Workflow

namespace Catalog

/-- A run of the intake that comes to its outcome has led to one of the three ends. -/
theorem routed_of_run {w : Workflow} (hw : w.IsIntake) {ev : Event} {o : Office} {d e : Desk}
    {out : RunOutcome} (hadds : Action.faultOf o "add_run_log" = none)
    (hdelete : Registry.scripted? o "delete_contact" = none)
    (hsearch : Registry.scripted? o "search_contacts" = none) (hd : d.Fresh)
    (h : (w.run Emitter.queue (.object ev.contextSeed) "event").run o d = (.done out, e)) :
    ∃ rows new, out.Wrote rows new d e ∧ ev.Routed d e out.status rows new := by
  obtain ⟨s, hs, hsteps⟩ := intakeSteps_of_isIntake hw
  obtain ⟨_, hfail, _⟩ | ⟨seed, r, hseed, hbegun, -, hconduct⟩ := Workflow.run_cases h
  · cases hfail
  obtain rfl : ev.contextSeed = seed := Except.ok.inj hseed
  obtain ⟨m, p, m', hquiet, hcontacts, hcarry, rfl, hlogs, hevents, hafter⟩ :=
    Workflow.conduct_eq_done hconduct
  obtain ⟨rfl, rfl⟩ | ⟨c, ⟨q, halt⟩, hid, hc, hrun, rfl⟩ := Workflow.run_carryOut_eq_done hcarry
  · refine ⟨[], [], ⟨?_, by simp, ?_, rfl⟩, Event.Routed.of_failed "" (by simp)⟩
    · rw [hlogs, hquiet.logs, List.append_nil]
      rfl
    · rw [hevents, hquiet.events, List.append_nil]
      rfl
  · have hopened : Desk.Grows none d (d.next.withRun r) := Desk.grows_withRun hbegun.id
    have hready : c.Ready o [s 0, s 1, s 2, s 3, s 4, s 5, s 6, s 7] m := {
      stored := ⟨r, hquiet.runs ▸ List.mem_append_right _ (List.mem_singleton_self r), hid.symm⟩
      adds := hadds
      fresh := (hopened.fresh hd (by simp)).of_quiet hquiet
      orders := by simp [hs.fits] }
    rw [hsteps] at hrun
    have hevent : Fields.get? ev.contextSeed "event" = some ev.reference := rfl
    obtain ⟨rows, new, writes, hrouted⟩ :=
      hs.routed_of_steps hc hdelete hsearch hevent ⟨rfl, rfl⟩ hready hrun
    refine ⟨rows, new, ⟨?_, ?_, ?_, ?_⟩, ?_⟩
    · rw [hlogs, writes.logs, hquiet.logs]
      rfl
    · exact fun l hl => congrArg some (hid.symm.trans (writes.own l hl).symm)
    · rw [hevents, writes.events, hquiet.events]
      rfl
    · exact (Workflow.emitted_ended _ _).trans writes.emitted
    · exact (hrouted _).of_contacts hcontacts hafter

theorem isIntake_of_steps {w : Workflow} (h : w.steps = intakeSteps) : w.IsIntake := by
  have hsorted : w.orderedSteps = intakeSteps := by
    rw [Workflow.orderedSteps, h]
    exact List.mergeSort_of_pairwise (by decide)
  rw [Workflow.IsIntake, hsorted]
  exact List.forall₂_same.2 fun s _ => ⟨rfl, rfl, rfl, rfl, rfl, rfl, rfl⟩

/-- A run of the intake for an event comes to its outcome, whatever the store holds and the language
model answers. Completed, it has passed the contact on as known or as new, and not as both; stopped,
it has deleted the contact as spam, with nothing logged behind that; failed, it has announced
nothing. -/
theorem intake_routes {w : Workflow} (hw : w.IsIntake) (ev : Event) {o : Office} {d : Desk}
    (hqueued : o.settings.inline = false) (hlimits : o.deadlines = []) (ho : o.Records)
    (hdelete : Registry.scripted? o "delete_contact" = none)
    (hsearch : Registry.scripted? o "search_contacts" = none) (hd : d.Fresh) :
    ∃ out e rows new,
      (w.run (Dispatch.emitterFor o.settings) (.object ev.contextSeed) "event").run o d =
        (.done out, e) ∧
      out.Wrote rows new d e ∧ ev.Routed d e out.status rows new := by
  obtain ⟨out, e, hrun⟩ : ∃ out e,
      (w.run (Dispatch.emitterFor o.settings) (.object ev.contextSeed) "event").run o d =
        (.done out, e) := by
    exact Workflow.exists_outcome (fun f => (Dispatch.timely_emitterFor o.settings f).punctual)
      hlimits ho.closes rfl ⟨_, congrArg Prod.fst (w.run_openRun ev "event" ho.opens hd)⟩
  have hqueue : Dispatch.emitterFor o.settings = Emitter.queue := by
    rw [Dispatch.emitterFor, hqueued]
    rfl
  obtain ⟨rows, new, wrote, routed⟩ :=
    routed_of_run hw ho.adds hdelete hsearch hd (hqueue ▸ hrun)
  exact ⟨out, e, rows, new, hrun, wrote, routed⟩

/-- A first contact. -/
def firstContact : Event where
  id := "first"
  type := "contact.created"
  entityType := "contact"
  entityId := "ada"
  payload := [("email", "ada@example.com")]
  teamId := none
  source := none
  processed := false
  processedAt := none
  createdAt := Timestamp.utc 0

/-- A desk that has the contact, and a language model that takes it for spam. -/
def suspicion : Desk where
  store := { contacts := [[("id", "ada"), ("email", "ada@example.com")]] }
  script := { model := [
    .answer "\x7b\"email\": \"ada@example.com\"\x7d" none,
    .answer "\x7b\"is_spam\": true, \"confidence\": 0.9\x7d" none] }

/-- The bundled intake for the contact at that desk. -/
theorem intake_routes_suspicion :
    ∃ w ∈ bundled "intake" "research" "contact", w.slug = "intake_agent_v2" ∧
      ∃ out e rows new,
        (w.run (Dispatch.emitterFor { modelKey := "key" }) (.object firstContact.contextSeed)
            "event").run { settings := { modelKey := "key" } } suspicion = (.done out, e) ∧
        out.Wrote rows new suspicion e ∧ firstContact.Routed suspicion e out.status rows new :=
  ⟨_, List.mem_cons_self, rfl,
    intake_routes (o := { settings := { modelKey := "key" } }) (isIntake_of_steps rfl) firstContact
      rfl rfl ⟨rfl, rfl, rfl⟩ rfl rfl ⟨by simp [suspicion], by simp [suspicion]⟩⟩

end Catalog

end LeadDesk
