import LeadDesk.Execution.Branch
import LeadDesk.Proofs.Conduct
/-!
# What a failing branch has done

A branch that is taken either comes to its result without a look at the desk (`Action.Idle`), or
asks for an action with a tool, and the tool is called before anything else
(`BranchAction.idle_or_asks`). A branch that fails for another reason than its tool has therefore
called no tool and changed nothing, with one exception: that an event has no type is noticed only
after the tool of the branch was called (`BranchAction.effect_of_failing`).
-/

namespace LeadDesk

/-- A step that ends so has failed: its result says so, or it has none. -/
def Ending.Fails : Ending StepResult → Prop
  | .done r => r.success = false
  | .failed _ => True
  | .cut _ => False

/-- The action comes to its end without a look at the desk: it calls nothing. -/
def Action.Idle {α : Type} (x : Action α) : Prop := ∃ r, x = Action.ofExcept r

theorem Action.Idle.run_snd {α : Type} {x : Action α} (h : x.Idle) (o : Office) (d : Desk) :
    (x.run o d).2 = d := by
  obtain ⟨r, rfl⟩ := h
  cases r <;> rfl

namespace BranchAction

/-- The branch asks for an action: its descriptor, filled from the context, comes to it. -/
def Asks (descriptor context : Json) (a : BranchAction) : Prop :=
  ∃ fields, descriptor = .object fields ∧ ofDescriptor fields context = .ok (some a)

/-- The action is to emit an event, and the event has no type. -/
def IsUntyped (a : BranchAction) : Prop := ∃ e, a.emit = some e ∧ e.eventType = ""

/-- The call of a tool with the input of an action. -/
def invocation (a : BranchAction) (tool : Json) : Action Json :=
  Registry.invoke tool (some (.object a.toolInput))

/-- The output of an action whose tool has given a value. -/
def outputOf (tool v : Json) : Json := .object [("action", tool), ("result", v)]

variable {descriptor context input tool v : Json} {a : BranchAction} {o : Office} {d e : Desk}

/-- What has no type makes the action fail, whatever its tool has given. -/
theorem resultOf_of_isUntyped (h : a.IsUntyped) (output : Json) :
    a.resultOf output input = .fail untypedEmission (some input) := by
  obtain ⟨emission, hemit, htype⟩ := h
  simp [resultOf, hemit, htype]

/-- An action whose tool has given a value fails for nothing else. -/
theorem isUntyped_of_resultOf {output : Json} (h : (a.resultOf output input).success = false) :
    a.IsUntyped := by
  cases hemit : a.emit with
  | none => simp [resultOf_of_emit_eq_none hemit] at h
  | some emission =>
    refine ⟨emission, hemit, ?_⟩
    rw [resultOf, hemit] at h
    simpa [apply_ite StepResult.success, StepResult.fail] using h

theorem idle_carryOut (h : a.tool = none) : (a.carryOut input).Idle := by
  refine ⟨.ok (a.resultOf .empty input), ?_⟩
  rw [carryOut, callTool, h]
  rfl

/-- A branch that looks at the desk does so in an action with a tool. -/
theorem idle_or_asks (descriptor context input : Json) :
    (apply descriptor context input).Idle ∨
      ∃ a tool, Asks descriptor context a ∧ a.tool = some tool ∧
        apply descriptor context input = a.carryOut input := by
  unfold apply
  split
  · exact .inl ⟨.ok (nothing input), rfl⟩
  · split
    case h_2 => exact .inl ⟨.error (.lacks descriptor.kindName "items"), rfl⟩
    case h_1 fields _ =>
      cases hasked : ofDescriptor fields context with
      | error failure => exact .inl ⟨.error failure, rfl⟩
      | ok found =>
        cases found with
        | none => exact .inl ⟨.ok (nothing input), rfl⟩
        | some a =>
          cases htool : a.tool with
          | none => exact .inl (idle_carryOut htool)
          | some tool => exact .inr ⟨a, tool, ⟨fields, rfl, hasked⟩, htool, rfl⟩

/-- The action that is asked for is carried out. -/
theorem Asks.apply_eq (h : Asks descriptor context a) :
    apply descriptor context input = a.carryOut input := by
  obtain ⟨fields, rfl, hasked⟩ := h
  unfold apply
  split
  case isTrue hempty =>
    cases fields with
    | nil => cases hasked
    | cons field rest => cases hempty
  case isFalse => simp only [hasked]; rfl

/-- How an action ends is decided by the call of its tool. -/
theorem run_carryOut (h : a.tool = some tool) :
    (a.carryOut input).run o d =
      match (a.invocation tool).run o d with
      | (.done v, e) => (.done (a.resultOf (outputOf tool v) input), e)
      | (.failed failure, e) =>
        (Action.ofExcept (StepResult.ofFailure tool failure (some input))).run o e
      | (.cut level, e) => (.cut level, e) := by
  rw [carryOut, callTool, h, Action.run_bind, Action.run_attempt]
  simp only [Action.run_bind, invocation, outputOf]
  rcases (Registry.invoke tool (some (.object a.toolInput))).run o d with ⟨v | failure | level, e⟩
  · rfl
  · rfl
  · rfl

/-- A branch that fails has failed because its own tool did, or has called no tool and left the
desk as it was, or has called its tool, which gave a value, and was then to emit an event without
a type. In this last case it always fails. -/
theorem effect_of_failing (descriptor context input : Json) (o : Office) (d : Desk) :
    let run := (apply descriptor context input).run o d
    (run.1.Fails →
      (∃ a tool failure, Asks descriptor context a ∧ a.tool = some tool ∧
        (a.invocation tool).run o d = (.failed failure, run.2)) ∨
      ((apply descriptor context input).Idle ∧ run.2 = d) ∨
      ∃ a tool v, Asks descriptor context a ∧ a.tool = some tool ∧ a.IsUntyped ∧
        (a.invocation tool).run o d = (.done v, run.2)) ∧
    ∀ a tool v e, Asks descriptor context a → a.tool = some tool → a.IsUntyped →
      (a.invocation tool).run o d = (.done v, e) →
      run = (.done (.fail untypedEmission (some input)), e) := by
  intro run
  constructor
  · intro hfails
    rcases idle_or_asks descriptor context input with hidle | ⟨a, tool, hasks, htool, hcarry⟩
    · exact .inr (.inl ⟨hidle, hidle.run_snd o d⟩)
    · have hrun : run = _ := (congrArg (·.run o d) hcarry).trans (run_carryOut htool)
      rcases hcall : (a.invocation tool).run o d with ⟨v | failure | level, e⟩ <;>
        simp only [hcall] at hrun
      · -- the tool has given a value: only a missing type is left to fail for
        rw [hrun] at hfails ⊢
        exact .inr (.inr ⟨a, tool, v, hasks, htool, isUntyped_of_resultOf hfails, hcall⟩)
      · refine .inl ⟨a, tool, failure, hasks, htool, hcall.trans ?_⟩
        rw [hrun]
        cases StepResult.ofFailure tool failure (some input) <;> rfl
      · simp [hrun, Ending.Fails] at hfails
  · intro a tool v e hasks htool huntyped hcall
    show (apply descriptor context input).run o d = _
    rw [hasks.apply_eq, run_carryOut htool, hcall]
    simp only [resultOf_of_isUntyped huntyped]

/-- The descriptor of a note that is to be followed by an event without a type. -/
def noteThenEmit : Json := .object [("action", .string "note"), ("then", .string "emit_event")]

/-- A desk with a tool for notes. -/
def noteOffice : Office := { tools := [⟨"note", "note", .echo⟩] }

theorem effect_of_failing_untyped :
    let run := (apply noteThenEmit .empty .empty).run noteOffice {}
    run.1.Fails ∧ run.2.journal.toolCalls = [("note", [])] ∧
      run.1 = .done (.fail untypedEmission (some .empty)) := by
  let a : BranchAction := ⟨false, none, some ⟨"", none, none, []⟩, some (.string "note"), []⟩
  have hasks : Asks noteThenEmit .empty a := ⟨_, rfl, rfl⟩
  have hcall : ∃ v e, (a.invocation (.string "note")).run noteOffice {} = (.done v, e) ∧
      e.journal.toolCalls = [("note", [])] := ⟨_, _, rfl, rfl⟩
  obtain ⟨v, e, hcall, hjournal⟩ := hcall
  have hrun := (effect_of_failing noteThenEmit .empty .empty noteOffice {}).2 a _ v e hasks rfl
    ⟨_, rfl, rfl⟩ hcall
  refine ⟨?_, ?_, congrArg (·.1) hrun⟩
  · rw [hrun]; rfl
  · rw [hrun]; exact hjournal

end BranchAction

end LeadDesk
