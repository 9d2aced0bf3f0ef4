import LeadDesk.Workflow.BranchAction
import Mathlib.Tactic.Tauto
/-!
# Descriptors of branch actions

A descriptor may give its verb of control under `action` or under `then`. The action that it asks
for depends on both verbs and on its other keys (`BranchAction.parse?_withVerbs`). To swap the verbs
makes no difference but for one pair: `stop` under `action` leaves out the emission that is asked
for under `then` (`BranchAction.parse?_swap`).
-/

namespace LeadDesk

namespace BranchAction

/-- A verb of control in a descriptor. -/
inductive Verb where
  | goOn
  | stop
  | emit
  deriving DecidableEq, Repr

namespace Verb

/-- The word for a verb. -/
def word : Verb → String
  | goOn => "continue"
  | stop => "stop"
  | emit => "emit_event"

theorem isWord_emit (v : Verb) : isWord (.string v.word) "emit_event" = decide (v = emit) := by
  cases v <;> rfl

theorem isWord_stop (v : Verb) : isWord (.string v.word) "stop" = decide (v = stop) := by
  cases v <;> rfl

/-- A stop under `action` comes before an emission under `then` is looked at. -/
def Hides (action after : Verb) : Prop := action = stop ∧ after = emit

instance (action after : Verb) : Decidable (Hides action after) :=
  inferInstanceAs (Decidable (_ ∧ _))

/-- One of two verbs asks for an emission, and the other does not hide it. -/
def emits (action after : Verb) : Bool :=
  decide (action = emit ∨ after = emit) && decide (action ≠ stop)

/-- Verbs of which one asks for an emission emit unless the one hides the other. -/
theorem emits_eq_true_iff {action after : Verb} :
    emits action after = true ↔ (action = emit ∨ after = emit) ∧ ¬ Hides action after := by
  cases action <;> cases after <;> decide

/-- The order of two verbs matters to their emission where one hides the other. -/
theorem emits_comm_iff {action after : Verb} :
    emits action after = emits after action ↔ ¬ (Hides action after ∨ Hides after action) := by
  cases action <;> cases after <;> decide

end Verb

/-- A descriptor with a verb under `action` and one under `then`. -/
def withVerbs (f : Fields) (action after : Verb) : Fields :=
  Fields.put (Fields.put f "action" (.string action.word)) "then" (.string after.word)

variable (f : Fields) (action after : Verb)

/-! ## What a descriptor with two verbs says -/

theorem getD_withVerbs_action : Fields.getD (withVerbs f action after) "action" =
    .string action.word := by
  simp [Fields.getD, withVerbs, Fields.get?_put_of_ne]

theorem getD_withVerbs_then : Fields.getD (withVerbs f action after) "then" =
    .string after.word := by
  simp [Fields.getD, withVerbs]

/-- The verbs leave the other keys of a descriptor as they are. -/
theorem getD_withVerbs_of_ne {key : String} (ha : "action" ≠ key) (ht : "then" ≠ key) :
    Fields.getD (withVerbs f action after) key = Fields.getD f key := by
  simp [Fields.getD, withVerbs, Fields.get?_put_of_ne _ _ ha, Fields.get?_put_of_ne _ _ ht]

theorem isEmpty_withVerbs : (withVerbs f action after).isEmpty = false := by
  have hthen := getD_withVerbs_then f action after
  cases hfields : withVerbs f action after with
  | nil => rw [hfields] at hthen; cases hthen
  | cons => rfl

theorem checkReason_withVerbs : checkReason (withVerbs f action after) = checkReason f := by
  unfold checkReason
  rw [getD_withVerbs_of_ne _ _ _ (by decide) (by decide)]

theorem emission_withVerbs : emission (withVerbs f action after) = emission f := by
  unfold emission
  simp only [getD_withVerbs_of_ne _ _ _ (show "action" ≠ "event_type" by decide) (by decide),
    getD_withVerbs_of_ne _ _ _ (show "action" ≠ "entity_type" by decide) (by decide),
    getD_withVerbs_of_ne _ _ _ (show "action" ≠ "entity_id" by decide) (by decide),
    getD_withVerbs_of_ne _ _ _ (show "action" ≠ "payload" by decide) (by decide)]

theorem emits_withVerbs : emits (withVerbs f action after) =
    decide (action = .emit ∨ after = .emit) := by
  rw [emits, getD_withVerbs_action, getD_withVerbs_then, Verb.isWord_emit, Verb.isWord_emit,
    Bool.decide_or]

theorem stopsAfter_withVerbs : stopsAfter (withVerbs f action after) =
    (decide (after = .stop) || isWord (Fields.getD f "finally") "stop") := by
  rw [stopsAfter, getD_withVerbs_then, getD_withVerbs_of_ne _ _ _ (by decide) (by decide),
    Verb.isWord_stop]

/-- A verb under `action` names no tool, unless it is `stop`, which is not asked for its tool. -/
theorem tool?_withVerbs (h : action ≠ .stop) : tool? (withVerbs f action after) = none := by
  unfold tool?
  rw [getD_withVerbs_action]
  cases action with
  | stop => exact absurd rfl h
  | goOn | emit => rfl

/-! ## The action that it asks for -/

/-- The emission of a descriptor that asks for one. -/
def emissionIf (asked : Bool) (f : Fields) : Except Validation.Report (Option Emission) :=
  if asked then (emission f).map some else .ok none

theorem isSome_of_emissionIf {asked : Bool} {f : Fields} {emit : Option Emission}
    (h : emissionIf asked f = .ok emit) : emit.isSome = asked := by
  unfold emissionIf at h
  cases asked with
  | false =>
    obtain rfl := Except.ok.inj h
    rfl
  | true =>
    rw [if_pos rfl] at h
    cases he : emission f with
    | error report =>
      rw [he] at h
      cases h
    | ok e =>
      rw [he] at h
      obtain rfl := Except.ok.inj h
      rfl

/-- An emission that is asked for makes a difference, whether it is refused or not. -/
theorem emissionIf_injective (f : Fields) {asked asked' : Bool}
    (h : emissionIf asked f = emissionIf asked' f) : asked = asked' := by
  cases he : emissionIf asked f with
  | ok emit => exact (isSome_of_emissionIf he).symm.trans (isSome_of_emissionIf (h.symm.trans he))
  | error report =>
    -- Only an emission that is asked for is refused.
    have htrue : ∀ b, emissionIf b f = .error report → b = true := by
      intro b hb
      cases b with
      | false => cases hb
      | true => rfl
    rw [htrue asked he, htrue asked' (h.symm.trans he)]

/-- The action of a descriptor with two verbs: it stops when one of them or `finally` says so. -/
theorem parse?_withVerbs : parse? (withVerbs f action after) = (do
    let reason ← checkReason f
    let emit ← emissionIf (Verb.emits action after) f
    return some {
      stop := decide (action = .stop ∨ after = .stop) || isWord (Fields.getD f "finally") "stop"
      reason := reason, emit := emit, tool := none, toolInput := [] }) := by
  have hstop : isWord (Fields.getD (withVerbs f action after) "action") "stop" =
      decide (action = .stop) := by
    rw [getD_withVerbs_action, Verb.isWord_stop]
  unfold parse? emissionIf Verb.emits
  rw [isEmpty_withVerbs, checkReason_withVerbs, hstop, emits_withVerbs, emission_withVerbs,
    stopsAfter_withVerbs]
  cases checkReason f with
  | error report => rfl
  | ok reason =>
    by_cases ha : action = .stop
    · simp [ha, pure, Except.pure, bind, Except.bind]
    · simp only [ha, tool?_withVerbs f action after ha]
      cases decide (action = .emit ∨ after = .emit) <;> cases emission f <;>
        simp [Except.map, pure, Except.pure, bind, Except.bind, ha]

/-- Two verbs ask for an action that stops if and only if one of them or `finally` is a stop, and
that emits if and only if one of them asks for it and a stop under `action` does not hide it. So
the verbs may be swapped unless they are a stop and an emission; then only a descriptor whose reason
is refused comes to the same. -/
theorem parse?_swap (f : Fields) (action after : Verb) :
    (∀ found, parse? (withVerbs f action after) = .ok found → ∃ a, found = some a ∧
      (a.stop = true ↔
        action = .stop ∨ after = .stop ∨ isWord (Fields.getD f "finally") "stop" = true) ∧
      (a.emit.isSome = true ↔
        (action = .emit ∨ after = .emit) ∧ ¬ Verb.Hides action after)) ∧
    (parse? (withVerbs f action after) = parse? (withVerbs f after action) ↔
      (Verb.Hides action after ∨ Verb.Hides after action →
        ∃ report, checkReason f = .error report)) := by
  have hstop : decide (action = .stop ∨ after = .stop) = decide (after = .stop ∨ action = .stop) :=
    decide_eq_decide.2 or_comm
  rw [parse?_withVerbs, parse?_withVerbs, hstop]
  cases checkReason f with
  | error report =>
    refine ⟨fun found h => ?_, fun _ _ => ⟨report, rfl⟩, fun _ => rfl⟩
    cases h
  | ok reason =>
    refine ⟨fun found h => ?_, fun hsame hhides => ?_, fun h => ?_⟩
    · cases he : emissionIf (Verb.emits action after) f with
      | error report =>
        rw [he] at h
        cases h
      | ok emit =>
        rw [he] at h
        obtain rfl := Except.ok.inj h
        refine ⟨_, rfl, ?_, ?_⟩
        · simp only [Bool.or_eq_true, decide_eq_true_eq]
          tauto
        · exact (isSome_of_emissionIf he) ▸ Verb.emits_eq_true_iff
    · have hemission : emissionIf (Verb.emits action after) f =
          emissionIf (Verb.emits after action) f := by
        cases hl : emissionIf (Verb.emits action after) f <;>
          cases hr : emissionIf (Verb.emits after action) f <;>
          simp_all [bind, Except.bind, pure, Except.pure]
      exact absurd hhides (Verb.emits_comm_iff.1 (emissionIf_injective f hemission))
    · have hcomm : Verb.emits action after = Verb.emits after action := by
        refine Verb.emits_comm_iff.2 fun hhides => ?_
        obtain ⟨_, hrefused⟩ := h hhides
        cases hrefused
      rw [hcomm]

end BranchAction

end LeadDesk
