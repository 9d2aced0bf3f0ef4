import LeadDesk.Execution.Step
import LeadDesk.Proofs.BranchEffects
import Mathlib.Control.Monad.Basic
/-!
# Which branch is taken

A branch step passes over the branches whose conditions do not hold or are faulted as expressions
(`BranchStep.firstMatch_passed`), and carries out the first one that is left. Nothing else acts: the
desk is left by the one call of the tool that this branch asks for, or as it was, and the branches
behind it are not looked at (`BranchStep.run_first`).
-/

namespace LeadDesk

namespace BranchStep

/-- The condition of a branch. Without one it is the empty expression, which is a fault. -/
def conditionOf (branch : Fields) : Json := (Fields.getD branch "condition").orElse (.string "")

/-- The condition of a branch is evaluated to true. -/
def Holds (context : Json) (branch : Fields) : Prop :=
  Condition.evaluate (conditionOf branch) context = .ok true

instance (context : Json) (branch : Fields) : Decidable (Holds context branch) :=
  inferInstanceAs (Decidable (_ = _))

/-- The condition of a branch has a truth value or is faulted as an expression. -/
def Settled (context : Json) (branch : Fields) : Prop :=
  ∀ e, Condition.evaluate (conditionOf branch) context = .error e → e.isExpressionFault = true

variable {context : Json}

theorem Holds.matched {branch : Fields} (h : Holds context branch) :
    ConditionStep.matched (conditionOf branch) context = .ok true := by
  rw [ConditionStep.matched, h]

/-- A condition that is settled and does not hold is taken for false. -/
theorem Settled.matched {branch : Fields} (hsettled : Settled context branch)
    (h : ¬ Holds context branch) :
    ConditionStep.matched (conditionOf branch) context = .ok false := by
  cases hvalue : Condition.evaluate (conditionOf branch) context with
  | error e => simp [ConditionStep.matched, hvalue, hsettled e hvalue]
  | ok b =>
    cases b with
    | true => exact absurd hvalue h
    | false => rw [ConditionStep.matched, hvalue]

/-- Branches whose conditions are settled and do not hold are passed over. -/
theorem firstMatch_passed {passed : List Fields}
    (h : ∀ branch ∈ passed, Settled context branch ∧ ¬ Holds context branch) (index : Nat)
    (rest : List Json) :
    firstMatch context index (passed.map .object ++ rest) =
      firstMatch context (index + passed.length) rest := by
  induction passed generalizing index with
  | nil => rfl
  | cons branch passed ih =>
    obtain ⟨hsettled, hfalse⟩ := h branch List.mem_cons_self
    have hmatched := hsettled.matched hfalse
    rw [conditionOf] at hmatched
    rw [List.map_cons, List.cons_append, firstMatch, hmatched, List.length_cons,
      ← Nat.add_assoc, Nat.add_right_comm]
    exact ih (fun b hb => h b (List.mem_cons_of_mem _ hb)) (index + 1)

/-- A branch whose condition holds is found in its place, whatever stands behind it. -/
theorem firstMatch_found {passed : List Fields} {branch : Fields}
    (hpassed : ∀ b ∈ passed, Settled context b ∧ ¬ Holds context b)
    (h : Holds context branch) (rest : List Json) :
    firstMatch context 0 (passed.map .object ++ .object branch :: rest) =
      .ok (some (passed.length, .object branch)) := by
  have hmatched := h.matched
  rw [conditionOf] at hmatched
  rw [firstMatch_passed hpassed, firstMatch, hmatched, Nat.zero_add]

/-- A step that has found a branch carries it out. -/
theorem run_of_found {config : Fields} {all : List Json} {index : Nat} {branch : Json}
    (hall : branches config = .ok all)
    (hfound : firstMatch context 0 all = .ok (some (index, branch))) :
    run config context = BranchAction.apply branch context (.object [("branch", .int index)]) := by
  rw [run, hall]
  change (Action.ofExcept (firstMatch context 0 all) >>= _ : Action StepResult) = _
  rw [hfound]
  rfl

theorem run_of_none {config : Fields} {all : List Json} (hall : branches config = .ok all)
    (hnone : firstMatch context 0 all = .ok none) : run config context = pure noMatch := by
  rw [run, hall]
  change (Action.ofExcept (firstMatch context 0 all) >>= _ : Action StepResult) = _
  rw [hnone]
  rfl

end BranchStep

namespace BranchAction

/-- A branch leaves the desk as it was, or as the call of the tool that it asks for leaves it. -/
theorem run_apply_snd (descriptor context input : Json) (o : Office) (d : Desk) :
    ((apply descriptor context input).run o d).2 = d ∨
      ∃ a tool, Asks descriptor context a ∧ a.tool = some tool ∧
        ((apply descriptor context input).run o d).2 = ((a.invocation tool).run o d).2 := by
  rcases idle_or_asks descriptor context input with hidle | ⟨a, tool, hasks, htool, hcarry⟩
  · exact .inl (hidle.run_snd o d)
  · refine .inr ⟨a, tool, hasks, htool, ?_⟩
    rw [hcarry, run_carryOut htool]
    rcases (a.invocation tool).run o d with ⟨v | failure | level, e⟩
    · rfl
    · exact (show (Action.ofExcept _).Idle from ⟨_, rfl⟩).run_snd o e
    · rfl

end BranchAction

namespace BranchStep

variable {context : Json}

/-- Where all conditions have a truth value or are faulted as expressions, the first branch whose
condition holds is carried out, with its index as the input that is shown. The desk is left as it
was or by the call of the tool that this branch asks for, and other branches behind it, whatever
they are, change nothing. Where no condition holds, the step succeeds, says so, and does nothing
else. -/
theorem run_first {config : Fields} {all : List Fields} (context : Json)
    (hall : branches config = .ok (all.map .object))
    (hsettled : ∀ branch ∈ all, Settled context branch) :
    (∀ (i : Nat) (hi : i < all.length), Holds context all[i] →
      (∀ (j : Nat) (hj : j < i), ¬ Holds context all[j]) →
      run config context =
        BranchAction.apply (.object all[i]) context (.object [("branch", .int i)]) ∧
      (∀ o d, ((run config context).run o d).2 = d ∨
        ∃ a tool, BranchAction.Asks (.object all[i]) context a ∧ a.tool = some tool ∧
          ((run config context).run o d).2 = ((a.invocation tool).run o d).2) ∧
      ∀ config' others, branches config' = .ok ((all.take (i + 1)).map .object ++ others) →
        run config' context = run config context) ∧
    ((∀ branch ∈ all, ¬ Holds context branch) →
      ∃ r : StepResult, r.success = true ∧
        r.output = some (.object [("no_match", .bool true)]) ∧ r.emit = none ∧ r.stop = false ∧
        ∀ o d, (run config context).run o d = (.done r, d)) := by
  constructor
  · intro i hi hholds hleast
    have hpassed : ∀ b ∈ all.take i, Settled context b ∧ ¬ Holds context b := by
      intro b hb
      obtain ⟨j, hj, rfl⟩ := List.getElem_of_mem hb
      rw [List.length_take] at hj
      refine ⟨hsettled _ (List.mem_of_mem_take hb), ?_⟩
      rw [List.getElem_take]
      exact hleast j (by omega)
    have hlength : (all.take i).length = i := List.length_take_of_le (Nat.le_of_lt hi)
    -- Whatever stands behind the branch, the search ends at it.
    have hfound : ∀ rest : List Json,
        firstMatch context 0 ((all.take i).map .object ++ .object all[i] :: rest) =
          .ok (some (i, .object all[i])) := fun rest => by
      rw [firstMatch_found hpassed hholds, hlength]
    have hrun : ∀ (config' : Fields) (rest : List Json),
        branches config' = .ok ((all.take i).map .object ++ .object all[i] :: rest) →
        run config' context =
          BranchAction.apply (.object all[i]) context (.object [("branch", .int i)]) :=
      fun config' rest h => run_of_found h (hfound rest)
    have hsplit : all.map Json.object = (all.take i).map .object ++
        .object all[i] :: (all.drop (i + 1)).map .object := by
      rw [← List.map_cons, ← List.map_append, ← List.drop_eq_getElem_cons hi,
        List.take_append_drop]
    have htaken := hrun config _ (hall.trans (congrArg _ hsplit))
    refine ⟨htaken, fun o d => ?_, fun config' others h => ?_⟩
    · rw [htaken]
      exact BranchAction.run_apply_snd _ _ _ o d
    · rw [List.take_add_one, List.getElem?_eq_getElem hi, Option.toList_some, List.map_append,
        List.append_assoc] at h
      rw [htaken, hrun config' others h]
  · intro hnone
    have hfirst := firstMatch_passed (fun b hb => ⟨hsettled b hb, hnone b hb⟩) 0 []
    rw [List.append_nil] at hfirst
    refine ⟨noMatch, rfl, rfl, rfl, rfl, fun o d => ?_⟩
    rw [run_of_none hall hfirst]
    rfl

/-- Four branches: one that is false, one at fault, and two that hold, each with a tool. -/
def noteOrDrop : List Fields := [
  [("condition", .string "score > 9"), ("action", .string "drop")],
  [("condition", .string "lost > 1"), ("action", .string "drop")],
  [("condition", .string "score > 3"), ("action", .string "note")],
  [("condition", .string "true"), ("action", .string "drop")]]

/-- With a score of five the third of the branches is taken, and its tool alone is called. -/
theorem run_first_note :
    let config : Fields := [("branches", .array (noteOrDrop.map .object))]
    let context : Json := .object [("score", .int 5)]
    let office : Office := { tools := [⟨"note", "note", .echo⟩, ⟨"drop", "drop", .echo⟩] }
    run config context = BranchAction.apply
      (.object [("condition", .string "score > 3"), ("action", .string "note")]) context
      (.object [("branch", .int 2)]) ∧
    ((run config context).run office {}).2.journal.toolCalls = [("note", [])] := by
  intro config context office
  have hvalues : noteOrDrop.map (fun b => Condition.evaluate (conditionOf b) context) =
      [.ok false, .error (.undefinedPath "lost"), .ok true, .ok true] := by decide +kernel
  have hsettled : ∀ branch ∈ noteOrDrop, Settled context branch := by
    intro branch hmem e he
    have hmem := List.mem_map_of_mem (f := fun b => Condition.evaluate (conditionOf b) context) hmem
    rw [he, hvalues] at hmem
    obtain rfl : e = .undefinedPath "lost" := by simpa using hmem
    rfl
  have hall : branches config = .ok (noteOrDrop.map .object) := rfl
  have hfirst := (run_first context hall hsettled).1 2 (by decide)
    (by decide +kernel) (by decide +kernel)
  exact ⟨hfirst.1, by rw [hfirst.1]; rfl⟩

end BranchStep

end LeadDesk
