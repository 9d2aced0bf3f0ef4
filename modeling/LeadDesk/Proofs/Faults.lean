import LeadDesk.Execution.Step
import LeadDesk.Proofs.Acceptance
import LeadDesk.Proofs.Lexing
/-!
# How conditions fail

A condition has a truth value or is faulted as an expression, and the steps that ask for one
take such a fault for false. There are three ways past that, and all of them are about numbers
(`Obstacle`): the value of a placeholder cannot be read or written, a number or a position in
a path has more digits than are read, or an integer is beyond the floating-point numbers. The
step fails then instead of taking its default.
-/

namespace LeadDesk

/-- A text is filled unless the value of one of its placeholders cannot be read or written. -/
theorem Template.exists_placeholder_of_fill {filling : Filling} {context : Json}
    {pieces : List Piece} {fault : NumberFault} (h : fill filling context pieces = .error fault) :
    ∃ body, Piece.placeholder body ∈ pieces ∧ valueOf context body = .error fault := by
  induction pieces with
  | nil => cases h
  | cons piece pieces ih =>
    cases piece with
    | char c =>
      rw [fill] at h
      obtain ⟨body, hmem, hvalue⟩ := ih (Condition.map_error h)
      exact ⟨body, List.mem_cons_of_mem _ hmem, hvalue⟩
    | placeholder body =>
      rw [fill] at h
      cases hvalue : valueOf context body with
      | error e =>
        simp only [hvalue, Except.error.injEq] at h
        exact ⟨body, List.mem_cons_self, h ▸ hvalue⟩
      | ok v =>
        simp only [hvalue] at h
        obtain ⟨body, hmem, hvalue⟩ := ih (Condition.map_error h)
        exact ⟨body, List.mem_cons_of_mem _ hmem, hvalue⟩

namespace Condition

/-- What keeps a condition from a truth value although it may be an expression. -/
inductive Obstacle (context : Json) (text : String) : Fault → Prop
  | placeholder {body : List Char} {fault : NumberFault}
      (hmem : Template.Piece.placeholder body ∈ Template.pieces text)
      (hvalue : Template.valueOf context body = .error fault) :
      Obstacle context text (.number fault)
  | digits {tokens : List Token} {token : Token} {fault : NumberFault}
      (htokens : HasTokens context text tokens) (hmem : token ∈ tokens) (hlong : ¬ token.Short) :
      Obstacle context text (.number fault)
  | large {tokens : List Token} {token : Token} (htokens : HasTokens context text tokens)
      (hmem : token ∈ tokens) (hlarge : ¬ token.Fits context) : Obstacle context text .tooLarge

/-- A whole token is only refused for its digits. -/
theorem Token.Refused.not_short {context : Json} {token : Token} {fault : NumberFault}
    (h : token.Refused context fault) (hwhole : token.Whole) : ¬ token.Short := by
  intro hshort
  match token with
  | ⟨.number, word⟩ =>
    have h : numberValue word = _ := h
    rw [numberValue_of_whole hwhole hshort] at h
    cases h
  | ⟨.path, word⟩ =>
    obtain ⟨v, hv⟩ := resolve_of_whole hwhole hshort context
    obtain ⟨-, h⟩ := h
    rw [hv] at h
    cases h
  | ⟨.text, word⟩ | ⟨.operator, word⟩ => exact h

/-- A fault that comes from the tokens of a condition is about the expression, or one of them
stands in the way. -/
theorem Fault.DueTo.obstacle {context : Json} {text : String} {tokens : List Token} {e : Fault}
    (h : e.DueTo context tokens) (htokens : HasTokens context text tokens) :
    e.isExpressionFault = true ∨ Obstacle context text e := by
  cases e with
  | tooLarge =>
    obtain ⟨token, hmem, hlarge⟩ := h
    exact .inr (.large htokens hmem hlarge)
  | number fault =>
    obtain ⟨token, hmem, hrefused⟩ := h
    exact .inr (.digits htokens hmem (hrefused.not_short (htokens.whole token hmem)))
  | unexpectedChar _ _ | nothing | unexpectedToken _ | unexpectedEnd | unclosed
  | undefinedPath _ => exact .inl rfl

/-- The only fault of cutting is a character that starts no token. -/
theorem isExpressionFault_of_tokensFrom {cs : List Char} {skip index : Nat} {e : Fault}
    (h : tokensFrom skip index cs = .error e) : e.isExpressionFault = true := by
  induction cs generalizing skip index with
  | nil => cases skip <;> cases h
  | cons c rest ih =>
    cases skip with
    | succ skip => exact ih h
    | zero =>
      rw [tokensFrom] at h
      split at h
      · exact ih h
      · cases htoken : token? (c :: rest) with
        | none =>
          simp only [htoken, Except.error.injEq] at h
          exact h ▸ rfl
        | some t =>
          simp only [htoken] at h
          exact ih (map_error h)

/-- A condition has a truth value, or a fault that is about the expression or about a number that
stands in the way. -/
theorem evaluate_cases (text : String) (context : Json) :
    (∃ b, evaluate (.string text) context = .ok b) ∨
      ∃ e, evaluate (.string text) context = .error e ∧
        (e.isExpressionFault = true ∨ Obstacle context text e) := by
  -- Filling, cutting and reading can each be at fault, in this order.
  cases hfilled : Template.resolve text context with
  | error e =>
    rw [Template.resolve] at hfilled
    obtain ⟨body, hmem, hvalue⟩ := Template.exists_placeholder_of_fill (map_error hfilled)
    refine .inr ⟨.number e, ?_, .inr (.placeholder hmem hvalue)⟩
    simp only [evaluate, value, Template.resolve, hfilled]
  | ok filled =>
    cases htokens : tokenize (normalize filled) with
    | error e =>
      refine .inr ⟨e, ?_, .inl (isExpressionFault_of_tokensFrom htokens)⟩
      simp only [evaluate, value, hfilled, htokens]
    | ok tokens =>
      have hhas : HasTokens context text tokens := ⟨filled, hfilled, htokens⟩
      rcases outcome_valueOfTokens context hhas.whole with ⟨v, hv, -, hfits⟩ | ⟨e, he, hdue⟩
      · have hheld : evaluate (.string text) context = holds v := by
          simp only [evaluate, hhas.value_eq, hv]
        cases hholds : holds v with
        | ok b => exact .inl ⟨b, hheld.trans hholds⟩
        | error e =>
          have hdue : e.DueTo context tokens := due_of_holds_error hfits hholds
          exact .inr ⟨e, hheld.trans hholds, hdue.obstacle hhas⟩
      · refine .inr ⟨e, ?_, hdue.obstacle hhas⟩
        simp only [evaluate, hhas.value_eq, he]

end Condition

open Condition

/-- A condition has a truth value; or it is faulted as an expression, and then a condition step
takes it for false and a branch step passes its branch over; or a number stands in the way, and
then the step fails with it. -/
theorem ConditionStep.matched_cases (text : String) (context : Json) :
    (∃ b, evaluate (.string text) context = .ok b ∧ matched (.string text) context = .ok b) ∨
    (∃ fault, evaluate (.string text) context = .error fault ∧
      (Failure.condition fault).kind = "ExpressionError" ∧
      matched (.string text) context = .ok false ∧
      ∀ fields index later,
        (Fields.getD fields "condition").orElse (.string "") = .string text →
        BranchStep.firstMatch context index (.object fields :: later) =
          BranchStep.firstMatch context (index + 1) later) ∨
    ∃ fault, evaluate (.string text) context = .error fault ∧ Obstacle context text fault ∧
      matched (.string text) context = .error (.condition fault) := by
  rcases evaluate_cases text context with ⟨b, hb⟩ | ⟨e, he, hfault⟩
  · exact .inl ⟨b, hb, by rw [matched, hb]⟩
  · cases hexpression : e.isExpressionFault with
    | true =>
      have hmatched : matched (.string text) context = .ok false := by
        rw [matched, he]
        simp only [hexpression, if_true]
      refine .inr (.inl ⟨e, he, kind_of_isExpressionFault hexpression, hmatched, ?_⟩)
      intro fields index later hfields
      rw [BranchStep.firstMatch, hfields, hmatched]
    | false =>
      have hobstacle := hfault.resolve_left (by simp [hexpression])
      refine .inr (.inr ⟨e, he, hobstacle, ?_⟩)
      rw [matched, he]
      simp only [hexpression, Bool.false_eq_true, if_false]

end LeadDesk
