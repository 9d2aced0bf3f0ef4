import LeadDesk.Proofs.Acceptance
import LeadDesk.Proofs.Lexing
/-!
# Operands that do not count

The second operand of `||` and `&&` does not count where the first decides. It is read all
the same, and read in full: signs and comparisons in it are computed, and only a path without
a value is passed over. No fault of it is therefore about the expression
(`Tree.not_isExpressionFault_of_skipped`), but it may meet a number that cannot be read, or
compute with an integer beyond the floating-point numbers (`Tree.reading_sign_of_tooLarge`).

Operands that meet no such number (`Tree.Harmless`) can be put in each other's place, at any
depth and any number of them, and nothing changes (`evaluate_of_swapped`).
-/

namespace LeadDesk

namespace Condition

/-- The operand has a value and holds, or does not hold, as `b` says. -/
def Tree.Decides {level : Level} (context : Json) (t : Tree level) (b : Bool) : Prop :=
  (t.reading context false >>= holds) = .ok b

instance {level : Level} (context : Json) (t : Tree level) (b : Bool) :
    Decidable (t.Decides context b) := inferInstanceAs (Decidable (_ = _))

/-- Where the operand does not count, it meets no fault that is about a number. -/
def Tree.Harmless {level : Level} (context : Json) (t : Tree level) : Prop :=
  ∀ e, t.reading context true = .error e → e.isExpressionFault = true

/-- The two trees are the same but for operands that do not count. -/
inductive Swapped (context : Json) : {level : Level} → Tree level → Tree level → Prop
  | passedOr {left left' : Tree .disjunction} {right right' : Tree .conjunction}
      (hleft : Swapped context left left') (hdecides : left.Decides context true)
      (hright : right.Harmless context) (hright' : right'.Harmless context) :
      Swapped context (.or left right) (.or left' right')
  | passedAnd {left left' : Tree .conjunction} {right right' : Tree .negation}
      (hleft : Swapped context left left') (hdecides : left.Decides context false)
      (hright : right.Harmless context) (hright' : right'.Harmless context) :
      Swapped context (.and left right) (.and left' right')
  | same {level : Level} (t : Tree level) : Swapped context t t
  | or {left left' : Tree .disjunction} {right right' : Tree .conjunction}
      (hleft : Swapped context left left') (hright : Swapped context right right') :
      Swapped context (.or left right) (.or left' right')
  | and {left left' : Tree .conjunction} {right right' : Tree .negation}
      (hleft : Swapped context left left') (hright : Swapped context right right') :
      Swapped context (.and left right) (.and left' right')
  | compare (c : Comparison) {left left' right right' : Tree .signed}
      (hleft : Swapped context left left') (hright : Swapped context right right') :
      Swapped context (.compare c left right) (.compare c left' right')
  | not {t t' : Tree .negation} (h : Swapped context t t') : Swapped context (.not t) (.not t')
  | sign (negative : Bool) {t t' : Tree .signed} (h : Swapped context t t') :
      Swapped context (.sign negative t) (.sign negative t')
  | group {t t' : Tree .disjunction} (h : Swapped context t t') :
      Swapped context (.group t) (.group t')
  | ofConjunction {t t' : Tree .conjunction} (h : Swapped context t t') :
      Swapped context (.ofConjunction t) (.ofConjunction t')
  | ofNegation {t t' : Tree .negation} (h : Swapped context t t') :
      Swapped context (.ofNegation t) (.ofNegation t')
  | ofComparison {t t' : Tree .comparison} (h : Swapped context t t') :
      Swapped context (.ofComparison t) (.ofComparison t')
  | ofSigned {t t' : Tree .signed} (h : Swapped context t t') :
      Swapped context (.ofSigned t) (.ofSigned t')
  | ofPrimary {t t' : Tree .primary} (h : Swapped context t t') :
      Swapped context (.ofPrimary t) (.ofPrimary t')

section

variable {context : Json} {level : Level}

/-! ### Harmless operands -/

/-- A tree with a value where it does not count is harmless. -/
theorem Tree.harmless_of_reading {t : Tree level} (h : ∃ v, t.reading context true = .ok v) :
    t.Harmless context := by
  obtain ⟨v, hv⟩ := h
  intro e he
  rw [hv] at he
  cases he

/-- An operand is harmless when its numbers can be read and fit. -/
theorem Tree.harmless_of_fits {t : Tree level} (hwhole : ∀ token ∈ t.tokens, token.Whole)
    (hshort : ∀ token ∈ t.tokens, token.Short) (hfits : ∀ token ∈ t.tokens, token.Fits context) :
    t.Harmless context := by
  obtain ⟨v, hv, -⟩ := (t.sound fun token hmem =>
    Token.usable (hwhole token hmem) (hshort token hmem) (hfits token hmem)).skipped
  exact harmless_of_reading ⟨v, hv⟩

/-- A word by itself computes nothing, so it is harmless when it can be read. -/
theorem Tree.harmless_of_word {t : Tree level} (hlength : t.tokens.length = 1)
    (hwhole : ∀ token ∈ t.tokens, token.Whole) (hshort : ∀ token ∈ t.tokens, token.Short) :
    t.Harmless context := by
  induction t with
  | or left right | and left right | compare c left right =>
    have := List.length_pos_iff.2 left.tokens_ne_nil
    simp only [tokens, List.length_append, List.length_cons] at hlength
    omega
  | not operand | sign negative operand =>
    have := List.length_pos_iff.2 operand.tokens_ne_nil
    simp only [tokens, List.length_cons] at hlength
    omega
  | group inner =>
    simp only [tokens, List.length_append, List.length_cons] at hlength
    omega
  | ofConjunction operand ih | ofNegation operand ih | ofComparison operand ih
  | ofSigned operand ih | ofPrimary operand ih => exact ih hlength hwhole hshort
  | number word =>
    have hmem : (⟨.number, word⟩ : Token) ∈ (number word).tokens := List.mem_singleton_self _
    exact harmless_of_reading ⟨_, numberValue_of_whole (hwhole _ hmem) (hshort _ hmem)⟩
  | text word => exact harmless_of_reading ⟨_, rfl⟩
  | name word =>
    have hmem : (⟨.path, word⟩ : Token) ∈ (name word).tokens := List.mem_singleton_self _
    obtain ⟨v, hv⟩ := resolve_of_whole (hwhole _ hmem) (hshort _ hmem) context
    refine harmless_of_reading ?_
    simp only [reading, pathValue, hv]
    cases constant? word with
    | some c => exact ⟨c, rfl⟩
    | none => cases v <;> exact ⟨_, rfl⟩

theorem numberValue_error {word : String} {e : Fault} (h : numberValue word = .error e) :
    e.isExpressionFault = false := by
  rw [numberValue] at h
  split at h
  · cases h
  · cases hread : readInt word with
    | ok n => simp only [hread, reduceCtorEq] at h
    | error fault =>
      simp only [hread, Except.error.injEq] at h
      exact h ▸ rfl

theorem pathValue_error {path : String} {e : Fault} (h : pathValue context true path = .error e) :
    e.isExpressionFault = false := by
  rw [pathValue] at h
  split at h
  · cases h
  · split at h
    · exact Except.error.inj h ▸ rfl
    · cases h
    · cases h

theorem joinNext_error {onTruth : Bool} {operand : Bool → Except Fault Operand} {left : Operand}
    {e : Fault} (h : joinNext onTruth operand true left = .error e) :
    e = .tooLarge ∨ operand true = .error e := by
  rcases cases_of_bind_eq_error h with hholds | ⟨b, -, h⟩
  · exact .inl (holds_error hholds)
  · split at h
    · exact .inr h
    · rcases cases_of_bind_eq_error h with hoperand | ⟨v, -, h⟩
      · exact .inr hoperand
      · cases h

/-- No fault of an operand that does not count is about the expression. -/
theorem Tree.not_isExpressionFault_of_skipped {t : Tree level} {e : Fault}
    (h : t.reading context true = .error e) : e.isExpressionFault = false := by
  induction t with
  | or left right ihleft ihright | and left right ihleft ihright =>
    rcases cases_of_bind_eq_error h with hleft | ⟨v, -, h⟩
    · exact ihleft hleft
    · obtain rfl | hright := joinNext_error h
      · rfl
      · exact ihright hright
  | compare c left right ihleft ihright =>
    rcases cases_of_bind_eq_error h with hleft | ⟨v, -, h⟩
    · exact ihleft hleft
    · rcases cases_of_bind_eq_error h with hright | ⟨w, -, h⟩
      · exact ihright hright
      · obtain rfl := verdict_error (map_error h)
        rfl
  | not operand ih =>
    rcases cases_of_bind_eq_error h with hoperand | ⟨v, -, h⟩
    · exact ih hoperand
    · obtain rfl := holds_error (map_error h)
      rfl
  | sign negative operand ih =>
    rcases cases_of_bind_eq_error h with hoperand | ⟨v, -, h⟩
    · exact ih hoperand
    · obtain rfl := toNumber_error (map_error h)
      rfl
  | ofConjunction operand ih | ofNegation operand ih | ofComparison operand ih
  | ofSigned operand ih | ofPrimary operand ih | group operand ih => exact ih h
  | number word => exact numberValue_error h
  | text word => cases h
  | name word => exact pathValue_error h

/-- A harmless operand is read without a fault where it does not count. -/
theorem Tree.Harmless.exists_reading {t : Tree level} (h : t.Harmless context) :
    ∃ v, t.reading context true = .ok v := by
  cases hreading : t.reading context true with
  | ok v => exact ⟨v, rfl⟩
  | error e =>
    have hexpression := h e hreading
    rw [not_isExpressionFault_of_skipped hreading] at hexpression
    cases hexpression

/-! ### Operands that count and operands that do not -/

theorem joinNext_skipped {onTruth : Bool} {operand : Bool → Except Fault Operand}
    {left v : Operand} (hoperand : ∀ v, operand false = .ok v → operand true = .ok v)
    (h : joinNext onTruth operand false left = .ok v) :
    joinNext onTruth operand true left = .ok v := by
  obtain ⟨b, hb, h⟩ := exists_of_bind_eq_ok h
  refine (bind_of_ok hb _).trans ?_
  split at h
  next htruth => rw [if_pos htruth]; exact hoperand v h
  next htruth => rw [if_neg htruth]; exact h

/-- What has a value where it counts has the same value where it does not. -/
theorem Tree.reading_skipped {t : Tree level} {v : Operand}
    (h : t.reading context false = .ok v) : t.reading context true = .ok v := by
  induction t generalizing v with
  | or left right ihleft ihright | and left right ihleft ihright =>
    obtain ⟨x, hleft, h⟩ := exists_of_bind_eq_ok h
    exact (bind_of_ok (ihleft hleft) _).trans (joinNext_skipped (fun _ => ihright) h)
  | compare c left right ihleft ihright =>
    obtain ⟨x, hleft, h⟩ := exists_of_bind_eq_ok h
    obtain ⟨y, hright, h⟩ := exists_of_bind_eq_ok h
    exact (bind_of_ok (ihleft hleft) _).trans ((bind_of_ok (ihright hright) _).trans h)
  | not operand ih | sign negative operand ih =>
    obtain ⟨x, hoperand, h⟩ := exists_of_bind_eq_ok h
    exact (bind_of_ok (ih hoperand) _).trans h
  | ofConjunction operand ih | ofNegation operand ih | ofComparison operand ih
  | ofSigned operand ih | ofPrimary operand ih | group operand ih => exact ih h
  | number word | text word => exact h
  | name word =>
    simp only [reading, pathValue] at h ⊢
    cases hconstant : constant? word with
    | some c => simpa only [hconstant] using h
    | none =>
      simp only [hconstant] at h
      cases hv : Operand.resolve context word with
      | error e => simp only [hv, reduceCtorEq] at h
      | ok v =>
        cases v with
        | none => simp only [hv, Bool.false_eq_true, if_false, reduceCtorEq] at h
        | some v => simpa only [hv] using h

/-- An operand that decides does so whether it counts itself or not. -/
theorem Tree.Decides.exists_reading {t : Tree level} {b : Bool} (h : t.Decides context b)
    (skip : Bool) : ∃ v, t.reading context skip = .ok v ∧ holds v = .ok b := by
  obtain ⟨v, hv, hholds⟩ := exists_of_bind_eq_ok h
  cases skip with
  | false => exact ⟨v, hv, hholds⟩
  | true => exact ⟨v, reading_skipped hv, hholds⟩

/-- Where the first operand decides, a second one that is passed over leaves its value. -/
theorem joinNext_decided {b onTruth skip : Bool} {operand : Bool → Except Fault Operand}
    {left v : Operand} (hleft : holds left = .ok b) (hb : (b == onTruth) = false)
    (hoperand : operand true = .ok v) : joinNext onTruth operand skip left = .ok left := by
  refine (bind_of_ok hleft _).trans ?_
  rw [hb, if_neg Bool.false_ne_true]
  exact bind_of_ok hoperand _

/-- A sign before an integer that is too large is at fault even where it does not count. Such an
operand is not harmless, and it decides the outcome although the first operand holds. -/
theorem Tree.reading_sign_of_tooLarge {left : Tree .disjunction} {word : String} {n : Int}
    (hleft : left.Decides context true) (hconstant : constant? word = none)
    (hword : Operand.resolve context word = .ok (some (.int n)))
    (hlarge : toNumber (some (.int n)) = .error .tooLarge) (negative skip : Bool) :
    (Tree.or left (.ofNegation (.ofComparison (.ofSigned
      (.sign negative (.ofPrimary (.name word))))))).reading context skip = .error .tooLarge := by
  obtain ⟨v, hv, hholds⟩ := hleft.exists_reading skip
  have hvalue : (Tree.ofPrimary (.name word)).reading context true = .ok (some (.int n)) := by
    simp only [reading, pathValue, hconstant, hword]
  have hsign : (Tree.sign negative (.ofPrimary (.name word))).reading context true =
      .error .tooLarge := (bind_of_ok hvalue _).trans (bind_of_error hlarge _)
  exact (bind_of_ok hv _).trans ((bind_of_ok hholds _).trans (bind_of_error hsign _))

/-- Trees that are the same but for operands that do not count are read alike. -/
theorem Swapped.reading {t t' : Tree level} (h : Swapped context t t') (skip : Bool) :
    t.reading context skip = t'.reading context skip := by
  induction h generalizing skip with
  | @passedOr left left' right right' hleft hdecides hright hright' ih
  | @passedAnd left left' right right' hleft hdecides hright hright' ih =>
    -- Both sides have the value of the first operand, whatever they read after it.
    obtain ⟨v, hv, hholds⟩ := hdecides.exists_reading skip
    obtain ⟨w, hw⟩ := hright.exists_reading
    obtain ⟨w', hw'⟩ := hright'.exists_reading
    have hv' : left'.reading context skip = .ok v := (ih skip).symm.trans hv
    exact ((bind_of_ok hv _).trans (joinNext_decided hholds rfl hw)).trans
      ((bind_of_ok hv' _).trans (joinNext_decided hholds rfl hw')).symm
  | same => rfl
  | or hleft hright ihleft ihright | and hleft hright ihleft ihright
  | compare c hleft hright ihleft ihright =>
    simp only [Tree.reading, ihleft, funext ihright]
  | not h ih | sign negative h ih | group h ih => simp only [Tree.reading, ih]
  | ofConjunction h ih | ofNegation h ih | ofComparison h ih | ofSigned h ih | ofPrimary h ih =>
    exact ih skip

end

/-! ### Expressions -/

/-- Other operands in the place of operands that do not count leave the outcome of a condition as
it is, the fault included. -/
theorem evaluate_of_swapped {context : Json} {text text' : String} {t t' : Tree .disjunction}
    (htext : HasTokens context text t.tokens) (htext' : HasTokens context text' t'.tokens)
    (h : Swapped context t t') :
    evaluate (.string text) context = evaluate (.string text') context := by
  simp only [evaluate, htext.value_eq, htext'.value_eq, valueOfTokens_tokens, h.reading false]

/-- In `!(flag || gone.x > 1) || n === 2` the comparison does not count, so a text may stand for
it. -/
theorem evaluate_of_swapped_flag :
    let context := Json.object [("flag", .bool true), ("n", .int 2)]
    evaluate (.string "!(flag || gone.x > 1) || n === 2") context =
      evaluate (.string "!(flag || 'x') || n === 2") context := by
  intro context
  let flag : Tree .disjunction :=
    .ofConjunction (.ofNegation (.ofComparison (.ofSigned (.ofPrimary (.name "flag")))))
  let later : Tree .conjunction := .ofNegation (.ofComparison
    (.compare .identical (.ofPrimary (.name "n")) (.ofPrimary (.number "2"))))
  let whole (inner : Tree .conjunction) : Tree .disjunction := .or (.ofConjunction (.ofNegation
    (.not (.ofComparison (.ofSigned (.ofPrimary (.group (.or flag inner)))))))) later
  let compared : Tree .conjunction := .ofNegation (.ofComparison
    (.compare (.ordered .greater) (.ofPrimary (.name "gone.x")) (.ofPrimary (.number "1"))))
  let text : Tree .conjunction :=
    .ofNegation (.ofComparison (.ofSigned (.ofPrimary (.text "'x'"))))
  have htext : HasTokens context "!(flag || gone.x > 1) || n === 2" (whole compared).tokens := by
    decide +kernel
  have htext' : HasTokens context "!(flag || 'x') || n === 2" (whole text).tokens := by
    decide +kernel
  have hcompared : compared.Harmless context :=
    Tree.harmless_of_fits (by decide +kernel) (by decide +kernel) (by decide +kernel)
  have hword : text.Harmless context :=
    Tree.harmless_of_word rfl (by decide +kernel) (by decide +kernel)
  have hinner : Swapped context (.or flag compared) (.or flag text) :=
    .passedOr (.same flag) (by decide +kernel) hcompared hword
  exact evaluate_of_swapped htext htext'
    (.or (.ofConjunction (.ofNegation (.not (.ofComparison (.ofSigned (.ofPrimary
      (.group hinner))))))) (.same later))

end Condition

end LeadDesk
