import LeadDesk.Proofs.Meaning
import LeadDesk.Failure
/-!
# Which tokens are an expression

The readers of tokens take just what the grammar derives. Each of them either takes the
tokens of a tree off the front, with a value or with a fault that one of the tokens is to
blame for, or it finds that no tree goes on there (`Outcome`); whether an operand counts
makes no difference to what is taken. For tokens that all have a value within the numbers,
reading succeeds exactly on the expressions, and all other tokens are faulted as an
expression (`accepts_iff_derivable`).
-/

namespace LeadDesk

namespace Condition

/-! ### Computations that may be at fault -/

theorem map_error {ε α β : Type} {r : Except ε α} {f : α → β} {e : ε}
    (h : r.map f = .error e) : r = .error e := by
  cases r with
  | error e' => simpa only [Except.map, Except.error.injEq] using h
  | ok a => simp only [Except.map, reduceCtorEq] at h

section

variable {α β : Type} {r : Except Fault α} {f : α → Except Fault β}

theorem bind_of_ok {a : α} (h : r = .ok a) (f : α → Except Fault β) : (r >>= f) = f a := by
  rw [h]
  rfl

theorem bind_of_error {e : Fault} (h : r = .error e) (f : α → Except Fault β) :
    (r >>= f) = .error e := by
  rw [h]
  rfl

/-- What has a result in two steps has one in each of them. -/
theorem exists_of_bind_eq_ok {b : β} (h : (r >>= f) = .ok b) : ∃ a, r = .ok a ∧ f a = .ok b := by
  cases r with
  | error e => cases h
  | ok a => exact ⟨a, rfl, h⟩

/-- What is at fault in two steps is so in the first of them or in the second. -/
theorem cases_of_bind_eq_error {e : Fault} (h : (r >>= f) = .error e) :
    r = .error e ∨ ∃ a, r = .ok a ∧ f a = .error e := by
  cases r with
  | error e' =>
    obtain rfl : e' = e := Except.error.inj h
    exact .inl rfl
  | ok a => exact .inr ⟨a, rfl, h⟩

end

/-! ### Faults and the tokens that they come from -/

/-- The token has no value, since the digits of its number or of a position in its path cannot be
read. -/
def Token.Refused (context : Json) (fault : NumberFault) : Token → Prop
  | ⟨.number, word⟩ => numberValue word = .error (.number fault)
  | ⟨.path, word⟩ => constant? word = none ∧ Operand.resolve context word = .error fault
  | _ => False

/-- A fault about the size of a number comes from one of the tokens. -/
def Fault.DueTo (context : Json) (tokens : List Token) : Fault → Prop
  | .tooLarge => ∃ token ∈ tokens, ¬ token.Fits context
  | .number fault => ∃ token ∈ tokens, token.Refused context fault
  | _ => True

/-- Where all numbers fit and can be read, only the expression itself is at fault. -/
theorem Fault.DueTo.isExpressionFault {context : Json} {tokens : List Token} {e : Fault}
    (h : e.DueTo context tokens) (hfits : ∀ token ∈ tokens, token.Fits context)
    (hread : ∀ token ∈ tokens, ∀ fault, ¬ token.Refused context fault) :
    e.isExpressionFault = true := by
  cases e with
  | tooLarge =>
    obtain ⟨token, hmem, hlarge⟩ := h
    exact absurd (hfits token hmem) hlarge
  | number fault =>
    obtain ⟨token, hmem, hrefused⟩ := h
    exact absurd hrefused (hread token hmem fault)
  | unexpectedChar _ _ | nothing | unexpectedToken _ | unexpectedEnd | unclosed
  | undefinedPath _ => rfl

/-- A whole number token has the value of its numeral, or its digits are refused. -/
theorem numberValue_cases {word : String} (h : (⟨.number, word⟩ : Token).Whole) :
    numberValue word = .ok (some (numeral word)) ∨
      ∃ fault, numberValue word = .error (.number fault) := by
  by_cases hshort : (⟨.number, word⟩ : Token).Short
  · exact .inl (numberValue_of_whole h hshort)
  · exact .inr ⟨_, numberValue_of_not_short h hshort⟩

/-- The integers that fit are those that a floating-point number comes near. The equation is one of
functions, so that nothing evaluates the number for an integer that is not known. -/
theorem ofInt_eq : ofInt = fun n => match Double.ofInt? n with
    | some d => .ok d
    | none => .error .tooLarge := by
  delta ofInt
  exact Eq.refl _

theorem ofInt_error {n : Int} {e : Fault} (h : ofInt n = .error e) : e = .tooLarge := by
  rw [congrFun ofInt_eq n] at h
  generalize Double.ofInt? n = d at h
  cases d with
  | some d => simp at h
  | none => simpa using h.symm

theorem toNumber_error {v : Operand} {e : Fault} (h : toNumber v = .error e) : e = .tooLarge := by
  cases v with
  | none => simp only [toNumber, reduceCtorEq] at h
  | some j =>
    cases j with
    | int n =>
      rw [toNumber] at h
      exact ofInt_error h
    | null | bool _ | float _ | string _ | array _ | object _ =>
      simp only [toNumber, reduceCtorEq] at h

theorem holds_error {v : Operand} {e : Fault} (h : holds v = .error e) : e = .tooLarge := by
  cases v with
  | none => simp only [holds, reduceCtorEq] at h
  | some j =>
    cases j with
    | int n =>
      simp only [holds] at h
      by_cases hn : n = 0
      · simp only [hn, if_true, reduceCtorEq] at h
      · rw [if_neg hn] at h
        exact ofInt_error (map_error h)
    | null | bool _ | float _ | string _ | array _ | object _ =>
      simp only [holds, reduceCtorEq] at h

/-- What two numbers are compared for is at fault only when one of them is too large. -/
theorem numbers_error {v w : Operand} {f : Double → Double → Bool} {e : Fault}
    (h : (do let x ← toNumber v; let y ← toNumber w; return f x y) = Except.error e) :
    e = .tooLarge := by
  rcases cases_of_bind_eq_error h with hv | ⟨x, -, h⟩
  · exact toNumber_error hv
  · rcases cases_of_bind_eq_error h with hw | ⟨y, -, h⟩
    · exact toNumber_error hw
    · cases h

theorem strictEqual_error {v w : Operand} {e : Fault} (h : strictEqual v w = .error e) :
    e = .tooLarge := by
  unfold strictEqual at h
  split at h <;> try exact absurd h (by simp only [reduceCtorEq, not_false_eq_true])
  split at h
  · exact numbers_error h
  · simp only [reduceCtorEq] at h

theorem looseEqual_error {v w : Operand} {e : Fault} (h : looseEqual v w = .error e) :
    e = .tooLarge := by
  unfold looseEqual at h
  split at h
  · simp only [reduceCtorEq] at h
  · split at h <;> try exact absurd h (by simp only [reduceCtorEq, not_false_eq_true])
    split at h
    · split at h
      · simp only [reduceCtorEq] at h
      · exact numbers_error h
    · simp only [reduceCtorEq] at h

theorem compareBy_error {order : Order} {v w : Operand} {e : Fault}
    (h : compareBy order v w = .error e) : e = .tooLarge := by
  unfold compareBy at h
  split at h
  · simp only [reduceCtorEq] at h
  · exact numbers_error h

/-- A comparison is at fault only for an operand that does not fit. -/
theorem verdict_error {c : Comparison} {v w : Operand} {e : Fault}
    (h : c.verdict v w = .error e) : e = .tooLarge := by
  cases c with
  | identical => exact strictEqual_error h
  | different => exact strictEqual_error (map_error h)
  | equal => exact looseEqual_error h
  | unequal => exact looseEqual_error (map_error h)
  | ordered order => exact compareBy_error h

/-! ### What the readers take -/

/-- What a reader of a level makes of tokens: it takes the tokens of a tree off the front, with a
value that fits where all numbers among `all` do, or it meets a fault that a token of `all` is to
blame for. -/
inductive Outcome (context : Json) (all : List Token) (level : Level) (tokens : List Token) :
    Reading → Prop
  | value {v : Operand} {rest : List Token} (t : Tree level) (taken : tokens = t.tokens ++ rest)
      (fits : (∀ token ∈ all, token.Fits context) → Fits v) :
      Outcome context all level tokens (.ok (v, rest))
  | fault {e : Fault} (due : e.DueTo context all) : Outcome context all level tokens (.error e)

/-- A reader takes phrases of a level off any part of `all`, whether or not the value counts. -/
def Reader.Takes (context : Json) (all : List Token) (level : Level) (r : Reader) : Prop :=
  ∀ skip tokens, tokens ⊆ all → Outcome context all level tokens (r skip tokens)

section

variable {context : Json} {all tokens rest : List Token} {level : Level}

/-- An operand that does not fit comes from a token that does not. -/
theorem due_of_not_fits {v : Operand} (hv : (∀ token ∈ all, token.Fits context) → Fits v)
    (h : ¬ Fits v) : Fault.DueTo context all .tooLarge := by
  by_contra hnone
  refine h (hv fun token hmem => ?_)
  by_contra hlarge
  exact hnone ⟨token, hmem, hlarge⟩

/-- An operand that neither holds nor fails to hold does not fit, so a token is to blame. -/
theorem due_of_holds_error {v : Operand} {e : Fault}
    (hv : (∀ token ∈ all, token.Fits context) → Fits v) (h : holds v = .error e) :
    e.DueTo context all := by
  obtain rfl := holds_error h
  refine due_of_not_fits hv fun hfits => ?_
  obtain ⟨b, hb⟩ := hfits.holds
  simp [hb] at h

/-- What is made of operands fits, and the only fault is an operand that does not fit. -/
theorem Outcome.map {α : Type} {r : Except Fault α} {f : α → Operand} (t : Tree level)
    (taken : tokens = t.tokens ++ rest) (fits : ∀ a, Fits (f a))
    (due : ∀ e, r = .error e → e.DueTo context all) :
    Outcome context all level tokens (r.map fun a => (f a, rest)) := by
  cases r with
  | ok a => exact .value t taken fun _ => fits a
  | error e => exact .fault (due e rfl)

/-- A phrase of one level is one of another when its trees are. -/
theorem Outcome.embed {level' : Level} {r : Reading} (h : Outcome context all level tokens r)
    (f : Tree level → Tree level') (hf : ∀ t, (f t).tokens = t.tokens) :
    Outcome context all level' tokens r := by
  cases h with
  | value t taken fits => exact .value (f t) (by rw [taken, hf]) fits
  | fault due => exact .fault due

/-- The tokens behind a phrase are among those that it stands before. -/
theorem subset_of_taken {t : Tree level} (taken : tokens = t.tokens ++ rest)
    (h : tokens ⊆ all) : rest ⊆ all :=
  fun _ hmem => h (taken ▸ List.mem_append_right _ hmem)

theorem takes_primary (hwhole : ∀ token ∈ all, token.Whole) {nested : Reader}
    (hnested : nested.Takes context all .disjunction) :
    Reader.Takes context all .primary (primary nested context) := by
  intro skip tokens hsub
  match tokens with
  | [] => exact .fault trivial
  | ⟨.number, word⟩ :: rest =>
    have hmem : (⟨.number, word⟩ : Token) ∈ all := hsub List.mem_cons_self
    rcases numberValue_cases (hwhole _ hmem) with hvalue | ⟨fault, hvalue⟩
    · simp only [primary, hvalue, Except.map]
      exact .value (.number word) rfl fun hfits => hfits _ hmem
    · simp only [primary, hvalue, Except.map]
      exact .fault ⟨_, hmem, hvalue⟩
  | ⟨.text, word⟩ :: rest => exact .value (.text word) rfl fun _ => fits_string _
  | ⟨.path, word⟩ :: rest =>
    have hmem : (⟨.path, word⟩ : Token) ∈ all := hsub List.mem_cons_self
    simp only [primary, pathValue]
    cases hconstant : constant? word with
    | some v => exact .value (.name word) rfl fun _ => fits_constant hconstant
    | none =>
      cases hvalue : Operand.resolve context word with
      | error fault => exact .fault ⟨_, hmem, hconstant, hvalue⟩
      | ok v =>
        cases v with
        | some v =>
          exact .value (.name word) rfl fun hfits =>
            hfits _ hmem hconstant _ (by simp [hvalue, Except.toOption])
        | none =>
          cases skip with
          | true => exact .value (.name word) rfl fun _ => fits_none
          | false => exact .fault trivial
  | ⟨.operator, text⟩ :: rest =>
    by_cases htext : text = "("
    · subst htext
      have hinner := hnested skip rest (List.cons_subset.mp hsub).2
      simp only [primary, beq_self_eq_true, if_true]
      generalize nested skip rest = r at hinner
      cases hinner with
      | fault due => exact .fault due
      | value t taken fits =>
        split
        next h => cases h
        next h =>
          obtain ⟨rfl, rfl⟩ := Prod.mk.inj (Except.ok.inj h)
          exact .value (.group t) (by simp [Tree.tokens, taken]) fits
        next => exact .fault trivial
    · have htext : (text == "(") = false := by simpa using htext
      simp only [primary, htext]
      exact .fault trivial

theorem takes_signed (hwhole : ∀ token ∈ all, token.Whole) {nested : Reader}
    (hnested : nested.Takes context all .disjunction) :
    Reader.Takes context all .signed (signed nested context) := by
  intro skip tokens hsub
  induction tokens with
  | nil => exact (takes_primary hwhole hnested skip [] hsub).embed .ofPrimary fun _ => rfl
  | cons token tokens ih =>
    by_cases hsign : ∃ negative : Bool, token = operator (if negative then "-" else "+")
    · obtain ⟨negative, rfl⟩ := hsign
      have hoperand := ih (List.cons_subset.mp hsub).2
      rw [signed_sign]
      generalize signed nested context skip tokens = r at hoperand
      cases hoperand with
      | fault due => exact .fault due
      | value t taken fits =>
        refine .map (.sign negative t) (by simp [Tree.tokens, taken]) (fun _ => fits_float _) ?_
        intro e he
        obtain rfl := toNumber_error he
        refine due_of_not_fits fits ?_
        rintro ⟨d, hd⟩
        simp [hd] at he
    · rw [signed_of_ne fun negative rest h => hsign ⟨negative, (List.cons.inj h).1⟩]
      exact (takes_primary hwhole hnested skip _ hsub).embed .ofPrimary fun _ => rfl

theorem comparison?_eq_some {text : String} {f : Operand → Operand → Except Fault Bool}
    (h : comparison? text = some f) : ∃ c : Comparison, text = c.symbol ∧ f = c.verdict := by
  unfold comparison? at h
  split at h
  · exact ⟨.identical, rfl, (Option.some.inj h).symm⟩
  · exact ⟨.different, rfl, (Option.some.inj h).symm⟩
  · exact ⟨.equal, rfl, (Option.some.inj h).symm⟩
  · exact ⟨.unequal, rfl, (Option.some.inj h).symm⟩
  · exact ⟨.ordered .less, rfl, (Option.some.inj h).symm⟩
  · exact ⟨.ordered .lessOrEqual, rfl, (Option.some.inj h).symm⟩
  · exact ⟨.ordered .greater, rfl, (Option.some.inj h).symm⟩
  · exact ⟨.ordered .greaterOrEqual, rfl, (Option.some.inj h).symm⟩
  · cases h

/-- A comparison that stands in front is written there. -/
theorem comparisonAhead?_eq_some {f : Operand → Operand → Except Fault Bool}
    (h : comparisonAhead? tokens = some (f, rest)) :
    ∃ c : Comparison, f = c.verdict ∧ tokens = operator c.symbol :: rest := by
  match tokens with
  | ⟨.operator, text⟩ :: tokens =>
    have h : (comparison? text).map (·, tokens) = some (f, rest) := h
    obtain ⟨g, hg, heq⟩ := Option.map_eq_some_iff.mp h
    obtain ⟨rfl, rfl⟩ := Prod.mk.inj heq
    obtain ⟨c, rfl, rfl⟩ := comparison?_eq_some hg
    exact ⟨c, rfl, rfl⟩

theorem takes_comparison (hwhole : ∀ token ∈ all, token.Whole) {nested : Reader}
    (hnested : nested.Takes context all .disjunction) :
    Reader.Takes context all .comparison (comparison nested context) := by
  intro skip tokens hsub
  have hsigned := takes_signed hwhole hnested
  have hleft := hsigned skip tokens hsub
  unfold comparison
  generalize signed nested context skip tokens = r at hleft
  cases hleft with
  | fault due => exact .fault due
  | @value v rest left taken fits =>
    have hrest := subset_of_taken taken hsub
    cases hahead : comparisonAhead? rest with
    | none =>
      simp only [hahead]
      exact .value (.ofSigned left) taken fits
    | some next =>
      obtain ⟨f, rest'⟩ := next
      obtain ⟨c, rfl, rfl⟩ := comparisonAhead?_eq_some hahead
      have hright := hsigned skip rest' (List.cons_subset.mp hrest).2
      simp only [hahead]
      generalize signed nested context skip rest' = r at hright
      cases hright with
      | fault due => exact .fault due
      | @value w rest'' right taken' fits' =>
        refine .map (.compare c left right) (by simp [Tree.tokens, taken, taken'])
          (fun _ => fits_bool _) ?_
        intro e he
        obtain rfl := verdict_error he
        by_cases hv : Fits v
        · refine due_of_not_fits fits' fun hw => ?_
          obtain ⟨b, hb⟩ := hv.verdict hw c
          simp [hb] at he
        · exact due_of_not_fits fits hv

theorem takes_negation (hwhole : ∀ token ∈ all, token.Whole) {nested : Reader}
    (hnested : nested.Takes context all .disjunction) :
    Reader.Takes context all .negation (negation nested context) := by
  intro skip tokens hsub
  induction tokens with
  | nil => exact (takes_comparison hwhole hnested skip [] hsub).embed .ofComparison fun _ => rfl
  | cons token tokens ih =>
    by_cases hnot : token = operator "!"
    · subst hnot
      have hoperand := ih (List.cons_subset.mp hsub).2
      simp only [negation, beq_self_eq_true, if_true]
      generalize negation nested context skip tokens = r at hoperand
      cases hoperand with
      | fault due => exact .fault due
      | value t taken fits =>
        exact .map (.not t) (by simp [Tree.tokens, taken]) (fun _ => fits_bool _)
          fun e he => due_of_holds_error fits he
    · rw [negation_of_ne fun rest h => hnot (List.cons.inj h).1]
      exact (takes_comparison hwhole hnested skip _ hsub).embed .ofComparison fun _ => rfl

/-- An operator that stands in front is written there. -/
theorem operatorAhead?_eq_some {symbol : String} (h : operatorAhead? symbol tokens = some rest) :
    tokens = operator symbol :: rest := by
  match tokens with
  | ⟨.operator, text⟩ :: tokens =>
    simp only [operatorAhead?, Option.ite_none_right_eq_some, beq_iff_eq, Option.some.injEq] at h
    rw [h.1, h.2]

/-- A chain goes on with a row whose operands so far are `t`. -/
theorem takes_chain {inner outer : Level} {operand : Reader} {symbol : String} {onTruth : Bool}
    {join : Tree outer → Tree inner → Tree outer}
    (hjoin : ∀ t u, (join t u).tokens = t.tokens ++ operator symbol :: u.tokens)
    (hoperand : operand.Takes context all inner) {skip : Bool} {count : Nat} {left : Operand}
    (t : Tree outer) (hsub : rest ⊆ all) (taken : tokens = t.tokens ++ rest)
    (fits : (∀ token ∈ all, token.Fits context) → Fits left) :
    Outcome context all outer tokens (chain operand symbol onTruth skip count left rest) := by
  induction count generalizing left t rest with
  | zero => exact .value t taken fits
  | succ count ih =>
    rw [chain]
    cases hahead : operatorAhead? symbol rest with
    | none => exact .value t taken fits
    | some next =>
      obtain rfl := operatorAhead?_eq_some hahead
      have hnext : next ⊆ all := (List.cons_subset.mp hsub).2
      cases hholds : holds left with
      | error e => exact .fault (due_of_holds_error fits hholds)
      | ok b =>
        -- Whether the operand counts or not, it takes the same kind of phrase.
        have hright := fun skip' => hoperand skip' next hnext
        cases hb : b == onTruth with
        | true =>
          simp only [hb, if_true]
          specialize hright skip
          generalize operand skip next = r at hright
          cases hright with
          | fault due => exact .fault due
          | value u taken' fits' =>
            exact ih (join t u) (subset_of_taken taken' hnext) (by simp [hjoin, taken, taken'])
              fits'
        | false =>
          simp only [hb, Bool.false_eq_true, if_false]
          specialize hright true
          generalize operand true next = r at hright
          cases hright with
          | fault due => exact .fault due
          | value u taken' fits' =>
            exact ih (join t u) (subset_of_taken taken' hnext) (by simp [hjoin, taken, taken']) fits

theorem takes_joined {inner outer : Level} {operand : Reader} {symbol : String} {onTruth : Bool}
    (join : Tree outer → Tree inner → Tree outer) (embed : Tree inner → Tree outer)
    (hjoin : ∀ t u, (join t u).tokens = t.tokens ++ operator symbol :: u.tokens)
    (hembed : ∀ t, (embed t).tokens = t.tokens) (hoperand : operand.Takes context all inner) :
    Reader.Takes context all outer (joined operand symbol onTruth) := by
  intro skip tokens hsub
  have hfirst := hoperand skip tokens hsub
  unfold joined
  generalize operand skip tokens = r at hfirst
  cases hfirst with
  | fault due => exact .fault due
  | value t taken fits =>
    exact takes_chain hjoin hoperand (embed t) (subset_of_taken taken hsub)
      (by rw [hembed, taken]) fits

/-- However deep parentheses may nest, the reader of expressions takes expressions. -/
theorem takes_expressionAt (hwhole : ∀ token ∈ all, token.Whole) (depth : Nat) :
    Reader.Takes context all .disjunction (expressionAt context depth) := by
  induction depth with
  | zero => exact fun _ _ _ => .fault trivial
  | succ depth ih =>
    have hnegation := takes_negation hwhole ih
    have hconjunction : Reader.Takes context all .conjunction
        (conjunction (expressionAt context depth) context) :=
      takes_joined .and .ofNegation (fun _ _ => rfl) (fun _ => rfl) hnegation
    exact takes_joined .or .ofConjunction (fun _ _ => rfl) (fun _ => rfl) hconjunction

/-- Tokens have a value only as an expression, and a fault about a number comes from one of them. -/
theorem outcome_valueOfTokens (context : Json) (hwhole : ∀ token ∈ tokens, token.Whole) :
    (∃ v, valueOfTokens context tokens = .ok v ∧ (∃ t : Tree .disjunction, t.tokens = tokens) ∧
        ((∀ token ∈ tokens, token.Fits context) → Fits v)) ∨
      ∃ e, valueOfTokens context tokens = .error e ∧ e.DueTo context tokens := by
  unfold valueOfTokens
  split
  next => exact .inr ⟨.nothing, rfl, trivial⟩
  next =>
    have hread : Outcome context tokens .disjunction tokens
        (expressionAt context (tokens.length + 1) false tokens) :=
      takes_expressionAt hwhole _ false tokens fun _ h => h
    generalize expressionAt context (tokens.length + 1) false tokens = r at hread
    cases hread with
    | fault due => exact .inr ⟨_, rfl, due⟩
    | @value v rest t taken fits =>
      cases rest with
      | nil => exact .inl ⟨v, rfl, ⟨t, by simpa using taken.symm⟩, fits⟩
      | cons token rest => exact .inr ⟨_, rfl, trivial⟩

end

/-! ### Expressions are accepted -/

/-- The path of the token leads to a value. -/
def Token.Defined (context : Json) : Token → Prop
  | ⟨.path, word⟩ => constant? word = none → ∃ v, Operand.resolve context word = .ok (some v)
  | _ => True

instance (context : Json) : (token : Token) → Decidable (token.Defined context)
  | ⟨.path, word⟩ =>
    have h : (∃ v, Operand.resolve context word = .ok (some v)) ↔
        (Operand.resolve context word).toOption.join.isSome = true := by
      cases Operand.resolve context word with
      | error e => simp [Except.toOption]
      | ok v => cases v <;> simp [Except.toOption]
    have := decidable_of_iff _ h.symm
    inferInstanceAs (Decidable (_ → _))
  | ⟨.number, _⟩ | ⟨.text, _⟩ | ⟨.operator, _⟩ => inferInstanceAs (Decidable True)

/-- The tokens have values whatever is made of them: paths lead somewhere, and numbers fit. -/
def Settled (context : Json) (tokens : List Token) : Prop :=
  ∀ token ∈ tokens, token.Defined context ∧ token.Fits context

instance (context : Json) (tokens : List Token) : Decidable (Settled context tokens) :=
  inferInstanceAs (Decidable (∀ token ∈ tokens, _ ∧ _))

/-- A tree only needs paths that its tokens name. -/
theorem Tree.mem_of_needed {context : Json} {level : Level} {t : Tree level} {path : String}
    (h : path ∈ t.needed context) : ⟨.path, path⟩ ∈ t.tokens ∧ constant? path = none := by
  induction t with
  | or left right ihleft ihright | and left right ihleft ihright =>
    rw [needed, List.mem_append] at h
    rcases h with h | h
    · exact (ihleft h).imp_left fun h => by simp [tokens, h]
    · split at h
      · exact (ihright h).imp_left fun h => by simp [tokens, h]
      · simp at h
  | compare c left right ihleft ihright =>
    rw [needed, List.mem_append] at h
    rcases h with h | h
    · exact (ihleft h).imp_left fun h => by simp [tokens, h]
    · exact (ihright h).imp_left fun h => by simp [tokens, h]
  | not operand ih | sign _ operand ih | group inner ih =>
    exact (ih h).imp_left fun h => by simp [tokens, h]
  | ofConjunction operand ih | ofNegation operand ih | ofComparison operand ih
  | ofSigned operand ih | ofPrimary operand ih => exact ih h
  | number word | text word => simp [needed] at h
  | name word =>
    rw [needed] at h
    split at h
    next hconstant =>
      obtain rfl := List.mem_singleton.mp h
      exact ⟨by simp [tokens], by simpa using hconstant⟩
    next => simp at h

theorem Token.usable_of_settled {context : Json} {token : Token} (hwhole : token.Whole)
    (hshort : token.kind = .number → token.Short) (hdefined : token.Defined context)
    (hfits : token.Fits context) : token.Usable context := by
  match token with
  | ⟨.number, word⟩ => exact ⟨numberValue_of_whole hwhole (hshort rfl), hfits⟩
  | ⟨.path, word⟩ =>
    intro hconstant
    obtain ⟨v, hv⟩ := hdefined hconstant
    exact ⟨some v, hv, hfits hconstant _ (by rw [hv]; rfl)⟩
  | ⟨.text, word⟩ | ⟨.operator, word⟩ => trivial

/-- A token with a value is not refused. -/
theorem Token.Usable.not_refused {context : Json} {token : Token} (h : token.Usable context)
    (fault : NumberFault) : ¬ token.Refused context fault := by
  match token with
  | ⟨.number, word⟩ =>
    intro (hrefused : numberValue word = _)
    rw [h.1] at hrefused
    cases hrefused
  | ⟨.path, word⟩ =>
    rintro ⟨hconstant, hrefused⟩
    obtain ⟨v, hv, -⟩ := h hconstant
    rw [hv] at hrefused
    cases hrefused
  | ⟨.text, word⟩ | ⟨.operator, word⟩ => exact id

/-- An expression whose paths all lead somewhere has a value. -/
theorem Tree.value_of_defined {context : Json} {t : Tree .disjunction}
    (husable : ∀ token ∈ t.tokens, token.Usable context)
    (hdefined : ∀ token ∈ t.tokens, token.Defined context) :
    ∃ v, valueOfTokens context t.tokens = .ok v := by
  have hsound := t.sound husable
  rw [valueOfTokens_tokens, hsound.counted]
  rcases hsound.cases with ⟨v, hv, -, -⟩ | ⟨path, -, hpath⟩
  · exact ⟨v, hv⟩
  · obtain ⟨htoken, hconstant⟩ := mem_of_needed (List.mem_of_find?_eq_some hpath)
    obtain ⟨v, hv⟩ := hdefined _ htoken hconstant
    have hundefined := List.find?_some hpath
    simp [isUndefined, hv] at hundefined

/-- Whole tokens with values are taken just when the grammar derives them, and are otherwise
faulted as an expression. -/
theorem value_iff_derivable {context : Json} {tokens : List Token}
    (hwhole : ∀ token ∈ tokens, token.Whole)
    (hshort : ∀ token ∈ tokens, token.kind = .number → token.Short)
    (hsettled : Settled context tokens) :
    ((∃ v, valueOfTokens context tokens = .ok v) ↔ Derivable tokens) ∧
      (¬ Derivable tokens → ∃ fault, valueOfTokens context tokens = .error fault ∧
        fault.isExpressionFault = true) := by
  have husable : ∀ token ∈ tokens, token.Usable context := fun token h =>
    Token.usable_of_settled (hwhole token h) (hshort token h) (hsettled token h).1
      (hsettled token h).2
  have hcomplete : Derivable tokens → ∃ v, valueOfTokens context tokens = .ok v := by
    rintro ⟨⟨t, rfl⟩, -⟩
    exact Tree.value_of_defined husable fun token h => (hsettled token h).1
  rcases outcome_valueOfTokens context hwhole with ⟨v, hv, htree, -⟩ | ⟨e, he, hdue⟩
  · exact ⟨⟨fun _ => ⟨htree, hwhole⟩, hcomplete⟩, fun h => absurd ⟨htree, hwhole⟩ h⟩
  · refine ⟨⟨fun ⟨v, hv⟩ => ?_, hcomplete⟩, fun _ => ⟨e, he, ?_⟩⟩
    · rw [he] at hv
      cases hv
    · exact hdue.isExpressionFault (fun token h => (hsettled token h).2) fun token h fault =>
        (husable token h).not_refused fault

/-- The kind of a failure that is about the expression itself. -/
theorem kind_of_isExpressionFault {fault : Fault} (h : fault.isExpressionFault = true) :
    (Failure.condition fault).kind = "ExpressionError" := by
  cases fault <;> first | rfl | cases h

/-- Tokens are accepted just when they are an expression, whatever the values are that their paths
lead to; all other tokens fail as an expression. Numbers are written with no more digits than are
read. -/
theorem accepts_iff_derivable {context : Json} {tokens : List Token}
    (hwhole : ∀ token ∈ tokens, token.Whole)
    (hshort : ∀ token ∈ tokens, token.kind = .number → token.Short)
    (hsettled : Settled context tokens) :
    ((∃ v, valueOfTokens context tokens = .ok v) ↔ Derivable tokens) ∧
      (¬ Derivable tokens → ∃ fault, valueOfTokens context tokens = .error fault ∧
        (Failure.condition fault).kind = "ExpressionError") ∧
      ∀ other, Settled other tokens →
        ((∃ v, valueOfTokens other tokens = .ok v) ↔
          ∃ v, valueOfTokens context tokens = .ok v) := by
  obtain ⟨haccepts, hfaults⟩ := value_iff_derivable hwhole hshort hsettled
  refine ⟨haccepts, fun h => ?_, fun other hother => ?_⟩
  · obtain ⟨fault, hfault, hkind⟩ := hfaults h
    exact ⟨fault, hfault, kind_of_isExpressionFault hkind⟩
  · exact (value_iff_derivable hwhole hshort hother).1.trans haccepts.symm

/-- The expression `flag || (count > 2.5 && -low)` is accepted where the flag holds, and also where
it does not and the second operand counts. -/
theorem accepts_flagOrLow :
    let tokens := [⟨.path, "flag"⟩, operator "||", operator "(", ⟨.path, "count"⟩, operator ">",
      ⟨.number, "2.5"⟩, operator "&&", operator "-", ⟨.path, "low"⟩, operator ")"]
    (∃ v, valueOfTokens (.object [("flag", .bool true), ("count", .int 7), ("low", .int 1)])
      tokens = .ok v) ∧
    ∃ v, valueOfTokens (.object [("flag", .bool false), ("count", .int 7), ("low", .int 1)])
      tokens = .ok v := by
  let inner : Tree .conjunction := .and
    (.ofNegation (.ofComparison (.compare (.ordered .greater) (.ofPrimary (.name "count"))
      (.ofPrimary (.number "2.5")))))
    (.ofComparison (.ofSigned (.sign true (.ofPrimary (.name "low")))))
  let t : Tree .disjunction := .or
    (.ofConjunction (.ofNegation (.ofComparison (.ofSigned (.ofPrimary (.name "flag"))))))
    (.ofNegation (.ofComparison (.ofSigned (.ofPrimary (.group (.ofConjunction inner))))))
  have hwhole : ∀ token ∈ t.tokens, token.Whole := by decide +kernel
  obtain ⟨haccepts, -, hother⟩ := accepts_iff_derivable hwhole (by decide +kernel)
    (by decide +kernel : Settled
      (.object [("flag", .bool true), ("count", .int 7), ("low", .int 1)]) t.tokens)
  have hflag := haccepts.mpr ⟨⟨t, rfl⟩, hwhole⟩
  exact ⟨hflag, (hother _ (by decide +kernel)).mpr hflag⟩

/-- Digits that are too many are refused before the tokens behind them are looked at. What is no
expression then fails as a number. -/
theorem valueOfTokens_zeros_append {count : Nat} (h : maxDigits < count) (context : Json)
    (rest : List Token) : valueOfTokens context (⟨.number, zeros count⟩ :: rest) =
      .error (.number (.tooLong count)) := by
  have hrefused : numberValue (zeros count) = .error (.number (.tooLong count)) :=
    (valueOfTokens_tokens (.object []) (.ofPrimaryOnly (.number (zeros count)))).symm.trans
      (refused_zeros h).2.2.2
  simp [valueOfTokens, expressionAt, disjunction, conjunction, joined, negation, comparison,
    signed, primary, hrefused, Except.map]

end Condition

end LeadDesk
