import LeadDesk.Proofs.Grammar
/-!
# Reading a tree

What the reader of tokens makes of a derivation tree (`Tree.reading`), faults and operands
that do not count included: the reader stops just behind the tokens of the tree, and what
it gives depends on the tree alone. The induction is on the operands of a row, since the
reader takes them from the left in a chain while the tree holds the last one on top.
-/

namespace LeadDesk

namespace Condition

/-- The reader of the phrases of a level. -/
def readerOf (nested : Reader) (context : Json) : Level → Reader
  | .disjunction => disjunction nested context
  | .conjunction => conjunction nested context
  | .negation => negation nested context
  | .comparison => comparison nested context
  | .signed => signed nested context
  | .primary => primary nested context

/-- Go on from a value to the next operand of a row, which counts when the value holds or not as
`onTruth` says. -/
def joinNext (onTruth : Bool) (operand : Bool → Except Fault Operand) (skip : Bool)
    (left : Operand) : Except Fault Operand := do
  if (← holds left) == onTruth then operand skip
  else
    let _ ← operand true
    return left

namespace Tree

variable {level : Level}

/-- What the reader makes of a tree. Operands that do not count are read too. -/
def reading (context : Json) : {level : Level} → Tree level → Bool → Except Fault Operand
  | _, or left right, skip => do
    joinNext false (right.reading context) skip (← left.reading context skip)
  | _, and left right, skip => do
    joinNext true (right.reading context) skip (← left.reading context skip)
  | _, not operand, skip => do
    let b ← holds (← operand.reading context skip)
    return some (.bool !b)
  | _, compare comparison left right, skip => do
    let x ← left.reading context skip
    let y ← right.reading context skip
    return some (.bool (← comparison.verdict x y))
  | _, sign negative operand, skip => do
    let d ← toNumber (← operand.reading context skip)
    return some (.float (if negative then d.neg else d))
  | _, ofConjunction operand, skip | _, ofNegation operand, skip | _, ofComparison operand, skip
  | _, ofSigned operand, skip | _, ofPrimary operand, skip => operand.reading context skip
  | _, number word, _ => numberValue word
  | _, text word, _ => .ok (some (.string (String.ofList (word.toList.drop 1).dropLast)))
  | _, name word, skip => pathValue context skip word
  | _, group inner, skip => inner.reading context skip

theorem reading_foldl_or (context : Json) (skip : Bool) (first : Tree .disjunction)
    (later : List (Tree .conjunction)) :
    (later.foldl or first).reading context skip = first.reading context skip >>=
      later.foldlM fun v t => joinNext false (t.reading context) skip v := by
  induction later generalizing first with
  | nil => simp
  | cons t later ih => simp [ih, reading]

theorem reading_foldl_and (context : Json) (skip : Bool) (first : Tree .conjunction)
    (later : List (Tree .negation)) :
    (later.foldl and first).reading context skip = first.reading context skip >>=
      later.foldlM fun v t => joinNext true (t.reading context) skip v := by
  induction later generalizing first with
  | nil => simp
  | cons t later ih => simp [ih, reading]

theorem depth_foldl_or (first : Tree .disjunction) (later : List (Tree .conjunction)) :
    first.depth ≤ (later.foldl or first).depth ∧
      ∀ t ∈ later, t.depth ≤ (later.foldl or first).depth := by
  induction later generalizing first with
  | nil => simp
  | cons t later ih =>
    obtain ⟨hfirst, hlater⟩ := ih (or first t)
    simp only [depth] at hfirst
    refine ⟨by simp only [List.foldl_cons]; omega, fun t' h => ?_⟩
    rcases List.mem_cons.mp h with rfl | h
    · simp only [List.foldl_cons]; omega
    · exact hlater t' h

theorem depth_foldl_and (first : Tree .conjunction) (later : List (Tree .negation)) :
    first.depth ≤ (later.foldl and first).depth ∧
      ∀ t ∈ later, t.depth ≤ (later.foldl and first).depth := by
  induction later generalizing first with
  | nil => simp
  | cons t later ih =>
    obtain ⟨hfirst, hlater⟩ := ih (and first t)
    simp only [depth] at hfirst
    refine ⟨by simp only [List.foldl_cons]; omega, fun t' h => ?_⟩
    rcases List.mem_cons.mp h with rfl | h
    · simp only [List.foldl_cons]; omega
    · exact hlater t' h

/-- The reader reads just the tokens of the tree, whatever follows that does not go on with it. -/
def Reads (context : Json) (t : Tree level) : Prop :=
  ∀ (bound : Nat) (skip : Bool) (rest : List Token), t.depth ≤ bound → level.stops rest →
    readerOf (expressionAt context bound) context level skip (t.tokens ++ rest) =
      (t.reading context skip).map (·, rest)

end Tree

/-- A chain reads the later operands of a row. -/
theorem chain_eq {context : Json} {operand : Reader} {symbol : String} {onTruth skip : Bool}
    {level : Level} {later : List (Tree level)} {rest : List Token}
    (hop : ∀ rest, level.stops (operator symbol :: rest)) (hrest : level.stops rest)
    (hend : operatorAhead? symbol rest = none)
    (hread : ∀ t ∈ later, ∀ skip rest, level.stops rest →
      operand skip (t.tokens ++ rest) = (t.reading context skip).map (·, rest))
    {count : Nat} (hcount : later.length ≤ count) (left : Operand) :
    chain operand symbol onTruth skip count left (Tree.laterTokens symbol later ++ rest) =
      (later.foldlM (fun v t => joinNext onTruth (t.reading context) skip v) left).map
        (·, rest) := by
  induction later generalizing count left with
  | nil => cases count <;> simp [chain, Tree.laterTokens, hend] <;> rfl
  | cons t later ih =>
    obtain ⟨count, rfl⟩ : ∃ n, count = n + 1 := ⟨count - 1, by simp at hcount; omega⟩
    have ih := fun v => ih (fun x hx => hread x (List.mem_cons_of_mem _ hx))
      (Nat.le_of_succ_le_succ hcount) v
    have ht := fun skip => hread t List.mem_cons_self skip _
      (Tree.stops_laterTokens hop later hrest)
    have htokens : Tree.laterTokens symbol (t :: later) ++ rest =
        operator symbol :: (t.tokens ++ (Tree.laterTokens symbol later ++ rest)) := by
      simp [Tree.laterTokens]
    have hahead : operatorAhead? symbol
        (operator symbol :: (t.tokens ++ (Tree.laterTokens symbol later ++ rest))) =
        some (t.tokens ++ (Tree.laterTokens symbol later ++ rest)) := by
      simp [operatorAhead?]
    rw [htokens, chain, hahead]
    simp only [List.foldlM_cons, joinNext]
    cases holds left with
    | error e => rfl
    | ok b =>
      cases hb : b == onTruth with
      | false =>
        simp only [ht, hb, bind, Except.bind, Bool.false_eq_true, if_false]
        cases t.reading context true with
        | error e => rfl
        | ok v => exact ih left
      | true =>
        simp only [ht, hb, bind, Except.bind, if_true]
        cases t.reading context skip with
        | error e => rfl
        | ok v => exact ih v

/-- A row is read as its first operand and the chain of the later ones. -/
theorem joined_eq (context : Json) {operand : Reader} {symbol : String} {onTruth skip : Bool}
    {level : Level} {first : Tree level} {later : List (Tree level)} {rest : List Token}
    (hop : ∀ rest, level.stops (operator symbol :: rest)) (hrest : level.stops rest)
    (hend : operatorAhead? symbol rest = none)
    (hread : ∀ t ∈ first :: later, ∀ skip rest, level.stops rest →
      operand skip (t.tokens ++ rest) = (t.reading context skip).map (·, rest)) :
    joined operand symbol onTruth skip
        (first.tokens ++ (Tree.laterTokens symbol later ++ rest)) =
      (first.reading context skip >>=
        later.foldlM fun v t => joinNext onTruth (t.reading context) skip v).map (·, rest) := by
  rw [joined, hread first List.mem_cons_self skip _ (Tree.stops_laterTokens hop later hrest)]
  cases first.reading context skip with
  | error e => rfl
  | ok v =>
    have hcount : later.length ≤ (Tree.laterTokens symbol later ++ rest).length := by
      have := Tree.length_le_laterTokens symbol later
      simp only [List.length_append]; omega
    exact chain_eq hop hrest hend (fun t h => hread t (List.mem_cons_of_mem _ h)) hcount v

/-- What starts with no negation is read as a comparison. -/
theorem negation_of_ne {nested : Reader} {context : Json} {skip : Bool} {tokens : List Token}
    (h : ∀ rest, tokens ≠ operator "!" :: rest) :
    negation nested context skip tokens = comparison nested context skip tokens := by
  match tokens with
  | [] | ⟨.number, _⟩ :: _ | ⟨.text, _⟩ :: _ | ⟨.path, _⟩ :: _ => rfl
  | ⟨.operator, text⟩ :: rest =>
    have : (text == "!") = false := by
      simp only [beq_eq_false_iff_ne]
      rintro rfl
      exact h rest rfl
    simp [negation, this]

/-- What starts with no sign is read as a primary. -/
theorem signed_of_ne {nested : Reader} {context : Json} {skip : Bool} {tokens : List Token}
    (h : ∀ (negative : Bool) rest, tokens ≠ operator (if negative then "-" else "+") :: rest) :
    signed nested context skip tokens = primary nested context skip tokens := by
  match tokens with
  | [] | ⟨.number, _⟩ :: _ | ⟨.text, _⟩ :: _ | ⟨.path, _⟩ :: _ => rfl
  | ⟨.operator, text⟩ :: rest =>
    have hminus : (text == "-") = false := by
      simp only [beq_eq_false_iff_ne]
      rintro rfl
      exact h true rest rfl
    have hplus : (text == "+") = false := by
      simp only [beq_eq_false_iff_ne]
      rintro rfl
      exact h false rest rfl
    simp [signed, hminus, hplus]

/-- A sign makes a number of what it stands before. -/
theorem signed_sign (nested : Reader) (context : Json) (skip negative : Bool)
    (tokens : List Token) :
    signed nested context skip (operator (if negative then "-" else "+") :: tokens) =
      match signed nested context skip tokens with
      | .error e => .error e
      | .ok (v, rest) =>
        (toNumber v).map fun d => (some (.float (if negative then d.neg else d)), rest) := by
  cases negative <;> rfl

namespace Tree

variable {level : Level}

theorem reads (context : Json) (t : Tree level) : t.Reads context := by
  induction t using inductionOnOperands with
  | disjoin first later hfirst hlater =>
    rintro bound skip rest hdepth ⟨hcomparison, hand, hor⟩
    obtain ⟨hdfirst, hdlater⟩ := depth_foldl_or (ofConjunction first) later
    rw [tokens_disjoin, List.append_assoc]
    refine (joined_eq context Level.conjunction_stops_or ⟨hcomparison, hand⟩ hor ?_).trans ?_
    · intro t ht skip rest hrest
      rcases List.mem_cons.mp ht with rfl | ht
      · exact hfirst bound skip rest (Nat.le_trans hdfirst hdepth) hrest
      · exact hlater t ht bound skip rest (Nat.le_trans (hdlater t ht) hdepth) hrest
    · rw [disjoin, reading_foldl_or, reading]
  | conjoin first later hfirst hlater =>
    rintro bound skip rest hdepth ⟨hcomparison, hand⟩
    obtain ⟨hdfirst, hdlater⟩ := depth_foldl_and (ofNegation first) later
    rw [tokens_conjoin, List.append_assoc]
    refine (joined_eq context Level.negation_stops_and hcomparison hand ?_).trans ?_
    · intro t ht skip rest hrest
      rcases List.mem_cons.mp ht with rfl | ht
      · exact hfirst bound skip rest (Nat.le_trans hdfirst hdepth) hrest
      · exact hlater t ht bound skip rest (Nat.le_trans (hdlater t ht) hdepth) hrest
    · rw [conjoin, reading_foldl_and, reading]
  | not operand ih =>
    intro bound skip rest hdepth hrest
    have ih : negation _ context skip _ = _ := ih bound skip rest hdepth hrest
    simp only [readerOf, tokens, List.cons_append, negation, ih, reading]
    cases operand.reading context skip with
    | error e => rfl
    | ok v =>
      simp only [Except.map, bind, Except.bind, pure, Except.pure]
      cases holds v <;> rfl
  | ofComparison operand ih =>
    intro bound skip rest hdepth hrest
    exact (negation_of_ne fun rest' => comparison_ne_not operand rest rest').trans
      (ih bound skip rest hdepth hrest)
  | compare c left right hleft hright =>
    intro bound skip rest hdepth hrest
    simp only [depth] at hdepth
    have hleft : signed _ context skip _ = _ :=
      hleft bound skip (operator c.symbol :: (right.tokens ++ rest)) (by omega) trivial
    have hright : signed _ context skip _ = _ := hright bound skip rest (by omega) trivial
    simp only [readerOf, tokens, List.append_assoc, List.cons_append, comparison, hleft, reading]
    cases left.reading context skip with
    | error e => rfl
    | ok x =>
      simp only [Except.map, comparisonAhead?_symbol, hright]
      cases right.reading context skip with
      | error e => rfl
      | ok y =>
        simp only [bind, Except.bind, pure, Except.pure]
        cases c.verdict x y <;> rfl
  | ofSigned operand ih =>
    intro bound skip rest hdepth hrest
    have ih : signed _ context skip _ = _ := ih bound skip rest hdepth trivial
    have hrest : comparisonAhead? rest = none := hrest
    simp only [readerOf, tokens, comparison, ih, reading]
    cases operand.reading context skip with
    | error e => rfl
    | ok v => simp [Except.map, hrest]
  | sign negative operand ih =>
    intro bound skip rest hdepth hrest
    have ih : signed _ context skip _ = _ := ih bound skip rest hdepth trivial
    simp only [readerOf, tokens, List.cons_append, signed_sign, ih, reading]
    cases operand.reading context skip with
    | error e => rfl
    | ok v =>
      simp only [Except.map, bind, Except.bind, pure, Except.pure]
      cases toNumber v <;> rfl
  | ofPrimary operand ih =>
    intro bound skip rest hdepth hrest
    exact (signed_of_ne fun negative rest' => primary_ne_sign operand negative rest rest').trans
      (ih bound skip rest hdepth hrest)
  | number word | text word | name word =>
    intro bound skip rest hdepth hrest
    rfl
  | group inner ih =>
    intro bound skip rest hdepth hrest
    simp only [depth] at hdepth
    obtain ⟨bound, rfl⟩ : ∃ n, bound = n + 1 := ⟨bound - 1, by omega⟩
    have ih : expressionAt context (bound + 1) skip _ = _ :=
      ih bound skip (operator ")" :: rest) (by omega) (Level.stops_close _ _)
    simp only [readerOf, tokens, List.cons_append, List.append_assoc, List.nil_append, primary,
      beq_self_eq_true, if_true, ih, reading]
    cases inner.reading context skip with
    | error e => rfl
    | ok v => rfl

end Tree

/-- The tokens of a tree have just the value that the reader makes of the tree. -/
theorem valueOfTokens_tokens (context : Json) (t : Tree .disjunction) :
    valueOfTokens context t.tokens = t.reading context false := by
  have h : expressionAt context (t.tokens.length + 1) false (t.tokens ++ []) = _ :=
    t.reads context t.tokens.length false [] t.depth_le_length (Level.stops_nil _)
  rw [List.append_nil] at h
  obtain ⟨token, rest, htokens⟩ := List.exists_cons_of_ne_nil t.tokens_ne_nil
  rw [valueOfTokens, h]
  · cases t.reading context false <;> rfl
  · exact t.tokens_ne_nil

end Condition

end LeadDesk
