import LeadDesk.Condition.Expression
/-!
# The grammar of expressions

The derivation trees of the grammar that expressions are written in, and the fact that
it is unambiguous: no two trees derive the same tokens.

A tree is indexed by the kind of phrase that it derives (`Level`), so that precedence
is in its type: an operand of `&&` is a negation and never a disjunction, unless
parentheses stand around it. Both joining operators associate to the left, so trees
recurse on their left operand, while tokens are read from the left. A phrase that
`||` or `&&` joins is therefore taken apart into its first operand and the list of
the later ones (`Tree.inductionOnOperands`).
-/

namespace LeadDesk

namespace Condition

/-- The kinds of phrases, from the loosest binding to the tightest. -/
inductive Level where
  | disjunction
  | conjunction
  | negation
  | comparison
  | signed
  | primary

/-- The comparisons. -/
inductive Comparison where
  | identical
  | different
  | equal
  | unequal
  | ordered (order : Order)

/-- How a comparison is written. -/
def Comparison.symbol : Comparison → String
  | identical => "==="
  | different => "!=="
  | equal => "=="
  | unequal => "!="
  | ordered .less => "<"
  | ordered .lessOrEqual => "<="
  | ordered .greater => ">"
  | ordered .greaterOrEqual => ">="

/-- What a comparison says of two operands. -/
def Comparison.verdict : Comparison → Operand → Operand → Except Fault Bool
  | identical => strictEqual
  | different => fun a b => (strictEqual a b).map (!·)
  | equal => looseEqual
  | unequal => fun a b => (looseEqual a b).map (!·)
  | ordered order => compareBy order

/-- A derivation of a phrase. The words at the leaves are kept as they are written; a name is a
path or one of the constants. -/
inductive Tree : Level → Type where
  | or (left : Tree .disjunction) (right : Tree .conjunction) : Tree .disjunction
  | ofConjunction (operand : Tree .conjunction) : Tree .disjunction
  | and (left : Tree .conjunction) (right : Tree .negation) : Tree .conjunction
  | ofNegation (operand : Tree .negation) : Tree .conjunction
  | not (operand : Tree .negation) : Tree .negation
  | ofComparison (operand : Tree .comparison) : Tree .negation
  | compare (operator : Comparison) (left right : Tree .signed) : Tree .comparison
  | ofSigned (operand : Tree .signed) : Tree .comparison
  | sign (negative : Bool) (operand : Tree .signed) : Tree .signed
  | ofPrimary (operand : Tree .primary) : Tree .signed
  | number (word : String) : Tree .primary
  | text (word : String) : Tree .primary
  | name (word : String) : Tree .primary
  | group (inner : Tree .disjunction) : Tree .primary

/-- The token of an operator. -/
abbrev operator (symbol : String) : Token := ⟨.operator, symbol⟩

namespace Tree

variable {level : Level}

/-- The tokens that a tree derives. -/
def tokens : {level : Level} → Tree level → List Token
  | _, or left right => left.tokens ++ operator "||" :: right.tokens
  | _, ofConjunction operand => operand.tokens
  | _, and left right => left.tokens ++ operator "&&" :: right.tokens
  | _, ofNegation operand => operand.tokens
  | _, not operand => operator "!" :: operand.tokens
  | _, ofComparison operand => operand.tokens
  | _, compare comparison left right => left.tokens ++ operator comparison.symbol :: right.tokens
  | _, ofSigned operand => operand.tokens
  | _, sign negative operand => operator (if negative then "-" else "+") :: operand.tokens
  | _, ofPrimary operand => operand.tokens
  | _, number word => [⟨.number, word⟩]
  | _, text word => [⟨.text, word⟩]
  | _, name word => [⟨.path, word⟩]
  | _, group inner => operator "(" :: inner.tokens ++ [operator ")"]

/-- How deep parentheses nest. -/
def depth : {level : Level} → Tree level → Nat
  | _, or left right => max left.depth right.depth
  | _, and left right => max left.depth right.depth
  | _, compare _ left right => max left.depth right.depth
  | _, ofConjunction operand | _, ofNegation operand | _, not operand
  | _, ofComparison operand | _, ofSigned operand | _, sign _ operand
  | _, ofPrimary operand => operand.depth
  | _, number _ | _, text _ | _, name _ => 0
  | _, group inner => inner.depth + 1

theorem tokens_ne_nil (t : Tree level) : t.tokens ≠ [] := by
  induction t <;> simp_all [tokens]

/-- No tokens nest deeper than they are long. -/
theorem depth_le_length (t : Tree level) : t.depth ≤ t.tokens.length := by
  induction t <;> simp only [depth, tokens, List.length_append, List.length_cons,
    List.length_nil] <;> omega

/-! ### Operands in a row -/

/-- A disjunction of a first operand and later ones. -/
def disjoin (first : Tree .conjunction) (later : List (Tree .conjunction)) : Tree .disjunction :=
  later.foldl or (ofConjunction first)

/-- A conjunction of a first operand and later ones. -/
def conjoin (first : Tree .negation) (later : List (Tree .negation)) : Tree .conjunction :=
  later.foldl and (ofNegation first)

/-- The tokens of later operands, each behind its operator. -/
def laterTokens (symbol : String) (later : List (Tree level)) : List Token :=
  later.flatMap fun t => operator symbol :: t.tokens

theorem tokens_foldl_or (first : Tree .disjunction) (later : List (Tree .conjunction)) :
    (later.foldl or first).tokens = first.tokens ++ laterTokens "||" later := by
  induction later generalizing first with
  | nil => simp [laterTokens]
  | cons t later ih => simp [ih, tokens, laterTokens]

theorem tokens_foldl_and (first : Tree .conjunction) (later : List (Tree .negation)) :
    (later.foldl and first).tokens = first.tokens ++ laterTokens "&&" later := by
  induction later generalizing first with
  | nil => simp [laterTokens]
  | cons t later ih => simp [ih, tokens, laterTokens]

theorem tokens_disjoin (first : Tree .conjunction) (later : List (Tree .conjunction)) :
    (disjoin first later).tokens = first.tokens ++ laterTokens "||" later :=
  tokens_foldl_or _ later

theorem tokens_conjoin (first : Tree .negation) (later : List (Tree .negation)) :
    (conjoin first later).tokens = first.tokens ++ laterTokens "&&" later :=
  tokens_foldl_and _ later

/-- Later operands are fewer than the tokens from the first operator on. -/
theorem length_le_laterTokens (symbol : String) (later : List (Tree level)) :
    later.length ≤ (laterTokens symbol later).length := by
  induction later with
  | nil => simp
  | cons t later ih => simp only [laterTokens, List.flatMap_cons, List.length_append,
      List.length_cons] at ih ⊢; omega

/-- Every disjunction has a first operand and later ones, all of them smaller. -/
theorem exists_disjoin : (t : Tree .disjunction) → ∃ first later, t = disjoin first later ∧
    sizeOf first < sizeOf t ∧ ∀ operand ∈ later, sizeOf operand < sizeOf t
  | ofConjunction operand => ⟨operand, [], rfl, by simp, by simp⟩
  | or left right => by
    obtain ⟨first, later, rfl, hfirst, hlater⟩ := exists_disjoin left
    refine ⟨first, later ++ [right], by simp [disjoin], by simp; omega, fun operand h => ?_⟩
    rcases List.mem_append.mp h with h | h
    · have := hlater operand h
      simp only [or.sizeOf_spec]; omega
    · obtain rfl := List.mem_singleton.mp h
      simp only [or.sizeOf_spec]; omega

/-- Every conjunction has a first operand and later ones, all of them smaller. -/
theorem exists_conjoin : (t : Tree .conjunction) → ∃ first later, t = conjoin first later ∧
    sizeOf first < sizeOf t ∧ ∀ operand ∈ later, sizeOf operand < sizeOf t
  | ofNegation operand => ⟨operand, [], rfl, by simp, by simp⟩
  | and left right => by
    obtain ⟨first, later, rfl, hfirst, hlater⟩ := exists_conjoin left
    refine ⟨first, later ++ [right], by simp [conjoin], by simp; omega, fun operand h => ?_⟩
    rcases List.mem_append.mp h with h | h
    · have := hlater operand h
      simp only [and.sizeOf_spec]; omega
    · obtain rfl := List.mem_singleton.mp h
      simp only [and.sizeOf_spec]; omega

/-- Induction on a tree where operands in a row are met all at once. -/
theorem inductionOnOperands {P : {level : Level} → Tree level → Prop}
    (disjoin : ∀ first later, P first → (∀ t ∈ later, P t) → P (disjoin first later))
    (conjoin : ∀ first later, P first → (∀ t ∈ later, P t) → P (conjoin first later))
    (not : ∀ operand, P operand → P (not operand))
    (ofComparison : ∀ operand, P operand → P (ofComparison operand))
    (compare : ∀ operator left right, P left → P right → P (compare operator left right))
    (ofSigned : ∀ operand, P operand → P (ofSigned operand))
    (sign : ∀ negative operand, P operand → P (sign negative operand))
    (ofPrimary : ∀ operand, P operand → P (ofPrimary operand))
    (number : ∀ word, P (number word)) (text : ∀ word, P (text word))
    (name : ∀ word, P (name word)) (group : ∀ inner, P inner → P (group inner))
    {level : Level} (t : Tree level) : P t := by
  induction h : sizeOf t using Nat.strongRecOn generalizing level with
  | _ n ih =>
  subst h
  have below : ∀ {level' : Level} (t' : Tree level'), sizeOf t' < sizeOf t → P t' :=
    fun t' h => ih _ h t' rfl
  cases level with
  | disjunction =>
    obtain ⟨first, later, rfl, hfirst, hlater⟩ := exists_disjoin t
    exact disjoin first later (below _ hfirst) fun t' h => below t' (hlater t' h)
  | conjunction =>
    obtain ⟨first, later, rfl, hfirst, hlater⟩ := exists_conjoin t
    exact conjoin first later (below _ hfirst) fun t' h => below t' (hlater t' h)
  | negation =>
    cases t with
    | not operand => exact not operand (below _ (by simp))
    | ofComparison operand => exact ofComparison operand (below _ (by simp))
  | comparison =>
    cases t with
    | compare op left right =>
      exact compare op left right (below _ (by simp only [Tree.compare.sizeOf_spec]; omega))
        (below _ (by simp only [Tree.compare.sizeOf_spec]; omega))
    | ofSigned operand => exact ofSigned operand (below _ (by simp))
  | signed =>
    cases t with
    | sign negative operand => exact sign negative operand (below _ (by simp))
    | ofPrimary operand => exact ofPrimary operand (below _ (by simp))
  | primary =>
    cases t with
    | number word => exact number word
    | text word => exact text word
    | name word => exact name word
    | group inner => exact group inner (below _ (by simp))

end Tree

/-! ### No two trees derive the same tokens -/

theorem Comparison.symbol_injective {c c' : Comparison} (h : c.symbol = c'.symbol) : c = c' := by
  rcases c with _ | _ | _ | _ | _ | _ | _ | _ <;> rcases c' with _ | _ | _ | _ | _ | _ | _ | _ <;>
    simp_all [symbol]

/-- A comparison's symbol is read as that comparison. -/
@[simp] theorem comparison?_symbol (c : Comparison) : comparison? c.symbol = some c.verdict := by
  rcases c with _ | _ | _ | _ | _ | _ | _ | _ <;> rfl

/-- The tokens do not go on with a phrase of this level. -/
def Level.stops : Level → List Token → Prop
  | .disjunction, rest => comparisonAhead? rest = none ∧ operatorAhead? "&&" rest = none ∧
      operatorAhead? "||" rest = none
  | .conjunction, rest => comparisonAhead? rest = none ∧ operatorAhead? "&&" rest = none
  | .negation, rest | .comparison, rest => comparisonAhead? rest = none
  | .signed, _ | .primary, _ => True

theorem Level.stops_nil (level : Level) : level.stops [] := by
  cases level <;> simp [stops, comparisonAhead?, operatorAhead?]

theorem Level.stops_close (level : Level) (rest : List Token) :
    level.stops (operator ")" :: rest) := by
  cases level <;> simp [stops, comparisonAhead?, comparison?, operatorAhead?]

theorem Level.conjunction_stops_or (rest : List Token) :
    Level.conjunction.stops (operator "||" :: rest) := by
  simp [stops, comparisonAhead?, comparison?, operatorAhead?]

theorem Level.negation_stops_and (rest : List Token) :
    Level.negation.stops (operator "&&" :: rest) := by
  simp [stops, comparisonAhead?, comparison?]

theorem comparisonAhead?_symbol (c : Comparison) (rest : List Token) :
    comparisonAhead? (operator c.symbol :: rest) = some (c.verdict, rest) := by
  simp [comparisonAhead?]

namespace Tree

variable {level : Level}

/-- Where a tree's tokens stand before tokens that do not go on with it, no other tree and no
other end can be meant. -/
def Distinct (t : Tree level) : Prop :=
  ∀ (t' : Tree level) (rest rest' : List Token), level.stops rest → level.stops rest' →
    t.tokens ++ rest = t'.tokens ++ rest' → t = t' ∧ rest = rest'

/-- Behind an operand stands an operator or what follows the row. -/
theorem stops_laterTokens {symbol : String} (hop : ∀ rest, level.stops (operator symbol :: rest))
    (later : List (Tree level)) {rest : List Token} (hrest : level.stops rest) :
    level.stops (laterTokens symbol later ++ rest) := by
  cases later with
  | nil => exact hrest
  | cons t later => exact hop _

/-- Later operands are told from each other and from what follows them. -/
theorem later_unique {symbol : String} (hop : ∀ rest, level.stops (operator symbol :: rest))
    {rest rest' : List Token} (hrest : level.stops rest) (hrest' : level.stops rest')
    (hend : operatorAhead? symbol rest = none) (hend' : operatorAhead? symbol rest' = none)
    {later : List (Tree level)} (hlater : ∀ t ∈ later, t.Distinct) {later' : List (Tree level)}
    (h : laterTokens symbol later ++ rest = laterTokens symbol later' ++ rest') :
    later = later' ∧ rest = rest' := by
  induction later generalizing later' with
  | nil =>
    cases later' with
    | nil => exact ⟨rfl, h⟩
    | cons t' later' =>
      obtain rfl : rest = _ := h
      simp [laterTokens, operatorAhead?] at hend
  | cons t later ih =>
    cases later' with
    | nil =>
      obtain rfl : _ = rest' := h
      simp [laterTokens, operatorAhead?] at hend'
    | cons t' later' =>
      have h : t.tokens ++ (laterTokens symbol later ++ rest) =
          t'.tokens ++ (laterTokens symbol later' ++ rest') := by
        simpa [laterTokens] using h
      obtain ⟨rfl, hnext⟩ := hlater t List.mem_cons_self t' _ _
        (stops_laterTokens hop later hrest) (stops_laterTokens hop later' hrest') h
      obtain ⟨rfl, hr⟩ := ih (fun x hx => hlater x (List.mem_cons_of_mem _ hx)) hnext
      exact ⟨rfl, hr⟩

/-- A signed phrase starts with no negation. -/
theorem signed_ne_not (t : Tree .signed) (rest rest' : List Token) :
    t.tokens ++ rest ≠ operator "!" :: rest' := by
  cases t with
  | sign negative operand => cases negative <;> simp [tokens]
  | ofPrimary operand => cases operand <;> simp [tokens]

/-- A primary starts with no sign. -/
theorem primary_ne_sign (t : Tree .primary) (negative : Bool) (rest rest' : List Token) :
    t.tokens ++ rest ≠ operator (if negative then "-" else "+") :: rest' := by
  cases negative <;> cases t <;> simp [tokens]

/-- A comparison starts with no negation. -/
theorem comparison_ne_not (t : Tree .comparison) (rest rest' : List Token) :
    t.tokens ++ rest ≠ operator "!" :: rest' := by
  cases t with
  | compare c left right => simpa [tokens] using signed_ne_not left _ rest'
  | ofSigned operand => exact signed_ne_not operand rest rest'

theorem distinct (t : Tree level) : t.Distinct := by
  induction t using inductionOnOperands with
  | disjoin first later hfirst hlater =>
    intro t' rest rest' hrest hrest' h
    obtain ⟨first', later', rfl, -, -⟩ := exists_disjoin t'
    obtain ⟨hc, ha, ho⟩ := hrest
    obtain ⟨hc', ha', ho'⟩ := hrest'
    simp only [tokens_disjoin, List.append_assoc] at h
    obtain ⟨rfl, hnext⟩ := hfirst first' _ _
      (stops_laterTokens Level.conjunction_stops_or later ⟨hc, ha⟩)
      (stops_laterTokens Level.conjunction_stops_or later' ⟨hc', ha'⟩) h
    obtain ⟨rfl, hr⟩ := later_unique Level.conjunction_stops_or ⟨hc, ha⟩ ⟨hc', ha'⟩ ho ho' hlater
      hnext
    exact ⟨rfl, hr⟩
  | conjoin first later hfirst hlater =>
    intro t' rest rest' hrest hrest' h
    obtain ⟨first', later', rfl, -, -⟩ := exists_conjoin t'
    obtain ⟨hc, ha⟩ := hrest
    obtain ⟨hc', ha'⟩ := hrest'
    simp only [tokens_conjoin, List.append_assoc] at h
    obtain ⟨rfl, hnext⟩ := hfirst first' _ _
      (stops_laterTokens Level.negation_stops_and later hc)
      (stops_laterTokens Level.negation_stops_and later' hc') h
    obtain ⟨rfl, hr⟩ := later_unique Level.negation_stops_and hc hc' ha ha' hlater hnext
    exact ⟨rfl, hr⟩
  | not operand ih =>
    intro t' rest rest' hrest hrest' h
    cases t' with
    | not operand' =>
      obtain ⟨rfl, hr⟩ := ih operand' rest rest' hrest hrest' (by simpa [tokens] using h)
      exact ⟨rfl, hr⟩
    | ofComparison operand' => exact absurd h.symm (comparison_ne_not operand' _ _)
  | ofComparison operand ih =>
    intro t' rest rest' hrest hrest' h
    cases t' with
    | not operand' => exact absurd h (comparison_ne_not operand _ _)
    | ofComparison operand' =>
      obtain ⟨rfl, hr⟩ := ih operand' rest rest' hrest hrest' h
      exact ⟨rfl, hr⟩
  | compare c left right hleft hright =>
    intro t' rest rest' hrest hrest' h
    cases t' with
    | compare c' left' right' =>
      simp only [tokens, List.append_assoc] at h
      obtain ⟨rfl, hnext⟩ := hleft left' _ _ trivial trivial h
      simp only [List.cons_append, List.cons.injEq, Token.mk.injEq, true_and] at hnext
      obtain rfl := Comparison.symbol_injective hnext.1
      obtain ⟨rfl, hr⟩ := hright right' _ _ trivial trivial hnext.2
      exact ⟨rfl, hr⟩
    | ofSigned operand' =>
      simp only [tokens, List.append_assoc] at h
      obtain ⟨-, rfl⟩ := hleft operand' _ _ trivial trivial h
      simp [Level.stops, comparisonAhead?] at hrest'
  | ofSigned operand ih =>
    intro t' rest rest' hrest hrest' h
    cases t' with
    | compare c' left' right' =>
      simp only [tokens, List.append_assoc] at h
      obtain ⟨-, rfl⟩ := ih left' _ _ trivial trivial h
      simp [Level.stops, comparisonAhead?] at hrest
    | ofSigned operand' =>
      obtain ⟨rfl, hr⟩ := ih operand' rest rest' trivial trivial h
      exact ⟨rfl, hr⟩
  | sign negative operand ih =>
    intro t' rest rest' hrest hrest' h
    cases t' with
    | sign negative' operand' =>
      simp only [tokens, List.cons_append, List.cons.injEq, Token.mk.injEq, true_and] at h
      obtain ⟨rfl, hr⟩ := ih operand' _ _ trivial trivial h.2
      obtain rfl : negative = negative' := by
        cases negative <;> cases negative' <;> simp at h ⊢
      exact ⟨rfl, hr⟩
    | ofPrimary operand' => exact absurd h.symm (primary_ne_sign operand' negative _ _)
  | ofPrimary operand ih =>
    intro t' rest rest' hrest hrest' h
    cases t' with
    | sign negative' operand' => exact absurd h (primary_ne_sign operand negative' _ _)
    | ofPrimary operand' =>
      obtain ⟨rfl, hr⟩ := ih operand' rest rest' trivial trivial h
      exact ⟨rfl, hr⟩
  | number word | text word | name word =>
    intro t' rest rest' hrest hrest' h
    cases t' <;> simp_all [tokens]
  | group inner ih =>
    intro t' rest rest' hrest hrest' h
    cases t' with
    | group inner' =>
      simp only [tokens, List.cons_append, List.append_assoc, List.nil_append, List.cons.injEq,
        true_and] at h
      obtain ⟨rfl, hnext⟩ := ih inner' _ _ (Level.stops_close _ _) (Level.stops_close _ _) h
      exact ⟨rfl, by simpa using hnext⟩
    | number word | text word | name word => simp [tokens] at h

/-- The grammar is unambiguous. -/
theorem tokens_injective {t t' : Tree level} (h : t.tokens = t'.tokens) : t = t' :=
  (distinct t t' [] [] level.stops_nil level.stops_nil (by simp [h])).1

end Tree
end Condition
end LeadDesk
