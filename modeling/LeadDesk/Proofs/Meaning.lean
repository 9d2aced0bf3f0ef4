import LeadDesk.Proofs.Reading
import LeadDesk.Proofs.Words
/-!
# The meaning of expressions

The value that a derivation tree stands for (`Tree.value`) and the paths whose values it
needs (`Tree.needed`), both defined on the tree alone, and the fact that evaluating the
tokens while they are read gives just this value.

The reader also evaluates the operands that do not count, and there no fault may arise.
A path without a value is passed over in them, so what is left are integers: those that
are too large for a floating-point number, and those written with more digits than are
read. Expressions without such integers have the value of their tree
(`valueOfTokens_of_derivable`).
-/

namespace LeadDesk

namespace Condition

/-! ### The value of a tree -/

namespace Tree

variable {level : Level}

/-- The value of a tree in a context. `||` gives its first operand when that holds and else its
second, `&&` the other way round; the second operand has no part in the value where the first
decides. -/
def value (context : Json) : {level : Level} → Tree level → Except Fault Operand
  | _, or left right => do
    let v ← left.value context
    if ← holds v then return v else right.value context
  | _, and left right => do
    let v ← left.value context
    if ← holds v then right.value context else return v
  | _, not operand => do
    return some (.bool !(← holds (← operand.value context)))
  | _, compare comparison left right => do
    return some (.bool (← comparison.verdict (← left.value context) (← right.value context)))
  | _, sign negative operand => do
    let d ← toNumber (← operand.value context)
    return some (.float (if negative then d.neg else d))
  | _, ofConjunction operand | _, ofNegation operand | _, ofComparison operand
  | _, ofSigned operand | _, ofPrimary operand => operand.value context
  | _, number word => return some (numeral word)
  | _, text word => return some (unquoted word)
  | _, name word => pathValue context false word
  | _, group inner => inner.value context

/-- The paths whose values the value of a tree needs, in the order in which it needs them. -/
def needed (context : Json) : {level : Level} → Tree level → List String
  | _, or left right =>
    left.needed context ++
      match left.value context >>= holds with
      | .ok false => right.needed context
      | _ => []
  | _, and left right =>
    left.needed context ++
      match left.value context >>= holds with
      | .ok true => right.needed context
      | _ => []
  | _, compare _ left right => left.needed context ++ right.needed context
  | _, ofConjunction operand | _, ofNegation operand | _, not operand
  | _, ofComparison operand | _, ofSigned operand | _, sign _ operand
  | _, ofPrimary operand => operand.needed context
  | _, number _ | _, text _ => []
  | _, name word => if (constant? word).isNone then [word] else []
  | _, group inner => inner.needed context

end Tree

/-- The path leads nowhere. -/
def isUndefined (context : Json) (path : String) : Bool :=
  match Operand.resolve context path with
  | .ok none => true
  | _ => false

/-! ### Numbers that fit -/

/-- The operand is within the floating-point numbers if it is an integer. -/
def Fits (v : Operand) : Prop := ∃ d, toNumber v = .ok d

theorem fits_iff {v : Operand} : Fits v ↔ (toNumber v).toOption.isSome = true := by
  unfold Fits
  cases toNumber v with
  | error e => simp [Except.toOption]
  | ok d => simp [Except.toOption]

instance (v : Operand) : Decidable (Fits v) := decidable_of_iff _ fits_iff.symm

/-- The token stands for a value that fits: the digits of a number can be read, and so can a
path. -/
def Token.Usable (context : Json) : Token → Prop
  | ⟨.number, word⟩ => numberValue word = .ok (some (numeral word)) ∧ Fits (some (numeral word))
  | ⟨.path, word⟩ => constant? word = none →
      ∃ v, Operand.resolve context word = .ok v ∧ Fits v
  | _ => True

theorem fits_none : Fits none := ⟨.nan, by simp only [toNumber]⟩

theorem fits_bool (b : Bool) : Fits (some (.bool b)) :=
  ⟨if b then .one else .zero, by simp only [toNumber]⟩

theorem fits_float (d : Double) : Fits (some (.float d)) := ⟨d, by simp only [toNumber]⟩

theorem fits_string (s : String) : Fits (some (.string s)) := by
  simp only [Fits, toNumber]
  exact ⟨_, rfl⟩

/-- Whether an operand that fits holds can be told. -/
theorem Fits.holds {v : Operand} (h : Fits v) : ∃ b, holds v = .ok b := by
  obtain ⟨d, hd⟩ := h
  match v with
  | none | some .null | some (.bool b) | some (.float d) | some (.string s) | some (.array _)
  | some (.object _) => simp [Condition.holds]
  | some (.int n) =>
    simp only [toNumber] at hd
    simp only [Condition.holds, hd]
    split
    · exact ⟨_, rfl⟩
    · exact ⟨_, rfl⟩

theorem Fits.strictEqual {a b : Operand} (ha : Fits a) (hb : Fits b) :
    ∃ r, strictEqual a b = .ok r := by
  obtain ⟨x, hx⟩ := ha
  obtain ⟨y, hy⟩ := hb
  unfold Condition.strictEqual
  split <;> try exact ⟨_, by rfl⟩
  split
  · simp only [hx, hy]
    exact ⟨_, by rfl⟩
  · exact ⟨_, by rfl⟩

theorem Fits.looseEqual {a b : Operand} (ha : Fits a) (hb : Fits b) :
    ∃ r, looseEqual a b = .ok r := by
  obtain ⟨x, hx⟩ := ha
  obtain ⟨y, hy⟩ := hb
  simp only [Condition.looseEqual, hx, hy]
  split
  · exact ⟨_, rfl⟩
  · split <;> try exact ⟨_, rfl⟩
    split
    · split <;> exact ⟨_, rfl⟩
    · exact ⟨_, rfl⟩

theorem Fits.compareBy {a b : Operand} (ha : Fits a) (hb : Fits b) (order : Order) :
    ∃ r, compareBy order a b = .ok r := by
  obtain ⟨x, hx⟩ := ha
  obtain ⟨y, hy⟩ := hb
  unfold Condition.compareBy
  split
  · exact ⟨_, rfl⟩
  · simp only [hx, hy]
    exact ⟨_, rfl⟩

theorem fits_constant {word : String} {v : Operand} (h : constant? word = some v) : Fits v := by
  unfold constant? at h
  split at h <;> cases h
  · exact fits_bool true
  · exact fits_bool false
  · exact ⟨.zero, by simp only [toNumber]⟩
  · exact fits_none

/-- Operands that fit can be compared. -/
theorem Fits.verdict {a b : Operand} (ha : Fits a) (hb : Fits b) (c : Comparison) :
    ∃ r, c.verdict a b = .ok r := by
  cases c with
  | identical => exact ha.strictEqual hb
  | equal => exact ha.looseEqual hb
  | ordered order => exact ha.compareBy hb order
  | different =>
    obtain ⟨r, hr⟩ := ha.strictEqual hb
    exact ⟨!r, by simp [Comparison.verdict, hr, Except.map]⟩
  | unequal =>
    obtain ⟨r, hr⟩ := ha.looseEqual hb
    exact ⟨!r, by simp [Comparison.verdict, hr, Except.map]⟩

/-! ### The reader finds the value -/

/-- The reader finds the value of a tree, and a tree whose value does not count is read without a
fault. -/
structure Tree.Sound {level : Level} (context : Json) (t : Tree level) : Prop where
  skipped : ∃ v, t.reading context true = .ok v ∧ Fits v
  counted : t.reading context false = t.value context
  fits : ∀ v, t.value context = .ok v → Fits v
  faults : ∀ e, t.value context = .error e → ∃ path, e = .undefinedPath path
  first : (t.needed context).find? (isUndefined context) =
    match t.value context with
    | .error (.undefinedPath path) => some path
    | _ => none

/-- Of an operand there is a value that fits, or a path without a value that it needs first. -/
theorem Tree.Sound.cases {level : Level} {context : Json} {t : Tree level} (h : t.Sound context) :
    (∃ v, t.value context = .ok v ∧ Fits v ∧
        (t.needed context).find? (isUndefined context) = none) ∨
      ∃ path, t.value context = .error (.undefinedPath path) ∧
        (t.needed context).find? (isUndefined context) = some path := by
  have hfirst := h.first
  cases hv : t.value context with
  | ok v => exact .inl ⟨v, rfl, h.fits v hv, by simpa [hv] using hfirst⟩
  | error e =>
    obtain ⟨path, rfl⟩ := h.faults e hv
    exact .inr ⟨path, rfl, by simpa [hv] using hfirst⟩

/-- What is known of a tree once its value is known. -/
theorem Tree.Sound.of_value {level : Level} {context : Json} {t : Tree level}
    (skipped : ∃ v, t.reading context true = .ok v ∧ Fits v)
    (counted : t.reading context false = t.value context)
    (h : (∃ v, t.value context = .ok v ∧ Fits v ∧
        (t.needed context).find? (isUndefined context) = none) ∨
      ∃ path, t.value context = .error (.undefinedPath path) ∧
        (t.needed context).find? (isUndefined context) = some path) : t.Sound context := by
  rcases h with ⟨v, hv, hfits, hfirst⟩ | ⟨path, hv, hfirst⟩
  · exact ⟨skipped, counted, by simp_all, by simp_all, by simp_all⟩
  · exact ⟨skipped, counted, by simp_all, by simp_all, by simp_all⟩

section

variable {context : Json} {level level₁ level₂ : Level}

/-- A pair of operands of which the second counts when the first holds or not as `onTruth` says. -/
theorem Tree.Sound.row {t : Tree level} {left : Tree level₁} {right : Tree level₂} (onTruth : Bool)
    (hleft : left.Sound context) (hright : right.Sound context)
    (hreading : ∀ skip, t.reading context skip =
      left.reading context skip >>= joinNext onTruth (right.reading context) skip)
    (hvalue : t.value context = left.value context >>= fun v => holds v >>= fun b =>
      if b == onTruth then right.value context else .ok v)
    (hneeded : t.needed context = left.needed context ++
      match left.value context >>= holds with
      | .ok b => if b == onTruth then right.needed context else []
      | .error _ => []) : t.Sound context := by
  obtain ⟨v, hv, hvfits⟩ := hleft.skipped
  obtain ⟨w, hw, hwfits⟩ := hright.skipped
  have hskipped : ∃ v, t.reading context true = .ok v ∧ Fits v := by
    obtain ⟨b, hb⟩ := hvfits.holds
    cases h : b == onTruth with
    | true => exact ⟨w, by simp [hreading, hv, joinNext, hb, h, hw, bind, Except.bind], hwfits⟩
    | false =>
      exact ⟨v, by simp [hreading, hv, joinNext, hb, h, hw, bind, Except.bind, pure, Except.pure],
        hvfits⟩
  rcases hleft.cases with ⟨x, hx, hxfits, hxneeded⟩ | ⟨path, hpath, hpneeded⟩
  · obtain ⟨b, hb⟩ := hxfits.holds
    cases h : b == onTruth with
    | true =>
      have hval : t.value context = right.value context := by
        simp [hvalue, hx, hb, h, bind, Except.bind]
      refine .of_value hskipped ?_ ?_
      · simp [hreading, hleft.counted, hx, joinNext, hb, h, hright.counted, hval, bind, Except.bind]
      · simpa [hneeded, hx, hb, h, hxneeded, hval, bind, Except.bind] using hright.cases
    | false =>
      have hval : t.value context = .ok x := by simp [hvalue, hx, hb, h, bind, Except.bind]
      refine .of_value hskipped ?_ (.inl ⟨x, hval, hxfits, ?_⟩)
      · simp [hreading, hleft.counted, hx, joinNext, hb, h, hw, hval, bind, Except.bind, pure,
          Except.pure]
      · simpa [hneeded, hx, hb, h, bind, Except.bind] using hxneeded
  · have hval : t.value context = .error (.undefinedPath path) := by
      simp [hvalue, hpath, bind, Except.bind]
    refine .of_value hskipped ?_ (.inr ⟨path, hval, ?_⟩)
    · simp [hreading, hleft.counted, hpath, hval, bind, Except.bind]
    · simp [hneeded, hpneeded]

/-- An operand and what is made of its value. -/
theorem Tree.Sound.map {t : Tree level} {operand : Tree level₁} (f : Operand → Except Fault Operand)
    (hoperand : operand.Sound context) (hf : ∀ v, Fits v → ∃ w, f v = .ok w ∧ Fits w)
    (hreading : ∀ skip, t.reading context skip = operand.reading context skip >>= f)
    (hvalue : t.value context = operand.value context >>= f)
    (hneeded : t.needed context = operand.needed context) : t.Sound context := by
  obtain ⟨v, hv, hvfits⟩ := hoperand.skipped
  obtain ⟨w, hw, hwfits⟩ := hf v hvfits
  refine .of_value ⟨w, by simp [hreading, hv, hw, bind, Except.bind], hwfits⟩
    (by rw [hreading, hvalue, hoperand.counted]) ?_
  rcases hoperand.cases with ⟨x, hx, hxfits, hxneeded⟩ | ⟨path, hpath, hpneeded⟩
  · obtain ⟨y, hy, hyfits⟩ := hf x hxfits
    exact .inl ⟨y, by simp [hvalue, hx, hy, bind, Except.bind], hyfits, by rw [hneeded, hxneeded]⟩
  · exact .inr ⟨path, by simp [hvalue, hpath, bind, Except.bind], by rw [hneeded, hpneeded]⟩

/-- Two operands and what is made of their values. -/
theorem Tree.Sound.map₂ {t : Tree level} {left : Tree level₁} {right : Tree level₂}
    (f : Operand → Operand → Except Fault Operand) (hleft : left.Sound context)
    (hright : right.Sound context) (hf : ∀ v w, Fits v → Fits w → ∃ x, f v w = .ok x ∧ Fits x)
    (hreading : ∀ skip, t.reading context skip = left.reading context skip >>= fun v =>
      right.reading context skip >>= f v)
    (hvalue : t.value context = left.value context >>= fun v => right.value context >>= f v)
    (hneeded : t.needed context = left.needed context ++ right.needed context) :
    t.Sound context := by
  obtain ⟨v, hv, hvfits⟩ := hleft.skipped
  obtain ⟨w, hw, hwfits⟩ := hright.skipped
  obtain ⟨x, hx, hxfits⟩ := hf v w hvfits hwfits
  refine .of_value ⟨x, by simp [hreading, hv, hw, hx, bind, Except.bind], hxfits⟩
    (by rw [hreading, hvalue, hleft.counted, hright.counted]) ?_
  rcases hleft.cases with ⟨v, hv, hvfits, hvneeded⟩ | ⟨path, hpath, hpneeded⟩
  · rcases hright.cases with ⟨w, hw, hwfits, hwneeded⟩ | ⟨path, hpath, hpneeded⟩
    · obtain ⟨x, hx, hxfits⟩ := hf v w hvfits hwfits
      exact .inl ⟨x, by simp [hvalue, hv, hw, hx, bind, Except.bind], hxfits,
        by simp [hneeded, hvneeded, hwneeded]⟩
    · exact .inr ⟨path, by simp [hvalue, hv, hpath, bind, Except.bind],
        by simp [hneeded, hvneeded, hpneeded]⟩
  · exact .inr ⟨path, by simp [hvalue, hpath, bind, Except.bind], by simp [hneeded, hpneeded]⟩

/-- A word with a value that fits. -/
theorem Tree.Sound.word {t : Tree level} (v : Operand) (hv : Fits v)
    (hreading : ∀ skip, t.reading context skip = .ok v) (hvalue : t.value context = .ok v)
    (hneeded : (t.needed context).find? (isUndefined context) = none) : t.Sound context :=
  .of_value ⟨v, hreading true, hv⟩ (by rw [hreading, hvalue]) (.inl ⟨v, hvalue, hv, hneeded⟩)

/-- A constant, or a path with a value or without. -/
theorem Tree.Sound.name {word : String} (h : (⟨.path, word⟩ : Token).Usable context) :
    (Tree.name word).Sound context := by
  cases hconstant : constant? word with
  | some v =>
    refine .word v (fits_constant hconstant) ?_ ?_ ?_
    · simp [reading, pathValue, hconstant]
    · simp [value, pathValue, hconstant]
    · simp [needed, hconstant]
  | none =>
    obtain ⟨v, hv, hfits⟩ := h hconstant
    cases v with
    | some v =>
      refine .word (some v) hfits ?_ ?_ ?_
      · simp [reading, pathValue, hconstant, hv]
      · simp [value, pathValue, hconstant, hv]
      · simp [needed, hconstant, isUndefined, hv]
    | none =>
      refine .of_value ⟨none, by simp [reading, pathValue, hconstant, hv], fits_none⟩ rfl
        (.inr ⟨word, by simp [value, pathValue, hconstant, hv], ?_⟩)
      simp [needed, hconstant, isUndefined, hv]

end

namespace Tree

variable {level : Level}

theorem sound {context : Json} (t : Tree level) (h : ∀ token ∈ t.tokens, token.Usable context) :
    t.Sound context := by
  induction t with
  | or left right ihleft ihright =>
    refine .row false (ihleft fun token ht => h token (by simp [tokens, ht]))
      (ihright fun token ht => h token (by simp [tokens, ht])) (fun _ => rfl) ?_ ?_
    · refine bind_congr fun v => bind_congr fun b => ?_
      cases b <;> rfl
    · rw [needed]
      cases left.value context >>= holds with
      | error e => rfl
      | ok b => cases b <;> rfl
  | and left right ihleft ihright =>
    refine .row true (ihleft fun token ht => h token (by simp [tokens, ht]))
      (ihright fun token ht => h token (by simp [tokens, ht])) (fun _ => rfl) ?_ ?_
    · refine bind_congr fun v => bind_congr fun b => ?_
      cases b <;> rfl
    · rw [needed]
      cases left.value context >>= holds with
      | error e => rfl
      | ok b => cases b <;> rfl
  | not operand ih =>
    refine .map (fun v => do return some (.bool !(← holds v)))
      (ih fun token ht => h token (by simp [tokens, ht])) (fun v hv => ?_) (fun _ => rfl) rfl rfl
    obtain ⟨b, hb⟩ := hv.holds
    exact ⟨_, by simp only [hb]; rfl, fits_bool _⟩
  | compare c left right ihleft ihright =>
    refine .map₂ (fun v w => do return some (.bool (← c.verdict v w)))
      (ihleft fun token ht => h token (by simp [tokens, ht]))
      (ihright fun token ht => h token (by simp [tokens, ht])) (fun v w hv hw => ?_)
      (fun _ => rfl) rfl rfl
    obtain ⟨b, hb⟩ := hv.verdict hw c
    exact ⟨_, by simp only [hb]; rfl, fits_bool _⟩
  | sign negative operand ih =>
    refine .map (fun v => do
        let d ← toNumber v
        return some (.float (if negative then d.neg else d)))
      (ih fun token ht => h token (by simp [tokens, ht])) (fun v hv => ?_) (fun _ => rfl) rfl rfl
    obtain ⟨d, hd⟩ := hv
    exact ⟨_, by simp only [hd]; rfl, fits_float _⟩
  | ofConjunction operand ih | ofNegation operand ih | ofComparison operand ih
  | ofSigned operand ih | ofPrimary operand ih =>
    obtain ⟨skipped, counted, fits, faults, first⟩ := ih h
    exact ⟨skipped, counted, fits, faults, first⟩
  | number word =>
    obtain ⟨hvalue, hfits⟩ := h ⟨.number, word⟩ (by simp [tokens])
    exact .word _ hfits (fun _ => hvalue) rfl rfl
  | text word => exact .word _ (fits_string _) (fun _ => rfl) rfl rfl
  | name word => exact .name (h ⟨.path, word⟩ (by simp [tokens]))
  | group inner ih =>
    obtain ⟨skipped, counted, fits, faults, first⟩ :=
      ih fun token ht => h token (by simp [tokens, ht])
    exact ⟨skipped, counted, fits, faults, first⟩

end Tree

/-! ### Expressions -/

/-- The tokens are an expression: a tree derives them, and each is whole. -/
def Derivable (tokens : List Token) : Prop :=
  (∃ t : Tree .disjunction, t.tokens = tokens) ∧ ∀ token ∈ tokens, token.Whole

/-- The number that the token stands for, or that its path leads to, fits. -/
def Token.Fits (context : Json) : Token → Prop
  | ⟨.number, word⟩ => Condition.Fits (some (numeral word))
  | ⟨.path, word⟩ =>
    constant? word = none → ∀ v ∈ (Operand.resolve context word).toOption, Condition.Fits v
  | _ => True

instance (context : Json) : (token : Token) → Decidable (token.Fits context)
  | ⟨.number, _⟩ => inferInstanceAs (Decidable (Condition.Fits _))
  | ⟨.path, _⟩ => inferInstanceAs (Decidable (_ = none → ∀ v ∈ _, Condition.Fits v))
  | ⟨.text, _⟩ | ⟨.operator, _⟩ => inferInstanceAs (Decidable True)

theorem Token.usable {context : Json} {token : Token} (hwhole : token.Whole)
    (hshort : token.Short) (hfits : token.Fits context) : token.Usable context := by
  match token with
  | ⟨.number, word⟩ => exact ⟨numberValue_of_whole hwhole hshort, hfits⟩
  | ⟨.path, word⟩ =>
    intro hconstant
    obtain ⟨v, hv⟩ := resolve_of_whole hwhole hshort context
    exact ⟨v, hv, hfits hconstant v (by rw [hv]; rfl)⟩
  | ⟨.text, word⟩ | ⟨.operator, word⟩ => trivial

/-- An expression has just one tree, and the reader gives the value of that tree. It fails only
where this value needs a path that leads nowhere, and then names the first one. -/
theorem valueOfTokens_of_derivable (context : Json) {tokens : List Token}
    (hderivable : Derivable tokens) (hshort : ∀ token ∈ tokens, token.Short)
    (hfits : ∀ token ∈ tokens, token.Fits context) :
    ∃ t : Tree .disjunction, t.tokens = tokens ∧
      (∀ t' : Tree .disjunction, t'.tokens = tokens → t' = t) ∧
      valueOfTokens context tokens = t.value context ∧
      (∀ path, valueOfTokens context tokens = .error (.undefinedPath path) ↔
        (t.needed context).find? (isUndefined context) = some path) ∧
      ∀ fault, valueOfTokens context tokens = .error fault →
        ∃ path, fault = .undefinedPath path := by
  obtain ⟨⟨t, rfl⟩, hwhole⟩ := hderivable
  have hsound := t.sound fun token h =>
    Token.usable (hwhole token h) (hshort token h) (hfits token h)
  have hvalue : valueOfTokens context t.tokens = t.value context := by
    rw [valueOfTokens_tokens, hsound.counted]
  refine ⟨t, rfl, fun t' h => Tree.tokens_injective h, hvalue, fun path => ?_, fun fault h => ?_⟩
  · rw [hvalue, hsound.first]
    constructor
    · intro h
      rw [h]
    · intro h
      split at h
      next path' hpath => rw [hpath, Option.some.inj h]
      next => simp at h
  · exact hsound.faults fault (hvalue ▸ h)

/-- In a context with a flag and a count, `flag && (count > 2.5 || missing) === -lost` needs three
paths, of which the last leads nowhere. The path `missing` is passed over. -/
theorem undefinedPath_lost :
    valueOfTokens (.object [("flag", .bool true), ("count", .int 7)])
      [⟨.path, "flag"⟩, operator "&&", operator "(", ⟨.path, "count"⟩, operator ">",
        ⟨.number, "2.5"⟩, operator "||", ⟨.path, "missing"⟩, operator ")", operator "===",
        operator "-", ⟨.path, "lost"⟩] = .error (.undefinedPath "lost") := by
  let left : Tree .conjunction := .ofNegation (.ofComparison (.compare (.ordered .greater)
    (.ofPrimary (.name "count")) (.ofPrimary (.number "2.5"))))
  let right : Tree .conjunction :=
    .ofNegation (.ofComparison (.ofSigned (.ofPrimary (.name "missing"))))
  let t : Tree .disjunction := .ofConjunction (.and
    (.ofNegation (.ofComparison (.ofSigned (.ofPrimary (.name "flag")))))
    (.ofComparison (.compare .identical (.ofPrimary (.group (.or (.ofConjunction left) right)))
      (.sign true (.ofPrimary (.name "lost"))))))
  obtain ⟨t', -, hunique, -, hneeds, -⟩ := valueOfTokens_of_derivable
    (.object [("flag", .bool true), ("count", .int 7)])
    ⟨⟨t, rfl⟩, by decide +kernel⟩ (by decide +kernel) (by decide +kernel)
  refine (hneeds "lost").mpr ?_
  rw [← hunique t rfl]
  decide +kernel

/-- A row of zeros. -/
def zeros (count : Nat) : String := String.ofList (List.replicate count '0')

theorem digitsValue_zeros (count : Nat) : Text.digitsValue (zeros count).toList = 0 := by
  simp only [zeros, String.toList_ofList, Text.digitsValue]
  induction count with
  | zero => rfl
  | succ n ih => exact ih

/-- An expression of one word. -/
def Tree.ofPrimaryOnly (word : Tree .primary) : Tree .disjunction :=
  .ofConjunction (.ofNegation (.ofComparison (.ofSigned (.ofPrimary word))))

/-- A zero written with more digits than are read is an expression with the value zero, and yet
it has none. -/
theorem refused_zeros {count : Nat} (h : maxDigits < count) :
    Derivable [⟨.number, zeros count⟩] ∧
      (∀ token ∈ [(⟨.number, zeros count⟩ : Token)], token.Fits (.object [])) ∧
      (∃ t : Tree .disjunction, t.tokens = [⟨.number, zeros count⟩] ∧
        t.value (.object []) = .ok (some (.int 0))) ∧
      valueOfTokens (.object []) [⟨.number, zeros count⟩] = .error (.number (.tooLong count)) := by
  have hlist : (zeros count).toList = List.replicate count '0' := String.toList_ofList
  have hdigits : ∀ c ∈ (zeros count).toList, Text.isAsciiDigit c = true := by
    intro c hc
    rw [hlist] at hc
    rw [List.eq_of_mem_replicate hc]
    decide
  have hne : (zeros count).toList ≠ [] := by
    rw [hlist, Ne, List.replicate_eq_nil_iff]
    omega
  have hpoint : '.' ∉ (zeros count).toList := fun h => absurd (hdigits '.' h) (by decide)
  have hnumeral : numeral (zeros count) = .int 0 := by
    simp [numeral, hpoint, digitsValue_zeros]
  have hlength : (zeros count).length = count := by
    rw [← String.length_toList, hlist, List.length_replicate]
  let t := Tree.ofPrimaryOnly (.number (zeros count))
  refine ⟨⟨⟨t, rfl⟩, ?_⟩, ?_, ⟨t, rfl, ?_⟩, ?_⟩
  · intro token h
    rw [List.mem_singleton.mp h]
    exact Token.whole_of_digits hne hdigits
  · intro token h
    rw [List.mem_singleton.mp h]
    simpa only [Token.Fits, hnumeral] using (by decide +kernel : Fits (some (.int 0)))
  · simp [t, Tree.ofPrimaryOnly, Tree.value, hnumeral, pure, Except.pure]
  · refine (valueOfTokens_tokens (.object []) t).trans ?_
    simp [t, Tree.ofPrimaryOnly, Tree.reading, numberValue, hpoint, readInt_of_digits hne hdigits,
      hlength, h]

end Condition

end LeadDesk
