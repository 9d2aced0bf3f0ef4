import LeadDesk.Proofs.Comparing
/-!
# Comparing with a constant from either side

Whether `x == true` and `true == x` say the same, and so with `!=` and the other constants.
Tidying makes a comparison strict only where the constant stands on its right, so one of the two
compares within one kind and the other across kinds. They say the same of a word exactly when the
value of the word does not clash with the constant, or the word starts with a constant itself
(`sides_agree_iff`).
-/

namespace LeadDesk

namespace Condition

/-- The constants that comparisons are tightened for. -/
inductive Keyword where
  | null
  | bool (b : Bool)

namespace Keyword

/-- How a constant is written. -/
def name : Keyword → String
  | null => "null"
  | bool true => "true"
  | bool false => "false"

/-- The value of a constant. -/
def value : Keyword → Json
  | null => .null
  | bool b => .bool b

/-- A number or a text. -/
def ReadsAsNumber : Operand → Prop
  | some (.int _) | some (.float _) | some (.string _) => True
  | _ => False

/-- A value that is of another kind than the constant and equal to it across kinds: no value for
null, and for a truth value a number or a text that reads as its number or is too large for one. -/
def Clashes : Keyword → Operand → Prop
  | null, v => v = none
  | bool b, v => ReadsAsNumber v ∧
      ∀ d, toNumber v = .ok d → (if b then Double.one else .zero).equals d = true

theorem constant?_name (w : Keyword) : constant? w.name = some (some w.value) := by
  rcases w with _ | _ | _ <;> rfl

theorem whole_name (w : Keyword) : (⟨.path, w.name⟩ : Token).Whole := by
  rcases w with _ | _ | _ <;> decide +kernel

theorem leadingConstant?_name (w : Keyword) :
    (leadingConstant? w.name.toList).isSome = true := by
  rcases w with _ | _ | _ <;> decide +kernel

/-- The value is the constant itself. -/
def is : Keyword → Operand → Bool
  | null, some .null => true
  | bool b, some (.bool a) => a == b
  | _, _ => false

/-- Strict equality with a constant does not depend on the side. -/
theorem strictEqual_eq (w : Keyword) (v : Operand) :
    strictEqual v (some w.value) = .ok (w.is v) ∧ strictEqual (some w.value) v = .ok (w.is v) := by
  cases w <;> rcases v with _ | _ | _ | _ | _ | _ | _ | _ <;>
    simp [value, is, strictEqual, isNumber, Json.kindName, Json.same, Bool.beq_comm]

theorem looseEqual_null (v : Operand) : looseEqual (some .null) v = .ok (isNullish v) := by
  simp [looseEqual, isNullish]

/-- A truth value is compared as a number with numbers and texts. -/
theorem looseEqual_bool (b : Bool) {v : Operand} (h : ReadsAsNumber v) :
    looseEqual (some (.bool b)) v =
      (toNumber v).map fun d => (if b then Double.one else .zero).equals d := by
  have hbool : toNumber (some (.bool b)) = .ok (if b then .one else .zero) := rfl
  have hread : ∀ r : Except Fault Double, (do
      let x ← (.ok (if b then .one else .zero) : Except Fault Double)
      let y ← r
      return x.equals y) = r.map fun d => (if b then Double.one else .zero).equals d := by
    intro r
    cases r <;> rfl
  rcases v with _ | _ | _ | n | d | s | _ | _ <;> try exact h.elim
  all_goals
    simp only [looseEqual, isNullish, isScalarNumber, isStructure, isNumber, hbool,
      Bool.or_self, Bool.or_false, Bool.false_eq_true, if_false, if_true, hread]

/-- Strict equality and loose equality with a constant differ exactly where a value clashes with
it. -/
theorem agree_iff (w : Keyword) (v : Operand) :
    (strictEqual v (some w.value)).toOption = (looseEqual (some w.value) v).toOption ↔
      ¬ w.Clashes v := by
  rw [(strictEqual_eq w v).1]
  cases w with
  | null =>
    rw [value, looseEqual_null]
    rcases v with _ | _ | _ | _ | _ | _ | _ | _ <;> simp [is, isNullish, Clashes, Except.toOption]
  | bool b =>
    by_cases h : ReadsAsNumber v
    · have his : is (bool b) v = false := by
        rcases v with _ | _ | _ | _ | _ | _ | _ | _ <;> first | rfl | exact h.elim
      rw [value, looseEqual_bool b h, his, Clashes]
      generalize toNumber v = r
      cases r <;> simp [h, Except.map, Except.toOption]
    · -- A truth value compares as a number, and all else equals none.
      simp only [Clashes, h, false_and, not_false_iff, iff_true]
      rcases v with _ | _ | a | _ | _ | _ | _ | _
      case some.bool =>
        cases a <;> cases b <;> decide +kernel
      all_goals first | exact absurd trivial h | rfl

end Keyword

/-! ## Words -/

/-- A number, a text in quotes, or a path; a constant is written as a path. A path may have letters
and numbers of all scripts behind its first letter. -/
inductive Word : List Char → Prop
  | number {word : String} (h : (⟨.number, word⟩ : Token).Whole) : Word word.toList
  | quotation {q : Char} (hq : isQuote q = true) {body : List Char} (h : q ∉ body) :
      Word (q :: (body ++ [q]))
  | path {c : Char} (hstart : (c.isAlpha || c == '_') = true) {rest : List Char}
      (h : ∀ d ∈ rest, Text.isWordChar d = true ∨ d = '.') : Word (c :: rest)

theorem not_blank_of_isWordChar {c : Char} (hlarge : 128 ≤ c.toNat)
    (h : Text.isWordChar c = true) : Text.isBlank c = false := by
  have hapart : ∀ r ∈ Text.letterOrNumberRanges, ∀ s ∈ Text.blankRanges,
      s.2 < 128 ∨ r.2 < s.1 ∨ s.2 < r.1 := by decide +kernel
  have hunderscore : c ≠ '_' := by rintro rfl; exact absurd hlarge (by decide)
  rw [Text.isWordChar, Text.isLetterOrNumber, if_neg (by omega), Bool.or_eq_true,
    Text.inRanges_iff] at h
  obtain ⟨r, hr, hlow, hhigh⟩ := h.resolve_right (by simpa using hunderscore)
  refine Bool.eq_false_iff.mpr fun hblank => ?_
  obtain ⟨s, hs, hlow', hhigh'⟩ := Text.inRanges_iff.mp hblank
  have := hapart r hr s hs
  omega

/-- Of the characters of words, expressions have just those of paths. -/
theorem isPathChar_of_isSafe {c : Char} (hsafe : isSafe c = true)
    (h : Text.isWordChar c = true) : isPathChar c = true := by
  by_cases hsmall : c.toNat < 128
  · rwa [Text.isWordChar, Text.isLetterOrNumber, if_pos hsmall] at h
  · have hblank := not_blank_of_isWordChar (by omega) h
    have hsymbol : c ∉ ".><=!&|()\"'-+".toList := fun hmem => by
      have hall : ∀ d ∈ ".><=!&|()\"'-+".toList, d.toNat < 128 := by simp
      exact hsmall (hall c hmem)
    simp only [isSafe, hblank, Bool.or_false, Bool.or_eq_true, List.contains_iff_mem, hsymbol,
      or_false] at hsafe
    simpa [isPathChar] using hsafe

theorem free_of_isWordChar {cs : List Char} (h : ∀ c ∈ cs, Text.isWordChar c = true ∨ c = '.') :
    Unquoted cs ∧ Free cs := by
  have hnot : ∀ d ∈ ['=', '!', '"', '\''], ¬(Text.isWordChar d = true ∨ d = '.') := by
    simp [Text.isWordChar, Text.isLetterOrNumber]
  refine ⟨fun c hc => ?_, fun c hc => ⟨?_, ?_⟩⟩
  · refine Bool.eq_false_iff.mpr fun hq => ?_
    rcases isQuote_iff.mp hq with rfl | rfl <;> exact hnot _ (by simp) (h _ hc)
  · rintro rfl; exact hnot _ (by simp) (h _ hc)
  · rintro rfl; exact hnot _ (by simp) (h _ hc)

/-- The characters of a path end at a point that no segment follows. -/
theorem exists_behind_pathTail {cs : List Char} (h : WordChars cs) :
    pathTail cs = cs ∨ ∃ rest, cs = pathTail cs ++ '.' :: rest := by
  induction cs using pathTail.induct with
  | case1 => exact .inl rfl
  | case2 c rest hc ih =>
    rw [pathTail, if_pos hc]
    refine (ih fun d hd => h d (List.mem_cons_of_mem _ hd)).imp (congrArg _) ?_
    rintro ⟨behind, hbehind⟩
    exact ⟨behind, congrArg _ hbehind⟩
  | case3 c rest hc =>
    rw [pathTail, if_neg hc]
    exact .inr ⟨c :: rest, rfl⟩
  | case4 c rest hpoint hc ih =>
    rw [pathTail_cons hc]
    refine (ih fun d hd => h d (List.mem_cons_of_mem _ hd)).imp (congrArg _) ?_
    rintro ⟨behind, hbehind⟩
    exact ⟨behind, congrArg _ hbehind⟩
  | case5 c rest hpoint hc =>
    obtain rfl := (h c List.mem_cons_self).resolve_left hc
    rw [pathTail_of_stop hpoint hc]
    exact .inr ⟨rest, rfl⟩

theorem tokensOf_point (rest : List Char) : tokensOf ('.' :: rest) = none := by
  have hblank : Text.isBlank '.' = false := by decide
  have htoken : token? ('.' :: rest) = none := by
    have hfront : operators.find? (·.isPrefixOf ('.' :: rest)) = none := by
      rw [List.find?_eq_none]
      simp [operators]
    have hdigit : Text.isAsciiDigit '.' = false := by decide
    have hletter : ('.'.isAlpha || '.' == '_') = false := by decide
    have hquote : ('.' == '"' || '.' == '\'') = false := by decide
    rw [token?, hdigit, hquote, hletter, hfront]
    rfl
  rw [tokensOf_cons, hblank, htoken]
  rfl

/-- The characters of a path are cut into the path, or not at all. -/
theorem tokensOf_path {c : Char} (hstart : (c.isAlpha || c == '_') = true) {cs : List Char}
    (h : WordChars cs) : tokensOf (c :: cs) = none ∨
      tokensOf (c :: cs) = some [⟨.path, String.ofList (c :: cs)⟩] := by
  have hchars : WordChars (c :: cs) :=
    List.forall_mem_cons.mpr ⟨.inl (isPathChar_of_start hstart), h⟩
  have hdigit : Text.isAsciiDigit c = false := by
    refine Bool.eq_false_iff.mpr fun hdigit => ?_
    have hrange := isAsciiDigit_iff.mp hdigit
    rcases Bool.or_eq_true_iff.mp hstart with h | h
    · have := Text.isAlpha_iff.1 h
      omega
    · obtain rfl : c = '_' := by simpa using h
      exact absurd hdigit (by decide)
  have htoken := token?_path hdigit (hchars.unquoted c List.mem_cons_self) hstart cs
  have hlength : (String.ofList (c :: pathTail cs)).length - 1 = (pathTail cs).length := by
    rw [← String.length_toList, String.toList_ofList]
    rfl
  rw [tokensOf_cons, not_blank_of_wordChar (hchars c List.mem_cons_self), htoken]
  simp only [Bool.false_eq_true, if_false, Option.bind_some, hlength]
  rcases exists_behind_pathTail h with hall | ⟨rest, hrest⟩
  · rw [hall, List.drop_length]
    exact .inr rfl
  · have hdrop : cs.drop (pathTail cs).length = '.' :: rest := by
      have hbehind := congrArg (List.drop (pathTail cs).length) hrest
      rwa [List.drop_left] at hbehind
    rw [hdrop, tokensOf_point]
    exact .inl rfl

/-- A word is tidied by itself, and cut into one token or not at all. -/
theorem Word.tidies {cs : List Char} (h : Word cs) :
    ∃ z, Tidies cs (unquoteConstants 0 cs) z ∧
      (tokensOf z = none ∨ ∃ t : Tree .signed, tokensOf z = some t.tokens) := by
  cases h with
  | @number word hwhole =>
    have hchars := hwhole.wordChars (.inl rfl)
    rw [unquote_of_unquoted hchars.unquoted]
    exact ⟨_, hchars.tidies, .inr ⟨.ofPrimary (.number word), hwhole.tokensOf⟩⟩
  | @quotation q hq body hbody =>
    by_cases hconstant : body ∈ constantNames
    · have hword := tidies_constant hq hconstant
      rw [hword.unquoted]
      refine ⟨_, hword, .inr ⟨.ofPrimary (.name (String.ofList body)), ?_⟩⟩
      have hall : ∀ name ∈ constantNames,
          tokensOf name = some [⟨.path, String.ofList name⟩] := by decide +kernel
      exact hall body hconstant
    · have hword := tidies_quotation hq hbody hconstant
      rw [hword.unquoted]
      refine ⟨_, hword, .inr ⟨.ofPrimary (.text (String.ofList
        (q :: (tidied (some q) (unquoteConstants 0 body) ++ [q])))), tokensOf_quoted hq ?_ []⟩⟩
      exact fun h => not_mem_unquote hbody 0 (quote_of_mem_tidied hq h)
  | @path c hstart rest hrest =>
    have hpath := isPathChar_of_start hstart
    have hword : Text.isWordChar c = true := by
      have hrange := pathChar_range hpath
      rwa [Text.isWordChar, Text.isLetterOrNumber, if_pos (by omega)]
    have hwords : ∀ d ∈ c :: rest, Text.isWordChar d = true ∨ d = '.' :=
      List.forall_mem_cons.mpr ⟨.inl hword, hrest⟩
    obtain ⟨hunquoted, hfree⟩ := free_of_isWordChar hwords
    have htidies : Tidies (c :: rest) (c :: rest) ((c :: rest).filter isSafe) := by
      refine tidies_of_free hunquoted hfree fun d hd => ?_
      obtain rfl : c = d := by simpa using hd
      exact not_blank_of_wordChar (.inl hpath)
    have hfilter : WordChars (rest.filter isSafe) := fun d hd => by
      obtain ⟨hd, hsafe⟩ := List.mem_filter.mp hd
      exact (hrest d hd).imp_left (isPathChar_of_isSafe hsafe)
    rw [List.filter_cons_of_pos (isSafe_of_wordChar (.inl hpath))] at htidies
    rw [unquote_of_unquoted hunquoted]
    refine ⟨_, htidies, (tokensOf_path hstart hfilter).imp_right fun h => ?_⟩
    exact ⟨.ofPrimary (.name (String.ofList (c :: rest.filter isSafe))), h⟩

/-! ## Both sides -/

/-- The text starts with a constant as a word of its own, in quotes or without. -/
def StartsWithConstant (text : String) : Prop :=
  (leadingConstant? (unquoteConstants 0 text.toList)).isSome = true

instance (text : String) : Decidable (StartsWithConstant text) :=
  inferInstanceAs (Decidable (_ = _))

/-- The word stands for a value that clashes with the constant, and starts with no constant. -/
def ClashesIn (context : Json) (w : Keyword) (x : String) : Prop :=
  ∃ y v, Template.resolve x context = .ok y ∧ ¬ StartsWithConstant y ∧
    value x context = .ok v ∧ w.Clashes v

/-- A word has the value of its token. -/
theorem value_word {text word : String} {context : Json} {y z : List Char}
    (hfilled : Template.resolve text context = .ok word) (hword : Tidies word.toList y z)
    {t : Tree .signed} (ht : tokensOf z = some t.tokens) :
    value text context = t.reading context false := by
  let tree : Tree .disjunction := .ofConjunction (.ofNegation (.ofComparison (.ofSigned t)))
  have htokens : tokenize (normalize word) = .ok tree.tokens := by
    rw [tokenize_eq_ok, normalize, String.toList_ofList, normalizeChars_eq, hword.unquoted,
      hword.tidied, ht]
    rfl
  exact HasTokens.value_eq ⟨_, hfilled, htokens⟩ |>.trans (valueOfTokens_tokens context tree)

/-- A word that cannot be cut into tokens has no value. -/
theorem value_uncut {text word : String} {context : Json} {y z : List Char}
    (hfilled : Template.resolve text context = .ok word) (hword : Tidies word.toList y z)
    (h : tokensOf z = none) (v : Operand) : value text context ≠ .ok v := by
  have hnone : tokensOf (normalize word).toList = none := by
    rw [normalize, String.toList_ofList, normalizeChars_eq, hword.unquoted, hword.tidied, h]
  cases htokens : tokenize (normalize word) with
  | error e => simp [value, hfilled, htokens]
  | ok tokens => simp [tokenize_eq_ok, hnone] at htokens

theorem Keyword.tidies (w : Keyword) :
    Tidies w.name.toList w.name.toList w.name.toList :=
  (w.whole_name.wordChars (.inr rfl)).tidies

theorem Keyword.reading (w : Keyword) (context : Json) :
    (Tree.ofPrimary (.name w.name)).reading context false = .ok (some w.value) := by
  rw [Tree.reading, Tree.reading, pathValue, w.constant?_name]

/-- Both loose comparisons and what they are tightened to come from loose and from strict equality
in the same way. -/
theorem verdict_of_loose {c : Comparison} (hc : c = .equal ∨ c = .unequal) :
    ∃ f : Bool → Bool, f.Injective ∧ (∀ a b, c.verdict a b = (looseEqual a b).map f) ∧
      ∀ a b, c.tightened.verdict a b = (strictEqual a b).map f := by
  have hmap : ∀ r : Except Fault Bool, r = r.map id := fun r => by cases r <;> rfl
  rcases hc with rfl | rfl
  · exact ⟨id, fun _ _ h => h, fun _ _ => hmap _, fun _ _ => hmap _⟩
  · exact ⟨(!·), fun a b h => by simpa using h, fun _ _ => rfl, fun _ _ => rfl⟩

section

variable {x : String} {context : Json} {c : Comparison}

theorem Keyword.resolve_written (w : Keyword) (c : Comparison) (x : String) (context : Json) :
    Template.resolve (c.written x w.name) context =
        (Template.resolve x context).map (c.written · w.name) ∧
      Template.resolve (c.written w.name x) context =
        (Template.resolve x context).map (c.written w.name ·) := by
  have hchars := w.whole_name.wordChars (.inr rfl)
  have hopen : '\x7b' ∉ w.name.toList := hchars.not_mem (by decide) (by decide)
  have hclose : '\x7d' ∉ w.name.toList := hchars.not_mem (by decide) (by decide)
  exact ⟨resolve_written_left hopen hclose c x context, resolve_written_right hopen c x context⟩

/-- The constant is always tightened on the right, and on the left only for a word that starts with
a constant itself. -/
theorem evaluate_sides (w : Keyword) {y z : List Char} {word : String}
    (hfilled : Template.resolve x context = .ok word) (hword : Tidies word.toList y z)
    {t : Tree .signed} (ht : tokensOf z = some t.tokens) :
    evaluate (.string (c.written x w.name)) context =
        (t.reading context false).bind (c.tightened.verdict · (some w.value)) ∧
      evaluate (.string (c.written w.name x)) context =
        (t.reading context false).bind ((c.before y).verdict (some w.value)) := by
  obtain ⟨hleft, hright⟩ := w.resolve_written c x context
  rw [hfilled] at hleft hright
  have hbefore : c.before w.name.toList = c.tightened := if_pos w.leadingConstant?_name
  constructor
  · rw [evaluate_compared t (.ofPrimary (.name w.name)) hleft hword w.tidies ht
      w.whole_name.tokensOf, w.reading, hbefore]
    rfl
  · rw [evaluate_compared (.ofPrimary (.name w.name)) t hright w.tidies hword
      w.whole_name.tokensOf ht, w.reading]
    rfl

/-- Comparing a word with a constant gives the same from either side, or fails from both, exactly
where the value of the word does not clash with the constant or the word starts with a constant
itself. -/
theorem sides_agree_iff (hword : ∀ y, Template.resolve x context = .ok y → Word y.toList)
    (w : Keyword) (hc : c = .equal ∨ c = .unequal) :
    (evaluate (.string (c.written x w.name)) context).toOption =
        (evaluate (.string (c.written w.name x)) context).toOption ↔
      ¬ ClashesIn context w x := by
  obtain ⟨hleft, hright⟩ := w.resolve_written c x context
  cases hx : Template.resolve x context with
  | error e =>
    have hfree : ¬ ClashesIn context w x := by
      rintro ⟨y, v, hy, -⟩
      rw [hx] at hy
      cases hy
    rw [hx] at hleft hright
    simp [evaluate, value, hleft, hright, Except.map, Except.toOption, hfree]
  | ok y =>
    obtain ⟨z, htidies, hnone | ⟨t, ht⟩⟩ := (hword y hx).tidies
    · have hfree : ¬ ClashesIn context w x := by
        rintro ⟨y', v, -, -, hv, -⟩
        exact value_uncut hx htidies hnone v hv
      rw [hx] at hleft hright
      obtain ⟨e, he⟩ := evaluate_uncut hleft htidies w.tidies (.inl hnone)
      obtain ⟨e', he'⟩ := evaluate_uncut hright w.tidies htidies (.inr hnone)
      simp [he, he', Except.toOption, hfree]
    · have hvalue := value_word hx htidies ht
      obtain ⟨hright, hleft⟩ := evaluate_sides (c := c) w hx htidies ht
      rw [hright, hleft]
      cases hreading : t.reading context false with
      | error e =>
        have hfree : ¬ ClashesIn context w x := by
          rintro ⟨y', v, -, -, hv, -⟩
          rw [hvalue, hreading] at hv
          cases hv
        simp [Except.bind, Except.toOption, hfree]
      | ok v =>
        have hclashes : ClashesIn context w x ↔ ¬ StartsWithConstant y ∧ w.Clashes v := by
          simp [ClashesIn, hx, hvalue, hreading]
        obtain ⟨f, hf, hloose, hstrict⟩ := verdict_of_loose hc
        simp only [Except.bind, hstrict, hclashes]
        by_cases hstarts : StartsWithConstant y
        · have hbefore : c.before (unquoteConstants 0 y.toList) = c.tightened := if_pos hstarts
          rw [hbefore, hstrict, (w.strictEqual_eq v).1, (w.strictEqual_eq v).2]
          simp [hstarts]
        · have hbefore : c.before (unquoteConstants 0 y.toList) = c := if_neg hstarts
          rw [hbefore, hloose, toOption_map, toOption_map, (Option.map_injective hf).eq_iff,
            w.agree_iff]
          simp [hstarts]

/-- The score 5 is compared with true alike from both sides, and the score 1 is not. -/
theorem sides_agree_score :
    let context (score : Int) := Json.object [("score", .int score)]
    (∀ score y, Template.resolve "score" (context score) = .ok y → Word y.toList) ∧
      ¬ ClashesIn (context 5) (.bool true) "score" ∧
      (evaluate (.string "score == true") (context 5)).toOption =
        (evaluate (.string "true == score") (context 5)).toOption ∧
      (evaluate (.string "score == true") (context 1)).toOption ≠
        (evaluate (.string "true == score") (context 1)).toOption := by
  intro context
  have hword : ∀ score y, Template.resolve "score" (context score) = .ok y → Word y.toList := by
    intro score y hy
    obtain rfl : "score" = y := by
      rw [Template.resolve_of_not_mem (by simp)] at hy
      exact Except.ok.inj hy
    have hletters : "score".toList = ['s', 'c', 'o', 'r', 'e'] := rfl
    rw [hletters]
    exact .path (by decide) (by simp [Text.isWordChar, Text.isLetterOrNumber])
  have hvalue : value "score" (context 5) = .ok (some (.int 5)) := by
    have hwhole : (⟨.path, "score"⟩ : Token).Whole := by decide +kernel
    have hfilled : Template.resolve "score" (context 5) = .ok "score" :=
      Template.resolve_of_not_mem (by simp) (context 5)
    exact (value_word (t := .ofPrimary (.name "score")) hfilled
      (hwhole.wordChars (.inr rfl)).tidies hwhole.tokensOf).trans
      (reading_name hwhole rfl rfl)
  have hfree : ¬ ClashesIn (context 5) (.bool true) "score" := by
    rintro ⟨y, v, -, -, hv, -, hequal⟩
    obtain rfl := Except.ok.inj (hvalue.symm.trans hv)
    have hfive : toNumber (some (.int 5)) = .ok (Double.ofRatio false 5 1) := by decide +kernel
    exact absurd (hequal _ hfive) (by decide +kernel)
  have hagree := (sides_agree_iff (hword 5) (.bool true) (.inl rfl)).2 hfree
  exact ⟨hword, hfree, hagree, by decide +kernel⟩

end

end Condition

end LeadDesk
