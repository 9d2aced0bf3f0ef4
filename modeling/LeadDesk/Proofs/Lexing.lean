import LeadDesk.Proofs.Words
import Mathlib.Data.List.Find
/-!
# Cutting an expression into tokens

What is cut off as a token is whole: cut again by itself it is the same token
(`whole_of_tokenize`). Where in the text a token stands only matters for the wording of a
fault, so the tokens of characters are looked at without it (`tokensOf`).

No token but a quoted text has a blank or a quote in it. Blanks and quotes are therefore
boundaries (`IsBoundary`): what stands before one is cut without looking at it
(`tokensOf_append_boundary`), and a text in quotes is one token, whatever it holds
(`tokensOf_quoted`).
-/

namespace LeadDesk

namespace Condition

/-- A mark that texts are quoted with. -/
def isQuote (c : Char) : Bool := c == '"' || c == '\''

/-- There are no quotes among the characters. -/
def Unquoted (cs : List Char) : Prop := ∀ c ∈ cs, isQuote c = false

theorem Unquoted.tail {c : Char} {cs : List Char} (h : Unquoted (c :: cs)) : Unquoted cs :=
  fun x hx => h x (List.mem_cons_of_mem c hx)

theorem Unquoted.append {xs ys : List Char} (hx : Unquoted xs) (hy : Unquoted ys) :
    Unquoted (xs ++ ys) :=
  fun c hc => (List.mem_append.mp hc).elim (hx c) (hy c)

theorem Unquoted.not_mem {cs : List Char} (h : Unquoted cs) {q : Char} (hq : isQuote q = true) :
    q ∉ cs := fun hmem => by simp [h q hmem] at hq

/-- The two quotes are neither digits nor blanks, and no word or operator has one. -/
theorem isQuote_iff {c : Char} : isQuote c = true ↔ c = '"' ∨ c = '\'' := by
  simp [isQuote]

section

variable {q : Char}

theorem takeWhile_append_boundary {p : Char → Bool} (hq : p q = false) (cs rest : List Char) :
    (cs ++ q :: rest).takeWhile p = cs.takeWhile p := by
  induction cs with
  | nil => simp [hq]
  | cons c cs ih => simp only [List.cons_append, List.takeWhile_cons, ih]

/-- What stands behind a character that a word does not have is no part of the word. -/
theorem isPrefixOf_append_boundary {word : List Char} (hq : q ∉ word) (cs rest : List Char) :
    word.isPrefixOf (cs ++ q :: rest) = word.isPrefixOf cs := by
  induction word generalizing cs with
  | nil => simp
  | cons w word ih =>
    simp only [List.mem_cons, not_or] at hq
    cases cs with
    | nil => simp [List.isPrefixOf, Ne.symm hq.1]
    | cons c cs => simp only [List.cons_append, List.isPrefixOf, ih hq.2]

end

/-! ### Tokens are whole -/

theorem pathTail_cons {c : Char} (h : isPathChar c = true) (cs : List Char) :
    pathTail (c :: cs) = c :: pathTail cs := by
  have hpoint : c ≠ '.' := by rintro rfl; exact absurd h (by decide)
  rw [pathTail, if_pos h]
  exact fun _ _ heq _ => hpoint heq

/-- A path ends before what is no character of it. -/
theorem pathTail_of_stop {c : Char} {rest : List Char}
    (hpoint : ∀ d later, c = '.' → rest = d :: later → False) (h : ¬ isPathChar c = true) :
    pathTail (c :: rest) = [] := by
  rw [pathTail, if_neg h]
  exact hpoint

theorem pathTail_pathTail (cs : List Char) : pathTail (pathTail cs) = pathTail cs := by
  induction cs using pathTail.induct with
  | case1 => rfl
  | case2 c rest h ih =>
    have htail := pathTail_cons h rest
    rw [htail] at ih
    simp only [pathTail, h, if_true, htail, ih]
  | case3 c rest h => simp [pathTail, h]
  | case4 c rest hpoint h ih => rw [pathTail_cons h, pathTail_cons h, ih]
  | case5 c rest hpoint h => rw [pathTail_of_stop hpoint h, pathTail]

/-- Digits with a fraction behind them are a number. -/
theorem numberChars_fraction {whole fraction : List Char}
    (hwhole : ∀ c ∈ whole, Text.isAsciiDigit c = true) (hne : fraction ≠ [])
    (hfraction : ∀ c ∈ fraction, Text.isAsciiDigit c = true) :
    numberChars (whole ++ '.' :: fraction) = whole ++ '.' :: fraction := by
  have htake : (whole ++ '.' :: fraction).takeWhile Text.isAsciiDigit = whole := by
    rw [takeWhile_append_boundary (by decide), List.takeWhile_eq_self_iff.mpr hwhole]
  have htake' : fraction.takeWhile Text.isAsciiDigit = fraction :=
    List.takeWhile_eq_self_iff.mpr hfraction
  obtain ⟨c, cs, rfl⟩ := List.exists_cons_of_ne_nil hne
  simp only [numberChars, htake, List.drop_left, htake']

theorem numberChars_digits {whole : List Char} (h : ∀ c ∈ whole, Text.isAsciiDigit c = true) :
    numberChars whole = whole := by
  simp [numberChars, List.takeWhile_eq_self_iff.mpr h]

theorem numberChars_numberChars (cs : List Char) :
    numberChars (numberChars cs) = numberChars cs := by
  have hwhole : ∀ c ∈ cs.takeWhile Text.isAsciiDigit, Text.isAsciiDigit c = true :=
    List.all_eq_true.mp List.all_takeWhile
  rw [numberChars.eq_1 cs]
  split
  next rest _ =>
    split
    · exact numberChars_digits hwhole
    next fraction hne =>
      exact numberChars_fraction hwhole (fun h => hne h) (List.all_eq_true.mp List.all_takeWhile)
  next => exact numberChars_digits hwhole

/-- A number starts with its digit. -/
theorem exists_numberChars_cons {c : Char} (h : Text.isAsciiDigit c = true) (rest : List Char) :
    ∃ digits, numberChars (c :: rest) = c :: digits := by
  rcases numberChars_cases (c :: rest) with heq | ⟨fraction, -, heq⟩
  · exact ⟨_, by rw [heq, List.takeWhile_cons, if_pos h]⟩
  · exact ⟨_, by rw [heq, List.takeWhile_cons, if_pos h, List.cons_append]⟩

theorem token?_number {c : Char} (h : Text.isAsciiDigit c = true) (rest : List Char) :
    token? (c :: rest) = some ⟨.number, String.ofList (numberChars (c :: rest))⟩ := by
  rw [token?, if_pos h]

theorem isAsciiDigit_of_isQuote {q : Char} (h : isQuote q = true) :
    Text.isAsciiDigit q = false := by
  rcases isQuote_iff.mp h with rfl | rfl <;> decide

/-- Between two quotes of one kind stands one token. -/
theorem token?_quoted {q : Char} (hq : isQuote q = true) {body : List Char} (hbody : q ∉ body)
    (rest : List Char) :
    token? (q :: (body ++ q :: rest)) = some ⟨.text, String.ofList (q :: (body ++ [q]))⟩ := by
  have htake : (body ++ q :: rest).takeWhile (· != q) = body := by
    rw [takeWhile_append_boundary (by simp), List.takeWhile_eq_self_iff]
    intro c hc
    simpa using fun h : c = q => hbody (h ▸ hc)
  have hquote : (q == '"' || q == '\'') = true := hq
  simp [token?, isAsciiDigit_of_isQuote hq, hquote, htake]

/-- A quote that is not closed starts no token. -/
theorem token?_unclosed {q : Char} (hq : isQuote q = true) {body : List Char} (hbody : q ∉ body) :
    token? (q :: body) = none := by
  have htake : body.takeWhile (· != q) = body := by
    rw [List.takeWhile_eq_self_iff]
    intro c hc
    simpa using fun h : c = q => hbody (h ▸ hc)
  have hquote : (q == '"' || q == '\'') = true := hq
  simp [token?, isAsciiDigit_of_isQuote hq, hquote, htake]

theorem token?_path {c : Char} (hdigit : Text.isAsciiDigit c = false) (hquote : isQuote c = false)
    (hstart : (c.isAlpha || c == '_') = true) (rest : List Char) :
    token? (c :: rest) = some ⟨.path, String.ofList (c :: pathTail rest)⟩ := by
  have hquote : (c == '"' || c == '\'') = false := hquote
  rw [token?, hdigit, hquote, if_neg Bool.false_ne_true, if_neg Bool.false_ne_true, if_pos hstart]

/-- The token in front is a number, a text in quotes, a path or an operator. -/
theorem token?_cases {c : Char} {rest : List Char} {t : Token} (h : token? (c :: rest) = some t) :
    (Text.isAsciiDigit c = true ∧ t = ⟨.number, String.ofList (numberChars (c :: rest))⟩) ∨
    (isQuote c = true ∧ (rest.takeWhile (· != c)).length < rest.length ∧
      t = ⟨.text, String.ofList (c :: (rest.takeWhile (· != c) ++ [c]))⟩) ∨
    (Text.isAsciiDigit c = false ∧ isQuote c = false ∧ (c.isAlpha || c == '_') = true ∧
      t = ⟨.path, String.ofList (c :: pathTail rest)⟩) ∨
    ∃ o ∈ operators, o <+: c :: rest ∧ t = ⟨.operator, String.ofList o⟩ := by
  rw [token?] at h
  split at h
  next hdigit => exact .inl ⟨hdigit, (Option.some.inj h).symm⟩
  next hdigit =>
    refine .inr ?_
    split at h
    next hquote =>
      dsimp only at h
      split at h
      next hlength => exact .inl ⟨hquote, hlength, (Option.some.inj h).symm⟩
      next => cases h
    next hquote =>
      refine .inr ?_
      split at h
      next hstart =>
        exact .inl ⟨by simpa using hdigit, Bool.eq_false_iff.mpr hquote, hstart,
          (Option.some.inj h).symm⟩
      next =>
        obtain ⟨o, ho, rfl⟩ := Option.map_eq_some_iff.mp h
        have hfront := List.find?_some (p := fun o : List Char => o.isPrefixOf (c :: rest)) ho
        exact .inr ⟨o, List.mem_of_find?_eq_some ho, List.isPrefixOf_iff_prefix.mp hfront, rfl⟩

/-- A token that is cut off is whole. -/
theorem Token.whole_of_token? {cs : List Char} {t : Token} (h : token? cs = some t) : t.Whole := by
  cases cs with
  | nil => cases h
  | cons c rest =>
    rw [Whole]
    obtain ⟨hdigit, rfl⟩ | ⟨hquote, -, rfl⟩ | ⟨hdigit, hquote, hstart, rfl⟩ | ⟨o, ho, -, rfl⟩ :=
      token?_cases h
    · obtain ⟨digits, hdigits⟩ := exists_numberChars_cons hdigit rest
      have hsame := numberChars_numberChars (c :: rest)
      rw [hdigits] at hsame ⊢
      rw [String.toList_ofList, token?_number hdigit, hsame]
    · have hbody : c ∉ rest.takeWhile (· != c) := fun hmem => by
        simpa using List.all_eq_true.mp List.all_takeWhile c hmem
      rw [String.toList_ofList]
      exact token?_quoted hquote hbody []
    · rw [String.toList_ofList, token?_path hdigit hquote hstart, pathTail_pathTail]
    · have hoperators : ∀ o ∈ operators, token? o = some ⟨.operator, String.ofList o⟩ := by decide
      rw [String.toList_ofList]
      exact hoperators o ho

theorem whole_of_tokensFrom {cs : List Char} {skip index : Nat} {tokens : List Token}
    (h : tokensFrom skip index cs = .ok tokens) : ∀ token ∈ tokens, token.Whole := by
  induction cs generalizing skip index tokens with
  | nil =>
    obtain rfl : [] = tokens := by simpa [tokensFrom] using h
    simp
  | cons c rest ih =>
    cases skip with
    | succ skip => exact ih (by simpa only [tokensFrom] using h)
    | zero =>
      rw [tokensFrom] at h
      split at h
      · exact ih h
      · cases htoken : token? (c :: rest) with
        | none => simp [htoken] at h
        | some t =>
          simp only [htoken] at h
          cases hrest : tokensFrom (t.text.length - 1) (index + 1) rest with
          | error e => simp [hrest, Except.map] at h
          | ok later =>
            obtain rfl : t :: later = tokens := by simpa [hrest, Except.map] using h
            exact List.forall_mem_cons.mpr ⟨Token.whole_of_token? htoken, ih hrest⟩

/-- The tokens of a text are whole. -/
theorem whole_of_tokenize {text : String} {tokens : List Token} (h : tokenize text = .ok tokens) :
    ∀ token ∈ tokens, token.Whole := whole_of_tokensFrom h

/-- The tokens of a condition, once its placeholders are filled. -/
def HasTokens (context : Json) (text : String) (tokens : List Token) : Prop :=
  ∃ filled, Template.resolve text context = .ok filled ∧ tokenize (normalize filled) = .ok tokens

instance (context : Json) (text : String) (tokens : List Token) :
    Decidable (HasTokens context text tokens) :=
  decidable_of_iff (∃ filled ∈ (Template.resolve text context).toOption,
    tokenize (normalize filled) = .ok tokens) (by
      cases h : Template.resolve text context <;> simp [HasTokens, h, Except.toOption])

theorem HasTokens.whole {context : Json} {text : String} {tokens : List Token}
    (h : HasTokens context text tokens) : ∀ token ∈ tokens, token.Whole := by
  obtain ⟨filled, -, htokens⟩ := h
  exact whole_of_tokenize htokens

/-- The value of a condition is that of its tokens. -/
theorem HasTokens.value_eq {context : Json} {text : String} {tokens : List Token}
    (h : HasTokens context text tokens) : value text context = valueOfTokens context tokens := by
  obtain ⟨filled, hfilled, htokens⟩ := h
  simp only [value, hfilled, htokens]

/-! ### Boundaries -/

/-- The tokens of characters, if they can be cut into tokens. -/
def tokensOf (cs : List Char) : Option (List Token) := (tokensFrom 0 0 cs).toOption

theorem tokenize_eq_ok {text : String} {tokens : List Token} :
    tokenize text = .ok tokens ↔ tokensOf text.toList = some tokens := by
  unfold tokenize tokensOf
  cases tokensFrom 0 0 text.toList <;> simp [Except.toOption]

theorem toOption_map {ε α β : Type} (r : Except ε α) (f : α → β) :
    (r.map f).toOption = r.toOption.map f := by
  cases r <;> rfl

/-- Where characters stand makes no difference to their tokens. -/
theorem toOption_tokensFrom (skip index : Nat) (cs : List Char) :
    (tokensFrom skip index cs).toOption = tokensOf (cs.drop skip) := by
  induction cs generalizing skip index with
  | nil => cases skip <;> rfl
  | cons c rest ih =>
    cases skip with
    | succ skip => exact ih skip (index + 1)
    | zero =>
      simp only [tokensOf, List.drop_zero, tokensFrom]
      split
      · rw [ih, ih]
      · cases token? (c :: rest) with
        | none => rfl
        | some t => simp only [toOption_map, ih]

theorem tokensOf_cons (c : Char) (rest : List Char) :
    tokensOf (c :: rest) = if Text.isBlank c then tokensOf rest
      else (token? (c :: rest)).bind fun t =>
        (tokensOf (rest.drop (t.text.length - 1))).map (t :: ·) := by
  rw [tokensOf, tokensFrom]
  split
  · exact toOption_tokensFrom 0 1 rest
  · cases token? (c :: rest) with
    | none => rfl
    | some t => simp only [toOption_map, toOption_tokensFrom, Option.bind_some]

theorem isBlank_of_isQuote {q : Char} (h : isQuote q = true) : Text.isBlank q = false := by
  rcases isQuote_iff.mp h with rfl | rfl <;> decide

theorem isPathChar_of_isQuote {q : Char} (h : isQuote q = true) : isPathChar q = false := by
  rcases isQuote_iff.mp h with rfl | rfl <;> decide

/-- A character at which every token ends that is no text in quotes. -/
structure IsBoundary (q : Char) : Prop where
  digit : Text.isAsciiDigit q = false
  path : isPathChar q = false
  point : q ≠ '.'
  operator : ∀ o ∈ operators, q ∉ o

theorem isBoundary_of_isQuote {q : Char} (h : isQuote q = true) : IsBoundary q where
  digit := isAsciiDigit_of_isQuote h
  path := isPathChar_of_isQuote h
  point := by rintro rfl; exact absurd h (by decide)
  operator := by
    have hoperators : ∀ o ∈ operators, Unquoted o := by simp [operators, Unquoted, isQuote]
    exact fun o ho => (hoperators o ho).not_mem h

/-- The characters of words and operators are no blanks. -/
theorem isBoundary_of_isBlank {q : Char} (h : Text.isBlank q = true) : IsBoundary q := by
  have hrange : ¬ (33 ≤ q.toNat ∧ q.toNat ≤ 126) := fun hq => by
    simp [not_blank_of_range hq.1 hq.2] at h
  have hoperators : ∀ o ∈ operators, ∀ c ∈ o, 33 ≤ c.toNat ∧ c.toNat ≤ 126 := by
    simp [operators]
  refine ⟨?_, ?_, ?_, fun o ho hmem => hrange (hoperators o ho q hmem)⟩
  · cases hdigit : Text.isAsciiDigit q with
    | false => rfl
    | true => have := isAsciiDigit_iff.mp hdigit; omega
  · cases hpath : isPathChar q with
    | false => rfl
    | true => have := pathChar_range hpath; omega
  · rintro rfl
    exact hrange (by decide)

/-- A number ends before what is neither a digit nor a point. -/
theorem numberChars_append_stop {q : Char} (hdigit : Text.isAsciiDigit q = false)
    (hpoint : q ≠ '.') (cs rest : List Char) :
    numberChars (cs ++ q :: rest) = numberChars cs := by
  have hdrop : (cs ++ q :: rest).drop (cs.takeWhile Text.isAsciiDigit).length =
      cs.drop (cs.takeWhile Text.isAsciiDigit).length ++ q :: rest :=
    List.drop_append_of_le_length (List.takeWhile_prefix _).length_le
  simp only [numberChars, takeWhile_append_boundary hdigit, hdrop]
  cases cs.drop (cs.takeWhile Text.isAsciiDigit).length with
  | nil => simp [hpoint]
  | cons c after =>
    by_cases hc : c = '.'
    · subst hc
      simp only [List.cons_append, takeWhile_append_boundary hdigit]
    · simp [hc]

theorem pathTail_append_boundary {q : Char} (hq : IsBoundary q) (cs rest : List Char) :
    pathTail (cs ++ q :: rest) = pathTail cs := by
  have hstop : pathTail (q :: rest) = [] :=
    pathTail_of_stop (fun _ _ heq _ => hq.point heq) (by simp [hq.path])
  induction cs using pathTail.induct with
  | case1 => exact hstop
  | case2 c cs h ih =>
    simpa only [List.cons_append, pathTail, h, if_true, List.cons.injEq, true_and] using ih
  | case3 c cs h => simp [pathTail, h]
  | case4 c cs hpoint h ih => rw [List.cons_append, pathTail_cons h, pathTail_cons h, ih]
  | case5 c cs hpoint h =>
    have hbounded : pathTail (c :: (cs ++ q :: rest)) = [] := by
      by_cases hc : c = '.'
      · subst hc
        cases cs with
        | nil => simp [pathTail, hq.path]
        | cons d cs => exact absurd rfl (hpoint d cs rfl)
      · exact pathTail_of_stop (fun _ _ heq _ => hc heq) h
    rw [List.cons_append, hbounded, pathTail_of_stop hpoint h]

/-- The token in front of a text without quotes ends before a boundary behind it. -/
theorem token?_append_boundary {q : Char} (hq : IsBoundary q) {c : Char}
    (hc : isQuote c = false) (cs rest : List Char) :
    token? (c :: (cs ++ q :: rest)) = token? (c :: cs) := by
  have hnumber := numberChars_append_stop hq.digit hq.point (c :: cs) rest
  have hfind : operators.find? (·.isPrefixOf (c :: (cs ++ q :: rest))) =
      operators.find? (·.isPrefixOf (c :: cs)) :=
    List.find?_congr fun o ho => isPrefixOf_append_boundary (hq.operator o ho) (c :: cs) rest
  have hquote : (c == '"' || c == '\'') = false := hc
  rw [List.cons_append] at hnumber
  simp only [token?, hnumber, pathTail_append_boundary hq, hfind, hquote, Bool.false_eq_true,
    if_false]

/-! ### Tokens stand in front -/

theorem numberChars_starts (cs : List Char) : numberChars cs <+: cs := by
  have hsplit := List.prefix_iff_eq_append.mp (List.takeWhile_prefix (l := cs) Text.isAsciiDigit)
  rw [numberChars.eq_1 cs]
  split
  next rest hrest =>
    split
    · exact List.takeWhile_prefix _
    next fraction hne =>
      obtain ⟨after, hafter⟩ := List.takeWhile_prefix (l := rest) Text.isAsciiDigit
      refine ⟨after, ?_⟩
      rw [List.append_assoc, List.cons_append, hafter, ← hrest, hsplit]
  next => exact List.takeWhile_prefix _

theorem pathTail_starts (cs : List Char) : pathTail cs <+: cs := by
  induction cs using pathTail.induct with
  | case1 => exact List.prefix_refl _
  | case2 c rest h ih =>
    rw [pathTail, if_pos h]
    exact List.cons_prefix_cons.mpr ⟨rfl, ih⟩
  | case3 c rest h => simp [pathTail, h]
  | case4 c rest hpoint h ih =>
    rw [pathTail_cons h]
    exact List.cons_prefix_cons.mpr ⟨rfl, ih⟩
  | case5 c rest hpoint h =>
    rw [pathTail_of_stop hpoint h]
    exact List.nil_prefix

/-- A body that ends before its list does ends at the closing quote. -/
theorem takeWhile_quote_starts {q : Char} {cs : List Char}
    (h : (cs.takeWhile (· != q)).length < cs.length) : cs.takeWhile (· != q) ++ [q] <+: cs := by
  induction cs with
  | nil => simp at h
  | cons c cs ih =>
    by_cases hc : c = q
    · simp [hc]
    · have hne : (c != q) = true := by simpa using hc
      rw [List.takeWhile_cons, if_pos hne] at h ⊢
      exact List.cons_prefix_cons.mpr ⟨rfl, ih (by simpa using h)⟩

/-- The characters of a token stand in front. -/
theorem token?_starts {cs : List Char} {t : Token} (h : token? cs = some t) :
    t.text.toList <+: cs := by
  cases cs with
  | nil => cases h
  | cons c rest =>
    obtain ⟨-, rfl⟩ | ⟨-, hlength, rfl⟩ | ⟨-, -, -, rfl⟩ | ⟨o, -, ho, rfl⟩ := token?_cases h
    · rw [String.toList_ofList]
      exact numberChars_starts _
    · rw [String.toList_ofList]
      exact List.cons_prefix_cons.mpr ⟨rfl, takeWhile_quote_starts hlength⟩
    · rw [String.toList_ofList]
      exact List.cons_prefix_cons.mpr ⟨rfl, pathTail_starts rest⟩
    · rwa [String.toList_ofList]

/-- Characters without quotes before a boundary are cut without what stands behind them. -/
theorem tokensOf_append_boundary {q : Char} (hq : IsBoundary q) {cs : List Char}
    (hcs : Unquoted cs) (rest : List Char) :
    tokensOf (cs ++ q :: rest) =
      (tokensOf cs).bind fun tokens => (tokensOf (q :: rest)).map (tokens ++ ·) := by
  -- By induction on the length, since a token takes several characters at once.
  induction hlength : cs.length using Nat.strongRecOn generalizing cs with
  | _ n ih =>
  subst hlength
  cases cs with
  | nil => simp [tokensOf, tokensFrom, Except.toOption]
  | cons c cs =>
    rw [List.cons_append, tokensOf_cons, tokensOf_cons,
      token?_append_boundary hq (hcs c List.mem_cons_self)]
    split
    · exact ih cs.length (by simp) hcs.tail rfl
    · cases htoken : token? (c :: cs) with
      | none => rfl
      | some t =>
        have hle : t.text.length - 1 ≤ cs.length := by
          have := (token?_starts htoken).length_le
          rw [String.length_toList, List.length_cons] at this
          omega
        have hshorter : (cs.drop (t.text.length - 1)).length < (c :: cs).length := by
          rw [List.length_drop, List.length_cons]
          omega
        have ih := ih (cs.drop (t.text.length - 1)).length hshorter
          (fun x hx => hcs.tail x (List.mem_of_mem_drop hx)) rfl
        simp only [Option.bind_some, List.drop_append_of_le_length hle, ih]
        cases tokensOf (cs.drop (t.text.length - 1)) with
        | none => rfl
        | some tokens =>
          cases tokensOf (q :: rest) <;> rfl

theorem tokensOf_append_quote {q : Char} (hq : isQuote q = true) {cs : List Char}
    (hcs : Unquoted cs) (rest : List Char) :
    tokensOf (cs ++ q :: rest) =
      (tokensOf cs).bind fun tokens => (tokensOf (q :: rest)).map (tokens ++ ·) :=
  tokensOf_append_boundary (isBoundary_of_isQuote hq) hcs rest

/-- A text in quotes is one token, and what follows is cut by itself. -/
theorem tokensOf_quoted {q : Char} (hq : isQuote q = true) {body : List Char} (hbody : q ∉ body)
    (rest : List Char) :
    tokensOf (q :: (body ++ q :: rest)) =
      (tokensOf rest).map (⟨.text, String.ofList (q :: (body ++ [q]))⟩ :: ·) := by
  have hlength : (String.ofList (q :: (body ++ [q]))).length - 1 = (body ++ [q]).length := by
    simp [← String.length_toList]
  have hdrop : (body ++ q :: rest).drop (body ++ [q]).length = rest := by
    rw [show body ++ q :: rest = (body ++ [q]) ++ rest by simp, List.drop_left]
  rw [tokensOf_cons, isBlank_of_isQuote hq, token?_quoted hq hbody]
  simp only [Bool.false_eq_true, if_false, Option.bind_some, hlength, hdrop]

/-- Characters with a quote that is not closed cannot be cut into tokens. -/
theorem tokensOf_unclosed {q : Char} (hq : isQuote q = true) {body : List Char}
    (hbody : q ∉ body) : tokensOf (q :: body) = none := by
  rw [tokensOf_cons, isBlank_of_isQuote hq, token?_unclosed hq hbody]
  rfl

end Condition

end LeadDesk
