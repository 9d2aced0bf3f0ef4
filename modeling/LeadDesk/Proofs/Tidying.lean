import LeadDesk.Proofs.Lexing
/-!
# Tidying a text with quotes

What the steps of tidying do at a quote. Tightening comparisons and leaving characters out do
not look from one side of a quote to the other (`tidied_append_quote`). Taking quotes off
constants does: a quotation that is just a constant loses its quotes (`unquote_constant`),
any other keeps its first quote (`unquote_quotation`), and the quote that closes it may itself
start a quoted constant, which merges the quotation with the next one (`unquote_closing`).
-/

namespace LeadDesk

namespace Condition

/-! ### Taking quotes off constants -/

theorem unquoted_of_constant {name : List Char} (h : name ∈ constantNames) : Unquoted name := by
  have hall : ∀ name ∈ constantNames, Unquoted name := by simp [constantNames, Unquoted, isQuote]
  exact hall name h

theorem quotedConstant?_of_not_quote {c : Char} (hc : isQuote c = false) (cs : List Char) :
    quotedConstant? (c :: cs) = none := by
  have hc : (c == '"' || c == '\'') = false := hc
  rw [quotedConstant?, hc, if_neg Bool.false_ne_true]

theorem quotedConstant?_quote {q : Char} (hq : isQuote q = true) (cs : List Char) :
    quotedConstant? (q :: cs) = constantNames.find? fun name => (name ++ [q]).isPrefixOf cs := by
  have hq : (q == '"' || q == '\'') = true := hq
  rw [quotedConstant?, hq, if_pos rfl]

/-- Whether a constant stands in front between quotes of one kind is not told by what stands behind
a quote of the other kind. -/
theorem quotedConstant?_append_quote {c q : Char} (hne : c ≠ q) (hq : isQuote q = true)
    (cs rest : List Char) :
    quotedConstant? (c :: (cs ++ q :: rest)) = quotedConstant? (c :: cs) := by
  cases hc : isQuote c with
  | false => rw [quotedConstant?_of_not_quote hc, quotedConstant?_of_not_quote hc]
  | true =>
    rw [quotedConstant?_quote hc, quotedConstant?_quote hc]
    refine List.find?_congr fun name hname => ?_
    refine isPrefixOf_append_boundary (fun hmem => ?_) cs rest
    rcases List.mem_append.mp hmem with hmem | hmem
    · exact (unquoted_of_constant hname).not_mem hq hmem
    · exact hne (List.mem_singleton.mp hmem).symm

/-- A quoted constant and its closing quote stand in front. -/
theorem quotedConstant?_eq_some {c : Char} {cs name : List Char}
    (h : quotedConstant? (c :: cs) = some name) :
    isQuote c = true ∧ name ∈ constantNames ∧ ∃ rest, cs = name ++ c :: rest := by
  cases hc : isQuote c with
  | false => rw [quotedConstant?_of_not_quote hc] at h; cases h
  | true =>
    rw [quotedConstant?_quote hc] at h
    obtain ⟨rest, hrest⟩ := List.isPrefixOf_iff_prefix.mp
      (List.find?_some (p := fun name : List Char => (name ++ [c]).isPrefixOf cs) h)
    exact ⟨rfl, List.mem_of_find?_eq_some h, rest, by rw [← hrest]; simp⟩

theorem append_cons_inj {q : Char} {xs ys xs' ys' : List Char} (hx : q ∉ xs) (hy : q ∉ ys)
    (h : xs ++ q :: xs' = ys ++ q :: ys') : xs = ys ∧ xs' = ys' := by
  induction xs generalizing ys with
  | nil =>
    cases ys with
    | nil => exact ⟨rfl, (List.cons.inj h).2⟩
    | cons y ys => exact absurd (by simp [(List.cons.inj h).1]) hy
  | cons x xs ih =>
    cases ys with
    | nil => exact absurd (by simp [(List.cons.inj h).1]) hx
    | cons y ys =>
      obtain ⟨rfl, htail⟩ := List.cons.inj h
      obtain ⟨rfl, rfl⟩ := ih (fun h => hx (List.mem_cons_of_mem _ h))
        (fun h => hy (List.mem_cons_of_mem _ h)) htail
      exact ⟨rfl, rfl⟩

/-- Only a quotation that is just a constant loses its quotes. -/
theorem quotedConstant?_quotation {q : Char} (hq : isQuote q = true) {b : List Char} (hb : q ∉ b)
    (rest : List Char) : quotedConstant? (q :: (b ++ q :: rest)) =
      if b ∈ constantNames then some b else none := by
  cases h : quotedConstant? (q :: (b ++ q :: rest)) with
  | some name =>
    obtain ⟨-, hname, after, hafter⟩ := quotedConstant?_eq_some h
    obtain ⟨rfl, -⟩ := append_cons_inj hb ((unquoted_of_constant hname).not_mem hq) hafter
    rw [if_pos hname]
  | none =>
    rw [quotedConstant?_quote hq, List.find?_eq_none] at h
    rw [if_neg]
    intro hmem
    have := h b hmem
    simp [List.isPrefixOf_iff_prefix] at this

theorem unquote_of_none {c : Char} {rest : List Char} (h : quotedConstant? (c :: rest) = none) :
    unquoteConstants 0 (c :: rest) = c :: unquoteConstants 0 rest := by
  rw [unquoteConstants, h]

theorem unquote_of_some {c : Char} {rest name : List Char}
    (h : quotedConstant? (c :: rest) = some name) :
    unquoteConstants 0 (c :: rest) = name ++ unquoteConstants (name.length + 1) rest := by
  rw [unquoteConstants, h]

theorem unquote_append {p : List Char} (hp : Unquoted p) (rest : List Char) :
    unquoteConstants 0 (p ++ rest) = p ++ unquoteConstants 0 rest := by
  induction p with
  | nil => rfl
  | cons c p ih =>
    have hnone := quotedConstant?_of_not_quote (hp c List.mem_cons_self) (p ++ rest)
    rw [List.cons_append, unquote_of_none hnone, ih hp.tail, List.cons_append]

theorem unquote_of_unquoted {cs : List Char} (h : Unquoted cs) : unquoteConstants 0 cs = cs := by
  have happend : unquoteConstants 0 (cs ++ []) = cs ++ [] := unquote_append h []
  rwa [List.append_nil] at happend

theorem unquote_skip (cs rest : List Char) :
    unquoteConstants cs.length (cs ++ rest) = unquoteConstants 0 rest := by
  induction cs with
  | nil => rfl
  | cons c cs ih => exact ih

/-- The body of a quotation is tidied without what follows the quotation. -/
theorem unquote_append_quote {q : Char} (hq : isQuote q = true) {b : List Char} (hb : q ∉ b)
    {skip : Nat} (hskip : skip ≤ b.length) (rest : List Char) :
    unquoteConstants skip (b ++ q :: rest) =
      unquoteConstants skip b ++ unquoteConstants 0 (q :: rest) := by
  induction b generalizing skip with
  | nil =>
    obtain rfl : skip = 0 := by simpa using hskip
    rfl
  | cons c b ih =>
    have ih := fun k (hk : k ≤ b.length) => ih (fun h => hb (List.mem_cons_of_mem c h)) hk
    cases skip with
    | succ skip => exact ih skip (by simpa using hskip)
    | zero =>
      have hne : c ≠ q := fun h => hb (h ▸ List.mem_cons_self)
      have hsame := quotedConstant?_append_quote hne hq b rest
      cases h : quotedConstant? (c :: b) with
      | none =>
        rw [List.cons_append, unquote_of_none (hsame.trans h), unquote_of_none h,
          ih 0 (Nat.zero_le _), List.cons_append]
      | some name =>
        rw [List.cons_append, unquote_of_some (hsame.trans h), unquote_of_some h]
        obtain ⟨-, -, after, rfl⟩ := quotedConstant?_eq_some h
        rw [ih (name.length + 1) (by simp), List.append_assoc]

theorem mem_of_mem_unquote {c : Char} {cs : List Char} {skip : Nat}
    (h : c ∈ unquoteConstants skip cs) : c ∈ cs := by
  induction cs generalizing skip with
  | nil => cases skip <;> cases h
  | cons x cs ih =>
    cases skip with
    | succ skip => exact List.mem_cons_of_mem _ (ih h)
    | zero =>
      cases hconstant : quotedConstant? (x :: cs) with
      | none =>
        rw [unquote_of_none hconstant] at h
        exact (List.mem_cons.mp h).elim (fun h => h ▸ List.mem_cons_self)
          fun h => List.mem_cons_of_mem _ (ih h)
      | some name =>
        rw [unquote_of_some hconstant] at h
        obtain ⟨-, -, after, hcs⟩ := quotedConstant?_eq_some hconstant
        refine List.mem_cons_of_mem _ ?_
        exact (List.mem_append.mp h).elim (fun h => by simp [hcs, h]) ih

theorem not_mem_unquote {c : Char} {cs : List Char} (h : c ∉ cs) (skip : Nat) :
    c ∉ unquoteConstants skip cs := fun hmem => h (mem_of_mem_unquote hmem)

/-- A quotation that is a constant loses its quotes. -/
theorem unquote_constant {q : Char} (hq : isQuote q = true) {b : List Char}
    (hb : b ∈ constantNames) (rest : List Char) :
    unquoteConstants 0 (q :: (b ++ q :: rest)) = b ++ unquoteConstants 0 rest := by
  have hfound := quotedConstant?_quotation hq ((unquoted_of_constant hb).not_mem hq) rest
  have hskip := unquote_skip (b ++ [q]) rest
  rw [List.length_append, List.append_assoc] at hskip
  rw [unquote_of_some (hfound.trans (if_pos hb))]
  exact congrArg (b ++ ·) hskip

/-- Any other quotation keeps its first quote, and its body is tidied by itself. -/
theorem unquote_quotation {q : Char} (hq : isQuote q = true) {b : List Char} (hb : q ∉ b)
    (hfree : b ∉ constantNames) (rest : List Char) :
    unquoteConstants 0 (q :: (b ++ q :: rest)) =
      q :: (unquoteConstants 0 b ++ unquoteConstants 0 (q :: rest)) := by
  have hnone := (quotedConstant?_quotation hq hb rest).trans (if_neg hfree)
  rw [unquote_of_none hnone, unquote_append_quote hq hb (Nat.zero_le _)]

theorem unquote_unclosed {q : Char} {b : List Char} (hb : q ∉ b) :
    unquoteConstants 0 (q :: b) = q :: unquoteConstants 0 b := by
  cases h : quotedConstant? (q :: b) with
  | none => exact unquote_of_none h
  | some name =>
    obtain ⟨-, -, after, rfl⟩ := quotedConstant?_eq_some h
    exact absurd (by simp) hb

/-- A quote before a text without quotes is taken off with a constant that the next quote closes,
and stays otherwise. -/
theorem unquote_closing {q q' : Char} (hq : isQuote q = true) (hq' : isQuote q' = true)
    {p : List Char} (hp : Unquoted p) (rest : List Char) :
    unquoteConstants 0 (q :: (p ++ q' :: rest)) =
      if q' = q ∧ p ∈ constantNames then p ++ unquoteConstants 0 rest
      else q :: unquoteConstants 0 (p ++ q' :: rest) := by
  by_cases hsame : q' = q
  · subst hsame
    by_cases hconstant : p ∈ constantNames
    · rw [if_pos ⟨rfl, hconstant⟩, unquote_constant hq hconstant]
    · rw [if_neg fun h => hconstant h.2, unquote_quotation hq (hp.not_mem hq) hconstant,
        unquote_append_quote hq (hp.not_mem hq) (Nat.zero_le _)]
  · have hnone : quotedConstant? (q :: p) = none := by
      cases h : quotedConstant? (q :: p) with
      | none => rfl
      | some name =>
        obtain ⟨-, -, after, rfl⟩ := quotedConstant?_eq_some h
        exact absurd (by simp) (hp.not_mem hq)
    rw [if_neg fun h => hsame h.1]
    exact unquote_of_none ((quotedConstant?_append_quote (Ne.symm hsame) hq' p rest).trans hnone)

/-! ### Tightening comparisons -/

/-- The characters behind a name that stands in front. -/
theorem exists_of_isPrefixOf {name cs : List Char} (h : name.isPrefixOf cs = true) :
    ∃ rest, cs = name ++ rest :=
  (List.isPrefixOf_iff_prefix.mp h).imp fun _ h => h.symm

theorem isWordChar_of_isQuote {q : Char} (h : isQuote q = true) : Text.isWordChar q = false := by
  rcases isQuote_iff.mp h with rfl | rfl <;> decide +kernel

/-- A constant that stands in front ends at a quote behind it. -/
theorem findConstant_append_quote {q : Char} (hq : isQuote q = true) (cs rest : List Char) :
    (constantNames.find? fun name => name.isPrefixOf (cs ++ q :: rest) &&
        !(((cs ++ q :: rest).drop name.length).head?.any Text.isWordChar)) =
      constantNames.find? fun name => name.isPrefixOf cs &&
        !((cs.drop name.length).head?.any Text.isWordChar) := by
  refine List.find?_congr fun name hname => ?_
  rw [isPrefixOf_append_boundary ((unquoted_of_constant hname).not_mem hq)]
  cases hfront : name.isPrefixOf cs with
  | false => rfl
  | true =>
    obtain ⟨after, rfl⟩ := exists_of_isPrefixOf hfront
    rw [List.append_assoc, List.drop_left, List.drop_left]
    cases after with
    | nil => simp [isWordChar_of_isQuote hq]
    | cons c after => rfl

/-- Whether a loose comparison with a constant stands in front is not told by what stands behind
a quote. -/
theorem looseComparison?_append_quote {q : Char} (hq : isQuote q = true) (c : Char)
    (cs rest : List Char) :
    looseComparison? (c :: (cs ++ q :: rest)) = looseComparison? (c :: cs) := by
  have hne : q ≠ '=' := by rintro rfl; exact absurd hq (by decide)
  cases cs with
  | nil => simp [looseComparison?, hne]
  | cons d cs =>
    by_cases hd : d = '='
    · subst hd
      have hhead : ((cs ++ q :: rest).head? != some '=') = (cs.head? != some '=') := by
        cases cs with
        | nil => simp [bne, hne]
        | cons d cs => rfl
      have hdrop : (cs ++ q :: rest).drop (cs.takeWhile Text.isBlank).length =
          cs.drop (cs.takeWhile Text.isBlank).length ++ q :: rest :=
        List.drop_append_of_le_length (List.takeWhile_prefix _).length_le
      simp only [List.cons_append, looseComparison?, hhead,
        takeWhile_append_boundary (isBlank_of_isQuote hq), hdrop, findConstant_append_quote hq]
    · simp [looseComparison?, hd]

/-- A loose comparison with a constant stands in front with all the characters that it takes. -/
theorem looseComparison?_eq_some {c first : Char} {cs name : List Char} {size : Nat}
    (h : looseComparison? (c :: cs) = some (first, name, size)) :
    (c = '=' ∨ c = '!') ∧ first = c ∧ name ∈ constantNames ∧ size - 1 ≤ cs.length := by
  unfold looseComparison? at h
  split at h
  next c' rest heq =>
    obtain ⟨rfl, rfl⟩ := List.cons.inj heq
    split at h
    next hloose =>
      obtain ⟨found, hfound, heq⟩ := Option.map_eq_some_iff.mp h
      simp only [Prod.mk.injEq] at heq
      obtain ⟨rfl, rfl, rfl⟩ := heq
      have hblanks := (List.takeWhile_prefix (l := rest) Text.isBlank).length_le
      have hname : found.length ≤ (rest.drop (rest.takeWhile Text.isBlank).length).length := by
        have hfront := List.find?_some hfound
        simp only [Bool.and_eq_true] at hfront
        exact (List.isPrefixOf_iff_prefix.mp hfront.1).length_le
      simp only [Bool.and_eq_true, Bool.or_eq_true, beq_iff_eq] at hloose
      refine ⟨hloose.1, rfl, List.mem_of_find?_eq_some hfound, ?_⟩
      · rw [List.length_drop] at hname
        rw [List.length_cons]
        omega
    next => cases h
  next => cases h

/-- The loose comparison with a constant that stands in front, behind the character `before`. -/
def looseBehind? (before : Option Char) (cs : List Char) : Option (Char × List Char × Nat) :=
  if before == some '=' || before == some '!' then none else looseComparison? cs

theorem looseBehind?_append_quote {q : Char} (hq : isQuote q = true) (before : Option Char)
    (c : Char) (cs rest : List Char) :
    looseBehind? before (c :: (cs ++ q :: rest)) = looseBehind? before (c :: cs) := by
  rw [looseBehind?, looseComparison?_append_quote hq, looseBehind?]

theorem looseBehind?_eq_some {before : Option Char} {c first : Char} {cs name : List Char}
    {size : Nat} (h : looseBehind? before (c :: cs) = some (first, name, size)) :
    (c = '=' ∨ c = '!') ∧ first = c ∧ name ∈ constantNames ∧ size - 1 ≤ cs.length := by
  rw [looseBehind?] at h
  split at h
  · cases h
  · exact looseComparison?_eq_some h

/-- No comparison starts with a quote. -/
theorem looseBehind?_quote {q : Char} (hq : isQuote q = true) (before : Option Char)
    (rest : List Char) : looseBehind? before (q :: rest) = none := by
  cases h : looseBehind? before (q :: rest) with
  | none => rfl
  | some found =>
    obtain ⟨rfl | rfl, -⟩ := looseBehind?_eq_some h <;> exact absurd hq (by decide)

theorem tighten_of_none {before : Option Char} {c : Char} {rest : List Char}
    (h : looseBehind? before (c :: rest) = none) :
    tightenComparisons before 0 (c :: rest) = c :: tightenComparisons (some c) 0 rest := by
  rw [looseBehind?] at h
  simp only [tightenComparisons, h]

theorem tighten_of_some {before : Option Char} {c first : Char} {rest name : List Char} {size : Nat}
    (h : looseBehind? before (c :: rest) = some (first, name, size)) :
    tightenComparisons before 0 (c :: rest) =
      first :: '=' :: '=' :: ' ' :: name ++ tightenComparisons (some c) (size - 1) rest := by
  rw [looseBehind?] at h
  simp only [tightenComparisons, h]

/-- What stands before a quote is tightened without what stands behind it. -/
theorem tighten_append_quote {q : Char} (hq : isQuote q = true) {cs : List Char} {skip : Nat}
    (hskip : skip ≤ cs.length) (before : Option Char) (rest : List Char) :
    tightenComparisons before skip (cs ++ q :: rest) =
      tightenComparisons before skip cs ++ q :: tightenComparisons (some q) 0 rest := by
  induction cs generalizing skip before with
  | nil =>
    obtain rfl : skip = 0 := by simpa using hskip
    exact tighten_of_none (looseBehind?_quote hq before rest)
  | cons c cs ih =>
    cases skip with
    | succ skip => exact ih (by simpa using hskip) (some c)
    | zero =>
      have hsame := looseBehind?_append_quote hq before c cs rest
      cases h : looseBehind? before (c :: cs) with
      | none =>
        rw [List.cons_append, tighten_of_none (hsame.trans h), tighten_of_none h,
          ih (Nat.zero_le _), List.cons_append]
      | some found =>
        obtain ⟨first, name, size⟩ := found
        obtain ⟨-, -, -, hsize⟩ := looseBehind?_eq_some h
        rw [List.cons_append, tighten_of_some (hsame.trans h), tighten_of_some h, ih hsize,
          List.append_assoc]

/-- Tightening adds no quotes. -/
theorem quote_of_mem_tighten {q : Char} (hq : isQuote q = true) {cs : List Char} {skip : Nat}
    {before : Option Char} (h : q ∈ tightenComparisons before skip cs) : q ∈ cs := by
  induction cs generalizing skip before with
  | nil => cases skip <;> cases h
  | cons c cs ih =>
    cases skip with
    | succ skip => exact List.mem_cons_of_mem _ (ih h)
    | zero =>
      cases hloose : looseBehind? before (c :: cs) with
      | none =>
        rw [tighten_of_none hloose] at h
        exact (List.mem_cons.mp h).elim (fun h => h ▸ List.mem_cons_self)
          fun h => List.mem_cons_of_mem _ (ih h)
      | some found =>
        obtain ⟨first, name, size⟩ := found
        obtain ⟨-, rfl, hname, -⟩ := looseBehind?_eq_some hloose
        rw [tighten_of_some hloose] at h
        have hothers : q ∉ ['=', '=', ' '] ++ name := by
          rw [List.mem_append, not_or]
          refine ⟨fun hmem => ?_, (unquoted_of_constant hname).not_mem hq⟩
          rcases isQuote_iff.mp hq with rfl | rfl <;> revert hmem <;> decide
        rcases List.mem_cons.mp h with rfl | h
        · exact List.mem_cons_self
        · exact List.mem_cons_of_mem _ (ih ((List.mem_append.mp h).resolve_left hothers))

/-! ### Both steps after the first -/

/-- Characters with comparisons tightened behind the character `before`, and without those that no
token has. -/
def tidied (before : Option Char) (cs : List Char) : List Char :=
  (tightenComparisons before 0 cs).filter isSafe

theorem normalizeChars_eq (cs : List Char) :
    normalizeChars cs = tidied none (unquoteConstants 0 cs) := rfl

theorem tidied_append_quote {q : Char} (hq : isQuote q = true) (before : Option Char)
    (cs rest : List Char) :
    tidied before (cs ++ q :: rest) = tidied before cs ++ q :: tidied (some q) rest := by
  have hsafe : isSafe q = true := by
    rcases isQuote_iff.mp hq with rfl | rfl <;> decide
  rw [tidied, tighten_append_quote hq (Nat.zero_le _), List.filter_append, List.filter_cons,
    if_pos hsafe]
  rfl

theorem quote_of_mem_tidied {q : Char} (hq : isQuote q = true) {before : Option Char}
    {cs : List Char} (h : q ∈ tidied before cs) : q ∈ cs :=
  quote_of_mem_tighten hq (List.mem_filter.1 h).1

theorem Unquoted.tidied {cs : List Char} (h : Unquoted cs) (before : Option Char) :
    Unquoted (Condition.tidied before cs) := fun c hc => by
  cases hq : isQuote c with
  | false => rfl
  | true => exact absurd (quote_of_mem_tidied hq hc) (h.not_mem hq)

end Condition

end LeadDesk
