import LeadDesk.Proofs.Comparing
/-!
# Comparing with a text in quotes

What a comparison of a path with a text in quotes says. Tidying does not stop at the quotes: the
characters that no expression has are left out between them as well (`kept`). So a string equals
the text in quotes exactly when it is what tidying keeps of it (`equals_quotation`), which is the
text itself exactly when expressions have all of its characters (`kept_eq_iff`).
-/

namespace LeadDesk

namespace Condition

/-- No loose comparison with a constant stands among the characters behind `before`. -/
def Firm (before : Option Char) : List Char → Prop
  | [] => True
  | c :: cs => looseBehind? before (c :: cs) = none ∧ Firm (some c) cs

instance : (before : Option Char) → (cs : List Char) → Decidable (Firm before cs)
  | _, [] => inferInstanceAs (Decidable True)
  | before, c :: cs =>
    have := instDecidableFirm (some c) cs
    inferInstanceAs (Decidable (looseBehind? before (c :: cs) = none ∧ Firm (some c) cs))

/-- The characters of a text that expressions may have. -/
def kept (text : String) : String := String.ofList (text.toList.filter isSafe)

/-- A text between two quotes. -/
def quotation (q : Char) (text : String) : String := String.ofList (q :: (text.toList ++ [q]))

theorem kept_eq_iff {text : String} : kept text = text ↔ ∀ c ∈ text.toList, isSafe c = true := by
  rw [kept, ← String.toList_inj, String.toList_ofList, List.filter_eq_self]

theorem tighten_of_firm {before : Option Char} {cs : List Char} (h : Firm before cs) :
    tightenComparisons before 0 cs = cs := by
  induction cs generalizing before with
  | nil => rfl
  | cons c cs ih => rw [tighten_of_none h.1, ih h.2]

/-- A text in quotes that is no constant keeps its quotes, and between them what expressions may
have. -/
theorem tidies_firm {q : Char} {text : String} (hq : isQuote q = true)
    (hquote : Unquoted text.toList) (hconstant : text.toList ∉ constantNames)
    (hfirm : Firm none text.toList) :
    ∃ y, Tidies (quotation q text).toList (q :: y) (quotation q (kept text)).toList := by
  have hneutral : IsNeutral (some q) := by
    rcases isQuote_iff.mp hq with rfl | rfl <;> simp [IsNeutral]
  have hquotation := tidies_quotation hq (hquote.not_mem hq) hconstant
  rw [unquote_of_unquoted hquote, tidied, tighten_of_isNeutral hneutral,
    tighten_of_firm hfirm] at hquotation
  refine ⟨text.toList ++ [q], ?_⟩
  simpa only [quotation, kept, String.toList_ofList] using hquotation

/-- What stands in quotes is no constant. -/
theorem leadingConstant?_quote {q : Char} (hq : isQuote q = true) (cs : List Char) :
    leadingConstant? (q :: cs) = none := by
  cases h : leadingConstant? (q :: cs) with
  | none => rfl
  | some name =>
    obtain ⟨hname, rest, hrest⟩ := leadingConstant?_eq_some h
    cases name with
    | nil => exact absurd hname (by decide)
    | cons c name =>
      obtain ⟨rfl, -⟩ := List.cons.inj hrest
      exact absurd List.mem_cons_self ((unquoted_of_constant hname).not_mem hq)

theorem tokensOf_quotation {q : Char} {text : String} (hq : isQuote q = true)
    (htext : q ∉ text.toList) :
    tokensOf (quotation q text).toList = some [⟨.text, quotation q text⟩] := by
  rw [quotation, String.toList_ofList]
  exact tokensOf_quoted hq htext []

theorem unquoted_quotation (q : Char) (text : String) :
    unquoted (quotation q text) = .string text := by
  simp [unquoted, quotation]

section

variable {path s text : String} {q : Char} {context : Json}

/-- A comparison of a path with a text in quotes compares the value of the path with what is kept
of the text. -/
theorem evaluate_quotation (hpath : (⟨.path, path⟩ : Token).Whole) (hname : constant? path = none)
    {v : Json} (hbound : Path.lookup context path = .ok (some v)) (hq : isQuote q = true)
    (hquote : Unquoted text.toList) (hopen : '\x7b' ∉ text.toList)
    (hconstant : text.toList ∉ constantNames) (hfirm : Firm none text.toList) (c : Comparison) :
    evaluate (.string (c.written path (quotation q text))) context =
      c.verdict (some v) (some (.string (kept text))) := by
  have hchars := hpath.wordChars (.inr rfl)
  have hfilled : Template.resolve (c.written path (quotation q text)) context =
      .ok (c.written path (quotation q text)) := by
    have hbrace : '\x7b' ∉ (quotation q text).toList := by
      rcases isQuote_iff.mp hq with rfl | rfl <;> simp [quotation, hopen]
    rw [resolve_written_right (hchars.not_mem (by decide) (by decide)),
      Template.resolve_of_not_mem hbrace, Except.map]
  obtain ⟨y, hright⟩ := tidies_firm hq hquote hconstant hfirm
  have hkept : q ∉ (kept text).toList := by
    rw [kept, String.toList_ofList]
    exact fun h => hquote.not_mem hq (List.mem_of_mem_filter h)
  have hbefore : c.before (q :: y) = c := by
    rw [Comparison.before, leadingConstant?_quote hq]
    rfl
  have hvalue := evaluate_compared (.ofPrimary (.name path))
    (.ofPrimary (.text (quotation q (kept text)))) hfilled hchars.tidies hright
    hpath.tokensOf (tokensOf_quotation hq hkept)
  rw [hvalue, hbefore, Tree.reading, reading_name hpath hname hbound]
  have hunquoted := unquoted_quotation q (kept text)
  rw [unquoted] at hunquoted
  simp only [Tree.reading, Except.bind, hunquoted]

/-- A string equals a text in quotes exactly when it is what expressions keep of the text, and it
differs otherwise. Nothing is lost of a text exactly when expressions may have all of its
characters. -/
theorem equals_quotation (hpath : (⟨.path, path⟩ : Token).Whole) (hname : constant? path = none)
    (hbound : Path.lookup context path = .ok (some (.string s))) (hq : isQuote q = true)
    (hquote : Unquoted text.toList) (hopen : '\x7b' ∉ text.toList)
    (hconstant : text.toList ∉ constantNames) (hfirm : Firm none text.toList) :
    evaluate (.string (Comparison.equal.written path (quotation q text))) context =
        .ok (decide (s = kept text)) ∧
      evaluate (.string (Comparison.unequal.written path (quotation q text))) context =
        .ok (!decide (s = kept text)) ∧
      (kept text = text ↔ ∀ c ∈ text.toList, isSafe c = true) := by
  have hequal : looseEqual (some (.string s)) (some (.string (kept text))) =
      .ok (decide (s = kept text)) := by
    have hsame : (s == kept text) = decide (s = kept text) := by
      rw [Bool.eq_iff_iff, beq_iff_eq, decide_eq_true_iff]
    simp [looseEqual, isNullish, hsame]
  refine ⟨?_, ?_, kept_eq_iff⟩
  · rw [evaluate_quotation hpath hname hbound hq hquote hopen hconstant hfirm]
    exact hequal
  · rw [evaluate_quotation hpath hname hbound hq hquote hopen hconstant hfirm]
    exact congrArg (Except.map (!·)) hequal

/-- A text with a comma and an at sign, of which the words between blanks are kept. -/
theorem equals_quotation_city :
    let context := Json.object [("city", "Bonn am Rhein")]
    (⟨.path, "city"⟩ : Token).Whole ∧ constant? "city" = none ∧
      Path.lookup context "city" = .ok (some (.string "Bonn am Rhein")) ∧ isQuote '\'' = true ∧
      Unquoted "Bonn, am Rhein@".toList ∧ '\x7b' ∉ "Bonn, am Rhein@".toList ∧
      "Bonn, am Rhein@".toList ∉ constantNames ∧ Firm none "Bonn, am Rhein@".toList ∧
      evaluate (.string "city == 'Bonn, am Rhein@'") context = .ok true := by
  intro context
  have hpath : (⟨.path, "city"⟩ : Token).Whole := by decide +kernel
  have hname : constant? "city" = none := by rfl
  have hbound : Path.lookup context "city" = .ok (some (.string "Bonn am Rhein")) := by rfl
  have hquote : Unquoted "Bonn, am Rhein@".toList := by simp [Unquoted, isQuote]
  have hopen : '\x7b' ∉ "Bonn, am Rhein@".toList := by simp
  have hconstant : "Bonn, am Rhein@".toList ∉ constantNames := by decide
  have hfirm : Firm none "Bonn, am Rhein@".toList := by decide +kernel
  obtain ⟨hequal, -⟩ := equals_quotation hpath hname hbound (q := '\'') rfl hquote hopen hconstant
    hfirm
  have hkept : kept "Bonn, am Rhein@" = "Bonn am Rhein" := by decide +kernel
  rw [hkept] at hequal
  exact ⟨hpath, hname, hbound, rfl, hquote, hopen, hconstant, hfirm, hequal⟩

/-- A string need not equal itself in quotes: an address loses its at sign, and another string
equals what is left. -/
theorem equals_quotation_address :
    let context (value : String) := Json.object [("p", .string value)]
    (⟨.path, "p"⟩ : Token).Whole ∧ constant? "p" = none ∧
      (∀ value, Path.lookup (context value) "p" = .ok (some (.string value))) ∧
      (∀ c ∈ "a@b.co".toList, isQuote c = false ∧ c ≠ '\x7b' ∧ c ≠ '\x7d') ∧
      "a@b.co".toList ∉ constantNames ∧
      evaluate (.string "p == 'a@b.co'") (context "a@b.co") = .ok false ∧
      evaluate (.string "p != 'a@b.co'") (context "a@b.co") = .ok true ∧
      evaluate (.string "p == 'a@b.co'") (context "ab.co") = .ok true := by
  intro context
  exact ⟨by decide +kernel, rfl, fun _ => rfl, by simp [isQuote], by decide, by decide +kernel,
    by decide +kernel, by decide +kernel⟩

end

end Condition

end LeadDesk
