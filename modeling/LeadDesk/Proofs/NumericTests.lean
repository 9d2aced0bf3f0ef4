import LeadDesk.Catalog.Bundled
import LeadDesk.Proofs.Acceptance
import LeadDesk.Proofs.Comparing
import LeadDesk.Proofs.ShortestText
/-!
# Three ways to test a number

A number in the context can be put in order with a number literal by a guard, by an expression that
names its path, and by an expression in which a placeholder stands for it. The first two compare the
same values. The third writes the number, and what is written is read again (`render_cases`): the
digits of an integer, and those of a fraction, give the number back, while a fraction that is nearer
to zero than `0.0001` is written with an exponent, is not cut into one token and has no value there
(`evaluate_exponent`). So the three agree exactly where the literal can be read and is within the
numbers and the number is not as small as that (`numeric_tests_agree_iff`).
-/

namespace LeadDesk

open Condition

namespace Guard

theorem withoutPairs_of_not_mem {a : Char} {cs : List Char} (h : a ∉ cs) :
    withoutPairs a cs = cs := by
  induction cs with
  | nil => rfl
  | cons c cs ih =>
    rw [List.mem_cons, not_or] at h
    cases cs with
    | nil => rfl
    | cons d cs =>
      have hne : (c == a && d == a) = false := by simp [Ne.symm h.1]
      rw [withoutPairs, hne, ih h.2]
      rfl

/-- A field that is written without braces is the path itself. -/
theorem path_eq_field {g : Guard} (h : (⟨.path, g.field⟩ : Token).Whole) : g.path = g.field := by
  have hchars := h.wordChars (.inr rfl)
  have hblank : ∀ c ∈ g.field.toList, Text.isBlank c = false :=
    fun c hc => not_blank_of_wordChar (hchars c hc)
  rw [path, withoutPairs_of_not_mem (hchars.not_mem (by decide) (by decide)),
    withoutPairs_of_not_mem (hchars.not_mem (by decide) (by decide)), String.ofList_toList,
    Text.trim, trimBlanks_of_not hblank, String.ofList_toList]

theorem check?_ordered (order : Order) :
    check? (Comparison.ordered order).symbol = some (.order order) := by
  cases order <;> rfl

end Guard

namespace Condition

variable {d : Double} {v : Json} {order : Order} {context : Json} {path k : String}

/-! ## Numbers in order -/

/-- The value is an integer within the floating-point numbers, or a finite one of these. -/
def IsNumeric : Json → Prop
  | .int n => Fits (some (.int n))
  | .float d => d.IsProper
  | _ => False

/-- A floating-point number other than zero that is nearer to zero than `0.0001`. -/
def IsTiny : Json → Prop
  | .float d => d.IsTiny
  | _ => False

theorem IsNumeric.isNumber (h : IsNumeric v) : isNumber v = true := by
  cases v <;> first | rfl | exact h.elim

theorem IsNumeric.fits (h : IsNumeric v) : Fits (some v) := by
  match v with
  | .int n => exact h
  | .float d => exact fits_float d
  | .null | .bool _ | .string _ | .array _ | .object _ => exact h.elim

/-- A number is put in order as the number that it is read as. -/
theorem compareBy_of_isNumber (h : isNumber v = true) {x : Double}
    (hx : toNumber (some v) = .ok x) (b : Operand) :
    compareBy order (some v) b = (toNumber b).map (ordered order x) := by
  have hcompare : compareBy order (some v) b =
      (toNumber (some v)).bind fun x => (toNumber b).map (ordered order x) := by
    cases v with
    | int n => rfl
    | float d => rfl
    | null | bool _ | string _ | array _ | object _ => cases h
  rw [hcompare, hx]
  rfl

/-- A guard that names a path and an order compares the value of the path. -/
theorem holds_guard (hpath : (⟨.path, path⟩ : Token).Whole)
    (hbound : Path.lookup context path = .ok (some v)) {x : Double}
    (hx : toNumber (some v) = .ok x) (w : Json) :
    Guard.holds ⟨path, (Comparison.ordered order).symbol, w⟩ context =
      (toNumber (some w)).map (ordered order x) := by
  rw [Guard.holds, Guard.path_eq_field hpath, hpath.resolve_eq, hbound]
  simp only [Guard.check?_ordered, Guard.Check.run, hx]
  rfl

/-! ## Written numbers -/

/-- The text is a number token, at most with a minus in front, and reads as the given number. -/
def Spells (text : String) (d : Double) : Prop :=
  ∃ (negative : Bool) (word : String) (x : Double),
    text.toList = Double.withSign negative word.toList ∧
      (⟨.number, word⟩ : Token).Whole ∧ (⟨.number, word⟩ : Token).Short ∧
      toNumber (some (numeral word)) = .ok x ∧ (if negative then x.neg else x) = d

theorem whole_repr (n : Nat) : (⟨.number, n.repr⟩ : Token).Whole := by
  refine Token.whole_of_digits ?_ ?_
  · rw [Nat.toList_repr]
    exact Nat.toDigits_ne_nil
  · rw [Nat.toList_repr]
    exact fun c => Text.isAsciiDigit_of_mem_toDigits

theorem short_repr {n : Nat} (h : n < tenTo maxDigits) : (⟨.number, n.repr⟩ : Token).Short := by
  refine .inr ?_
  rw [tenTo_eq] at h
  rw [← String.length_toList, Nat.toList_repr]
  exact (Nat.length_toDigits_le_iff (by decide) (by decide)).2 h

/-- The digits of a natural are read as this natural. -/
theorem numeral_repr (n : Nat) : numeral n.repr = .int n := by
  have hpoint : '.' ∉ Nat.toDigits 10 n := fun hmem =>
    absurd (Text.isAsciiDigit_of_mem_toDigits hmem) (by decide)
  rw [numeral, Nat.toList_repr, Text.digitsValue_toDigits]
  simp [hpoint]

theorem twoTo_le_tenTo (k : Nat) : twoTo k ≤ tenTo k := Nat.pow_le_pow_left (by decide) k

theorem lt_tenTo_of_ofInt? {n : Int} (h : Double.ofInt? n = some d) :
    n.natAbs < tenTo maxDigits :=
  (Double.natAbs_lt_of_ofInt? h (show 1024 ≤ maxDigits by decide)).trans_le (twoTo_le_tenTo _)

theorem toNumber_int_iff {n : Int} :
    toNumber (some (.int n)) = .ok d ↔ Double.ofInt? n = some d := by
  rw [toNumber, congrFun ofInt_eq n]
  generalize Double.ofInt? n = found
  cases found <;> simp

/-- An integer within the floating-point numbers is written with its sign and its digits. -/
theorem spells_int {n : Int} (h : Double.ofInt? n = some d) : Spells (toString n) d := by
  have hlt := lt_tenTo_of_ofInt? h
  change Spells (Int.repr n) d
  cases n with
  | ofNat n =>
    refine ⟨false, n.repr, d, rfl, whole_repr n, short_repr hlt, ?_, rfl⟩
    rw [numeral_repr]
    exact toNumber_int_iff.2 h
  | negSucc n =>
    refine ⟨true, (n + 1).repr, d.neg, ?_, whole_repr _, short_repr hlt, ?_, Double.neg_neg d⟩
    · rw [Int.repr, String.toList_append]
      rfl
    · rw [numeral_repr]
      exact toNumber_int_iff.2 (Double.ofInt?_natAbs (Int.negSucc_lt_zero n) h)

/-- Digits with a point between them are a number token. -/
theorem whole_fraction {whole fraction : List Char} (hwhole : whole ≠ [])
    (hfraction : fraction ≠ []) (hdigits : ∀ c ∈ whole, Text.isAsciiDigit c = true)
    (hdigits' : ∀ c ∈ fraction, Text.isAsciiDigit c = true) :
    (⟨.number, String.ofList (whole ++ '.' :: fraction)⟩ : Token).Whole := by
  obtain ⟨c, rest, rfl⟩ := List.exists_cons_of_ne_nil hwhole
  rw [Token.Whole, String.toList_ofList, List.cons_append,
    token?_number (hdigits c List.mem_cons_self), ← List.cons_append,
    numberChars_fraction hdigits hfraction hdigits']

/-- A fraction is written with a minus or without, and reads as the number that its digits are read
as. -/
theorem spells_fraction {negative : Bool} {whole fraction : List Char} (hwhole : whole ≠ [])
    (hfraction : fraction ≠ []) (hdigits : ∀ c ∈ whole, Text.isAsciiDigit c = true)
    (hdigits' : ∀ c ∈ fraction, Text.isAsciiDigit c = true) {text : String}
    (htext : text.toList = Double.withSign negative (whole ++ '.' :: fraction))
    {x : Double} (hvalue : Double.ofDecimal false (Text.digitsValue (whole ++ fraction))
      (-fraction.length) = x) :
    Spells text (if negative then x.neg else x) := by
  refine ⟨negative, String.ofList (whole ++ '.' :: fraction), x, ?_,
    whole_fraction hwhole hfraction hdigits hdigits', ?_, ?_, rfl⟩
  · rw [String.toList_ofList, htext]
  · exact .inl (by simp)
  · have hstop : ∀ c ∈ whole, (c != '.') = true := fun c hc => by
      simp only [bne_iff_ne]
      rintro rfl
      exact absurd (hdigits '.' hc) (by decide)
    simp [numeral, List.takeWhile_append_of_pos hstop, List.dropWhile_append_of_pos hstop, toNumber,
      hvalue]

/-- A tiny number is written with an exponent. Any other number is written so that the text reads as
a number in the same order to all others. -/
theorem render_cases (hv : IsNumeric v) {x : Double} (hx : toNumber (some v) = .ok x) :
    (¬ IsTiny v ∧ ∃ y, Spells (Template.render v) y ∧
        ∀ order z, ordered order y z = ordered order x z) ∨
      IsTiny v ∧ ∃ negative body, (Template.render v).toList = Double.withSign negative body ∧
        Double.HasExponent body := by
  match v with
  | .null | .bool _ | .string _ | .array _ | .object _ => exact hv.elim
  | .int n => exact .inl ⟨id, x, spells_int (toNumber_int_iff.1 hx), fun _ _ => rfl⟩
  | .float .nan | .float (.infinity _) => exact hv.elim
  | .float (.finite negative m u) =>
    obtain rfl : Double.finite negative m u = x := by
      rw [toNumber] at hx
      exact Except.ok.inj hx
    have hproper : (Double.finite negative m u).IsProper := hv
    cases hwhole : (Double.finite negative m u).toInt? with
    | some n =>
      have hlarge : ¬ (Double.finite negative m u).IsTiny := fun htiny =>
        absurd (htiny.toInt?_eq_none.symm.trans hwhole) (by simp)
      have hrender : Template.render (.float (.finite negative m u)) = toString n := by
        rw [Template.render, hwhole]
      rw [hrender]
      refine .inl ⟨hlarge, ?_⟩
      rcases Nat.eq_zero_or_pos m with rfl | hm
      · obtain rfl : 0 = n := Option.some.inj ((Double.toInt?_zero negative u).symm.trans hwhole)
        refine ⟨.zero, spells_int Double.ofInt?_zero, fun order z => ?_⟩
        rw [ordered, ordered, Double.compare?_zero]
      · exact ⟨_, spells_int (Double.ofInt?_of_toInt? hproper hm hwhole), fun _ _ => rfl⟩
    | none =>
      have hrender : Template.render (.float (.finite negative m u)) =
          (Double.finite negative m u).text := by
        rw [Template.render, hwhole]
      rw [hrender]
      obtain ⟨body, htext, ⟨htiny, hbody⟩ |
          ⟨hlarge, whole, fraction, rfl, hne, hne', hdigits, hdigits', hvalue⟩⟩ :=
        Double.text_cases hproper hwhole
      · exact .inr ⟨htiny, negative, body, htext, hbody⟩
      · refine .inl ⟨hlarge, _, spells_fraction hne hne' hdigits hdigits' htext hvalue,
          fun order z => ?_⟩
        cases negative <;> rfl

/-! ## Reading a written number -/

theorem numberValue_spelled {word : String} {x : Double} (h : (⟨.number, word⟩ : Token).Whole)
    (hshort : (⟨.number, word⟩ : Token).Short) (hx : toNumber (some (numeral word)) = .ok x) :
    ∃ w, numberValue word = .ok (some w) ∧ isNumber w = true ∧ toNumber (some w) = .ok x := by
  refine ⟨_, numberValue_of_whole h hshort, ?_, hx⟩
  dsimp only [numeral]
  split <;> rfl

/-- A number token, with a minus in front where it is negative. -/
def signedNumber (negative : Bool) (word : String) : Tree .signed :=
  if negative then .sign true (.ofPrimary (.number word)) else .ofPrimary (.number word)

theorem tokensOf_minus (rest : List Char) :
    tokensOf ('-' :: rest) = (tokensOf rest).map (operator "-" :: ·) :=
  tokensOf_append_token (operator "-") (by decide) rfl

/-- A number ends before a letter. -/
theorem token?_number_letter {word : String} (h : (⟨.number, word⟩ : Token).Whole) {q : Char}
    (hdigit : Text.isAsciiDigit q = false) (hpoint : q ≠ '.') (rest : List Char) :
    token? (word.toList ++ q :: rest) = some ⟨.number, word⟩ := by
  have htoken : token? word.toList = some ⟨.number, word⟩ := h
  obtain ⟨whole, hne, hwhole, hword⟩ := h.digits
  obtain ⟨c, cs, rfl⟩ := List.exists_cons_of_ne_nil hne
  have hfirst : ∃ rest, word.toList = c :: rest := by
    rcases hword with hword | ⟨fraction, -, hword⟩ <;> exact ⟨_, hword⟩
  obtain ⟨more, hmore⟩ := hfirst
  have hc := hwhole c List.mem_cons_self
  rw [hmore, token?_number hc] at htoken
  rw [hmore, List.cons_append, token?_number hc, ← List.cons_append,
    numberChars_append_stop hdigit hpoint, htoken]

/-- The characters of a signed number before others are cut into the number, as long as they do
not go on with it. -/
theorem tokensOf_signed {word : String} {rest : List Char}
    (h : token? (word.toList ++ rest) = some ⟨.number, word⟩) (hne : word.toList ≠ [])
    (negative : Bool) :
    tokensOf (Double.withSign negative (word.toList ++ rest)) =
      (tokensOf rest).map ((signedNumber negative word).tokens ++ ·) := by
  have hnumber : tokensOf (word.toList ++ rest) = (tokensOf rest).map (⟨.number, word⟩ :: ·) :=
    tokensOf_append_token ⟨.number, word⟩ hne h
  cases negative with
  | false =>
    have htokens : (signedNumber false word).tokens = [⟨.number, word⟩] := rfl
    simp only [htokens, Double.withSign, Bool.false_eq_true, if_false, List.cons_append,
      List.nil_append]
    exact hnumber
  | true =>
    have htokens : (signedNumber true word).tokens = [operator "-", ⟨.number, word⟩] := rfl
    simp only [htokens, Double.withSign, if_true, List.cons_append, List.nil_append,
      tokensOf_minus, hnumber, Option.map_map, Function.comp_def]

/-- The characters of written numbers. -/
def NumberChars (cs : List Char) : Prop :=
  ∀ c ∈ cs, (isPathChar c = true ∨ c = '.') ∨ c = '-' ∨ c = '+'

theorem NumberChars.tidies {cs : List Char} (h : NumberChars cs) : Tidies cs cs cs := by
  have hall {p : Char → Prop} (hword : ∀ {c}, isPathChar c = true ∨ c = '.' → p c)
      (hminus : p '-') (hplus : p '+') : ∀ c ∈ cs, p c := by
    intro c hc
    rcases h c hc with hc | rfl | rfl
    · exact hword hc
    · exact hminus
    · exact hplus
  have hunquoted : Unquoted cs := hall not_isQuote_of_wordChar (by decide) (by decide)
  have hfree : Free cs := hall free_of_wordChar (by decide) (by decide)
  have hblank : ∀ c ∈ cs, Text.isBlank c = false :=
    hall not_blank_of_wordChar (by decide) (by decide)
  have hsafe : ∀ c ∈ cs, isSafe c = true := hall isSafe_of_wordChar (by decide) (by decide)
  have htidies := tidies_of_free hunquoted hfree fun c hc => hblank c (List.mem_of_mem_head? hc)
  rwa [List.filter_eq_self.2 hsafe] at htidies

theorem NumberChars.withSign {cs : List Char} (h : NumberChars cs) (negative : Bool) :
    NumberChars (Double.withSign negative cs) := by
  cases negative with
  | false => exact h
  | true => exact List.forall_mem_cons.2 ⟨.inr (.inl rfl), h⟩

theorem Spells.numberChars {text : String} (h : Spells text d) : NumberChars text.toList := by
  obtain ⟨negative, word, x, htext, hwhole, -⟩ := h
  rw [htext]
  exact NumberChars.withSign (fun c hc => .inl (hwhole.wordChars (.inl rfl) c hc)) negative

/-- A text that spells a number is cut into its tokens, and their value is the number. -/
theorem Spells.exists_tree {text : String} (h : Spells text d) :
    ∃ t : Tree .signed, tokensOf text.toList = some t.tokens ∧
      ∀ context, ∃ w, t.reading context false = .ok (some w) ∧ isNumber w = true ∧
        toNumber (some w) = .ok d := by
  obtain ⟨negative, word, x, htext, hwhole, hshort, hx, rfl⟩ := h
  have hne : word.toList ≠ [] := fun hnil => by
    rw [Token.Whole, hnil] at hwhole
    cases hwhole
  have htoken : token? (word.toList ++ []) = some ⟨.number, word⟩ := by
    rw [List.append_nil]
    exact hwhole
  have htokens : tokensOf text.toList = some (signedNumber negative word).tokens := by
    have hcut := tokensOf_signed htoken hne negative
    have hnil : tokensOf [] = some [] := rfl
    rwa [List.append_nil, ← htext, hnil, Option.map_some, List.append_nil] at hcut
  refine ⟨signedNumber negative word, htokens, fun context => ?_⟩
  obtain ⟨w, hvalue, hnumber, hw⟩ := numberValue_spelled hwhole hshort hx
  cases negative with
  | false => exact ⟨w, hvalue, hnumber, hw⟩
  | true =>
    refine ⟨.float x.neg, ?_, rfl, rfl⟩
    have hreading : (signedNumber true word).reading context false =
        (numberValue word).bind fun v => (toNumber v).map fun d => some (.float d.neg) := rfl
    rw [hreading, hvalue]
    simp [Except.bind, Except.map, hw]

section

variable {text left : String} {x : Double}

/-- A number is compared with a literal as the literal reads. -/
theorem evaluate_literal (hk : (⟨.number, k⟩ : Token).Whole)
    (hfilled : Template.resolve text context = .ok ((Comparison.ordered order).written left k))
    (hleft : Tidies left.toList left.toList left.toList) {t : Tree .signed}
    (ht : tokensOf left.toList = some t.tokens) {w : Json}
    (hw : t.reading context false = .ok (some w)) (hnumber : isNumber w = true)
    (hx : toNumber (some w) = .ok x) :
    evaluate (.string text) context =
      (numberValue k).bind fun b => (toNumber b).map (ordered order x) := by
  have hvalue := evaluate_compared t (.ofPrimary (.number k)) hfilled hleft
    (hk.wordChars (.inl rfl)).tidies ht hk.tokensOf
  rw [hvalue, hw, Comparison.before_of_ne (by simp) (by simp)]
  exact congrArg (Except.bind (numberValue k))
    (funext fun b => compareBy_of_isNumber hnumber hx b)

/-- An expression that names the path of a number compares the number. -/
theorem evaluate_path (hpath : (⟨.path, path⟩ : Token).Whole) (hname : constant? path = none)
    (hbound : Path.lookup context path = .ok (some v)) (hv : IsNumeric v)
    (hx : toNumber (some v) = .ok x) (hk : (⟨.number, k⟩ : Token).Whole) :
    evaluate (.string ((Comparison.ordered order).written path k)) context =
      (numberValue k).bind fun b => (toNumber b).map (ordered order x) := by
  have hchars := hpath.wordChars (.inr rfl)
  have hbrace : '\x7b' ∉ k.toList :=
    (hk.wordChars (.inl rfl)).not_mem (by decide) (by decide)
  have hfilled : Template.resolve ((Comparison.ordered order).written path k) context =
      .ok ((Comparison.ordered order).written path k) := by
    rw [resolve_written_right (hchars.not_mem (by decide) (by decide)),
      Template.resolve_of_not_mem hbrace, Except.map]
  exact evaluate_literal hk hfilled hchars.tidies (t := .ofPrimary (.name path)) hpath.tokensOf
    (reading_name hpath hname hbound) hv.isNumber hx

/-- An expression that is filled with a spelled number compares the number. -/
theorem evaluate_spelled (hk : (⟨.number, k⟩ : Token).Whole)
    (hfilled : Template.resolve text context = .ok ((Comparison.ordered order).written left k))
    (h : Spells left x) : evaluate (.string text) context =
      (numberValue k).bind fun b => (toNumber b).map (ordered order x) := by
  obtain ⟨t, ht, hreading⟩ := h.exists_tree
  obtain ⟨w, hw, hnumber, hx⟩ := hreading context
  exact evaluate_literal hk hfilled h.numberChars.tidies ht hw hnumber hx

end

/-! ## Numbers with an exponent -/

/-- A tree behind which another token stands has no value. -/
theorem valueOfTokens_behind (context : Json) (t : Tree .disjunction) (token : Token)
    (rest : List Token) (hstops : Level.disjunction.stops (token :: rest)) :
    ∃ e, valueOfTokens context (t.tokens ++ token :: rest) = .error e := by
  have hdepth : t.depth ≤ (t.tokens ++ token :: rest).length := by
    have := t.depth_le_length
    rw [List.length_append]
    omega
  have hread : expressionAt context ((t.tokens ++ token :: rest).length + 1) false
      (t.tokens ++ token :: rest) = _ := t.reads context _ false (token :: rest) hdepth hstops
  obtain ⟨first, more, htokens⟩ :=
    List.exists_cons_of_ne_nil (List.append_ne_nil_of_left_ne_nil t.tokens_ne_nil (token :: rest))
  rw [htokens] at hread ⊢
  rw [valueOfTokens, hread]
  · cases t.reading context false with
    | error e => exact ⟨e, rfl⟩
    | ok v => exact ⟨.unexpectedToken token.text, rfl⟩
  · exact List.cons_ne_nil _ _

theorem numberChars_of_hasExponent {cs : List Char} (h : Double.HasExponent cs) :
    NumberChars cs := by
  obtain ⟨whole, fraction, mark, size, rfl, -, hwhole, hfraction, hmark, -, hsize⟩ := h
  have hdigits {cs : List Char} (h : ∀ c ∈ cs, Text.isAsciiDigit c = true) : NumberChars cs :=
    fun c hc => .inl (.inl (isPathChar_of_isAsciiDigit (h c hc)))
  have hpoint : NumberChars fraction := by
    rcases hfraction with rfl | ⟨digits, rfl, -, hall⟩
    · exact fun c hc => absurd hc List.not_mem_nil
    · exact List.forall_mem_cons.2 ⟨.inl (.inr rfl), hdigits hall⟩
  have hbehind : NumberChars ('e' :: mark :: size) :=
    List.forall_mem_cons.2 ⟨.inl (.inl (by decide)),
      List.forall_mem_cons.2 ⟨.inr hmark, hdigits hsize⟩⟩
  exact List.forall_mem_append.2 ⟨List.forall_mem_append.2 ⟨hdigits hwhole, hpoint⟩, hbehind⟩

/-- A number with an exponent is cut into the number before it, the letter as a path, and more. -/
theorem tokensOf_exponent {body : List Char} (h : Double.HasExponent body) (negative : Bool) :
    ∃ (t : Tree .signed) (rest : List Char),
      tokensOf (Double.withSign negative body) =
        (tokensOf rest).map fun more => t.tokens ++ ⟨.path, "e"⟩ :: more := by
  obtain ⟨whole, fraction, mark, size, rfl, hne, hwhole, hfraction, hmark, -, -⟩ := h
  have hword : (⟨.number, String.ofList (whole ++ fraction)⟩ : Token).Whole := by
    rcases hfraction with rfl | ⟨digits, rfl, hne', hdigits⟩
    · rw [List.append_nil]
      exact Token.whole_of_digits (by simpa using hne) (by simpa using hwhole)
    · exact whole_fraction hne hne' hwhole hdigits
  have hnumber := token?_number_letter hword (q := 'e') (by decide) (by decide) (mark :: size)
  have hpath : token? ('e' :: mark :: size) = some ⟨.path, "e"⟩ := by
    have htail : pathTail (mark :: size) = [] := by
      rcases hmark with rfl | rfl <;> exact pathTail_of_stop (by simp) (by decide)
    rw [token?_path (by decide) (by decide) (by decide), htail]
  have hletter : tokensOf ('e' :: mark :: size) =
      (tokensOf (mark :: size)).map (⟨.path, "e"⟩ :: ·) :=
    tokensOf_append_token ⟨.path, "e"⟩ (by decide) hpath
  have hsigned := tokensOf_signed hnumber (by simp [hne]) negative
  rw [hletter, String.toList_ofList, Option.map_map] at hsigned
  exact ⟨signedNumber negative (String.ofList (whole ++ fraction)), mark :: size, hsigned⟩

/-- An expression that is filled with a number with an exponent has no value. -/
theorem evaluate_exponent {text left : String} (hk : (⟨.number, k⟩ : Token).Whole) {c : Comparison}
    (hfilled : Template.resolve text context = .ok (c.written left k)) {negative : Bool}
    {body : List Char} (hleft : left.toList = Double.withSign negative body)
    (h : Double.HasExponent body) : ∃ e, evaluate (.string text) context = .error e := by
  have hchars : NumberChars left.toList := by
    rw [hleft]
    exact (numberChars_of_hasExponent h).withSign negative
  obtain ⟨t, rest, htokens⟩ := tokensOf_exponent h negative
  rw [← hleft] at htokens
  have hright := (hk.wordChars (.inl rfl)).tidies
  cases hrest : tokensOf rest with
  | none =>
    rw [hrest] at htokens
    exact evaluate_uncut hfilled hchars.tidies hright (.inl htokens)
  | some more =>
    let tree : Tree .disjunction := .ofConjunction (.ofNegation (.ofComparison (.ofSigned t)))
    let behind := more ++ [operator (c.before k.toList).symbol, ⟨.number, k⟩]
    have htokens : tokenize (normalize (c.written left k)) =
        .ok (tree.tokens ++ ⟨.path, "e"⟩ :: behind) := by
      rw [hrest] at htokens
      rw [tokenize_eq_ok, normalize, String.toList_ofList, tokensOf_compared hchars.tidies hright,
        htokens, hk.tokensOf]
      simp [tree, behind, Tree.tokens]
    have hvalue := HasTokens.value_eq ⟨_, hfilled, htokens⟩
    obtain ⟨e, he⟩ := valueOfTokens_behind context tree ⟨.path, "e"⟩ behind
      (by simp [Level.stops, comparisonAhead?, operatorAhead?])
    exact ⟨e, by rw [evaluate, hvalue, he]⟩

/-! ## The three tests -/

theorem IsNumeric.isWritable (h : IsNumeric v) : Template.isWritable v = true := by
  cases v with
  | int n =>
    obtain ⟨d, hd⟩ := h.fits
    rw [Template.isWritable]
    exact decide_eq_true (lt_tenTo_of_ofInt? (toNumber_int_iff.1 hd))
  | float d => rfl
  | null | bool _ | string _ | array _ | object _ => exact h.elim

/-- A placeholder with the path of a number is filled with the written number. -/
theorem resolve_slotText (hpath : (⟨.path, path⟩ : Token).Whole)
    (hbound : Path.lookup context path = .ok (some v)) (hv : IsNumeric v) :
    Template.resolve (Catalog.slotText path) context = .ok (Template.render v) := by
  have hchars := hpath.wordChars (.inr rfl)
  have hne : path.toList ≠ [] := fun hnil => by
    rw [Token.Whole, hnil] at hpath
    cases hpath
  have hpieces : Template.pieces (Catalog.slotText path) = [.placeholder path.toList] := by
    have h := Template.piecesAfter_placeholder hne (hchars.not_mem (by decide) (by decide)) []
    rw [List.append_nil] at h
    rw [Template.pieces, Catalog.slotText, String.toList_append, String.toList_append]
    exact h
  have htrim : Text.trimBlanks path.toList = path.toList :=
    trimBlanks_of_not fun c hc => not_blank_of_wordChar (hchars c hc)
  have hvalue : Template.valueOf context path.toList = .ok (some v) := by
    rw [Template.valueOf, htrim, String.ofList_toList, hpath.resolve_eq, hbound]
    simp [hv.isWritable]
  have hfilling : Template.keepMissing (some v) (Template.Piece.placeholder path.toList).written =
      (Template.render v).toList := by
    cases v with
    | int n => rfl
    | float d => rfl
    | null | bool _ | string _ | array _ | object _ => exact hv.elim
  rw [Template.resolve, hpieces, Template.fill, hvalue]
  simp only [Template.fill, hfilling, Except.map, List.append_nil, String.ofList_toList]

section

variable (hpath : (⟨.path, path⟩ : Token).Whole) (hbound : Path.lookup context path = .ok (some v))
  (hv : IsNumeric v) (hk : (⟨.number, k⟩ : Token).Whole)

include hpath hbound hv hk

theorem resolve_slotText_written (c : Comparison) :
    Template.resolve (c.written (Catalog.slotText path) k) context =
      .ok (c.written (Template.render v) k) := by
  have hchars := hk.wordChars (.inl rfl)
  rw [resolve_written_left (hchars.not_mem (by decide) (by decide))
    (hchars.not_mem (by decide) (by decide)), resolve_slotText hpath hbound hv, Except.map]

/-- The placeholder of a number that is not tiny stands for the number. -/
theorem evaluate_slotText {x : Double} (hx : toNumber (some v) = .ok x) (h : ¬ IsTiny v) :
    evaluate (.string ((Comparison.ordered order).written (Catalog.slotText path) k)) context =
      (numberValue k).bind fun b => (toNumber b).map (ordered order x) := by
  have hfilled := resolve_slotText_written hpath hbound hv hk (.ordered order)
  rcases render_cases hv hx with ⟨-, y, hspells, hsame⟩ | ⟨htiny, -⟩
  · have hordered : ordered order y = ordered order x := funext (hsame order)
    rw [evaluate_spelled hk hfilled hspells, hordered]
  · exact absurd htiny h

/-- With the placeholder of a tiny number the expression has no value. -/
theorem evaluate_slotText_tiny (h : IsTiny v) :
    ∃ e, evaluate (.string ((Comparison.ordered order).written (Catalog.slotText path) k))
      context = .error e := by
  have hfilled := resolve_slotText_written hpath hbound hv hk (.ordered order)
  obtain ⟨x, hx⟩ := hv.fits
  rcases render_cases hv hx with ⟨hlarge, -⟩ | ⟨-, negative, body, htext, hbody⟩
  · exact absurd h hlarge
  · exact evaluate_exponent hk hfilled htext hbody

end

/-- A guard, an expression that names the path and an expression that a placeholder fills say the
same of a number and a literal, and none of them fails, exactly where the literal is read and within
the numbers and the number is not tiny. The first two always agree on a literal that is read. -/
theorem numeric_tests_agree_iff (hpath : (⟨.path, path⟩ : Token).Whole)
    (hname : constant? path = none) (hbound : Path.lookup context path = .ok (some v))
    (hv : IsNumeric v) (hk : (⟨.number, k⟩ : Token).Whole) (order : Order) :
    let test := Comparison.ordered order
    let guarded := Guard.holds ⟨path, test.symbol, numeral k⟩ context
    let named := evaluate (.string (test.written path k)) context
    let filled := evaluate (.string (test.written (Catalog.slotText path) k)) context
    ((⟨.number, k⟩ : Token).Short → guarded = named) ∧
      ((∃ b, guarded = .ok b ∧ named = .ok b ∧ filled = .ok b) ↔
        (⟨.number, k⟩ : Token).Short ∧ Fits (some (numeral k)) ∧ ¬ IsTiny v) := by
  intro test guarded named filled
  obtain ⟨x, hx⟩ := hv.fits
  have hguarded : guarded = (toNumber (some (numeral k))).map (ordered order x) :=
    holds_guard hpath hbound hx (numeral k)
  have hnamed : named = (numberValue k).bind fun b => (toNumber b).map (ordered order x) :=
    evaluate_path hpath hname hbound hv hx hk
  have hagree (hshort : (⟨.number, k⟩ : Token).Short) : guarded = named := by
    rw [hguarded, hnamed, numberValue_of_whole hk hshort]
    rfl
  refine ⟨hagree, ?_, ?_⟩
  · rintro ⟨b, hb, hb', hb''⟩
    refine ⟨?_, ?_, fun htiny => ?_⟩
    · by_contra hlong
      rw [hnamed, numberValue_of_not_short hk hlong] at hb'
      cases hb'
    · rw [hguarded] at hb
      cases hfits : toNumber (some (numeral k)) with
      | ok y => exact ⟨y, hfits⟩
      | error e => rw [hfits] at hb; cases hb
    · obtain ⟨e, he⟩ := evaluate_slotText_tiny hpath hbound hv hk htiny
      exact absurd (hb''.symm.trans he) (by simp)
  · rintro ⟨hshort, ⟨y, hy⟩, hlarge⟩
    have hfilled : filled = named :=
      (evaluate_slotText hpath hbound hv hk hx hlarge).trans hnamed.symm
    have hvalue : guarded = .ok (ordered order x y) := by rw [hguarded, hy, Except.map]
    have hsame := hagree hshort
    exact ⟨_, hvalue, hsame.symm.trans hvalue, (hfilled.trans hsame.symm).trans hvalue⟩

/-- A balance of `-12.5` is below zero in all three tests. A rate of `1e-07` is above zero for the
guard and for the path, and its placeholder is at fault. -/
theorem numeric_tests_agree_balance :
    let context := Json.object [
      ("lead", .object [("balance", .float (.finite true 7036874417766400 1025))]),
      ("rate", .float (.finite false 7555786372591432 998))]
    (⟨.path, "lead.balance"⟩ : Token).Whole ∧ constant? "lead.balance" = none ∧
      Path.lookup context "lead.balance" =
        .ok (some (.float (.finite true 7036874417766400 1025))) ∧
      IsNumeric (.float (.finite true 7036874417766400 1025)) ∧ (⟨.number, "0"⟩ : Token).Whole ∧
      (∃ b, Guard.holds ⟨"lead.balance", "<", 0⟩ context = .ok b ∧
        evaluate (.string "lead.balance < 0") context = .ok b ∧
        evaluate (.string "\x7b\x7blead.balance\x7d\x7d < 0") context = .ok b) ∧
      Guard.holds ⟨"lead.balance", "<", 0⟩ context = .ok true ∧
      Guard.holds ⟨"rate", ">", 0⟩ context = .ok true ∧
      evaluate (.string "rate > 0") context = .ok true ∧
      evaluate (.string "\x7b\x7brate\x7d\x7d > 0") context = .error (.unexpectedToken "e") := by
  intro context
  have hpath : (⟨.path, "lead.balance"⟩ : Token).Whole := by decide +kernel
  have hbound : Path.lookup context "lead.balance" =
      .ok (some (.float (.finite true 7036874417766400 1025))) := by rfl
  have hv : IsNumeric (.float (.finite true 7036874417766400 1025)) := by
    have hproper : (Double.finite true 7036874417766400 1025).IsProper := by decide +kernel
    exact hproper
  have hk : (⟨.number, "0"⟩ : Token).Whole := by decide +kernel
  have hlarge : ¬ IsTiny (.float (.finite true 7036874417766400 1025)) := by
    rintro ⟨-, hless⟩
    exact absurd hless (by decide +kernel)
  have hagree := (numeric_tests_agree_iff hpath rfl hbound hv hk .less).2.2
    ⟨by decide +kernel, by decide +kernel, hlarge⟩
  exact ⟨hpath, rfl, hbound, hv, hk, hagree, by decide +kernel, by decide +kernel,
    by decide +kernel, by decide +kernel⟩

end Condition

end LeadDesk
