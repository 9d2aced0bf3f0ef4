import LeadDesk.Proofs.Placeholders
import LeadDesk.Proofs.Reading
import LeadDesk.Proofs.Tidying
import Mathlib.Data.List.Induction
/-!
# A comparison of two words

What becomes of a text in which a comparison stands between two words, each step by itself.
Filling goes on before and behind what has no braces (`Template.resolve_append`,
`Template.resolve_behind`). A word beside a blank, or a text in quotes, is tidied by itself
(`Tidies`), and the comparison is tightened where a constant stands behind it
(`tidied_comparison`). So the tokens are those of the words with the operator between them
(`tokensOf_compared`), and their value is what the operator says of the operands
(`evaluate_compared`).
-/

namespace LeadDesk

/-! ## Filling -/

namespace Template

/-- Characters without braces make no difference to a placeholder before them. -/
theorem placeholder?_append {back : List Char} (hopen : '\x7b' ∉ back) (hclose : '\x7d' ∉ back)
    (cs : List Char) : placeholder? (cs ++ back) = placeholder? cs := by
  refine Option.ext fun body => ?_
  rw [placeholder?_eq_some, placeholder?_eq_some]
  refine and_congr_right fun _ => and_congr_right fun _ => ⟨fun h => ?_, fun h => ?_⟩
  · -- A placeholder ends with a brace, so it does not reach into the characters behind.
    obtain ⟨more, hmore⟩ := h
    rcases List.append_eq_append_iff.1 hmore with ⟨between, rfl, -⟩ | ⟨between, hwritten, rfl⟩
    · exact ⟨between, rfl⟩
    · cases between using List.reverseRecOn with
      | nil => exact ⟨[], by simpa using hwritten⟩
      | append_singleton front last =>
        have hlast : '\x7d' = last := by
          have hwritten : ('\x7b' :: '\x7b' :: body ++ ['\x7d']) ++ ['\x7d'] =
              (cs ++ front) ++ [last] := by
            simpa [Piece.written] using hwritten
          exact (List.append_inj_right' hwritten rfl |> List.cons.inj).1
        exact absurd (by simp [← hlast]) hclose
  · exact h.trans (List.prefix_append cs back)

theorem piecesAfter_append_back {back : List Char} (hopen : '\x7b' ∉ back)
    (hclose : '\x7d' ∉ back) (cs : List Char) {skip : Nat} (hskip : skip ≤ cs.length) :
    piecesAfter skip (cs ++ back) = piecesAfter skip cs ++ back.map .char := by
  induction cs generalizing skip with
  | nil =>
    obtain rfl : skip = 0 := by simpa using hskip
    have hback := piecesAfter_append_of_not_mem hopen []
    simpa [piecesAfter] using hback
  | cons c cs ih =>
    cases skip with
    | succ skip => exact ih (by simpa using hskip)
    | zero =>
      have hsame : placeholder? (c :: (cs ++ back)) = placeholder? (c :: cs) :=
        placeholder?_append hopen hclose (c :: cs)
      rw [List.cons_append, piecesAfter, piecesAfter, hsame]
      cases h : placeholder? (c :: cs) with
      | none => rw [ih (Nat.zero_le _)]; rfl
      | some body =>
        obtain ⟨-, -, hfront⟩ := placeholder?_eq_some.1 h
        have hlength := hfront.length_le
        simp only [Piece.written, List.length_cons, List.length_append, List.length_nil]
          at hlength
        simp only [ih (show body.length + 3 ≤ cs.length by omega), List.cons_append]

theorem fill_chars (filling : Filling) (context : Json) (cs : List Char) :
    fill filling context (cs.map .char) = .ok cs := by
  induction cs with
  | nil => rfl
  | cons c cs ih => rw [List.map_cons, fill, ih]; rfl

/-- What has no braces is filled with itself behind any text. -/
theorem resolve_append {back : String} (hopen : '\x7b' ∉ back.toList)
    (hclose : '\x7d' ∉ back.toList) (text : String) (context : Json) :
    resolve (text ++ back) context = (resolve text context).map (· ++ back) := by
  have hpieces : pieces (text ++ back) = pieces text ++ back.toList.map .char := by
    rw [pieces, String.toList_append, piecesAfter_append_back hopen hclose _ (Nat.zero_le _)]
    rfl
  rw [resolve, hpieces, fill_append, fill_chars, resolve]
  cases fill keepMissing context (pieces text) <;> simp [Except.bind, Except.map]

/-- What has no opening brace is filled with itself before any text. -/
theorem resolve_behind {front : String} (hopen : '\x7b' ∉ front.toList) (text : String)
    (context : Json) :
    resolve (front ++ text) context = (resolve text context).map (front ++ ·) := by
  have hpieces : pieces (front ++ text) = front.toList.map .char ++ pieces text := by
    rw [pieces, String.toList_append, piecesAfter_append_of_not_mem hopen]
    rfl
  rw [resolve, hpieces, fill_append, fill_chars, resolve]
  cases fill keepMissing context (pieces text) <;> simp [Except.bind, Except.map]

/-- A text without an opening brace is filled with itself. -/
theorem resolve_of_not_mem {text : String} (h : '\x7b' ∉ text.toList) (context : Json) :
    resolve text context = .ok text := by
  have hempty : resolve "" context = .ok "" := rfl
  have hbehind := resolve_behind h "" context
  rwa [String.append_empty, hempty, Except.map, String.append_empty] at hbehind

end Template

namespace Condition

/-! ## Tidying -/

/-- No comparison starts or ends among the characters. -/
def Free (cs : List Char) : Prop := ∀ c ∈ cs, c ≠ '=' ∧ c ≠ '!'

theorem Free.tail {c : Char} {cs : List Char} (h : Free (c :: cs)) : Free cs :=
  fun x hx => h x (List.mem_cons_of_mem c hx)

/-- The character before does not keep a comparison from being tightened. -/
def IsNeutral (before : Option Char) : Prop := before ≠ some '=' ∧ before ≠ some '!'

theorem isNeutral_none : IsNeutral none := ⟨by simp, by simp⟩

theorem Free.isNeutral {c : Char} {cs : List Char} (h : Free (c :: cs)) : IsNeutral (some c) := by
  obtain ⟨heq, hnot⟩ := h c List.mem_cons_self
  exact ⟨by simpa using heq, by simpa using hnot⟩

theorem looseBehind?_of_isNeutral {before : Option Char} (h : IsNeutral before) (cs : List Char) :
    looseBehind? before cs = looseComparison? cs := by
  simp [looseBehind?, h.1, h.2]

theorem looseComparison?_of_ne {c : Char} (heq : c ≠ '=') (hnot : c ≠ '!') (cs : List Char) :
    looseComparison? (c :: cs) = none := by
  cases cs with
  | nil => rfl
  | cons d cs =>
    by_cases hd : d = '='
    · subst hd; simp [looseComparison?, heq, hnot]
    · simp [looseComparison?, hd]

theorem tighten_of_isNeutral {before : Option Char} (h : IsNeutral before) (cs : List Char) :
    tightenComparisons before 0 cs = tightenComparisons none 0 cs := by
  cases cs with
  | nil => rfl
  | cons c cs =>
    simp only [tightenComparisons]
    simp [h.1, h.2]

/-- Tightening passes over characters at which no comparison starts. -/
theorem tighten_append_free {before : Option Char} (hbefore : IsNeutral before) {cs : List Char}
    (h : Free cs) (rest : List Char) :
    tightenComparisons before 0 (cs ++ rest) = cs ++ tightenComparisons none 0 rest := by
  induction cs generalizing before with
  | nil => exact tighten_of_isNeutral hbefore rest
  | cons c cs ih =>
    obtain ⟨heq, hnot⟩ := h c List.mem_cons_self
    have hnone : looseBehind? before (c :: (cs ++ rest)) = none :=
      (looseBehind?_of_isNeutral hbefore _).trans (looseComparison?_of_ne heq hnot _)
    rw [List.cons_append, tighten_of_none hnone, ih h.isNeutral h.tail, List.cons_append]

theorem tidied_append_free {before : Option Char} (hbefore : IsNeutral before) {cs : List Char}
    (h : Free cs) (rest : List Char) :
    tidied before (cs ++ rest) = cs.filter isSafe ++ tidied none rest := by
  rw [tidied, tighten_append_free hbefore h, List.filter_append, tidied]

theorem tidied_free {before : Option Char} (hbefore : IsNeutral before) {cs : List Char}
    (h : Free cs) : tidied before cs = cs.filter isSafe := by
  have happend := tidied_append_free hbefore h []
  rwa [List.append_nil, show tidied none [] = [] from rfl, List.append_nil] at happend

/-- The constant that stands in front as a word of its own. -/
def leadingConstant? (cs : List Char) : Option (List Char) :=
  constantNames.find? fun name =>
    name.isPrefixOf cs && !((cs.drop name.length).head?.any Text.isWordChar)

/-- The comparison that a comparison with a constant is tightened to. -/
def Comparison.tightened : Comparison → Comparison
  | equal => identical
  | unequal => different
  | c => c

/-- The comparison that is made where the characters stand on its right. -/
def Comparison.before (c : Comparison) (cs : List Char) : Comparison :=
  if (leadingConstant? cs).isSome then c.tightened else c

/-- All but the two loose comparisons stay as they are. -/
theorem Comparison.before_of_ne {c : Comparison} (hequal : c ≠ equal) (hunequal : c ≠ unequal)
    (cs : List Char) : c.before cs = c := by
  rw [before, tightened.eq_3 c hequal hunequal, ite_self]

theorem leadingConstant?_eq_some {cs name : List Char} (h : leadingConstant? cs = some name) :
    name ∈ constantNames ∧ ∃ rest, cs = name ++ rest := by
  have hfront := List.find?_some h
  simp only [Bool.and_eq_true] at hfront
  exact ⟨List.mem_of_find?_eq_some h, exists_of_isPrefixOf hfront.1⟩

theorem free_of_constant {name : List Char} (h : name ∈ constantNames) : Free name := by
  have hall : ∀ name ∈ constantNames, Free name := by simp [constantNames, Free]
  exact hall name h

theorem not_blank_of_constant {name : List Char} (h : name ∈ constantNames) {c : Char}
    (hc : c ∈ name) : Text.isBlank c = false := by
  have hall : ∀ name ∈ constantNames, ∀ c ∈ name, 33 ≤ c.toNat ∧ c.toNat ≤ 126 := by
    simp [constantNames]
  obtain ⟨hlow, hhigh⟩ := hall name h c hc
  exact not_blank_of_range hlow hhigh

/-- A loose comparison stands before a constant and one blank. -/
theorem looseComparison?_blank {c : Char} (hc : c = '=' ∨ c = '!') {cs : List Char}
    (hhead : ∀ d ∈ cs.head?, Text.isBlank d = false) :
    looseComparison? (c :: '=' :: ' ' :: cs) =
      (leadingConstant? cs).map fun name => (c, name, 3 + name.length) := by
  have htake : (' ' :: cs).takeWhile Text.isBlank = [' '] := by
    have hblank : Text.isBlank ' ' = true := by decide
    rw [List.takeWhile_cons, if_pos hblank]
    cases cs with
    | nil => rfl
    | cons d cs => rw [List.takeWhile_cons, if_neg (by simpa using hhead d rfl)]
  have hloose : ((c == '=' || c == '!') && (' ' :: cs).head? != some '=') = true := by
    rcases hc with rfl | rfl <;> rfl
  rw [looseComparison?, if_pos hloose]
  simp only [htake, leadingConstant?]
  rfl

/-- The characters that are already done are passed over. -/
theorem tighten_skip {before : Option Char} (hbefore : IsNeutral before) {front : List Char}
    (h : Free front) (rest : List Char) :
    tightenComparisons before front.length (front ++ rest) = tightenComparisons none 0 rest := by
  induction front generalizing before with
  | nil => exact tighten_of_isNeutral hbefore rest
  | cons c front ih => exact ih h.isNeutral h.tail

/-- A loose comparison that follows a blank is tightened where a constant stands behind it. -/
theorem tighten_loose {c : Char} (hc : c = '=' ∨ c = '!') {cs : List Char}
    (hhead : ∀ d ∈ cs.head?, Text.isBlank d = false) :
    tightenComparisons (some ' ') 0 (c :: '=' :: ' ' :: cs) =
      (if (leadingConstant? cs).isSome then [c, '=', '='] else [c, '=']) ++
        ' ' :: tightenComparisons none 0 cs := by
  have hblank : IsNeutral (some ' ') := by simp [IsNeutral]
  have hloose := (looseBehind?_of_isNeutral hblank _).trans (looseComparison?_blank hc hhead)
  cases hleading : leadingConstant? cs with
  | none =>
    rw [hleading] at hloose
    have hnext : looseBehind? (some c) ('=' :: ' ' :: cs) = none := by
      rcases hc with rfl | rfl <;> rfl
    have hfree : Free [' '] := by simp [Free]
    have hlast : looseBehind? (some '=') (' ' :: cs) = none := rfl
    rw [tighten_of_none hloose, tighten_of_none hnext, tighten_of_none hlast,
      tighten_of_isNeutral hblank]
    rfl
  | some name =>
    obtain ⟨hname, rest, rfl⟩ := leadingConstant?_eq_some hleading
    rw [hleading] at hloose
    have hskip := tighten_skip hblank (free_of_constant hname) rest
    have hsize : 3 + name.length - 1 = name.length + 2 := by omega
    rw [tighten_of_some hloose, tighten_append_free isNeutral_none (free_of_constant hname),
      ← hskip, hsize]
    rfl

/-- A comparison between blanks is tightened where a constant stands behind it, and nothing else is
done to it. -/
theorem tighten_comparison (c : Comparison) {cs : List Char}
    (hhead : ∀ d ∈ cs.head?, Text.isBlank d = false) :
    tightenComparisons (some ' ') 0 (c.symbol.toList ++ ' ' :: cs) =
      (c.before cs).symbol.toList ++ ' ' :: tightenComparisons none 0 cs := by
  have hblank : IsNeutral (some ' ') := by simp [IsNeutral]
  have hlast (before : Option Char) : tightenComparisons before 0 ('=' :: ' ' :: cs) =
      '=' :: ' ' :: tightenComparisons none 0 cs := by
    have hnone : looseBehind? before ('=' :: ' ' :: cs) = none := by
      simp [looseBehind?, looseComparison?]
    rw [tighten_of_none hnone, tighten_of_none (by rfl), tighten_of_isNeutral hblank]
  have horder {d : Char} (hd : d = '<' ∨ d = '>') : Free [d] := by
    rcases hd with rfl | rfl <;> simp [Free]
  -- The two loose comparisons are looked at first, and no other has one in it.
  rcases c with _ | _ | _ | _ | _ | _ | _ | _
  case equal =>
    refine (tighten_loose (.inl rfl) hhead).trans (congrArg (· ++ _) ?_)
    cases h : leadingConstant? cs <;> simp [Comparison.before, h, Comparison.tightened] <;> rfl
  case unequal =>
    refine (tighten_loose (.inr rfl) hhead).trans (congrArg (· ++ _) ?_)
    cases h : leadingConstant? cs <;> simp [Comparison.before, h, Comparison.tightened] <;> rfl
  all_goals rw [Comparison.before_of_ne (by simp) (by simp)]
  case identical =>
    change tightenComparisons (some ' ') 0 ('=' :: '=' :: '=' :: ' ' :: cs) = _
    rw [tighten_of_none rfl, tighten_of_none rfl, hlast]
    rfl
  case different =>
    change tightenComparisons (some ' ') 0 ('!' :: '=' :: '=' :: ' ' :: cs) = _
    rw [tighten_of_none rfl, tighten_of_none rfl, hlast]
    rfl
  case ordered.less =>
    exact tighten_append_free hblank (show Free ['<', ' '] by simp [Free]) cs
  case ordered.greater =>
    exact tighten_append_free hblank (show Free ['>', ' '] by simp [Free]) cs
  case ordered.lessOrEqual =>
    exact (tighten_append_free hblank (horder (.inl rfl)) ('=' :: ' ' :: cs)).trans
      (congrArg ('<' :: ·) (hlast none))
  case ordered.greaterOrEqual =>
    exact (tighten_append_free hblank (horder (.inr rfl)) ('=' :: ' ' :: cs)).trans
      (congrArg ('>' :: ·) (hlast none))

theorem tidied_comparison (c : Comparison) {cs : List Char}
    (hhead : ∀ d ∈ cs.head?, Text.isBlank d = false) :
    tidied none (' ' :: (c.symbol.toList ++ ' ' :: cs)) =
      ' ' :: ((c.before cs).symbol.toList ++ ' ' :: tidied none cs) := by
  have hsafe : ∀ c : Comparison, c.symbol.toList.filter isSafe = c.symbol.toList := by
    rintro (_ | _ | _ | _ | _ | _ | _ | _) <;> rfl
  have hblank : isSafe ' ' = true := rfl
  have hnone : looseBehind? none (' ' :: (c.symbol.toList ++ ' ' :: cs)) = none :=
    looseComparison?_of_ne (by decide) (by decide) _
  rw [tidied, tighten_of_none hnone, tighten_comparison c hhead]
  simp only [List.filter_cons, List.filter_append, hsafe, hblank, if_true, tidied]

/-! ## Words between blanks -/

/-- Beside a blank the characters `x` are tidied by themselves, to `y` once quotes are taken off
constants and to `z` in the end, and `z` is cut into tokens by itself. -/
structure Tidies (x y z : List Char) : Prop where
  unquoted : unquoteConstants 0 x = y
  unquoted_ahead (rest : List Char) :
    unquoteConstants 0 (x ++ ' ' :: rest) = y ++ unquoteConstants 0 (' ' :: rest)
  head : ∀ d ∈ y.head?, Text.isBlank d = false
  tidied : tidied none y = z
  tidied_ahead (rest : List Char) :
    Condition.tidied none (y ++ ' ' :: rest) = z ++ Condition.tidied none (' ' :: rest)
  tokens_ahead (rest : List Char) : tokensOf (z ++ ' ' :: rest) =
    (tokensOf z).bind fun tokens => (tokensOf (' ' :: rest)).map (tokens ++ ·)

theorem Unquoted.filter {cs : List Char} (h : Unquoted cs) (p : Char → Bool) :
    Unquoted (cs.filter p) := fun c hc => h c (List.mem_of_mem_filter hc)

theorem isBoundary_blank : IsBoundary ' ' := isBoundary_of_isBlank (by decide)

/-- Words lose their characters that no token has. -/
theorem tidies_of_free {x : List Char} (hquote : Unquoted x) (hfree : Free x)
    (hhead : ∀ d ∈ x.head?, Text.isBlank d = false) : Tidies x x (x.filter isSafe) where
  unquoted := unquote_of_unquoted hquote
  unquoted_ahead _ := unquote_append hquote _
  head := hhead
  tidied := tidied_free isNeutral_none hfree
  tidied_ahead _ := tidied_append_free isNeutral_none hfree _
  tokens_ahead := tokensOf_append_boundary isBoundary_blank (hquote.filter _)

/-- A constant in quotes is a constant. -/
theorem tidies_constant {q : Char} (hq : isQuote q = true) {body : List Char}
    (hbody : body ∈ constantNames) : Tidies (q :: (body ++ [q])) body body := by
  have hword : Tidies body body (body.filter isSafe) := by
    refine tidies_of_free (unquoted_of_constant hbody) (free_of_constant hbody) ?_
    exact fun d hd => not_blank_of_constant hbody (List.mem_of_mem_head? hd)
  have hsafe : body.filter isSafe = body := by
    have hall : ∀ name ∈ constantNames, name.filter isSafe = name := by decide
    exact hall body hbody
  rw [hsafe] at hword
  refine { hword with unquoted := ?_, unquoted_ahead := fun rest => ?_ }
  · exact (unquote_constant hq hbody []).trans (List.append_nil body)
  · have hfound := unquote_constant hq hbody (' ' :: rest)
    simpa using hfound

theorem tidied_quoted {q : Char} (hq : isQuote q = true) (body rest : List Char) :
    Condition.tidied none (q :: (body ++ q :: rest)) =
      q :: (Condition.tidied (some q) body ++ q :: Condition.tidied (some q) rest) :=
  (tidied_append_quote hq none [] (body ++ q :: rest)).trans
    (congrArg (q :: ·) (tidied_append_quote hq (some q) body rest))

/-- Any other text in quotes is tidied between its quotes. -/
theorem tidies_quotation {q : Char} (hq : isQuote q = true) {body : List Char} (hbody : q ∉ body)
    (hconstant : body ∉ constantNames) :
    Tidies (q :: (body ++ [q])) (q :: (unquoteConstants 0 body ++ [q]))
      (q :: (Condition.tidied (some q) (unquoteConstants 0 body) ++ [q])) := by
  have hinner : q ∉ unquoteConstants 0 body := not_mem_unquote hbody 0
  have htidied : q ∉ Condition.tidied (some q) (unquoteConstants 0 body) :=
    fun h => hinner (quote_of_mem_tidied hq h)
  have hnone (rest : List Char) (hrest : rest.head?.all Text.isBlank = true) :
      quotedConstant? (q :: rest) = none := by
    cases h : quotedConstant? (q :: rest) with
    | none => rfl
    | some name =>
      obtain ⟨-, hname, after, rfl⟩ := quotedConstant?_eq_some h
      cases name with
      | nil => exact absurd hname (by decide)
      | cons c name => simp [not_blank_of_constant hname List.mem_cons_self] at hrest
  have hneutral : IsNeutral (some q) := by
    rcases isQuote_iff.mp hq with rfl | rfl <;> simp [IsNeutral]
  constructor
  case unquoted =>
    have h := unquote_quotation hq hbody hconstant []
    rwa [unquote_of_none (hnone [] rfl)] at h
  case unquoted_ahead =>
    intro rest
    have h := unquote_quotation hq hbody hconstant (' ' :: rest)
    rw [unquote_of_none (hnone (' ' :: rest) rfl)] at h
    simpa using h
  case head => simpa using isBlank_of_isQuote hq
  case tidied => exact tidied_quoted hq _ []
  case tidied_ahead =>
    intro rest
    have h := tidied_quoted hq (unquoteConstants 0 body) (' ' :: rest)
    have hbehind : Condition.tidied (some q) (' ' :: rest) =
        Condition.tidied none (' ' :: rest) := by
      rw [Condition.tidied, tighten_of_isNeutral hneutral, Condition.tidied]
    rw [hbehind] at h
    simpa using h
  case tokens_ahead =>
    intro rest
    have halone := tokensOf_quoted hq htidied []
    have hahead := tokensOf_quoted hq htidied (' ' :: rest)
    have hsplit (body : List Char) :
        (q :: (body ++ [q])) ++ ' ' :: rest = q :: (body ++ q :: ' ' :: rest) := by simp
    rw [halone, hsplit, hahead]
    rfl

/-! ## Words that are tokens -/

/-- The characters of a number or a path. -/
def WordChars (cs : List Char) : Prop := ∀ c ∈ cs, isPathChar c = true ∨ c = '.'

theorem range_of_wordChar {c : Char} (h : isPathChar c = true ∨ c = '.') :
    46 ≤ c.toNat ∧ c.toNat ≤ 122 := by
  rcases h with h | rfl
  · have := pathChar_range h
    omega
  · decide

theorem isSafe_of_wordChar {c : Char} (h : isPathChar c = true ∨ c = '.') : isSafe c = true := by
  rcases h with h | rfl
  · rcases Bool.or_eq_true_iff.mp h with h | h <;> simp [isSafe, h]
  · decide

theorem free_of_wordChar {c : Char} (h : isPathChar c = true ∨ c = '.') : c ≠ '=' ∧ c ≠ '!' := by
  constructor <;> rintro rfl <;> exact absurd h (by decide)

theorem not_isQuote_of_wordChar {c : Char} (h : isPathChar c = true ∨ c = '.') :
    isQuote c = false := by
  have := range_of_wordChar h
  simp only [isQuote, Bool.or_eq_false_iff, beq_eq_false_iff_ne]
  constructor <;> rintro rfl <;> exact absurd this (by decide)

theorem WordChars.free {cs : List Char} (h : WordChars cs) : Free cs :=
  fun c hc => free_of_wordChar (h c hc)

theorem WordChars.unquoted {cs : List Char} (h : WordChars cs) : Unquoted cs :=
  fun c hc => not_isQuote_of_wordChar (h c hc)

theorem not_blank_of_wordChar {c : Char} (h : isPathChar c = true ∨ c = '.') :
    Text.isBlank c = false := by
  have := range_of_wordChar h
  exact not_blank_of_range (by omega) (by omega)

theorem WordChars.not_mem {cs : List Char} (h : WordChars cs) {c : Char}
    (hc : isPathChar c = false) (hpoint : c ≠ '.') : c ∉ cs := fun hmem => by
  simpa [hc, hpoint] using h c hmem

/-- A word of such characters is tidy. -/
theorem WordChars.tidies {cs : List Char} (h : WordChars cs) : Tidies cs cs cs := by
  have hword := tidies_of_free h.unquoted h.free fun d hd =>
    not_blank_of_wordChar (h d (List.mem_of_mem_head? hd))
  rwa [List.filter_eq_self.2 fun c hc => isSafe_of_wordChar (h c hc)] at hword

/-- A path starts with one of its characters. -/
theorem isPathChar_of_start {c : Char} (h : (c.isAlpha || c == '_') = true) :
    isPathChar c = true := by
  rcases Bool.or_eq_true_iff.mp h with h | h <;> simp [isPathChar, Char.isAlphanum, h]

theorem isPathChar_of_isAsciiDigit {c : Char} (h : Text.isAsciiDigit c = true) :
    isPathChar c = true := by
  have := isAsciiDigit_iff.mp h
  have hval : c.toNat = c.val.toNat := rfl
  simp [isPathChar, Char.isAlphanum, Char.isDigit, UInt32.le_iff_toNat_le]
  omega

/-- Numbers and paths are written in such characters. -/
theorem Token.Whole.wordChars {t : Token} (h : t.Whole)
    (hkind : t.kind = .number ∨ t.kind = .path) : WordChars t.text.toList := by
  obtain ⟨kind, word⟩ := t
  rcases hkind with rfl | rfl
  · obtain ⟨whole, -, hwhole, hword | ⟨fraction, hfraction, hword⟩⟩ := h.digits
    · intro c hc
      exact .inl (isPathChar_of_isAsciiDigit (hwhole c (hword ▸ hc)))
    · intro c hc
      rw [hword, List.mem_append, List.mem_cons] at hc
      rcases hc with hc | hc | hc
      · exact .inl (isPathChar_of_isAsciiDigit (hwhole c hc))
      · exact .inr hc
      · exact .inl (isPathChar_of_isAsciiDigit (hfraction c hc))
  · exact h.pathChars

/-- A token that stands in front is the first token. -/
theorem tokensOf_append_token (t : Token) (hne : t.text.toList ≠ []) {rest : List Char}
    (h : token? (t.text.toList ++ rest) = some t) :
    tokensOf (t.text.toList ++ rest) = (tokensOf rest).map (t :: ·) := by
  cases htext : t.text.toList with
  | nil => exact absurd htext hne
  | cons c word =>
    rw [htext, List.cons_append] at h
    have hblank : Text.isBlank c = false := by
      rcases token?_cases h with ⟨hdigit, -⟩ | ⟨hquote, -⟩ | ⟨-, -, hstart, -⟩ | ⟨o, ho, hfront, -⟩
      · exact not_blank_of_plain (by simp [isPlain, hdigit])
      · exact isBlank_of_isQuote hquote
      · exact not_blank_of_wordChar (.inl (isPathChar_of_start hstart))
      · have hall : ∀ o ∈ operators, ∃ d ∈ o.head?, Text.isBlank d = false := by
          simp [operators]
          decide
        obtain ⟨d, hd, hblank⟩ := hall o ho
        obtain ⟨tail, rfl⟩ := List.head?_eq_some_iff.mp hd
        rwa [(List.cons_prefix_cons.mp hfront).1] at hblank
    have hlength : t.text.length - 1 = word.length := by
      rw [← String.length_toList, htext]
      rfl
    rw [List.cons_append, tokensOf_cons, hblank, h]
    simp only [Bool.false_eq_true, if_false, Option.bind_some, hlength, List.drop_left]

/-- A whole token is cut as just this token. -/
theorem Token.Whole.tokensOf {t : Token} (h : t.Whole) :
    Condition.tokensOf t.text.toList = some [t] := by
  have hne : t.text.toList ≠ [] := fun hnil => by
    rw [Whole, hnil] at h
    cases h
  have htoken : token? (t.text.toList ++ []) = some t := (List.append_nil _).symm ▸ h
  have hcut := tokensOf_append_token t hne htoken
  rwa [List.append_nil] at hcut

/-- A whole path token is looked up as one path. -/
theorem Token.Whole.resolve_eq {path : String} (h : (⟨.path, path⟩ : Token).Whole)
    (context : Json) : Operand.resolve context path = Path.lookup context path := by
  have hbars : '|' ∉ path.toList :=
    WordChars.not_mem (h.wordChars (.inr rfl)) (by decide) (by decide)
  rw [Operand.resolve, splitAtBars_of_not_mem hbars]

/-! ## The value of a comparison -/

/-- A comparison between two words, with blanks around it. -/
def Comparison.written (c : Comparison) (left right : String) : String :=
  left ++ " " ++ c.symbol ++ " " ++ right

theorem Comparison.toList_written (c : Comparison) (left right : String) :
    (c.written left right).toList =
      left.toList ++ ' ' :: (c.symbol.toList ++ ' ' :: right.toList) := by
  simp [written]

/-- A comparison with a word that has no braces is filled as what stands on its left. -/
theorem resolve_written_left {right : String} (hopen : '\x7b' ∉ right.toList)
    (hclose : '\x7d' ∉ right.toList) (c : Comparison) (left : String) (context : Json) :
    Template.resolve (c.written left right) context =
      (Template.resolve left context).map (c.written · right) := by
  have hback : ∀ brace ∈ ['\x7b', '\x7d'], brace ∉ right.toList →
      brace ∉ (" " ++ c.symbol ++ " " ++ right).toList := by
    rcases c with _ | _ | _ | _ | _ | _ | _ | _ <;> simp [Comparison.symbol]
  have hfilled := Template.resolve_append (hback _ (by simp) hopen) (hback _ (by simp) hclose)
    left context
  simpa only [Comparison.written, String.append_assoc] using hfilled

/-- A comparison of a word that has no braces is filled as what stands on its right. -/
theorem resolve_written_right {left : String} (hopen : '\x7b' ∉ left.toList) (c : Comparison)
    (right : String) (context : Json) :
    Template.resolve (c.written left right) context =
      (Template.resolve right context).map (c.written left ·) := by
  have hfront : '\x7b' ∉ (left ++ " " ++ c.symbol ++ " ").toList := by
    rcases c with _ | _ | _ | _ | _ | _ | _ | _ <;> simp [Comparison.symbol, hopen]
  exact Template.resolve_behind hfront right context

theorem tokensOf_blank (rest : List Char) : tokensOf (' ' :: rest) = tokensOf rest := by
  rw [tokensOf_cons, if_pos (by decide)]

theorem tokensOf_symbol (c : Comparison) (rest : List Char) :
    tokensOf (c.symbol.toList ++ ' ' :: rest) = (tokensOf rest).map (operator c.symbol :: ·) := by
  have hunquoted : Unquoted c.symbol.toList := by
    rcases c with _ | _ | _ | _ | _ | _ | _ | _ <;> simp [Comparison.symbol, Unquoted, isQuote]
  have halone : tokensOf c.symbol.toList = some [operator c.symbol] := by
    rcases c with _ | _ | _ | _ | _ | _ | _ | _ <;> decide +kernel
  rw [tokensOf_append_boundary isBoundary_blank hunquoted, halone, tokensOf_blank]
  rfl

section

variable {left right : String} {y z y' z' : List Char}

/-- A comparison between two words is cut into the tokens of the words and the operator that the
comparison is tightened to. -/
theorem tokensOf_compared (hleft : Tidies left.toList y z) (hright : Tidies right.toList y' z')
    (c : Comparison) : tokensOf (normalizeChars (c.written left right).toList) =
      (tokensOf z).bind fun before => (tokensOf z').map fun behind =>
        before ++ operator (c.before y').symbol :: behind := by
  have hsymbol : Unquoted (' ' :: (c.symbol.toList ++ [' '])) := by
    rcases c with _ | _ | _ | _ | _ | _ | _ | _ <;> simp [Comparison.symbol, Unquoted, isQuote]
  have hbehind : unquoteConstants 0 (' ' :: (c.symbol.toList ++ ' ' :: right.toList)) =
      ' ' :: (c.symbol.toList ++ ' ' :: y') := by
    have h := unquote_append hsymbol right.toList
    rw [hright.unquoted] at h
    simpa using h
  rw [Comparison.toList_written, normalizeChars_eq, hleft.unquoted_ahead, hbehind,
    hleft.tidied_ahead, tidied_comparison c hright.head, hright.tidied, hleft.tokens_ahead,
    tokensOf_blank, tokensOf_symbol]
  cases tokensOf z <;> cases tokensOf z' <;> rfl

variable {text : String} {context : Json} {c : Comparison}

/-- A comparison between two words says what its operator, once tightened, says of their values. -/
theorem evaluate_compared (t t' : Tree .signed)
    (hfilled : Template.resolve text context = .ok (c.written left right))
    (hleft : Tidies left.toList y z) (hright : Tidies right.toList y' z')
    (ht : tokensOf z = some t.tokens) (ht' : tokensOf z' = some t'.tokens) :
    evaluate (.string text) context =
      (t.reading context false).bind fun a => (t'.reading context false).bind fun b =>
        (c.before y').verdict a b := by
  let tree : Tree .disjunction :=
    .ofConjunction (.ofNegation (.ofComparison (.compare (c.before y') t t')))
  have htokens : tokenize (normalize (c.written left right)) = .ok tree.tokens := by
    rw [tokenize_eq_ok, normalize, String.toList_ofList, tokensOf_compared hleft hright, ht, ht']
    rfl
  have hvalue : value text context = tree.reading context false :=
    HasTokens.value_eq ⟨_, hfilled, htokens⟩ |>.trans (valueOfTokens_tokens context tree)
  rw [evaluate, hvalue]
  simp only [tree, Tree.reading]
  cases t.reading context false with
  | error e => rfl
  | ok a =>
    cases t'.reading context false with
    | error e => rfl
    | ok b =>
      simp only [bind, Except.bind, pure, Except.pure]
      cases (c.before y').verdict a b <;> rfl

/-- A path that leads to a value reads as that value. -/
theorem reading_name {path : String} {v : Json} (h : (⟨.path, path⟩ : Token).Whole)
    (hname : constant? path = none) (hbound : Path.lookup context path = .ok (some v)) :
    (Tree.name path).reading context false = .ok (some v) := by
  rw [Tree.reading, pathValue, hname, h.resolve_eq, hbound]

/-- A comparison with a word that cannot be cut into tokens has no value. -/
theorem evaluate_uncut (hfilled : Template.resolve text context = .ok (c.written left right))
    (hleft : Tidies left.toList y z) (hright : Tidies right.toList y' z')
    (h : tokensOf z = none ∨ tokensOf z' = none) :
    ∃ e, evaluate (.string text) context = .error e := by
  have hnone : tokensOf (normalize (c.written left right)).toList = none := by
    rw [normalize, String.toList_ofList, tokensOf_compared hleft hright]
    rcases h with h | h
    · rw [h]; rfl
    · rw [h]; cases tokensOf z <;> rfl
  cases htokens : tokenize (normalize (c.written left right)) with
  | error e => exact ⟨e, by simp [evaluate, value, hfilled, htokens]⟩
  | ok tokens => simp [tokenize_eq_ok, hnone] at htokens

end

end Condition

end LeadDesk
