import LeadDesk.Proofs.Numerals
import Mathlib.Tactic.FinCases
/-!
# Literals among operands

An operand of a placeholder is a path, or a literal in one of the documented forms
(`Operand.Form`). Which characters are read as which literal is said by `Operand.literal?_cases`:
those that no literal writes are a path, those of a literal are read as the value that it stands
for, and an integer of too many digits is a fault.
-/

namespace LeadDesk

namespace Operand

/-! ## The forms of operands -/

/-- An operand: a path, or a literal in one of its forms. -/
inductive Form where
  | path (cs : List Char)
  | quoted (quote : Char) (content : List Char)
  | integer (negative : Bool) (digits : List Char)
  | decimal (negative : Bool) (whole fraction : List Char)
  | truth (b : Bool)
  | null
  | emptyList
  | emptyObject

namespace Form

/-- The characters that write an operand. -/
def written : Form → List Char
  | path cs => cs
  | quoted quote content => quote :: content ++ [quote]
  | integer negative digits => Double.withSign negative digits
  | decimal negative whole fraction => Double.withSign negative (whole ++ '.' :: fraction)
  | truth b => (if b then "true" else "false").toList
  | null => "null".toList
  | emptyList => "[]".toList
  | emptyObject => ['\x7b', '\x7d']

/-- What an operand stands for: the value of a path, or the value that a literal writes. -/
def meaning (context : Json) : Form → Except NumberFault (Option Json)
  | path cs => Path.lookup context (String.ofList cs)
  | quoted _ content => .ok (some (.string (String.ofList content)))
  | integer negative digits =>
    .ok (some (.int (if negative then -(Text.digitsValue digits : Int)
      else Text.digitsValue digits)))
  | decimal negative whole fraction =>
    .ok (some (.float (Double.ofRatio negative (Text.digitsValue (whole ++ fraction))
      (tenTo fraction.length))))
  | truth b => .ok (some (.bool b))
  | null => .ok (some .null)
  | emptyList => .ok (some (.array []))
  | emptyObject => .ok (some (.object []))

/-- The operand is a literal: its quotes are quotes, and its numbers have decimal digits. -/
def IsLiteral : Form → Prop
  | path _ => False
  | quoted quote _ => quote = '\'' ∨ quote = '"'
  | integer _ digits => digits ≠ [] ∧ ∀ c ∈ digits, Text.isDecimal c = true
  | decimal _ whole fraction =>
    (whole ≠ [] ∧ ∀ c ∈ whole, Text.isDecimal c = true) ∧
      fraction ≠ [] ∧ ∀ c ∈ fraction, Text.isDecimal c = true
  | _ => True

theorem IsLiteral.exists_value {f : Form} (h : f.IsLiteral) :
    ∃ v, ∀ context, f.meaning context = .ok (some v) := by
  cases f with
  | path _ => exact h.elim
  | quoted _ _ | integer _ _ | decimal _ _ _ | truth _ | null | emptyList | emptyObject =>
    exact ⟨_, fun _ => rfl⟩

/-- The operand is a number. -/
def IsNumber : Form → Prop
  | integer _ _ | decimal _ _ _ => True
  | _ => False

/-- A number is written with the characters of numbers only. -/
theorem IsLiteral.isNumberChar {f : Form} (h : f.IsLiteral) (hnumber : f.IsNumber) :
    ∀ c ∈ f.written, IsNumberChar c := by
  cases f with
  | integer negative digits =>
    exact isNumberChar_withSign negative (isNumberChar_of_isDecimal h.2)
  | decimal negative whole fraction =>
    exact isNumberChar_withSign negative (isNumberChar_of_point h.1.2 h.2.2)
  | path _ | quoted _ _ | truth _ | null | emptyList | emptyObject => exact hnumber.elim

/-- An integer has no more digits than are read. -/
def IsShort : Form → Prop
  | integer _ digits => digits.length ≤ maxDigits
  | _ => True

end Form

/-! ## Reading literals -/

variable {cs : List Char} {f : Form}

theorem literal?_quoted {quote : Char} (h : quote = '\'' ∨ quote = '"') (content : List Char) :
    literal? (quote :: content ++ [quote]) = .ok (some (.string (String.ofList content))) := by
  rw [List.cons_append, literal?]
  simp [h]

/-- What stands behind the digits of a number decides which number it is. -/
theorem literal?_withSign {negative : Bool} {unsigned : List Char}
    (h : unsigned.takeWhile Text.isDecimal ≠ []) :
    literal? (Double.withSign negative unsigned) =
      match unsigned.drop (unsigned.takeWhile Text.isDecimal).length with
      | [] => (readInt (String.ofList (Double.withSign negative unsigned))).map
          fun n => some (.int n)
      | '.' :: fraction =>
        if !fraction.isEmpty && fraction.all Text.isDecimal then
          .ok ((readDouble? (String.ofList (Double.withSign negative unsigned))).map .float)
        else .ok none
      | _ => .ok none := by
  obtain ⟨c, rest, hcs, hc, hunsigned⟩ : ∃ c rest,
      Double.withSign negative unsigned = c :: rest ∧ (c = '-' ∨ Text.isDecimal c = true) ∧
        (if c == '-' then rest else c :: rest) = unsigned := by
    cases negative with
    | true => exact ⟨'-', unsigned, rfl, .inl rfl, rfl⟩
    | false =>
      cases unsigned with
      | nil => exact absurd rfl h
      | cons d ds =>
        have hd : Text.isDecimal d = true := by
          by_contra hd
          exact h (List.takeWhile_cons_of_neg hd)
        refine ⟨d, ds, rfl, .inr hd, if_neg ?_⟩
        rw [beq_iff_eq]
        rintro rfl
        exact absurd hd (by decide)
  have hother : ∀ x ∈ ['\'', '"', 't', 'f', 'n', '[', '\x7b'], c ≠ x := by
    rintro x hx rfl
    revert hx
    obtain rfl | hc := hc
    · decide
    · intro hx
      fin_cases hx <;> exact absurd hc (by decide)
  simp only [List.forall_mem_cons, List.not_mem_nil, false_imp_iff, implies_true, and_true]
    at hother
  obtain ⟨hsingle, hdouble, ht, hf, hn, hlist, hobject⟩ := hother
  rw [hcs, literal?, if_neg (by simp [hsingle, hdouble]), if_neg (by simp [ht]),
    if_neg (by simp [hf]), if_neg (by simp [hn]), if_neg (by simp [hlist]),
    if_neg (by simp [hobject])]
  dsimp only
  rw [hunsigned]
  exact if_neg (by simpa using h)

theorem literal?_integer {negative : Bool} {digits : List Char}
    (h : (Form.integer negative digits).IsLiteral) :
    literal? (Form.integer negative digits).written =
      if maxDigits < digits.length then .error (.tooLong digits.length)
      else (Form.integer negative digits).meaning .null := by
  obtain ⟨hne, hdigits⟩ := h
  have hread := readInt_withSign (s := String.ofList (Double.withSign negative digits))
    String.toList_ofList hne hdigits
  have hspan : digits.takeWhile Text.isDecimal = digits := List.takeWhile_eq_self_iff.2 hdigits
  rw [Form.written, literal?_withSign (by rwa [hspan]), hspan, List.drop_length]
  dsimp only
  rw [hread]
  split <;> rfl

theorem literal?_decimal {negative : Bool} {whole fraction : List Char}
    (h : (Form.decimal negative whole fraction).IsLiteral) :
    literal? (Form.decimal negative whole fraction).written =
      (Form.decimal negative whole fraction).meaning .null := by
  obtain ⟨⟨hne, hwhole⟩, hfraction, hplaces⟩ := h
  have hread := readDouble?_withSign
    (s := String.ofList (Double.withSign negative (whole ++ '.' :: fraction)))
    String.toList_ofList hne hwhole hplaces
  have hpoint : ¬ Text.isDecimal '.' = true := by decide
  have hspan : (whole ++ '.' :: fraction).takeWhile Text.isDecimal = whole := by
    rw [List.takeWhile_append_of_pos hwhole, List.takeWhile_cons_of_neg hpoint, List.append_nil]
  have hall : (!fraction.isEmpty && fraction.all Text.isDecimal) = true := by
    rw [Bool.and_eq_true, Bool.not_eq_true', List.isEmpty_eq_false_iff, List.all_eq_true]
    exact ⟨hfraction, hplaces⟩
  rw [Form.written, literal?_withSign (by rwa [hspan]), hspan, List.drop_left]
  show (if (!fraction.isEmpty && fraction.all Text.isDecimal) = true then
    Except.ok (Option.map Json.float (readDouble? _)) else .ok none) = _
  rw [if_pos hall, hread]
  rfl

/-- A literal is read as what it stands for, an integer if its digits are few enough. -/
theorem literal?_of_isLiteral (h : f.IsLiteral) (hshort : f.IsShort) (context : Json) :
    literal? f.written = f.meaning context := by
  cases f with
  | path cs => exact h.elim
  | quoted quote content => exact literal?_quoted h content
  | integer negative digits =>
    rw [literal?_integer h, if_neg (Nat.not_lt.2 hshort)]
    rfl
  | decimal negative whole fraction => exact literal?_decimal h
  | truth b => cases b <;> rfl
  | null | emptyList | emptyObject => rfl

/-- Digits that begin no literal have something else behind them. -/
theorem literal?_withSign_eq_none {negative : Bool} {unsigned : List Char}
    (hdigits : unsigned.takeWhile Text.isDecimal ≠ [])
    (h : ∀ f : Form, f.IsLiteral → f.written ≠ Double.withSign negative unsigned) :
    literal? (Double.withSign negative unsigned) = .ok none := by
  have hspan := List.takeWhile_append_dropWhile (p := Text.isDecimal) (l := unsigned)
  have hwhole : ∀ c ∈ unsigned.takeWhile Text.isDecimal, Text.isDecimal c = true :=
    fun c hc => List.mem_takeWhile_imp hc
  have hdrop : unsigned.drop (unsigned.takeWhile Text.isDecimal).length =
      unsigned.dropWhile Text.isDecimal :=
    (congrArg (List.drop _) hspan).symm.trans List.drop_left
  rw [literal?_withSign hdigits, hdrop]
  generalize unsigned.takeWhile Text.isDecimal = whole at hspan hwhole hdigits
  split
  · rename_i hnil
    rw [hnil, List.append_nil] at hspan
    exact absurd (congrArg (Double.withSign negative) hspan)
      (h (.integer negative whole) ⟨hdigits, hwhole⟩)
  · rename_i fraction hpoint
    split
    · rename_i hall
      rw [Bool.and_eq_true, Bool.not_eq_true', List.isEmpty_eq_false_iff, List.all_eq_true]
        at hall
      rw [hpoint] at hspan
      exact absurd (congrArg (Double.withSign negative) hspan)
        (h (.decimal negative whole fraction) ⟨⟨hdigits, hwhole⟩, hall⟩)
    · rfl
  · rfl

/-- What no literal writes is read as no literal. -/
theorem literal?_eq_none (h : ∀ f : Form, f.IsLiteral → f.written ≠ cs) :
    literal? cs = .ok none := by
  by_cases hnumber : ∃ negative unsigned, Double.withSign negative unsigned = cs ∧
      unsigned.takeWhile Text.isDecimal ≠ []
  · obtain ⟨negative, unsigned, rfl, hdigits⟩ := hnumber
    exact literal?_withSign_eq_none hdigits h
  unfold literal?
  split
  · rfl
  · rename_i quote rest
    split
    · rename_i hquoted
      rw [Bool.and_eq_true, Bool.or_eq_true, beq_iff_eq, beq_iff_eq, beq_iff_eq] at hquoted
      obtain ⟨hquote, hlast⟩ := hquoted
      obtain ⟨content, rfl⟩ := List.getLast?_eq_some_iff.1 hlast
      exact absurd rfl (h (.quoted quote content) hquote)
    split
    · rename_i hword
      exact absurd (beq_iff_eq.1 hword).symm (h (.truth true) trivial)
    split
    · rename_i hword
      exact absurd (beq_iff_eq.1 hword).symm (h (.truth false) trivial)
    split
    · rename_i hword
      exact absurd (beq_iff_eq.1 hword).symm (h .null trivial)
    split
    · rename_i hword
      exact absurd (beq_iff_eq.1 hword).symm (h .emptyList trivial)
    split
    · rename_i hword
      exact absurd (beq_iff_eq.1 hword).symm (h .emptyObject trivial)
    -- What is left has no digits in front, or else it would be a number.
    refine if_pos (List.isEmpty_iff.2 (not_not.1 fun hdigits => ?_))
    refine hnumber ⟨quote == '-', _, ?_, hdigits⟩
    by_cases hminus : quote = '-'
    · simp [Double.withSign, hminus]
    · simp [Double.withSign, hminus]

/-- Characters are read as no literal, as a literal, or as an integer of too many digits. -/
theorem literal?_cases (cs : List Char) :
    (∀ f : Form, f.IsLiteral → f.written ≠ cs) ∧ literal? cs = .ok none ∨
      (∃ (f : Form) (v : Json), f.IsLiteral ∧ f.IsShort ∧ f.written = cs ∧
        (∀ context, f.meaning context = .ok (some v)) ∧ literal? cs = .ok (some v)) ∨
      ∃ negative digits, (Form.integer negative digits).IsLiteral ∧
        (Form.integer negative digits).written = cs ∧ maxDigits < digits.length ∧
        literal? cs = .error (.tooLong digits.length) := by
  by_cases hnone : ∀ f : Form, f.IsLiteral → f.written ≠ cs
  · exact .inl ⟨hnone, literal?_eq_none hnone⟩
  obtain ⟨f, hf, rfl⟩ : ∃ f : Form, f.IsLiteral ∧ f.written = cs := by
    simpa using hnone
  by_cases hshort : f.IsShort
  · obtain ⟨v, hv⟩ := hf.exists_value
    have hread := (literal?_of_isLiteral hf hshort .null).trans (hv .null)
    exact .inr (.inl ⟨f, v, hf, hshort, rfl, hv, hread⟩)
  · cases f with
    | integer negative digits =>
      have hlong : maxDigits < digits.length := Nat.not_le.1 hshort
      have hread := literal?_integer hf
      rw [if_pos hlong] at hread
      exact .inr (.inr ⟨negative, digits, hf, rfl, hlong, hread⟩)
    | path _ | quoted _ _ | decimal _ _ _ | truth _ | null | emptyList | emptyObject =>
      exact absurd trivial hshort

/-- What starts with none of the characters that literals start with is written by no literal. -/
theorem Form.written_ne {c : Char} {cs : List Char} (hnumber : ¬ IsNumberChar c)
    (h : c ∉ ['\'', '"', 't', 'f', 'n', '[', '\x7b']) (f : Form) (hf : f.IsLiteral) :
    f.written ≠ c :: cs := by
  intro hwritten
  have hmem : c ∈ f.written := hwritten ▸ List.mem_cons_self
  cases f with
  | path _ => exact hf
  | quoted quote content =>
    obtain ⟨rfl, -⟩ := List.cons.inj hwritten
    obtain rfl | rfl := hf <;> exact h (by decide)
  | integer _ _ | decimal _ _ _ => exact hnumber (hf.isNumberChar trivial c hmem)
  | truth b =>
    cases b <;> obtain ⟨rfl, -⟩ := List.cons.inj hwritten <;> exact h (by decide)
  | null | emptyList | emptyObject =>
    obtain ⟨rfl, -⟩ := List.cons.inj hwritten
    exact h (by decide)

end Operand

end LeadDesk
