import LeadDesk.Proofs.ShortestText
import LeadDesk.Template.Operand
/-!
# Numbers in the digits of any script

A row of decimal digits is read as an integer whatever scripts the digits are of, with one minus in
front or none, as long as they are not more than `maxDigits` (`readInt_withSign`). Digits of the
wider class and a second minus make a text no integer (`readInt_of_stray`), although such a text
counts as an index of a path: which indices cannot be read is said by `Path.Unreadable`.
-/

namespace LeadDesk

/-! ## Digits in ASCII -/

namespace Text

theorem decimalValue?_le {c : Char} {v : Nat} (h : decimalValue? c = some v) : v ≤ 9 := by
  obtain ⟨first, hfind, rfl⟩ := Option.map_eq_some_iff.1 h
  have hrange := List.find?_some hfind
  simp only [Bool.and_eq_true, decide_eq_true_eq] at hrange
  omega

/-- Rows of digits write numbers below the power of ten of their length. -/
theorem digitsValue_lt (cs : List Char) : digitsValue cs < 10 ^ cs.length := by
  induction cs with
  | nil => decide
  | cons c cs ih =>
    have hdigit : digitsValue [c] ≤ 9 := by
      cases hvalue : decimalValue? c with
      | none => simp [digitsValue, hvalue]
      | some v => simpa [digitsValue, hvalue] using decimalValue?_le hvalue
    calc digitsValue (c :: cs) = digitsValue [c] * 10 ^ cs.length + digitsValue cs :=
          digitsValue_append [c] cs
      _ < digitsValue [c] * 10 ^ cs.length + 10 ^ cs.length := Nat.add_lt_add_left ih _
      _ = (digitsValue [c] + 1) * 10 ^ cs.length := (Nat.succ_mul _ _).symm
      _ ≤ 10 * 10 ^ cs.length := Nat.mul_le_mul_right _ (by omega)
      _ = 10 ^ (c :: cs).length := (Nat.pow_succ' ..).symm

theorem isDecimal_of_isAsciiDigit {c : Char} (h : isAsciiDigit c = true) : isDecimal c = true := by
  rw [isDecimal, decimalValue?_of_isAsciiDigit h]
  rfl

/-- No digit is a blank. -/
theorem isBlank_of_isDigit {c : Char} (h : isDigit c = true) : isBlank c = false := by
  have hzeros : ∀ first ∈ decimalZeros, ∀ b ∈ blankRanges, first + 9 < b.1 ∨ b.2 < first := by
    decide +kernel
  have hothers : ∀ r ∈ otherDigitRanges, ∀ b ∈ blankRanges, r.2 < b.1 ∨ b.2 < r.1 := by
    decide +kernel
  refine Bool.eq_false_iff.2 fun hblank => ?_
  obtain ⟨b, hb, hlow, hhigh⟩ := inRanges_iff.1 hblank
  rw [isDigit, Bool.or_eq_true, inRanges_iff] at h
  obtain hdecimal | ⟨r, hr, hlow', hhigh'⟩ := h
  · simp only [isDecimal, decimalValue?, Option.isSome_map, List.find?_isSome, Bool.and_eq_true,
      decide_eq_true_eq] at hdecimal
    obtain ⟨first, hfirst, hlow', hhigh'⟩ := hdecimal
    have := hzeros first hfirst b hb
    omega
  · have := hothers r hr b hb
    omega

end Text

variable {c : Char} {cs digits : List Char} {s : String}

/-- A decimal digit of any script becomes the ASCII digit of its value. -/
theorem asciiForm_of_isDecimal (h : Text.isDecimal c = true) :
    Text.isAsciiDigit (asciiForm c) = true ∧
      Text.decimalValue? (asciiForm c) = Text.decimalValue? c := by
  by_cases hsmall : c.toNat < 128
  · have hdigit := Condition.isAsciiDigit_of_isDigit hsmall (Text.isDigit_of_isDecimal h)
    have hsame : asciiForm c = c :=
      Condition.asciiForm_of_plain (by simp [Condition.isPlain, hdigit])
    rw [hsame]
    exact ⟨hdigit, rfl⟩
  · obtain ⟨v, hv⟩ := Option.isSome_iff_exists.1 h
    have hten : ∀ v ≤ 9, Text.isAsciiDigit (Char.ofNat (48 + v)) = true ∧
        Text.decimalValue? (Char.ofNat (48 + v)) = some v := by decide +kernel
    rw [asciiForm, if_neg hsmall, hv]
    exact hten v (Text.decimalValue?_le hv)

/-- Any other digit stays what it is, and is no ASCII digit. -/
theorem asciiForm_of_not_isDecimal (hdigit : Text.isDigit c = true)
    (h : Text.isDecimal c = false) : asciiForm c = c ∧ Text.isAsciiDigit c = false := by
  have hascii : Text.isAsciiDigit c = false := Bool.eq_false_iff.2 fun hascii => by
    rw [Text.isDecimal_of_isAsciiDigit hascii] at h
    cases h
  have hlarge : ¬ c.toNat < 128 := fun hsmall => by
    rw [Condition.isAsciiDigit_of_isDigit hsmall hdigit] at hascii
    cases hascii
  have hnone : Text.decimalValue? c = none :=
    Option.isNone_iff_eq_none.1 (Option.isSome_eq_false_iff.1 h)
  refine ⟨?_, hascii⟩
  simp [asciiForm, hlarge, hnone, Text.isBlank_of_isDigit hdigit]

theorem digitsValue_map_asciiForm (h : ∀ c ∈ cs, Text.isDecimal c = true) :
    Text.digitsValue (cs.map asciiForm) = Text.digitsValue cs := by
  rw [Text.digitsValue, List.foldl_map]
  refine List.foldl_ext _ _ _ fun n c hc => ?_
  rw [(asciiForm_of_isDecimal (h c hc)).2]

/-! ## The characters of numbers -/

/-- A digit of any kind, a point or a minus. -/
def IsNumberChar (c : Char) : Prop := c = '-' ∨ c = '.' ∨ Text.isDigit c = true

theorem IsNumberChar.not_blank (h : IsNumberChar c) : Text.isBlank c = false := by
  obtain rfl | rfl | hdigit := h
  · decide
  · decide
  · exact Text.isBlank_of_isDigit hdigit

theorem IsNumberChar.asciiForm (h : IsNumberChar c) :
    Text.isBlank (asciiForm c) = false ∧ asciiForm c ≠ '_' := by
  obtain rfl | rfl | hdigit := h
  · decide
  · decide
  · cases hdecimal : Text.isDecimal c with
    | true =>
      have hascii := (asciiForm_of_isDecimal hdecimal).1
      refine ⟨Condition.not_blank_of_plain (by simp [Condition.isPlain, hascii]), fun heq => ?_⟩
      rw [heq] at hascii
      exact absurd hascii (by decide)
    | false =>
      obtain ⟨hsame, -⟩ := asciiForm_of_not_isDecimal hdigit hdecimal
      rw [hsame]
      refine ⟨Text.isBlank_of_isDigit hdigit, ?_⟩
      rintro rfl
      exact absurd hdigit (by decide)

/-- Reading a number of such characters changes them to ASCII and nothing more. -/
theorem numberChars?_eq (h : ∀ c ∈ s.toList, IsNumberChar c) :
    numberChars? s = some (s.toList.map asciiForm) := by
  have hmap : ∀ x ∈ s.toList.map asciiForm, Text.isBlank x = false ∧ x ≠ '_' := by
    intro x hx
    obtain ⟨c, hc, rfl⟩ := List.mem_map.1 hx
    exact (h c hc).asciiForm
  rw [numberChars?, Condition.trimBlanks_of_not fun x hx => (hmap x hx).1]
  exact Condition.withoutUnderscores_of_not_mem (fun hmem => (hmap _ hmem).2 rfl) false

theorem splitSign_withSign (negative : Bool) (hne : digits ≠ [])
    (h : ∀ c ∈ digits, Text.isAsciiDigit c = true) (more : List Char) :
    splitSign (Double.withSign negative (digits ++ more)) = (negative, digits ++ more) := by
  cases negative with
  | true => rfl
  | false =>
    obtain ⟨c, cs, rfl⟩ := List.exists_cons_of_ne_nil hne
    exact Condition.splitSign_of_digit (h c List.mem_cons_self)

theorem map_withSign (negative : Bool) (cs : List Char) :
    (Double.withSign negative cs).map asciiForm =
      Double.withSign negative (cs.map asciiForm) := by
  cases negative <;> rfl

theorem isNumberChar_withSign (negative : Bool) (h : ∀ c ∈ cs, IsNumberChar c) :
    ∀ c ∈ Double.withSign negative cs, IsNumberChar c := by
  cases negative with
  | true => exact List.forall_mem_cons.2 ⟨.inl rfl, h⟩
  | false => exact h

theorem isNumberChar_of_isDecimal (h : ∀ c ∈ cs, Text.isDecimal c = true) :
    ∀ c ∈ cs, IsNumberChar c :=
  fun c hc => .inr (.inr (Text.isDigit_of_isDecimal (h c hc)))

theorem isNumberChar_of_point {whole fraction : List Char}
    (hwhole : ∀ c ∈ whole, Text.isDecimal c = true)
    (hfraction : ∀ c ∈ fraction, Text.isDecimal c = true) :
    ∀ c ∈ whole ++ '.' :: fraction, IsNumberChar c :=
  List.forall_mem_append.2 ⟨isNumberChar_of_isDecimal hwhole,
    List.forall_mem_cons.2 ⟨.inr (.inl rfl), isNumberChar_of_isDecimal hfraction⟩⟩

theorem isAsciiDigit_map (h : ∀ c ∈ cs, Text.isDecimal c = true) :
    ∀ c ∈ cs.map asciiForm, Text.isAsciiDigit c = true := by
  intro x hx
  obtain ⟨c, hc, rfl⟩ := List.mem_map.1 hx
  exact (asciiForm_of_isDecimal (h c hc)).1

/-! ## Integers -/

/-- Decimal digits with a minus or without are the integer that they write, if they are few
enough. -/
theorem readInt_withSign {negative : Bool} (hs : s.toList = Double.withSign negative digits)
    (hne : digits ≠ []) (h : ∀ c ∈ digits, Text.isDecimal c = true) :
    readInt s = if maxDigits < digits.length then .error (.tooLong digits.length)
      else .ok (if negative then -(Text.digitsValue digits : Int)
        else Text.digitsValue digits) := by
  have hchars : ∀ c ∈ s.toList, IsNumberChar c :=
    hs ▸ isNumberChar_withSign negative (isNumberChar_of_isDecimal h)
  have hascii := isAsciiDigit_map h
  have hmapped : digits.map asciiForm ≠ [] := by simpa using hne
  have hsign := splitSign_withSign negative hmapped hascii []
  rw [List.append_nil] at hsign
  have hall : (digits.map asciiForm).all Text.isAsciiDigit = true := List.all_eq_true.2 hascii
  simp only [readInt, numberChars?_eq hchars, hs, map_withSign, Option.map_some, hsign, hall,
    digitsValue_map_asciiForm h, List.length_map, List.isEmpty_eq_false_iff.2 hmapped]
  rfl

theorem mem_splitSign (h : c ∈ cs) (hminus : c ≠ '-') (hplus : c ≠ '+') :
    c ∈ (splitSign cs).2 := by
  unfold splitSign
  split
  · exact (List.mem_cons.1 h).resolve_left hminus
  · exact (List.mem_cons.1 h).resolve_left hplus
  · exact h

/-- Behind the sign of an integer there are only digits. -/
theorem readInt_of_mem (hchars : numberChars? s = some cs) (hmem : c ∈ (splitSign cs).2)
    (h : Text.isAsciiDigit c = false) : readInt s = .error (.malformed s) := by
  have hall : (splitSign cs).2.all Text.isAsciiDigit = false :=
    List.all_eq_false.2 ⟨c, hmem, by simp [h]⟩
  simp [readInt, hchars, hall]

/-- Digits behind more than one minus, or with a digit among them that is no decimal digit, are no
integer. -/
theorem readInt_of_stray {k : Nat} (hs : s.toList = List.replicate k '-' ++ digits)
    (h : ∀ c ∈ digits, Text.isDigit c = true)
    (hstray : 1 < k ∨ ∃ c ∈ digits, Text.isDecimal c = false) :
    readInt s = .error (.malformed s) := by
  have hchars : ∀ c ∈ s.toList, IsNumberChar c := fun c hc => by
    obtain hc | hc := List.mem_append.1 (hs ▸ hc)
    · exact .inl (List.eq_of_mem_replicate hc)
    · exact .inr (.inr (h c hc))
  have hread := numberChars?_eq hchars
  obtain hk | ⟨c, hc, hdecimal⟩ := hstray
  · obtain ⟨k, rfl⟩ : ∃ j, k = j + 2 := ⟨k - 2, by omega⟩
    rw [hs] at hread
    exact readInt_of_mem (c := '-') hread List.mem_cons_self (by decide)
  · have hdigit := h c hc
    obtain ⟨hsame, hascii⟩ := asciiForm_of_not_isDecimal hdigit hdecimal
    refine readInt_of_mem hread (mem_splitSign ?_ ?_ ?_) hascii
    · refine List.mem_map.2 ⟨c, ?_, hsame⟩
      rw [hs]
      exact List.mem_append_right _ hc
    · rintro rfl
      exact absurd hdigit (by decide)
    · rintro rfl
      exact absurd hdigit (by decide)

/-! ## Fractions -/

/-- Decimal digits around a point, with a minus or without, are the number nearest to the ratio that
they write. -/
theorem readDouble?_withSign {negative : Bool} {whole fraction : List Char}
    (hs : s.toList = Double.withSign negative (whole ++ '.' :: fraction)) (hne : whole ≠ [])
    (hwhole : ∀ c ∈ whole, Text.isDecimal c = true)
    (hfraction : ∀ c ∈ fraction, Text.isDecimal c = true) :
    readDouble? s = some (Double.ofRatio negative (Text.digitsValue (whole ++ fraction))
      (tenTo fraction.length)) := by
  have hchars : ∀ c ∈ s.toList, IsNumberChar c :=
    hs ▸ isNumberChar_withSign negative (isNumberChar_of_point hwhole hfraction)
  have hread : numberChars? s = some (Double.withSign negative
      (whole.map asciiForm ++ '.' :: fraction.map asciiForm)) := by
    rw [numberChars?_eq hchars, hs, map_withSign, List.map_append, List.map_cons]
    rfl
  have hdigits : ∀ c ∈ whole ++ fraction, Text.isDecimal c = true :=
    List.forall_mem_append.2 ⟨hwhole, hfraction⟩
  have hmapped : whole.map asciiForm ≠ [] := by simpa using hne
  have hascii := isAsciiDigit_map hwhole
  rw [Condition.readDouble?_of_splitSign hread (splitSign_withSign negative hmapped hascii _)
    hmapped hascii (isAsciiDigit_map hfraction), ← List.map_append,
    digitsValue_map_asciiForm hdigits, List.length_map, Double.ofDecimal_neg]

/-! ## Indices -/

namespace Path

/-- An index that is no integer's text, or one of too many digits: minus signs and digits, with more
than one minus, with a digit that is no decimal digit, or with more digits than are read. -/
def Unreadable (segment : String) : Prop :=
  ∃ (k : Nat) (digits : List Char), segment.toList = List.replicate k '-' ++ digits ∧
    digits ≠ [] ∧ (∀ c ∈ digits, Text.isDigit c = true) ∧
    (1 < k ∨ (∃ c ∈ digits, Text.isDecimal c = false) ∨ maxDigits < digits.length)

theorem isIndex_iff {segment : String} : isIndex segment = true ↔
    ∃ (k : Nat) (digits : List Char), segment.toList = List.replicate k '-' ++ digits ∧
      digits ≠ [] ∧ ∀ c ∈ digits, Text.isDigit c = true := by
  simp only [isIndex, Bool.and_eq_true, Bool.not_eq_true', List.isEmpty_eq_false_iff,
    List.all_eq_true]
  constructor
  · rintro ⟨hne, hdigits⟩
    refine ⟨(segment.toList.takeWhile (· == '-')).length, _, ?_, hne, hdigits⟩
    have hminus : segment.toList.takeWhile (· == '-') =
        List.replicate (segment.toList.takeWhile (· == '-')).length '-' :=
      List.eq_replicate_of_mem fun c hc => by simpa using List.mem_takeWhile_imp hc
    rw [← hminus, List.takeWhile_append_dropWhile]
  · rintro ⟨k, digits, hs, hne, hdigits⟩
    have hdrop : segment.toList.dropWhile (· == '-') = digits := by
      rw [hs, List.dropWhile_append_of_pos fun c hc => by simp [List.eq_of_mem_replicate hc]]
      refine List.dropWhile_eq_self_iff.2 fun hpos => ?_
      have hfirst := hdigits _ (List.getElem_mem hpos)
      rw [beq_iff_eq]
      intro heq
      rw [heq] at hfirst
      exact absurd hfirst (by decide)
    rw [hdrop]
    exact ⟨hne, hdigits⟩

/-- An index without a stray minus or digit is an integer, if its digits are few enough. -/
theorem readInt_of_index {segment : String} {k : Nat} {digits : List Char}
    (hs : segment.toList = List.replicate k '-' ++ digits) (hne : digits ≠ [])
    (h : ¬ (1 < k ∨ ∃ c ∈ digits, Text.isDecimal c = false)) :
    readInt segment = if maxDigits < digits.length then .error (.tooLong digits.length)
      else .ok (if k = 1 then -(Text.digitsValue digits : Int) else Text.digitsValue digits) := by
  rw [not_or, not_exists] at h
  obtain ⟨hk, hdecimal⟩ := h
  have hsign : segment.toList = Double.withSign (decide (k = 1)) digits := by
    obtain rfl | rfl : k = 0 ∨ k = 1 := by omega
    · exact hs
    · exact hs
  rw [readInt_withSign hsign hne fun c hc => by simpa using fun h => hdecimal c ⟨hc, h⟩]
  simp only [decide_eq_true_eq]

/-- Of the indices of a path just the unreadable ones are faults. -/
theorem unreadable_iff {segment : String} :
    Unreadable segment ↔ isIndex segment = true ∧ ∃ e, readInt segment = .error e := by
  rw [isIndex_iff]
  constructor
  · rintro ⟨k, digits, hs, hne, hdigits, hbad⟩
    refine ⟨⟨k, digits, hs, hne, hdigits⟩, ?_⟩
    by_cases hstray : 1 < k ∨ ∃ c ∈ digits, Text.isDecimal c = false
    · exact ⟨_, readInt_of_stray hs hdigits hstray⟩
    · have hlong : maxDigits < digits.length := by
        rw [← or_assoc] at hbad
        exact hbad.resolve_left hstray
      rw [readInt_of_index hs hne hstray, if_pos hlong]
      exact ⟨_, rfl⟩
  · rintro ⟨⟨k, digits, hs, hne, hdigits⟩, e, he⟩
    refine ⟨k, digits, hs, hne, hdigits, ?_⟩
    by_contra hgood
    rw [← or_assoc, not_or] at hgood
    rw [readInt_of_index hs hne hgood.1, if_neg hgood.2] at he
    cases he

end Path

end LeadDesk
