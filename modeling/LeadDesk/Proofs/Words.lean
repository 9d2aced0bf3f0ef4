import LeadDesk.Condition.Expression
import Mathlib.Data.List.TakeDrop
import Mathlib.Data.List.TakeWhile
/-!
# The words of an expression

What the words behind the tokens stand for: the digits of a number, the quotes of a
text, the segments of a path. A token is whole when its word is cut to just this token
(`Token.Whole`); numbers and paths whose digits are few enough are then always read.
-/

namespace LeadDesk

namespace Text

/-! ### ASCII letters -/

/-- Letters by their code points. -/
theorem isAlpha_iff {c : Char} :
    c.isAlpha = true ↔ 65 ≤ c.toNat ∧ c.toNat ≤ 90 ∨ 97 ≤ c.toNat ∧ c.toNat ≤ 122 := by
  have hletter : c.isAlpha = (decide (c.val ≥ 'A'.val ∧ c.val ≤ 'Z'.val) ||
      (decide (c.val ≥ 'a'.val) && decide (c.val ≤ 'z'.val))) := rfl
  rw [hletter]
  simp [UInt32.le_iff_toNat_le, ← Char.toNat_val]

theorem toNat_toLower (c : Char) :
    c.toLower.toNat = if 65 ≤ c.toNat ∧ c.toNat ≤ 90 then c.toNat + 32 else c.toNat := by
  have hbounds : (c.val ≥ 'A'.val ∧ c.val ≤ 'Z'.val) ↔ 65 ≤ c.toNat ∧ c.toNat ≤ 90 := by
    simp [UInt32.le_iff_toNat_le, ← Char.toNat_val]
  delta Char.toLower
  split
  · rename_i hupper
    have hcode : c.val.toNat ≤ 90 := (hbounds.1 hupper).2
    have hstep : ('a'.val - 'A'.val).toNat = 32 := rfl
    rw [if_pos (hbounds.1 hupper), ← Char.toNat_val, UInt32.toNat_add, hstep,
      Nat.mod_eq_of_lt (by omega), Char.toNat_val]
  · rename_i hupper
    rw [if_neg (mt hbounds.2 hupper)]

/-- What is no capital letter stays as it is. -/
theorem toLower_eq_self {c : Char} (h : ¬ (65 ≤ c.toNat ∧ c.toNat ≤ 90)) : c.toLower = c :=
  Char.toNat_inj.1 ((toNat_toLower c).trans (if_neg h))

end Text

namespace Condition

/-- The word of the token is cut to this token and nothing more. -/
def Token.Whole (t : Token) : Prop := token? t.text.toList = some t

instance (t : Token) : Decidable t.Whole := inferInstanceAs (Decidable (_ = _))

/-- Integers in the token are written with no more digits than are read: the number itself, and
the positions in a path. -/
def Token.Short : Token → Prop
  | ⟨.number, word⟩ => '.' ∈ word.toList ∨ word.length ≤ maxDigits
  | ⟨.path, word⟩ =>
    ∀ segment ∈ Path.segments word, Path.isIndex segment = true → segment.length ≤ maxDigits
  | _ => True

instance : (token : Token) → Decidable token.Short
  | ⟨.number, _⟩ => inferInstanceAs (Decidable (_ ∈ _ ∨ _))
  | ⟨.path, _⟩ => inferInstanceAs (Decidable (∀ segment ∈ _, _ → _))
  | ⟨.text, _⟩ | ⟨.operator, _⟩ => inferInstanceAs (Decidable True)

/-- The number that digits write, with a fraction behind a point or without. -/
def numeral (word : String) : Json :=
  let whole := word.toList.takeWhile (· != '.')
  let fraction := (word.toList.dropWhile (· != '.')).drop 1
  if word.toList.contains '.' then
    .float (Double.ofDecimal false (Text.digitsValue (whole ++ fraction)) (-fraction.length))
  else .int (Text.digitsValue word.toList)

/-- A quoted text without its quotes. -/
def unquoted (word : String) : Json := .string (String.ofList (word.toList.drop 1).dropLast)

/-! ### Characters of numbers -/

theorem isAsciiDigit_iff {c : Char} : Text.isAsciiDigit c = true ↔ 48 ≤ c.toNat ∧ c.toNat ≤ 57 := by
  simp only [Text.isAsciiDigit, Bool.and_eq_true, decide_eq_true_eq, Char.le_def,
    UInt32.le_iff_toNat_le]
  rfl

/-- Digits and the point: characters that reading a number leaves as they are. -/
def isPlain (c : Char) : Bool := Text.isAsciiDigit c || c == '.'

theorem not_blank_of_range {c : Char} (hlow : 33 ≤ c.toNat) (hhigh : c.toNat ≤ 126) :
    Text.isBlank c = false := by
  simp only [Text.isBlank, Text.inRanges, Text.blankRanges]
  simp
  omega

theorem plain_range {c : Char} (h : isPlain c = true) : 46 ≤ c.toNat ∧ c.toNat ≤ 57 := by
  simp only [isPlain, Bool.or_eq_true, isAsciiDigit_iff, beq_iff_eq] at h
  rcases h with h | rfl
  · omega
  · decide

theorem not_blank_of_plain {c : Char} (h : isPlain c = true) : Text.isBlank c = false := by
  have := plain_range h
  exact not_blank_of_range (by omega) (by omega)

theorem asciiForm_of_plain {c : Char} (h : isPlain c = true) : asciiForm c = c := by
  have := plain_range h
  have hsmall : c.toNat < 128 := by omega
  simp [asciiForm, hsmall, not_blank_of_plain h]

theorem withoutUnderscores_of_not_mem {cs : List Char} (h : '_' ∉ cs) (b : Bool) :
    withoutUnderscores b cs = some cs := by
  induction cs generalizing b with
  | nil => rfl
  | cons c cs ih =>
    simp only [List.mem_cons, not_or] at h
    have ih := ih h.2 (Text.isAsciiDigit c)
    unfold withoutUnderscores
    split <;> simp_all

theorem withoutUnderscores_of_plain {cs : List Char} (h : ∀ c ∈ cs, isPlain c = true) (b : Bool) :
    withoutUnderscores b cs = some cs :=
  withoutUnderscores_of_not_mem (fun hmem => absurd (h '_' hmem) (by decide)) b

theorem dropWhile_of_not {p : Char → Bool} {cs : List Char} (h : ∀ c ∈ cs, p c = false) :
    cs.dropWhile p = cs := by
  cases cs with
  | nil => rfl
  | cons c cs => simp [h c List.mem_cons_self]

theorem trimBlanks_of_not {cs : List Char} (h : ∀ c ∈ cs, Text.isBlank c = false) :
    Text.trimBlanks cs = cs := by
  rw [Text.trimBlanks, dropWhile_of_not h,
    dropWhile_of_not (fun c hc => h c (List.mem_reverse.mp hc)), List.reverse_reverse]

theorem numberChars?_of_plain {s : String} (h : ∀ c ∈ s.toList, isPlain c = true) :
    numberChars? s = some s.toList := by
  have hmap : s.toList.map asciiForm = s.toList :=
    (List.map_congr_left fun c hc => asciiForm_of_plain (h c hc)).trans (List.map_id _)
  rw [numberChars?, hmap, trimBlanks_of_not fun c hc => not_blank_of_plain (h c hc),
    withoutUnderscores_of_plain h]

theorem splitSign_of_digit {c : Char} {cs : List Char} (h : Text.isAsciiDigit c = true) :
    splitSign (c :: cs) = (false, c :: cs) := by
  unfold splitSign
  split <;> simp_all [Text.isAsciiDigit]

/-! ### Numbers -/

/-- A row of digits is the integer that it writes, if they are few enough. -/
theorem readInt_of_digits {s : String} (hne : s.toList ≠ [])
    (h : ∀ c ∈ s.toList, Text.isAsciiDigit c = true) :
    readInt s = if maxDigits < s.length then .error (.tooLong s.length)
      else .ok (Text.digitsValue s.toList) := by
  obtain ⟨c, cs, hs⟩ := List.exists_cons_of_ne_nil hne
  have hplain : ∀ c ∈ s.toList, isPlain c = true := fun c hc => by simp [isPlain, h c hc]
  have hsign : splitSign s.toList = (false, s.toList) := by
    rw [hs]
    exact splitSign_of_digit (h c (by simp [hs]))
  have hall : s.toList.all Text.isAsciiDigit = true := List.all_eq_true.mpr h
  simp only [readInt, numberChars?_of_plain hplain, Option.map_some, hsign, hall]
  simp [hne, String.length_toList]

/-- A row of digits is a whole number token. -/
theorem Token.whole_of_digits {word : String} (hne : word.toList ≠ [])
    (h : ∀ c ∈ word.toList, Text.isAsciiDigit c = true) : (⟨.number, word⟩ : Token).Whole := by
  obtain ⟨c, cs, hword⟩ := List.exists_cons_of_ne_nil hne
  have htake : (c :: cs).takeWhile Text.isAsciiDigit = c :: cs :=
    List.takeWhile_eq_self_iff.mpr (hword ▸ h)
  have hdigit := h c (by simp [hword])
  simp only [Whole, hword, token?, hdigit, if_true, numberChars, htake, List.drop_length]
  rw [← hword, String.ofList_toList]

/-- The characters of the number in front are digits, and behind a point digits again. -/
theorem numberChars_cases (cs : List Char) :
    numberChars cs = cs.takeWhile Text.isAsciiDigit ∨
      ∃ fraction, (∀ c ∈ fraction, Text.isAsciiDigit c = true) ∧
        numberChars cs = cs.takeWhile Text.isAsciiDigit ++ '.' :: fraction := by
  unfold numberChars
  dsimp only
  split
  next rest _ =>
    split
    · exact .inl rfl
    · exact .inr ⟨_, fun c hc => (List.all_eq_true.mp List.all_takeWhile) c hc, rfl⟩
  next => exact .inl rfl

/-- A whole number token is a row of digits, or two with a point between them. -/
theorem Token.Whole.digits {word : String} (h : (⟨.number, word⟩ : Token).Whole) :
    ∃ whole, whole ≠ [] ∧ (∀ c ∈ whole, Text.isAsciiDigit c = true) ∧
      (word.toList = whole ∨ ∃ fraction, (∀ c ∈ fraction, Text.isAsciiDigit c = true) ∧
        word.toList = whole ++ '.' :: fraction) := by
  have h : token? word.toList = some ⟨.number, word⟩ := h
  have hfront : ∃ c rest, word.toList = c :: rest ∧ Text.isAsciiDigit c = true ∧
      numberChars word.toList = word.toList := by
    cases hword : word.toList with
    | nil => simp [hword, token?] at h
    | cons c rest =>
      rw [hword, token?] at h
      split at h
      next hdigit =>
        obtain rfl : String.ofList (numberChars (c :: rest)) = word := by simpa using h
        exact ⟨c, rest, rfl, hdigit, by rwa [String.toList_ofList] at hword⟩
      next =>
        split at h
        · dsimp only at h; split at h <;> simp at h
        · split at h <;> simp at h
  obtain ⟨c, rest, hword, hdigit, hchars⟩ := hfront
  refine ⟨word.toList.takeWhile Text.isAsciiDigit, by simp [hword, hdigit],
    fun c hc => (List.all_eq_true.mp List.all_takeWhile) c hc, ?_⟩
  rw [hchars.symm]
  simpa [hchars] using numberChars_cases word.toList

theorem spanDigits_append {digits rest : List Char}
    (h : ∀ c ∈ digits, Text.isAsciiDigit c = true)
    (hrest : ∀ c ∈ rest.head?, Text.isAsciiDigit c = false) :
    spanDigits (digits ++ rest) = (digits, rest) := by
  rw [spanDigits, List.span_eq_takeWhile_dropWhile, List.takeWhile_append_of_pos h,
    List.dropWhile_append_of_pos h]
  cases rest with
  | nil => simp
  | cons c rest => simp [hrest c rfl]

/-- What starts with a digit is no word that starts with something else. -/
theorem lower_ne_of_digit {c : Char} {cs : List Char} {name : String}
    (h : Text.isAsciiDigit c = true) (hname : name.toList.head?.any Text.isAsciiDigit = false) :
    (String.ofList ((c :: cs).map Char.toLower) == name) = false := by
  have hlower : c.toLower = c := by
    rw [isAsciiDigit_iff] at h
    exact Text.toLower_eq_self (by omega)
  simp only [beq_eq_false_iff_ne]
  rintro rfl
  simp [hlower, h] at hname

/-- Digits with a point between them, behind a sign, are the number nearest to the decimal
fraction. -/
theorem readDouble?_of_splitSign {s : String} {cs whole fraction : List Char} {negative : Bool}
    (hchars : numberChars? s = some cs)
    (hsign : splitSign cs = (negative, whole ++ '.' :: fraction)) (hne : whole ≠ [])
    (hwhole : ∀ c ∈ whole, Text.isAsciiDigit c = true)
    (hfraction : ∀ c ∈ fraction, Text.isAsciiDigit c = true) :
    readDouble? s = some (Double.ofDecimal negative (Text.digitsValue (whole ++ fraction))
      (-fraction.length)) := by
  obtain ⟨c, front, rfl⟩ := List.exists_cons_of_ne_nil hne
  have hdigit := hwhole c List.mem_cons_self
  have hspan : spanDigits (c :: (front ++ '.' :: fraction)) = (c :: front, '.' :: fraction) :=
    spanDigits_append hwhole (by simp; decide)
  have hrest : spanDigits fraction = (fraction, []) := by
    have h : spanDigits (fraction ++ []) = (fraction, []) :=
      spanDigits_append hfraction (by simp)
    rwa [List.append_nil] at h
  simp only [readDouble?, hchars, Option.bind_some, hsign, List.cons_append]
  rw [lower_ne_of_digit hdigit (by rfl), lower_ne_of_digit hdigit (by rfl),
    lower_ne_of_digit hdigit (by rfl)]
  simp [readUnsigned?, hspan, hrest, readExponent?]

/-- Digits with a point between them are the number nearest to the decimal fraction. -/
theorem readDouble?_of_digits {s : String} {whole fraction : List Char} (hne : whole ≠ [])
    (hwhole : ∀ c ∈ whole, Text.isAsciiDigit c = true)
    (hfraction : ∀ c ∈ fraction, Text.isAsciiDigit c = true)
    (hs : s.toList = whole ++ '.' :: fraction) :
    readDouble? s = some (Double.ofDecimal false (Text.digitsValue (whole ++ fraction))
      (-fraction.length)) := by
  have hplain : ∀ c ∈ s.toList, isPlain c = true := by
    intro x hx
    rw [hs] at hx
    rcases List.mem_append.mp hx with hx | hx
    · simp [isPlain, hwhole x hx]
    · rcases List.mem_cons.mp hx with hx | hx
      · simp [isPlain, hx]
      · simp [isPlain, hfraction x hx]
  refine readDouble?_of_splitSign (numberChars?_of_plain hplain) ?_ hne hwhole hfraction
  obtain ⟨c, cs, rfl⟩ := List.exists_cons_of_ne_nil hne
  rw [hs]
  exact splitSign_of_digit (hwhole c List.mem_cons_self)

/-- The value of a whole number token is its numeral. -/
theorem numberValue_of_whole {word : String} (h : (⟨.number, word⟩ : Token).Whole)
    (hshort : (⟨.number, word⟩ : Token).Short) :
    numberValue word = .ok (some (numeral word)) := by
  obtain ⟨whole, hne, hwhole, hword | ⟨fraction, hfraction, hword⟩⟩ := h.digits
  · have hpoint : '.' ∉ word.toList := fun hmem =>
      absurd (hwhole '.' (hword ▸ hmem)) (by decide)
    have hlength : ¬ maxDigits < word.length := by
      rcases hshort with h | h
      · exact absurd h hpoint
      · omega
    rw [numberValue, numeral, readInt_of_digits (hword ▸ hne) (hword ▸ hwhole), if_neg hlength]
    simp [hpoint]
  · rw [numberValue, numeral, readDouble?_of_digits hne hwhole hfraction hword]
    have hstop : ∀ c ∈ whole, (c != '.') = true := fun c hc => by
      simp only [bne_iff_ne]
      rintro rfl
      exact absurd (hwhole '.' hc) (by decide)
    simp [hword, List.takeWhile_append_of_pos hstop, List.dropWhile_append_of_pos hstop]

/-- A number of too many digits is refused. -/
theorem numberValue_of_not_short {word : String} (h : (⟨.number, word⟩ : Token).Whole)
    (hshort : ¬ (⟨.number, word⟩ : Token).Short) :
    numberValue word = .error (.number (.tooLong word.length)) := by
  have hshort : ¬ ('.' ∈ word.toList ∨ word.length ≤ maxDigits) := hshort
  rw [not_or, Nat.not_le] at hshort
  obtain ⟨whole, hne, hwhole, hword | ⟨fraction, -, hword⟩⟩ := h.digits
  · rw [numberValue, readInt_of_digits (hword ▸ hne) (hword ▸ hwhole), if_pos hshort.2]
    simp [hshort.1]
  · exact absurd (by simp [hword]) hshort.1

/-! ### Paths -/

theorem pathTail_chars (cs : List Char) : ∀ c ∈ pathTail cs, isPathChar c = true ∨ c = '.' := by
  induction cs using pathTail.induct <;> simp_all [pathTail]

/-- The code points of letters, digits and the underscore. -/
theorem pathChar_range {c : Char} (h : isPathChar c = true) : 48 ≤ c.toNat ∧ c.toNat ≤ 122 := by
  simp only [isPathChar, Char.isAlphanum, Bool.or_eq_true, Text.isAlpha_iff, Char.isDigit,
    Bool.and_eq_true, decide_eq_true_eq, UInt32.le_iff_toNat_le, ge_iff_le, beq_iff_eq] at h
  have hval : c.toNat = c.val.toNat := rfl
  rcases h with h | rfl
  · simp at h
    omega
  · decide

/-- The characters of a whole path token are letters, digits, underscores and points. -/
theorem Token.Whole.pathChars {word : String} (h : (⟨.path, word⟩ : Token).Whole) :
    ∀ c ∈ word.toList, isPathChar c = true ∨ c = '.' := by
  have h : token? word.toList = some ⟨.path, word⟩ := h
  cases hword : word.toList with
  | nil => simp
  | cons c rest =>
    rw [hword, token?] at h
    split at h
    · simp at h
    · split at h
      · dsimp only at h; split at h <;> simp at h
      · split at h
        next hstart =>
          obtain rfl : String.ofList (c :: pathTail rest) = word := by simpa using h
          intro x hx
          rw [← hword, String.toList_ofList, List.mem_cons] at hx
          rcases hx with rfl | hx
          · rcases Bool.or_eq_true_iff.mp hstart with h | h
            · exact .inl (by simp [isPathChar, Char.isAlphanum, h])
            · exact .inl (by simp [isPathChar, h])
          · exact pathTail_chars rest x hx
        next => simp at h

theorem splitAtBars_of_not_mem {cs : List Char} (h : '|' ∉ cs) : splitAtBars cs = [cs] := by
  induction cs with
  | nil => rfl
  | cons c cs ih =>
    simp only [List.mem_cons, not_or] at h
    unfold splitAtBars
    split <;> simp_all

/-- The parts of a split list have none of the separators, and no new items. -/
theorem mem_of_mem_splitAtEach {sep c : Char} {cs part : List Char}
    (hpart : part ∈ splitAtEach sep cs) (hc : c ∈ part) : c ∈ cs ∧ c ≠ sep := by
  induction cs generalizing part with
  | nil => simp_all [splitAtEach]
  | cons x cs ih =>
    obtain ⟨head, tail, hsplit⟩ := List.exists_cons_of_ne_nil (splitAtEach_ne_nil sep cs)
    simp only [splitAtEach, hsplit] at hpart
    have ih : ∀ p ∈ head :: tail, c ∈ p → c ∈ cs ∧ c ≠ sep := fun p hp => ih (hsplit ▸ hp)
    split at hpart
    · rcases List.mem_cons.mp hpart with rfl | hpart
      · simp at hc
      · exact (ih part hpart hc).imp_left (List.mem_cons_of_mem x)
    next hx =>
      rcases List.mem_cons.mp hpart with rfl | hpart
      · rcases List.mem_cons.mp hc with rfl | hc
        · exact ⟨List.mem_cons_self, by simpa using hx⟩
        · exact (ih head List.mem_cons_self hc).imp_left (List.mem_cons_of_mem x)
      · exact (ih part (List.mem_cons_of_mem _ hpart) hc).imp_left (List.mem_cons_of_mem x)

/-- Below the code point 128 the digits of all scripts are the ASCII digits. -/
theorem isAsciiDigit_of_isDigit {c : Char} (hsmall : c.toNat < 128) (h : Text.isDigit c = true) :
    Text.isAsciiDigit c = true := by
  have hzeros : ∀ first ∈ Text.decimalZeros, first = 48 ∨ 128 ≤ first := by decide
  have hothers : ∀ r ∈ Text.otherDigitRanges, 128 ≤ r.1 := by decide
  rw [Text.isDigit, Bool.or_eq_true, Text.inRanges_iff] at h
  rcases h with h | ⟨r, hr, hlow, -⟩
  · simp only [Text.isDecimal, Text.decimalValue?, Option.isSome_map, List.find?_isSome,
      Bool.and_eq_true, decide_eq_true_eq] at h
    obtain ⟨first, hmem, hlow, hhigh⟩ := h
    rcases hzeros first hmem with rfl | hlarge
    · exact isAsciiDigit_iff.mpr ⟨hlow, hhigh⟩
    · omega
  · have := hothers r hr
    omega

/-- An index of path characters within the limit is read. -/
theorem readInt_of_isIndex {segment : String}
    (hchars : ∀ c ∈ segment.toList, isPathChar c = true) (hindex : Path.isIndex segment = true)
    (hshort : segment.length ≤ maxDigits) : ∃ n, readInt segment = .ok n := by
  have hminus : segment.toList.dropWhile (· == '-') = segment.toList := by
    refine dropWhile_of_not fun c hc => ?_
    simp only [beq_eq_false_iff_ne]
    rintro rfl
    exact absurd (hchars '-' hc) (by decide)
  simp only [Path.isIndex, hminus, Bool.and_eq_true, Bool.not_eq_true', List.isEmpty_eq_false_iff,
    List.all_eq_true] at hindex
  have hdigits : ∀ c ∈ segment.toList, Text.isAsciiDigit c = true := fun c hc =>
    isAsciiDigit_of_isDigit (by have := pathChar_range (hchars c hc); omega) (hindex.2 c hc)
  refine ⟨Text.digitsValue segment.toList, ?_⟩
  rw [readInt_of_digits hindex.1 hdigits, if_neg (by omega)]

/-- Following path characters comes to an end. -/
theorem walk_ok {segments : List String}
    (hchars : ∀ segment ∈ segments, ∀ c ∈ segment.toList, isPathChar c = true)
    (hshort : ∀ segment ∈ segments, Path.isIndex segment = true → segment.length ≤ maxDigits)
    (value : Option Json) : ∃ v, Path.walk value segments = .ok v := by
  induction segments generalizing value with
  | nil => exact ⟨value, rfl⟩
  | cons segment segments ih =>
    have ih := ih (fun s hs => hchars s (List.mem_cons_of_mem _ hs))
      (fun s hs => hshort s (List.mem_cons_of_mem _ hs))
    have hstep : ∀ v, ∃ next, Path.step v segment = .ok next := by
      intro v
      unfold Path.step
      split
      · exact ⟨_, rfl⟩
      · split
        · exact ⟨_, rfl⟩
        · split
          next hindex =>
            obtain ⟨n, hn⟩ := readInt_of_isIndex (hchars segment List.mem_cons_self) hindex
              (hshort segment List.mem_cons_self hindex)
            exact ⟨_, by rw [hn]; rfl⟩
          next => exact ⟨_, rfl⟩
      · exact ⟨_, rfl⟩
      · exact ⟨_, rfl⟩
    cases value with
    | none => exact ⟨none, rfl⟩
    | some v =>
      obtain ⟨next, hnext⟩ := hstep v
      obtain ⟨w, hw⟩ := ih next
      exact ⟨w, by rw [Path.walk, hnext]; exact hw⟩

/-- A whole path token leads to a value or to none. -/
theorem resolve_of_whole {word : String} (h : (⟨.path, word⟩ : Token).Whole)
    (hshort : (⟨.path, word⟩ : Token).Short) (context : Json) :
    ∃ v, Operand.resolve context word = .ok v := by
  have hbars : '|' ∉ word.toList := fun hmem => by
    have := h.pathChars _ hmem
    revert this; decide
  rw [Operand.resolve, splitAtBars_of_not_mem hbars]
  refine walk_ok (fun segment hsegment c hc => ?_) hshort (some context)
  obtain ⟨part, hpart, rfl⟩ := List.mem_map.mp hsegment
  rw [String.toList_ofList] at hc
  have hblank : ∀ c ∈ word.toList, Text.isBlank c = false := by
    intro c hc
    rcases h.pathChars c hc with h | rfl
    · have := pathChar_range h
      exact not_blank_of_range (by omega) (by omega)
    · decide
  rw [trimBlanks_of_not hblank] at hpart
  obtain ⟨hword, hpoint⟩ := mem_of_mem_splitAtEach hpart hc
  exact (h.pathChars c hword).resolve_right hpoint

end Condition
end LeadDesk
