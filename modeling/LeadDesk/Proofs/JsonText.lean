import LeadDesk.Json.Printer
import LeadDesk.Proofs.Numerals
import LeadDesk.Proofs.Rows
import LeadDesk.Template.Basic
/-!
# JSON text is read back

The JSON text of a value without floating-point numbers is read as that value, with the fields of
objects in their order (`Json.read_compact`), provided that its integers have no more digits than
are written and that no object has two fields with one key (`Json.IsExact`). Each character of a
text is read back from its escape, one above the basic plane from the two halves of its pair
(`Json.readString_escapeChar`).
-/

namespace LeadDesk

/-! ## Hexadecimal digits -/

namespace Text

theorem hexDigits_succ {width : Nat} (hwidth : 0 < width) (n : Nat) :
    hexDigits (width + 1) n = hexDigits width (n / 16) ++ [Nat.digitChar (n % 16)] := by
  unfold hexDigits
  by_cases h : n < 16
  · have hzero : n / 16 = 0 := Nat.div_eq_of_lt h
    have hrow : List.replicate width '0' = List.replicate (width - 1) '0' ++ ['0'] := by
      rw [← List.replicate_succ', Nat.sub_add_cancel hwidth]
    rw [hzero, Nat.toDigits_of_lt_base h, Nat.toDigits_of_lt_base (by decide), Nat.mod_eq_of_lt h]
    simp [hrow, Nat.digitChar]
  · rw [Nat.toDigits_of_base_le (by decide) (Nat.le_of_not_lt h)]
    simp

/-- A code unit has four hexadecimal digits. -/
theorem hexDigits_four {n : Nat} (h : n < 0x10000) :
    hexDigits 4 n = [Nat.digitChar (n / 16 / 16 / 16), Nat.digitChar (n / 16 / 16 % 16),
      Nat.digitChar (n / 16 % 16), Nat.digitChar (n % 16)] := by
  have hone : hexDigits 1 (n / 16 / 16 / 16) = [Nat.digitChar (n / 16 / 16 / 16)] := by
    rw [hexDigits, Nat.toDigits_of_lt_base (by omega)]
    rfl
  rw [hexDigits_succ (by decide), hexDigits_succ (by decide), hexDigits_succ (by decide), hone]
  rfl

theorem length_hexDigits_four {n : Nat} (h : n < 0x10000) : (hexDigits 4 n).length = 4 := by
  rw [hexDigits_four h]
  rfl

end Text

namespace Json

theorem hexValue?_digitChar : ∀ d < 16, hexValue? (Nat.digitChar d) = some d := by decide

/-- Four hexadecimal digits are read as the code unit that they write. -/
theorem hexUnit?_hexDigits {n : Nat} (h : n < 0x10000) :
    hexUnit? (Text.hexDigits 4 n) = some n := by
  have hfirst := hexValue?_digitChar (n / 16 / 16 / 16) (by omega)
  have hsecond := hexValue?_digitChar (n / 16 / 16 % 16) (by omega)
  have hthird := hexValue?_digitChar (n / 16 % 16) (by omega)
  have hlast := hexValue?_digitChar (n % 16) (by omega)
  have hsum :
      ((n / 16 / 16 / 16 * 16 + n / 16 / 16 % 16) * 16 + n / 16 % 16) * 16 + n % 16 = n := by
    omega
  rw [Text.hexDigits_four h]
  simp only [hexUnit?, hfirst, hsecond, hthird, hlast, bind, Option.bind, pure, hsum]

/-! ## Texts -/

/-- A character is no half of a pair. -/
theorem not_half (c : Char) : isHighUnit c.toNat = false ∧ isLowUnit c.toNat = false := by
  have hvalid : c.toNat < 0xd800 ∨ 0xdfff < c.toNat ∧ c.toNat < 0x110000 := c.valid
  simp only [isHighUnit, isLowUnit, Bool.and_eq_false_iff, decide_eq_false_iff_not]
  omega

theorem lt_of_isHighUnit {n : Nat} (h : isHighUnit n = true) : n < 0x10000 := by
  simp only [isHighUnit, Bool.and_eq_true, decide_eq_true_eq] at h
  omega

theorem lt_of_isLowUnit {n : Nat} (h : isLowUnit n = true) : n < 0x10000 := by
  simp only [isLowUnit, Bool.and_eq_true, decide_eq_true_eq] at h
  omega

theorem length_unitEscape {n : Nat} (h : n < 0x10000) : (unitEscape n).length = 6 := by
  rw [unitEscape, List.length_cons, List.length_cons, Text.length_hexDigits_four h]

variable {start fuel i n : Nat} {acc : List Char} {more : List Char}

/-- The escape of a code unit that is no half of a pair is read as its character. -/
theorem readString_unitEscape (hn : n < 0x10000) (hhigh : isHighUnit n = false)
    (hlow : isLowUnit n = false) (hmore : more ≠ []) :
    readString start (fuel + 1) acc ⟨unitEscape n ++ more, i⟩ =
      readString start fuel (Char.ofNat n :: acc) ⟨more, i + 6⟩ := by
  have hlength := Text.length_hexDigits_four hn
  have hpos : 0 < more.length := List.length_pos_iff.2 hmore
  have hlong : ¬ (Text.hexDigits 4 n ++ more).length < 5 := by
    rw [List.length_append, hlength]
    omega
  have htake : (Text.hexDigits 4 n ++ more).take 4 = Text.hexDigits 4 n :=
    List.take_left' hlength
  have hdrop : (unitEscape n ++ more).drop 6 = more :=
    List.drop_left' (length_unitEscape hn)
  simp only [unitEscape, List.cons_append] at hdrop
  simp only [unitEscape, List.cons_append, readString, hlong, htake, hexUnit?_hexDigits hn, hhigh,
    hlow, if_false, Bool.false_eq_true, Cursor.advance, hdrop]

/-- The escapes of the two halves of a pair are read as one character. -/
theorem readString_pair {high low : Nat} (hhigh : isHighUnit high = true)
    (hlow : isLowUnit low = true) (hmore : more ≠ []) :
    readString start (fuel + 1) acc ⟨unitEscape high ++ unitEscape low ++ more, i⟩ =
      readString start fuel
        (Char.ofNat (0x10000 + (high - 0xd800) * 0x400 + (low - 0xdc00)) :: acc)
        ⟨more, i + 12⟩ := by
  have hhighBound := lt_of_isHighUnit hhigh
  have hlowBound := lt_of_isLowUnit hlow
  have hhighLength := Text.length_hexDigits_four hhighBound
  have hlowLength := Text.length_hexDigits_four hlowBound
  have hpos : 0 < more.length := List.length_pos_iff.2 hmore
  have hbehind : (Text.hexDigits 4 low ++ more).length = more.length + 4 := by
    rw [List.length_append, hlowLength, Nat.add_comm]
  have hlong : ¬ (Text.hexDigits 4 high ++ '\\' :: 'u' :: (Text.hexDigits 4 low ++ more)).length <
      5 := by
    rw [List.length_append, List.length_cons, List.length_cons, hbehind]
    omega
  have hrest : ¬ (Text.hexDigits 4 low ++ more).length < 5 := by
    omega
  have hafter : (unitEscape high ++ '\\' :: 'u' :: (Text.hexDigits 4 low ++ more)).drop 6 =
      '\\' :: 'u' :: (Text.hexDigits 4 low ++ more) :=
    List.drop_left' (length_unitEscape hhighBound)
  have hend : (unitEscape low ++ more).drop 6 = more :=
    List.drop_left' (length_unitEscape hlowBound)
  simp only [unitEscape, List.cons_append] at hafter hend
  simp only [unitEscape, List.cons_append, List.append_assoc, readString, hlong,
    List.take_left' hhighLength, hexUnit?_hexDigits hhighBound, hhigh, if_true, if_false,
    Cursor.advance, hafter, lowerHalf, hrest, List.take_left' hlowLength,
    hexUnit?_hexDigits hlowBound, hlow, hend, Nat.add_assoc]

/-- A character that is written as it is. -/
theorem readString_plain {c : Char} (hquote : c ≠ '"') (hslash : c ≠ '\\')
    (hcontrol : 32 ≤ c.toNat) :
    readString start (fuel + 1) acc ⟨c :: more, i⟩ =
      readString start fuel (c :: acc) ⟨more, i + 1⟩ := by
  rw [readString]
  dsimp only
  split
  · rename_i h
    cases h
  · rename_i h
    exact absurd (List.cons.inj h).1 hquote
  · rename_i h
    exact absurd (List.cons.inj h).1 hslash
  · rename_i h
    exact absurd (List.cons.inj h).1 hslash
  · rename_i h
    exact absurd (List.cons.inj h).1 hslash
  · rename_i h
    obtain ⟨rfl, rfl⟩ := List.cons.inj h
    exact if_neg (Nat.not_lt.2 hcontrol)

/-- A character that is written by a letter of its own. -/
theorem readString_simple {c e : Char} (he : e ≠ 'u') (hc : simpleEscape? e = some c) :
    readString start (fuel + 1) acc ⟨['\\', e] ++ more, i⟩ =
      readString start fuel (c :: acc) ⟨more, i + 2⟩ := by
  rw [List.cons_append, List.cons_append, List.nil_append, readString]
  simp only [hc, Cursor.advance, List.drop_succ_cons, List.drop_zero]

/-- A character above the basic plane is put together from the halves of its pair. -/
theorem pair_of_large {c : Char} (h : 0x10000 ≤ c.toNat) :
    isHighUnit (0xd800 + (c.toNat - 0x10000) / 0x400) = true ∧
      isLowUnit (0xdc00 + (c.toNat - 0x10000) % 0x400) = true ∧
      Char.ofNat (0x10000 + (0xd800 + (c.toNat - 0x10000) / 0x400 - 0xd800) * 0x400 +
        (0xdc00 + (c.toNat - 0x10000) % 0x400 - 0xdc00)) = c := by
  have hvalid : c.toNat < 0xd800 ∨ 0xdfff < c.toNat ∧ c.toNat < 0x110000 := c.valid
  have hsum : 0x10000 + (0xd800 + (c.toNat - 0x10000) / 0x400 - 0xd800) * 0x400 +
      (0xdc00 + (c.toNat - 0x10000) % 0x400 - 0xdc00) = c.toNat := by omega
  refine ⟨?_, ?_, ?_⟩
  · simp only [isHighUnit, Bool.and_eq_true, decide_eq_true_eq]
    omega
  · simp only [isLowUnit, Bool.and_eq_true, decide_eq_true_eq]
    omega
  · rw [hsum, Char.ofNat_toNat]

/-- What is written for a character in a text is read as that character. -/
theorem readString_escapeChar (c : Char) (hmore : more ≠ []) :
    readString start (fuel + 1) acc ⟨escapeChar c ++ more, i⟩ =
      readString start fuel (c :: acc) ⟨more, i + (escapeChar c).length⟩ := by
  unfold escapeChar
  simp only [beq_iff_eq, Bool.and_eq_true, decide_eq_true_eq]
  iterate 7
    split
    · rename_i h
      subst h
      exact readString_simple (by decide) rfl
  split
  · rename_i hquote hslash _ _ _ _ _ hplain
    exact readString_plain hquote hslash hplain.1
  split
  · rename_i hbasic
    obtain ⟨hhigh, hlow⟩ := not_half c
    rw [readString_unitEscape hbasic hhigh hlow hmore, Char.ofNat_toNat, length_unitEscape hbasic]
  · rename_i hlarge
    obtain ⟨hhigh, hlow, hchar⟩ := pair_of_large (Nat.le_of_not_lt hlarge)
    rw [readString_pair hhigh hlow hmore, hchar, List.length_append,
      length_unitEscape (lt_of_isHighUnit hhigh), length_unitEscape (lt_of_isLowUnit hlow)]

variable {rest : List Char}

/-- The characters of a text are read back up to the closing quote. -/
theorem readString_escaped (cs : List Char) (hfuel : cs.length < fuel) :
    readString start fuel acc ⟨cs.flatMap escapeChar ++ '"' :: rest, i⟩ =
      .ok (String.ofList (acc.reverse ++ cs), ⟨rest, i + (cs.flatMap escapeChar).length + 1⟩) := by
  induction cs generalizing fuel acc i with
  | nil =>
    obtain ⟨fuel, rfl⟩ : ∃ k, fuel = k + 1 := ⟨fuel - 1, by grind⟩
    simp [readString, Cursor.next]
  | cons c cs ih =>
    obtain ⟨fuel, rfl⟩ : ∃ k, fuel = k + 1 := ⟨fuel - 1, by grind⟩
    have hmore : cs.flatMap escapeChar ++ '"' :: rest ≠ [] := by simp
    have hrest : cs.length < fuel := Nat.lt_of_succ_lt_succ hfuel
    rw [List.flatMap_cons, List.append_assoc, readString_escapeChar c hmore, ih hrest]
    simp [Nat.add_assoc]

theorem toList_printText (s : String) :
    (printText s).toList = '"' :: (s.toList.flatMap escapeChar ++ ['"']) := by
  rw [printText, String.toList_ofList, List.cons_append]

theorem length_le_flatMap_escapeChar (cs : List Char) :
    cs.length ≤ (cs.flatMap escapeChar).length := by
  induction cs with
  | nil => exact Nat.le_refl _
  | cons c cs ih =>
    have hpos : 0 < (escapeChar c).length := by
      unfold escapeChar unitEscape
      grind
    rw [List.flatMap_cons, List.length_append, List.length_cons]
    omega

/-- A printed text is read back behind its opening quote. -/
theorem readString_printText (s : String) (hfuel : (printText s).toList.length ≤ fuel) :
    readString start fuel [] (Cursor.next ⟨(printText s).toList ++ rest, i⟩) =
      .ok (s, ⟨rest, i + (printText s).toList.length⟩) := by
  have hlength := length_le_flatMap_escapeChar s.toList
  rw [toList_printText, List.length_cons, List.length_append, List.length_singleton] at hfuel
  have hread : readString start fuel [] ⟨s.toList.flatMap escapeChar ++ '"' :: rest, i + 1⟩ = _ :=
    readString_escaped s.toList (by omega)
  rw [toList_printText]
  rw [List.cons_append, List.append_assoc, List.length_cons, List.length_append, Cursor.next]
  refine hread.trans ?_
  simp only [List.reverse_nil, List.nil_append, String.ofList_toList, List.length_singleton,
    Nat.add_assoc, Nat.add_comm 1]

end Json

/-! ## Integers -/

namespace Text

theorem head?_toDigits {n : Nat} (h : 0 < n) : (Nat.toDigits 10 n).head? ≠ some '0' := by
  induction n using Nat.strongRecOn with
  | ind n ih =>
    by_cases hsmall : n < 10
    · have hdigit : ∀ d < 10, 0 < d → Nat.digitChar d ≠ '0' := by decide
      rw [Nat.toDigits_of_lt_base hsmall, List.head?_cons]
      exact fun heq => hdigit n hsmall h (Option.some.inj heq)
    · have hdiv : 0 < n / 10 := Nat.div_pos (Nat.le_of_not_lt hsmall) (by decide)
      rw [Nat.toDigits_of_base_le (by decide) (Nat.le_of_not_lt hsmall),
        List.head?_append_of_ne_nil _ Nat.toDigits_ne_nil]
      exact ih _ (Nat.div_lt_self h (by decide)) hdiv

/-- An integer is written as the digits of its size, behind a minus if it is negative. -/
theorem toList_toString_int (n : Int) :
    (toString n).toList = Double.withSign (n < 0) (Nat.toDigits 10 n.natAbs) := by
  change (Int.repr n).toList = _
  cases n with
  | ofNat n =>
    rw [Int.repr, Nat.toList_repr]
    rfl
  | negSucc n =>
    have hsign : decide (Int.negSucc n < 0) = true := decide_eq_true (Int.negSucc_lt_zero n)
    rw [Int.repr, String.toList_append, Nat.toList_repr, hsign]
    simp [Double.withSign]

end Text

namespace Json

/-- What may stand right behind a value: the end of the text, or what separates or closes
values. -/
def IsDelimited (rest : List Char) : Prop :=
  ∀ c ∈ rest.head?, c = ',' ∨ c = ']' ∨ c = '\x7d'

theorem IsDelimited.cases {rest : List Char} (h : IsDelimited rest) :
    rest = [] ∨ ∃ c more, rest = c :: more ∧ (c = ',' ∨ c = ']' ∨ c = '\x7d') := by
  cases rest with
  | nil => exact .inl rfl
  | cons c more => exact .inr ⟨c, more, rfl, h c rfl⟩

theorem wholePart_toDigits (n : Nat) (hrest : IsDelimited rest) :
    wholePart (Nat.toDigits 10 n ++ rest) = Nat.toDigits 10 n := by
  have hstop : rest.takeWhile Text.isAsciiDigit = [] := by
    obtain rfl | ⟨c, more, rfl, rfl | rfl | rfl⟩ := hrest.cases <;> rfl
  obtain rfl | hpos := Nat.eq_zero_or_pos n
  · rfl
  · have hhead : ∀ more, Nat.toDigits 10 n ++ rest ≠ '0' :: more := fun more heq => by
      refine Text.head?_toDigits hpos ?_
      rw [← List.head?_append_of_ne_nil _ Nat.toDigits_ne_nil, heq, List.head?_cons]
    unfold wholePart
    split
    · rename_i heq
      exact absurd heq (hhead _)
    · rw [List.takeWhile_append_of_pos fun c => Text.isAsciiDigit_of_mem_toDigits, hstop,
        List.append_nil]

/-- Digits behind a minus or without are read as the integer that they write. -/
theorem readNumber_withSign {negative : Bool} {digits : List Char} {n : Int} (hne : digits ≠ [])
    (hdigit : ∀ c ∈ digits, Text.isAsciiDigit c = true)
    (hwhole : wholePart (digits ++ rest) = digits) (hrest : IsDelimited rest)
    (hread : readInt (String.ofList (Double.withSign negative digits)) = .ok n) :
    readNumber ⟨Double.withSign negative digits ++ rest, i⟩ =
      .ok (.int n, ⟨rest, i + (Double.withSign negative digits).length⟩) := by
  have hfraction : fractionPart rest = [] := by
    obtain rfl | ⟨c, more, rfl, rfl | rfl | rfl⟩ := hrest.cases <;> rfl
  have hexponent : exponentPart rest = [] := by
    obtain rfl | ⟨c, more, rfl, rfl | rfl | rfl⟩ := hrest.cases <;> rfl
  have hfirst : ∀ more, digits ++ rest ≠ '-' :: more := fun more heq => by
    obtain ⟨first, others, rfl⟩ := List.exists_cons_of_ne_nil hne
    rw [(List.cons.inj heq).1] at hdigit
    exact absurd (hdigit '-' List.mem_cons_self) (by decide)
  have hsigned : Double.withSign negative digits = Double.withSign negative [] ++ digits := by
    cases negative <;> rfl
  rw [hsigned] at hread ⊢
  rw [readNumber]
  split
  rename_i sign body hsplit
  obtain ⟨rfl, rfl⟩ : sign = Double.withSign negative [] ∧ body = digits ++ rest := by
    cases negative with
    | true =>
      cases hsplit
      exact ⟨rfl, rfl⟩
    | false =>
      split at hsplit
      · rename_i heq
        exact absurd heq (hfirst _)
      · cases hsplit
        exact ⟨rfl, rfl⟩
  rw [hwhole]
  split
  · exact absurd rfl hne
  · simp only [List.drop_left, hfraction, List.length_nil, List.drop_zero, hexponent,
      List.isEmpty_nil, Bool.and_self, if_true, List.append_nil, hread, Cursor.advance]

/-- A written integer is read back. -/
theorem readNumber_toString {n : Int} (hn : n.natAbs < tenTo maxDigits)
    (hrest : IsDelimited rest) :
    readNumber ⟨(toString n).toList ++ rest, i⟩ =
      .ok (.int n, ⟨rest, i + (toString n).toList.length⟩) := by
  rw [tenTo_eq] at hn
  have hshort : ¬ maxDigits < (Nat.toDigits 10 n.natAbs).length :=
    Nat.not_lt.2 ((Nat.length_toDigits_le_iff (by decide) (by decide)).2 hn)
  have hdigit : ∀ c ∈ Nat.toDigits 10 n.natAbs, Text.isAsciiDigit c = true :=
    fun c => Text.isAsciiDigit_of_mem_toDigits
  have hread : readInt (String.ofList (Double.withSign (n < 0) (Nat.toDigits 10 n.natAbs))) = _ :=
    readInt_withSign String.toList_ofList Nat.toDigits_ne_nil fun c hc =>
      Text.isDecimal_of_isAsciiDigit (hdigit c hc)
  rw [Text.toList_toString_int]
  refine readNumber_withSign Nat.toDigits_ne_nil hdigit (wholePart_toDigits _ hrest) hrest ?_
  rw [hread, if_neg hshort, Text.digitsValue_toDigits]
  grind

end Json


/-! ## Values -/

/-- A value under a new key is put at the end. -/
theorem Fields.put_of_not_mem {fields : Fields} {key : String} (h : key ∉ keys fields) (v : Json) :
    put fields key v = fields ++ [(key, v)] := by
  induction fields with
  | nil => rfl
  | cons f rest ih =>
    obtain ⟨k, w⟩ := f
    obtain ⟨hk, hrest⟩ := not_or.1 (mt List.mem_cons.2 h)
    have hne : (k == key) = false := beq_false_of_ne (Ne.symm hk)
    rw [put, hne, List.cons_append, ih hrest]
    rfl

namespace Json

mutual

/-- The value is read back from its text: no floating-point number is in it, its integers have no
more digits than are written and its objects have distinct keys. -/
def IsExact : Json → Prop
  | null | bool _ | string _ => True
  | int n => n.natAbs < tenTo maxDigits
  | float _ => False
  | array items => AllExact items
  | object fields => (Fields.keys fields).Nodup ∧ FieldsExact fields

/-- All items of a list are read back. -/
def AllExact : List Json → Prop
  | [] => True
  | v :: rest => IsExact v ∧ AllExact rest

/-- All values of an object are read back. -/
def FieldsExact : List (String × Json) → Prop
  | [] => True
  | (_, v) :: rest => IsExact v ∧ FieldsExact rest

end

/-- The text starts with a character that is no blank, closes nothing and marks no encoding. -/
def IsSolid (cs : List Char) : Prop :=
  ∃ c more, cs = c :: more ∧ isSpace c = false ∧ c ∉ [']', '\x7d', '\ufeff']

variable {cs : List Char} {j : Nat} {v : Json} {items : List Json} {fields : Fields}

theorem next_cons {c : Char} : Cursor.next ⟨c :: more, i⟩ = ⟨more, i + 1⟩ := rfl

theorem skipSpace_cons {c : Char} (hc : isSpace c = false) :
    Cursor.skipSpace ⟨c :: more, i⟩ = ⟨c :: more, i⟩ := by
  simp [Cursor.skipSpace, hc]

theorem IsSolid.append (h : IsSolid cs) (more : List Char) : IsSolid (cs ++ more) := by
  obtain ⟨c, others, rfl, hc⟩ := h
  exact ⟨c, others ++ more, rfl, hc⟩

theorem IsSolid.skipSpace (h : IsSolid cs) : Cursor.skipSpace ⟨cs, i⟩ = ⟨cs, i⟩ := by
  obtain ⟨c, more, rfl, hc, -⟩ := h
  exact skipSpace_cons hc

theorem isSolid_printText (s : String) : IsSolid (printText s).toList := by
  rw [toList_printText]
  exact ⟨_, _, rfl, by decide⟩

theorem isSolid_toString (n : Int) : IsSolid (toString n).toList := by
  rw [Text.toList_toString_int]
  have hne : Nat.toDigits 10 n.natAbs ≠ [] := Nat.toDigits_ne_nil
  obtain ⟨c, more, hdigits⟩ := List.exists_cons_of_ne_nil hne
  have hc := Text.isAsciiDigit_of_mem_toDigits (hdigits ▸ List.mem_cons_self)
  rw [hdigits]
  cases decide (n < 0) with
  | true => exact ⟨_, _, rfl, by decide⟩
  | false =>
    refine ⟨c, more, rfl, ?_, fun hmem => ?_⟩
    · by_contra hspace
      simp only [isSpace, Bool.not_eq_false, Bool.or_eq_true, beq_iff_eq] at hspace
      obtain ((rfl | rfl) | rfl) | rfl := hspace <;> exact absurd hc (by decide)
    · have hother : ∀ other ∈ [']', '\x7d', '\ufeff'], Text.isAsciiDigit other = false := by
        simp only [List.mem_cons, List.not_mem_nil, or_false, forall_eq_or_imp, forall_eq]
        decide
      rw [hother c hmem] at hc
      cases hc

theorem isSolid_print (hv : IsExact v) : IsSolid (print tight v).toList := by
  cases v with
  | null => exact ⟨'n', "ull".toList, by simp [print], by decide⟩
  | bool b =>
    cases b with
    | false => exact ⟨'f', "alse".toList, by simp [print], by decide⟩
    | true => exact ⟨'t', "rue".toList, by simp [print], by decide⟩
  | int n => exact isSolid_toString n
  | float d => exact hv.elim
  | string s => exact isSolid_printText s
  | array items =>
    exact ⟨'[', (printItems tight items).toList ++ [']'], by simp [print], by decide⟩
  | object fields =>
    exact ⟨'\x7b', (printFields tight fields).toList ++ ['\x7d'], by simp [print], by decide⟩

theorem isSolid_printItems (hitems : AllExact items) (hne : items ≠ []) :
    IsSolid (printItems tight items).toList := by
  match items, hne with
  | [v], _ =>
    exact isSolid_print hitems.1
  | v :: w :: rest, _ =>
    rw [printItems, String.append_assoc, String.toList_append]
    exact (isSolid_print hitems.1).append _

theorem isSolid_printFields (hne : fields ≠ []) : IsSolid (printFields tight fields).toList := by
  match fields, hne with
  | [(k, v)], _ =>
    rw [printFields, String.append_assoc, String.toList_append]
    exact (isSolid_printText k).append _
  | (k, v) :: f :: rest, _ =>
    simp only [printFields, String.append_assoc, String.toList_append]
    exact (isSolid_printText k).append _

/-- The last item of a list. -/
theorem readItems_last {c : Cursor} {acc : List Json}
    (h : readValue fuel c = .ok (v, ⟨']' :: rest, j⟩)) :
    readItems (fuel + 1) acc c = .ok (.array (acc.reverse ++ [v]), ⟨rest, j + 1⟩) := by
  rw [readItems, h, ← List.reverse_cons]
  rfl

/-- An item of a list with others behind it. -/
theorem readItems_next {c : Cursor} {acc : List Json}
    (h : readValue fuel c = .ok (v, ⟨',' :: more, j⟩)) (hmore : IsSolid more) :
    readItems (fuel + 1) acc c = readItems fuel (v :: acc) ⟨more, j + 1⟩ := by
  rw [readItems, h, ← hmore.skipSpace]
  rfl

/-- A key and its value up to what stands behind them. -/
theorem readFields_field {k : String} {vs : List Char} {acc : Fields}
    (hk : (printText k).toList.length ≤ fuel) (hvs : IsSolid vs)
    (h : readValue fuel ⟨vs, i + (printText k).toList.length + 1⟩ = .ok (v, ⟨more, j⟩)) :
    readFields (fuel + 1) acc ⟨(printText k).toList ++ ':' :: vs, i⟩ =
      let c := Cursor.skipSpace ⟨more, j⟩
      match c.rest with
      | '\x7d' :: _ => .ok (.object (Fields.put acc k v), c.next)
      | ',' :: _ => readFields fuel (Fields.put acc k v) c.next.skipSpace
      | _ => .error (.at .expectingComma c.index) := by
  have hread : readString i fuel [] (Cursor.next ⟨(printText k).toList ++ ':' :: vs, i⟩) = _ :=
    readString_printText k hk
  have hkey := toList_printText k
  generalize (printText k).toList = key at *
  subst hkey
  rw [List.cons_append] at hread ⊢
  rw [readFields]
  dsimp only
  rw [hread]
  dsimp only
  rw [skipSpace_cons (by decide), next_cons, hvs.skipSpace, h]
  rfl

/-- The last field of an object. -/
theorem readFields_last {k : String} {vs : List Char} {acc : Fields}
    (hk : (printText k).toList.length ≤ fuel) (hvs : IsSolid vs) (hnew : k ∉ Fields.keys acc)
    (h : readValue fuel ⟨vs, i + (printText k).toList.length + 1⟩ = .ok (v, ⟨'\x7d' :: rest, j⟩)) :
    readFields (fuel + 1) acc ⟨(printText k).toList ++ ':' :: vs, i⟩ =
      .ok (.object (acc ++ [(k, v)]), ⟨rest, j + 1⟩) := by
  rw [readFields_field hk hvs h, Fields.put_of_not_mem hnew]
  rfl

/-- A field of an object with others behind it. -/
theorem readFields_next {k : String} {vs : List Char} {acc : Fields}
    (hk : (printText k).toList.length ≤ fuel) (hvs : IsSolid vs) (hnew : k ∉ Fields.keys acc)
    (h : readValue fuel ⟨vs, i + (printText k).toList.length + 1⟩ = .ok (v, ⟨',' :: more, j⟩))
    (hmore : IsSolid more) :
    readFields (fuel + 1) acc ⟨(printText k).toList ++ ':' :: vs, i⟩ =
      readFields fuel (acc ++ [(k, v)]) ⟨more, j + 1⟩ := by
  rw [readFields_field hk hvs h, Fields.put_of_not_mem hnew, ← hmore.skipSpace]
  rfl

theorem readValue_printText {s : String} (hfuel : (printText s).toList.length ≤ fuel) :
    readValue (fuel + 1) ⟨(printText s).toList ++ rest, i⟩ =
      .ok (.string s, ⟨rest, i + (printText s).toList.length⟩) := by
  have hread : readString i fuel [] (Cursor.next ⟨(printText s).toList ++ rest, i⟩) = _ :=
    readString_printText s hfuel
  have htext := toList_printText s
  generalize (printText s).toList = text at *
  subst htext
  rw [List.cons_append] at hread ⊢
  rw [readValue]
  dsimp only
  rw [hread]
  rfl

/-- Neither a digit nor a minus in front of one starts a constant, a text, a list or an object. -/
theorem readValue_toString {n : Int} (hn : n.natAbs < tenTo maxDigits) (hrest : IsDelimited rest) :
    readValue (fuel + 1) ⟨(toString n).toList ++ rest, i⟩ =
      .ok (.int n, ⟨rest, i + (toString n).toList.length⟩) := by
  have hread : readNumber ⟨(toString n).toList ++ rest, i⟩ = _ := readNumber_toString hn hrest
  have htext := Text.toList_toString_int n
  generalize (toString n).toList = text at *
  subst htext
  have hne : Nat.toDigits 10 n.natAbs ≠ [] := Nat.toDigits_ne_nil
  obtain ⟨c, more, hdigits⟩ := List.exists_cons_of_ne_nil hne
  have hc := Text.isAsciiDigit_of_mem_toDigits (hdigits ▸ List.mem_cons_self)
  rw [hdigits] at hread ⊢
  have hother {other : Char} {P : Prop} (hnone : Text.isAsciiDigit other = false)
      (heq : other = c) : P := by
    rw [heq, hc] at hnone
    cases hnone
  have hfind : constants.find? (fun constant => constant.1.isPrefixOf
      (Double.withSign (decide (n < 0)) (c :: more) ++ rest)) = none := by
    cases decide (n < 0) with
    | false =>
      simp only [Double.withSign, Bool.false_eq_true, if_false, List.cons_append, constants,
        String.reduceToList, List.find?_eq_none, List.mem_cons, List.not_mem_nil, or_false,
        List.isPrefixOf_iff_prefix, forall_eq_or_imp, List.cons_prefix_cons, not_and, forall_eq]
      exact ⟨hother (by decide), hother (by decide), hother (by decide), hother (by decide),
        hother (by decide), hother (by decide)⟩
    | true =>
      simp only [Double.withSign, if_true, List.cons_append, constants, String.reduceToList,
        List.find?_eq_none, List.mem_cons, List.not_mem_nil, or_false,
        List.isPrefixOf_iff_prefix, forall_eq_or_imp, List.cons_prefix_cons, not_and, forall_eq]
      exact ⟨fun h => absurd h (by decide), fun h => absurd h (by decide),
        fun h => absurd h (by decide), fun h => absurd h (by decide),
        fun h => absurd h (by decide), fun _ => hother (by decide)⟩
  have hfirst : ∀ first ∈ ['"', '\x7b', '['], ∀ others,
      Double.withSign (decide (n < 0)) (c :: more) ++ rest ≠ first :: others := by
    intro first hmem others heq
    have hplain : ∀ first ∈ ['"', '\x7b', '['], Text.isAsciiDigit first = false ∧ first ≠ '-' := by
      simp only [List.mem_cons, List.not_mem_nil, or_false, forall_eq_or_imp, forall_eq]
      decide
    obtain ⟨hnone, hminus⟩ := hplain first hmem
    cases hsign : decide (n < 0) with
    | false =>
      rw [hsign] at heq
      exact hother hnone (List.cons.inj heq).1.symm
    | true =>
      rw [hsign] at heq
      exact hminus (List.cons.inj heq).1.symm
  rw [readValue]
  split
  · rename_i heq
    exact absurd heq (hfirst _ (by decide) _)
  · rename_i heq
    exact absurd heq (hfirst _ (by decide) _)
  · rename_i heq
    exact absurd heq (hfirst _ (by decide) _)
  · simp only [hfind, hread]

/-- The items of a list follow its opening bracket. -/
theorem readValue_openList (h : IsSolid cs) :
    readValue (fuel + 1) ⟨'[' :: cs, i⟩ = readItems fuel [] ⟨cs, i + 1⟩ := by
  have hskip : (Cursor.next ⟨'[' :: cs, i⟩).skipSpace = ⟨cs, i + 1⟩ := h.skipSpace
  obtain ⟨c, more, rfl, -, hc⟩ := h
  rw [readValue, hskip]
  split
  · rename_i heq
    exact absurd (List.cons.inj heq).1 (by decide)
  · rename_i heq
    exact absurd (List.cons.inj heq).1 (by decide)
  · dsimp only
    split
    · rename_i heq
      exact absurd ((List.cons.inj heq).1 ▸ by simp) hc
    · rfl
  · rename_i hother
    exact absurd rfl (hother _)

/-- The fields of an object follow its opening brace. -/
theorem readValue_openObject (h : IsSolid cs) :
    readValue (fuel + 1) ⟨'\x7b' :: cs, i⟩ = readFields fuel [] ⟨cs, i + 1⟩ := by
  have hskip : (Cursor.next ⟨'\x7b' :: cs, i⟩).skipSpace = ⟨cs, i + 1⟩ := h.skipSpace
  obtain ⟨c, more, rfl, -, hc⟩ := h
  rw [readValue, hskip]
  split
  · rename_i heq
    exact absurd (List.cons.inj heq).1 (by decide)
  · dsimp only
    split
    · rename_i heq
      exact absurd ((List.cons.inj heq).1 ▸ by simp) hc
    · rfl
  · rename_i heq
    exact absurd (List.cons.inj heq).1 (by decide)
  · rename_i hother _
    exact absurd rfl (hother _)

theorem exists_fuel {n fuel : Nat} (h : n + 1 ≤ fuel) : ∃ k, fuel = k + 1 :=
  ⟨fuel - 1, by omega⟩

theorem exists_fuel_of_isSolid (hcs : IsSolid cs) (h : 2 * cs.length ≤ fuel) :
    ∃ k, fuel = k + 1 := by
  obtain ⟨c, more, rfl, -⟩ := hcs
  exact exists_fuel h

/-- The value is read back from its text, up to what stands behind it. -/
def ReadsBack (v : Json) : Prop :=
  ∀ ⦃fuel i : Nat⦄ ⦃rest : List Char⦄, 2 * (print tight v).toList.length ≤ fuel →
    IsDelimited rest → readValue fuel ⟨(print tight v).toList ++ rest, i⟩ =
      .ok (v, ⟨rest, i + (print tight v).toList.length⟩)

/-- The items are read back from their text, up to the bracket that closes the list. -/
def ItemsReadBack (items : List Json) : Prop :=
  ∀ ⦃fuel i : Nat⦄ ⦃acc : List Json⦄ ⦃rest : List Char⦄,
    2 * (printItems tight items).toList.length + 1 ≤ fuel →
    readItems fuel acc ⟨(printItems tight items).toList ++ ']' :: rest, i⟩ =
      .ok (.array (acc.reverse ++ items), ⟨rest, i + (printItems tight items).toList.length + 1⟩)

/-- The fields are read back from their text, up to the brace that closes the object. -/
def FieldsReadBack (fields : Fields) : Prop :=
  ∀ ⦃fuel i : Nat⦄ ⦃acc : Fields⦄ ⦃rest : List Char⦄, (Fields.keys (acc ++ fields)).Nodup →
    2 * (printFields tight fields).toList.length + 1 ≤ fuel →
    readFields fuel acc ⟨(printFields tight fields).toList ++ '\x7d' :: rest, i⟩ =
      .ok (.object (acc ++ fields), ⟨rest, i + (printFields tight fields).toList.length + 1⟩)

theorem readsBack_null : ReadsBack null := by
  intro fuel i rest hfuel _
  have htext : (print tight null).toList = ['n', 'u', 'l', 'l'] := by simp [print]
  rw [htext] at hfuel ⊢
  obtain ⟨fuel, rfl⟩ := exists_fuel hfuel
  rfl

theorem readsBack_bool (b : Bool) : ReadsBack (bool b) := by
  intro fuel i rest hfuel _
  cases b with
  | false =>
    have htext : (print tight (bool false)).toList = ['f', 'a', 'l', 's', 'e'] := by simp [print]
    rw [htext] at hfuel ⊢
    obtain ⟨fuel, rfl⟩ := exists_fuel hfuel
    rfl
  | true =>
    have htext : (print tight (bool true)).toList = ['t', 'r', 'u', 'e'] := by simp [print]
    rw [htext] at hfuel ⊢
    obtain ⟨fuel, rfl⟩ := exists_fuel hfuel
    rfl

theorem readsBack_int {n : Int} (hn : n.natAbs < tenTo maxDigits) : ReadsBack (int n) := by
  intro fuel i rest hfuel hrest
  obtain ⟨fuel, rfl⟩ := exists_fuel_of_isSolid (isSolid_toString n) hfuel
  exact readValue_toString hn hrest

theorem readsBack_string (s : String) : ReadsBack (string s) := by
  intro fuel i rest hfuel _
  rw [print] at hfuel ⊢
  obtain ⟨fuel, rfl⟩ := exists_fuel_of_isSolid (isSolid_printText s) hfuel
  exact readValue_printText (by omega)

theorem readsBack_array_nil : ReadsBack (array []) := by
  intro fuel i rest hfuel _
  have htext : (print tight (array [])).toList = ['[', ']'] := by simp [print, printItems]
  rw [htext] at hfuel ⊢
  obtain ⟨fuel, rfl⟩ := exists_fuel hfuel
  rfl

theorem readsBack_array (hsolid : IsSolid (printItems tight items).toList)
    (hitems : ItemsReadBack items) : ReadsBack (array items) := by
  intro fuel i rest hfuel _
  have htext : (print tight (array items)).toList =
      '[' :: ((printItems tight items).toList ++ [']']) := by simp [print]
  rw [htext, List.length_cons, List.length_append, List.length_singleton] at hfuel ⊢
  obtain ⟨fuel, rfl⟩ := exists_fuel hfuel
  rw [List.cons_append, List.append_assoc, List.singleton_append,
    readValue_openList (hsolid.append _), hitems (by omega), List.reverse_nil, List.nil_append]
  simp only [Nat.add_assoc, Nat.add_left_comm, Nat.add_comm]

theorem itemsReadBack_singleton (hv : ReadsBack v) : ItemsReadBack [v] := by
  intro fuel i acc rest hfuel
  rw [printItems] at hfuel ⊢
  obtain ⟨fuel, rfl⟩ := exists_fuel hfuel
  exact readItems_last (hv (by omega) (by simp [IsDelimited]))

theorem itemsReadBack_cons {w : Json} (hsolid : IsSolid (printItems tight (w :: items)).toList)
    (hv : ReadsBack v) (hitems : ItemsReadBack (w :: items)) :
    ItemsReadBack (v :: w :: items) := by
  intro fuel i acc rest hfuel
  have htext : (printItems tight (v :: w :: items)).toList =
      (print tight v).toList ++ ',' :: (printItems tight (w :: items)).toList := by
    simp [printItems, tight]
  rw [htext, List.length_append, List.length_cons] at hfuel ⊢
  obtain ⟨fuel, rfl⟩ := exists_fuel hfuel
  rw [List.append_assoc, List.cons_append,
    readItems_next (hv (by omega) (by simp [IsDelimited])) (hsolid.append _), hitems (by omega),
    List.reverse_cons, List.append_assoc, List.singleton_append]
  simp only [Nat.add_assoc, Nat.add_left_comm, Nat.add_comm]

theorem readsBack_object_nil : ReadsBack (object []) := by
  intro fuel i rest hfuel _
  have htext : (print tight (object [])).toList = ['\x7b', '\x7d'] := by simp [print, printFields]
  rw [htext] at hfuel ⊢
  obtain ⟨fuel, rfl⟩ := exists_fuel hfuel
  rfl

theorem readsBack_object (hkeys : (Fields.keys fields).Nodup)
    (hsolid : IsSolid (printFields tight fields).toList) (hfields : FieldsReadBack fields) :
    ReadsBack (object fields) := by
  intro fuel i rest hfuel _
  have hall : (Fields.keys ([] ++ fields)).Nodup := hkeys
  have htext : (print tight (object fields)).toList =
      '\x7b' :: ((printFields tight fields).toList ++ ['\x7d']) := by simp [print]
  rw [htext, List.length_cons, List.length_append, List.length_singleton] at hfuel ⊢
  obtain ⟨fuel, rfl⟩ := exists_fuel hfuel
  rw [List.cons_append, List.append_assoc, List.singleton_append,
    readValue_openObject (hsolid.append _), hfields hall (by omega), List.nil_append]
  simp only [Nat.add_assoc, Nat.add_left_comm, Nat.add_comm]

theorem not_mem_of_nodup_keys {acc : Fields} {k : String}
    (h : (Fields.keys (acc ++ (k, v) :: fields)).Nodup) : k ∉ Fields.keys acc := by
  rw [Fields.keys, List.map_append, List.map_cons] at h
  exact fun hmem => (List.nodup_append.1 h).2.2 k hmem k List.mem_cons_self rfl

theorem fieldsReadBack_singleton {k : String} (hsolid : IsSolid (print tight v).toList)
    (hv : ReadsBack v) : FieldsReadBack [(k, v)] := by
  intro fuel i acc rest hkeys hfuel
  have htext : (printFields tight [(k, v)]).toList =
      (printText k).toList ++ ':' :: (print tight v).toList := by
    simp [printFields, tight]
  rw [htext, List.length_append, List.length_cons] at hfuel ⊢
  obtain ⟨fuel, rfl⟩ := exists_fuel hfuel
  rw [List.append_assoc, List.cons_append, readFields_last (by omega) (hsolid.append _)
    (not_mem_of_nodup_keys hkeys) (hv (by omega) (by simp [IsDelimited]))]
  simp only [Nat.add_assoc, Nat.add_left_comm, Nat.add_comm]

theorem fieldsReadBack_cons {k : String} {f : String × Json}
    (hsolid : IsSolid (print tight v).toList)
    (hmore : IsSolid (printFields tight (f :: fields)).toList) (hv : ReadsBack v)
    (hfields : FieldsReadBack (f :: fields)) : FieldsReadBack ((k, v) :: f :: fields) := by
  intro fuel i acc rest hkeys hfuel
  have htext : (printFields tight ((k, v) :: f :: fields)).toList = (printText k).toList ++
      ':' :: ((print tight v).toList ++ ',' :: (printFields tight (f :: fields)).toList) := by
    simp [printFields, tight]
  have hnext : (Fields.keys (acc ++ [(k, v)] ++ f :: fields)).Nodup := by
    rwa [List.append_assoc, List.singleton_append]
  rw [htext] at hfuel ⊢
  simp only [List.length_append, List.length_cons] at hfuel ⊢
  obtain ⟨fuel, rfl⟩ := exists_fuel hfuel
  rw [List.append_assoc, List.cons_append, List.append_assoc, List.cons_append,
    readFields_next (by omega) (hsolid.append _) (not_mem_of_nodup_keys hkeys)
      (hv (by omega) (by simp [IsDelimited])) (hmore.append _),
    hfields hnext (by omega), List.append_assoc, List.singleton_append]
  simp only [Nat.add_assoc, Nat.add_left_comm, Nat.add_comm]

mutual

/-- Exact values are read back. -/
theorem readsBack_of_isExact : (v : Json) → IsExact v → ReadsBack v
  | null, _ => readsBack_null
  | bool b, _ => readsBack_bool b
  | int _, hn => readsBack_int hn
  | float _, hv => hv.elim
  | string s, _ => readsBack_string s
  | array [], _ => readsBack_array_nil
  | array (w :: items), hitems =>
    have hne : w :: items ≠ [] := List.cons_ne_nil w items
    readsBack_array (isSolid_printItems hitems hne) (itemsReadBack_of_allExact _ hitems hne)
  | object [], _ => readsBack_object_nil
  | object (f :: fields), hfields =>
    have hne : f :: fields ≠ [] := List.cons_ne_nil f fields
    readsBack_object hfields.1 (isSolid_printFields hne)
      (fieldsReadBack_of_fieldsExact _ hfields.2 hne)

theorem itemsReadBack_of_allExact :
    (items : List Json) → AllExact items → items ≠ [] → ItemsReadBack items
  | [], _, hne => absurd rfl hne
  | [v], h, _ => itemsReadBack_singleton (readsBack_of_isExact v h.1)
  | v :: w :: items, h, _ =>
    have hne : w :: items ≠ [] := List.cons_ne_nil w items
    itemsReadBack_cons (isSolid_printItems h.2 hne) (readsBack_of_isExact v h.1)
      (itemsReadBack_of_allExact _ h.2 hne)

theorem fieldsReadBack_of_fieldsExact :
    (fields : List (String × Json)) → FieldsExact fields → fields ≠ [] → FieldsReadBack fields
  | [], _, hne => absurd rfl hne
  | [(_, v)], h, _ => fieldsReadBack_singleton (isSolid_print h.1) (readsBack_of_isExact v h.1)
  | (_, v) :: f :: fields, h, _ =>
    have hne : f :: fields ≠ [] := List.cons_ne_nil f fields
    fieldsReadBack_cons (isSolid_print h.1) (isSolid_printFields hne) (readsBack_of_isExact v h.1)
      (fieldsReadBack_of_fieldsExact _ h.2 hne)

end

/-- The text of an exact value is read as that value. -/
theorem read_compact (hv : IsExact v) : read (compact v) = .ok v := by
  have hsolid := isSolid_print hv
  have hread : readValue (2 * (print tight v).toList.length + 2)
      ⟨(print tight v).toList ++ [], 0⟩ = _ :=
    readsBack_of_isExact v hv (Nat.le_add_right _ 2) (by simp [IsDelimited])
  rw [List.append_nil] at hread
  have hmark : ∀ more, (print tight v).toList ≠ '\ufeff' :: more := fun more heq => by
    obtain ⟨c, others, htext, -, hc⟩ := hsolid
    exact absurd ((List.cons.inj (htext.symm.trans heq)).1 ▸ by simp) hc
  have hchars : readChars (print tight v).toList = .ok v := by
    rw [readChars, hsolid.skipSpace, hread]
    · rfl
    · exact hmark
  rw [read, compact]
  simp only [hchars]

end Json

end LeadDesk
