import LeadDesk.Proofs.Words
import LeadDesk.Time.Reader
import Mathlib.Algebra.Group.Nat.Defs
import Mathlib.Data.List.Basic
import Mathlib.Data.Option.Basic
/-!
# Moments and their texts

The text of a moment is read back as that moment (`Timestamp.ofJson?_text`), for every moment of the
years 1 to 9999 in universal time. Its numbers are written with as many digits as the reader takes
off the front, and its date is one of the calendar that stands for no other day
(`Calendar.dateOfDay_spec`).
-/

namespace LeadDesk

/-! ## Digits -/

theorem Text.decimalValue?_of_isAsciiDigit {c : Char} (h : isAsciiDigit c = true) :
    decimalValue? c = some (c.toNat - '0'.toNat) := by
  have := Condition.isAsciiDigit_iff.1 h
  have hle : (0x30 ≤ c.toNat && c.toNat ≤ 0x30 + 9) = true := by
    simp only [Bool.and_eq_true, decide_eq_true_eq]
    omega
  rw [decimalValue?, decimalZeros, List.find?_cons_of_pos (by exact hle)]
  rfl

theorem Text.digitsValue_eq {cs : List Char} (h : ∀ c ∈ cs, isAsciiDigit c = true) :
    digitsValue cs = Nat.ofDigitChars 10 cs 0 := by
  rw [digitsValue, Nat.ofDigitChars_eq_foldl]
  refine List.foldl_ext _ _ _ fun n c hc => ?_
  rw [decimalValue?_of_isAsciiDigit (h c hc), Option.getD_some, Nat.mul_comm]

namespace Timestamp

variable {width n : Nat}

/-- The characters of a number with leading zeros are digits, -/
theorem isAsciiDigit_of_mem_padded {c : Char} (h : c ∈ (padded width n).toList) :
    Text.isAsciiDigit c = true := by
  simp only [padded, String.toList_ofList, List.mem_append, List.mem_replicate] at h
  rcases h with ⟨_, rfl⟩ | h
  · decide
  · have hdigit := Nat.isDigit_of_mem_toDigits (by decide) (by decide) h
    rw [Condition.isAsciiDigit_iff]
    simpa [Char.isDigit, UInt32.le_iff_toNat_le] using hdigit

/-- as many as asked for if it has no more, -/
theorem length_padded (hwidth : 0 < width) (h : n < 10 ^ width) :
    (padded width n).toList.length = width := by
  have hle := (Nat.length_toDigits_le_iff (by decide) hwidth).2 h
  simp only [padded, String.toList_ofList, List.length_append, List.length_replicate]
  omega

/-- and write it. -/
theorem digitsValue_padded : Text.digitsValue (padded width n).toList = n := by
  rw [Text.digitsValue_eq fun c => isAsciiDigit_of_mem_padded]
  simp [padded, Nat.ofDigitChars_append]

theorem readDigits?_padded (hwidth : 0 < width) (h : n < 10 ^ width) (rest : List Char) :
    readDigits? width ((padded width n).toList ++ rest) = some (n, rest) := by
  have hlength := length_padded hwidth h
  have htake : ((padded width n).toList ++ rest).take width = (padded width n).toList :=
    List.take_left' hlength
  have hall : (padded width n).toList.all Text.isAsciiDigit = true :=
    List.all_eq_true.2 fun c => isAsciiDigit_of_mem_padded
  simp only [readDigits?, htake, hlength, hall, and_self, if_true, digitsValue_padded,
    List.drop_left' hlength]

/-- A text that begins with a number begins with a digit. -/
theorem isAsciiDigit_of_padded_append (hwidth : 0 < width) (h : n < 10 ^ width) {c : Char}
    {cs rest : List Char} (heq : (padded width n).toList ++ rest = c :: cs) :
    Text.isAsciiDigit c = true := by
  have hlength := length_padded hwidth h
  cases hcs : (padded width n).toList with
  | nil =>
    rw [hcs, List.length_nil] at hlength
    omega
  | cons d ds =>
    rw [hcs, List.cons_append] at heq
    obtain ⟨rfl, _⟩ := List.cons.inj heq
    exact isAsciiDigit_of_mem_padded (hcs ▸ List.mem_cons_self)

/-! ## Dates -/

theorem readDate?_text {year month day : Nat} (hyear : year < 10 ^ 4) (hmonth : month < 10 ^ 2)
    (hday : day < 10 ^ 2) :
    readDate? ((padded 4 year).toList ++ '-' :: ((padded 2 month).toList ++
      '-' :: (padded 2 day).toList)) = some (.monthDay year month day) := by
  have hd := readDigits?_padded (by decide) hday []
  rw [List.append_nil] at hd
  unfold readDate?
  simp only [readDigits?_padded (by decide) hyear, Option.bind_eq_bind, Option.bind_some,
    List.head?_cons, BEq.rfl, if_true, List.drop_one, List.tail_cons]
  split
  · rename_i rest h
    exact absurd (isAsciiDigit_of_padded_append (by decide) hmonth h) (by decide)
  · simp [readDigits?_padded (by decide) hmonth, hd]

/-! ## Times of day -/

section

variable {tail : List Char} {left : Nat} {colon : Option Bool} {values : List Nat} {value : Nat}

/-- Two digits and a colon. -/
theorem readClockParts?_colon (hvalue : value < 10 ^ 2) (hcolon : colon.getD true = true)
    {more : List Char} (hmore : more ≠ []) :
    readClockParts? tail (left + 1) colon values ((padded 2 value).toList ++ ':' :: more) =
      readClockParts? tail left (some true) (value :: values) more := by
  have hlength := length_padded (by decide) hvalue
  have hdigits := readDigits?_padded (by decide) hvalue (':' :: more ++ tail)
  rw [readClockParts?, List.append_assoc, hdigits]
  simp [hlength, hmore, hcolon]

/-- Two digits at the end. -/
theorem readClockParts?_end (hvalue : value < 10 ^ 2) :
    readClockParts? tail (left + 1) colon values (padded 2 value).toList =
      some (value :: values, 0, tail.isEmpty) := by
  have hlength := length_padded (by decide) hvalue
  rw [readClockParts?, readDigits?_padded (by decide) hvalue]
  simp [hlength]

/-- Two digits with a fraction behind them. -/
theorem readClockParts?_fraction (hvalue : value < 10 ^ 2) {micros : Nat}
    (hmicros : micros < 10 ^ 6) :
    readClockParts? tail (left + 1) colon values
      ((padded 2 value).toList ++ '.' :: (padded 6 micros).toList) =
        some (value :: values, micros, (tail.dropWhile Text.isAsciiDigit).isEmpty) := by
  have hlength := length_padded (by decide) hvalue
  have hlength6 := length_padded (by decide) hmicros
  have hmore : (padded 6 micros).toList ≠ [] := by
    intro h
    simp [h] at hlength6
  have hd := readDigits?_padded (by decide) hmicros []
  rw [List.append_nil] at hd
  rw [readClockParts?, List.append_assoc, readDigits?_padded (by decide) hvalue]
  simp [hlength, hlength6, hmore, readFraction?, hd]

theorem toList_clockText (seconds : Nat) :
    (clockText seconds).toList = (padded 2 (seconds / 3600)).toList ++ ':' ::
      ((padded 2 (seconds / 60 % 60)).toList ++ ':' :: (padded 2 (seconds % 60)).toList) := by
  show (padded 2 _ ++ ":" ++ padded 2 _ ++ ":" ++ padded 2 _).toList = _
  simp

theorem toList_fractionText {micros : Nat} (h : micros ≠ 0) :
    (fractionText micros).toList = '.' :: (padded 6 micros).toList := by
  rw [fractionText, if_neg h]
  show ("." ++ padded 6 _).toList = _
  simp

theorem readClock?_text {seconds micros : Nat} (hhour : seconds / 3600 < 10 ^ 2)
    (hmicros : micros < 10 ^ 6) (tail : List Char) : ∃ done,
      readClock? ((clockText seconds).toList ++ (fractionText micros).toList) tail =
        some (⟨seconds / 3600, seconds / 60 % 60, seconds % 60, micros⟩, done) := by
  have hminute : seconds / 60 % 60 < 10 ^ 2 := by omega
  have hsecond : seconds % 60 < 10 ^ 2 := by omega
  have hlength := length_padded (by decide) hsecond
  have hmore : (padded 2 (seconds % 60)).toList ++ (fractionText micros).toList ≠ [] := by
    intro h
    simp [List.append_eq_nil_iff.1 h] at hlength
  rw [toList_clockText, List.append_assoc, List.cons_append, List.append_assoc, List.cons_append]
  unfold readClock?
  rw [readClockParts?_colon hhour rfl (by simp), readClockParts?_colon hminute rfl hmore]
  by_cases hzero : micros = 0
  · have hnone : (fractionText micros).toList = [] := by simp [fractionText, hzero]
    rw [hnone, List.append_nil, readClockParts?_end hsecond, hzero]
    exact ⟨_, rfl⟩
  · rw [toList_fractionText hzero, readClockParts?_fraction hsecond hmicros]
    exact ⟨_, rfl⟩

/-- What digits, colons and points have, all characters of a time of day have. -/
theorem forall_mem_time {p : Char → Prop} (hdigit : ∀ c, Text.isAsciiDigit c = true → p c)
    (hcolon : p ':') (hpoint : p '.') (seconds micros : Nat) :
    ∀ c ∈ (clockText seconds).toList ++ (fractionText micros).toList, p c := by
  have hpadded : ∀ width n, ∀ c ∈ (padded width n).toList, p c :=
    fun _ _ c hc => hdigit c (isAsciiDigit_of_mem_padded hc)
  rw [toList_clockText]
  simp only [List.forall_mem_append, List.forall_mem_cons]
  refine ⟨⟨hpadded _ _, hcolon, hpadded _ _, hcolon, hpadded _ _⟩, ?_⟩
  by_cases hzero : micros = 0
  · simp [fractionText, hzero]
  · rw [toList_fractionText hzero, List.forall_mem_cons]
    exact ⟨hpoint, hpadded _ _⟩

theorem startsOffset_of_isAsciiDigit {c : Char} (h : Text.isAsciiDigit c = true) :
    startsOffset c = false := by
  have := Condition.isAsciiDigit_iff.1 h
  simp only [startsOffset, Bool.or_eq_false_iff, beq_eq_false_iff_ne]
  refine ⟨⟨?_, ?_⟩, ?_⟩ <;> rintro rfl <;> simp at this

theorem toList_offsetText_zero : (offsetText 0).toList = ['+', '0', '0', ':', '0', '0'] := by
  decide +kernel

/-- A time of day in universal time is read back. -/
theorem readTime?_text (seconds micros : Nat) (hhour : seconds / 3600 < 10 ^ 2)
    (hmicros : micros < 10 ^ 6) :
      readTime? ((clockText seconds).toList ++ (fractionText micros).toList ++
        ['+', '0', '0', ':', '0', '0']) =
        some (⟨seconds / 3600, seconds / 60 % 60, seconds % 60, micros⟩, some 0) := by
  obtain ⟨done, hclock⟩ := readClock?_text hhour hmicros ['+', '0', '0', ':', '0', '0']
  have htake : ((clockText seconds).toList ++ (fractionText micros).toList ++
      ['+', '0', '0', ':', '0', '0']).takeWhile (!startsOffset ·) =
        (clockText seconds).toList ++ (fractionText micros).toList := by
    have hclock : ∀ c ∈ (clockText seconds).toList ++ (fractionText micros).toList,
        (!startsOffset c) = true :=
      forall_mem_time (p := fun c => (!startsOffset c) = true)
        (fun c hc => by simp [startsOffset_of_isAsciiDigit hc]) rfl rfl seconds micros
    rw [List.takeWhile_append_of_pos hclock]
    simp [startsOffset]
  have hoffset : readClock? ['0', '0', ':', '0', '0'] [] = some (⟨0, 0, 0, 0⟩, true) := rfl
  unfold readTime?
  simp only [htake, List.drop_left, hclock, Option.bind_eq_bind, Option.bind_some]
  simp [hoffset]

end

end Timestamp

/-! ## The calendar -/

namespace Calendar

/-- The days of the months before a month, as a sum. -/
theorem daysBeforeMonth_succ (year : Nat) {month : Nat} (h : 1 ≤ month) :
    daysBeforeMonth year (month + 1) = daysBeforeMonth year month + daysInMonth year month := by
  obtain ⟨m, rfl⟩ := Nat.exists_eq_add_of_le h
  simp [daysBeforeMonth, List.range_succ, Nat.add_comm 1 m]

theorem monthAndDay_spec (year left month n : Nat) (hmonth : 1 ≤ month) (hleft : month + left = 12)
    (hn : daysBeforeMonth year month + n < daysBeforeMonth year 13) :
    let p := monthAndDay year left month n
    1 ≤ p.1 ∧ p.1 ≤ 12 ∧ 1 ≤ p.2 ∧ p.2 ≤ daysInMonth year p.1 ∧
      daysBeforeMonth year p.1 + (p.2 - 1) = daysBeforeMonth year month + n := by
  induction left generalizing month n with
  | zero =>
    obtain rfl : month = 12 := by omega
    have hlast : daysBeforeMonth year 13 = _ := daysBeforeMonth_succ year hmonth
    simp only [monthAndDay]
    omega
  | succ left ih =>
    have hnext := daysBeforeMonth_succ year hmonth
    simp only [monthAndDay]
    split
    · simp only
      omega
    · have := ih (month + 1) (n - daysInMonth year month) (by omega) (by omega) (by omega)
      simp only at this ⊢
      omega

/-- A day of a month in the years 1 to 9999. -/
structure IsDate (year month day : Nat) : Prop where
  year_pos : 1 ≤ year
  year_le : year ≤ 9999
  month_pos : 1 ≤ month
  month_le : month ≤ 12
  day_pos : 1 ≤ day
  day_le : day ≤ daysInMonth year month

theorem daysInMonth_le (year month : Nat) : daysInMonth year month ≤ 31 := by
  unfold daysInMonth
  split
  · split <;> omega
  · split <;> omega

/-- The days of a year. -/
theorem daysBeforeMonth_13 (year : Nat) :
    daysBeforeMonth year 13 = if isLeap year then 366 else 365 := by
  simp [daysBeforeMonth, List.range_succ, daysInMonth]
  split <;> simp

section

variable {a b c d : Nat} (hb : b ≤ 3) (hc : c ≤ 24) (hd : d ≤ 3)

include hb hc hd

/-- The days before a year, by whole cycles of 400, 100, 4 years and one year. -/
theorem daysBeforeYear_of_cycles :
    daysBeforeYear (a * 400 + b * 100 + c * 4 + d + 1) =
      a * 146097 + b * 36524 + c * 1461 + d * 365 := by
  have h4 : (a * 400 + b * 100 + c * 4 + d) / 4 = a * 100 + b * 25 + c := by omega
  have h100 : (a * 400 + b * 100 + c * 4 + d) / 100 = a * 4 + b := by omega
  have h400 : (a * 400 + b * 100 + c * 4 + d) / 400 = a := by omega
  simp only [daysBeforeYear, Nat.add_sub_cancel, h4, h100, h400]
  omega

/-- The last year of four is a leap year, unless it ends a cycle of 100 and not one of 400. -/
theorem isLeap_of_cycles :
    isLeap (a * 400 + b * 100 + c * 4 + d + 1) = true ↔ d = 3 ∧ (c = 24 → b = 3) := by
  simp only [isLeap, decide_eq_true_eq]
  omega

end

/-- A quotient that is cut short at a bound. -/
theorem min_div_spec (n bound : Nat) {k : Nat} (hk : 0 < k) :
    min (n / k) bound ≤ bound ∧ min (n / k) bound * k ≤ n ∧
      (min (n / k) bound = bound ∨ n < (min (n / k) bound + 1) * k) := by
  refine ⟨Nat.min_le_right _ _, ?_, ?_⟩
  · exact (Nat.mul_le_mul_right k (Nat.min_le_left _ _)).trans (Nat.div_mul_le_self n k)
  · rcases Nat.le_total (n / k) bound with h | h
    · rw [Nat.min_eq_left h]
      exact .inr ((Nat.div_lt_iff_lt_mul hk).1 (Nat.lt_succ_self _))
    · exact .inl (Nat.min_eq_right h)

/-- The days before a day are so many cycles of 400, 100, 4 years and one year, and some that are
left of its own year. -/
structure Cycles (n a b c d left : Nat) : Prop where
  centuries_le : b ≤ 3
  years4_le : c ≤ 24
  years_le : d ≤ 3
  sum : a * 146097 + b * 36524 + c * 1461 + d * 365 + left = n
  left_le : left ≤ 365
  leap : left = 365 → d = 3 ∧ (c = 24 → b = 3)

/-- They are the quotients by the lengths of the cycles, where those of centuries and years are cut
short: the last one of four is a day longer. -/
theorem cycles_spec (n : Nat) :
    let rest := n % 146097
    let b := min (rest / 36524) 3
    let c := (rest - b * 36524) / 1461
    let d := min ((rest - b * 36524) % 1461 / 365) 3
    Cycles n (n / 146097) b c d ((rest - b * 36524) % 1461 - d * 365) := by
  intro rest b c d
  have h400 := Nat.div_add_mod n 146097
  have hrest : rest < 146097 := Nat.mod_lt n (by decide)
  have h100 := min_div_spec rest 3 (k := 36524) (by decide)
  have h4 := Nat.div_add_mod (rest - b * 36524) 1461
  have hmod : (rest - b * 36524) % 1461 < 1461 := Nat.mod_lt _ (by decide)
  have h1 := min_div_spec ((rest - b * 36524) % 1461) 3 (k := 365) (by decide)
  generalize (rest - b * 36524) % 1461 = rest4 at *
  constructor <;> omega

/-- The days left of a year lie within it. -/
theorem Cycles.left_lt {n a b c d left : Nat} (h : Cycles n a b c d left) :
    left < daysBeforeMonth (a * 400 + b * 100 + c * 4 + d + 1) 13 := by
  have hleap := isLeap_of_cycles (a := a) h.centuries_le h.years4_le h.years_le
  have hleft := h.left_le
  rw [daysBeforeMonth_13]
  split
  · omega
  · rename_i hcommon
    have hless : left ≠ 365 := fun hlast => hcommon (hleap.2 (h.leap hlast))
    omega

/-- A date is that of the days left in the year after the cycles. -/
theorem dateOfDay_eq (days : Int) : ∃ a b c d left year,
    Cycles (days + epochDays).toNat a b c d left ∧ a * 400 + b * 100 + c * 4 + d + 1 = year ∧
      dateOfDay days = (year, monthAndDay year 11 1 left) :=
  ⟨_, _, _, _, _, _, cycles_spec _, rfl, by simp only [dateOfDay]⟩

/-- The date of a day is one of the calendar, and it is the date of that day alone. -/
theorem dateOfDay_spec (days : Int) (hlow : dayNumber 1 1 1 ≤ days)
    (hhigh : days < dayNumber 10000 1 1) :
    let date := dateOfDay days
    IsDate date.1 date.2.1 date.2.2 ∧ dayNumber date.1 date.2.1 date.2.2 = days := by
  have hfirst : dayNumber 1 1 1 = -(epochDays : Int) := by decide
  have hlast : dayNumber 10000 1 1 = 3652059 - (epochDays : Int) := by decide
  obtain ⟨a, b, c, d, left, year, hcycles, hy, hdate⟩ := dateOfDay_eq days
  have hleft := hcycles.left_lt
  obtain ⟨hb, hc, hd, hsum, -, -⟩ := hcycles
  have hyear := daysBeforeYear_of_cycles (a := a) hb hc hd
  rw [hy] at hleft hyear
  have hzero : daysBeforeMonth year 1 = 0 := rfl
  obtain ⟨h1, h2, h3, h4, h5⟩ := monthAndDay_spec year 11 1 left (by decide) rfl (by omega)
  rw [hdate]
  refine ⟨⟨by omega, by omega, h1, h2, h3, h4⟩, ?_⟩
  simp only [dayNumber]
  omega

end Calendar

namespace Timestamp

/-- A moment of the years 1 to 9999. -/
def InCalendar (t : Timestamp) : Prop :=
  Calendar.dayNumber 1 1 1 * day ≤ t.wall ∧ t.wall < Calendar.dayNumber 10000 1 1 * day

variable {t : Timestamp}

/-- A date of the calendar and a time of day make a moment. -/
theorem ofParts_spec {year month d seconds micros : Nat} (hdate : Calendar.IsDate year month d)
    (hseconds : seconds < 86400) :
    ofParts (.monthDay year month d) ⟨seconds / 3600, seconds / 60 % 60, seconds % 60, micros⟩
      (some 0) =
      .ok ⟨Calendar.dayNumber year month d * day + seconds * 1000000 + micros, some 0⟩ := by
  have hhour : ¬ 23 < seconds / 3600 := by omega
  have hminute : ¬ 59 < seconds / 60 % 60 := by omega
  have hsecond : ¬ 59 < seconds % 60 := by omega
  have hsum : ((seconds / 3600 : Nat) : Int) * 3600 + ((seconds / 60 % 60 : Nat) : Int) * 60 +
      ((seconds % 60 : Nat) : Int) = seconds := by omega
  have hoffset : ¬ ((0 : Int) ≤ -day ∨ day ≤ 0) := by decide
  obtain ⟨hyear, -, hmonth, hmonths, hday, hdays⟩ := hdate
  unfold ofParts
  simp only [hoffset, if_false]
  rw [if_neg (by omega : ¬ year < 1), if_neg (by omega), if_neg (by omega)]
  simp only [hhour, hminute, hsecond, if_false, hsum, pure_bind]
  rfl

theorem toList_dateText {year month d : Nat}
    (h : Calendar.dateOfDay (t.wall / day) = (year, month, d)) :
    t.dateText.toList = (padded 4 year).toList ++ '-' :: ((padded 2 month).toList ++
      '-' :: (padded 2 d).toList) := by
  rw [dateText, h]
  show (padded 4 year ++ "-" ++ padded 2 month ++ "-" ++ padded 2 d).toList = _
  simp

/-- In a text that begins with a year and a month behind a hyphen, the date has ten characters. -/
theorem separatorIndex_text {year month : Nat} {rest : List Char} (hyear : year < 10 ^ 4)
    (hmonth : month < 10 ^ 2) (hlength : 7 < rest.length) :
    separatorIndex ((padded 4 year).toList ++ '-' :: ((padded 2 month).toList ++ rest)) = 10 := by
  have hyears := length_padded (by decide) hyear
  have hmonths := length_padded (by decide) hmonth
  obtain ⟨cs, hcs⟩ : ∃ cs,
      (padded 4 year).toList ++ '-' :: ((padded 2 month).toList ++ rest) = cs := ⟨_, rfl⟩
  have h4 : cs[4]? = some '-' := by simp [← hcs, hyears]
  have h5 : cs[5]? ≠ some 'W' := by
    intro h
    have h : ((padded 2 month).toList ++ rest)[0]? = some 'W' := by
      simpa [← hcs, List.getElem?_append_right, hyears] using h
    rw [List.getElem?_append_left (by omega)] at h
    exact absurd (isAsciiDigit_of_mem_padded (List.mem_of_getElem? h)) (by decide)
  have h7 : cs.length ≠ 7 := by
    simp only [← hcs, List.length_append, List.length_cons]
    omega
  simp only [hcs, separatorIndex, h7, h4, h5, if_false, if_true]

/-- A date of ten characters and a time of day are read one after the other. -/
theorem readIso_eq {s : String} {date time : List Char} {written : WrittenDate}
    {clock : WrittenClock} {offset : Option Int} (htext : s.toList = date ++ 'T' :: time)
    (hlength : date.length = 10) (hseparator : separatorIndex s.toList = 10)
    (hdate : readDate? date = some written) (htime : readTime? time = some (clock, offset)) :
    readIso s = ofParts written clock offset := by
  have hlong : ¬ s.toList.length < 7 := by
    rw [htext, List.length_append, hlength]
    omega
  have hrest : ¬ s.toList.length ≤ 10 := by
    rw [htext, List.length_append, hlength, List.length_cons]
    omega
  have htake : s.toList.take 10 = date := by rw [htext, List.take_left' hlength]
  have hdrop : s.toList.drop 11 = time := by
    rw [htext, List.append_cons, List.drop_left' (by rw [List.length_append, hlength]; rfl)]
  simp only [readIso, hseparator, hlong, hrest, htake, hdrop, hdate, htime, if_false,
    Option.bind_eq_bind, Option.bind_some]
  rfl

/-- The text of a moment in universal time, from the microseconds of its day. -/
theorem toList_text {micros : Nat} (hmicros : (t.wall % day).toNat = micros)
    (hutc : t.offset = some 0) :
    t.text.toList = t.dateText.toList ++ 'T' :: ((clockText (micros / 1000000)).toList ++
      (fractionText (micros % 1000000)).toList ++ ['+', '0', '0', ':', '0', '0']) := by
  simp [text, timeText, hmicros, hutc, toList_offsetText_zero]

/-- A moment of the calendar in universal time is read back from its text. -/
theorem readIso_text (hcalendar : t.InCalendar) (hutc : t.offset = some 0) :
    readIso t.text = .ok t := by
  obtain ⟨hlow, hhigh⟩ := hcalendar
  rcases hof : Calendar.dateOfDay (t.wall / day) with ⟨year, month, d⟩
  obtain ⟨hdate, hday⟩ := Calendar.dateOfDay_spec (t.wall / day)
    (by simp only [day] at *; omega) (by simp only [day] at *; omega)
  simp only [hof] at hdate hday
  have hyear : year < 10 ^ 4 := Nat.lt_succ_of_le hdate.year_le
  have hmonth : month < 10 ^ 2 := Nat.lt_of_le_of_lt hdate.month_le (by decide)
  have hd : d < 10 ^ 2 :=
    Nat.lt_of_le_of_lt (hdate.day_le.trans (Calendar.daysInMonth_le _ _)) (by decide)
  obtain ⟨micros, hmicros⟩ : ∃ micros : Nat, (t.wall % day).toNat = micros := ⟨_, rfl⟩
  have hsmall : micros < 86400000000 := by simp only [day] at hmicros; omega
  have hsum : t.wall / day * day + (micros / 1000000 : Nat) * 1000000 + (micros % 1000000 : Nat) =
      t.wall := by simp only [day] at *; omega
  have hdatetext := toList_dateText hof
  have hlength : t.dateText.toList.length = 10 := by
    simp only [hdatetext, List.length_append, List.length_cons, length_padded (by decide) hyear,
      length_padded (by decide) hmonth, length_padded (by decide) hd]
  have htext := toList_text hmicros hutc
  have hseparator : separatorIndex t.text.toList = 10 := by
    rw [htext, hdatetext, List.append_assoc, List.cons_append, List.append_assoc]
    exact separatorIndex_text hyear hmonth (by simp; omega)
  have hreads : readDate? t.dateText.toList = some (.monthDay year month d) := by
    rw [hdatetext]
    exact readDate?_text hyear hmonth hd
  have htime := readTime?_text (micros / 1000000) (micros % 1000000)
    (by omega) (by omega)
  have ht : (⟨t.wall, some 0⟩ : Timestamp) = t := by rw [← hutc]
  rw [readIso_eq htext hlength hseparator hreads htime, ofParts_spec hdate (by omega), hday, hsum,
    ht]

/-- The text of a moment in universal time has no blanks and no `Z`. -/
theorem range_of_text (hutc : t.offset = some 0) :
    ∀ c ∈ t.text.toList, 43 ≤ c.toNat ∧ c.toNat ≤ 84 := by
  have hdigit : ∀ c, Text.isAsciiDigit c = true → 43 ≤ c.toNat ∧ c.toNat ≤ 84 := by
    intro c hc
    have := Condition.isAsciiDigit_iff.1 hc
    omega
  have hpadded : ∀ width n, ∀ c ∈ (padded width n).toList, 43 ≤ c.toNat ∧ c.toNat ≤ 84 :=
    fun _ _ c hc => hdigit c (isAsciiDigit_of_mem_padded hc)
  rcases hof : Calendar.dateOfDay (t.wall / day) with ⟨year, month, d⟩
  rw [toList_text rfl hutc, toList_dateText hof]
  have htime := forall_mem_time hdigit (by decide) (by decide) ((t.wall % day).toNat / 1000000)
    ((t.wall % day).toNat % 1000000)
  refine List.forall_mem_append.2 ⟨?_, List.forall_mem_cons.2 ⟨by decide, ?_⟩⟩
  · simp only [List.forall_mem_append, List.forall_mem_cons]
    exact ⟨hpadded _ _, by decide, hpadded _ _, by decide, hpadded _ _⟩
  · exact List.forall_mem_append.2 ⟨htime, by simp⟩

theorem normalize_text (hutc : t.offset = some 0) : normalize t.text = t.text := by
  have hrange := range_of_text hutc
  have htrim : Text.trimBlanks t.text.toList = t.text.toList :=
    Condition.trimBlanks_of_not fun c hc => by
      have := hrange c hc
      exact Condition.not_blank_of_range (by omega) (by omega)
  unfold normalize
  rw [htrim]
  split
  · rename_i rest h
    have hz : 'Z' ∈ t.text.toList := List.mem_reverse.1 (h ▸ List.mem_cons_self)
    exact absurd (hrange _ hz).2 (by decide)
  · rw [List.reverse_reverse, String.ofList_toList]

/-- So is the data value of such a moment. -/
theorem ofJson?_text (hcalendar : t.InCalendar) (hutc : t.offset = some 0) :
    ofJson? (.string t.text) = .ok (some t) := by
  have hread := readIso_text hcalendar hutc
  have hzone : t.withDefaultZone = t := by
    rw [withDefaultZone, hutc, Option.getD_some, ← hutc]
  unfold ofJson?
  split
  · rename_i h
    cases h
  · rename_i h
    have hempty : t.text = "" := Json.string.inj h
    have hnone : readIso "" = .error (.malformed "") := by simp [readIso]
    rw [hempty, hnone] at hread
    cases hread
  · rw [Json.plain, normalize_text hutc, hread]
    exact congrArg _ (congrArg _ hzone)

end Timestamp

end LeadDesk
