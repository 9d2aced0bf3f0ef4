import LeadDesk.Number.Shortest
import LeadDesk.Proofs.Moments
import LeadDesk.Proofs.Rounding
import Mathlib.Algebra.Order.Field.Power
import Mathlib.Algebra.Order.Field.Rat
import Mathlib.Tactic.Positivity
/-!
# Reading the shortest text back

The shortest decimal that is found for a floating-point number is rounded to that number
(`Double.shortest_readsAs`), since the grid of seventeen digits always has a hit. The text of a
number that is not whole ends in an exponent if the number is nearer to zero than `0.0001`
(`Double.IsTiny`), and otherwise writes just this decimal, with a point (`Double.text_cases`).
-/

namespace LeadDesk

namespace Text

theorem digitsValue_append (xs ys : List Char) :
    digitsValue (xs ++ ys) = digitsValue xs * 10 ^ ys.length + digitsValue ys := by
  have hfold : ∀ (ys : List Char) (n : Nat),
      ys.foldl (fun n c => n * 10 + (decimalValue? c).getD 0) n =
        n * 10 ^ ys.length + digitsValue ys := by
    intro ys
    induction ys with
    | nil => intro n; simp [digitsValue]
    | cons c ys ih =>
      intro n
      have hcons := ih ((decimalValue? c).getD 0)
      rw [digitsValue, List.foldl_cons, List.foldl_cons, ih, Nat.zero_mul, Nat.zero_add, hcons,
        List.length_cons, Nat.pow_succ]
      ring
  rw [digitsValue, List.foldl_append, hfold]
  rfl

theorem digitsValue_replicate_zero (k : Nat) : digitsValue (List.replicate k '0') = 0 := by
  induction k with
  | zero => rfl
  | succ k ih =>
    have happend := digitsValue_append ['0'] (List.replicate k '0')
    have hzero : digitsValue ['0'] = 0 := by decide +kernel
    rw [hzero, Nat.zero_mul, ih] at happend
    exact happend

theorem isAsciiDigit_of_mem_toDigits {n : Nat} {c : Char} (h : c ∈ Nat.toDigits 10 n) :
    isAsciiDigit c = true := by
  have hdigit := Nat.isDigit_of_mem_toDigits (by decide) (by decide) h
  rw [Condition.isAsciiDigit_iff]
  simpa [Char.isDigit, UInt32.le_iff_toNat_le] using hdigit

theorem digitsValue_toDigits (n : Nat) : digitsValue (Nat.toDigits 10 n) = n := by
  rw [digitsValue_eq fun c => isAsciiDigit_of_mem_toDigits]
  simp

end Text

namespace Double

/-! ## The grid of seventeen digits -/

theorem ten_pow_le_two_pow {k b : Nat} (h : 10 * k ≤ 3 * b) : 10 ^ k ≤ 2 ^ b := by
  refine (Nat.pow_le_pow_iff_left (n := 3) (by decide)).1 ?_
  calc (10 ^ k) ^ 3 = (10 ^ 3) ^ k := by rw [← Nat.pow_mul, ← Nat.pow_mul, Nat.mul_comm]
    _ ≤ (2 ^ 10) ^ k := Nat.pow_le_pow_left (by decide) k
    _ = 2 ^ (10 * k) := (Nat.pow_mul 2 10 k).symm
    _ ≤ 2 ^ (3 * b) := Nat.pow_le_pow_right (by decide) h
    _ = (2 ^ b) ^ 3 := by rw [← Nat.pow_mul, Nat.mul_comm]

theorem two_pow_le_ten_pow {k b : Nat} (h : 28 * b ≤ 93 * k) : 2 ^ b ≤ 10 ^ k := by
  refine (Nat.pow_le_pow_iff_left (n := 28) (by decide)).1 ?_
  calc (2 ^ b) ^ 28 = 2 ^ (28 * b) := by rw [← Nat.pow_mul, Nat.mul_comm]
    _ ≤ 2 ^ (93 * k) := Nat.pow_le_pow_right (by decide) h
    _ = (2 ^ 93) ^ k := Nat.pow_mul 2 93 k
    _ ≤ (10 ^ 28) ^ k := Nat.pow_le_pow_left (by decide) k
    _ = (10 ^ k) ^ 28 := by rw [← Nat.pow_mul, ← Nat.pow_mul, Nat.mul_comm]

/-- Powers of ten and of two compare as their exponents do, up to what the two bounds of the
logarithm leave open. -/
theorem ten_zpow_le_two_zpow {k b : Int} (hpos : 0 ≤ k → 10 * k ≤ 3 * b)
    (hneg : k ≤ 0 → 93 * k ≤ 28 * b) : (10 : ℚ) ^ k ≤ 2 ^ b := by
  obtain ⟨n, rfl | rfl⟩ := k.eq_nat_or_neg
  · obtain ⟨m, rfl⟩ : ∃ m : Nat, b = m := ⟨b.toNat, by omega⟩
    exact_mod_cast ten_pow_le_two_pow (k := n) (b := m) (by omega)
  · obtain ⟨m, rfl | rfl⟩ := b.eq_nat_or_neg
    · calc (10 : ℚ) ^ (-(n : Int)) ≤ 1 := zpow_le_one_of_nonpos₀ (by norm_num) (by omega)
        _ ≤ 2 ^ (m : Int) := one_le_zpow₀ (by norm_num) (by omega)
    · rw [zpow_neg, zpow_neg, inv_le_inv₀ (by positivity) (by positivity)]
      exact_mod_cast two_pow_le_ten_pow (k := n) (b := m) (by omega)

section

variable {n d : Nat}

/-- The ratio is as large as a power of ten. -/
def reaches (n d : Nat) : Int → Bool
  | .ofNat e => d * tenTo e ≤ n
  | .negSucc e => d ≤ n * tenTo (e + 1)

theorem ten_zpow_le_of_reaches (hd : 0 < d) {k : Int} (h : reaches n d k = true) :
    (10 : ℚ) ^ k ≤ n / d := by
  have hd' : (0 : ℚ) < d := by exact_mod_cast hd
  cases k with
  | ofNat e =>
    have h : d * tenTo e ≤ n := of_decide_eq_true h
    rw [Int.ofNat_eq_natCast, zpow_natCast, le_div_iff₀ hd', mul_comm]
    exact_mod_cast h
  | negSucc e =>
    have h : d ≤ n * tenTo (e + 1) := of_decide_eq_true h
    rw [zpow_negSucc, le_div_iff₀ hd', inv_mul_le_iff₀ (by positivity), mul_comm]
    exact_mod_cast h

/-- The place of a ratio is not too large: the ratio reaches the power of ten below it. -/
theorem ten_zpow_decimalPlace_le (hn : 0 < n) (hd : 0 < d)
    (hlow : -1100 ≤ (n.log2 : Int) - d.log2) (hhigh : (n.log2 : Int) - d.log2 ≤ 1100) :
    (10 : ℚ) ^ (decimalPlace n d - 1) ≤ n / d := by
  have hd' : (0 : ℚ) < d := by exact_mod_cast hd
  have hbits : (2 : ℚ) ^ ((n.log2 : Int) - d.log2 - 1) ≤ n / d := by
    have hnum : (2 : ℚ) ^ (n.log2 : Int) ≤ n := by
      exact_mod_cast Nat.log2_self_le (Nat.pos_iff_ne_zero.1 hn)
    have hden : (d : ℚ) ≤ 2 ^ ((d.log2 : Int) + 1) := by
      exact_mod_cast (Nat.lt_log2_self (n := d)).le
    rw [le_div_iff₀ hd']
    calc (2 : ℚ) ^ ((n.log2 : Int) - d.log2 - 1) * d
        ≤ 2 ^ ((n.log2 : Int) - d.log2 - 1) * 2 ^ ((d.log2 : Int) + 1) := by gcongr
      _ = 2 ^ (n.log2 : Int) := by rw [← zpow_add₀ (by norm_num)]; congr 1; ring
      _ ≤ n := hnum
  unfold decimalPlace
  dsimp only
  generalize (n.log2 : Int) - d.log2 = bits at hlow hhigh hbits ⊢
  have hestimate : (10 : ℚ) ^ ((bits + 1) * 30103 / 100000 + 2 - 3 - 1) ≤ n / d :=
    (ten_zpow_le_two_zpow (by omega) (by omega)).trans hbits
  generalize (bits + 1) * 30103 / 100000 + 2 = estimate at hestimate ⊢
  have hless (i : Int) : estimate - i - 1 = estimate - (i + 1) := by ring
  split
  · next h => exact ten_zpow_le_of_reaches hd h
  split
  · next h => exact hless 1 ▸ ten_zpow_le_of_reaches hd h
  split
  · next h => exact hless 2 ▸ ten_zpow_le_of_reaches hd h
  · exact hestimate

/-- A ratio in units of a power of ten. -/
def inUnits (n d : Nat) : Int → Nat × Nat
  | .ofNat e => (n, d * tenTo e)
  | .negSucc e => (n * tenTo (e + 1), d)

theorem inUnits_spec (n : Nat) (hd : 0 < d) (e : Int) : 0 < (inUnits n d e).2 ∧
    ((inUnits n d e).1 : ℚ) / (inUnits n d e).2 = n / d / 10 ^ e := by
  cases e with
  | ofNat e =>
    refine ⟨Nat.mul_pos hd (tenTo_pos e), ?_⟩
    simp only [inUnits, tenTo_eq, Int.ofNat_eq_natCast, zpow_natCast]
    push_cast
    rw [div_div]
  | negSucc e =>
    refine ⟨hd, ?_⟩
    simp only [inUnits, tenTo_eq, zpow_negSucc]
    push_cast
    rw [div_inv_eq_mul, div_mul_eq_mul_div]

/-- The ratio of a decimal takes the unit back out. -/
theorem ratio_spec (q : Nat) (n d : Nat) (e : Int) :
    (Decimal.ratio ⟨q, e⟩).1 * d = q * (inUnits n d e).2 ∧
      n * (Decimal.ratio ⟨q, e⟩).2 = (inUnits n d e).1 ∧ 0 < (Decimal.ratio ⟨q, e⟩).2 := by
  cases e with
  | ofNat e =>
    simp only [Decimal.ratio, inUnits, Nat.mul_one, Nat.one_pos, and_true]
    ring
  | negSucc e => exact ⟨rfl, rfl, tenTo_pos _⟩

/-- The value of a decimal. -/
def Decimal.value (decimal : Decimal) : ℚ := decimal.digits * 10 ^ decimal.exponent

/-- The place of the first digit of a decimal, counted from the point. -/
def Decimal.place (decimal : Decimal) : Int :=
  decimal.exponent + (Nat.toDigits 10 decimal.digits).length

/-- The decimal is rounded to the number. -/
def Decimal.ReadsAs (decimal : Decimal) (target : Double) : Prop :=
  ofRatio false decimal.ratio.1 decimal.ratio.2 = target

/-- A hit reads back as the target, and there is one if the nearest decimal does. -/
theorem gridHit_cases (target : Double) (n d : Nat) (e : Int) :
    (∃ q, gridHit target n d e = some ⟨q, e⟩ ∧ Decimal.ReadsAs ⟨q, e⟩ target) ∨
      gridHit target n d e = none ∧
        ¬ Decimal.ReadsAs ⟨divideHalfEven (inUnits n d e).1 (inUnits n d e).2, e⟩ target := by
  -- Both are stated of a test and two digits, since the digits are only seen for one sign of `e`.
  have hfirst (test : Nat → Bool) (nearest other : Nat) (hit : Option Decimal)
      (h : hit = if test nearest then some ⟨nearest, e⟩ else if test other then some ⟨other, e⟩
        else none) :
      (∃ q, hit = some ⟨q, e⟩ ∧ test q = true) ∨ hit = none ∧ ¬ test nearest = true := by
    split at h
    · next hnearest => exact .inl ⟨nearest, h, hnearest⟩
    · next hnearest =>
      split at h
      · next hother => exact .inl ⟨other, h, hother⟩
      · exact .inr ⟨h, hnearest⟩
  have hreads (q : Nat) : Decimal.ReadsAs ⟨q, e⟩ target ↔
      (ofRatio false (Decimal.ratio ⟨q, e⟩).1 (Decimal.ratio ⟨q, e⟩).2 == target) = true :=
    beq_iff_eq.symm
  simp only [hreads]
  cases e <;> exact hfirst _ _ _ _ rfl

end

section

variable {m u : Nat}

/-- Where the number has sixteen digits before the point in its units, the nearest decimal is
rounded to it. -/
theorem readsAs_of_sixteen (hproper : (finite false m u).IsProper) {e : Int} {n d : Nat}
    (hunits : inUnits (m * twoTo u) (twoTo 1074) e = (n, d)) (hd : 0 < d)
    (h : 10 ^ 16 * d ≤ n) : Decimal.ReadsAs ⟨divideHalfEven n d, e⟩ (finite false m u) := by
  obtain ⟨hdigits, hnumber, hb⟩ := ratio_spec (divideHalfEven n d) (m * twoTo u) (twoTo 1074) e
  obtain ⟨hlow, hhigh⟩ := divideHalfEven_bracket n hd
  have hsame (b : Nat) : m * (2 ^ u * b) = m * twoTo u * b := by rw [twoTo_eq, Nat.mul_assoc]
  rw [hunits] at hdigits hnumber
  rw [Decimal.ReadsAs, ofRatio]
  refine ofScaledRatio_of_near hproper hb ?_
  rw [Near, hsame, hdigits, hnumber]
  generalize divideHalfEven n d * d = rounded at hlow hhigh ⊢
  constructor <;> omega

/-- The grid of seventeen digits has a hit. -/
theorem exists_gridHit (hproper : (finite false m u).IsProper) (hm : 0 < m) :
    gridHit (finite false m u) (m * twoTo u) (twoTo 1074)
      (decimalPlace (m * twoTo u) (twoTo 1074) - 17) ≠ none := by
  have hsize : 0 < m * twoTo u := Nat.mul_pos hm (twoTo_pos u)
  have hbits : (m * twoTo u).log2 < 53 + u := by
    refine log2_lt_of_lt_twoTo hsize ?_
    rw [twoTo_add 53 u]
    exact Nat.mul_lt_mul_of_pos_right hproper.1 (twoTo_pos u)
  have hplace := ten_zpow_decimalPlace_le hsize (twoTo_pos 1074)
    (by rw [log2_twoTo]; omega) (by rw [log2_twoTo]; have := hproper.2.2; omega)
  intro hnone
  generalize decimalPlace (m * twoTo u) (twoTo 1074) = place at hplace hnone
  obtain ⟨hpos, hunits⟩ := inUnits_spec (m * twoTo u) (twoTo_pos 1074) (place - 17)
  have hlarge : (10 : ℚ) ^ 16 ≤
      ((m * twoTo u : Nat) : ℚ) / (twoTo 1074 : Nat) / 10 ^ (place - 17) := by
    rw [le_div_iff₀ (by positivity)]
    calc (10 : ℚ) ^ 16 * 10 ^ (place - 17) = 10 ^ (place - 1) := by
          rw [← zpow_natCast, ← zpow_add₀ (by norm_num)]
          congr 1
          push_cast
          ring
      _ ≤ _ := hplace
  rcases gridHit_cases (finite false m u) (m * twoTo u) (twoTo 1074) (place - 17) with
    ⟨q, hsome, -⟩ | ⟨-, hmiss⟩
  · rw [hsome] at hnone
    cases hnone
  · refine hmiss (readsAs_of_sixteen hproper rfl hpos ?_)
    rw [← hunits, le_div_iff₀ (by exact_mod_cast hpos)] at hlarge
    exact_mod_cast hlarge

theorem not_readsAs_zero (hm : 0 < m) (e : Int) :
    ¬ Decimal.ReadsAs ⟨0, e⟩ (finite false m u) := by
  intro h
  have hzero : (Decimal.ratio ⟨0, e⟩).1 = 0 := by
    cases e with
    | ofNat e => exact Nat.zero_mul _
    | negSucc e => rfl
  obtain ⟨-, -, hpos⟩ := ratio_spec 0 0 1 e
  rw [Decimal.ReadsAs, ofRatio, hzero, ofScaledRatio_of_small false (by omega)] at h
  injection h with _ h _
  omega

/-- The shortest decimal of a positive number is positive and is rounded to the number. -/
theorem shortest_readsAs (hproper : (finite false m u).IsProper) (hm : 0 < m) :
    (shortest m u).ReadsAs (finite false m u) ∧ 0 < (shortest m u).digits := by
  have hfound : ((List.range 17).findSome? fun i : Nat =>
      gridHit (finite false m u) (m * twoTo u) (twoTo 1074)
        (decimalPlace (m * twoTo u) (twoTo 1074) - (i + 1))).isSome = true := by
    rw [List.findSome?_isSome_iff]
    exact ⟨16, by simp, Option.isSome_iff_ne_none.2 (exists_gridHit hproper hm)⟩
  obtain ⟨decimal, hdecimal⟩ := Option.isSome_iff_exists.1 hfound
  have hshortest : shortest m u = decimal := by
    rw [shortest, hdecimal, Option.getD_some]
  obtain ⟨i, -, hhit⟩ := List.exists_of_findSome?_eq_some hdecimal
  rcases gridHit_cases (finite false m u) (m * twoTo u) (twoTo 1074)
    (decimalPlace (m * twoTo u) (twoTo 1074) - (i + 1)) with ⟨q, hsome, hreads⟩ | ⟨hnone, -⟩
  · obtain rfl := Option.some.inj (hsome.symm.trans hhit)
    rw [hshortest]
    refine ⟨hreads, Nat.pos_iff_ne_zero.2 ?_⟩
    rintro rfl
    exact not_readsAs_zero hm _ hreads
  · rw [hnone] at hhit
    cases hhit

end

/-! ## Where the exponent begins -/

/-- The ratio of a decimal is its value. -/
theorem ratio_value (decimal : Decimal) : 0 < decimal.ratio.2 ∧
    (decimal.ratio.1 : ℚ) / decimal.ratio.2 = decimal.value := by
  obtain ⟨q, e⟩ := decimal
  cases e with
  | ofNat e => simp [Decimal.ratio, Decimal.value, tenTo_eq]
  | negSucc e =>
    refine ⟨tenTo_pos _, ?_⟩
    simp only [Decimal.ratio, Decimal.value, tenTo_eq, zpow_negSucc, div_eq_mul_inv]
    push_cast
    rfl

/-- A larger decimal is not rounded to a smaller number. -/
theorem Decimal.ReadsAs.mono {a b : Decimal} {m u m' u' : Nat} (h : a.value ≤ b.value)
    (ha : a.ReadsAs (finite false m u)) (hb : b.ReadsAs (finite false m' u')) :
    m * twoTo u ≤ m' * twoTo u' := by
  obtain ⟨hpos, hvalue⟩ := ratio_value a
  obtain ⟨hpos', hvalue'⟩ := ratio_value b
  rw [← hvalue, ← hvalue', div_le_div_iff₀ (by positivity) (by positivity)] at h
  have hcross : a.ratio.1 * b.ratio.2 ≤ b.ratio.1 * a.ratio.2 := by exact_mod_cast h
  rw [Decimal.ReadsAs, ofRatio] at ha hb
  refine ofScaledRatio_mono hpos hpos' ?_ ha hb
  rw [Nat.mul_right_comm, Nat.mul_right_comm b.ratio.1]
  exact Nat.mul_le_mul_right _ hcross

/-- The first digit of a decimal stands at its place. -/
theorem Decimal.place_bracket (decimal : Decimal) (hpos : 0 < decimal.digits) :
    (10 : ℚ) ^ (decimal.place - 1) ≤ decimal.value ∧ decimal.value < 10 ^ decimal.place := by
  obtain ⟨q, e⟩ := decimal
  rw [Decimal.place, Decimal.value]
  dsimp only at hpos ⊢
  obtain ⟨k, hk⟩ : ∃ k, (Nat.toDigits 10 q).length = k + 1 :=
    Nat.exists_eq_succ_of_ne_zero (by simp [Nat.toDigits_ne_nil])
  have hlow : 10 ^ k ≤ q := by
    rcases Nat.eq_zero_or_pos k with rfl | hpositive
    · omega
    · by_contra hless
      have := (Nat.length_toDigits_le_iff (by decide) hpositive).2 (not_le.1 hless)
      omega
  have hhigh : q < 10 ^ (k + 1) :=
    (Nat.length_toDigits_le_iff (by decide) (Nat.succ_pos k)).1 hk.le
  have hsplit (n : Nat) : (10 : ℚ) ^ (n + e) = (10 ^ n : Nat) * 10 ^ e := by
    rw [zpow_add₀ (by norm_num)]
    push_cast
    rw [zpow_natCast]
  have hfirst : e + ((k + 1 : Nat) : Int) - 1 = k + e := by push_cast; ring
  rw [hk, hfirst, add_comm e, hsplit, hsplit]
  constructor
  · gcongr
  · gcongr

/-- The number nearest to `0.0001`. -/
def tenThousandth : Double := ofDecimal false 1 (-4)

/-- A number other than zero that is nearer to zero than `0.0001`. -/
def IsTiny : Double → Prop
  | finite _ significand unit =>
    0 < significand ∧ (finite false significand unit).less tenThousandth = true
  | _ => False

theorem less_finite_iff {m u m' u' : Nat} :
    (finite false m u).less (finite false m' u') = true ↔ m * twoTo u < m' * twoTo u' := by
  simp only [less, compare?, scaled?, beq_iff_eq, Option.some_inj, Bool.false_eq_true, if_false]
  rw [compare_lt_iff_lt, Int.ofNat_lt]

section

variable {m u : Nat}

theorem tenThousandth_eq : tenThousandth = finite false 7378697629483821 1008 := by decide +kernel

/-- A tiny number is not whole. -/
theorem IsTiny.toInt?_eq_none {negative : Bool} (h : (finite negative m u).IsTiny) :
    (finite negative m u).toInt? = none := by
  obtain ⟨hm, hless⟩ := h
  rw [tenThousandth_eq, less_finite_iff] at hless
  have hone : 7378697629483821 * twoTo 1008 < twoTo 1074 := by
    have hlimit : 7378697629483821 < twoTo 66 := by decide
    generalize (7378697629483821 : Nat) = limit at hlimit
    calc limit * twoTo 1008 < twoTo 66 * twoTo 1008 :=
          Nat.mul_lt_mul_of_pos_right hlimit (twoTo_pos 1008)
      _ = twoTo (66 + 1008) := (twoTo_add 66 1008).symm
  cases hwhole : (finite negative m u).toInt? with
  | none => rfl
  | some k =>
    have hsize := natAbs_of_toInt? hwhole
    have hpos : 0 < m * twoTo u := Nat.mul_pos hm (twoTo_pos u)
    rw [← hsize] at hless hpos
    have hk : 1 * twoTo 1074 ≤ k.natAbs * twoTo 1074 :=
      Nat.mul_le_mul_right _ (Nat.pos_of_mul_pos_right hpos)
    omega

/-- A number is less than `0.0001` exactly if its shortest decimal is. -/
theorem less_tenThousandth_iff (hproper : (finite false m u).IsProper) (hm : 0 < m) :
    (finite false m u).less tenThousandth = true ↔ (shortest m u).value < 10 ^ (-4 : Int) := by
  obtain ⟨hreads, -⟩ := shortest_readsAs hproper hm
  have hreads' : Decimal.ReadsAs ⟨1, -4⟩ (finite false 7378697629483821 1008) := by
    have hround : ofRatio false (Decimal.ratio ⟨1, -4⟩).1 (Decimal.ratio ⟨1, -4⟩).2 =
        finite false 7378697629483821 1008 := by decide +kernel
    exact hround
  have hshortest : shortest 7378697629483821 1008 = ⟨1, -4⟩ := by decide +kernel
  have hproper' : (finite false 7378697629483821 1008).IsProper := by decide +kernel
  have hvalue : Decimal.value ⟨1, -4⟩ = 10 ^ (-4 : Int) := by simp [Decimal.value]
  rw [← hvalue, tenThousandth_eq, less_finite_iff]
  -- From here on the limit is any number with these three facts, so that nothing multiplies it out.
  generalize (7378697629483821 : Nat) = limit at hreads' hshortest hproper'
  generalize (1008 : Nat) = unit at hreads' hshortest hproper'
  constructor
  · intro hless
    by_contra hle
    exact absurd (Decimal.ReadsAs.mono (not_lt.1 hle) hreads' hreads) (not_le.2 hless)
  · intro hless
    refine lt_of_le_of_ne (Decimal.ReadsAs.mono hless.le hreads hreads') fun heq => ?_
    obtain ⟨rfl, rfl⟩ := hproper.unique hproper' heq
    rw [hshortest] at hless
    exact lt_irrefl _ hless

/-- The exponent begins below `0.0001`. -/
theorem place_le_iff (hproper : (finite false m u).IsProper) (hm : 0 < m) :
    (shortest m u).place ≤ -4 ↔ (finite false m u).less tenThousandth = true := by
  obtain ⟨-, hpos⟩ := shortest_readsAs hproper hm
  obtain ⟨hlow, hhigh⟩ := (shortest m u).place_bracket hpos
  rw [less_tenThousandth_iff hproper hm]
  generalize shortest m u = decimal at hlow hhigh ⊢
  constructor
  · intro h
    exact hhigh.trans_le (zpow_le_zpow_right₀ (by norm_num) h)
  · intro h
    have hplace := (zpow_lt_zpow_iff_right₀ (by norm_num)).1 (hlow.trans_lt h)
    omega

/-- A number that is not whole has few digits before the point. -/
theorem place_le_of_toInt? {negative : Bool} (hproper : (finite false m u).IsProper) (hm : 0 < m)
    (hwhole : (finite negative m u).toInt? = none) : (shortest m u).place ≤ 16 := by
  by_contra hlarge
  obtain ⟨hreads, hpos⟩ := shortest_readsAs hproper hm
  obtain ⟨hlow, -⟩ := (shortest m u).place_bracket hpos
  obtain ⟨hden, hvalue⟩ := ratio_value (shortest m u)
  rw [Decimal.ReadsAs, ofRatio] at hreads
  have hvalue : (10 : ℚ) ^ 16 ≤ (shortest m u).ratio.1 / (shortest m u).ratio.2 := by
    rw [hvalue]
    refine le_trans ?_ hlow
    rw [← zpow_natCast]
    exact zpow_le_zpow_right₀ (by norm_num) (by push_cast; omega)
  generalize (shortest m u).ratio = ratio at hreads hden hvalue
  rw [le_div_iff₀ (Nat.cast_pos.2 hden)] at hvalue
  have hratio : 10 ^ 16 * ratio.2 ≤ ratio.1 := by exact_mod_cast hvalue
  have hmany : twoTo (52 + 1074) * ratio.2 ≤ ratio.1 * twoTo 1074 := by
    have hdigits : twoTo 52 ≤ 10 ^ 16 := by decide
    generalize (10 : Nat) ^ 16 = bound at hratio hdigits
    calc twoTo (52 + 1074) * ratio.2 = twoTo 52 * ratio.2 * twoTo 1074 := by
          rw [twoTo_add, Nat.mul_right_comm]
      _ ≤ bound * ratio.2 * twoTo 1074 :=
          Nat.mul_le_mul_right _ (Nat.mul_le_mul_right _ hdigits)
      _ ≤ ratio.1 * twoTo 1074 := Nat.mul_le_mul_right _ hratio
  have hunit : 1074 ≤ u := le_unit_of_ofScaledRatio_eq hden hmany hreads
  exact toInt?_ne_none hunit hwhole

end

/-! ## The text -/

/-- Digits with a point between them that write the decimal fraction `value`. -/
def IsPointed (cs : List Char) (value : ℚ) : Prop :=
  ∃ whole fraction, cs = whole ++ '.' :: fraction ∧ whole ≠ [] ∧ fraction ≠ [] ∧
    (∀ c ∈ whole ++ fraction, Text.isAsciiDigit c = true) ∧
    (Text.digitsValue (whole ++ fraction) : ℚ) / 10 ^ fraction.length = value

/-- Digits, at most with a point between them, before an exponent with its sign. -/
def HasExponent (cs : List Char) : Prop :=
  ∃ whole fraction mark size, cs = whole ++ fraction ++ 'e' :: mark :: size ∧ whole ≠ [] ∧
    (∀ c ∈ whole, Text.isAsciiDigit c = true) ∧
    (fraction = [] ∨ ∃ digits, fraction = '.' :: digits ∧ digits ≠ [] ∧
      ∀ c ∈ digits, Text.isAsciiDigit c = true) ∧
    (mark = '-' ∨ mark = '+') ∧ size ≠ [] ∧ ∀ c ∈ size, Text.isAsciiDigit c = true

section

variable {digits : List Char} {place : Int}

theorem div_ten_pow (v : ℚ) {n : Nat} {e : Int} (h : e = -n) : v / 10 ^ n = v * 10 ^ e := by
  rw [h, zpow_neg, zpow_natCast, div_eq_mul_inv]

/-- Zeros in front do not count. -/
theorem digitsValue_zeros_append (k : Nat) (cs : List Char) :
    Text.digitsValue (List.replicate k '0' ++ cs) = Text.digitsValue cs := by
  rw [Text.digitsValue_append, Text.digitsValue_replicate_zero, Nat.zero_mul, Nat.zero_add]

theorem isAsciiDigit_zeros (k : Nat) : ∀ c ∈ List.replicate k '0', Text.isAsciiDigit c = true := by
  intro c hc
  obtain rfl := List.eq_of_mem_replicate hc
  decide

section

variable (hne : digits ≠ []) (hdigits : ∀ c ∈ digits, Text.isAsciiDigit c = true)

include hne hdigits

/-- Digits behind the point, and zeros in front of them. -/
theorem isPointed_behind (k : Nat) :
    IsPointed ('0' :: '.' :: (List.replicate k '0' ++ digits))
      (Text.digitsValue digits * 10 ^ (-(k : Int) - digits.length)) := by
  refine ⟨List.replicate 1 '0', List.replicate k '0' ++ digits, rfl, by simp, by simp [hne],
    List.forall_mem_append.2 ⟨isAsciiDigit_zeros 1,
      List.forall_mem_append.2 ⟨isAsciiDigit_zeros k, hdigits⟩⟩, ?_⟩
  rw [digitsValue_zeros_append, digitsValue_zeros_append]
  refine div_ten_pow _ ?_
  rw [List.length_append, List.length_replicate]
  omega

/-- Digits before the point, and zeros behind them. -/
theorem isPointed_before (k : Nat) :
    IsPointed (digits ++ List.replicate k '0' ++ ['.', '0'])
      (Text.digitsValue digits * 10 ^ (k : Int)) := by
  refine ⟨digits ++ List.replicate k '0', List.replicate 1 '0', rfl, by simp [hne], by simp,
    List.forall_mem_append.2
      ⟨List.forall_mem_append.2 ⟨hdigits, isAsciiDigit_zeros k⟩, isAsciiDigit_zeros 1⟩, ?_⟩
  rw [Text.digitsValue_append, Text.digitsValue_append, Text.digitsValue_replicate_zero,
    Text.digitsValue_replicate_zero, zpow_natCast]
  simp

omit hne in
/-- Digits on both sides of the point. -/
theorem isPointed_between {k : Nat} (hpos : 0 < k) (hless : k < digits.length) :
    IsPointed (digits.take k ++ '.' :: digits.drop k)
      (Text.digitsValue digits * 10 ^ ((k : Int) - digits.length)) := by
  refine ⟨digits.take k, digits.drop k, rfl, ?_, ?_, ?_, ?_⟩
  · exact List.ne_nil_of_length_pos (by rw [List.length_take]; omega)
  · exact List.ne_nil_of_length_pos (by rw [List.length_drop]; omega)
  · rwa [List.take_append_drop]
  · rw [List.take_append_drop]
    refine div_ten_pow _ ?_
    rw [List.length_drop]
    omega

/-- In the positional range the digits are written with a point at their place. -/
theorem isPointed_layout (h : -4 < place ∧ place ≤ 16) :
    IsPointed (layout digits place) (Text.digitsValue digits * 10 ^ (place - digits.length)) := by
  unfold layout
  rw [if_pos h]
  split
  · next k =>
    rw [Int.ofNat_eq_natCast]
    split
    · next hk =>
      subst hk
      exact isPointed_behind hne hdigits 0
    split
    · next hlength =>
      obtain ⟨j, rfl⟩ := Nat.exists_eq_add_of_le hlength
      rw [Nat.add_sub_cancel_left, Int.natCast_add, add_sub_cancel_left]
      exact isPointed_before hne hdigits j
    · next hpos hlength =>
      exact isPointed_between hdigits (Nat.pos_of_ne_zero hpos) (not_le.1 hlength)
  · next k => exact isPointed_behind hne hdigits (k + 1)

end

/-- Outside of it they are written with an exponent. -/
theorem hasExponent_layout (hne : digits ≠ [])
    (hdigits : ∀ c ∈ digits, Text.isAsciiDigit c = true) (h : ¬(-4 < place ∧ place ≤ 16)) :
    HasExponent (layout digits place) := by
  obtain ⟨first, rest, rfl⟩ := List.exists_cons_of_ne_nil hne
  obtain ⟨hfirst, hrest⟩ := List.forall_mem_cons.1 hdigits
  unfold layout
  rw [if_neg h]
  dsimp only
  have hsize : Nat.toDigits 10 (place - 1).natAbs ≠ [] := Nat.toDigits_ne_nil
  have hall : ∀ c ∈ Nat.toDigits 10 (place - 1).natAbs, Text.isAsciiDigit c = true :=
    fun c => Text.isAsciiDigit_of_mem_toDigits
  generalize Nat.toDigits 10 (place - 1).natAbs = size at hsize hall
  refine ⟨[first], _, _, _, rfl, by simp, by simpa using hfirst, ?_, ?_, ?_, ?_⟩
  · cases rest with
    | nil => exact .inl rfl
    | cons c rest => exact .inr ⟨c :: rest, rfl, by simp, hrest⟩
  · split <;> simp
  · split <;> simp [hsize]
  · split
    · exact List.forall_mem_cons.2 ⟨by decide, hall⟩
    · exact hall

end

theorem exists_zeros_behind (cs : List Char) : ∃ k, cs = trimZeros cs ++ List.replicate k '0' := by
  refine ⟨(cs.reverse.takeWhile (· == '0')).length, ?_⟩
  have hzeros : cs.reverse.takeWhile (· == '0') =
      List.replicate (cs.reverse.takeWhile (· == '0')).length '0' :=
    List.eq_replicate_iff.2 ⟨rfl, fun c hc => by simpa using List.mem_takeWhile_imp hc⟩
  have hsplit := List.takeWhile_append_dropWhile (p := (· == '0')) (l := cs.reverse)
  have hreverse := congrArg List.reverse hsplit
  rw [List.reverse_append, List.reverse_reverse, hzeros, List.reverse_replicate] at hreverse
  exact hreverse.symm

theorem ofRatio_of_div_eq (negative : Bool) {a b a' b' : Nat} (hb : 0 < b) (hb' : 0 < b')
    (h : (a : ℚ) / b = a' / b') : ofRatio negative a b = ofRatio negative a' b' := by
  rw [div_eq_div_iff (by positivity) (by positivity)] at h
  exact ofRatio_congr negative hb hb' (by exact_mod_cast h)

/-- What writes the value of a decimal with a point is read as what the decimal is. -/
theorem IsPointed.reads {cs : List Char} {decimal : Decimal} {target : Double}
    (h : IsPointed cs decimal.value) (hreads : decimal.ReadsAs target) :
    ∃ whole fraction, cs = whole ++ '.' :: fraction ∧ whole ≠ [] ∧ fraction ≠ [] ∧
      (∀ c ∈ whole, Text.isAsciiDigit c = true) ∧ (∀ c ∈ fraction, Text.isAsciiDigit c = true) ∧
      ofDecimal false (Text.digitsValue (whole ++ fraction)) (-fraction.length) = target := by
  obtain ⟨whole, fraction, hcs, hwhole, hfraction, hdigits, hvalue⟩ := h
  obtain ⟨hall, hall'⟩ := List.forall_mem_append.1 hdigits
  refine ⟨whole, fraction, hcs, hwhole, hfraction, hall, hall', ?_⟩
  obtain ⟨hpos, hratio⟩ := ratio_value decimal
  rw [ofDecimal_neg, ← hreads]
  refine ofRatio_of_div_eq false (tenTo_pos _) hpos ?_
  rw [hratio, ← hvalue, tenTo_eq]
  push_cast
  rfl

/-- The digits of a decimal without the zeros at their end have its value at the same place. -/
theorem trimZeros_toDigits (decimal : Decimal) (hpos : 0 < decimal.digits) :
    let all := Nat.toDigits 10 decimal.digits
    trimZeros all ≠ [] ∧ (∀ c ∈ trimZeros all, Text.isAsciiDigit c = true) ∧
      (Text.digitsValue (trimZeros all) : ℚ) *
          10 ^ (decimal.place - (trimZeros all).length) = decimal.value := by
  intro all
  have hvalue : Text.digitsValue all = decimal.digits := Text.digitsValue_toDigits _
  have hdigits : ∀ c ∈ all, Text.isAsciiDigit c = true := fun c => Text.isAsciiDigit_of_mem_toDigits
  obtain ⟨k, hall⟩ := exists_zeros_behind all
  generalize trimZeros all = digits at hall ⊢
  rw [hall, Text.digitsValue_append, Text.digitsValue_replicate_zero, List.length_replicate,
    Nat.add_zero] at hvalue
  refine ⟨?_, fun c hc => hdigits c (hall ▸ List.mem_append_left _ hc), ?_⟩
  · rintro rfl
    rw [show Text.digitsValue [] = 0 from rfl, Nat.zero_mul] at hvalue
    omega
  · have hlength : decimal.place - digits.length = k + decimal.exponent := by
      change decimal.exponent + all.length - digits.length = _
      rw [hall, List.length_append, List.length_replicate]
      push_cast
      ring
    rw [hlength, zpow_add₀ (by norm_num), zpow_natCast, ← mul_assoc, Decimal.value, ← hvalue]
    push_cast
    rfl

/-- The characters, behind a minus for a negative number. -/
def withSign (negative : Bool) (cs : List Char) : List Char := if negative then '-' :: cs else cs

/-- The text of a number that is not whole has its sign in front. Behind it stands a number with an
exponent if it is tiny, and otherwise one with a point that is read as the number without its
sign. -/
theorem text_cases {negative : Bool} {m u : Nat} (hproper : (finite negative m u).IsProper)
    (hwhole : (finite negative m u).toInt? = none) :
    ∃ body, (finite negative m u).text.toList = withSign negative body ∧
      ((finite negative m u).IsTiny ∧ HasExponent body ∨
        ¬ (finite negative m u).IsTiny ∧ ∃ whole fraction, body = whole ++ '.' :: fraction ∧
          whole ≠ [] ∧ fraction ≠ [] ∧ (∀ c ∈ whole, Text.isAsciiDigit c = true) ∧
          (∀ c ∈ fraction, Text.isAsciiDigit c = true) ∧
          ofDecimal false (Text.digitsValue (whole ++ fraction)) (-fraction.length) =
            finite false m u) := by
  have hm : 0 < m := Nat.pos_iff_ne_zero.2 fun hzero => by
    rw [hzero, toInt?_zero] at hwhole
    cases hwhole
  have hproper : (finite false m u).IsProper := hproper
  have htext : (finite negative m u).text.toList = withSign negative
      (layout (trimZeros (Nat.toDigits 10 (shortest m u).digits)) (shortest m u).place) := by
    rw [text, String.toList_ofList, withSign]
    simp only [if_neg hm.ne']
    rfl
  refine ⟨_, htext, ?_⟩
  obtain ⟨hreads, hpos⟩ := shortest_readsAs hproper hm
  have htiny : (finite negative m u).IsTiny ↔ (shortest m u).place ≤ -4 := by
    rw [place_le_iff hproper hm, IsTiny, and_iff_right hm]
  have hplace := place_le_of_toInt? hproper hm hwhole
  rw [htiny]
  generalize shortest m u = decimal at hreads hpos hplace ⊢
  obtain ⟨hne, hdigits, hvalue⟩ := trimZeros_toDigits decimal hpos
  by_cases h : decimal.place ≤ -4
  · exact .inl ⟨h, hasExponent_layout hne hdigits (by omega)⟩
  · exact .inr ⟨h, (hvalue ▸ isPointed_layout hne hdigits ⟨by omega, hplace⟩).reads hreads⟩

end Double

end LeadDesk
