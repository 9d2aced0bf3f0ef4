import LeadDesk.Number.Double
import Mathlib.Data.Nat.Log
import Mathlib.Tactic.Ring
/-!
# Rounding to the nearest number

What rounding of a ratio depends on, and where it leads. It depends on the ratio alone and not on
how it is written (`ofScaledRatio_mul`, `ofRatio_congr`), and treats both signs alike
(`neg_ofScaledRatio`). A ratio that differs from a number by no more than one part in `2 · 10 ^ 16`
is rounded to that number (`ofScaledRatio_of_near`): the numbers around it lie at least twice as far
off. A larger ratio is never rounded to a smaller number (`ofScaledRatio_mono`).
-/

namespace LeadDesk

theorem twoTo_eq (n : Nat) : twoTo n = 2 ^ n := rfl

theorem tenTo_eq (n : Nat) : tenTo n = 10 ^ n := rfl

theorem twoTo_add (m n : Nat) : twoTo (m + n) = twoTo m * twoTo n := Nat.pow_add 2 m n

theorem twoTo_le_twoTo {m n : Nat} (h : m ≤ n) : twoTo m ≤ twoTo n :=
  Nat.pow_le_pow_right (by decide) h

theorem lt_twoTo_log2 (n : Nat) : n < twoTo (n.log2 + 1) := Nat.lt_log2_self

theorem log2_twoTo (n : Nat) : (twoTo n).log2 = n := Nat.log2_two_pow

theorem log2_lt_of_lt_twoTo {n k : Nat} (hn : 0 < n) (h : n < twoTo k) : n.log2 < k :=
  (Nat.log2_lt (Nat.pos_iff_ne_zero.1 hn)).2 h

namespace Double

/-- A finite number as the format writes it: the significand has 53 bits, or fewer at the least
unit. -/
def IsProper : Double → Prop
  | finite _ significand unit =>
    significand < twoTo 53 ∧ (unit = 0 ∨ twoTo 52 ≤ significand) ∧ unit ≤ 2045
  | _ => False

instance : (d : Double) → Decidable d.IsProper
  | nan | infinity _ => inferInstanceAs (Decidable False)
  | finite _ significand unit => inferInstanceAs (Decidable
      (significand < twoTo 53 ∧ (unit = 0 ∨ twoTo 52 ≤ significand) ∧ unit ≤ 2045))

/-! ## The nearest natural -/

/-- A rounded quotient is off by no more than a half. -/
theorem divideHalfEven_bracket (n : Nat) {d : Nat} (hd : 0 < d) :
    2 * (divideHalfEven n d * d) ≤ 2 * n + d ∧ 2 * n ≤ 2 * (divideHalfEven n d * d) + d := by
  have hdiv : n / d * d + n % d = n := Nat.div_add_mod' n d
  have hmod := Nat.mod_lt n hd
  have hup : (n / d + 1) * d = n / d * d + d := Nat.succ_mul _ _
  unfold divideHalfEven
  dsimp only
  split
  · omega
  · split
    · omega
    · split <;> omega

/-- Less than a half off there is only one natural. -/
theorem divideHalfEven_eq {n d q : Nat} (hlow : 2 * (q * d) < 2 * n + d)
    (hhigh : 2 * n < 2 * (q * d) + d) : divideHalfEven n d = q := by
  have hd : 0 < d := by omega
  obtain ⟨hbelow, habove⟩ := divideHalfEven_bracket n hd
  generalize divideHalfEven n d = p at hbelow habove ⊢
  have hle : p < q + 1 := by
    refine Nat.lt_of_mul_lt_mul_right (a := d) ?_
    rw [Nat.succ_mul]
    omega
  have hge : q < p + 1 := by
    refine Nat.lt_of_mul_lt_mul_right (a := d) ?_
    rw [Nat.succ_mul]
    omega
  omega

theorem divideHalfEven_mul (n d : Nat) {c : Nat} (hc : 0 < c) :
    divideHalfEven (n * c) (d * c) = divideHalfEven n d := by
  have htwice : 2 * (n * c % (d * c)) = 2 * (n % d) * c := by
    rw [Nat.mul_mod_mul_right, Nat.mul_assoc]
  simp only [divideHalfEven, Nat.mul_div_mul_right n d hc, htwice, Nat.mul_lt_mul_right hc]

theorem divideHalfEven_le {n n' : Nat} (h : n ≤ n') {d : Nat} (hd : 0 < d) :
    divideHalfEven n d ≤ divideHalfEven n' d := by
  by_contra hless
  have hstep : (divideHalfEven n' d + 1) * d ≤ divideHalfEven n d * d :=
    Nat.mul_le_mul_right d (by omega)
  rw [Nat.succ_mul] at hstep
  obtain ⟨hlow, -⟩ := divideHalfEven_bracket n hd
  obtain ⟨-, hhigh⟩ := divideHalfEven_bracket n' hd
  -- Only between two halves of one number could the order turn around.
  obtain rfl : n = n' := by omega
  omega

/-- A larger ratio has no smaller rounded quotient. -/
theorem divideHalfEven_mono {n d n' d' : Nat} (hd : 0 < d) (hd' : 0 < d') (h : n * d' ≤ n' * d) :
    divideHalfEven n d ≤ divideHalfEven n' d' := by
  rw [← divideHalfEven_mul n d hd', ← divideHalfEven_mul n' d' hd, Nat.mul_comm d' d]
  exact divideHalfEven_le h (Nat.mul_pos hd hd')

theorem divideHalfEven_exact (q : Nat) {d : Nat} (hd : 0 < d) : divideHalfEven (q * d) d = q :=
  divideHalfEven_eq (by omega) (by omega)

/-! ## The nearest number -/

/-- The unit that numbers at a ratio have. -/
def unitOf (n d : Nat) : Nat := (n / d).log2 - 52

/-- Rounding depends on the ratio alone. -/
theorem ofScaledRatio_mul (negative : Bool) (n d : Nat) {c : Nat} (hc : 0 < c) :
    ofScaledRatio negative (n * c) (d * c) = ofScaledRatio negative n d := by
  have hunit (k : Nat) : d * c * k = d * k * c := Nat.mul_right_comm d c k
  simp only [ofScaledRatio, Nat.mul_div_mul_right n d hc, hunit, divideHalfEven_mul _ _ hc]

theorem ofRatio_congr (negative : Bool) {a b a' b' : Nat} (hb : 0 < b) (hb' : 0 < b')
    (h : a * b' = a' * b) : ofRatio negative a b = ofRatio negative a' b' := by
  rw [ofRatio, ofRatio, ← ofScaledRatio_mul negative _ _ hb', ← ofScaledRatio_mul negative _ b' hb,
    Nat.mul_right_comm, h, Nat.mul_right_comm, Nat.mul_comm b]

/-- Both signs are rounded alike. -/
theorem neg_ofScaledRatio (negative : Bool) (n d : Nat) :
    (ofScaledRatio negative n d).neg = ofScaledRatio (!negative) n d := by
  simp only [ofScaledRatio]
  split <;> split <;> rfl

/-- What is less than half of the least number is rounded to zero. -/
theorem ofScaledRatio_of_small (negative : Bool) {n d : Nat} (h : 2 * n < d) :
    ofScaledRatio negative n d = finite negative 0 0 := by
  have hdiv : n / d = 0 := Nat.div_eq_of_lt (by omega)
  have hround : divideHalfEven n d = 0 := divideHalfEven_eq (by omega) (by omega)
  simp [ofScaledRatio, hdiv, hround, twoTo_pos]

/-- A ratio at which the numbers have the given unit is rounded to a multiple of the unit. -/
theorem ofScaledRatio_of_unit (negative : Bool) {n d q unit : Nat}
    (hunit : unitOf n d = unit) (hlow : 2 * (q * (d * twoTo unit)) < 2 * n + d * twoTo unit)
    (hhigh : 2 * n < 2 * (q * (d * twoTo unit)) + d * twoTo unit) :
    ofScaledRatio negative n d =
      if q < twoTo 53 then if unit ≤ 2045 then finite negative q unit else infinity negative
      else if unit + 1 ≤ 2045 then finite negative (q / 2) (unit + 1) else infinity negative := by
  rw [unitOf] at hunit
  simp only [ofScaledRatio, hunit, divideHalfEven_eq hlow hhigh]

section

variable {m u n d : Nat}

/-- The ratio differs from the number by no more than one part in `2 · 10 ^ 16`. -/
def Near (m u n d : Nat) : Prop :=
  2 * 10 ^ 16 * n ≤ (2 * 10 ^ 16 + 1) * (m * (2 ^ u * d)) ∧
    2 * 10 ^ 16 * (m * (2 ^ u * d)) ≤ 2 * 10 ^ 16 * n + m * (2 ^ u * d)

/-- The unit of a ratio is read off its size. -/
theorem unitOf_of_range {k : Nat} (hd : 0 < d) (hlow : k = 0 ∨ 2 ^ (52 + k) * d ≤ n)
    (hhigh : n < 2 ^ (53 + k) * d) : unitOf n d = k := by
  rw [unitOf]
  have hlt : n / d < 2 ^ (53 + k) := (Nat.div_lt_iff_lt_mul hd).2 hhigh
  by_cases hzero : n / d = 0
  · have hk : k = 0 := by
      refine hlow.resolve_right fun h => ?_
      have hle : 2 ^ (52 + k) ≤ n / d := (Nat.le_div_iff_mul_le hd).2 h
      have := Nat.two_pow_pos (52 + k)
      omega
    simp [hzero, hk]
  · have hupper : (n / d).log2 < 53 + k := (Nat.log2_lt hzero).2 hlt
    rcases hlow with rfl | h
    · omega
    · have hle : 2 ^ (52 + k) ≤ n / d := (Nat.le_div_iff_mul_le hd).2 h
      have := (Nat.le_log2 hzero).2 hle
      omega

/-- Where the numbers around have the unit of the number, a ratio near it is rounded to it. -/
theorem ofScaledRatio_of_near_same (negative : Bool) (hd : 0 < d) (hm : m < 2 ^ 53) (hu : u ≤ 2045)
    (hnear : Near m u n d) (hlow : u = 0 ∨ 2 ^ (52 + u) * d ≤ n) :
    ofScaledRatio negative n d = finite negative m u := by
  obtain ⟨habove, hbelow⟩ := hnear
  have hstep : 0 < 2 ^ u * d := Nat.mul_pos (Nat.two_pow_pos u) hd
  have hmle : m * (2 ^ u * d) ≤ (2 ^ 53 - 1) * (2 ^ u * d) :=
    Nat.mul_le_mul_right _ (by omega)
  have hhigh : n < 2 ^ (53 + u) * d := by
    have hpow : 2 ^ (53 + u) * d = 2 ^ 53 * (2 ^ u * d) := by rw [Nat.pow_add, Nat.mul_assoc]
    omega
  have hwidth : d * twoTo u = 2 ^ u * d := by rw [twoTo_eq, Nat.mul_comm]
  rw [ofScaledRatio_of_unit negative (unitOf_of_range hd hlow hhigh) (q := m)]
  · rw [if_pos (by exact hm), if_pos hu]
  · rw [hwidth]
    omega
  · rw [hwidth]
    omega

/-- Below the least number with a unit the numbers lie twice as close, and a ratio near that number
is rounded up to it. -/
theorem ofScaledRatio_of_near_less (negative : Bool) (hd : 0 < d) (hu : u + 1 ≤ 2045)
    (hnear : Near (2 ^ 52) (u + 1) n d) (hless : n < 2 ^ 52 * (2 ^ (u + 1) * d)) :
    ofScaledRatio negative n d = finite negative (2 ^ 52) (u + 1) := by
  obtain ⟨-, hbelow⟩ := hnear
  have hstep : 0 < 2 ^ u * d := Nat.mul_pos (Nat.two_pow_pos u) hd
  have htwice : 2 ^ (u + 1) * d = 2 * (2 ^ u * d) := by
    rw [Nat.pow_succ, Nat.mul_comm (2 ^ u), Nat.mul_assoc]
  rw [htwice] at hbelow hless
  have hhigh : n < 2 ^ (53 + u) * d := by
    have hpow : 2 ^ (53 + u) * d = 2 ^ 53 * (2 ^ u * d) := by rw [Nat.pow_add, Nat.mul_assoc]
    omega
  have hlow : 2 ^ (52 + u) * d ≤ n := by
    have hpow : 2 ^ (52 + u) * d = 2 ^ 52 * (2 ^ u * d) := by rw [Nat.pow_add, Nat.mul_assoc]
    omega
  have hwidth : d * twoTo u = 2 ^ u * d := by rw [twoTo_eq, Nat.mul_comm]
  rw [ofScaledRatio_of_unit negative (unitOf_of_range hd (.inr hlow) hhigh) (q := 2 ^ 53)]
  · rw [if_neg (by rw [twoTo_eq]; exact lt_irrefl _), if_pos hu]
    rfl
  · rw [hwidth]
    omega
  · rw [hwidth]
    omega

/-- A ratio near a number is rounded to it. -/
theorem ofScaledRatio_of_near {negative : Bool} (hproper : (finite negative m u).IsProper)
    (hd : 0 < d) (hnear : Near m u n d) : ofScaledRatio negative n d = finite negative m u := by
  obtain ⟨hm, hfull, hu⟩ := hproper
  by_cases hlow : u = 0 ∨ 2 ^ (52 + u) * d ≤ n
  · exact ofScaledRatio_of_near_same negative hd hm hu hnear hlow
  · rw [not_or, not_le] at hlow
    obtain ⟨hpos, hless⟩ := hlow
    obtain ⟨u, rfl⟩ : ∃ v, u = v + 1 := Nat.exists_eq_succ_of_ne_zero hpos
    have hfull : 2 ^ 52 ≤ m := hfull.resolve_left hpos
    rw [Nat.pow_add, Nat.mul_assoc] at hless
    -- A larger significand would keep the ratio above the least number of the unit.
    obtain rfl : m = 2 ^ 52 := by
      by_contra hne
      have hmore : (2 ^ 52 + 1) * (2 ^ (u + 1) * d) ≤ m * (2 ^ (u + 1) * d) :=
        Nat.mul_le_mul_right _ (by omega)
      have hstep : 0 < 2 ^ (u + 1) * d := Nat.mul_pos (Nat.two_pow_pos _) hd
      obtain ⟨-, hbelow⟩ := hnear
      omega
    exact ofScaledRatio_of_near_less negative hd hu hnear hless

theorem near_self (m u : Nat) {d : Nat} : Near m u (m * (2 ^ u * d)) d := by
  constructor
  · exact Nat.mul_le_mul_right _ (by omega)
  · omega

/-! ## Larger ratios -/

theorem lt_of_unitOf (hd : 0 < d) : n < twoTo 53 * (d * twoTo (unitOf n d)) := by
  have hlog : n / d < twoTo (53 + unitOf n d) :=
    (lt_twoTo_log2 (n / d)).trans_le (twoTo_le_twoTo (by rw [unitOf]; omega))
  rw [Nat.div_lt_iff_lt_mul hd, twoTo_add, Nat.mul_assoc, Nat.mul_comm _ d] at hlog
  exact hlog

theorem le_of_unitOf_pos (hd : 0 < d) (h : 0 < unitOf n d) :
    twoTo 52 * (d * twoTo (unitOf n d)) ≤ n := by
  have hlog : 52 + unitOf n d = (n / d).log2 := by
    rw [unitOf] at h ⊢
    omega
  have hne : n / d ≠ 0 := by
    intro hzero
    rw [unitOf, hzero] at h
    exact absurd h (by decide)
  have hle : twoTo (52 + unitOf n d) ≤ n / d := by
    rw [hlog]
    exact Nat.log2_self_le hne
  rw [Nat.le_div_iff_mul_le hd, twoTo_add, Nat.mul_assoc, Nat.mul_comm _ d] at hle
  exact hle

/-- A finite result has the value of the ratio rounded to its unit. -/
theorem value_of_ofScaledRatio_eq {negative negative' : Bool} (hd : 0 < d)
    (h : ofScaledRatio negative n d = finite negative' m u) :
    m * twoTo u = divideHalfEven n (d * twoTo (unitOf n d)) * twoTo (unitOf n d) ∧
      unitOf n d ≤ u := by
  have hle : divideHalfEven n (d * twoTo (unitOf n d)) ≤ twoTo 53 := by
    have hwidth := Nat.mul_pos hd (twoTo_pos (unitOf n d))
    rw [← divideHalfEven_exact (twoTo 53) hwidth]
    exact divideHalfEven_le (lt_of_unitOf hd).le hwidth
  change (if divideHalfEven n (d * twoTo (unitOf n d)) < twoTo 53 then
      if unitOf n d ≤ 2045 then
        finite negative (divideHalfEven n (d * twoTo (unitOf n d))) (unitOf n d)
      else infinity negative
    else if unitOf n d + 1 ≤ 2045 then
        finite negative (divideHalfEven n (d * twoTo (unitOf n d)) / 2) (unitOf n d + 1)
      else infinity negative) = _ at h
  generalize divideHalfEven n (d * twoTo (unitOf n d)) = rounded at h hle ⊢
  generalize unitOf n d = unit at h ⊢
  split at h
  · split at h
    · obtain ⟨-, rfl, rfl⟩ := finite.inj h
      exact ⟨rfl, le_rfl⟩
    · cases h
  · next hfull =>
    split at h
    · obtain ⟨-, rfl, rfl⟩ := finite.inj h
      obtain rfl : rounded = twoTo 53 := by omega
      refine ⟨?_, by omega⟩
      rw [Nat.add_comm, twoTo_add 1, ← Nat.mul_assoc]
      rfl
    · cases h

/-- No number of a unit is above those with full significands at a larger unit. -/
theorem le_of_unit_lt {m' u' : Nat} (hm : m ≤ twoTo 53) (hm' : twoTo 52 ≤ m') (hu : u < u') :
    m * twoTo u ≤ m' * twoTo u' := by
  calc m * twoTo u ≤ twoTo 53 * twoTo u := Nat.mul_le_mul_right _ hm
    _ = twoTo 52 * twoTo (1 + u) := by rw [← twoTo_add, ← twoTo_add]; congr 1; omega
    _ ≤ m' * twoTo u' := Nat.mul_le_mul hm' (twoTo_le_twoTo (by omega))

/-- A ratio of many units is rounded to a number of a large unit. -/
theorem le_unit_of_ofScaledRatio_eq {negative negative' : Bool} (hd : 0 < d) {k : Nat}
    (hlarge : twoTo (52 + k) * d ≤ n) (h : ofScaledRatio negative n d = finite negative' m u) :
    k ≤ u := by
  have hlog : 52 + k ≤ (n / d).log2 := by
    have hdiv : twoTo (52 + k) ≤ n / d := (Nat.le_div_iff_mul_le hd).2 hlarge
    have hne := (Nat.lt_of_lt_of_le (twoTo_pos _) hdiv).ne'
    exact (Nat.le_log2 hne).2 hdiv
  have hunit : unitOf n d ≤ u := (value_of_ofScaledRatio_eq hd h).2
  rw [unitOf] at hunit
  omega

/-- A larger ratio is not rounded to a smaller number. -/
theorem ofScaledRatio_mono {negative negative' : Bool} {n' d' m' u' : Nat} (hd : 0 < d)
    (hd' : 0 < d') (h : n * d' ≤ n' * d) (heq : ofScaledRatio negative n d = finite negative m u)
    (heq' : ofScaledRatio negative' n' d' = finite negative' m' u') :
    m * twoTo u ≤ m' * twoTo u' := by
  obtain ⟨hvalue, -⟩ := value_of_ofScaledRatio_eq hd heq
  obtain ⟨hvalue', -⟩ := value_of_ofScaledRatio_eq hd' heq'
  have hdiv : n / d ≤ n' / d' := by
    rw [Nat.le_div_iff_mul_le hd']
    refine Nat.le_of_mul_le_mul_right ?_ hd
    calc n / d * d' * d = n / d * d * d' := by ring
      _ ≤ n * d' := Nat.mul_le_mul_right d' (Nat.div_mul_le_self n d)
      _ ≤ n' * d := h
  have hunit : unitOf n d ≤ unitOf n' d' := by
    have hlog : (n / d).log2 ≤ (n' / d').log2 := by
      rw [Nat.log2_eq_log_two, Nat.log2_eq_log_two]
      exact Nat.log_mono_right hdiv
    rw [unitOf, unitOf]
    omega
  rw [hvalue, hvalue']
  generalize hk : unitOf n d = k at hunit
  generalize hk' : unitOf n' d' = k' at hunit
  have hwidth := Nat.mul_pos hd (twoTo_pos k)
  have hwidth' := Nat.mul_pos hd' (twoTo_pos k')
  rcases hunit.eq_or_lt with rfl | hless
  · refine Nat.mul_le_mul_right _ (divideHalfEven_mono hwidth hwidth' ?_)
    calc n * (d' * twoTo k) = n * d' * twoTo k := by ring
      _ ≤ n' * d * twoTo k := Nat.mul_le_mul_right _ h
      _ = n' * (d * twoTo k) := by ring
  · have hlow : divideHalfEven n (d * twoTo k) ≤ twoTo 53 := by
      rw [← divideHalfEven_exact (twoTo 53) hwidth]
      exact divideHalfEven_le (hk ▸ lt_of_unitOf hd).le hwidth
    have hhigh : twoTo 52 ≤ divideHalfEven n' (d' * twoTo k') := by
      rw [← divideHalfEven_exact (twoTo 52) hwidth']
      exact divideHalfEven_le (hk' ▸ le_of_unitOf_pos hd' (by omega)) hwidth'
    exact le_of_unit_lt hlow hhigh hless

/-- A number has one significand and one unit. -/
theorem IsProper.unique {negative negative' : Bool} {m' u' : Nat}
    (h : (finite negative m u).IsProper) (h' : (finite negative' m' u').IsProper)
    (heq : m * twoTo u = m' * twoTo u') : m = m' ∧ u = u' := by
  obtain ⟨hm, hfull, -⟩ := h
  obtain ⟨hm', hfull', -⟩ := h'
  obtain hless | rfl | hless := Nat.lt_trichotomy u u'
  · have hle := le_of_unit_lt le_rfl (hfull'.resolve_left (by omega)) hless
    exact absurd heq ((Nat.mul_lt_mul_of_pos_right hm (twoTo_pos u)).trans_le hle).ne
  · exact ⟨Nat.eq_of_mul_eq_mul_right (twoTo_pos u) heq, rfl⟩
  · have hle := le_of_unit_lt le_rfl (hfull.resolve_left (by omega)) hless
    exact absurd heq ((Nat.mul_lt_mul_of_pos_right hm' (twoTo_pos u')).trans_le hle).ne'

/-! ## Integers and decimal fractions -/

/-- What is rounded to a finite number is no larger than the largest one. -/
theorem log2_le_of_ofScaledRatio_eq {negative negative' : Bool}
    (h : ofScaledRatio negative n d = finite negative' m u) : (n / d).log2 ≤ 2097 := by
  by_contra hlarge
  have hunit : ¬ (n / d).log2 - 52 ≤ 2045 := by omega
  have hnext : ¬ (n / d).log2 - 52 + 1 ≤ 2045 := by omega
  simp only [ofScaledRatio, if_neg hunit, if_neg hnext, ite_self] at h
  cases h

theorem ofScaledRatio_ne_nan (negative : Bool) (n d : Nat) : ofScaledRatio negative n d ≠ nan := by
  simp only [ofScaledRatio]
  split <;> split <;> nofun

/-- An integer that is not too large is rounded to a finite number, and only such an integer is. -/
theorem ofInt?_eq_some_iff {n : Int} {d : Double} :
    ofInt? n = some d ↔ ofRatio (n < 0) n.natAbs 1 = d ∧ ∀ negative, d ≠ infinity negative := by
  unfold ofInt?
  generalize ofRatio (n < 0) n.natAbs 1 = r
  cases r with
  | infinity negative =>
    refine ⟨nofun, ?_⟩
    rintro ⟨rfl, hfinite⟩
    exact absurd rfl (hfinite negative)
  | nan | finite _ _ _ =>
    rw [unlessInfinite?, Option.some_inj, iff_self_and]
    · rintro rfl
      nofun
    · nofun

/-- An integer that is not too large has few digits. -/
theorem natAbs_lt_of_ofInt? {n : Int} {d : Double} (h : ofInt? n = some d) {k : Nat}
    (hk : 1024 ≤ k) : n.natAbs < twoTo k := by
  obtain ⟨hround, hfinite⟩ := ofInt?_eq_some_iff.1 h
  rw [ofRatio] at hround
  cases d with
  | nan => exact absurd hround (ofScaledRatio_ne_nan _ _ _)
  | infinity negative => exact absurd rfl (hfinite negative)
  | finite negative m u =>
    have hlog := log2_le_of_ofScaledRatio_eq hround
    rw [Nat.div_one] at hlog
    have hlt : n.natAbs * twoTo 1074 < twoTo k * twoTo 1074 := by
      calc n.natAbs * twoTo 1074 < twoTo ((n.natAbs * twoTo 1074).log2 + 1) := lt_twoTo_log2 _
        _ ≤ twoTo (k + 1074) := twoTo_le_twoTo (by omega)
        _ = twoTo k * twoTo 1074 := twoTo_add k 1074
    exact Nat.lt_of_mul_lt_mul_right hlt

/-- An integer and its negative are rounded to numbers that are negatives. -/
theorem ofInt?_natAbs {n : Int} (hn : n < 0) {d : Double} (h : ofInt? n = some d) :
    ofInt? n.natAbs = some d.neg := by
  obtain ⟨hround, hfinite⟩ := ofInt?_eq_some_iff.1 h
  have hnonneg : ¬ (n.natAbs : Int) < 0 := by omega
  refine ofInt?_eq_some_iff.2 ⟨?_, fun negative hneg => hfinite (!negative) ?_⟩
  · rw [← hround, ofRatio, ofRatio, neg_ofScaledRatio, Int.natAbs_natCast, decide_eq_true hn,
      decide_eq_false hnonneg]
    rfl
  · rw [← neg_neg d, hneg, neg]

/-- The integer that a number is has the value of the number. -/
theorem toInt?_eq_some_iff {d : Double} {k : Int} :
    d.toInt? = some k ↔ d.scaled? = some (scaleInt k) := by
  unfold toInt? scaleInt
  have hscale : (twoTo 1074 : Int) ≠ 0 := by
    have := twoTo_pos 1074
    omega
  generalize (twoTo 1074 : Int) = scale at hscale
  cases d.scaled? with
  | none => simp
  | some n =>
    rw [Option.bind_some, Option.some_inj]
    constructor
    · intro h
      split at h
      · next hmod =>
        obtain rfl := Option.some.inj h
        exact (Int.ediv_mul_cancel (Int.dvd_of_emod_eq_zero hmod)).symm
      · cases h
    · rintro rfl
      rw [if_pos (Int.mul_emod_left k scale), Int.mul_ediv_cancel k hscale]

theorem ofInt?_zero : ofInt? 0 = some zero := by
  refine ofInt?_eq_some_iff.2 ⟨?_, nofun⟩
  rw [ofRatio]
  exact ofScaledRatio_of_small false (by rw [Int.natAbs_zero, Nat.zero_mul]; decide)

theorem toInt?_zero (negative : Bool) (u : Nat) : (finite negative 0 u).toInt? = some 0 := by
  have hzero : scaleInt 0 = 0 := Int.zero_mul _
  refine toInt?_eq_some_iff.2 ?_
  rw [hzero, scaled?, Nat.zero_mul]
  cases negative <;> rfl

/-- Zeros of both signs are put in order alike. -/
theorem compare?_zero (negative : Bool) (u : Nat) (x : Double) :
    (finite negative 0 u).compare? x = zero.compare? x := by
  cases x <;> cases negative <;> simp [compare?, scaled?, zero]

/-- A number whose unit is at least one is whole. -/
theorem toInt?_ne_none {negative : Bool} (h : 1074 ≤ u) : (finite negative m u).toInt? ≠ none := by
  obtain ⟨k, rfl⟩ := Nat.exists_eq_add_of_le' h
  have hmagnitude : ((m * twoTo (k + 1074) : Nat) : Int) = scaleInt (m * twoTo k : Nat) := by
    rw [scaleInt, twoTo_add, ← Nat.mul_assoc, Int.natCast_mul]
  have hwhole : ∃ n, (finite negative m (k + 1074)).toInt? = some n := by
    cases negative with
    | false =>
      exact ⟨_, toInt?_eq_some_iff.2 (congrArg some hmagnitude)⟩
    | true =>
      refine ⟨-(m * twoTo k : Nat), toInt?_eq_some_iff.2 ?_⟩
      have hneg : scaleInt (-(m * twoTo k : Nat)) = -scaleInt (m * twoTo k : Nat) :=
        Int.neg_mul _ _
      rw [hneg, ← hmagnitude]
      rfl
  obtain ⟨n, hn⟩ := hwhole
  rw [hn]
  exact Option.some_ne_none n

/-- The integer that a number is has the size of the number. -/
theorem natAbs_of_toInt? {negative : Bool} {k : Int}
    (h : (finite negative m u).toInt? = some k) : k.natAbs * twoTo 1074 = m * twoTo u := by
  have hwhole : (if negative then -((m * twoTo u : Nat) : Int) else (m * twoTo u : Nat)) =
      k * twoTo 1074 := Option.some.inj (toInt?_eq_some_iff.1 h)
  have habs := congrArg Int.natAbs hwhole
  rw [Int.natAbs_mul, Int.natAbs_natCast] at habs
  rw [← habs]
  cases negative with
  | true => rw [if_pos rfl, Int.natAbs_neg, Int.natAbs_natCast]
  | false => rw [if_neg Bool.false_ne_true, Int.natAbs_natCast]

/-- A whole number is rounded to itself. -/
theorem ofInt?_of_toInt? {negative : Bool} (hproper : (finite negative m u).IsProper) (hm : 0 < m)
    {k : Int} (h : (finite negative m u).toInt? = some k) :
    ofInt? k = some (finite negative m u) := by
  have hwhole : (if negative then -((m * twoTo u : Nat) : Int) else (m * twoTo u : Nat)) =
      k * twoTo 1074 := Option.some.inj (toInt?_eq_some_iff.1 h)
  have hscale : (0 : Int) < twoTo 1074 := by exact_mod_cast twoTo_pos 1074
  have hsize : (0 : Int) < (m * twoTo u : Nat) := by exact_mod_cast Nat.mul_pos hm (twoTo_pos u)
  have hsign : decide (k < 0) = negative := by
    cases negative with
    | true =>
      rw [if_pos rfl] at hwhole
      exact decide_eq_true (by by_contra hk; have := Int.mul_nonneg (not_lt.1 hk) hscale.le; omega)
    | false =>
      rw [if_neg Bool.false_ne_true] at hwhole
      exact decide_eq_false fun hk => by
        have := Int.mul_neg_of_neg_of_pos hk hscale
        omega
  have hmagnitude : k.natAbs * twoTo 1074 = m * (2 ^ u * 1) := by
    rw [natAbs_of_toInt? h, Nat.mul_one, ← twoTo_eq]
  refine ofInt?_eq_some_iff.2 ⟨?_, nofun⟩
  rw [ofRatio, hsign, hmagnitude]
  exact ofScaledRatio_of_near hproper Nat.one_pos (near_self m u)

/-- A decimal fraction is rounded as the ratio that it writes. -/
theorem ofDecimal_neg (negative : Bool) (digits places : Nat) :
    ofDecimal negative digits (-(places : Int)) = ofRatio negative digits (tenTo places) := by
  have hsmall (h : 2 * (digits * twoTo 1074) < tenTo places) :
      ofRatio negative digits (tenTo places) = finite negative 0 0 := by
    rw [ofRatio]
    exact ofScaledRatio_of_small negative h
  unfold ofDecimal
  split
  · next hzero =>
    subst hzero
    exact (hsmall (by rw [Nat.zero_mul]; exact tenTo_pos places)).symm
  split
  · omega
  split
  · next hlog =>
    refine (hsmall ?_).symm
    calc 2 * (digits * twoTo 1074) < twoTo 1 * (twoTo (digits.log2 + 1) * twoTo 1074) := by
          refine Nat.mul_lt_mul_of_pos_left ?_ (by decide)
          exact Nat.mul_lt_mul_of_pos_right (lt_twoTo_log2 digits) (twoTo_pos 1074)
      _ = twoTo (1 + (digits.log2 + 1 + 1074)) := by
        rw [twoTo_add 1 (digits.log2 + 1 + 1074), twoTo_add (digits.log2 + 1) 1074]
      _ ≤ twoTo (3 * places) := twoTo_le_twoTo (by omega)
      _ = 8 ^ places := Nat.pow_mul 2 3 places
      _ ≤ tenTo places := Nat.pow_le_pow_left (by decide) places
  · cases places with
    | zero => simp
    | succ places => rfl

end

end Double

end LeadDesk
