import PointScope.Proofs.Decimal.Bits
import PointScope.Decimal.Shortest

/-! Rounding to the nearest number. The quotients that round to a number are an interval around it,
which reaches half a unit to both sides, except below a power of two, where numbers stand closer.
Every quotient of the interval is encoded as that number. -/
namespace PointScope.Decimal

/-! ### Rounded quotients -/

/-- A quotient at most half away from a natural rounds to it, if the natural is even or nearer than
that. -/
theorem roundDiv_eq {num den n : Nat} (positive : 0 < den)
    (low : 2 * (n * den) ≤ 2 * num + den) (high : 2 * num ≤ 2 * (n * den) + den)
    (tie : n % 2 = 1 → 2 * (n * den) < 2 * num + den ∧ 2 * num < 2 * (n * den) + den) :
    roundDiv num den = n := by
  have split_num : den * (num / den) + num % den = num := Nat.div_add_mod num den
  have small : num % den < den := Nat.mod_lt num positive
  have least : num / den ≤ n := by
    by_contra above
    have := Nat.mul_le_mul_right den (Nat.lt_of_not_le above)
    rw [Nat.succ_mul, Nat.mul_comm (num / den)] at this
    omega
  have most : n ≤ num / den + 1 := by
    by_contra below
    have := Nat.mul_le_mul_right den (Nat.lt_of_not_le below)
    rw [Nat.succ_mul, Nat.succ_mul, Nat.mul_comm (num / den)] at this
    omega
  simp only [roundDiv]
  obtain rfl | rfl : n = num / den ∨ n = num / den + 1 := by omega
  · rw [Nat.mul_comm (num / den) den] at low high tie
    split
    · rfl
    · split <;> omega
  · have next : (num / den + 1) * den = den * (num / den) + den := by
      rw [Nat.succ_mul, Nat.mul_comm]
    rw [next] at low high tie
    split
    · omega
    · split <;> omega

/-! ### Powers of two -/

/-- The two halves of a power of two, of which at most one is above one, are the power. -/
theorem two_zpow_mul_toNat (k : Int) :
    (2 : ℚ) ^ k * (Nat.pow 2 (-k).toNat : ℚ) = (Nat.pow 2 k.toNat : ℚ) := by
  rw [Nat.pow_eq, Nat.pow_eq]
  push_cast
  rw [← zpow_natCast, ← zpow_natCast, ← zpow_add₀ (by norm_num)]
  congr 1
  omega

theorem scaled_le_iff {a b : Nat} (k : Int) :
    a * Nat.pow 2 k.toNat ≤ b * Nat.pow 2 (-k).toNat ↔ (2 : ℚ) ^ k * a ≤ b := by
  have positive : (0 : ℚ) < (Nat.pow 2 (-k).toNat : ℚ) := by exact_mod_cast Nat.two_pow_pos _
  rw [← Nat.cast_le (α := ℚ), Nat.cast_mul, Nat.cast_mul, ← two_zpow_mul_toNat, ← mul_assoc,
    mul_le_mul_iff_left₀ positive, mul_comm]

/-- A number of `log2 n + 1` binary digits lies between two powers of two. -/
theorem log2_bounds {n : Nat} (positive : 0 < n) :
    (2 : ℚ) ^ (n.log2 : Int) ≤ n ∧ (n : ℚ) < 2 ^ (n.log2 + 1 : Int) := by
  have low := (Nat.le_log2 (Nat.ne_of_gt positive)).mp (Nat.le_refl n.log2)
  have high := (Nat.log2_lt (Nat.ne_of_gt positive)).mp (Nat.lt_succ_self n.log2)
  constructor
  · rw [zpow_natCast]
    exact_mod_cast low
  · rw [← Nat.cast_succ, zpow_natCast]
    exact_mod_cast high

/-- The unit in the last place leaves 53 of the binary digits that a quotient has before the point,
between whose powers of two it lies. -/
theorem unitExponent_digits {num den : Nat} (hn : 0 < num) (hd : 0 < den) :
    ∃ digits : Int, unitExponent num den = max leastExponent (digits - 53) ∧
      2 ^ (digits - 1) * (den : ℚ) ≤ num ∧ (num : ℚ) < 2 ^ digits * den := by
  obtain ⟨num_low, num_high⟩ := log2_bounds hn
  obtain ⟨den_low, den_high⟩ := log2_bounds hd
  simp only [unitExponent]
  split
  · rename_i above
    rw [scaled_le_iff] at above
    refine ⟨_, rfl, ?_, ?_⟩
    · rwa [add_sub_cancel_right]
    · calc (num : ℚ) < 2 ^ (num.log2 + 1 : Int) := num_high
        _ = 2 ^ ((num.log2 : Int) - den.log2 + 1) * 2 ^ (den.log2 : Int) := by
          rw [← zpow_add₀ (by norm_num)]
          congr 1
          ring
        _ ≤ 2 ^ ((num.log2 : Int) - den.log2 + 1) * den := by gcongr
  · rename_i above
    rw [scaled_le_iff, not_le] at above
    refine ⟨_, rfl, ?_, above⟩
    calc 2 ^ ((num.log2 : Int) - den.log2 - 1) * (den : ℚ)
        ≤ 2 ^ ((num.log2 : Int) - den.log2 - 1) * 2 ^ (den.log2 + 1 : Int) := by gcongr
      _ = 2 ^ (num.log2 : Int) := by
        rw [← zpow_add₀ (by norm_num)]
        congr 1
        ring
      _ ≤ num := num_low

/-- The unit in the last place, from the size of the quotient. -/
theorem unitExponent_eq {num den : Nat} (hn : 0 < num) (hd : 0 < den) {e : Int}
    (least : leastExponent ≤ e) (below : (num : ℚ) < 2 ^ (e + 53) * den)
    (full : e = leastExponent ∨ 2 ^ (e + 52) * (den : ℚ) ≤ num) : unitExponent num den = e := by
  obtain ⟨digits, eq, low, high⟩ := unitExponent_digits hn hd
  have den_positive : (0 : ℚ) < den := by exact_mod_cast hd
  have not_more : digits - 1 < e + 53 := by
    refine (zpow_lt_zpow_iff_right₀ (by norm_num : (1 : ℚ) < 2)).mp ?_
    exact lt_of_mul_lt_mul_right (low.trans_lt below) den_positive.le
  rw [eq]
  rcases full with rfl | full
  · omega
  · have not_less : e + 52 < digits := by
      refine (zpow_lt_zpow_iff_right₀ (by norm_num : (1 : ℚ) < 2)).mp ?_
      exact lt_of_mul_lt_mul_right (full.trans_lt high) den_positive.le
    omega

/-- The rounded number of units of a quotient. -/
theorem inUnits_eq {num den n : Nat} (hd : 0 < den) {e : Int}
    (low : (2 * n - 1) * (2 ^ e * den) ≤ 2 * (num : ℚ))
    (high : 2 * (num : ℚ) ≤ (2 * n + 1) * (2 ^ e * den))
    (tie : n % 2 = 1 → (2 * n - 1) * (2 ^ e * den) < 2 * (num : ℚ) ∧
      2 * (num : ℚ) < (2 * n + 1) * (2 ^ e * den)) : inUnits num den e = n := by
  have positive : (0 : ℚ) < (Nat.pow 2 (-e).toNat : ℚ) := by exact_mod_cast Nat.two_pow_pos _
  have units := two_zpow_mul_toNat e
  simp only [inUnits]
  generalize Nat.pow 2 (-e).toNat = p at *
  generalize Nat.pow 2 e.toNat = q at *
  have hq : 0 < q := by
    have : (0 : ℚ) < q := by rw [← units]; positivity
    exact_mod_cast this
  refine roundDiv_eq (Nat.mul_pos hd hq) ?_ ?_ fun odd => ⟨?_, ?_⟩
  · have := mul_le_mul_of_nonneg_right low positive.le
    rw [← Nat.cast_le (α := ℚ)]
    push_cast
    rw [← units]
    linarith
  · have := mul_le_mul_of_nonneg_right high positive.le
    rw [← Nat.cast_le (α := ℚ)]
    push_cast
    rw [← units]
    linarith
  · have := mul_lt_mul_of_pos_right (tie odd).1 positive
    rw [← Nat.cast_lt (α := ℚ)]
    push_cast
    rw [← units]
    linarith
  · have := mul_lt_mul_of_pos_right (tie odd).2 positive
    rw [← Nat.cast_lt (α := ℚ)]
    push_cast
    rw [← units]
    linarith

/-- The bits of a quotient whose unit is known and that is at most half a unit away from `n` of
them. -/
theorem nearestBits_eq {num den n : Nat} (hd : 0 < den) {value : ℚ} (positive : 0 < value)
    (quotient : (num : ℚ) = value * den) {e : Int} (least : leastExponent ≤ e)
    (below : value < 2 ^ e * 2 ^ 53) (full : e = leastExponent ∨ 2 ^ e * 2 ^ 52 ≤ value)
    (low : (2 * n - 1) * 2 ^ e ≤ 2 * value) (high : 2 * value ≤ (2 * n + 1) * 2 ^ e)
    (tie : n % 2 = 1 → (2 * n - 1) * 2 ^ e < 2 * value ∧ 2 * value < (2 * n + 1) * 2 ^ e) :
    nearestBits num den =
      min infinityBits ((e - leastExponent).toNat * normalMantissa + n) := by
  have den_positive : (0 : ℚ) < den := by exact_mod_cast hd
  have hn : 0 < num := by
    have : (0 : ℚ) < num := by rw [quotient]; positivity
    exact_mod_cast this
  have shifted : ∀ k : Int, (2 : ℚ) ^ (e + k) = 2 ^ e * 2 ^ k := zpow_add₀ (by norm_num) e
  have scaled : ∀ {a b : ℚ}, a ≤ b → a * den ≤ b * den := fun le =>
    mul_le_mul_of_nonneg_right le den_positive.le
  have scaled_lt : ∀ {a b : ℚ}, a < b → a * den < b * den := fun lt =>
    mul_lt_mul_of_pos_right lt den_positive
  have unit_exponent : unitExponent num den = e := by
    refine unitExponent_eq hn hd least ?_ (full.imp_right fun enough => ?_)
    · rw [shifted, quotient]
      exact scaled_lt below
    · rw [shifted, quotient]
      exact scaled enough
  have units : inUnits num den e = n := by
    refine inUnits_eq hd ?_ ?_ fun odd => ⟨?_, ?_⟩
    · have := scaled low
      linarith
    · have := scaled high
      linarith
    · have := scaled_lt (tie odd).1
      linarith
    · have := scaled_lt (tie odd).2
      linarith
  rw [nearestBits, unit_exponent, units]

/-! ### The quotients of a number -/

/-- A mantissa with the exponent that goes with it: subnormal at the least exponent, else with the
hidden bit, and not so large that the number is infinite. -/
def Encodes (mantissa : Nat) (exponent : Int) : Prop :=
  (exponent = leastExponent ∨ leastExponent < exponent ∧ normalMantissa ≤ mantissa) ∧
    mantissa < 2 * normalMantissa ∧ exponent ≤ 971

/-- The bits of a number. -/
def bitsOf (mantissa : Nat) (exponent : Int) : Nat :=
  (exponent - leastExponent).toNat * normalMantissa + mantissa

/-- The interval of the values that round to a number. Its ends belong to the number if the mantissa
is even. -/
structure RoundsTo (mantissa : Nat) (exponent : Int) (value : ℚ) : Prop where
  low : (4 * mantissa - lowerReach mantissa exponent) * 2 ^ exponent ≤ 4 * value
  high : 2 * value ≤ (2 * mantissa + 1) * 2 ^ exponent
  tie : mantissa % 2 = 1 →
    (4 * mantissa - lowerReach mantissa exponent) * 2 ^ exponent < 4 * value ∧
      2 * value < (2 * mantissa + 1) * 2 ^ exponent

theorem bitsOf_lt {mantissa : Nat} {exponent : Int} (encodes : Encodes mantissa exponent) :
    bitsOf mantissa exponent < infinityBits := by
  obtain ⟨_, small, room⟩ := encodes
  simp only [bitsOf, infinityBits]
  unfold normalMantissa leastExponent at *
  omega

/-- Both sides of the interval reach half a unit, unless the number is a power of two with a
neighbour nearer below. -/
theorem lowerReach_cases (mantissa : Nat) (exponent : Int) :
    lowerReach mantissa exponent = 2 ∨ lowerReach mantissa exponent = 1 ∧
      mantissa = normalMantissa ∧ leastExponent < exponent := by
  simp only [lowerReach]
  split
  · exact Or.inr ⟨rfl, ‹_›⟩
  · exact Or.inl rfl

theorem lowerReach_le (mantissa : Nat) (exponent : Int) :
    (lowerReach mantissa exponent : ℚ) ≤ 2 := by
  rcases lowerReach_cases mantissa exponent with half | ⟨quarter, _⟩
  · rw [half]
    norm_num
  · rw [quarter]
    norm_num

theorem RoundsTo.lt_next {mantissa : Nat} {exponent : Int} {value : ℚ}
    (encodes : Encodes mantissa exponent) (rounds : RoundsTo mantissa exponent value) :
    value < 2 ^ exponent * 2 ^ 53 := by
  have unit : (0 : ℚ) < 2 ^ exponent := by positivity
  have small : (mantissa : ℚ) + 1 ≤ 2 ^ 53 := by
    have := encodes.2.1
    simp only [normalMantissa] at this
    exact_mod_cast (by omega : mantissa + 1 ≤ 2 ^ 53)
  have := rounds.high
  nlinarith

/-- A number whose interval reaches below the power of two where its exponent begins is that power,
and reaches a quarter of its unit below. -/
theorem RoundsTo.power {mantissa : Nat} {exponent : Int} {value : ℚ}
    (encodes : Encodes mantissa exponent) (rounds : RoundsTo mantissa exponent value)
    (above : leastExponent < exponent) (less : value < 2 ^ exponent * 2 ^ 52) :
    mantissa = normalMantissa ∧ (4 * 2 ^ 52 - 1) * 2 ^ exponent ≤ 4 * value := by
  have unit : (0 : ℚ) < 2 ^ exponent := by positivity
  have normal : normalMantissa ≤ mantissa := (encodes.1.resolve_left above.ne').2
  have low := rounds.low
  rcases lowerReach_cases mantissa exponent with half | ⟨quarter, power, _⟩
  · exfalso
    have not_power : mantissa ≠ normalMantissa := by
      intro power
      rw [lowerReach, if_pos ⟨power, above⟩] at half
      exact absurd half (by decide)
    have next : (2 : ℚ) ^ 52 + 1 ≤ mantissa := by
      simp only [normalMantissa] at normal not_power
      exact_mod_cast (by omega : 2 ^ 52 + 1 ≤ mantissa)
    rw [half] at low
    push_cast at low
    nlinarith
  · refine ⟨power, ?_⟩
    rw [quarter, power, normalMantissa] at low
    norm_num at low ⊢
    exact low

/-- Every quotient that rounds to a number is encoded as it. -/
theorem nearestBits_of_roundsTo {num den : Nat} (hn : 0 < num) (hd : 0 < den) {mantissa : Nat}
    {exponent : Int} (encodes : Encodes mantissa exponent)
    (rounds : RoundsTo mantissa exponent (num / den)) :
    nearestBits num den = bitsOf mantissa exponent := by
  have positive : (0 : ℚ) < num / den := by positivity
  have quotient : (num : ℚ) = num / den * den := by field_simp
  have unit : (0 : ℚ) < 2 ^ exponent := by positivity
  have reach := lowerReach_le mantissa exponent
  have least : leastExponent ≤ exponent := by
    rcases encodes.1 with least | ⟨above, _⟩ <;> omega
  generalize (num : ℚ) / den = value at *
  by_cases full : exponent = leastExponent ∨ 2 ^ exponent * 2 ^ 52 ≤ value
  · have bits : nearestBits num den =
        min infinityBits ((exponent - leastExponent).toNat * normalMantissa + mantissa) := by
      refine nearestBits_eq hd positive quotient least (rounds.lt_next encodes) full ?_ rounds.high
        fun odd => ⟨?_, (rounds.tie odd).2⟩
      · nlinarith [rounds.low]
      · nlinarith [(rounds.tie odd).1]
    rw [bits]
    exact Nat.min_eq_right (bitsOf_lt encodes).le
  · -- The quotient is below a power of two, so it has one more place, and rounds up to the power.
    rw [not_or, not_le] at full
    have above : leastExponent < exponent := by omega
    obtain ⟨power, low⟩ := rounds.power encodes above full.2
    have half_unit : (2 : ℚ) ^ (exponent - 1) * 2 = 2 ^ exponent := by
      rw [← zpow_add_one₀ (by norm_num), sub_add_cancel]
    have bits : nearestBits num den =
        min infinityBits ((exponent - 1 - leastExponent).toNat * normalMantissa + 2 ^ 53) := by
      refine nearestBits_eq hd positive quotient (by omega) ?_ (Or.inr ?_) ?_ ?_
        fun odd => by norm_num at odd
      · linarith [full.2]
      · nlinarith
      · push_cast
        linarith
      · push_cast
        linarith [full.2]
    have same : (exponent - 1 - leastExponent).toNat * normalMantissa + 2 ^ 53 =
        bitsOf mantissa exponent := by
      rw [power]
      simp only [bitsOf, normalMantissa]
      omega
    rw [bits, same]
    exact Nat.min_eq_right (bitsOf_lt encodes).le

/-- No value that rounds to a positive number is below half of the smallest one. -/
theorem RoundsTo.not_tiny {mantissa : Nat} {exponent : Int} {value : ℚ} (positive : 0 < mantissa)
    (encodes : Encodes mantissa exponent) (rounds : RoundsTo mantissa exponent value) :
    1 ≤ value * 2 ^ 1075 := by
  have mantissa_cast : (1 : ℚ) ≤ mantissa := by exact_mod_cast positive
  have reach := lowerReach_le mantissa exponent
  have unit : (2 : ℚ) ^ leastExponent ≤ 2 ^ exponent := by
    refine zpow_le_zpow_right₀ (by norm_num) ?_
    rcases encodes.1 with least | ⟨above, _⟩ <;> omega
  have smallest : (2 : ℚ) ^ leastExponent * 2 ^ 1075 = 2 := by
    rw [leastExponent, ← zpow_natCast, ← zpow_add₀ (by norm_num)]
    norm_num
  have half : 2 ^ leastExponent ≤ 2 * value := by
    have low := rounds.low
    have wide : 2 * 2 ^ exponent ≤ (4 * mantissa - lowerReach mantissa exponent) * (2 : ℚ) ^ exponent :=
      mul_le_mul_of_nonneg_right (by linarith) (by positivity)
    linarith
  have product := mul_le_mul_of_nonneg_right half (by positivity : (0 : ℚ) ≤ 2 ^ 1075)
  rw [smallest] at product
  generalize (2 : ℚ) ^ 1075 = p at *
  linarith

/-- A decimal is not taken for zero if it is at least half of the smallest number. -/
theorem not_decisive {n places k : Nat} (few : k ≤ 1075) (large : 10 ^ places ≤ n * 2 ^ k) :
    ¬(n = 0 ∨ -(places : Int) + n.log2 < -decisiveExponent) := by
  have positive : n ≠ 0 := by
    rintro rfl
    rw [Nat.zero_mul, Nat.le_zero] at large
    exact absurd large (Nat.pow_pos (by decide)).ne'
  rintro (zero | tiny)
  · exact positive zero
  · simp only [decisiveExponent] at tiny
    have digits : n < 2 ^ (n.log2 + 1) := (Nat.log2_lt positive).mp (Nat.lt_succ_self n.log2)
    have : 10 ^ places < 10 ^ places := by
      calc 10 ^ places ≤ n * 2 ^ k := large
        _ < 2 ^ (n.log2 + 1) * 2 ^ k := Nat.mul_lt_mul_of_pos_right digits (Nat.two_pow_pos k)
        _ = 2 ^ (n.log2 + 1 + k) := by rw [← Nat.pow_add]
        _ ≤ 2 ^ (3 * places) := Nat.pow_le_pow_right (by decide) (by omega)
        _ = 8 ^ places := by rw [Nat.pow_mul]
        _ ≤ 10 ^ places := Nat.pow_le_pow_left (by decide) places
    exact Nat.lt_irrefl _ this

/-- A decimal in the interval of a number is read as that number. -/
theorem nearest_of_roundsTo {mantissa n places : Nat} {exponent : Int} (positive : 0 < mantissa)
    (encodes : Encodes mantissa exponent)
    (rounds : RoundsTo mantissa exponent ((n : ℚ) / 10 ^ places)) :
    nearest n (-(places : Nat)) = Float.ofBits (UInt64.ofNat (bitsOf mantissa exponent)) := by
  have power : (0 : ℚ) < 10 ^ places := by positivity
  have large : 10 ^ places ≤ n * 2 ^ 1075 := by
    have := rounds.not_tiny positive encodes
    rw [div_mul_eq_mul_div, one_le_div power] at this
    exact_mod_cast this
  have kept := not_decisive (Nat.le_refl 1075) large
  have bits : nearestBits n (10 ^ places) = bitsOf mantissa exponent := by
    refine nearestBits_of_roundsTo (Nat.pos_of_ne_zero fun zero => kept (Or.inl zero))
      (Nat.pow_pos (by decide)) encodes ?_
    push_cast
    exact rounds
  simp only [nearest]
  rw [if_neg kept, if_neg (by unfold decisiveExponent; omega), Int.neg_neg, Int.toNat_natCast,
    Int.toNat_of_nonpos (by omega : -(places : Int) ≤ 0), Nat.pow_eq, Nat.pow_eq, Nat.pow_zero,
    Nat.mul_one, bits]

end PointScope.Decimal
