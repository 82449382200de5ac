import PointScope.Proofs.Decimal.Digits
import PointScope.Proofs.Decimal.Nearest

/-! Shortest text is read back. The coefficient that the search settles on lies in the interval of
the number, whichever grid it was found on, so reading gives the number itself, bit for bit. -/
namespace PointScope.Decimal

/-! ### Exact decimals -/

theorem ofBinary_unit_pos (mantissa : Nat) (exponent : Int) :
    0 < (Exact.ofBinary mantissa exponent).unit := by
  cases exponent with
  | ofNat k => exact Nat.two_pow_pos k
  | negSucc k => exact Nat.pow_pos (by decide)

theorem ofBinary_coefficient (mantissa : Nat) (exponent : Int) :
    (Exact.ofBinary mantissa exponent).coefficient =
      mantissa * (Exact.ofBinary mantissa exponent).unit := by
  cases exponent <;> rfl

/-- The unit of an exact decimal is the power of two. -/
theorem ofBinary_unit (mantissa : Nat) (exponent : Int) :
    ((Exact.ofBinary mantissa exponent).unit : ℚ) =
      2 ^ exponent * 10 ^ (Exact.ofBinary mantissa exponent).places := by
  cases exponent with
  | ofNat k =>
    change ((2 ^ k : Nat) : ℚ) = 2 ^ (k : Int) * 10 ^ 0
    rw [zpow_natCast, pow_zero, mul_one]
    push_cast
    rfl
  | negSucc k =>
    change ((5 ^ (k + 1) : Nat) : ℚ) = 2 ^ (Int.negSucc k) * 10 ^ (k + 1)
    rw [zpow_negSucc, show (10 : ℚ) = 2 * 5 by norm_num, mul_pow, inv_mul_cancel_left₀ (by positivity)]
    push_cast
    rfl

/-! ### The search -/

variable {mantissa : Nat} {exponent : Int} {exact : Exact} {value : Nat}

/-- A coefficient that the search may settle on. -/
def Hits (mantissa : Nat) (exponent : Int) (exact : Exact) (value : Nat) : Prop :=
  value ≤ exact.coefficient ∧ roundsFromBelow mantissa exponent exact value = true ∨
    exact.coefficient ≤ value ∧ roundsFromAbove mantissa exact value = true

theorem hits_coefficient (mantissa : Nat) (exponent : Int) (positive : 0 < exact.unit) :
    Hits mantissa exponent exact exact.coefficient := by
  refine Or.inr ⟨Nat.le_refl _, ?_⟩
  simp only [roundsFromAbove]
  split
  · exact decide_eq_true (by omega)
  · exact decide_eq_true (by omega)

theorem hits_of_onGrid? {step : Nat} (positive : 0 < step)
    (found : onGrid? mantissa exponent exact step = some value) :
    Hits mantissa exponent exact value := by
  have low : exact.coefficient / step * step ≤ exact.coefficient := Nat.div_mul_le_self _ _
  have high : exact.coefficient ≤ exact.coefficient / step * step + step := by
    have whole := Nat.div_add_mod' exact.coefficient step
    have rest := Nat.mod_lt exact.coefficient positive
    omega
  simp only [onGrid?] at found
  split at found
  · rename_i below above
    split at found
    · cases found
      exact Or.inr ⟨high, above⟩
    · cases found
      exact Or.inl ⟨low, below⟩
  · rename_i below _
    cases found
    exact Or.inl ⟨low, below⟩
  · rename_i _ above
    cases found
    exact Or.inr ⟨high, above⟩
  · contradiction

/-- Every grid is a candidate, and the magnitude itself is the last resort. -/
theorem hits_onFirstGrid (positive : 0 < exact.unit) (k : Nat) :
    Hits mantissa exponent exact (onFirstGrid mantissa exponent exact k) := by
  induction k with
  | zero => exact hits_coefficient mantissa exponent positive
  | succ k ih =>
    simp only [onFirstGrid]
    cases found : onGrid? mantissa exponent exact (Nat.pow 10 (k + 1)) with
    | none => exact ih
    | some value => exact hits_of_onGrid? (Nat.pow_pos (by decide)) found

/-- The distances allowed to both sides, over the places of the exact decimal. -/
theorem Hits.bounds (positive : 0 < exact.unit) (hits : Hits mantissa exponent exact value) :
    4 * exact.coefficient ≤ 4 * value + lowerReach mantissa exponent * exact.unit ∧
      2 * value ≤ 2 * exact.coefficient + exact.unit ∧
      (mantissa % 2 = 1 →
        4 * exact.coefficient < 4 * value + lowerReach mantissa exponent * exact.unit ∧
          2 * value < 2 * exact.coefficient + exact.unit) := by
  have reach : 0 < lowerReach mantissa exponent * exact.unit := by
    refine Nat.mul_pos ?_ positive
    rcases lowerReach_cases mantissa exponent with half | ⟨quarter, _⟩ <;> omega
  rcases hits with ⟨le, below⟩ | ⟨le, above⟩
  · simp only [roundsFromBelow] at below
    split at below
    · rw [decide_eq_true_eq] at below
      omega
    · rw [decide_eq_true_eq] at below
      omega
  · simp only [roundsFromAbove] at above
    split at above
    · rw [decide_eq_true_eq] at above
      omega
    · rw [decide_eq_true_eq] at above
      omega

/-- What the search settles on rounds to the number. -/
theorem roundsTo_of_hits (hits : Hits mantissa exponent (.ofBinary mantissa exponent) value) :
    RoundsTo mantissa exponent
      ((value : ℚ) / 10 ^ (Exact.ofBinary mantissa exponent).places) := by
  obtain ⟨low, high, tie⟩ := hits.bounds (ofBinary_unit_pos mantissa exponent)
  have unit := ofBinary_unit mantissa exponent
  have power : (0 : ℚ) < 10 ^ (Exact.ofBinary mantissa exponent).places := by positivity
  rw [ofBinary_coefficient] at low high tie
  generalize (Exact.ofBinary mantissa exponent).unit = u at *
  generalize (10 : ℚ) ^ (Exact.ofBinary mantissa exponent).places = p at *
  have scale : (value : ℚ) = value / p * p := by field_simp
  refine ⟨?_, ?_, fun odd => ⟨?_, ?_⟩⟩
  · refine le_of_mul_le_mul_right ?_ power
    have := (Nat.cast_le (α := ℚ)).mpr low
    push_cast at this
    rw [scale, unit] at this
    linarith
  · refine le_of_mul_le_mul_right ?_ power
    have := (Nat.cast_le (α := ℚ)).mpr high
    push_cast at this
    rw [scale, unit] at this
    linarith
  · refine lt_of_mul_lt_mul_right ?_ power.le
    have := (Nat.cast_lt (α := ℚ)).mpr (tie odd).1
    push_cast at this
    rw [scale, unit] at this
    linarith
  · refine lt_of_mul_lt_mul_right ?_ power.le
    have := (Nat.cast_lt (α := ℚ)).mpr (tie odd).2
    push_cast at this
    rw [scale, unit] at this
    linarith

theorem roundsTo_shortest (mantissa : Nat) (exponent : Int) :
    RoundsTo mantissa exponent
      ((shortestCoefficient mantissa exponent (Exact.ofBinary mantissa exponent) : ℚ) /
        10 ^ (Exact.ofBinary mantissa exponent).places) :=
  roundsTo_of_hits (hits_onFirstGrid (ofBinary_unit_pos mantissa exponent) _)

/-! ### Round trip -/

/-- The parts of a finite number encode its bits without the sign. -/
theorem ofFloat_of_isFinite {v : Float} (finite : v.isFinite = true) :
    ∃ mantissa exponent,
      Parts.ofFloat v = .finite (decide (signPlace ≤ v.toBits.toNat)) mantissa exponent ∧
      Encodes mantissa exponent ∧ bitsOf mantissa exponent = v.toBits.toNat % signPlace := by
  have word := v.toBits.toNat_lt
  rw [isFinite_iff] at finite
  unfold Parts.ofFloat Encodes bitsOf
  simp only [infinityBits] at finite
  unfold signPlace normalMantissa leastExponent at *
  rw [if_neg (by omega)]
  split
  · exact ⟨_, _, rfl, by omega, by omega⟩
  · exact ⟨_, _, rfl, by omega, by omega⟩

theorem ofFloat_of_isInf {v : Float} (infinite : v.isInf = true) :
    Parts.ofFloat v = .infinite (decide (signPlace ≤ v.toBits.toNat)) := by
  rw [isInf_iff] at infinite
  unfold Parts.ofFloat
  simp only [infinityBits] at infinite
  unfold signPlace normalMantissa at *
  rw [if_pos (by omega), if_pos (by omega)]

theorem ofFloat_of_not_number {v : Float} (finite : ¬v.isFinite = true) (infinite : ¬v.isInf = true) :
    Parts.ofFloat v = .notANumber := by
  have word := v.toBits.toNat_lt
  rw [isFinite_iff] at finite
  rw [isInf_iff] at infinite
  unfold Parts.ofFloat
  simp only [infinityBits] at finite infinite
  unfold signPlace normalMantissa at *
  rw [if_pos (by omega), if_neg (by omega)]

theorem shortestCoefficient_zero (exponent : Int) :
    shortestCoefficient 0 exponent (Exact.ofBinary 0 exponent) = 0 := by
  have zero : (Exact.ofBinary 0 exponent).coefficient = 0 := by
    rw [ofBinary_coefficient, Nat.zero_mul]
  simp only [shortestCoefficient]
  rw [zero]
  exact zero

theorem nearest_zero (encodes : Encodes 0 exponent) (e : Int) :
    nearest 0 e = Float.ofBits (UInt64.ofNat (bitsOf 0 exponent)) := by
  have least : exponent = leastExponent := by
    refine encodes.1.resolve_right ?_
    rintro ⟨_, normal⟩
    exact absurd normal (by decide)
  rw [nearest, if_pos (Or.inl rfl), bitsOf, least, Int.sub_self]
  rfl

/-- The text of a magnitude, without a sign. -/
def magnitudeChars (mantissa : Nat) (exponent : Int) : List Char :=
  plain (shortestCoefficient mantissa exponent (.ofBinary mantissa exponent))
    (Exact.ofBinary mantissa exponent).places

theorem magnitude?_magnitudeChars (encodes : Encodes mantissa exponent) :
    magnitude? (magnitudeChars mantissa exponent) =
      some (Float.ofBits (UInt64.ofNat (bitsOf mantissa exponent))) := by
  have rounds := roundsTo_shortest mantissa exponent
  obtain ⟨n, fewer, z, read, places, scaled⟩ := magnitude?_plain
    (shortestCoefficient mantissa exponent (.ofBinary mantissa exponent))
    (Exact.ofBinary mantissa exponent).places
  rw [magnitudeChars, read]
  refine congrArg some ?_
  rcases Nat.eq_zero_or_pos mantissa with rfl | positive
  · rw [shortestCoefficient_zero] at scaled
    obtain rfl : n = 0 := (Nat.mul_eq_zero.mp scaled).resolve_right (Nat.pow_pos (by decide)).ne'
    exact nearest_zero encodes _
  · refine nearest_of_roundsTo positive encodes ?_
    rw [← scaled, ← places] at rounds
    push_cast at rounds
    rwa [pow_add, mul_div_mul_right _ _ (by positivity)] at rounds

/-- Reading the shortest text of a magnitude gives back the number, bit for bit. -/
theorem read?_magnitudeChars (encodes : Encodes mantissa exponent) :
    read? (magnitudeChars mantissa exponent) =
      some (Float.ofBits (UInt64.ofNat (bitsOf mantissa exponent))) := by
  obtain ⟨d, others, begins, digit⟩ := plain_eq_cons
    (shortestCoefficient mantissa exponent (.ofBinary mantissa exponent))
    (Exact.ofBinary mantissa exponent).places
  have unsigned : splitSign (magnitudeChars mantissa exponent) =
      (false, magnitudeChars mantissa exponent) := by
    rw [magnitudeChars, begins, splitSign_of_isDigit digit]
  rw [read?, unsigned]
  dsimp only
  rw [magnitude?_magnitudeChars encodes]
  rfl

/-! ### Magnitudes that are read -/

theorem toBits_nearest_le (coefficient : Nat) (exponent : Int) :
    (nearest coefficient exponent).toBits.toNat ≤ infinityBits := by
  have small : ∀ b, b ≤ infinityBits → (Float.ofBits (UInt64.ofNat b)).toBits.toNat ≤ infinityBits := by
    intro b le
    have size : infinityBits < signPlace := by decide
    have word : infinityBits < UInt64.size := by decide
    rw [toBits_ofBits (by omega) (by rw [Nat.mod_eq_of_lt (by omega)]; exact le)]
    exact le
  simp only [nearest]
  apply small
  split
  · exact Nat.zero_le _
  · split
    · exact Nat.le_refl _
    · exact Nat.min_le_left _ _

/-- A magnitude is no negative number and never not a number. -/
theorem toBits_magnitude?_le {s : List Char} {v : Float} (read : magnitude? s = some v) :
    v.toBits.toNat ≤ infinityBits := by
  simp only [magnitude?] at read
  split at read
  all_goals
    split at read
    · contradiction
    · obtain ⟨e, _, rfl⟩ := Option.map_eq_some_iff.mp read
      exact toBits_nearest_le _ _

end PointScope.Decimal
