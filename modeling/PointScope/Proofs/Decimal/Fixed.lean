import PointScope.Decimal.Fixed
import PointScope.Proofs.Decimal.Digits

/-! The length of text with a fixed number of places. No number is so great or so small that its
text grows beyond the digits of the extreme exponents. -/
namespace PointScope.Decimal

theorem roundDiv_le (num den : Nat) : roundDiv num den ≤ num + 1 := by
  have quotient := Nat.div_le_self num den
  simp only [roundDiv]
  split
  · omega
  · split
    · omega
    · omega

theorem ofFloat_bounds {v : Float} {negative : Bool} {mantissa : Nat} {exponent : Int}
    (finite : Parts.ofFloat v = .finite negative mantissa exponent) :
    mantissa < 2 * normalMantissa ∧ -1074 ≤ exponent ∧ exponent ≤ 1074 := by
  have fraction : v.toBits.toNat % normalMantissa < normalMantissa := Nat.mod_lt _ (by decide)
  simp only [Parts.ofFloat] at finite
  split at finite
  · split at finite <;> contradiction
  · split at finite
    · cases finite
      simp only [leastExponent]
      omega
    · cases finite
      simp only [leastExponent]
      omega

variable {places : Nat} {n : Nat}

theorem coefficient_le (mantissa : Nat) {exponent : Int} (low : -(n : Int) ≤ exponent)
    (high : exponent ≤ n) : (Exact.ofBinary mantissa exponent).coefficient ≤ mantissa * 10 ^ n := by
  cases exponent with
  | ofNat k =>
    rw [Int.ofNat_eq_natCast] at high
    have grown : 2 ^ k ≤ 10 ^ n :=
      Nat.le_trans (Nat.pow_le_pow_left (by decide) k) (Nat.pow_le_pow_right (by decide) (by omega))
    exact Nat.mul_le_mul_left mantissa grown
  | negSucc k =>
    have grown : 5 ^ (k + 1) ≤ 10 ^ n :=
      Nat.le_trans (Nat.pow_le_pow_left (by decide) (k + 1))
        (Nat.pow_le_pow_right (by decide) (by omega))
    exact Nat.mul_le_mul_left mantissa grown

/-- Cutting the places off again leaves no more than the number itself, rounded up. -/
theorem atPlaces_div_le (exact : Exact) (places : Nat) :
    exact.atPlaces places / 10 ^ places ≤ exact.coefficient + 1 := by
  rw [Exact.atPlaces]
  split
  · rename_i fewer
    have shift : 10 ^ (places - exact.places) ≤ 10 ^ places :=
      Nat.pow_le_pow_right (by decide) (Nat.sub_le _ _)
    calc exact.coefficient * 10 ^ (places - exact.places) / 10 ^ places
        ≤ exact.coefficient * 10 ^ places / 10 ^ places :=
          Nat.div_le_div_right (Nat.mul_le_mul_left _ shift)
      _ = exact.coefficient := Nat.mul_div_cancel _ (Nat.pow_pos (by decide))
      _ ≤ exact.coefficient + 1 := Nat.le_succ _
  · exact Nat.le_trans (Nat.div_le_self _ _) (roundDiv_le _ _)

theorem length_digits_le {c : Nat} (bound : c < 10 ^ (n + 1)) : (digits c).length ≤ n + 1 :=
  (Nat.length_toDigits_le_iff (by decide) (Nat.succ_pos n)).mpr bound

theorem length_padded_le {c : Nat} (bound : c / 10 ^ places < 10 ^ (n + 1)) :
    (padded c places).length ≤ n + 1 + (places + 1) := by
  have whole := length_digits_le bound
  simp only [padded]
  split
  · exact Nat.le_trans whole (Nat.le_add_right _ _)
  · rename_i positive
    rw [List.length_append, List.length_cons, length_fraction (Nat.pos_of_ne_zero positive)]
    exact Nat.add_le_add_right whole _

theorem length_signed_le (negative : Bool) (text : List Char) :
    (signed negative text).length ≤ text.length + 1 := by
  cases negative with
  | true => exact Nat.le_refl _
  | false => exact Nat.le_succ _

/-- No number has more than 1091 digits in front of the point. -/
theorem length_fixed_le (places : Nat) (v : Float) :
    (fixed places v).toList.length ≤ 1093 + places := by
  obtain ⟨n, extreme⟩ : ∃ n, n = 1074 := ⟨_, rfl⟩
  rw [fixed, String.toList_ofList]
  cases parts : Parts.ofFloat v with
  | notANumber =>
    dsimp only [List.length]
    omega
  | infinite negative =>
    have := length_signed_le negative ['i', 'n', 'f']
    dsimp only [List.length] at this ⊢
    omega
  | finite negative mantissa exponent =>
    obtain ⟨mantissa_lt, low, high⟩ := ofFloat_bounds parts
    have coefficient : (Exact.ofBinary mantissa exponent).coefficient ≤ mantissa * 10 ^ n :=
      coefficient_le mantissa (by omega) (by omega)
    have whole := atPlaces_div_le (Exact.ofBinary mantissa exponent) places
    have room : (Exact.ofBinary mantissa exponent).atPlaces places / 10 ^ places <
        10 ^ (n + 15 + 1) := by
      have unit : 0 < 10 ^ n := Nat.pow_pos (by decide)
      have sixteen : mantissa + 2 ≤ 10 ^ 16 := by
        simp only [normalMantissa] at mantissa_lt
        omega
      have scaled := Nat.mul_le_mul_right (10 ^ n) sixteen
      rw [Nat.add_mul, ← Nat.pow_add, Nat.add_comm 16 n] at scaled
      exact Nat.lt_of_lt_of_le (by omega) scaled
    have padded := length_padded_le room
    have := length_signed_le negative
      (Decimal.padded ((Exact.ofBinary mantissa exponent).atPlaces places) places)
    dsimp only
    omega

end PointScope.Decimal
