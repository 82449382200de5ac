import PointScope.Proofs.Decimal.Rounding
import PointScope.Proofs.Single.Error

/-! Arithmetic in single precision, as far as zero and positive numbers of moderate size are concerned.
Every operation gives such a number again, and it is off by less than one unit in the last place of the
exact result. That is less than rounding to the nearest number promises, and enough wherever a result is
only compared with something a good deal coarser. -/
namespace PointScope.Single

open Float.Model Float.Model.UnpackedFloat Decimal

/-- The number is zero or a positive one with all of its 24 digits, and this is its value. -/
inductive Reads (x : Float32) : ℚ → Prop where
  | zero : x.toModel.unpack = .zero .positive → Reads x 0
  | normal {m : Nat} {e : Int} {pos : 0 < m} : x.toModel.unpack = .finite .positive m e pos →
      m.log2 = 23 → Reads x (m * 2 ^ e)

variable {x y : Float32} {p q v : ℚ} {m n k : Nat} {e f : Int}

/-! ### Sizes -/

theorem Reads.of_parts (pos : 0 < m) (parts : x.toModel.unpack = .finite .positive m e pos)
    (digits : m.log2 = 23) (value : p = m * 2 ^ e) : Reads x p :=
  value ▸ .normal parts digits

theorem Reads.nonneg (reads : Reads x p) : 0 ≤ p := by
  cases reads with
  | zero => exact le_rfl
  | normal => positivity

/-- A natural lies between the powers of two that its binary digits give. -/
theorem bounds_of_log2 (digits : m.log2 = k) (pos : 0 < m) :
    (2 : ℚ) ^ (k : ℤ) ≤ m ∧ (m : ℚ) + 1 ≤ 2 ^ (k + 1 : ℤ) := by
  obtain ⟨least, most⟩ := (Nat.log2_eq_iff (Nat.ne_of_gt pos)).mp digits
  constructor
  · rw [zpow_natCast]
    exact_mod_cast least
  · rw [← Nat.cast_succ k, zpow_natCast]
    exact_mod_cast most

theorem lt_next (m : Nat) (e : Int) : (m : ℚ) * 2 ^ e < (m + 1) * 2 ^ e := by
  gcongr
  exact lt_add_one _

/-- The exponent of a moderate value whose leading digits are given. -/
theorem exponent_of_moderate {b : Nat} (digits : m.log2 = k) (pos : 0 < m) (low : m * 2 ^ e ≤ v)
    (high : v < (m + 1) * 2 ^ e) (size : Moderate b v) : -b < e + k + 1 ∧ e + k ≤ b := by
  obtain ⟨least, most⟩ := bounds_of_log2 digits pos
  have powers : ∀ f : Int, (2 : ℚ) ^ f * 2 ^ e = 2 ^ (e + f) := fun f => by
    rw [← zpow_add₀ (by norm_num), add_comm]
  constructor
  · refine (zpow_lt_zpow_iff_right₀ (by norm_num : (1 : ℚ) < 2)).mp ?_
    calc (2 : ℚ) ^ (-b : ℤ) ≤ v := size.1
      _ < (m + 1) * 2 ^ e := high
      _ ≤ 2 ^ (k + 1 : ℤ) * 2 ^ e := by gcongr
      _ = 2 ^ (e + k + 1) := by rw [powers, add_assoc]
  · refine (zpow_le_zpow_iff_right₀ (by norm_num : (1 : ℚ) < 2)).mp ?_
    calc (2 : ℚ) ^ (e + k) = 2 ^ (k : ℤ) * 2 ^ e := (powers k).symm
      _ ≤ m * 2 ^ e := by gcongr
      _ ≤ v := low
      _ ≤ 2 ^ (b : ℤ) := size.2

/-! ### Results -/

theorem reads_pack (pos : 0 < m) (digits : m.log2 = 23) (low : -126 ≤ e) (high : e ≤ 100) :
    Reads (.ofModel (Float32.Model.pack (.finite .positive m e pos))) (m * 2 ^ e) := by
  have bias : (Format.binary32.exponentBias : Int) + (Format.binary32.mantissaBitsWithoutImplicit : Nat) =
      150 := by decide
  refine .of_parts pos (unpack_pack .positive pos digits ?_ ?_) digits rfl
  · omega
  · change e + _ + _ + 1 < (256 : Nat)
    omega

/-- A value stays between two neighbors when digits are cut off behind them. -/
theorem bounds_of_cut (k : Nat) (low : m * 2 ^ e ≤ v) (high : v < (m + 1) * 2 ^ e) :
    ((m / 2 ^ k : Nat) : ℚ) * 2 ^ (e + k) ≤ v ∧ v ≤ ((m / 2 ^ k : Nat) + 1) * 2 ^ (e + k) := by
  have split : (2 : ℚ) ^ (e + k) = 2 ^ k * 2 ^ e := by
    rw [zpow_add₀ (by norm_num), zpow_natCast, mul_comm]
  have below : ((m / 2 ^ k * 2 ^ k : Nat) : ℚ) ≤ m := by exact_mod_cast Nat.div_mul_le_self m (2 ^ k)
  have above : m + 1 ≤ (m / 2 ^ k + 1) * 2 ^ k := by
    rw [Nat.succ_mul]
    exact Nat.lt_div_mul_add (Nat.two_pow_pos k)
  have above : (m + 1 : ℚ) ≤ ((m / 2 ^ k + 1) * 2 ^ k : Nat) := by exact_mod_cast above
  push_cast at below above
  constructor
  · calc _ = ((m / 2 ^ k : Nat) * 2 ^ k : ℚ) * 2 ^ e := by rw [split, mul_assoc]
      _ ≤ m * 2 ^ e := by gcongr
      _ ≤ v := low
  · calc v ≤ (m + 1) * 2 ^ e := high.le
      _ ≤ (((m / 2 ^ k : Nat) + 1) * 2 ^ k : ℚ) * 2 ^ e := by gcongr
      _ = _ := by rw [split, mul_assoc]

/-- A magnitude is rounded to one of its neighbors of 24 digits. -/
theorem exists_round_value (acc : Accuracy) (digits : m.log2 = 23 + k) (low : -149 ≤ e + k) :
    ∃ (n : Nat) (f : Int) (pos : 0 < n),
      roundWithAccuracy Format.binary32 .positive m e acc = .finite .positive n f pos ∧ n.log2 = 23 ∧
      (f = e + k ∨ f = e + k + 1) ∧
      ((n * 2 ^ f : ℚ) = (m / 2 ^ k : Nat) * 2 ^ (e + k) ∨
        (n * 2 ^ f : ℚ) = ((m / 2 ^ k : Nat) + 1) * 2 ^ (e + k)) := by
  have normal : Format.binary32.minExponent ≤ e + k := low
  obtain ⟨n, f, pos, rounded, full, shape⟩ := exists_roundWithAccuracy .positive acc digits normal
  refine ⟨n, f, pos, rounded, full, ?_⟩
  rcases shape with ⟨rfl | rfl, rfl⟩ | ⟨twice, -, rfl⟩
  · exact ⟨.inl rfl, .inl rfl⟩
  · exact ⟨.inl rfl, .inr (by push_cast; rfl)⟩
  · refine ⟨.inr rfl, .inr ?_⟩
    rw [← Nat.cast_succ, Nat.succ_eq_add_one, twice, zpow_add_one₀ (by norm_num)]
    push_cast
    ring

/-- The value of a rounded magnitude, which may have any number of digits behind its 24th. -/
theorem exists_reads_round (acc : Accuracy) (digits : m.log2 = 23 + k) (low : m * 2 ^ e ≤ v)
    (high : v < (m + 1) * 2 ^ e) (size : Moderate 100 v) :
    ∃ r, Reads (.ofModel (Float32.Model.pack
      (roundWithAccuracy Format.binary32 .positive m e acc))) r ∧ Within 1 v r := by
  have pos : 0 < m := by
    rcases Nat.eq_zero_or_pos m with rfl | pos
    · rw [Nat.log2_zero] at digits
      omega
    · exact pos
  obtain ⟨tiny, huge⟩ := exponent_of_moderate digits pos low high size
  obtain ⟨n, f, some_, rounded, full, exponent, whole⟩ :=
    exists_round_value (e := e) acc digits (by omega)
  refine ⟨n * 2 ^ f, rounded ▸ reads_pack some_ full (by omega) (by omega), ?_⟩
  -- Counted in units of the last digit kept, the result is one of the two wholes around the value.
  obtain ⟨below, above⟩ := bounds_of_cut k low high
  have unit : (0 : ℚ) ≤ 2 ^ (e + k) := by positivity
  have more : ((m / 2 ^ k : Nat) : ℚ) ≤ (m / 2 ^ k : Nat) + 1 := le_add_of_nonneg_right zero_le_one
  have full_digits : (2 ^ 23 : ℚ) ≤ (m / 2 ^ k : Nat) := by
    have := (Nat.log2_eq_iff (Nat.ne_of_gt pos)).mp digits
    rw [Nat.pow_add] at this
    exact_mod_cast (Nat.le_div_iff_mul_le (Nat.two_pow_pos k)).mpr this.1
  rcases whole with eq | eq
  · exact .of_units full_digits unit below above eq.ge (eq ▸ mul_le_mul_of_nonneg_right more unit)
  · exact .of_units full_digits unit below above (eq ▸ mul_le_mul_of_nonneg_right more unit) eq.le

/-- Zeros behind a magnitude, with the exponent lowered by as many, keep its value. -/
theorem shiftLeft_value (m k : Nat) (e : Int) : ((m <<< k : Nat) : ℚ) * 2 ^ (e - k) = m * 2 ^ e := by
  rw [Nat.shiftLeft_eq, zpow_sub₀ (by norm_num), zpow_natCast]
  push_cast
  field_simp

/-- A whole number of units is rounded with zeros put behind it, if it has too few digits. -/
theorem normalize_eq (pos : 0 < m) (low : -126 ≤ e + m.log2) :
    UnpackedFloat.normalize Format.binary32 m e .positive =
      roundWithAccuracy Format.binary32 .positive (m <<< (23 - m.log2)) (e - (23 - m.log2 : Nat))
        .exact := by
  have order : compare (m : Int) 0 = .gt := Int.compare_eq_gt.mpr (by omega)
  have target : Format.binary32.targetExponent (totalExponent m e) = m.log2 + e - 23 := by
    simp only [Format.targetExponent, totalExponent, Format.mantissaBits, Format.minExponent]
    omega
  have places : (e - (m.log2 + e - 23)).toNat = 23 - m.log2 := by omega
  rw [UnpackedFloat.normalize, order]
  simp only [UnpackedFloat.round, Int.toNat_natCast, target, decreaseExponent, places]

theorem exists_reads_normalize (pos : 0 < m) (size : Moderate 100 (m * 2 ^ e)) :
    ∃ r, Reads (.ofModel (Float32.Model.pack (UnpackedFloat.normalize Format.binary32 m e .positive))) r ∧
      Within 1 (m * 2 ^ e) r := by
  obtain ⟨tiny, -⟩ := exponent_of_moderate rfl pos le_rfl (lt_next m e) size
  have digits : (m <<< (23 - m.log2)).log2 = 23 + (m.log2 - 23) := by
    rw [log2_shiftLeft (Nat.ne_of_gt pos)]
    omega
  rw [normalize_eq pos (by omega), ← shiftLeft_value m (23 - m.log2) e] at *
  exact exists_reads_round .exact digits le_rfl (lt_next _ _) size

/-! ### Operations -/

theorem reads_zero : Reads (.ofModel (Float32.Model.pack (.zero .positive))) 0 := .zero rfl

/-- A number that is packed again keeps its value. -/
theorem Reads.repack (reads : Reads x p) (size : Sized 100 p) :
    Reads (.ofModel (Float32.Model.pack x.toModel.unpack)) p := by
  cases reads with
  | zero parts =>
    rw [parts]
    exact reads_zero
  | @normal m e pos parts digits =>
    have some_ : (0 : ℚ) < m * 2 ^ e := by positivity
    obtain ⟨low, high⟩ := exponent_of_moderate digits pos le_rfl (lt_next m e)
      (size.resolve_left some_.ne')
    rw [parts]
    exact reads_pack pos digits (by omega) (by omega)

/-- Putting zeros behind a mantissa and lowering the exponent by as much keeps the value. -/
theorem decreaseExponent_value (m : Nat) (at_most : f ≤ e) :
    ((decreaseExponent m e f).1 : ℚ) * 2 ^ f = m * 2 ^ e := by
  have same := shiftLeft_value m (e - f).toNat e
  rwa [Int.toNat_of_nonneg (Int.sub_nonneg.mpr at_most), sub_sub_cancel] at same

/-- The difference of two mantissas at the lower one of their exponents. -/
theorem exists_difference (less : (n : ℚ) * 2 ^ f ≤ m * 2 ^ e) :
    ∃ d : Nat, ((decreaseExponent m e (min e f)).1 : Int) - (decreaseExponent n f (min e f)).1 = d ∧
      (d : ℚ) * 2 ^ min e f = m * 2 ^ e - n * 2 ^ f := by
  have unit : (0 : ℚ) < 2 ^ min e f := by positivity
  have least : (decreaseExponent n f (min e f)).1 ≤ (decreaseExponent m e (min e f)).1 := by
    rw [← Nat.cast_le (α := ℚ), ← mul_le_mul_iff_left₀ unit,
      decreaseExponent_value m (min_le_left e f), decreaseExponent_value n (min_le_right e f)]
    exact less
  obtain ⟨d, rest⟩ := Nat.exists_eq_add_of_le least
  refine ⟨d, by omega, ?_⟩
  rw [← decreaseExponent_value m (min_le_left e f), ← decreaseExponent_value n (min_le_right e f), rest]
  push_cast
  ring

section

variable (hx : Reads x p) (hy : Reads y q)

include hx hy

theorem exists_reads_mul (size : Sized 100 (p * q)) :
    ∃ r, Reads (x * y) r ∧ Within 1 (p * q) r := by
  change ∃ r, Reads (.ofModel (Float32.Model.pack
    (UnpackedFloat.mul Format.binary32 x.toModel.unpack y.toModel.unpack))) r ∧ _
  cases hx with
  | zero first =>
    rw [zero_mul]
    refine ⟨0, ?_, .refl le_rfl 1⟩
    cases hy with
    | zero second => rw [first, second]; exact reads_zero
    | normal second => rw [first, second]; exact reads_zero
  | @normal m e pos first digits =>
    cases hy with
    | zero second =>
      rw [mul_zero, first, second]
      exact ⟨0, reads_zero, .refl le_rfl 1⟩
    | @normal n f pos' second digits' =>
      have value : ((m * n : Nat) : ℚ) * 2 ^ (e + f) = m * 2 ^ e * (n * 2 ^ f) := by
        rw [zpow_add₀ (by norm_num)]
        push_cast
        ring
      have some_ : m * 2 ^ e * (n * 2 ^ f) ≠ (0 : ℚ) := by positivity
      have least : 23 ≤ (m * n).log2 := by
        have many := ((Nat.log2_eq_iff (Nat.ne_of_gt pos)).mp digits).1
        exact (Nat.le_log2 (Nat.mul_pos pos pos').ne').mpr
          (many.trans (Nat.le_mul_of_pos_right m pos'))
      rw [first, second]
      refine exists_reads_round .exact (Nat.add_sub_of_le least).symm value.le ?_
        (size.resolve_left some_)
      rw [← value]
      exact lt_next (m * n) (e + f)

theorem exists_reads_add (size : Sized 100 (p + q)) :
    ∃ r, Reads (x + y) r ∧ Within 1 (p + q) r := by
  change ∃ r, Reads (.ofModel (Float32.Model.pack
    (UnpackedFloat.add Format.binary32 x.toModel.unpack y.toModel.unpack))) r ∧ _
  cases hx with
  | zero first =>
    rw [zero_add] at size ⊢
    refine ⟨q, ?_, .refl hy.nonneg 1⟩
    have same := hy.repack size
    cases hy with
    | zero second => rw [first, second]; exact reads_zero
    | normal second => rw [first, second]; rw [second] at same; exact same
  | @normal m e pos first digits =>
    cases hy with
    | zero second =>
      rw [add_zero] at size ⊢
      have same := (Reads.normal first digits).repack size
      refine ⟨_, ?_, .refl (by positivity) 1⟩
      rw [first, second]
      rw [first] at same
      exact same
    | @normal n f pos' second digits' =>
      have value : (((decreaseExponent m e (min e f)).1 + (decreaseExponent n f (min e f)).1 : Nat) : ℚ) *
          2 ^ min e f = m * 2 ^ e + n * 2 ^ f := by
        push_cast
        rw [add_mul, decreaseExponent_value m (min_le_left e f), decreaseExponent_value n (min_le_right e f)]
      have some_ : m * 2 ^ e + n * 2 ^ f ≠ (0 : ℚ) := by positivity
      have pos_sum : 0 < (decreaseExponent m e (min e f)).1 + (decreaseExponent n f (min e f)).1 := by
        rw [Nat.pos_iff_ne_zero]
        intro none
        rw [none, Nat.cast_zero, zero_mul] at value
        exact some_ value.symm
      rw [first, second, ← value]
      exact exists_reads_normalize pos_sum (value ▸ size.resolve_left some_)

theorem exists_reads_sub (less : q ≤ p) (size : Sized 100 (p - q)) :
    ∃ r, Reads (x - y) r ∧ Within 1 (p - q) r := by
  change ∃ r, Reads (.ofModel (Float32.Model.pack
    (UnpackedFloat.sub Format.binary32 x.toModel.unpack y.toModel.unpack))) r ∧ _
  cases hx with
  | zero first =>
    cases hy with
    | zero second =>
      rw [sub_zero, first, second]
      exact ⟨0, reads_zero, .refl le_rfl 1⟩
    | @normal n f pos' second digits' =>
      have some_ : (0 : ℚ) < n * 2 ^ f := by positivity
      exact absurd less some_.not_ge
  | @normal m e pos first digits =>
    cases hy with
    | zero second =>
      rw [sub_zero] at size ⊢
      have same := (Reads.normal first digits).repack size
      refine ⟨_, ?_, .refl (by positivity) 1⟩
      rw [first, second]
      rw [first] at same
      exact same
    | @normal n f pos' second digits' =>
      obtain ⟨d, units, value⟩ := exists_difference less
      rw [first, second, ← value]
      change ∃ r, Reads (.ofModel (Float32.Model.pack (UnpackedFloat.normalize Format.binary32
        ((decreaseExponent m e (min e f)).1 - (decreaseExponent n f (min e f)).1) (min e f) .positive))) r ∧ _
      rw [units]
      rcases Nat.eq_zero_or_pos d with rfl | pos
      · simp only [Nat.cast_zero, zero_mul]
        exact ⟨0, reads_zero, .refl le_rfl 1⟩
      · have some_ : (d : ℚ) * 2 ^ min e f ≠ 0 := by positivity
        rw [← value] at size
        exact exists_reads_normalize pos (size.resolve_left some_)

end

/-- The exponents of two numbers are not far apart if their quotient is moderate. -/
theorem exponents_of_quotient (digits : m.log2 = 23) (digits' : n.log2 = 23) (pos : 0 < m) (pos' : 0 < n)
    (size : Moderate 100 (m * 2 ^ e / (n * 2 ^ f))) : -101 < e - f := by
  have most := ((Nat.log2_eq_iff (Nat.ne_of_gt pos)).mp digits).2
  have least := ((Nat.log2_eq_iff (Nat.ne_of_gt pos')).mp digits').1
  have ratio : (m : ℚ) / n < 2 := by
    rw [div_lt_iff₀ (by exact_mod_cast pos')]
    exact_mod_cast (by omega : m < 2 * n)
  have : (2 : ℚ) ^ (-100 : ℤ) < 2 ^ (e - f + 1) := by
    calc (2 : ℚ) ^ (-100 : ℤ) ≤ m * 2 ^ e / (n * 2 ^ f) := size.1
      _ = m / n * 2 ^ (e - f) := by
        rw [zpow_sub₀ (by norm_num)]
        field_simp
      _ < 2 * 2 ^ (e - f) := by gcongr
      _ = 2 ^ (e - f + 1) := by rw [zpow_add_one₀ (by norm_num), mul_comm]
  have := (zpow_lt_zpow_iff_right₀ (by norm_num : (1 : ℚ) < 2)).mp this
  omega

/-- A quotient is computed with 24 zeros behind the dividend, which leaves it at least as many digits. -/
theorem divCore_eq (digits : m.log2 = 23) (digits' : n.log2 = 23) (near : -101 < e - f) :
    divCore Format.binary32 m e n f =
      (m <<< 24 / n, e - f - 24, accuracyOfFraction (m <<< 24 % n) n) := by
  have target : min (e - f) (Format.binary32.targetExponent (totalExponent m e - totalExponent n f)) =
      e - f - 24 := by
    simp only [Format.targetExponent, totalExponent, Format.mantissaBits, Format.minExponent, digits,
      digits']
    omega
  have places : (e - f - (e - f - 24)).toNat = 24 := by omega
  simp only [divCore, target, places]

theorem exists_reads_div (hx : Reads x p) (hy : Reads y q) (pos : 0 < q)
    (size : Sized 100 (p / q)) : ∃ r, Reads (x / y) r ∧ Within 1 (p / q) r := by
  change ∃ r, Reads (.ofModel (Float32.Model.pack
    (UnpackedFloat.div Format.binary32 x.toModel.unpack y.toModel.unpack))) r ∧ _
  cases hy with
  | zero second => exact absurd pos (lt_irrefl 0)
  | @normal n f pos_n second digits_n =>
    cases hx with
    | zero first =>
      rw [zero_div, first, second]
      exact ⟨0, reads_zero, .refl le_rfl 1⟩
    | @normal m e pos_m first digits_m =>
      have some_ : (m : ℚ) * 2 ^ e / (n * 2 ^ f) ≠ 0 := by positivity
      have size := size.resolve_left some_
      have core := divCore_eq digits_m digits_n
        (exponents_of_quotient digits_m digits_n pos_m pos_n size)
      have least := ((Nat.log2_eq_iff (Nat.ne_of_gt pos_m)).mp digits_m).1
      have most := ((Nat.log2_eq_iff (Nat.ne_of_gt pos_n)).mp digits_n).2
      have digits : 23 ≤ (m <<< 24 / n).log2 := by
        have many : 2 ^ 23 ≤ m <<< 24 / n := by
          rw [Nat.shiftLeft_eq, Nat.le_div_iff_mul_le pos_n]
          omega
        exact (Nat.le_log2 (by omega)).mpr many
      have value : (m : ℚ) * (2 : ℚ) ^ e / (n * (2 : ℚ) ^ f) =
          ((m <<< 24 : Nat) : ℚ) / n * (2 : ℚ) ^ (e - f - 24) := by
        rw [zpow_sub₀ (by norm_num) (e - f), zpow_sub₀ (by norm_num) e, Nat.shiftLeft_eq]
        push_cast
        field_simp
      rw [first, second]
      simp only [UnpackedFloat.div, core]
      refine exists_reads_round _ (Nat.add_sub_of_le digits).symm ?_ ?_ size
      · rw [value]
        gcongr
        exact Nat.cast_div_le
      · rw [value]
        gcongr
        rw [div_lt_iff₀ (by exact_mod_cast pos_n)]
        exact_mod_cast Nat.lt_mul_of_div_lt (Nat.lt_succ_self _) pos_n

/-! ### Comparing -/

theorem lt_of_exponent_lt (digits : m.log2 = 23) (digits' : n.log2 = 23) (pos : 0 < m) (pos' : 0 < n)
    (less : e < f) : (m : ℚ) * 2 ^ e < n * 2 ^ f := by
  have most := (bounds_of_log2 digits pos).2
  have least := (bounds_of_log2 digits' pos').1
  calc (m : ℚ) * 2 ^ e < (m + 1) * 2 ^ e := lt_next m e
    _ ≤ 2 ^ (24 : ℤ) * 2 ^ e := by
        gcongr
        exact most
    _ = 2 ^ (23 : ℤ) * 2 ^ (e + 1) := by
        rw [zpow_add_one₀ (by norm_num)]
        norm_num
        ring
    _ ≤ n * 2 ^ f := by
        gcongr
        · exact least
        · norm_num
        · omega

/-- Numbers compare as their values do. -/
theorem Reads.compare_eq (hx : Reads x p) (hy : Reads y q) :
    x.toModel.unpack.compare y.toModel.unpack = some (compare p q) := by
  cases hx with
  | zero first =>
    cases hy with
    | zero second =>
      rw [first, second, compare_eq_iff_eq.mpr rfl]
      rfl
    | @normal n f pos second digits =>
      have less : (0 : ℚ) < n * 2 ^ f := by positivity
      rw [first, second, compare_lt_iff_lt.mpr less]
      rfl
  | @normal m e pos first digits =>
    cases hy with
    | zero second =>
      have more : (0 : ℚ) < m * 2 ^ e := by positivity
      rw [first, second, compare_gt_iff_gt.mpr more]
      rfl
    | @normal n f pos' second digits' =>
      rw [first, second]
      change some ((compare e f).then (compare m n)) = _
      rcases lt_trichotomy e f with less | rfl | more
      · rw [compare_lt_iff_lt.mpr less, compare_lt_iff_lt.mpr (lt_of_exponent_lt digits digits' pos pos' less)]
        rfl
      · rw [compare_eq_iff_eq.mpr rfl, Ordering.eq_then]
        have unit : (0 : ℚ) < 2 ^ e := by positivity
        rcases lt_trichotomy m n with less | rfl | more
        · have scaled : (m : ℚ) * 2 ^ e < n * 2 ^ e := by gcongr
          rw [compare_lt_iff_lt.mpr less, compare_lt_iff_lt.mpr scaled]
        · rw [compare_eq_iff_eq.mpr rfl, compare_eq_iff_eq.mpr rfl]
        · have scaled : (n : ℚ) * 2 ^ e < m * 2 ^ e := by gcongr
          rw [compare_gt_iff_gt.mpr more, compare_gt_iff_gt.mpr scaled]
      · rw [compare_gt_iff_gt.mpr more,
          compare_gt_iff_gt.mpr (lt_of_exponent_lt digits' digits pos' pos more)]
        rfl

theorem Reads.le_iff (hx : Reads x p) (hy : Reads y q) : x ≤ y ↔ p ≤ q := by
  have spelled : x ≤ y ↔ (x.toModel.unpack.compare y.toModel.unpack).any (·.isLE) = true :=
    decide_eq_true_iff
  rw [spelled, hx.compare_eq hy, Option.any_some, Ordering.isLE_iff_ne_gt, compare_gt_iff_gt, not_lt]

theorem Reads.lt_iff (hx : Reads x p) (hy : Reads y q) : x < y ↔ p < q := by
  have spelled : x < y ↔ x.toModel.unpack.compare y.toModel.unpack = some .lt :=
    decide_eq_true_iff.trans beq_iff_eq
  rw [spelled, hx.compare_eq hy, Option.some.injEq, compare_lt_iff_lt]

/-! ### Whole numbers -/

/-- A magnitude that has as many digits as are kept is not rounded. -/
theorem roundWithAccuracy_exact (pos : 0 < m) (digits : m.log2 = 23) (low : -149 ≤ e) :
    roundWithAccuracy Format.binary32 .positive m e .exact = .finite .positive m e pos := by
  have same : e + (0 : Nat) = e := Int.add_zero e
  have kept : roundWithAccuracy Format.binary32 .positive (m <<< 0) e .exact =
      .finite .positive m (e + (0 : Nat)) pos :=
    roundWithAccuracy_shiftLeft .positive pos digits 0 (low.trans_eq same.symm)
  rwa [same] at kept

/-- A byte is kept as it is. -/
theorem reads_toFloat32 (n : UInt8) : Reads n.toFloat32 n.toNat := by
  change Reads (.ofModel (Float32.Model.pack
    (UnpackedFloat.normalize Format.binary32 n.toNat 0 .positive))) _
  have small := n.toNat_lt
  generalize n.toNat = m at *
  rcases Nat.eq_zero_or_pos m with rfl | pos
  · exact reads_zero
  · have short : m.log2 < 8 := (Nat.log2_lt (Nat.ne_of_gt pos)).mpr small
    have digits : (m <<< (23 - m.log2)).log2 = 23 := by
      rw [log2_shiftLeft (Nat.ne_of_gt pos)]
      omega
    have some_ : 0 < m <<< (23 - m.log2) := by
      rw [Nat.shiftLeft_eq]
      exact Nat.mul_pos pos (Nat.two_pow_pos _)
    rw [normalize_eq pos (by omega), roundWithAccuracy_exact some_ digits (by omega)]
    have same := shiftLeft_value m (23 - m.log2) 0
    rw [zpow_zero, mul_one] at same
    exact same ▸ reads_pack some_ digits (by omega) (by omega)

/-- A negative exponent divides by a power of two. -/
theorem zpow_neg_eq_div (m j : Nat) : (m : ℚ) * 2 ^ (-j : ℤ) = m / (2 ^ j : Nat) := by
  rw [zpow_neg, zpow_natCast]
  push_cast
  rfl

/-- Cutting a number off at the point gives its whole part. -/
theorem Reads.toNat_toUInt8 (hx : Reads x p) (small : p < 256) : x.toUInt8.toNat = ⌊p⌋₊ := by
  have spelled : x.toUInt8 =
      UInt8.ofNatClamp (UnpackedFloat.toInt 0 (UInt8.size - 1) x.toModel.unpack).toNat := rfl
  have word : ⌊p⌋₊ < UInt8.size := (Nat.floor_lt hx.nonneg).mpr small
  have whole : (UnpackedFloat.toInt 0 (UInt8.size - 1) x.toModel.unpack).toNat = ⌊p⌋₊ := by
    cases hx with
    | zero parts =>
      rw [parts, Nat.floor_zero]
      rfl
    | @normal m e pos parts digits =>
      have less : (2 : ℚ) ^ (e + 23) < 2 ^ (8 : ℤ) := by
        calc (2 : ℚ) ^ (e + 23) = 2 ^ (23 : ℤ) * 2 ^ e := by rw [zpow_add₀ (by norm_num), mul_comm]
          _ ≤ m * 2 ^ e := by
            gcongr
            exact (bounds_of_log2 digits pos).1
          _ < 2 ^ (8 : ℤ) := by
            norm_num
            exact small
      have low := (zpow_lt_zpow_iff_right₀ (by norm_num : (1 : ℚ) < 2)).mp less
      obtain ⟨j, rfl⟩ : ∃ j : Nat, e = -j := ⟨(-e).toNat, by omega⟩
      rw [parts, UnpackedFloat.toInt, roundToInt_eq, Int.toNat_natCast, zpow_neg_eq_div,
        Nat.floor_div_eq_div]
  rw [spelled, whole, UInt8.ofNatClamp, dif_pos word]
  rfl

/-- Behind the point are the digits that a division by the power of two leaves. -/
theorem sub_floor_eq (m j : Nat) :
    (m : ℚ) * 2 ^ (-j : ℤ) - ⌊(m : ℚ) * 2 ^ (-j : ℤ)⌋₊ = (m % 2 ^ j : Nat) * 2 ^ (-j : ℤ) := by
  have unit : ((2 ^ j : Nat) : ℚ) ≠ 0 := by positivity
  have divided : ((2 ^ j : Nat) : ℚ) * (m / 2 ^ j : Nat) + (m % 2 ^ j : Nat) = m := by
    exact_mod_cast Nat.div_add_mod m (2 ^ j)
  rw [zpow_neg_eq_div, zpow_neg_eq_div, Nat.floor_div_eq_div, eq_div_iff unit, sub_mul,
    div_mul_cancel₀ _ unit]
  linarith

/-- What stands behind the point of a number is zero or not much smaller than its last digit. -/
theorem Reads.sized_fract (hx : Reads x p) (size : Sized 76 p) : Sized 100 (p - ⌊p⌋₊) := by
  cases hx with
  | zero => exact .inl (by rw [Nat.floor_zero, Nat.cast_zero, sub_zero])
  | @normal m e pos parts digits =>
    rcases Int.le_total 0 e with up | down
    · obtain ⟨j, rfl⟩ := Int.eq_ofNat_of_zero_le up
      have whole : (m : ℚ) * 2 ^ (j : ℤ) = (m * 2 ^ j : Nat) := by
        rw [zpow_natCast]
        push_cast
        rfl
      exact .inl (by rw [whole, Nat.floor_natCast, sub_self])
    · obtain ⟨j, rfl⟩ : ∃ j : Nat, e = -j := ⟨(-e).toNat, by omega⟩
      have some_ : (0 : ℚ) < m * 2 ^ (-j : ℤ) := by positivity
      obtain ⟨few, -⟩ := exponent_of_moderate digits pos le_rfl (lt_next m _)
        (size.resolve_left some_.ne')
      have less := sub_lt_iff_lt_add'.mpr (Nat.lt_floor_add_one ((m : ℚ) * 2 ^ (-j : ℤ)))
      rw [sub_floor_eq] at less ⊢
      rcases Nat.eq_zero_or_pos (m % 2 ^ j) with none | left_
      · exact .inl (by rw [none, Nat.cast_zero, zero_mul])
      · refine .inr ⟨?_, less.le.trans (by norm_num)⟩
        calc (2 : ℚ) ^ (-(100 : Nat) : ℤ) ≤ 2 ^ (-j : ℤ) :=
              zpow_le_zpow_right₀ (by norm_num) (by omega)
          _ ≤ (m % 2 ^ j : Nat) * 2 ^ (-j : ℤ) :=
              le_mul_of_one_le_left (by positivity) (by exact_mod_cast left_)

/-! ### Calculations -/

/-- A number some operations away from an exact value, zero or of some moderate size. -/
def Approximates (x : Float32) (n k : Nat) (v : ℚ) : Prop :=
  ∃ r, Reads x r ∧ Within n v r ∧ Sized k r

theorem Reads.approximates (hx : Reads x p) (size : Sized k p) : Approximates x 0 k p :=
  ⟨p, hx, .refl hx.nonneg 0, size⟩

section

variable {w : ℚ} {l : Nat}

theorem Approximates.nonneg (hx : Approximates x n k v) : 0 ≤ v := by
  obtain ⟨r, reads, near, -⟩ := hx
  exact near.nonneg reads.nonneg

theorem Approximates.mono (hx : Approximates x n k v) (few : n ≤ m) (small : k ≤ l) :
    Approximates x m l v := by
  obtain ⟨r, reads, near, size⟩ := hx
  exact ⟨r, reads, near.mono (near.nonneg reads.nonneg) few, size.mono small⟩

theorem Approximates.mul (hx : Approximates x n k v) (hy : Approximates y m l w) (fits : k + l ≤ 100) :
    Approximates (x * y) (n + m + 1) (k + l + 1) (v * w) := by
  have hv := hx.nonneg
  have hw := hy.nonneg
  obtain ⟨p, reads, near, size⟩ := hx
  obtain ⟨q, reads', near', size'⟩ := hy
  obtain ⟨r, result, rounded⟩ := exists_reads_mul reads reads' ((size.mul size').mono fits)
  have exact_near := near.mul near' hv hw reads.nonneg reads'.nonneg
  exact ⟨r, result, exact_near.trans rounded, (size.mul size').of_within rounded result.nonneg⟩

theorem Approximates.div (hx : Approximates x n k v) (hy : Approximates y m l w) (pos : 0 < w)
    (fits : k + l ≤ 100) : Approximates (x / y) (n + m + 1) (k + l + 1) (v / w) := by
  have hv := hx.nonneg
  obtain ⟨p, reads, near, size⟩ := hx
  obtain ⟨q, reads', near', size'⟩ := hy
  have hq := near'.pos pos
  have sizes := size.div (size'.resolve_left hq.ne')
  obtain ⟨r, result, rounded⟩ := exists_reads_div reads reads' hq (sizes.mono fits)
  have exact_near := near.div near' hv pos reads.nonneg
  exact ⟨r, result, exact_near.trans rounded, sizes.of_within rounded result.nonneg⟩

theorem Approximates.add (hx : Approximates x n k v) (hy : Approximates y n k w) (fits : k + 1 ≤ 100) :
    Approximates (x + y) (n + 1) (k + 1 + 1) (v + w) := by
  obtain ⟨p, reads, near, size⟩ := hx
  obtain ⟨q, reads', near', size'⟩ := hy
  obtain ⟨r, result, rounded⟩ := exists_reads_add reads reads' ((size.add size').mono fits)
  exact ⟨r, result, (near.add near').trans rounded, (size.add size').of_within rounded result.nonneg⟩

end

end PointScope.Single
