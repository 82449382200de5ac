import Mathlib
import PointScope.Decimal.Fields

/-! Rounding and packing of doubles, as far as sizes are concerned. A magnitude with at least as many
digits as a format keeps is cut to its leading digits and raised by at most one of the last of them, and
what comes of it is a number of the format, so nothing is lost when it is packed into a word. -/
namespace PointScope.Decimal

open Float.Model Float.Model.UnpackedFloat

variable {spec : Format} {m k : Nat} {e : Int}

/-! ### Packed numbers -/

/-- A normal number of a format is taken apart into what it was packed from. -/
theorem unpack_pack (s : Sign) (pos : 0 < m) (digits : m.log2 = spec.mantissaBitsWithoutImplicit)
    (low : 0 < e + spec.exponentBias + spec.mantissaBitsWithoutImplicit)
    (high : e + spec.exponentBias + spec.mantissaBitsWithoutImplicit + 1 < (2 ^ spec.exponentBits : Nat)) :
    UnpackedFloat.unpack spec (UnpackedFloat.pack spec (.finite s m e pos)) = .finite s m e pos := by
  obtain ⟨biased, at_⟩ := Int.eq_ofNat_of_zero_le (Int.le_of_lt low)
  have bounds := (Nat.log2_eq_iff (Nat.ne_of_gt pos)).mp digits
  have top : BitVec.ofNat spec.exponentBits biased ≠ -1#_ := by
    rw [← BitVec.toNat_inj.ne, BitVec.neg_one_eq_allOnes, BitVec.toNat_allOnes, BitVec.toNat_ofNat,
      Nat.mod_eq_of_lt (by omega)]
    omega
  have bottom : BitVec.ofNat spec.exponentBits biased ≠ 0#_ := by
    rw [← BitVec.toNat_inj.ne, BitVec.toNat_ofNat, BitVec.toNat_ofNat, Nat.mod_eq_of_lt (by omega),
      Nat.zero_mod]
    omega
  have hidden : (1#1 ++ BitVec.ofNat spec.mantissaBitsWithoutImplicit m).toNat = m := by
    have small : m % 2 ^ spec.mantissaBitsWithoutImplicit < 2 ^ spec.mantissaBitsWithoutImplicit :=
      Nat.mod_lt _ (Nat.two_pow_pos _)
    rw [Nat.pow_succ] at bounds
    rw [BitVec.toNat_append, BitVec.toNat_ofNat m, ← Nat.shiftLeft_add_eq_or_of_lt small,
      Nat.shiftLeft_eq, Nat.mod_eq_sub_mod bounds.1, Nat.mod_eq_of_lt (by omega)]
    change 1 * _ + _ = _
    omega
  have packed : UnpackedFloat.pack spec (.finite s m e pos) =
      packComponents spec s (BitVec.ofNat _ biased) (BitVec.ofNat _ m) := by
    simp only [UnpackedFloat.pack, at_, Int.toNat_natCast]
    rw [if_neg (by omega), if_pos (by rw [digits, Format.mantissaBits, Nat.add_comm])]
  simp only [packed, UnpackedFloat.unpack, unpackExponent_packComponents, unpackMantissa_packComponents,
    unpackSign_packComponents, Sign.ofBitVec_toBitVec]
  rw [if_neg top, if_neg bottom]
  refine finite_congr rfl hidden ?_ _ _
  rw [BitVec.toNat_ofNat, Nat.mod_eq_of_lt (by omega)]
  omega

/-! ### Rounded magnitudes -/

theorem mantissa_shiftRight (em : ExtendedMantissa) (k : Nat) :
    (em >>> k).mantissa = em.mantissa / 2 ^ k := by
  induction k with
  | zero => exact (Nat.div_one _).symm
  | succ k ih =>
    change (em >>> k).mantissa / 2 = _
    rw [ih, Nat.div_div_eq_div_mul, Nat.pow_succ]

theorem roundedMantissa_cases (em : ExtendedMantissa) :
    em.roundedMantissa = em.mantissa ∨ em.roundedMantissa = em.mantissa + 1 := by
  obtain ⟨mantissa, round, sticky⟩ := em
  cases round <;> cases sticky
  · exact Or.inl rfl
  · exact Or.inl rfl
  · change mantissa + mantissa % 2 = mantissa ∨ mantissa + mantissa % 2 = mantissa + 1
    omega
  · exact Or.inr rfl

theorem mantissa_ofMantissaAndAccuracy (m : Nat) (acc : Accuracy) :
    (ExtendedMantissa.ofMantissaAndAccuracy m acc).mantissa = m := by
  cases acc with
  | exact => rfl
  | inexact half => cases half <;> rfl

/-- Shifting a magnitude drops the digits that the format does not keep. -/
theorem shiftToTargetExponent_eq (acc : Accuracy)
    (digits : m.log2 = spec.mantissaBitsWithoutImplicit + k) (normal : spec.minExponent ≤ e + k) :
    shiftToTargetExponent spec m e acc =
      (ExtendedMantissa.ofMantissaAndAccuracy m acc >>> k, e + k) := by
  have target : spec.targetExponent (totalExponent m e) = e + k := by
    simp only [Format.targetExponent, totalExponent, Format.mantissaBits, digits]
    omega
  have shift : (e + k - e).toNat = k := by omega
  simp only [shiftToTargetExponent, shiftToExponent, target, shift]

theorem roundWithAccuracy_eq {s : Sign} {acc : Accuracy} {em en : ExtendedMantissa} {r : Nat}
    {f g : Int} (first : shiftToTargetExponent spec m e acc = (em, f)) (rounded : em.roundedMantissa = r)
    (second : shiftToTargetExponent spec r f .exact = (en, g)) (pos : 0 < en.mantissa) :
    roundWithAccuracy spec s m e acc = .finite s en.mantissa g pos := by
  subst rounded
  simp only [roundWithAccuracy, first, second]
  exact dif_neg (Nat.ne_of_gt pos)

/-- A magnitude is cut to the digits of the format or raised to the next such magnitude. If that is a
power of two, it has one digit too many, which is zero. -/
theorem exists_roundWithAccuracy (s : Sign) (acc : Accuracy)
    (digits : m.log2 = spec.mantissaBitsWithoutImplicit + k) (normal : spec.minExponent ≤ e + k) :
    ∃ n f pos, roundWithAccuracy spec s m e acc = .finite s n f pos ∧
      n.log2 = spec.mantissaBitsWithoutImplicit ∧
      ((n = m / 2 ^ k ∨ n = m / 2 ^ k + 1) ∧ f = e + k ∨
        m / 2 ^ k + 1 = 2 * n ∧ n = 2 ^ spec.mantissaBitsWithoutImplicit ∧ f = e + k + 1) := by
  have nonzero : m ≠ 0 := by
    rintro rfl
    have := spec.hm
    rw [Nat.log2_zero] at digits
    omega
  obtain ⟨low, high⟩ := (Nat.log2_eq_iff nonzero).mp digits
  rw [Nat.pow_add] at low
  rw [Nat.add_right_comm, Nat.pow_add] at high
  have least : 2 ^ spec.mantissaBitsWithoutImplicit ≤ m / 2 ^ k :=
    (Nat.le_div_iff_mul_le (Nat.two_pow_pos k)).mpr low
  have most : m / 2 ^ k < 2 ^ (spec.mantissaBitsWithoutImplicit + 1) :=
    (Nat.div_lt_iff_lt_mul (Nat.two_pow_pos k)).mpr high
  have unit := Nat.two_pow_pos spec.mantissaBitsWithoutImplicit
  have first := shiftToTargetExponent_eq acc digits normal
  have cut : (ExtendedMantissa.ofMantissaAndAccuracy m acc >>> k).mantissa = m / 2 ^ k := by
    rw [mantissa_shiftRight, mantissa_ofMantissaAndAccuracy]
  have rounded := roundedMantissa_cases (ExtendedMantissa.ofMantissaAndAccuracy m acc >>> k)
  obtain ⟨r, value⟩ : ∃ r, (ExtendedMantissa.ofMantissaAndAccuracy m acc >>> k).roundedMantissa = r :=
    ⟨_, rfl⟩
  rw [cut, value] at rounded
  by_cases carry : r < 2 ^ (spec.mantissaBitsWithoutImplicit + 1)
  · have kept : r.log2 = spec.mantissaBitsWithoutImplicit :=
      (Nat.log2_eq_iff (by omega)).mpr ⟨by omega, carry⟩
    have second := shiftToTargetExponent_eq .exact (k := 0) kept (e := e + k) (by omega)
    exact ⟨r, _, _, roundWithAccuracy_eq first value second (by omega : 0 < r), kept,
      Or.inl ⟨rounded, by omega⟩⟩
  · have power : r = 2 ^ (spec.mantissaBitsWithoutImplicit + 1) := by omega
    have more : r.log2 = spec.mantissaBitsWithoutImplicit + 1 := by rw [power, Nat.log2_two_pow]
    have second := shiftToTargetExponent_eq .exact more (e := e + k) (by omega)
    have half : (ExtendedMantissa.ofMantissaAndAccuracy r .exact >>> 1).mantissa =
        2 ^ spec.mantissaBitsWithoutImplicit := by
      rw [mantissa_shiftRight, mantissa_ofMantissaAndAccuracy, power, Nat.pow_succ]
      omega
    refine ⟨_, _, _, roundWithAccuracy_eq first value second (half ▸ unit), ?_⟩
    rw [half]
    exact ⟨Nat.log2_two_pow, Or.inr ⟨by omega, rfl, by omega⟩⟩

/-- What a double becomes of a magnitude that is neither too large for it nor subnormal. -/
theorem exists_unpack_pack (s : Sign) (acc : Accuracy) (digits : m.log2 = 52 + k)
    (low : -1074 ≤ e + k) (high : e + k ≤ 970) :
    ∃ n f pos, (Float.Model.pack (roundWithAccuracy Format.binary64 s m e acc)).unpack =
        .finite s n f pos ∧
      n.log2 = 52 ∧
      ((n = m / 2 ^ k ∨ n = m / 2 ^ k + 1) ∧ f = e + k ∨
        m / 2 ^ k + 1 = 2 * n ∧ n = 2 ^ 52 ∧ f = e + k + 1) := by
  have normal : Format.binary64.minExponent ≤ e + k := low
  obtain ⟨n, f, pos, rounded, full, size⟩ := exists_roundWithAccuracy s acc digits normal
  have bias : (Format.binary64.exponentBias : Int) + (Format.binary64.mantissaBitsWithoutImplicit : Nat) =
      1075 := by decide
  refine ⟨n, f, pos, ?_, full, size⟩
  rw [rounded]
  apply unpack_pack s pos full
  · omega
  · change f + _ + _ + 1 < (2048 : Nat)
    omega

/-! ### Zeros behind a magnitude -/

theorem log2_shiftLeft {m : Nat} (nonzero : m ≠ 0) (k : Nat) : (m <<< k).log2 = m.log2 + k := by
  induction k with
  | zero => rfl
  | succ k ih =>
    rw [Nat.shiftLeft_succ, Nat.log2_two_mul, ih, Nat.add_assoc]
    rw [Nat.shiftLeft_eq]
    exact Nat.mul_ne_zero nonzero (Nat.ne_of_gt (Nat.two_pow_pos k))

/-- Zeros that were put behind a mantissa are shifted out without a trace. -/
theorem shiftLeft_shiftRight (m k : Nat) :
    (⟨m <<< k, false, false⟩ : ExtendedMantissa) >>> k = ⟨m, false, false⟩ := by
  induction k generalizing m with
  | zero => rfl
  | succ k ih =>
    have one_zero : (⟨2 * m, false, false⟩ : ExtendedMantissa).shiftRightOne = ⟨m, false, false⟩ := by
      have half : 2 * m / 2 = m := Nat.mul_div_right m Nat.two_pos
      have even : (2 * m % 2 != 0) = false := by rw [Nat.mul_mod_right]; rfl
      simp only [ExtendedMantissa.shiftRightOne, half, even]
      rfl
    have inner : m <<< (k + 1) = (2 * m) <<< k := Nat.shiftLeft_succ_inside m k
    change ((⟨m <<< (k + 1), false, false⟩ : ExtendedMantissa) >>> k).shiftRightOne = _
    rw [inner, ih, one_zero]

/-- A magnitude that has only zeros behind the digits that a format keeps is not rounded. -/
theorem roundWithAccuracy_shiftLeft (s : Sign) (pos : 0 < m)
    (digits : m.log2 = spec.mantissaBitsWithoutImplicit) (k : Nat) (low : spec.minExponent ≤ e + k) :
    roundWithAccuracy spec s (m <<< k) e .exact = .finite s m (e + k) pos := by
  have more : (m <<< k).log2 = spec.mantissaBitsWithoutImplicit + k := by
    rw [log2_shiftLeft (Nat.ne_of_gt pos), digits]
  have cut : shiftToTargetExponent spec (m <<< k) e .exact = (⟨m, false, false⟩, e + k) := by
    rw [shiftToTargetExponent_eq .exact more low]
    exact congrArg (·, e + (k : Int)) (shiftLeft_shiftRight m k)
  have kept : shiftToTargetExponent spec m (e + k) .exact = (⟨m, false, false⟩, e + k) := by
    rw [shiftToTargetExponent_eq (k := 0) .exact digits (by omega)]
    exact congrArg (Prod.mk _) (Int.add_zero _)
  exact roundWithAccuracy_eq cut rfl kept pos

/-! ### Whole numbers -/

/-- A whole number is rounded to a double after zeros were put behind its digits, if it has fewer of
them than a double keeps. -/
theorem toModel_toFloat {v : Nat} (pos : 0 < v) (small : v < 2 ^ 62) :
    (UInt64.ofNat v).toFloat.toModel = Float.Model.pack (roundWithAccuracy Format.binary64 .positive
      (v <<< (52 - v.log2)) (-(52 - v.log2 : Nat)) .exact) := by
  have word : (UInt64.ofNat v).toNat = v := by
    rw [UInt64.toNat_ofNat', Nat.mod_eq_of_lt]
    omega
  have order : compare (v : Int) 0 = .gt := Int.compare_eq_gt.mpr (by omega)
  have target : Format.binary64.targetExponent (totalExponent v 0) = (v.log2 : Int) - 52 := by
    simp only [Format.targetExponent, totalExponent, Format.mantissaBits, Format.minExponent]
    omega
  have shift : (-((v.log2 : Int) - 52)).toNat = 52 - v.log2 := by omega
  change Float.Model.pack
    (UnpackedFloat.normalize Format.binary64 ((UInt64.ofNat v).toNat : Int) 0 .positive) = _
  rw [word, UnpackedFloat.normalize, order]
  change Float.Model.pack (UnpackedFloat.round Format.binary64 .positive v 0) = _
  simp only [UnpackedFloat.round, target, decreaseExponent, Int.zero_sub, shift]

/-- The double nearest to a whole number below `2 ^ 62` is below it too, or it is that power. -/
theorem unpack_toFloat {v : Nat} (pos : 0 < v) (small : v < 2 ^ 62) :
    ∃ m e p, (UInt64.ofNat v).toFloat.toModel.unpack = .finite .positive m e p ∧
      m.log2 = 52 ∧ -52 ≤ e ∧ (e ≤ 9 ∨ m = 2 ^ 52 ∧ e = 10) := by
  have short : v.log2 < 62 := (Nat.log2_lt (Nat.ne_of_gt pos)).mpr small
  have digits : (v <<< (52 - v.log2)).log2 = 52 + (v.log2 - 52) := by
    rw [log2_shiftLeft (Nat.ne_of_gt pos)]
    omega
  obtain ⟨m, e, p, parts, full, size⟩ :=
    exists_unpack_pack (e := -(52 - v.log2 : Nat)) .positive .exact digits (by omega) (by omega)
  rw [← toModel_toFloat pos small] at parts
  exact ⟨m, e, p, parts, full, by omega⟩

/-! ### Roots -/

/-- The root of a double is computed on a mantissa with enough digits for a root of 53. -/
theorem sqrtCore_eq (digits : m.log2 = 52) (low : -52 ≤ e) (high : e ≤ 10) :
    ∃ k acc, sqrtCore Format.binary64 m e = (Nat.sqrt (m <<< k), e / 2 - 26, acc) ∧
      (k = 52 ∨ k = 53 ∧ e ≠ 10) := by
  have target : Format.binary64.targetExponent ((totalExponent m e + 1).ediv 2) = e / 2 - 26 := by
    simp only [Format.targetExponent, totalExponent, Format.mantissaBits, Format.minExponent, digits]
    change max ((52 + 1 + e + 1) / 2 - _) _ = e / 2 - 26
    omega
  have least : min (e / 2) (e / 2 - 26) = e / 2 - 26 := by omega
  refine ⟨(e - 2 * (e / 2 - 26)).toNat, ?_⟩
  simp only [sqrtCore, target]
  change ∃ acc, (Nat.sqrt (m <<< (e - 2 * min (e / 2) _).toNat), min (e / 2) _, _) = _ ∧ _
  rw [least]
  exact ⟨_, rfl, by omega⟩

theorem log2_sqrt_shiftLeft (digits : m.log2 = 52) (places : k = 52 ∨ k = 53) :
    (Nat.sqrt (m <<< k)).log2 = 52 := by
  have nonzero : m ≠ 0 := by
    rintro rfl
    rw [Nat.log2_zero] at digits
    omega
  obtain ⟨least, most⟩ := (Nat.log2_eq_iff nonzero).mp digits
  have root_least : 2 ^ 52 ≤ Nat.sqrt (m <<< k) := by
    apply Nat.le_sqrt.mpr
    rw [Nat.shiftLeft_eq]
    apply Nat.mul_le_mul least
    rcases places with rfl | rfl <;> decide
  have root_most : Nat.sqrt (m <<< k) < 2 ^ 53 := by
    apply Nat.sqrt_lt.mpr
    rw [Nat.shiftLeft_eq]
    apply Nat.mul_lt_mul_of_lt_of_le most
    · rcases places with rfl | rfl <;> decide
    · decide
  exact (Nat.log2_eq_iff (by omega)).mpr ⟨root_least, root_most⟩

/-- The root of a double below `2 ^ 62`, or of that power, is not above `2 ^ 31` by more than one unit
in its last place. -/
theorem unpack_sqrt {x : Float} {p : 0 < m} (parts : x.toModel.unpack = .finite .positive m e p)
    (digits : m.log2 = 52) (low : -52 ≤ e) (high : e ≤ 9 ∨ m = 2 ^ 52 ∧ e = 10) :
    ∃ n f q, x.sqrt.toModel.unpack = .finite .positive n f q ∧ n.log2 = 52 ∧
      (f ≤ -22 ∨ n ≤ 2 ^ 52 + 1 ∧ f = -21) := by
  obtain ⟨k, acc, core, places⟩ := sqrtCore_eq digits low (by omega)
  have full := log2_sqrt_shiftLeft digits (places.imp_right And.left)
  have power : e = 10 → Nat.sqrt (m <<< k) = 2 ^ 52 := by
    intro top
    obtain rfl : m = 2 ^ 52 := by omega
    obtain rfl : k = 52 := by omega
    rw [Nat.shiftLeft_eq]
    exact Nat.sqrt_eq (2 ^ 52)
  obtain ⟨n, f, q, unpacked, digits, size⟩ :=
    exists_unpack_pack (k := 0) (e := e / 2 - 26) .positive acc full (by omega) (by omega)
  rw [Nat.pow_zero, Nat.div_one] at size
  refine ⟨n, f, q, ?_, digits, by omega⟩
  change (Float.Model.pack (UnpackedFloat.sqrt Format.binary64 x.toModel.unpack)).unpack = _
  simp only [parts, UnpackedFloat.sqrt, core, unpacked]

/-- Cutting a number off at the point drops the digits behind it. -/
theorem roundToInt_eq (m j : Nat) : roundToInt .positive m (-j) = (m / 2 ^ j : Nat) := by
  have up : (-(j : Int) - 0).toNat = 0 := by omega
  have down : (0 - (-(j : Int) - (0 : Nat))).toNat = j := by omega
  simp only [roundToInt, decreaseExponent, shiftToExponent, up, down, mantissa_shiftRight,
    mantissa_ofMantissaAndAccuracy, Nat.shiftLeft_zero, Sign.apply]

/-- Cutting such a root off at the point leaves at most `2 ^ 31`. -/
theorem toUInt64_le {x : Float} {p : 0 < m} (parts : x.toModel.unpack = .finite .positive m e p)
    (digits : m.log2 = 52) (high : e ≤ -22 ∨ m ≤ 2 ^ 52 + 1 ∧ e = -21) :
    x.toUInt64.toNat ≤ 2 ^ 31 := by
  have most := ((Nat.log2_eq_iff (Nat.ne_of_gt p)).mp digits).2
  obtain ⟨j, rfl⟩ : ∃ j : Nat, e = -j := ⟨(-e).toNat, by omega⟩
  have value : x.toUInt64 = UInt64.ofNatClamp (m / 2 ^ j) := by
    change UInt64.ofNatClamp (UnpackedFloat.toInt 0 (UInt64.size - 1) x.toModel.unpack).toNat = _
    rw [parts, UnpackedFloat.toInt, roundToInt_eq, Int.toNat_natCast]
  have bound : m / 2 ^ j ≤ 2 ^ 31 := by
    rcases high with far | ⟨near, place⟩
    · have coarse : m / 2 ^ j ≤ m / 2 ^ 22 :=
        Nat.div_le_div_left (Nat.pow_le_pow_right (by decide) (by omega)) (by decide)
      omega
    · obtain rfl : j = 21 := by omega
      omega
  have word : m / 2 ^ j < UInt64.size := Nat.lt_of_le_of_lt bound (by decide)
  rw [value, UInt64.ofNatClamp, dif_pos word]
  exact bound

/-- The root of a whole number below `2 ^ 62`, computed in doubles and cut to a whole number, is at
most `2 ^ 31`. -/
theorem toUInt64_sqrt_le {v : Nat} (small : v < 2 ^ 62) :
    (Float.sqrt (UInt64.ofNat v).toFloat).toUInt64.toNat ≤ 2 ^ 31 := by
  rcases Nat.eq_zero_or_pos v with rfl | pos
  · decide
  · obtain ⟨m, e, p, parts, digits, low, high⟩ := unpack_toFloat pos small
    obtain ⟨n, f, q, parts, digits, high⟩ := unpack_sqrt parts digits low high
    exact toUInt64_le parts digits high

end PointScope.Decimal
