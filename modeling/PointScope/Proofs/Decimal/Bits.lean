import Mathlib
import PointScope.Decimal.Fields
import PointScope.Decimal.Nearest

/-! Numbers and their bits. All bit patterns are numbers of their own, except those above infinity,
which are one and the same; the patterns without the sign bit up to infinity are the magnitudes. -/
namespace PointScope.Decimal

open Float.Model Float.Model.UnpackedFloat

/-- A bit pattern that is a number is the one of that number. -/
theorem toBits_ofBits {b : Nat} (word : b < UInt64.size) (number : b % signPlace ≤ infinityBits) :
    (Float.ofBits (UInt64.ofNat b)).toBits.toNat = b := by
  have bits : (UInt64.ofNat b).toBitVec.toNat = b := by
    rw [UInt64.toNat_toBitVec, UInt64.toNat_ofNat', Nat.mod_eq_of_lt word]
  have not_nan : @isNaNBits Format.binary64 (UInt64.ofNat b).toBitVec = false := by
    refine decide_eq_false ?_
    rintro ⟨top, payload⟩
    have exponent := congrArg BitVec.toNat top
    have fraction : (UInt64.ofNat b).toBitVec.toNat % normalMantissa ≠ 0 := by
      rw [← toNat_unpackMantissa]
      exact fun zero => payload (BitVec.eq_of_toNat_eq zero)
    rw [toNat_unpackExponent, bits] at exponent
    rw [bits] at fraction
    change _ = 2047 at exponent
    simp only [infinityBits] at number
    unfold signPlace normalMantissa at *
    omega
  have packed := @pack_unpack Format.binary64 (UInt64.ofNat b).toBitVec (by decide)
  rw [not_nan] at packed
  exact (congrArg BitVec.toNat packed).trans bits

/-! ### Kinds of numbers -/

theorem toModel_unpack (v : Float) :
    v.toModel.unpack = ofFields (if v.toBits.toNat < signPlace then .positive else .negative)
      (v.toBits.toNat / normalMantissa % 2048) (v.toBits.toNat % normalMantissa) :=
  unpack_eq_ofFields v.toBits.toBitVec

theorem isFinite_iff {v : Float} :
    v.isFinite = true ↔ v.toBits.toNat % signPlace < infinityBits := by
  change v.toModel.unpack.isFinite = true ↔ _
  rw [toModel_unpack, ofFields]
  unfold infinityBits signPlace normalMantissa
  split
  · split <;> simp only [UnpackedFloat.isFinite, Bool.false_eq_true, false_iff] <;> omega
  · split
    · split <;> simp only [UnpackedFloat.isFinite, true_iff] <;> omega
    · simp only [UnpackedFloat.isFinite, true_iff]
      omega

theorem isInf_iff {v : Float} : v.isInf = true ↔ v.toBits.toNat % signPlace = infinityBits := by
  change v.toModel.unpack.isInf = true ↔ _
  rw [toModel_unpack, ofFields]
  unfold infinityBits signPlace normalMantissa
  split
  · split <;> simp only [UnpackedFloat.isInf, Bool.false_eq_true, false_iff, true_iff] <;> omega
  · split
    · split <;> simp only [UnpackedFloat.isInf, Bool.false_eq_true, false_iff] <;> omega
    · simp only [UnpackedFloat.isInf, Bool.false_eq_true, false_iff]
      omega

end PointScope.Decimal
