import PointScope.Decimal.Binary

/-!
The three fields of a double precision number: sign, exponent and fraction. Lean's own model of
numbers cuts them out of a word of 64 bits; here they are quotients and remainders.
-/

namespace PointScope.Decimal

open Float.Model Float.Model.UnpackedFloat

/-- The number that the three fields of a bit pattern stand for. -/
def ofFields (s : Sign) (e m : Nat) : UnpackedFloat :=
  if e = 2047 then if m = 0 then .infinity s else .notANumber
  else if e = 0 then
    if h : m = 0 then .zero s else .finite s m (-1074) (Nat.pos_of_ne_zero h)
  else .finite s (normalMantissa + m) ((e : Int) - 1075) (Nat.add_pos_left (by decide) m)

theorem ofFields_cases (s : Sign) (e m : Nat) :
    ofFields s e m = .infinity s ∧ e = 2047 ∧ m = 0 ∨
      ofFields s e m = .notANumber ∨
      ofFields s e m = .zero s ∧ e = 0 ∧ m = 0 ∨
      (∃ positive, ofFields s e m = .finite s m (-1074) positive) ∧ e = 0 ∧ 0 < m ∨
      (∃ positive, ofFields s e m = .finite s (normalMantissa + m) ((e : Int) - 1075) positive) ∧
        0 < e ∧ e ≠ 2047 := by
  unfold ofFields
  by_cases top : e = 2047
  · rw [if_pos top]
    by_cases empty : m = 0
    · exact Or.inl ⟨if_pos empty, top, empty⟩
    · exact Or.inr (Or.inl (if_neg empty))
  · rw [if_neg top]
    by_cases bottom : e = 0
    · rw [if_pos bottom]
      by_cases empty : m = 0
      · exact Or.inr (Or.inr (Or.inl ⟨dif_pos empty, bottom, empty⟩))
      · have positive := Nat.pos_of_ne_zero empty
        exact Or.inr (Or.inr (Or.inr (Or.inl ⟨⟨positive, dif_neg empty⟩, bottom, positive⟩)))
    · rw [if_neg bottom]
      exact Or.inr (Or.inr (Or.inr (Or.inr ⟨⟨_, rfl⟩, Nat.pos_of_ne_zero bottom, top⟩)))

theorem toNat_unpackMantissa (b : BitVec 64) :
    (@unpackMantissa Format.binary64 b).toNat = b.toNat % normalMantissa := by
  simp [unpackMantissa, BitVec.extractLsb, normalMantissa]

theorem toNat_unpackExponent (b : BitVec 64) :
    (@unpackExponent Format.binary64 b).toNat = b.toNat / normalMantissa % 2048 := by
  simp [unpackExponent, BitVec.extractLsb, Nat.shiftRight_eq_div_pow, normalMantissa]

theorem ofBitVec_unpackSign (b : BitVec 64) :
    Sign.ofBitVec (@unpackSign Format.binary64 b) =
      if b.toNat < signPlace then .positive else .negative := by
  have place : (@unpackSign Format.binary64 b).toNat = b.toNat / signPlace % 2 := by
    change (b.toNat >>> 63) % 2 = _
    rw [Nat.shiftRight_eq_div_pow]
    rfl
  have bound := b.isLt
  unfold Sign.ofBitVec signPlace at *
  simp only [← BitVec.toNat_inj, place]
  by_cases positive : b.toNat < 9223372036854775808
  · rw [if_pos positive, if_pos]
    simp
    omega
  · rw [if_neg positive, if_neg]
    simp
    omega

theorem finite_congr {s t : Sign} {m n : Nat} {e f : Int} (sign : s = t) (mantissa : m = n)
    (exponent : e = f) (hm : 0 < m) (hn : 0 < n) :
    UnpackedFloat.finite s m e hm = .finite t n f hn := by
  subst sign mantissa exponent
  rfl

theorem unpack_eq_ofFields (b : BitVec 64) :
    UnpackedFloat.unpack Format.binary64 b =
      ofFields (if b.toNat < signPlace then .positive else .negative)
        (b.toNat / normalMantissa % 2048) (b.toNat % normalMantissa) := by
  have sign := ofBitVec_unpackSign b
  have mantissa := toNat_unpackMantissa b
  have exponent := toNat_unpackExponent b
  have hidden : (1#1 ++ @unpackMantissa Format.binary64 b).toNat =
      normalMantissa + b.toNat % normalMantissa := by
    have small : b.toNat % normalMantissa < 2 ^ 52 := Nat.mod_lt _ (by decide)
    rw [BitVec.toNat_append, mantissa, ← Nat.shiftLeft_add_eq_or_of_lt small]
    rfl
  have top : @unpackExponent Format.binary64 b = -1#_ ↔ b.toNat / normalMantissa % 2048 = 2047 := by
    rw [← BitVec.toNat_inj, exponent]
    rfl
  have bottom : @unpackExponent Format.binary64 b = 0#_ ↔ b.toNat / normalMantissa % 2048 = 0 := by
    rw [← BitVec.toNat_inj, exponent]
    rfl
  have blank : @unpackMantissa Format.binary64 b = 0#_ ↔ b.toNat % normalMantissa = 0 := by
    rw [← BitVec.toNat_inj, mantissa]
    rfl
  have bias : (Format.binary64.exponentBias : Int) +
      (Format.binary64.mantissaBitsWithoutImplicit : Nat) = 1075 := by decide
  unfold UnpackedFloat.unpack ofFields
  dsimp only
  by_cases infinite : @unpackExponent Format.binary64 b = -1#_
  · rw [if_pos infinite, if_pos (top.mp infinite), sign]
    by_cases empty : @unpackMantissa Format.binary64 b = 0#_
    · rw [if_pos empty, if_pos (blank.mp empty)]
    · rw [if_neg empty, if_neg (mt blank.mpr empty)]
  · rw [if_neg infinite, if_neg (mt top.mpr infinite)]
    by_cases subnormal : @unpackExponent Format.binary64 b = 0#_
    · rw [if_pos subnormal, if_pos (bottom.mp subnormal)]
      by_cases empty : @unpackMantissa Format.binary64 b = 0#_
      · rw [dif_pos empty, dif_pos (blank.mp empty), sign]
      · rw [dif_neg empty, dif_neg (mt blank.mpr empty)]
        refine finite_congr sign mantissa ?_ _ _
        rw [exponent, bottom.mp subnormal, bias]
        rfl
    · rw [if_neg subnormal, if_neg (mt bottom.mpr subnormal)]
      refine finite_congr sign hidden ?_ _ _
      rw [exponent, bias]

end PointScope.Decimal
