import PointScope.Proofs.Decimal.Shortest

/-! Every number is read back from its shortest text, bit for bit: a finite number by its digits, an
infinity and what is not a number by its name. There is one number that is not a number, so its name
loses nothing either. -/
namespace PointScope.Decimal

open Float.Model Float.Model.UnpackedFloat

variable {v : Float} {text : List Char}

/-! ### Signs -/

theorem neg_ofFields (e m : Nat) :
    (ofFields .positive e m).neg = ofFields .negative e m := by
  unfold ofFields
  split
  · split <;> rfl
  · split
    · split <;> rfl
    · rfl

/-- Changing the sign of a magnitude sets its sign bit. -/
theorem neg_ofBits {b : Nat} (magnitude : b ≤ infinityBits) :
    -Float.ofBits (UInt64.ofNat b) = Float.ofBits (UInt64.ofNat (signPlace + b)) := by
  have unsigned : b < signPlace :=
    Nat.lt_of_le_of_lt magnitude (by decide : infinityBits < signPlace)
  have word : signPlace + b < 2 ^ 64 := by
    unfold signPlace at *
    omega
  have bits : (Float.ofBits (UInt64.ofNat b)).toBits.toNat = b :=
    toBits_ofBits (Nat.lt_trans unsigned (by decide)) (by rwa [Nat.mod_eq_of_lt unsigned])
  have positive : (Float.ofBits (UInt64.ofNat b)).toModel.unpack =
      ofFields .positive (b / normalMantissa % 2048) (b % normalMantissa) := by
    rw [toModel_unpack, bits, if_pos unsigned]
  have negative : UnpackedFloat.unpack Format.binary64 (UInt64.ofNat (signPlace + b)).toBitVec =
      ofFields .negative (b / normalMantissa % 2048) (b % normalMantissa) := by
    have place : (UInt64.ofNat (signPlace + b)).toBitVec.toNat = signPlace + b := by
      rw [UInt64.toNat_toBitVec, UInt64.toNat_ofNat', Nat.mod_eq_of_lt word]
    rw [unpack_eq_ofFields, place, if_neg (by omega)]
    unfold signPlace normalMantissa at *
    congr 1 <;> omega
  change Float.ofModel (pack (Float.ofBits (UInt64.ofNat b)).toModel.unpack.neg) =
    Float.ofModel (pack (UnpackedFloat.unpack Format.binary64 _))
  rw [positive, neg_ofFields, negative]

/-- A number is its magnitude with its sign. -/
theorem signed_magnitude (number : v.toBits.toNat % signPlace ≤ infinityBits) :
    (if decide (signPlace ≤ v.toBits.toNat) then
        -Float.ofBits (UInt64.ofNat (v.toBits.toNat % signPlace))
      else Float.ofBits (UInt64.ofNat (v.toBits.toNat % signPlace))) = v := by
  have word := v.toBits.toNat_lt
  have whole : Float.ofBits (UInt64.ofNat v.toBits.toNat) = v := by
    rw [UInt64.ofNat_toNat, Float.ofBits_toBits]
  by_cases negative : signPlace ≤ v.toBits.toNat
  · have bits : signPlace + v.toBits.toNat % signPlace = v.toBits.toNat := by
      unfold signPlace at *
      omega
    rw [decide_eq_true negative, if_pos rfl, neg_ofBits number, bits, whole]
  · rw [decide_eq_false negative, if_neg Bool.false_ne_true,
      Nat.mod_eq_of_lt (Nat.lt_of_not_le negative), whole]

/-- A sign in front of a text that has none is the sign of the number. -/
theorem read?_signed (unsigned : splitSign text = (false, text)) (negative : Bool) :
    read? (signed negative text) = (read? text).map fun v => if negative then -v else v := by
  have read : read? text = (magnitude? text).or (named? text) := by
    rw [read?, unsigned]
    exact Option.map_id_apply
  rw [read]
  cases negative with
  | false =>
    rw [signed, if_neg Bool.false_ne_true, read]
    exact Option.map_id_apply.symm
  | true => rfl

/-! ### Numbers without digits -/

theorem ofBits_infinityBits : Float.ofBits (UInt64.ofNat infinityBits) = 1.0 / 0.0 := by decide

/-- Whatever is neither finite nor infinite is the one number that is not a number. -/
theorem eq_nan (finite : ¬v.isFinite = true) (infinite : ¬v.isInf = true) : v = 0.0 / 0.0 := by
  have kind : v.toModel.unpack = .notANumber := by
    rw [show v.isFinite = v.toModel.unpack.isFinite from rfl] at finite
    rw [show v.isInf = v.toModel.unpack.isInf from rfl] at infinite
    cases unpacked : v.toModel.unpack with
    | notANumber => rfl
    | infinity s => exact absurd (by rw [unpacked]; rfl) infinite
    | zero s => exact absurd (by rw [unpacked]; rfl) finite
    | finite s m e positive => exact absurd (by rw [unpacked]; rfl) finite
  calc v = Float.ofBits v.toBits := (Float.ofBits_toBits v).symm
    _ = Float.ofModel (pack v.toModel.unpack) := rfl
    _ = 0.0 / 0.0 := by
      rw [kind]
      rfl

/-! ### Round trip -/

theorem splitSign_magnitudeChars (mantissa : Nat) (exponent : Int) :
    splitSign (magnitudeChars mantissa exponent) = (false, magnitudeChars mantissa exponent) := by
  obtain ⟨d, others, begins, digit⟩ := plain_eq_cons
    (shortestCoefficient mantissa exponent (.ofBinary mantissa exponent))
    (Exact.ofBinary mantissa exponent).places
  rw [magnitudeChars, begins, splitSign_of_isDigit digit]

/-- Reading the shortest text of a number gives back the number. -/
theorem read?_shortestChars (v : Float) : read? (shortestChars v) = some v := by
  unfold shortestChars
  by_cases finite : v.isFinite = true
  · obtain ⟨mantissa, exponent, parts, encodes, bits⟩ := ofFloat_of_isFinite finite
    rw [parts]
    change read? (signed _ (magnitudeChars mantissa exponent)) = some v
    rw [read?_signed (splitSign_magnitudeChars mantissa exponent), read?_magnitudeChars encodes,
      bits, Option.map_some, signed_magnitude (isFinite_iff.mp finite).le]
  · by_cases infinite : v.isInf = true
    · have bits := isInf_iff.mp infinite
      have name : read? ['i', 'n', 'f'] = some (1.0 / 0.0) := by decide
      have number := signed_magnitude bits.le
      rw [bits, ofBits_infinityBits] at number
      rw [ofFloat_of_isInf infinite]
      change read? (signed _ ['i', 'n', 'f']) = some v
      rw [read?_signed rfl, name, Option.map_some, number]
    · rw [ofFloat_of_not_number finite infinite, eq_nan finite infinite]
      decide

/-! ### Characters -/

theorem forall_mem_signed {P : Char → Prop} {negative : Bool} (minus : P '-')
    (all : ∀ c ∈ text, P c) : ∀ c ∈ signed negative text, P c := by
  intro c mem
  cases negative with
  | false => exact all c mem
  | true =>
    rcases List.mem_cons.mp mem with rfl | mem
    · exact minus
    · exact all c mem

/-- The text of a number has no character below the minus sign and none above the letters. -/
theorem toNat_of_mem_shortestChars :
    ∀ c ∈ shortestChars v, 45 ≤ c.toNat ∧ c.toNat ≤ 122 := by
  unfold shortestChars
  split
  · simp
  · exact forall_mem_signed (by decide) (by simp)
  · refine forall_mem_signed (by decide) fun d mem => ?_
    rcases mem_plain mem with digit | rfl
    · have := toNat_of_isDigit digit
      omega
    · decide

end PointScope.Decimal
