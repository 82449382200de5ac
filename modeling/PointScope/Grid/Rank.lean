import PointScope.Decimal.Fields

/-!
The rank of a double precision number: its place among all of them, counted from below. Numbers
compare as their ranks do, and there are fewer than `2 ^ 64` ranks; this is why a walk that only
goes up comes to an end.
-/

namespace PointScope.Grid

open Decimal Float.Model Float.Model.UnpackedFloat

/-- The rank of a number. Both zeros have the same rank. -/
def rank (v : Float) : Nat :=
  let bits := v.toBits.toNat
  if bits < signPlace then signPlace + bits else UInt64.size - bits

theorem rank_lt (v : Float) : rank v < UInt64.size := by
  have bound := v.toBits.toNat_lt
  unfold rank signPlace UInt64.size
  dsimp only
  by_cases positive : v.toBits.toNat < 9223372036854775808
  · rw [if_pos positive]; omega
  · rw [if_neg positive]; omega

/-- Reads a bit pattern of a sign and a magnitude as an integer. -/
private def place (s : Sign) (magnitude : Nat) : Int :=
  match s with
  | .positive => magnitude
  | .negative => -magnitude

private theorem compare_sign (s t : Sign) : compare s t = compare (place s 1) (place t 1) := by
  cases s <;> cases t <;> rfl

/-- Numbers compare by exponent first and by mantissa second, as their fields do when they are read
as one integer. -/
private theorem compare_ofFields {s₁ s₂ : Sign} {e₁ m₁ e₂ m₂ : Nat}
    (he₁ : e₁ < 2048) (he₂ : e₂ < 2048) (hm₁ : m₁ < normalMantissa) (hm₂ : m₂ < normalMantissa)
    (number₁ : ofFields s₁ e₁ m₁ ≠ .notANumber) (number₂ : ofFields s₂ e₂ m₂ ≠ .notANumber) :
    (ofFields s₁ e₁ m₁).compare (ofFields s₂ e₂ m₂) =
      some (compare (place s₁ (normalMantissa * e₁ + m₁)) (place s₂ (normalMantissa * e₂ + m₂))) := by
  -- The order of the integers is told first: every pair of kinds (infinite, zero, normal, subnormal)
  -- then leaves linear arithmetic on the fields.
  cases order : compare (place s₁ (normalMantissa * e₁ + m₁))
    (place s₂ (normalMantissa * e₂ + m₂)) with | _ =>
  simp only [Int.compare_eq_lt, Int.compare_eq_gt, Int.compare_eq_eq] at order
  rcases ofFields_cases s₁ e₁ m₁ with ⟨eq₁, _⟩ | eq₁ | ⟨eq₁, _⟩ | ⟨⟨_, eq₁⟩, _⟩ | ⟨⟨_, eq₁⟩, _⟩ <;>
    rcases ofFields_cases s₂ e₂ m₂ with ⟨eq₂, _⟩ | eq₂ | ⟨eq₂, _⟩ | ⟨⟨_, eq₂⟩, _⟩ | ⟨⟨_, eq₂⟩, _⟩ <;>
    first
    | contradiction
    | rw [eq₁, eq₂]
      clear eq₁ eq₂ number₁ number₂
      cases s₁ <;> cases s₂ <;> dsimp only [UnpackedFloat.compare] <;>
      simp only [compare_sign, Option.some.injEq, Ordering.swap_eq_lt, Ordering.swap_eq_gt,
        Ordering.swap_eq_eq, Ordering.then_eq_lt, Ordering.then_eq_gt, Ordering.then_eq_eq,
        Int.compare_eq_lt, Int.compare_eq_gt, Int.compare_eq_eq, Nat.compare_eq_lt,
        Nat.compare_eq_gt, Nat.compare_eq_eq, reduceCtorEq, true_and] <;>
      unfold normalMantissa place at * <;>
      dsimp only at * <;>
      omega

private theorem place_of_bits (b : BitVec 64) :
    place (if b.toNat < signPlace then .positive else .negative)
      (normalMantissa * (b.toNat / normalMantissa % 2048) + b.toNat % normalMantissa) =
    ((if b.toNat < signPlace then signPlace + b.toNat else UInt64.size - b.toNat : Nat) : Int) -
      signPlace := by
  have hb : b.toNat < UInt64.size := b.isLt
  unfold signPlace normalMantissa UInt64.size at *
  by_cases h : b.toNat < 9223372036854775808
  · simp only [if_pos h, place]; omega
  · simp only [if_neg h, place]; omega

private theorem ne_notANumber {v : Float} (number : v.isNaN = false) :
    v.toModel.unpack ≠ .notANumber := by
  intro nan
  have : v.toModel.unpack.isNaN = false := number
  rw [nan] at this
  contradiction

/-- Numbers compare as their ranks do. -/
theorem compare_eq_compare_rank {a b : Float} (ha : a.isNaN = false) (hb : b.isNaN = false) :
    a.toModel.unpack.compare b.toModel.unpack = some (compare (rank a) (rank b)) := by
  have fields : ∀ v : Float, v.toModel.unpack = _ := fun v => unpack_eq_ofFields v.toBits.toBitVec
  have number₁ := ne_notANumber ha
  have number₂ := ne_notANumber hb
  rw [fields] at number₁ number₂
  rw [fields a, fields b]
  rw [compare_ofFields (Nat.mod_lt _ (by decide)) (Nat.mod_lt _ (by decide))
    (Nat.mod_lt _ (by decide)) (Nat.mod_lt _ (by decide)) number₁ number₂, place_of_bits,
    place_of_bits]
  refine congrArg some ?_
  change compare ((rank a : Int) - signPlace) ((rank b : Int) - signPlace) = _
  cases order : compare (rank a) (rank b) with | _ =>
  simp only [Nat.compare_eq_lt, Nat.compare_eq_gt, Nat.compare_eq_eq] at order
  simp only [Int.compare_eq_lt, Int.compare_eq_gt, Int.compare_eq_eq]
  omega

/-- What is not a number compares with nothing. -/
private theorem number_of_compare {p q : UnpackedFloat} {o : Ordering}
    (h : p.compare q = some o) : p.isNaN = false ∧ q.isNaN = false := by
  cases p <;> cases q <;> first | contradiction | exact ⟨rfl, rfl⟩

theorem lt_iff_compare {a b : Float} :
    a < b ↔ a.toModel.unpack.compare b.toModel.unpack = some .lt :=
  decide_eq_true_iff.trans beq_iff_eq

theorem le_iff_compare {a b : Float} :
    a ≤ b ↔ (a.toModel.unpack.compare b.toModel.unpack).any (·.isLE) = true :=
  decide_eq_true_iff

/-- A number is less than another if its rank is; what is not a number is less than nothing. -/
theorem lt_iff_rank_lt {a b : Float} :
    a < b ↔ (a.isNaN = false ∧ b.isNaN = false) ∧ rank a < rank b := by
  rw [lt_iff_compare]
  constructor
  · intro less
    have number : a.isNaN = false ∧ b.isNaN = false := number_of_compare less
    rw [compare_eq_compare_rank number.1 number.2, Option.some.injEq, Nat.compare_eq_lt] at less
    exact ⟨number, less⟩
  · rintro ⟨number, less⟩
    rw [compare_eq_compare_rank number.1 number.2, Option.some.injEq, Nat.compare_eq_lt]
    exact less

theorem le_iff_rank_le {a b : Float} :
    a ≤ b ↔ (a.isNaN = false ∧ b.isNaN = false) ∧ rank a ≤ rank b := by
  rw [le_iff_compare]
  constructor
  · intro le
    obtain ⟨o, order, _⟩ := (Option.any_eq_true _ _).mp le
    have number : a.isNaN = false ∧ b.isNaN = false := number_of_compare order
    rw [compare_eq_compare_rank number.1 number.2, Option.any_some, Nat.isLE_compare] at le
    exact ⟨number, le⟩
  · rintro ⟨number, le⟩
    rw [compare_eq_compare_rank number.1 number.2, Option.any_some, Nat.isLE_compare]
    exact le

/-- Of two numbers, one is the other or less, unless the other is less. -/
theorem le_of_not_less {a b : Float} (ha : a.isNaN = false) (hb : b.isNaN = false) (h : ¬b < a) :
    a ≤ b :=
  le_iff_rank_le.mpr ⟨⟨ha, hb⟩, Nat.le_of_not_lt fun less => h (lt_iff_rank_lt.mpr ⟨⟨hb, ha⟩, less⟩)⟩

theorem not_le_iff_less {a b : Float} (ha : a.isNaN = false) (hb : b.isNaN = false) :
    ¬a ≤ b ↔ b < a := by
  simp only [le_iff_rank_le, lt_iff_rank_lt, ha, hb, and_self, true_and, Nat.not_le]

/-- The smaller number has the smaller rank. -/
theorem rank_lt_rank {a b : Float} (h : a < b) : rank a < rank b := (lt_iff_rank_lt.mp h).2

end PointScope.Grid
