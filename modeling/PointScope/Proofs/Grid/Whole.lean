import PointScope.Grid.Basic
import PointScope.Proofs.Decimal.Rounding

/-! Axes of whole numbers. The whole numbers of as many digits as a double keeps differ by one unit of their
last digit. So one is added to such a number without rounding, and a walk by one leaves none of them out. -/
namespace PointScope

open Float.Model Float.Model.UnpackedFloat Decimal

namespace Grid

variable {m n : Nat} {e f : Int}

/-! ### Sums -/

theorem normalize_shiftLeft (pos : 0 < m) (digits : m.log2 = 52) :
    UnpackedFloat.normalize Format.binary64 (m <<< 52 : Nat) (-52) .positive =
      .finite .positive m 0 pos := by
  have order : compare ((m <<< 52 : Nat) : Int) 0 = .gt := by
    rw [Int.compare_eq_gt, Nat.shiftLeft_eq]
    omega
  have more : (m <<< 52).log2 = 104 := by rw [log2_shiftLeft (Nat.ne_of_gt pos), digits]
  have target : Format.binary64.targetExponent (totalExponent (m <<< 52) (-52)) = 0 := by
    simp only [Format.targetExponent, totalExponent, more]
    decide
  have none : (-52 - 0 : Int).toNat = 0 := by decide
  rw [UnpackedFloat.normalize, order]
  simp only [UnpackedFloat.round, Int.toNat_natCast, target, decreaseExponent, none,
    Nat.shiftLeft_zero]
  exact roundWithAccuracy_shiftLeft .positive pos digits 52 (by decide)

/-- Positive numbers are added at the lower one of their exponents. -/
theorem add_positive {spec : Format} (pos : 0 < m) (pos' : 0 < n) :
    UnpackedFloat.add spec (.finite .positive m e pos) (.finite .positive n f pos') =
      UnpackedFloat.normalize spec
        ((decreaseExponent m e (min e f)).1 + (decreaseExponent n f (min e f)).1 : Nat) (min e f)
        .positive := rfl

/-! ### Whole numbers -/

/-- A whole number as a double. -/
def whole (n : Nat) : Float := (UInt64.ofNat n).toFloat

/-- A whole number of 53 digits, as many as a double keeps. -/
def IsLong (n : Nat) : Prop := 2 ^ 52 ≤ n ∧ n < 2 ^ 53

theorem IsLong.pos (long : IsLong n) : 0 < n := Nat.lt_of_lt_of_le (Nat.two_pow_pos 52) long.1

theorem IsLong.digits (long : IsLong n) : n.log2 = 52 :=
  (Nat.log2_eq_iff (Nat.ne_of_gt long.pos)).mpr long

theorem toModel_whole (long : IsLong n) :
    (whole n).toModel = Float.Model.pack (.finite .positive n 0 long.pos) := by
  have small : n < 2 ^ 62 := long.2.trans (by decide)
  rw [whole, toModel_toFloat long.pos small, long.digits]
  exact congrArg Float.Model.pack (roundWithAccuracy_shiftLeft .positive long.pos long.digits 0 (by decide))

theorem unpack_whole (long : IsLong n) :
    (whole n).toModel.unpack = .finite .positive n 0 long.pos := by
  rw [toModel_whole long]
  exact unpack_pack .positive long.pos long.digits (by decide) (by decide)

theorem unpack_one :
    (1.0 : Float).toModel.unpack = .finite .positive (2 ^ 52) (-52) (by decide) := rfl

theorem whole_add_one (long : IsLong n) (next : IsLong (n + 1)) : whole n + 1.0 = whole (n + 1) := by
  have lower : min (0 : Int) (-52) = -52 := by decide
  have units : (decreaseExponent n 0 (-52)).1 = n <<< 52 := rfl
  have unit : (decreaseExponent (2 ^ 52) (-52) (-52)).1 = 2 ^ 52 := by decide
  have sum : n <<< 52 + 2 ^ 52 = (n + 1) <<< 52 := by
    rw [Nat.shiftLeft_eq, Nat.shiftLeft_eq, Nat.succ_mul]
  have added : (whole n + 1.0).toModel = (whole (n + 1)).toModel := by
    change Float.Model.pack
      (UnpackedFloat.add _ (whole n).toModel.unpack (1.0 : Float).toModel.unpack) = _
    rw [unpack_whole long, unpack_one, add_positive, lower, units, unit, sum,
      normalize_shiftLeft next.pos next.digits, toModel_whole next]
  exact congrArg Float.ofModel added

theorem compare_whole (long : IsLong m) (long' : IsLong n) :
    (whole m).toModel.unpack.compare (whole n).toModel.unpack = some (compare m n) := by
  rw [unpack_whole long, unpack_whole long']
  rfl

theorem whole_lt_iff (long : IsLong m) (long' : IsLong n) : whole m < whole n ↔ m < n := by
  rw [lt_iff_compare, compare_whole long long', Option.some.injEq, Nat.compare_eq_lt]

theorem whole_le_iff (long : IsLong m) (long' : IsLong n) : whole m ≤ whole n ↔ m ≤ n := by
  rw [le_iff_compare, compare_whole long long', Option.any_some, Nat.isLE_compare]

end Grid

open Grid

/-- By steps of one, an axis between whole numbers of 53 digits is made of all of them. -/
theorem SampleGrid.axis_whole {first last : Nat} (low : 2 ^ 52 ≤ first) (order : first ≤ last + 1)
    (long : IsLong last) (high : last + 1 < 2 ^ 53) :
    axis (whole first) (whole last) 1.0 = (List.range' first (last + 1 - first)).map whole := by
  rw [axis]
  induction left : last + 1 - first generalizing first with
  | zero =>
    have behind : IsLong first := ⟨low, by omega⟩
    have beyond : ¬whole first ≤ whole last := by
      rw [whole_le_iff behind long]
      omega
    rw [walk_eq, if_neg (by rw [decide_eq_true_eq]; exact beyond)]
    rfl
  | succ k ih =>
    have here : IsLong first := ⟨low, by omega⟩
    have next : IsLong (first + 1) := ⟨by omega, by omega⟩
    have inside : whole first ≤ whole last := (whole_le_iff here long).mpr (by omega)
    have ahead : whole first < whole first + 1.0 := by
      rw [whole_add_one here next, whole_lt_iff here next]
      exact Nat.lt_succ_self first
    rw [walk_eq, if_pos (decide_eq_true inside), if_pos ahead, whole_add_one here next,
      ih next.1 (by omega) (by omega), List.range'_succ, List.map_cons]

theorem SampleGrid.length_axis_whole {first last : Nat} (low : 2 ^ 52 ≤ first) (order : first ≤ last)
    (high : last + 1 < 2 ^ 53) :
    (axis (whole first) (whole last) 1.0).length = last + 1 - first := by
  have long : IsLong last := ⟨low.trans order, by omega⟩
  rw [axis_whole low (order.trans (Nat.le_succ last)) long high, List.length_map, List.length_range']

end PointScope
