import Mathlib.Algebra.Order.Field.Power
import Mathlib.Tactic.FieldSimp
import Mathlib.Tactic.Linarith
import Mathlib.Tactic.Ring

/-! Errors of calculations in single precision, kept as factors. An exact value and a computed one are
apart by some number of operations; these numbers add up where values are multiplied or divided, and the
greater of them counts where values of one sign are added. Nothing is lost to cancellation that way,
since nothing is subtracted. -/
namespace PointScope.Single

/-- The greatest relative error of one operation. -/
def ulp : ℚ := 1 / 2 ^ 23

/-- Apart by at most the errors of `n` operations in a row. -/
structure Within (n : Nat) (v r : ℚ) : Prop where
  low : v * (1 - ulp) ^ n ≤ r
  high : r * (1 - ulp) ^ n ≤ v

/-- Neither below nor above a power of two and its inverse. -/
def Moderate (k : Nat) (v : ℚ) : Prop := (2 : ℚ) ^ (-k : ℤ) ≤ v ∧ v ≤ 2 ^ (k : ℤ)

def Sized (k : Nat) (v : ℚ) : Prop := v = 0 ∨ Moderate k v

variable {v w r s : ℚ} {n m k l : Nat}

/-! ### Distances -/

theorem kept_pos (n : Nat) : 0 < (1 - ulp) ^ n := pow_pos (by norm_num [ulp]) n

theorem kept_le_one (n : Nat) : (1 - ulp) ^ n ≤ 1 :=
  pow_le_one₀ (by norm_num [ulp]) (by norm_num [ulp])

theorem kept_sixteen : 1 - 16 * ulp ≤ (1 - ulp) ^ 16 := by
  have bernoulli := one_add_mul_le_pow (a := -ulp) (by norm_num [ulp]) 16
  rw [← sub_eq_add_neg] at bernoulli
  calc 1 - 16 * ulp = 1 + (16 : Nat) * -ulp := by
        push_cast
        ring
    _ ≤ (1 - ulp) ^ 16 := bernoulli

theorem Within.refl (nonneg : 0 ≤ v) (n : Nat) : Within n v v := by
  have less : v * (1 - ulp) ^ n ≤ v := mul_le_of_le_one_right nonneg (kept_le_one n)
  exact ⟨less, less⟩

theorem Within.symm (near : Within n v r) : Within n r v := ⟨near.high, near.low⟩

theorem Within.trans (near : Within n v w) (near' : Within m w r) : Within (n + m) v r := by
  constructor
  · calc v * (1 - ulp) ^ (n + m) = v * (1 - ulp) ^ n * (1 - ulp) ^ m := by rw [pow_add, mul_assoc]
      _ ≤ w * (1 - ulp) ^ m := mul_le_mul_of_nonneg_right near.low (kept_pos m).le
      _ ≤ r := near'.low
  · calc r * (1 - ulp) ^ (n + m) = r * (1 - ulp) ^ m * (1 - ulp) ^ n := by
          rw [pow_add, mul_comm ((1 - ulp) ^ n), mul_assoc]
      _ ≤ w * (1 - ulp) ^ n := mul_le_mul_of_nonneg_right near'.high (kept_pos n).le
      _ ≤ v := near.high

theorem Within.nonneg (near : Within n v r) (nonneg : 0 ≤ r) : 0 ≤ v :=
  (mul_nonneg nonneg (kept_pos n).le).trans near.high

theorem Within.pos (near : Within n v r) (pos : 0 < v) : 0 < r :=
  (mul_pos pos (kept_pos n)).trans_le near.low

/-- Nothing but zero is near zero. -/
theorem Within.eq_zero (near : Within n 0 r) (nonneg : 0 ≤ r) : r = 0 :=
  le_antisymm (nonpos_of_mul_nonpos_left near.high (kept_pos n)) nonneg

theorem Within.mono (near : Within n v r) (nonneg : 0 ≤ v) (le : n ≤ m) : Within m v r := by
  obtain ⟨d, rfl⟩ := Nat.exists_eq_add_of_le le
  rw [Nat.add_comm]
  exact (Within.refl nonneg d).trans near

theorem Within.mul (near : Within n v r) (near' : Within m w s) (hv : 0 ≤ v) (hw : 0 ≤ w) (hr : 0 ≤ r)
    (hs : 0 ≤ s) : Within (n + m) (v * w) (r * s) := by
  have split : ∀ a b : ℚ, a * b * (1 - ulp) ^ (n + m) = a * (1 - ulp) ^ n * (b * (1 - ulp) ^ m) :=
    fun a b => by rw [pow_add]; ring
  constructor
  · rw [split]
    exact mul_le_mul near.low near'.low (mul_nonneg hw (kept_pos m).le) hr
  · rw [split]
    exact mul_le_mul near.high near'.high (mul_nonneg hs (kept_pos m).le) hv

theorem Within.inv (near : Within n v r) (hv : 0 < v) : Within n v⁻¹ r⁻¹ := by
  have hr := near.pos hv
  have flip : ∀ {a b : ℚ}, 0 < a → 0 < b → b * (1 - ulp) ^ n ≤ a → a⁻¹ * (1 - ulp) ^ n ≤ b⁻¹ := by
    intro a b ha hb le
    rw [inv_mul_le_iff₀ ha, ← div_eq_mul_inv, le_div_iff₀ hb, mul_comm]
    exact le
  exact ⟨flip hv hr near.high, flip hr hv near.low⟩

theorem Within.div (near : Within n v r) (near' : Within m w s) (hv : 0 ≤ v) (hw : 0 < w)
    (hr : 0 ≤ r) : Within (n + m) (v / w) (r / s) := by
  have inverse := near'.inv hw
  rw [div_eq_mul_inv, div_eq_mul_inv]
  exact near.mul inverse hv (inv_nonneg.mpr hw.le) hr (inv_nonneg.mpr (near'.pos hw).le)

theorem Within.add (near : Within n v r) (near' : Within n w s) : Within n (v + w) (r + s) := by
  constructor
  · rw [add_mul]
    exact add_le_add near.low near'.low
  · rw [add_mul]
    exact add_le_add near.high near'.high

/-- Any two numbers between the same two multiples of a unit are apart by one operation, if the multiples
have 24 digits. -/
theorem Within.of_units {u : ℚ} (full : 2 ^ 23 ≤ w) (unit : 0 ≤ u) (low : w * u ≤ v)
    (high : v ≤ (w + 1) * u) (low' : w * u ≤ r) (high' : r ≤ (w + 1) * u) : Within 1 v r := by
  have kept : 0 ≤ 1 - ulp := by norm_num [ulp]
  have edge : (w + 1) * u * (1 - ulp) ≤ w * u := by
    have : (w + 1) * (1 - ulp) ≤ w := by
      unfold ulp
      linarith
    calc (w + 1) * u * (1 - ulp) = (w + 1) * (1 - ulp) * u := by ring
      _ ≤ w * u := mul_le_mul_of_nonneg_right this unit
  constructor
  · rw [pow_one]
    exact ((mul_le_mul_of_nonneg_right high kept).trans edge).trans low'
  · rw [pow_one]
    exact ((mul_le_mul_of_nonneg_right high' kept).trans edge).trans low

/-- A few operations lower a number as large as a byte by far less than one. -/
theorem sub_le_of_kept (nonneg : 0 ≤ v) (byte : v ≤ 255) : v - 1 / 2 ^ 10 ≤ v * (1 - ulp) ^ 16 := by
  have kept := mul_le_mul_of_nonneg_left kept_sixteen nonneg
  unfold ulp at *
  linarith

/-- A few operations raise a number as large as a byte by far less than one. -/
theorem le_add_of_kept (nonneg : 0 ≤ r) (low : r * (1 - ulp) ^ 16 ≤ v) (byte : v ≤ 255) :
    r ≤ v + 1 / 2 ^ 10 := by
  have kept := mul_le_mul_of_nonneg_left kept_sixteen nonneg
  unfold ulp at *
  linarith

/-! ### Sizes -/

theorem Moderate.pos (size : Moderate k v) : 0 < v := lt_of_lt_of_le (zpow_pos (by norm_num) _) size.1

theorem Moderate.mono (size : Moderate k v) (le : k ≤ l) : Moderate l v := by
  constructor
  · exact (zpow_le_zpow_right₀ (by norm_num) (by omega)).trans size.1
  · exact size.2.trans (zpow_le_zpow_right₀ (by norm_num) (by omega))

theorem Sized.mono (size : Sized k v) (le : k ≤ l) : Sized l v := size.imp_right (·.mono le)

theorem Moderate.mul (size : Moderate k v) (size' : Moderate l w) : Moderate (k + l) (v * w) := by
  have split : ∀ a b : ℤ, (2 : ℚ) ^ (a + b) = 2 ^ a * 2 ^ b := zpow_add₀ (by norm_num)
  constructor
  · rw [Nat.cast_add, neg_add, split]
    exact mul_le_mul size.1 size'.1 (by positivity) size.pos.le
  · rw [Nat.cast_add, split]
    exact mul_le_mul size.2 size'.2 size'.pos.le (by positivity)

theorem Moderate.inv (size : Moderate k v) : Moderate k v⁻¹ := by
  constructor
  · rw [zpow_neg]
    exact inv_anti₀ size.pos size.2
  · rw [← neg_neg (k : ℤ), zpow_neg]
    exact inv_anti₀ (by positivity) size.1

theorem Sized.mul (size : Sized k v) (size' : Sized l w) : Sized (k + l) (v * w) := by
  rcases size with rfl | size
  · exact .inl (zero_mul w)
  · rcases size' with rfl | size'
    · exact .inl (mul_zero v)
    · exact .inr (size.mul size')

theorem Sized.div (size : Sized k v) (size' : Moderate l w) : Sized (k + l) (v / w) := by
  rw [div_eq_mul_inv]
  exact size.mul (.inr size'.inv)

theorem Sized.add (size : Sized k v) (size' : Sized k w) : Sized (k + 1) (v + w) := by
  rcases size with rfl | size
  · rw [zero_add]
    exact size'.mono (Nat.le_succ k)
  · rcases size' with rfl | size'
    · rw [add_zero]
      exact .inr (size.mono (Nat.le_succ k))
    · refine .inr ⟨(size.mono (Nat.le_succ k)).1.trans (le_add_of_nonneg_right size'.pos.le), ?_⟩
      rw [Nat.cast_succ, zpow_add_one₀ (by norm_num), mul_two]
      exact add_le_add size.2 size'.2

/-- An operation changes a size by at most one power of two. -/
theorem Sized.of_within (size : Sized k v) (near : Within 1 v r) (nonneg : 0 ≤ r) : Sized (k + 1) r := by
  have half : (1 : ℚ) / 2 ≤ 1 - ulp := by norm_num [ulp]
  have low := near.low
  have high := near.high
  rw [pow_one] at low high
  rcases size with rfl | size
  · exact .inl (near.eq_zero nonneg)
  · refine .inr ⟨?_, ?_⟩
    · calc (2 : ℚ) ^ (-(k + 1 : Nat) : ℤ) = 2 ^ (-k : ℤ) * (1 / 2) := by
            rw [Nat.cast_succ, neg_add, zpow_add₀ (by norm_num)]
            norm_num
        _ ≤ v * (1 - ulp) := mul_le_mul size.1 half (by norm_num) size.pos.le
        _ ≤ r := low
    · calc r = r * (1 / 2) * 2 := by ring
        _ ≤ r * (1 - ulp) * 2 := by gcongr
        _ ≤ v * 2 := by gcongr
        _ ≤ 2 ^ (k : ℤ) * 2 := by
          gcongr
          exact size.2
        _ = 2 ^ ((k + 1 : Nat) : ℤ) := by rw [Nat.cast_succ, zpow_add_one₀ (by norm_num)]

end PointScope.Single
