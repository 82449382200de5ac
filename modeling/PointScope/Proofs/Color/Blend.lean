import PointScope.Color.Blend
import PointScope.Proofs.Single.Arithmetic

/-! Colors laid over one another. A channel of the result is the mean of two channels, weighted with what
is seen of each color, and its calculation in single precision is off by far less than half of a byte; so
rounding leaves it between the two. -/
namespace PointScope

open Single

variable {v : Float32} {q : ℚ} {lo hi k : Nat}

/-! ### Bytes -/

theorem reads_nothing : Reads 0.0 0 := .zero rfl

theorem reads_half : Reads 0.5 (1 / 2) :=
  .of_parts (m := 8388608) (e := -24) (by decide) rfl (by decide) (by norm_num)

theorem reads_one : Reads 1.0 1 :=
  .of_parts (m := 8388608) (e := -23) (by decide) rfl (by decide) (by norm_num)

theorem reads_byte : Reads 255.0 255 :=
  .of_parts (m := 16711680) (e := -16) (by decide) rfl (by decide) (by norm_num)

theorem approximates_scale : Approximates 255.0 0 8 255 :=
  reads_byte.approximates (.inr ⟨by norm_num, by norm_num⟩)

/-- The byte nearest to a number is no farther from it than half of one and the error of a difference,
except above 255, where it is 255. -/
theorem nearestByte_near (hv : Reads v q) (size : Sized 76 q) :
    255 ≤ q ∧ nearestByte v = 255 ∨
      q < 255 ∧ |((nearestByte v).toNat : ℚ) - q| ≤ 1 / 2 + 1 / 2 ^ 10 := by
  unfold nearestByte
  by_cases full : 255.0 ≤ v
  · exact .inl ⟨(reads_byte.le_iff hv).mp full, if_pos full⟩
  · rw [if_neg full]
    have below : q < 255 := lt_of_not_ge fun ge => full ((reads_byte.le_iff hv).mpr ge)
    refine .inr ⟨below, ?_⟩
    have whole : v.toUInt8.toNat = ⌊q⌋₊ := hv.toNat_toUInt8 (below.trans (by norm_num))
    have floor_le : (⌊q⌋₊ : ℚ) ≤ q := Nat.floor_le hv.nonneg
    have lt_floor : q < ⌊q⌋₊ + 1 := Nat.lt_floor_add_one q
    have small : ⌊q⌋₊ < 255 := (Nat.floor_lt hv.nonneg).mpr (by exact_mod_cast below)
    obtain ⟨d, difference, near⟩ := exists_reads_sub hv (whole ▸ reads_toFloat32 v.toUInt8) floor_le
      (hv.sized_fract size)
    have low := near.low
    have high := near.high
    rw [pow_one] at low high
    unfold ulp at low high
    dsimp only
    split
    · rename_i up
      have far := (reads_half.le_iff difference).mp up
      have next : (v.toUInt8 + 1).toNat = ⌊q⌋₊ + 1 := by
        rw [UInt8.toNat_add, whole]
        exact Nat.mod_eq_of_lt (by change _ + 1 < 256; omega)
      rw [next, abs_le]
      push_cast
      constructor <;> linarith
    · rename_i down
      have close : d < 1 / 2 := lt_of_not_ge fun ge => down ((reads_half.le_iff difference).mpr ge)
      rw [whole, abs_le]
      constructor <;> linarith

/-- A number that is not below a byte by more than some operations make is not rounded below it. -/
theorem le_nearestByte (hv : Reads v q) (size : Sized 76 q) (byte : lo ≤ 255)
    (low : lo * (1 - ulp) ^ 16 ≤ q) : lo ≤ (nearestByte v).toNat := by
  rcases nearestByte_near hv size with ⟨-, full⟩ | ⟨-, near⟩
  · rw [full]
    exact byte
  · have lost := sub_le_of_kept (Nat.cast_nonneg lo) (by exact_mod_cast byte)
    have least := (abs_le.mp near).1
    have : (lo : ℚ) < (nearestByte v).toNat + 1 := by linarith
    exact Nat.lt_succ_iff.mp (by exact_mod_cast this)

theorem nearestByte_le (hv : Reads v q) (size : Sized 76 q) (byte : hi ≤ 255)
    (high : q * (1 - ulp) ^ 16 ≤ hi) : (nearestByte v).toNat ≤ hi := by
  have gained := le_add_of_kept hv.nonneg high (by exact_mod_cast byte)
  rcases nearestByte_near hv size with ⟨above, full⟩ | ⟨-, near⟩
  · rw [full]
    have : (255 : ℚ) < hi + 1 := by linarith
    exact Nat.lt_succ_iff.mp (by exact_mod_cast this)
  · have most := (abs_le.mp near).2
    have : ((nearestByte v).toNat : ℚ) < hi + 1 := by linarith
    exact Nat.lt_succ_iff.mp (by exact_mod_cast this)

theorem nearestByte_between {n : Nat} (hv : Approximates v n k q) (few : n ≤ 16) (small : k ≤ 76)
    (low : lo ≤ q) (high : q ≤ hi) (byte : hi ≤ 255) :
    lo ≤ (nearestByte v).toNat ∧ (nearestByte v).toNat ≤ hi := by
  obtain ⟨r, reads, near, size⟩ := hv.mono few small
  have ordered : lo ≤ hi := by exact_mod_cast low.trans high
  constructor
  · refine le_nearestByte reads size (ordered.trans byte) (le_trans ?_ near.low)
    exact mul_le_mul_of_nonneg_right low (kept_pos 16).le
  · exact nearestByte_le reads size byte (near.high.trans high)

namespace Rgba

/-! ### Units -/

/-- A channel in single precision: near its exact fraction, one for the greatest byte and clearly below
one for all others. -/
theorem exists_reads_unit (n : UInt8) :
    ∃ u, Reads (unit n) u ∧ Within 1 (n.toNat / 255) u ∧ Sized 9 u ∧
      (n = 255 ∧ u = 1 ∨ n ≠ 255 ∧ u ≤ 255 / 256) := by
  rcases eq_or_ne n 255 with rfl | partly
  · have one : unit 255 = 1.0 := by decide +kernel
    have whole : ((255 : UInt8).toNat : ℚ) / 255 = 1 := by
      change ((255 : Nat) : ℚ) / 255 = 1
      norm_num
    refine ⟨1, one ▸ reads_one, ?_, .inr ⟨by norm_num, by norm_num⟩, .inl ⟨rfl, rfl⟩⟩
    rw [whole]
    exact .refl zero_le_one 1
  · have less : n.toNat ≤ 254 := by
      have byte := n.toNat_lt
      have : n.toNat ≠ 255 := fun eq => partly (UInt8.toNat_inj.mp eq)
      omega
    have below : (n.toNat : ℚ) ≤ 254 := by exact_mod_cast less
    have size : Sized 8 ((n.toNat : ℚ) / 255) := by
      rcases Nat.eq_zero_or_pos n.toNat with none | some_
      · exact .inl (by rw [none, Nat.cast_zero, zero_div])
      · have least : (1 : ℚ) ≤ n.toNat := by exact_mod_cast some_
        refine .inr ⟨?_, ?_⟩
        · norm_num
          linarith
        · norm_num
          linarith
    obtain ⟨u, reads, near⟩ :=
      exists_reads_div (reads_toFloat32 n) reads_byte (by norm_num) (size.mono (by decide))
    refine ⟨u, reads, near, size.of_within near reads.nonneg, .inr ⟨partly, ?_⟩⟩
    have high := near.high
    unfold ulp at high
    norm_num at high
    linarith

/-- The weights of two colors as they are computed from their alphas: the alpha `a` of the upper one, and
the alpha `b` of the lower one times what `a` leaves of it. -/
structure Weights (upper lower : UInt8) (a b t : ℚ) : Prop where
  top : Reads (unit upper) a
  bottom : Reads (unit lower) b
  rest : Reads (1.0 - unit upper) t
  top_near : Within 1 (upper.toNat / 255) a
  bottom_near : Within 1 (lower.toNat / 255) b
  rest_near : Within 1 (1 - a) t
  top_sized : Sized 9 a
  bottom_sized : Sized 9 b
  rest_sized : Sized 9 t
  top_le : a ≤ 1
  bottom_le : b ≤ 1
  covering : upper = 255 → a = 1

theorem exists_weights (upper lower : UInt8) : ∃ a b t, Weights upper lower a b t := by
  obtain ⟨a, top, top_near, top_sized, top_most⟩ := exists_reads_unit upper
  obtain ⟨b, bottom, bottom_near, bottom_sized, bottom_most⟩ := exists_reads_unit lower
  have at_least := top.nonneg
  have top_le : a ≤ 1 := by rcases top_most with ⟨-, eq⟩ | ⟨-, less⟩ <;> linarith
  have bottom_le : b ≤ 1 := by rcases bottom_most with ⟨-, eq⟩ | ⟨-, less⟩ <;> linarith
  have size : Sized 8 (1 - a) := by
    rcases top_most with ⟨-, rfl⟩ | ⟨-, less⟩
    · exact .inl (sub_self 1)
    · exact .inr ⟨by norm_num; linarith, by norm_num; linarith⟩
  obtain ⟨t, rest, rest_near⟩ := exists_reads_sub reads_one top top_le (size.mono (by decide))
  refine ⟨a, b, t, top, bottom, rest, top_near, bottom_near, rest_near, top_sized, bottom_sized,
    size.of_within rest_near rest.nonneg, top_le, bottom_le, fun full => ?_⟩
  rcases top_most with ⟨-, eq⟩ | ⟨partly, -⟩
  · exact eq
  · exact absurd full partly

namespace Weights

variable {upper lower s d : UInt8} {a b t : ℚ} (w : Weights upper lower a b t)

include w

theorem top_eq_zero (clear : upper = 0) : a = 0 := by
  have near := w.top_near
  rw [clear, UInt8.toNat_zero, Nat.cast_zero, zero_div] at near
  exact near.eq_zero w.top.nonneg

theorem bottom_eq_zero (clear : lower = 0) : b = 0 := by
  have near := w.bottom_near
  rw [clear, UInt8.toNat_zero, Nat.cast_zero, zero_div] at near
  exact near.eq_zero w.bottom.nonneg

theorem rest_eq_zero (full : upper = 255) : t = 0 := by
  have near := w.rest_near
  rw [w.covering full, sub_self] at near
  exact near.eq_zero w.rest.nonneg

theorem seen_nonneg : 0 ≤ b * t := mul_nonneg w.bottom.nonneg w.rest.nonneg

/-- Something is seen of two colors if one of them is not fully transparent. -/
theorem seen_pos (shown : upper ≠ 0 ∨ lower ≠ 0) : 0 < a + b * t := by
  have alpha_pos : ∀ {n : UInt8}, n ≠ 0 → (0 : ℚ) < n.toNat / 255 := fun {n} some_ => by
    have : 0 < n.toNat := Nat.pos_of_ne_zero fun zero => some_ (UInt8.toNat_inj.mp zero)
    positivity
  rcases ne_or_eq upper 0 with some_ | clear
  · exact add_pos_of_pos_of_nonneg (w.top_near.pos (alpha_pos some_)) w.seen_nonneg
  · have rest := w.rest_near
    rw [w.top_eq_zero clear, sub_zero] at rest
    have bottom := w.bottom_near.pos (alpha_pos (shown.resolve_left (not_not.mpr clear)))
    rw [w.top_eq_zero clear, zero_add]
    exact mul_pos bottom (rest.pos one_pos)

theorem approximates_alpha :
    Approximates (unit upper + unit lower * (1.0 - unit upper)) 2 21 (a + b * t) := by
  have first := (w.top.approximates w.top_sized).mono (Nat.zero_le 1) (by decide : 9 ≤ 19)
  have second := (w.bottom.approximates w.bottom_sized).mul (w.rest.approximates w.rest_sized) (by decide)
  exact first.add second (by decide)

/-- A channel of the result before it is rounded to a byte. -/
theorem approximates_channel (s d : UInt8) (seen : 0 < a + b * t) :
    Approximates ((unit s * unit upper + unit d * unit lower * (1.0 - unit upper)) /
      (unit upper + unit lower * (1.0 - unit upper)) * 255.0) 8 62
      ((s.toNat * a + d.toNat * (b * t)) / (a + b * t)) := by
  obtain ⟨u, s_reads, s_near, s_sized, -⟩ := exists_reads_unit s
  obtain ⟨u', d_reads, d_near, d_sized, -⟩ := exists_reads_unit d
  have first := Approximates.mul ⟨u, s_reads, s_near, s_sized⟩ (w.top.approximates w.top_sized)
    (by decide)
  have second := (Approximates.mul ⟨u', d_reads, d_near, d_sized⟩ (w.bottom.approximates w.bottom_sized)
    (by decide)).mul (w.rest.approximates w.rest_sized) (by decide)
  have sum := (first.mono (by decide : _ ≤ 3) (by decide : _ ≤ 29)).add second (by decide)
  have channel := (sum.div w.approximates_alpha seen (by decide)).mul approximates_scale (by decide)
  have value : (s.toNat / 255 * a + d.toNat / 255 * b * t) / (a + b * t) * 255 =
      (s.toNat * a + d.toNat * (b * t)) / (a + b * t) := by
    field_simp
  rw [value] at channel
  exact channel

/-- A channel lies between the same bytes as the weighted mean. -/
theorem overChannel_between (seen : 0 < a + b * t)
    (low : lo * (a + b * t) ≤ s.toNat * a + d.toNat * (b * t))
    (high : s.toNat * a + d.toNat * (b * t) ≤ hi * (a + b * t)) (byte : hi ≤ 255) :
    lo ≤ (overChannel s d (unit upper) (unit lower)
        (unit upper + unit lower * (1.0 - unit upper))).toNat ∧
      (overChannel s d (unit upper) (unit lower)
        (unit upper + unit lower * (1.0 - unit upper))).toNat ≤ hi :=
  nearestByte_between (w.approximates_channel s d seen) (by decide) (by decide)
    ((le_div_iff₀ seen).mpr low) ((div_le_iff₀ seen).mpr high) byte

/-! ### Alphas -/

theorem approximates_byte : Approximates
    ((unit upper + unit lower * (1.0 - unit upper)) * 255.0) 3 30 ((a + b * t) * 255) :=
  w.approximates_alpha.mul approximates_scale (by decide)

/-- The lower color is seen through the upper one, or the upper one is seen instead. -/
theorem le_seen : (lower.toNat : ℚ) / 255 * (1 - ulp) ^ 2 ≤ a + b * t := by
  have kept := kept_pos 1
  have kept_le := kept_le_one 1
  have bottom := w.bottom.nonneg
  rw [pow_one] at kept kept_le
  calc (lower.toNat : ℚ) / 255 * (1 - ulp) ^ 2 = lower.toNat / 255 * (1 - ulp) ^ 1 * (1 - ulp) := by ring
    _ ≤ b * (1 - ulp) := mul_le_mul_of_nonneg_right w.bottom_near.low kept.le
    _ ≤ (b + a * (1 - b)) * (1 - ulp) := by
      have := mul_nonneg w.top.nonneg (sub_nonneg.mpr w.bottom_le)
      exact mul_le_mul_of_nonneg_right (by linarith) kept.le
    _ = a * (1 - ulp) + b * ((1 - a) * (1 - ulp) ^ 1) := by ring
    _ ≤ a + b * t := add_le_add (mul_le_of_le_one_right w.top.nonneg kept_le)
        (mul_le_mul_of_nonneg_left w.rest_near.low bottom)

theorem le_alpha : upper ≤ nearestByte ((unit upper + unit lower * (1.0 - unit upper)) * 255.0) ∧
    lower ≤ nearestByte ((unit upper + unit lower * (1.0 - unit upper)) * 255.0) := by
  obtain ⟨r, reads, near, size⟩ := w.approximates_byte
  have least : ∀ n : UInt8, (n.toNat : ℚ) / 255 * (1 - ulp) ^ 2 ≤ a + b * t →
      n ≤ nearestByte ((unit upper + unit lower * (1.0 - unit upper)) * 255.0) := by
    intro n seen
    refine UInt8.le_iff_toNat_le.mpr (le_nearestByte reads (size.mono (by decide))
      (Nat.lt_succ_iff.mp n.toNat_lt) ?_)
    calc (n.toNat : ℚ) * (1 - ulp) ^ 16 ≤ n.toNat * (1 - ulp) ^ 5 :=
          mul_le_mul_of_nonneg_left (pow_le_pow_of_le_one (by norm_num [ulp]) (by norm_num [ulp])
            (by decide)) (Nat.cast_nonneg _)
      _ = n.toNat / 255 * (1 - ulp) ^ 2 * 255 * (1 - ulp) ^ 3 := by ring
      _ ≤ (a + b * t) * 255 * (1 - ulp) ^ 3 := by
        have := kept_pos 3
        gcongr
      _ ≤ r := near.low
  refine ⟨least upper ?_, least lower w.le_seen⟩
  have kept := kept_le_one 1
  calc (upper.toNat : ℚ) / 255 * (1 - ulp) ^ 2 = upper.toNat / 255 * (1 - ulp) ^ 1 * (1 - ulp) ^ 1 := by
        ring
    _ ≤ a * (1 - ulp) ^ 1 := mul_le_mul_of_nonneg_right w.top_near.low (kept_pos 1).le
    _ ≤ a := mul_le_of_le_one_right w.top.nonneg kept
    _ ≤ a + b * t := le_add_of_nonneg_right w.seen_nonneg

/-- Under a fully transparent color the alpha stays. -/
theorem alpha_of_clear (clear : upper = 0) :
    nearestByte ((unit upper + unit lower * (1.0 - unit upper)) * 255.0) = lower := by
  obtain ⟨r, reads, near, size⟩ := w.approximates_byte
  have rest := w.rest_near
  rw [w.top_eq_zero clear, sub_zero] at rest
  have seen := w.bottom_near.mul rest (by positivity) zero_le_one w.bottom.nonneg w.rest.nonneg
  have whole := (seen.mul (.refl (by norm_num : (0 : ℚ) ≤ 255) 0) (by positivity) (by norm_num)
    w.seen_nonneg (by norm_num))
  rw [w.top_eq_zero clear, zero_add] at near
  have value : (lower.toNat : ℚ) / 255 * 1 * 255 = lower.toNat := by ring
  rw [value] at whole
  refine UInt8.le_antisymm (UInt8.le_iff_toNat_le.mpr ?_) w.le_alpha.2
  have all := (whole.trans near).mono (Nat.cast_nonneg _) (by decide : _ ≤ 16)
  exact nearestByte_le reads (size.mono (by decide)) (Nat.lt_succ_iff.mp lower.toNat_lt) all.high

/-- What is seen is computed as something. -/
theorem alpha_pos_iff :
    0.0 < unit upper + unit lower * (1.0 - unit upper) ↔ 0 < a + b * t := by
  obtain ⟨r, reads, near, -⟩ := w.approximates_alpha
  rw [reads_nothing.lt_iff reads]
  exact ⟨near.symm.pos, near.pos⟩

end Weights

/-! ### Colors -/

/-- A byte is one of two or between them. -/
def Between (m n k : UInt8) : Prop := m ≤ k ∧ k ≤ n ∨ n ≤ k ∧ k ≤ m

theorem Between.of_toNat {m n k : UInt8} (low : min m.toNat n.toNat ≤ k.toNat)
    (high : k.toNat ≤ max m.toNat n.toNat) : Between m n k := by
  simp only [Between, UInt8.le_iff_toNat_le]
  omega

theorem Between.left (m n : UInt8) : Between m n m := .of_toNat (min_le_left ..) (le_max_left ..)

theorem Between.right (m n : UInt8) : Between m n n := .of_toNat (min_le_right ..) (le_max_right ..)

section

variable {s d : UInt8} {top bottom : Rgba} {a b t : ℚ}

namespace Weights

theorem between_overChannel {upper lower : UInt8} (w : Weights upper lower a b t) (seen : 0 < a + b * t) :
    Between s d (overChannel s d (unit upper) (unit lower)
      (unit upper + unit lower * (1.0 - unit upper))) := by
  have most : max s.toNat d.toNat ≤ 255 := by
    have := s.toNat_lt
    have := d.toNat_lt
    omega
  have weighted : ∀ {m n k l : Nat}, m ≤ k → n ≤ l →
      (m : ℚ) * a + n * (b * t) ≤ k * a + l * (b * t) := fun left right =>
    add_le_add (mul_le_mul_of_nonneg_right (Nat.cast_le.mpr left) w.top.nonneg)
      (mul_le_mul_of_nonneg_right (Nat.cast_le.mpr right) w.seen_nonneg)
  obtain ⟨low, high⟩ := w.overChannel_between seen
    ((mul_add ..).trans_le (weighted (min_le_left ..) (min_le_right ..)))
    ((weighted (le_max_left ..) (le_max_right ..)).trans_eq (mul_add ..).symm) most
  exact .of_toNat low high

/-- A weighted mean that is a byte is computed as this byte. -/
theorem overChannel_eq {upper lower n : UInt8} (w : Weights upper lower a b t) (seen : 0 < a + b * t)
    (value : n.toNat * (a + b * t) = s.toNat * a + d.toNat * (b * t)) :
    overChannel s d (unit upper) (unit lower) (unit upper + unit lower * (1.0 - unit upper)) = n := by
  obtain ⟨low, high⟩ := w.overChannel_between seen value.le value.ge (Nat.lt_succ_iff.mp n.toNat_lt)
  exact UInt8.toNat_inj.mp (Nat.le_antisymm high low)

/-- Where nothing is seen of the lower color, the channel is that of the upper one. -/
theorem overChannel_eq_upper {upper lower : UInt8} (w : Weights upper lower a b t)
    (seen : 0 < a + b * t) (hidden : b * t = 0) :
    overChannel s d (unit upper) (unit lower) (unit upper + unit lower * (1.0 - unit upper)) = s :=
  w.overChannel_eq seen (by rw [hidden, mul_zero, add_zero, add_zero])

theorem overChannel_eq_lower {upper lower : UInt8} (w : Weights upper lower a b t)
    (seen : 0 < a + b * t) (hidden : a = 0) :
    overChannel s d (unit upper) (unit lower) (unit upper + unit lower * (1.0 - unit upper)) = d :=
  w.overChannel_eq seen (by rw [hidden, mul_zero, zero_add, zero_add])

theorem onto_eq (w : Weights top.a bottom.a a b t) (seen : 0 < a + b * t) :
    top.onto bottom =
      let alpha := unit top.a + unit bottom.a * (1.0 - unit top.a)
      { r := overChannel top.r bottom.r (unit top.a) (unit bottom.a) alpha
        g := overChannel top.g bottom.g (unit top.a) (unit bottom.a) alpha
        b := overChannel top.b bottom.b (unit top.a) (unit bottom.a) alpha
        a := nearestByte (alpha * 255.0) } :=
  if_pos (w.alpha_pos_iff.mpr seen)

end Weights

/-- A fully transparent color leaves what is below it, to the bit. -/
theorem onto_of_clear (clear : top.a = 0) : top.onto bottom = bottom := by
  obtain ⟨a, b, t, w⟩ := exists_weights top.a bottom.a
  have hidden := w.top_eq_zero clear
  by_cases below : bottom.a = 0
  · have none_seen : ¬0 < a + b * t := by
      rw [hidden, w.bottom_eq_zero below, zero_mul, add_zero]
      exact lt_irrefl 0
    exact if_neg (mt w.alpha_pos_iff.mp none_seen)
  · have seen := w.seen_pos (.inr below)
    rw [w.onto_eq seen]
    simp only [w.overChannel_eq_lower seen hidden, w.alpha_of_clear clear]

theorem le_alpha_onto (top bottom : Rgba) :
    top.a ≤ (top.onto bottom).a ∧ bottom.a ≤ (top.onto bottom).a := by
  obtain ⟨a, b, t, w⟩ := exists_weights top.a bottom.a
  by_cases clear : top.a = 0
  · rw [onto_of_clear clear, clear]
    exact ⟨UInt8.le_iff_toNat_le.mpr (Nat.zero_le _), UInt8.le_refl _⟩
  · rw [w.onto_eq (w.seen_pos (.inl clear))]
    exact w.le_alpha

/-- A color laid over a fully transparent one keeps its channels. -/
theorem onto_of_nothing (shown : top.a ≠ 0) (nothing : bottom.a = 0) :
    (top.onto bottom).r = top.r ∧ (top.onto bottom).g = top.g ∧ (top.onto bottom).b = top.b := by
  obtain ⟨a, b, t, w⟩ := exists_weights top.a bottom.a
  have seen := w.seen_pos (.inl shown)
  have hidden : b * t = 0 := by rw [w.bottom_eq_zero nothing, zero_mul]
  rw [w.onto_eq seen]
  exact ⟨w.overChannel_eq_upper seen hidden, w.overChannel_eq_upper seen hidden,
    w.overChannel_eq_upper seen hidden⟩

/-- An opaque color covers what is below it, to the bit. -/
theorem onto_of_isOpaque (covers : top.isOpaque = true) : top.onto bottom = top := by
  have full : top.a = 255 := beq_iff_eq.mp covers
  obtain ⟨a, b, t, w⟩ := exists_weights top.a bottom.a
  have hidden : b * t = 0 := by rw [w.rest_eq_zero full, mul_zero]
  have shown : top.a ≠ 0 := by
    rw [full]
    decide
  have seen := w.seen_pos (.inl shown)
  have alpha : nearestByte ((unit top.a + unit bottom.a * (1.0 - unit top.a)) * 255.0) = top.a := by
    refine UInt8.le_antisymm ?_ w.le_alpha.1
    rw [full]
    exact UInt8.le_iff_toNat_le.mpr (Nat.lt_succ_iff.mp (UInt8.toNat_lt _))
  rw [w.onto_eq seen]
  simp only [w.overChannel_eq_upper seen hidden, alpha]

theorem between_onto (top bottom : Rgba) :
    Between top.r bottom.r (top.onto bottom).r ∧ Between top.g bottom.g (top.onto bottom).g ∧
      Between top.b bottom.b (top.onto bottom).b := by
  by_cases clear : top.a = 0
  · rw [onto_of_clear clear]
    exact ⟨.right .., .right .., .right ..⟩
  · obtain ⟨a, b, t, w⟩ := exists_weights top.a bottom.a
    have seen := w.seen_pos (.inl clear)
    rw [w.onto_eq seen]
    exact ⟨w.between_overChannel seen, w.between_overChannel seen, w.between_overChannel seen⟩

end

end Rgba

end PointScope
