import PointScope.Proofs.Frame.Length
import PointScope.Proofs.Terminal.Cells
import Mathlib.Algebra.Order.BigOperators.Group.List
import Mathlib.Algebra.Order.Round
import Mathlib.Data.Rat.Floor

/-! Colors of cells. Every cell of a preview has pixels, all of them in the frame. A cell has the mean color
of its pixels, rounded once for each channel from the exact sums, and so lies between two of them. -/
namespace PointScope.Terminal

variable {s : Settings} {f : Frame} {column columns row rows : Nat}

/-! ### Rounded means -/

def roundedMean (ns : List Nat) : Nat := (ns.sum + ns.length / 2) / ns.length

variable {ns : List Nat}

/-- Adding half the divisor rounds the exact quotient to the nearest number, and halves up. -/
theorem roundedMean_eq_round (some_ : ns ≠ []) :
    (roundedMean ns : ℤ) = round ((ns.sum : ℚ) / ns.length) := by
  have count : (ns.length : ℚ) ≠ 0 := Nat.cast_ne_zero.mpr (List.length_pos_iff.mpr some_).ne'
  have half : (ns.sum : ℚ) / ns.length + 1 / 2 =
      (2 * ns.sum + ns.length : Nat) / (2 * ns.length : Nat) := by
    push_cast
    field_simp
  have halved : (2 * ns.sum + ns.length) / 2 = ns.sum + ns.length / 2 := by omega
  rw [round_eq, half, Rat.floor_natCast_div_natCast, ← Int.natCast_div, ← Nat.div_div_eq_div_mul, halved,
    roundedMean]

theorem exists_le_roundedMean (some_ : ns ≠ []) : ∃ n ∈ ns, n ≤ roundedMean ns := by
  by_contra above
  push Not at above
  have sum := List.card_nsmul_le_sum ns (roundedMean ns + 1) above
  have next : roundedMean ns + 1 ≤ roundedMean ns := by
    rw [roundedMean, Nat.le_div_iff_mul_le (List.length_pos_iff.mpr some_), ← roundedMean, Nat.mul_comm]
    exact Nat.le_add_right_of_le sum
  omega

theorem exists_roundedMean_le (some_ : ns ≠ []) : ∃ n ∈ ns, roundedMean ns ≤ n := by
  by_contra below
  push Not at below
  have count := List.length_pos_iff.mpr some_
  have quotient : roundedMean ns * ns.length ≤ ns.sum + ns.length / 2 := Nat.div_mul_le_self _ _
  obtain ⟨n, mem⟩ := List.exists_mem_of_ne_nil ns some_
  obtain ⟨m, mean⟩ := Nat.exists_eq_succ_of_ne_zero (Nat.ne_zero_of_lt (below n mem))
  rw [mean] at below quotient
  have sum : ns.sum ≤ ns.length * m :=
    List.sum_le_card_nsmul ns m fun n mem => Nat.le_of_lt_succ (below n mem)
  rw [Nat.mul_comm] at sum
  rw [Nat.succ_mul] at quotient
  omega

/-! ### Mean colors -/

/-- The mean color of some colors, without their alphas: each channel is the mean of theirs, rounded to
the nearest with halves up, and lies between two of them. -/
structure IsMean (colors : List Rgba) (mean : Rgba) : Prop where
  exact : ∀ channel ∈ [Rgba.r, Rgba.g, Rgba.b], ((channel mean).toNat : ℤ) =
    round (((colors.map fun c => (channel c).toNat).sum : ℚ) / colors.length)
  between : ∀ channel ∈ [Rgba.r, Rgba.g, Rgba.b], ∃ low ∈ colors, ∃ high ∈ colors,
    channel low ≤ channel mean ∧ channel mean ≤ channel high
  covers : mean.isOpaque = true

theorem foldl_add (colors : List Rgba) (sums : Sums) :
    colors.foldl Sums.add sums =
      { r := sums.r + (colors.map fun c => c.r.toNat).sum
        g := sums.g + (colors.map fun c => c.g.toNat).sum
        b := sums.b + (colors.map fun c => c.b.toNat).sum
        count := sums.count + colors.length } := by
  induction colors generalizing sums with
  | nil => rfl
  | cons c colors ih =>
    rw [List.foldl_cons, ih]
    simp only [Sums.add, List.map_cons, List.sum_cons, List.length_cons, Nat.add_assoc, Nat.add_comm 1]

def channelMean (colors : List Rgba) (channel : Rgba → UInt8) : UInt8 :=
  (roundedMean (colors.map fun c => (channel c).toNat)).toUInt8

def meanColor (colors : List Rgba) : Rgba :=
  .rgb (channelMean colors Rgba.r) (channelMean colors Rgba.g) (channelMean colors Rgba.b)

section

variable {colors : List Rgba} (some_ : colors ≠ [])

include some_

theorem mean?_foldl_add : (colors.foldl Sums.add {}).mean? = some (meanColor colors) := by
  have count : colors.length ≠ 0 := mt List.length_eq_zero_iff.mp some_
  rw [foldl_add, Sums.mean?]
  simp only [Nat.zero_add, if_neg count, meanColor, channelMean, roundedMean, List.length_map]

theorem numbers_ne_nil (channel : Rgba → UInt8) : (colors.map fun c => (channel c).toNat) ≠ [] :=
  mt List.map_eq_nil_iff.mp some_

/-- A mean is not above all of the bytes it is made from, so nothing is cut from it. -/
theorem roundedMean_lt (channel : Rgba → UInt8) :
    roundedMean (colors.map fun c => (channel c).toNat) < 256 := by
  obtain ⟨_, mem, greatest⟩ := exists_roundedMean_le (numbers_ne_nil some_ channel)
  obtain ⟨high, _, rfl⟩ := List.mem_map.mp mem
  exact Nat.lt_of_le_of_lt greatest (channel high).toNat_lt

theorem toNat_channelMean (channel : Rgba → UInt8) :
    (channelMean colors channel).toNat = roundedMean (colors.map fun c => (channel c).toNat) := by
  rw [channelMean, UInt8.toNat_ofNat', Nat.mod_eq_of_lt (roundedMean_lt some_ channel)]

theorem channelMean_eq_round (channel : Rgba → UInt8) :
    ((channelMean colors channel).toNat : ℤ) =
      round (((colors.map fun c => (channel c).toNat).sum : ℚ) / colors.length) := by
  rw [toNat_channelMean some_, roundedMean_eq_round (numbers_ne_nil some_ channel), List.length_map]

theorem channelMean_between (channel : Rgba → UInt8) :
    ∃ low ∈ colors, ∃ high ∈ colors,
      channel low ≤ channelMean colors channel ∧ channelMean colors channel ≤ channel high := by
  obtain ⟨_, mem, least⟩ := exists_le_roundedMean (numbers_ne_nil some_ channel)
  obtain ⟨_, mem', greatest⟩ := exists_roundedMean_le (numbers_ne_nil some_ channel)
  obtain ⟨low, at_low, rfl⟩ := List.mem_map.mp mem
  obtain ⟨high, at_high, rfl⟩ := List.mem_map.mp mem'
  refine ⟨low, at_low, high, at_high, ?_⟩
  rw [UInt8.le_iff_toNat_le, UInt8.le_iff_toNat_le, toNat_channelMean some_]
  exact ⟨least, greatest⟩

theorem isMean_meanColor : IsMean colors (meanColor colors) := by
  constructor
  · simp only [List.forall_mem_cons]
    exact ⟨channelMean_eq_round some_ _, channelMean_eq_round some_ _, channelMean_eq_round some_ _,
      List.forall_mem_nil _⟩
  · simp only [List.forall_mem_cons]
    exact ⟨channelMean_between some_ _, channelMean_between some_ _, channelMean_between some_ _,
      List.forall_mem_nil _⟩
  · rfl

end

/-! ### Cells -/

/-- The positions of the pixels of a cell. -/
def cellBlock (f : Frame) (column columns row rows : Nat) : List (Nat × Nat) :=
  block (cellSpan column columns f.width.toNat) (cellSpan row rows f.height.toNat)

def cellColors (f : Frame) (column columns row rows : Nat) : List Rgba :=
  (cellBlock f column columns row rows).map fun p => f.colorAt (f.offset p.1 p.2)

theorem mem_cellBlock {p : Nat × Nat} :
    p ∈ cellBlock f column columns row rows ↔
      InCell column columns f.width.toNat p.1 ∧ InCell row rows f.height.toNat p.2 := by
  obtain ⟨x, y⟩ := p
  simp only [cellBlock, block, InCell, List.mem_flatMap, List.mem_map, List.mem_range'_1, Prod.mk.injEq]
  constructor
  · rintro ⟨y, tall, x, wide, rfl, rfl⟩
    omega
  · rintro ⟨wide, tall⟩
    exact ⟨y, by omega, x, by omega, rfl, rfl⟩

theorem lt_of_mem_cellBlock {p : Nat × Nat} (mem : p ∈ cellBlock f column columns row rows) :
    p.1 < f.width.toNat ∧ p.2 < f.height.toNat := by
  obtain ⟨wide, tall⟩ := mem_cellBlock.mp mem
  exact ⟨Nat.lt_of_lt_of_le wide.2 (cellSpan_snd_le ..), Nat.lt_of_lt_of_le tall.2 (cellSpan_snd_le ..)⟩

theorem cellBlock_ne_nil (wide : 0 < f.width.toNat) (tall : 0 < f.height.toNat) (at_column : column < columns)
    (at_row : row < rows) : cellBlock f column columns row rows ≠ [] := by
  have corner : ((cellSpan column columns f.width.toNat).1, (cellSpan row rows f.height.toNat).1) ∈
      cellBlock f column columns row rows :=
    mem_cellBlock.mpr
      ⟨⟨Nat.le_refl _, cellSpan_lt wide at_column⟩, Nat.le_refl _, cellSpan_lt tall at_row⟩
  exact List.ne_nil_of_mem corner

/-- Every pixel of a cell counts in its mean. -/
theorem map_pixel?_cellBlock :
    (cellBlock f column columns row rows).map (fun p => f.pixel? p.1 p.2) =
      (cellColors f column columns row rows).map some := by
  rw [cellColors, List.map_map]
  refine List.map_congr_left fun p mem => ?_
  rw [Frame.pixel?, if_pos (lt_of_mem_cellBlock mem)]
  rfl

theorem cellMean?_eq :
    cellMean? f column columns row rows =
      ((cellColors f column columns row rows).foldl Sums.add {}).mean? := by
  rw [cellColors, List.foldl_map]
  refine congrArg Sums.mean? (List.foldl_ext _ _ _ fun sums p mem => ?_)
  obtain ⟨x, y⟩ := p
  simp only [Frame.pixel?, if_pos (lt_of_mem_cellBlock mem), Option.map_some, Option.getD_some]

theorem cellMean?_eq_some (some_ : cellColors f column columns row rows ≠ []) :
    cellMean? f column columns row rows = some (meanColor (cellColors f column columns row rows)) := by
  rw [cellMean?_eq, mean?_foldl_add some_]

theorem cellColor_eq (some_ : cellColors f column columns row rows ≠ []) :
    cellColor s f column columns row rows =
      if s.invert then inverted (meanColor (cellColors f column columns row rows))
      else meanColor (cellColors f column columns row rows) := by
  rw [cellColor, cellMean?_eq_some some_]

end PointScope.Terminal
