import PointScope.Terminal.Preview
import PointScope.Proofs.Frame.Access
import Mathlib.Algebra.Group.Nat.Defs

/-! Cells of a preview. The columns of cells are never more than those of pixels, so they divide these
without a gap and without an overlap. The rows of cells can be one more than those of pixels, where a line
of text has two of them; then the first row of pixels counts twice, and every other row still once. -/
namespace PointScope.Terminal

variable {s : Settings} {f : Frame} {i n length x : Nat}

/-! ### Spans -/

/-- A pixel belongs to a cell along one axis. -/
def InCell (i n length x : Nat) : Prop :=
  (cellSpan i n length).1 ≤ x ∧ x < (cellSpan i n length).2

theorem cellSpan_snd_le (i n length : Nat) : (cellSpan i n length).2 ≤ length := Nat.min_le_right _ _

theorem begin_lt (some_ : 0 < length) (cell : i < n) : i * length / n < length := by
  rw [Nat.div_lt_iff_lt_mul (Nat.zero_lt_of_lt cell), Nat.mul_comm length]
  exact Nat.mul_lt_mul_of_pos_right cell some_

theorem end_le (length : Nat) (cell : i < n) : (i + 1) * length / n ≤ length :=
  Nat.div_le_of_le_mul (Nat.mul_le_mul_right length cell)

/-- A cell begins inside the frame and so has a pixel, however many cells there are. -/
theorem cellSpan_lt (some_ : 0 < length) (cell : i < n) :
    (cellSpan i n length).1 < (cellSpan i n length).2 := by
  have begins := begin_lt some_ cell
  simp only [cellSpan]
  omega

/-- Of cells that are not more than the pixels, a pixel belongs to the one that its own end falls to. -/
theorem inCell_iff (few : n ≤ length) (cell : i < n) :
    InCell i n length x ↔ ((x + 1) * n - 1) / length = i := by
  have cells : 0 < n := Nat.zero_lt_of_lt cell
  have next : (i + 1) * length = i * length + length := Nat.succ_mul i length
  have wide : i * length / n + 1 ≤ (i + 1) * length / n := by
    rw [← Nat.add_div_right _ cells, next]
    exact Nat.div_le_div_right (by omega)
  -- With a pixel or more for each cell neither the least width nor the clip changes anything.
  have span : cellSpan i n length = (i * length / n, (i + 1) * length / n) := by
    simp only [cellSpan, Nat.max_eq_left wide, Nat.min_eq_left (end_le length cell)]
  have begins : i * length / n ≤ x ↔ i * length < (x + 1) * n := by
    rw [← Nat.lt_succ_iff, Nat.div_lt_iff_lt_mul cells]
  have ends : x < (i + 1) * length / n ↔ (x + 1) * n ≤ i * length + length := by
    rw [← next]
    exact Nat.le_div_iff_mul_le cells
  have positive : 0 < (x + 1) * n := Nat.mul_pos (by omega) cells
  rw [InCell, span, begins, ends, Nat.div_eq_iff (by omega)]
  omega

/-- Cells that are not more than the pixels share these out. -/
theorem existsUnique_cell (few : n ≤ length) (cells : 0 < n) (inside : x < length) :
    ∃! i, i < n ∧ InCell i n length x := by
  have index : ((x + 1) * n - 1) / length < n := by
    have last : (x + 1) * n ≤ length * n := Nat.mul_le_mul_right n inside
    have positive : 0 < (x + 1) * n := Nat.mul_pos (by omega) cells
    rw [Nat.div_lt_iff_lt_mul (by omega), Nat.mul_comm n]
    omega
  refine ⟨_, ⟨index, (inCell_iff few index).mpr rfl⟩, ?_⟩
  rintro i ⟨cell, within⟩
  exact ((inCell_iff few cell).mp within).symm

/-- With one cell more than there are pixels, every cell is the pixel before it, and the first cell, which
has none before it, is the first pixel too. -/
theorem inCell_succ_iff (some_ : 0 < length) (cell : i < length + 1) :
    InCell i (length + 1) length x ↔ x = i - 1 := by
  have begins : i * length / (length + 1) = i - 1 := by
    rw [Nat.div_eq_iff (by omega)]
    rcases i with _ | i
    · omega
    · rw [Nat.add_sub_cancel, Nat.add_one_mul, Nat.mul_add_one]
      omega
  have ends : (i + 1) * length / (length + 1) = i := by
    rw [Nat.div_eq_iff (by omega), Nat.add_one_mul, Nat.mul_add_one]
    omega
  simp only [InCell, cellSpan, begins, ends]
  omega

theorem existsUnique_cell_succ (later : 0 < x) (inside : x < length) :
    ∃! i, i < length + 1 ∧ InCell i (length + 1) length x := by
  have some_ : 0 < length := Nat.zero_lt_of_lt inside
  refine ⟨x + 1, ⟨by omega, (inCell_succ_iff some_ (by omega)).mpr rfl⟩, ?_⟩
  rintro i ⟨cell, within⟩
  have before := (inCell_succ_iff some_ cell).mp within
  omega

/-! ### Grids -/

theorem toNat_pos {w : UInt32} (some_ : w ≠ 0) : 0 < w.toNat :=
  Nat.pos_of_ne_zero fun zero => some_ (UInt32.toNat_inj.mp (zero.trans UInt32.toNat_zero.symm))

/-- The rows of cells of a preview. -/
def cellRows (s : Settings) (f : Frame) : Nat := (gridSize s f).lines * s.mode.rowsPerLine

theorem columns_bounds (wide : 0 < f.width.toNat) :
    1 ≤ (gridSize s f).columns ∧ (gridSize s f).columns ≤ f.width.toNat ∧
      (gridSize s f).columns ≤ max s.columns 1 := by
  simp only [gridSize]
  omega

theorem rowsPerLine_cases (m : Mode) :
    (m = .ascii ∧ m.rowsPerLine = 1) ∨ (m = .halfBlock ∧ m.rowsPerLine = 2) := by
  cases m
  · left
    exact ⟨rfl, rfl⟩
  · right
    exact ⟨rfl, rfl⟩

theorem lines_bounds (tall : 0 < f.height.toNat) :
    1 ≤ (gridSize s f).lines ∧
      ((gridSize s f).lines - 1) * s.mode.rowsPerLine < f.height.toNat := by
  simp only [gridSize]
  rcases rowsPerLine_cases s.mode with ⟨_, single⟩ | ⟨_, double⟩
  · rw [single]
    omega
  · rw [double]
    omega

theorem gridSize_square (width : f.width = 3) (height : f.height = 3) : gridSize {} f = ⟨3, 2⟩ := by
  simp only [gridSize, width, height]
  decide +kernel

/-- There are at most as many rows of cells as of pixels, or one more if a line of text has two and the
rows of pixels are odd. -/
theorem cellRows_cases (tall : 0 < f.height.toNat) :
    0 < cellRows s f ∧ (cellRows s f ≤ f.height.toNat ∨
      cellRows s f = f.height.toNat + 1 ∧ f.height.toNat % 2 = 1 ∧ s.mode = .halfBlock) := by
  have bounds := lines_bounds (s := s) tall
  rw [cellRows]
  rcases rowsPerLine_cases s.mode with ⟨_, single⟩ | ⟨half, double⟩
  · rw [single] at bounds ⊢
    omega
  · rw [double] at bounds ⊢
    simp only [half, and_true]
    omega

/-- The rows of cells are words even where there is one more of them than of pixels. -/
theorem cellRows_lt (tall : 0 < f.height.toNat) (short : f.height < 4294967295) :
    cellRows s f < 2 ^ 32 := by
  have few : f.height.toNat < 4294967295 := UInt32.lt_iff_toNat_lt.mp short
  rcases (cellRows_cases (s := s) tall).2 with fits | ⟨more, _⟩
  all_goals omega

/-- No pixel is left out, whether or not there is a row of cells too many. -/
theorem exists_cellRow (inside : x < f.height.toNat) :
    ∃ row < cellRows s f, InCell row (cellRows s f) f.height.toNat x := by
  have some_ : 0 < f.height.toNat := Nat.zero_lt_of_lt inside
  obtain ⟨rows, fits | ⟨more, _⟩⟩ := cellRows_cases (s := s) some_
  · exact (existsUnique_cell fits rows inside).exists
  · rw [more]
    exact ⟨x + 1, by omega, (inCell_succ_iff some_ (by omega)).mpr rfl⟩

end PointScope.Terminal
