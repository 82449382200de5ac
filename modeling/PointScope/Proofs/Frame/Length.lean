import PointScope.Proofs.Frame.Access

/-! The length of a buffer. It is computed in words of 64 bits, and no frame comes of a computation that
overflows. So the buffer of a frame is exactly as long as its rows and no access to a pixel fails; but
there are sizes without an empty side that have no frame. -/
namespace PointScope.Frame

variable {width height : UInt32} {f : Frame}

/-- Reads the color of a pixel; outside the frame there is none. -/
def get? (f : Frame) (x y : Nat) : Option (Option Rgba) :=
  if x < f.width.toNat ∧ y < f.height.toNat then (f.colorAt? (f.offset x y)).map some else some none

theorem get?_eq_some (whole : f.Whole) (x y : Nat) : f.get? x y = some (f.pixel? x y) := by
  simp only [get?, pixel?]
  split
  · rename_i inside
    rw [colorAt?, if_pos (whole.holds inside.1 inside.2).2.2]
    rfl
  · rfl

/-- The first byte of a pixel as it is computed in words. -/
def index (f : Frame) (x y : UInt32) : UInt64 :=
  y.toUInt64 * rowStride f.width + 4 * x.toUInt64

theorem index_toNat (f : Frame) (x y : UInt32) :
    (f.index x y).toNat = f.offset x.toNat y.toNat % UInt64.size := by
  rw [index, UInt64.toNat_add, UInt64.toNat_mul, UInt64.toNat_mul, UInt32.toNat_toUInt64,
    UInt32.toNat_toUInt64]
  exact (Nat.add_mod ..).symm

/-- The buffer is as long as all rows together, so every pixel has its bytes in it, where they are looked
for, and no access to a pixel fails. -/
structure Exact (f : Frame) : Prop where
  length : f.bytes.size = f.stride * f.height.toNat
  inside : ∀ x y, x < f.width.toNat → y < f.height.toNat → f.offset x y + 4 ≤ f.bytes.size
  place : ∀ x y : UInt32, x < f.width → y < f.height → (f.index x y).toNat = f.offset x.toNat y.toNat
  get : ∀ x y, f.get? x y = some (f.pixel? x y)
  set : ∀ x y c, f.set? x y c = some (f.set x y c)
  plot : ∀ p c, f.plot? p c = some (f.plot p c)

theorem Whole.exact (whole : f.Whole) (word : f.bytes.size < UInt64.size) : f.Exact where
  length := whole
  inside x y hx hy := (whole.holds hx hy).2.2
  place x y hx hy := by
    have held := (whole.holds (UInt32.lt_iff_toNat_lt.mp hx) (UInt32.lt_iff_toNat_lt.mp hy)).2.2
    rw [index_toNat, Nat.mod_eq_of_lt (by omega)]
  get := get?_eq_some whole
  set := set?_eq_some whole
  plot := plot?_eq_some whole

/-! ### New frames -/

theorem exact_of_new? (new : new? width height = .ok f) : f.Exact := by
  have whole : f.Whole := bytes_size_of_new? new
  have made := allocatable_of_new? new
  cases size_of_new? new
  exact whole.exact (whole ▸ made.fits)

/-- A size with an empty side is refused. Of any other there is a frame, with all pixels in their places in
a buffer of the length of the rows, unless the rows are longer than any buffer; then the program stops. -/
theorem new?_exact_iff (width height : UInt32) :
    (∀ size, new? width height = .error (.empty size) ↔
      (width = 0 ∨ height = 0) ∧ size = ⟨width, height⟩) ∧
    (new? width height = .error .stopped ↔
      (width ≠ 0 ∧ height ≠ 0) ∧
        greatestCapacity < (rowStride width).toNat * height.toNat + 64) ∧
    ((∃ f, new? width height = .ok f) ↔ Allocatable width height) ∧
    ∀ f, new? width height = .ok f →
      f.size = ⟨width, height⟩ ∧ IsLeast {n | 64 ∣ n ∧ 4 * width.toNat ≤ n} f.stride ∧ f.Exact := by
  refine ⟨fun _ => new?_eq_empty_iff, new?_eq_stopped_iff, exists_new?_iff, ?_⟩
  intro f new
  refine ⟨size_of_new? new, ?_, exact_of_new? new⟩
  cases size_of_new? new
  exact f.isLeast_stride

/-- The rows of a square of `2 ^ 31` pixels on a side have as many bytes as there are words: there is neither
a frame of that size nor a refusal of it. -/
theorem new?_square_stopped :
    (rowStride 2147483648).toNat * (2147483648 : UInt32).toNat = UInt64.size ∧
      new? 2147483648 2147483648 = .error .stopped ∧
      ¬((∃ size, new? 2147483648 2147483648 = .error (.empty size)) ∨
        ∃ f, new? 2147483648 2147483648 = .ok f) := by
  have stopped : new? 2147483648 2147483648 = .error .stopped :=
    new?_eq_stopped_iff.mpr ⟨by decide, by decide⟩
  refine ⟨by decide, stopped, ?_⟩
  rw [stopped]
  rintro (⟨_, empty⟩ | ⟨_, made⟩)
  · cases empty
  · cases made

end PointScope.Frame
