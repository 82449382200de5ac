import PointScope.Proofs.Frame.Clear
import Mathlib.Order.Bounds.Defs

/-! The layout of the buffer of a frame. Rows follow one another without a gap, each padded with
zeros to whole units of alignment; so the bytes of a frame are determined by its pixels. -/
namespace PointScope.Frame

variable {v : Viewport} {f g : Frame}

/-- The buffer of a frame of a size is laid out in padded rows. -/
structure LaidOut (v : Viewport) (f : Frame) : Prop where
  size : f.size = v
  stride : IsLeast {n | 64 ∣ n ∧ 4 * v.width.toNat ≤ n} f.stride
  length : f.bytes.size = f.stride * v.height.toNat
  padding : ∀ i < f.bytes.size, 4 * v.width.toNat ≤ i % f.stride → f.byte i = 0

/-- Rows are padded to the next unit of alignment and no further. -/
theorem isLeast_stride (f : Frame) :
    IsLeast {n | 64 ∣ n ∧ 4 * f.width.toNat ≤ n} f.stride := by
  rw [stride, rowStride_toNat]
  constructor
  · exact ⟨Nat.dvd_mul_left _ _, by omega⟩
  · rintro n ⟨⟨units, rfl⟩, wide⟩
    omega

theorem laidOut_of_new? (new : new? v.width v.height = .ok f) : f.LaidOut v := by
  have bytes := bytes_size_of_new? new
  have zeros := byte_of_new? new
  obtain rfl : f.size = v := size_of_new? new
  constructor
  · rfl
  · exact f.isLeast_stride
  · exact bytes
  · intro i _ _
    exact zeros i

/-- What changes neither the size nor the padding keeps the layout. -/
theorem LaidOut.of_alike (laid : f.LaidOut v) (alike : f.Alike g) : g.LaidOut v where
  size := alike.size.trans laid.size
  stride := alike.stride ▸ laid.stride
  length := by rw [alike.bytes, alike.stride, laid.length]
  padding i bound behind := by
    cases laid.size
    rw [alike.bytes] at bound
    rw [alike.stride] at behind
    rw [alike.padding i behind, laid.padding i bound behind]

/-- Every byte of the buffer belongs to the pixel of its row and column, or is padding. -/
theorem LaidOut.byte_cases (laid : f.LaidOut v) {i : Nat} (bound : i < f.bytes.size) :
    4 * v.width.toNat ≤ i % f.stride ∨
      ∃ x y, (x < v.width.toNat ∧ y < v.height.toNat) ∧
        ∃ channel < 4, i = f.offset x y + channel := by
  rcases Nat.lt_or_ge (i % f.stride) (4 * v.width.toNat) with inside | behind
  · right
    have split := Nat.div_add_mod' i f.stride
    rw [laid.length] at bound
    refine ⟨i % f.stride / 4, i / f.stride, ⟨by omega, Nat.div_lt_of_lt_mul bound⟩, ?_⟩
    exact ⟨i % f.stride % 4, by omega, by rw [offset]; omega⟩
  · left
    exact behind

theorem byte_eq_of_colorAt {i channel : Nat} (same : f.colorAt i = g.colorAt i)
    (small : channel < 4) : f.byte (i + channel) = g.byte (i + channel) := by
  simp only [colorAt] at same
  obtain ⟨red, green, blue, alpha⟩ := Rgba.mk.inj same
  obtain rfl | rfl | rfl | rfl : channel = 0 ∨ channel = 1 ∨ channel = 2 ∨ channel = 3 := by omega
  · exact red
  · exact green
  · exact blue
  · exact alpha

/-- Frames of one layout have the same bytes if and only if they show the same. -/
theorem LaidOut.bytes_eq_iff (laid : f.LaidOut v) (laid' : g.LaidOut v) :
    f.bytes = g.bytes ↔ ∀ x y, f.pixel? x y = g.pixel? x y := by
  obtain ⟨width, height, bytes⟩ := f
  obtain ⟨width', height', bytes'⟩ := g
  cases laid.size
  cases laid'.size
  constructor
  · rintro (rfl : bytes = bytes') x y
    rfl
  · intro same
    have size : bytes.size = bytes'.size := laid.length.trans laid'.length.symm
    refine eq_of_byteOf size fun i bound => ?_
    rcases laid.byte_cases (size ▸ bound) with behind | ⟨x, y, inside, channel, small, rfl⟩
    · have zero := laid.padding i (size ▸ bound) behind
      have zero' := laid'.padding i bound behind
      exact zero.trans zero'.symm
    · have here : x < width.toNat ∧ y < height.toNat := inside
      have pixel := same x y
      simp only [pixel?] at pixel
      rw [if_pos here, if_pos here, Option.some.injEq] at pixel
      exact byte_eq_of_colorAt pixel small

end PointScope.Frame
