import PointScope.Frame.Basic
import Mathlib.Data.List.Count
import Mathlib.Logic.Function.Iterate

/-! What drawing does to a frame, pixel by pixel. A pixel is held by a frame if the buffer has its
four bytes; a new frame holds all of its pixels, and there is one of every size that a buffer has room for.
Plotting changes a held pixel once for every time it is plotted, and no other pixel. -/
namespace PointScope

/-- What a color makes of the color underneath. -/
def Rgba.covering (c under : Rgba) : Rgba := if c.isOpaque then c else c.onto under

theorem Rgba.covering_of_isOpaque {c : Rgba} (h : c.isOpaque = true) (under : Rgba) :
    c.covering under = c := by
  rw [covering, if_pos h]

/-- An opaque color laid over a pixel any number of times leaves itself. -/
theorem Rgba.iterate_covering_of_isOpaque {c : Rgba} (h : c.isOpaque = true) (n : Nat) (under : Rgba) :
    c.covering^[n + 1] under = c := by
  rw [Function.iterate_succ_apply', covering_of_isOpaque h]

theorem Rgba.covering_of_not_isOpaque {c : Rgba} (h : c.isOpaque = false) : c.covering = c.onto := by
  funext under
  rw [covering, h, if_neg Bool.false_ne_true]

theorem rowStride_toNat (width : UInt32) :
    (rowStride width).toNat = (4 * width.toNat + 63) / 64 * 64 := by
  have bound := width.toNat_lt
  simp only [rowStride, rowAlignment, UInt64.toNat_mul, UInt64.toNat_div, UInt64.toNat_add,
    UInt64.toNat_sub, UInt32.toNat_toUInt64, UInt64.toNat_ofNat, Nat.reducePow, Nat.reduceMod,
    Nat.reduceSub, Nat.reduceAdd]
  omega

namespace Frame

variable {f : Frame} {x y : Nat} {c : Rgba}

theorem rowBytes_le_stride (f : Frame) : f.rowBytes ≤ f.stride := by
  rw [rowBytes, stride, rowStride_toNat]
  omega

/-- The frame has the pixel, with all of its bytes. -/
def Holds (f : Frame) (x y : Nat) : Prop :=
  x < f.width.toNat ∧ y < f.height.toNat ∧ f.offset x y + 4 ≤ f.bytes.size

/-- Frames of the same size, down to the bytes, with the same bytes behind the pixels of each row. -/
structure Alike (f g : Frame) : Prop where
  width : g.width = f.width
  height : g.height = f.height
  bytes : g.bytes.size = f.bytes.size
  padding : ∀ i, f.rowBytes ≤ i % f.stride → g.byte i = f.byte i

theorem Alike.refl (f : Frame) : f.Alike f := ⟨rfl, rfl, rfl, fun _ _ => rfl⟩

theorem Alike.rowBytes {g : Frame} (h : f.Alike g) : g.rowBytes = f.rowBytes := by
  rw [Frame.rowBytes, Frame.rowBytes, h.width]

theorem Alike.stride {g : Frame} (h : f.Alike g) : g.stride = f.stride := by
  rw [Frame.stride, Frame.stride, h.width]

theorem Alike.trans {g h : Frame} (fg : f.Alike g) (gh : g.Alike h) : f.Alike h where
  width := gh.width.trans fg.width
  height := gh.height.trans fg.height
  bytes := gh.bytes.trans fg.bytes
  padding i behind := by
    rw [gh.padding i (by rwa [fg.rowBytes, fg.stride]), fg.padding i behind]

theorem Alike.foldl {step : Frame → α → Frame} (h : ∀ (f : Frame) a, f.Alike (step f a)) (as : List α)
    (f : Frame) : f.Alike (as.foldl step f) := by
  induction as generalizing f with
  | nil => exact .refl f
  | cons a as ih => exact (h f a).trans (ih (step f a))

/-- Steps that are the same on all frames of a size make the same of a frame. -/
theorem Alike.foldl_congr {step step' : Frame → α → Frame} {as : List α}
    (alike : ∀ (g : Frame) a, g.Alike (step g a))
    (same : ∀ g, f.Alike g → ∀ a ∈ as, step' g a = step g a) : as.foldl step' f = as.foldl step f := by
  induction as generalizing f with
  | nil => rfl
  | cons a as ih =>
    rw [List.foldl_cons, List.foldl_cons, same f (.refl f) a List.mem_cons_self]
    exact ih fun g alike_g b mem => same g ((alike f a).trans alike_g) b (List.mem_cons_of_mem a mem)

theorem Alike.offset {g : Frame} (h : f.Alike g) (x y : Nat) : g.offset x y = f.offset x y := by
  rw [Frame.offset, Frame.offset, h.stride]

theorem Alike.holds {g : Frame} (h : f.Alike g) : g.Holds x y ↔ f.Holds x y := by
  rw [Holds, Holds, h.width, h.height, h.bytes, h.offset]

theorem Alike.size {g : Frame} (h : f.Alike g) : g.size = f.size := by
  rw [Frame.size, Frame.size, h.width, h.height]

theorem Alike.contains {g : Frame} (h : f.Alike g) (p : Pixel) : g.contains p = f.contains p := by
  rw [Frame.contains, Frame.contains, h.size]

/-! ### Bytes -/

theorem size_putByte (bytes : ByteArray) (i : Nat) (v : UInt8) :
    (putByte bytes i v).size = bytes.size := by
  simp only [putByte]
  split
  · exact Array.size_set ..
  · rfl

theorem byte_putByte (bytes : ByteArray) (i j : Nat) (v : UInt8) :
    ({ f with bytes := putByte bytes i v }).byte j =
      if i = j ∧ j < bytes.size then v else ({ f with bytes }).byte j := by
  simp only [byte, size_putByte]
  by_cases bound : j < bytes.size
  · simp only [bound, dif_pos, and_true]
    simp only [putByte]
    split
    · exact Array.getElem_set ..
    · rw [if_neg (by omega)]
  · simp only [bound, dif_neg, and_false, if_false, not_false_iff]

theorem size_putColor (bytes : ByteArray) (i : Nat) (c : Rgba) :
    (putColor bytes i c).size = bytes.size := by
  simp only [putColor, size_putByte]

/-- Writing a color changes no byte that lies apart from its four. -/
theorem colorAt_putColor_of_apart {i j : Nat} (f : Frame) (c : Rgba) (apart : i + 4 ≤ j ∨ j + 4 ≤ i) :
    ({ f with bytes := putColor f.bytes i c }).colorAt j = f.colorAt j := by
  simp only [colorAt, putColor, byte_putByte]
  simp (disch := omega) only [if_neg]

/-- Reading back the four bytes just written, or any that lie apart from them. -/
theorem colorAt_putColor {i j : Nat} (f : Frame) (fits : j + 4 ≤ f.bytes.size)
    (apart : i = j ∨ i + 4 ≤ j ∨ j + 4 ≤ i) :
    ({ f with bytes := putColor f.bytes i c }).colorAt j = if i = j then c else f.colorAt j := by
  by_cases same : i = j
  · subst same
    rw [if_pos rfl]
    simp only [colorAt, putColor, byte_putByte, size_putByte]
    simp (disch := omega) only [true_and, if_pos, if_neg]
  · rw [if_neg same, colorAt_putColor_of_apart f c (apart.resolve_left same)]

/-- Two pixels of a frame have no byte in common. -/
theorem offset_apart {x' y' : Nat} (f : Frame) (hx : x < f.width.toNat) (hx' : x' < f.width.toNat)
    (different : ¬(x' = x ∧ y' = y)) :
    f.offset x' y' + 4 ≤ f.offset x y ∨ f.offset x y + 4 ≤ f.offset x' y' := by
  have row := f.rowBytes_le_stride
  simp only [rowBytes] at row
  simp only [offset]
  rcases Nat.lt_trichotomy y' y with below | rfl | above
  · left
    have := Nat.mul_le_mul_right f.stride (Nat.succ_le_of_lt below)
    rw [Nat.succ_mul] at this
    omega
  · omega
  · right
    have := Nat.mul_le_mul_right f.stride (Nat.succ_le_of_lt above)
    rw [Nat.succ_mul] at this
    omega

/-! ### Single pixels -/

/-- Writes a color to a pixel of the frame. -/
def write (f : Frame) (x y : Nat) (c : Rgba) : Frame :=
  { f with bytes := putColor f.bytes (f.offset x y) c }

/-- The bytes of a pixel are none of those behind the pixels of its row. -/
theorem alike_write (inside : x < f.width.toNat) (y : Nat) (c : Rgba) :
    f.Alike (f.write x y c) := by
  constructor
  · simp only [write]
  · simp only [write]
  · simp only [write, size_putColor]
  · intro i behind
    have row := f.rowBytes_le_stride
    simp only [rowBytes] at row behind
    -- The pixel's bytes lie before the padding of its own row.
    have apart : ∀ d < 4, f.offset x y + d ≠ i := by
      rintro d small rfl
      rw [offset, Nat.add_assoc, Nat.mul_add_mod', Nat.mod_eq_of_lt (by omega)] at behind
      omega
    have first : f.offset x y ≠ i := apart 0 (by decide)
    simp only [write, putColor, byte_putByte]
    rw [if_neg fun h => apart 3 (by decide) h.1, if_neg fun h => apart 2 (by decide) h.1,
      if_neg fun h => apart 1 (by decide) h.1, if_neg fun h => first h.1]

theorem pixel?_write_of_ne {x' y' : Nat} (inside : x' < f.width.toNat) (c : Rgba)
    (other : ¬(x' = x ∧ y' = y)) : (f.write x' y' c).pixel? x y = f.pixel? x y := by
  have alike := alike_write (y := y') inside c
  rw [pixel?, pixel?, alike.width, alike.height, alike.offset, write]
  split
  · rename_i here
    rw [colorAt_putColor_of_apart f c (f.offset_apart here.1 inside other)]
  · rfl

theorem pixel?_write {x' y' : Nat} (held : f.Holds x y) (inside : x' < f.width.toNat) :
    (f.write x' y' c).pixel? x y = if x' = x ∧ y' = y then some c else f.pixel? x y := by
  by_cases at_pixel : x' = x ∧ y' = y
  · obtain ⟨rfl, rfl⟩ := at_pixel
    have alike := alike_write (y := y') inside c
    rw [pixel?, alike.width, alike.height, if_pos ⟨held.1, held.2.1⟩, alike.offset, write,
      colorAt_putColor f held.2.2 (Or.inl rfl), if_pos rfl, if_pos ⟨rfl, rfl⟩]
  · rw [if_neg at_pixel, pixel?_write_of_ne inside c at_pixel]

theorem alike_set (f : Frame) (x y : Nat) (c : Rgba) : f.Alike (f.set x y c) := by
  simp only [set]
  split
  · exact alike_write (And.left ‹_›) y c
  · exact .refl f

theorem alike_blend (f : Frame) (x y : Nat) (c : Rgba) : f.Alike (f.blend x y c) := by
  simp only [blend]
  split
  · exact alike_write (And.left ‹_›) y _
  · exact .refl f

theorem pixel?_set {x' y' : Nat} (held : f.Holds x y) :
    (f.set x' y' c).pixel? x y = if x' = x ∧ y' = y then some c else f.pixel? x y := by
  simp only [set]
  split
  · exact pixel?_write held (And.left ‹_›)
  · rename_i outside
    rw [if_neg]
    rintro ⟨rfl, rfl⟩
    exact outside ⟨held.1, held.2.1⟩

theorem pixel?_blend {x' y' : Nat} (held : f.Holds x y) :
    (f.blend x' y' c).pixel? x y =
      if x' = x ∧ y' = y then (f.pixel? x y).map c.onto else f.pixel? x y := by
  simp only [blend]
  split
  · rename_i inside
    rw [show ({ f with bytes := _ } : Frame) = f.write x' y' (c.onto (f.colorAt (f.offset x' y')))
      from rfl, pixel?_write held inside.1]
    split
    · rename_i at_pixel
      obtain ⟨rfl, rfl⟩ := at_pixel
      rw [pixel?, if_pos inside, Option.map_some]
    · rfl
  · rename_i outside
    rw [if_neg]
    rintro ⟨rfl, rfl⟩
    exact outside ⟨held.1, held.2.1⟩

theorem alike_paint (f : Frame) (x y : Nat) (c : Rgba) : f.Alike (f.paint x y c) := by
  simp only [paint]
  split
  · exact f.alike_set x y c
  · exact f.alike_blend x y c

theorem pixel?_eq_some (held : f.Holds x y) : f.pixel? x y = some (f.colorAt (f.offset x y)) :=
  if_pos ⟨held.1, held.2.1⟩

theorem pixel?_paint {x' y' : Nat} (held : f.Holds x y) :
    (f.paint x' y' c).pixel? x y =
      if x' = x ∧ y' = y then (f.pixel? x y).map c.covering else f.pixel? x y := by
  simp only [paint]
  by_cases covers : c.isOpaque = true
  · rw [if_pos covers, pixel?_set held, pixel?_eq_some held, Option.map_some,
      Rgba.covering_of_isOpaque covers]
  · rw [if_neg covers, pixel?_blend held]
    rw [Rgba.covering_of_not_isOpaque (Bool.eq_false_iff.mpr covers)]

theorem contains_iff {p : Pixel} : f.contains p = true ↔
    0 ≤ p.x ∧ 0 ≤ p.y ∧ p.x < f.width.toNat ∧ p.y < f.height.toNat := by
  unfold contains size Viewport.contains
  simp only [Bool.and_eq_true, decide_eq_true_eq, and_assoc]

theorem Holds.contains (held : f.Holds x y) : f.contains ⟨x, y⟩ = true :=
  contains_iff.mpr ⟨Int.natCast_nonneg x, Int.natCast_nonneg y, Int.ofNat_lt.mpr held.1,
    Int.ofNat_lt.mpr held.2.1⟩

/-! ### Plotted pixels -/

theorem alike_plot (f : Frame) (p : Pixel) (c : Rgba) : f.Alike (f.plot p c) := by
  simp only [plot]
  split
  · exact f.alike_paint _ _ c
  · exact .refl f

theorem pixel?_plot {p : Pixel} (held : f.Holds x y) :
    (f.plot p c).pixel? x y =
      if p = ⟨x, y⟩ then (f.pixel? x y).map c.covering else f.pixel? x y := by
  obtain ⟨px, py⟩ := p
  have same : (px.toNat = x ∧ py.toNat = y) ∧ 0 ≤ px ∧ 0 ≤ py ↔ Pixel.mk px py = ⟨x, y⟩ := by
    rw [Pixel.mk.injEq]
    omega
  simp only [plot]
  split
  · rename_i inside
    obtain ⟨hx, hy, _, _⟩ := contains_iff.mp inside
    rw [pixel?_paint held]
    exact if_congr ((and_iff_left ⟨hx, hy⟩).symm.trans same) rfl rfl
  · rename_i outside
    rw [if_neg]
    intro at_pixel
    rw [at_pixel] at outside
    exact outside held.contains

theorem alike_plotAll (f : Frame) (ps : List Pixel) (c : Rgba) : f.Alike (f.plotAll ps c) :=
  .foldl (fun f p => f.alike_plot p c) ps f

theorem alike_fillRect (f : Frame) (x y w h : Nat) (c : Rgba) : f.Alike (f.fillRect x y w h c) :=
  .foldl (fun f row => .foldl (fun f column => f.alike_set column row c) _ f) _ f

theorem plotAll_append (f : Frame) (ps qs : List Pixel) (c : Rgba) :
    f.plotAll (ps ++ qs) c = (f.plotAll ps c).plotAll qs c :=
  List.foldl_append ..

/-- Pixels outside the frame may be left out. -/
theorem plotAll_filter (f : Frame) (ps : List Pixel) (c : Rgba) :
    f.plotAll (ps.filter f.contains) c = f.plotAll ps c := by
  induction ps generalizing f with
  | nil => rfl
  | cons p ps ih =>
    have alike := f.alike_plot p c
    have rest : (f.plot p c).plotAll (ps.filter f.contains) c = (f.plot p c).plotAll ps c := by
      rw [← ih (f.plot p c), funext alike.contains]
    by_cases inside : f.contains p = true
    · rw [List.filter_cons_of_pos inside]
      exact rest
    · have dropped : f.plot p c = f := if_neg inside
      rw [List.filter_cons_of_neg inside]
      rw [dropped] at rest
      exact rest.trans (congrArg (fun g => Frame.plotAll g ps c) dropped.symm)

/-- Plotting only pixels outside the frame changes nothing. -/
theorem plotAll_eq_self {ps : List Pixel} (outside : ∀ p ∈ ps, f.contains p ≠ true) (c : Rgba) :
    f.plotAll ps c = f := by
  rw [← plotAll_filter, List.filter_eq_nil_iff.mpr outside]
  rfl

/-- A pixel changes as often as it is plotted. -/
theorem pixel?_plotAll (ps : List Pixel) (held : f.Holds x y) :
    (f.plotAll ps c).pixel? x y = (f.pixel? x y).map (c.covering^[ps.count ⟨x, y⟩]) := by
  induction ps generalizing f with
  | nil => exact (Option.map_id_apply).symm
  | cons p ps ih =>
    have step : (f.plotAll (p :: ps) c).pixel? x y = ((f.plot p c).plotAll ps c).pixel? x y := rfl
    rw [step, ih ((f.alike_plot p c).holds.mpr held), pixel?_plot held, List.count_cons]
    by_cases at_pixel : p = ⟨x, y⟩
    · simp only [at_pixel, if_pos, beq_self_eq_true, Option.map_map]
      rfl
    · simp only [at_pixel, if_false, beq_iff_eq, Nat.add_zero]

/-- A pixel that is plotted once changes once. -/
theorem pixel?_plotAll_of_nodup {ps : List Pixel} (distinct : ps.Nodup) (held : f.Holds x y) :
    (f.plotAll ps c).pixel? x y =
      if ⟨x, y⟩ ∈ ps then (f.pixel? x y).map c.covering else f.pixel? x y := by
  rw [pixel?_plotAll ps held, distinct.count]
  split
  · rw [Function.iterate_one]
  · exact Option.map_id_apply

/-! ### New frames -/

/-- The sizes that there are frames of: no side is zero, and there is a buffer with room for all rows and for
one more unit of alignment. -/
structure Allocatable (width height : UInt32) : Prop where
  wide : width ≠ 0
  tall : height ≠ 0
  room : (rowStride width).toNat * height.toNat + 64 ≤ greatestCapacity

instance (width height : UInt32) : Decidable (Allocatable width height) :=
  decidable_of_iff
    (width ≠ 0 ∧ height ≠ 0 ∧ (rowStride width).toNat * height.toNat + 64 ≤ greatestCapacity)
    ⟨fun ⟨wide, tall, room⟩ => ⟨wide, tall, room⟩, fun ⟨wide, tall, room⟩ => ⟨wide, tall, room⟩⟩

variable {width height : UInt32}

theorem greatestCapacity_lt : greatestCapacity < UInt64.size := by decide

theorem Allocatable.fits (made : Allocatable width height) :
    (rowStride width).toNat * height.toNat < UInt64.size :=
  calc (rowStride width).toNat * height.toNat
    _ ≤ (rowStride width).toNat * height.toNat + 64 := Nat.le_add_right ..
    _ ≤ greatestCapacity := made.room
    _ < UInt64.size := greatestCapacity_lt

theorem bufferLength?_eq (width height : UInt32) :
    bufferLength? width height =
      if (rowStride width).toNat * height.toNat + 64 ≤ greatestCapacity then
        some ((rowStride width).toNat * height.toNat)
      else none := by
  have word := greatestCapacity_lt
  have spare : rowAlignment.toNat = 64 := rfl
  rw [bufferLength?, spare]
  -- What a buffer can have room for is a word, so no word overflows before the room is too large.
  by_cases room : (rowStride width).toNat * height.toNat + 64 ≤ greatestCapacity
  · rw [if_pos room, if_neg (by omega)]
  · rw [if_neg room, if_pos (by omega)]

theorem new?_eq_stopped_iff :
    new? width height = .error .stopped ↔
      (width ≠ 0 ∧ height ≠ 0) ∧
        greatestCapacity < (rowStride width).toNat * height.toNat + 64 := by
  rw [new?, bufferLength?_eq]
  split_ifs with empty room
  · exact ⟨nofun, fun ⟨sided, _⟩ => absurd empty (not_or.mpr sided)⟩
  · exact ⟨nofun, fun ⟨_, long⟩ => absurd room (Nat.not_le_of_lt long)⟩
  · exact ⟨fun _ => ⟨not_or.mp empty, Nat.lt_of_not_le room⟩, fun _ => rfl⟩

theorem new?_eq_empty_iff {size : EmptySize} :
    new? width height = .error (.empty size) ↔
      (width = 0 ∨ height = 0) ∧ size = ⟨width, height⟩ := by
  rw [new?, bufferLength?_eq]
  split_ifs with empty room
  · simp only [Except.error.injEq, FrameFault.empty.injEq, empty, true_and, eq_comm]
  · exact ⟨nofun, fun ⟨zero, _⟩ => absurd zero empty⟩
  · exact ⟨nofun, fun ⟨zero, _⟩ => absurd zero empty⟩

/-- A new frame is of an allocatable size, and its buffer is as long as its rows. -/
theorem new?_eq_ok_iff :
    new? width height = .ok f ↔
      Allocatable width height ∧
        f = ⟨width, height, ⟨Array.replicate ((rowStride width).toNat * height.toNat) 0⟩⟩ := by
  rw [new?, bufferLength?_eq]
  split_ifs with empty room
  · exact ⟨nofun, fun ⟨made, _⟩ => absurd empty (not_or.mpr ⟨made.wide, made.tall⟩)⟩
  · obtain ⟨wide, tall⟩ := not_or.mp empty
    simp only [Except.ok.injEq, Allocatable.mk wide tall room, true_and, eq_comm]
  · exact ⟨nofun, fun ⟨made, _⟩ => absurd made.room room⟩

theorem exists_new?_iff : (∃ f, new? width height = .ok f) ↔ Allocatable width height := by
  simp only [new?_eq_ok_iff, exists_and_left, exists_eq, and_true]

theorem exists_new? (made : Allocatable width height) : ∃ f, new? width height = .ok f :=
  exists_new?_iff.mpr made

theorem allocatable_of_new? (new : new? width height = .ok f) : Allocatable width height :=
  (new?_eq_ok_iff.mp new).1

theorem size_of_new? (new : new? width height = .ok f) : f.size = ⟨width, height⟩ := by
  obtain ⟨_, rfl⟩ := new?_eq_ok_iff.mp new
  rfl

theorem bytes_size_of_new? (new : new? width height = .ok f) :
    f.bytes.size = f.stride * f.height.toNat := by
  obtain ⟨_, rfl⟩ := new?_eq_ok_iff.mp new
  exact Array.size_replicate ..

theorem byte_of_new? (new : new? width height = .ok f) (i : Nat) : f.byte i = 0 := by
  obtain ⟨_, rfl⟩ := new?_eq_ok_iff.mp new
  rw [byte]
  split
  · exact Array.getElem_replicate ..
  · rfl

/-- A new frame holds all of its pixels. -/
theorem holds_of_new? (new : new? width height = .ok f) (hx : x < width.toNat)
    (hy : y < height.toNat) : f.Holds x y := by
  have bytes := bytes_size_of_new? new
  cases size_of_new? new
  have row := f.rowBytes_le_stride
  have rows := Nat.mul_le_mul_left f.stride (Nat.succ_le_of_lt hy)
  rw [Nat.mul_succ, Nat.mul_comm _ y] at rows
  refine ⟨hx, hy, ?_⟩
  rw [bytes, offset]
  rw [rowBytes] at row
  omega

theorem exists_whole_new? (made : Allocatable width height) :
    ∃ f, new? width height = .ok f ∧ f.width = width ∧ f.height = height ∧
      ∀ x < width.toNat, ∀ y < height.toNat, f.Holds x y := by
  obtain ⟨f, new⟩ := exists_new? made
  have size := size_of_new? new
  refine ⟨f, new, congrArg Viewport.width size, congrArg Viewport.height size, ?_⟩
  exact fun x hx y hy => holds_of_new? new hx hy

end Frame

end PointScope
