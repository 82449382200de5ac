import Mathlib.Data.Set.Card
import PointScope.Frame.Reading
import PointScope.Proofs.Scene.Access

/-! What is read from a frame. The colors of single pixels, the rows without their padding and the number of
pixels of a color are cut from the buffer each in a way of its own, and all say the same of a frame that is
laid out in rows. -/
namespace PointScope

/-- The channels of a color, as its bytes follow one another. -/
def Rgba.channels (c : Rgba) : List UInt8 := [c.r, c.g, c.b, c.a]

theorem Rgba.length_channels (c : Rgba) : c.channels.length = 4 := rfl

theorem Rgba.channels_injective : Function.Injective Rgba.channels := by
  rintro ⟨r, g, b, a⟩ ⟨r', g', b', a'⟩ same
  simp only [channels, List.cons.injEq, and_true] at same
  obtain ⟨rfl, rfl, rfl, rfl⟩ := same
  rfl

/-! ### Parts of lists -/

section Parts

variable {α β : Type} {n : Nat}

/-- The parts of a length that a list is made of. What is left behind the last one is dropped. -/
def chunks (n : Nat) (as : List α) : List (List α) :=
  (List.range (as.length / n)).map fun k => (as.drop (n * k)).take n

/-- Parts one behind the other are the beginning of the list. -/
theorem flatMap_parts (as : List α) (n count : Nat) :
    ((List.range count).flatMap fun k => (as.drop (n * k)).take n) = as.take (n * count) := by
  induction count with
  | zero => rfl
  | succ count ih =>
    rw [List.range_succ, List.flatMap_append, ih, List.flatMap_singleton, Nat.mul_succ, List.take_add]

theorem length_flatMap_of_each {g : α → List β} (each : ∀ a, (g a).length = n) (as : List α) :
    (as.flatMap g).length = n * as.length := by
  induction as with
  | nil => rfl
  | cons a as ih =>
    rw [List.flatMap_cons, List.length_append, each, ih, List.length_cons, Nat.mul_succ, Nat.add_comm]

/-- Lists of one length that follow one another are found at their places. -/
theorem part_flatMap {g : α → List β} (each : ∀ a, (g a).length = n) {as : List α} {k : Nat} {a : α}
    (there : as[k]? = some a) : ((as.flatMap g).drop (n * k)).take n = g a := by
  induction as generalizing k with
  | nil => cases there
  | cons b as ih =>
    rw [List.flatMap_cons]
    cases k with
    | zero =>
      cases there
      rw [Nat.mul_zero, List.drop_zero]
      exact List.take_left' (each a)
    | succ k =>
      rw [Nat.mul_succ, Nat.add_comm, ← List.drop_drop, List.drop_left' (each b)]
      exact ih there

theorem chunks_flatMap {g : α → List β} (positive : 0 < n) (each : ∀ a, (g a).length = n) (as : List α) :
    chunks n (as.flatMap g) = as.map g := by
  rw [chunks, length_flatMap_of_each each, Nat.mul_div_cancel_left _ positive]
  apply List.ext_getElem
  · rw [List.length_map, List.length_range, List.length_map]
  · intro k _ bound
    rw [List.length_map] at bound
    rw [List.getElem_map, List.getElem_map, List.getElem_range]
    exact part_flatMap each (List.getElem?_eq_getElem bound)

end Parts

namespace Frame

variable {f : Frame} {v : Viewport} {x y : Nat}

/-! ### Rows -/

def data (f : Frame) : List UInt8 := f.bytes.data.toList

/-- The rows of the buffer without their padding. -/
def rows (f : Frame) : List (List UInt8) := (chunks f.stride f.data).map (List.take f.rowBytes)

/-- The colors of the pixels of a row. -/
def rowColors (f : Frame) (y : Nat) : List Rgba :=
  (List.range f.width.toNat).map fun x => f.colorAt (f.offset x y)

theorem colors_eq (f : Frame) : f.colors = (List.range f.height.toNat).flatMap f.rowColors := by
  rw [colors, positions, List.map_flatMap]
  simp only [List.map_map]
  rfl

theorem length_rowColors (f : Frame) (y : Nat) : (f.rowColors y).length = f.width.toNat := by
  rw [rowColors, List.length_map, List.length_range]

theorem byte_eq_getElem {i : Nat} (bound : i < f.data.length) : f.byte i = f.data[i] :=
  dif_pos (show i < f.bytes.size from bound)

/-- A color is read from four bytes of the buffer. -/
theorem channels_colorAt {i : Nat} (room : i + 4 ≤ f.bytes.size) :
    (f.colorAt i).channels = (f.data.drop i).take 4 := by
  have bound : i + 4 ≤ f.data.length := room
  rw [List.drop_eq_getElem_cons (by omega), List.drop_eq_getElem_cons (by omega),
    List.drop_eq_getElem_cons (by omega), List.drop_eq_getElem_cons (by omega)]
  simp only [List.take_succ_cons, List.take_zero, Rgba.channels, colorAt]
  rw [byte_eq_getElem, byte_eq_getElem, byte_eq_getElem, byte_eq_getElem]

/-- The beginning of a row is its colors. -/
theorem row_eq (whole : f.Whole) (inside : y < f.height.toNat) :
    (f.data.drop (f.stride * y)).take f.rowBytes = (f.rowColors y).flatMap Rgba.channels := by
  have room := whole.row inside
  rw [rowBytes] at room
  rw [rowBytes, ← flatMap_parts, rowColors, List.flatMap_map]
  apply List.flatMap_congr
  intro x mem
  have left := List.mem_range.mp mem
  rw [channels_colorAt (by rw [offset]; omega), List.drop_drop, offset, Nat.mul_comm y]

theorem rows_eq_parts (whole : f.Whole) (some_stride : 0 < f.stride) :
    f.rows = (List.range f.height.toNat).map fun y => (f.data.drop (f.stride * y)).take f.rowBytes := by
  have length : f.data.length = f.stride * f.height.toNat := whole
  rw [rows, chunks, length, Nat.mul_div_cancel_left _ some_stride, List.map_map]
  apply List.map_congr_left
  intro y _
  rw [Function.comp_apply, List.take_take, Nat.min_eq_left f.rowBytes_le_stride]

theorem rows_eq (whole : f.Whole) (some_stride : 0 < f.stride) :
    f.rows = (List.range f.height.toNat).map fun y => (f.rowColors y).flatMap Rgba.channels := by
  rw [rows_eq_parts whole some_stride]
  apply List.map_congr_left
  intro y mem
  exact row_eq whole (List.mem_range.mp mem)

/-- The rows one behind the other are the channels of the colors. -/
theorem flatten_rows (whole : f.Whole) (some_stride : 0 < f.stride) :
    f.rows.flatten = f.colors.flatMap Rgba.channels := by
  rw [rows_eq whole some_stride, colors_eq, List.flatMap_assoc]
  rfl

/-- Cut into fours, the rows are the channels of each color. -/
theorem flatMap_chunks_rows (whole : f.Whole) (some_stride : 0 < f.stride) :
    f.rows.flatMap (chunks 4) = f.colors.map Rgba.channels := by
  rw [rows_eq whole some_stride, List.flatMap_map, colors_eq, List.map_flatMap]
  apply List.flatMap_congr
  intro y _
  exact chunks_flatMap (by decide) Rgba.length_channels (f.rowColors y)

/-! ### The compact buffer -/

theorem data_extract (bytes : ByteArray) (start length : Nat) :
    (bytes.extract start (start + length)).data.toList = (bytes.data.toList.drop start).take length := by
  rw [ByteArray.data_extract, Array.toList_extract, List.extract_eq_take_drop, Nat.add_sub_cancel_left]

theorem data_foldl_append (part : Nat → ByteArray) (ys : List Nat) (out : ByteArray) :
    (ys.foldl (fun out y => out ++ part y) out).data.toList =
      out.data.toList ++ ys.flatMap fun y => (part y).data.toList := by
  induction ys generalizing out with
  | nil => exact (List.append_nil _).symm
  | cons y ys ih =>
    rw [List.foldl_cons, ih, ByteArray.data_append, Array.toList_append, List.flatMap_cons,
      List.append_assoc]

/-- The length of rows without padding is computed without overflow. -/
theorem length_of_rows (fits : f.rowBytes * f.height.toNat < UInt64.size) :
    (4 * f.width.toUInt64 * f.height.toUInt64).toNat = f.rowBytes * f.height.toNat := by
  have width := f.width.toNat_lt
  have row : (4 * f.width.toUInt64).toNat = f.rowBytes := by
    rw [UInt64.toNat_mul, UInt32.toNat_toUInt64]
    exact Nat.mod_eq_of_lt (show 4 * f.width.toNat < 2 ^ 64 by omega)
  rw [UInt64.toNat_mul, row, UInt32.toNat_toUInt64]
  exact Nat.mod_eq_of_lt fits

/-- The compact buffer is the rows one behind the other, whichever way it is made. -/
theorem compactBytes_eq (whole : f.Whole) (some_stride : 0 < f.stride)
    (fits : f.stride * f.height.toNat < UInt64.size) :
    f.compactBytes.data.toList = f.rows.flatten := by
  rw [rows_eq_parts whole some_stride, ← List.flatMap_def, compactBytes]
  split
  · rename_i unpadded
    have taken := data_extract f.bytes 0 (f.rowBytes * f.height.toNat)
    rw [unpadded] at fits
    rw [Nat.zero_add, ← length_of_rows fits, List.drop_zero] at taken
    rw [unpadded, flatMap_parts, ← length_of_rows fits]
    exact taken
  · rw [data_foldl_append]
    apply List.flatMap_congr
    intro y _
    rw [data_extract, Nat.mul_comm y]
    rfl

/-! ### Places and numbers of colors -/

/-- The colors are in the order of rows. -/
theorem colors_getElem? (hx : x < f.width.toNat) (hy : y < f.height.toNat) :
    f.colors[f.width.toNat * y + x]? = some (f.colorAt (f.offset x y)) := by
  have row := part_flatMap f.length_rowColors (List.getElem?_range hy)
  rw [← colors_eq] at row
  rw [← List.getElem?_drop, ← List.getElem?_take_of_lt hx, row, rowColors, List.getElem?_map,
    List.getElem?_range hx, Option.map_some]

theorem length_colors (f : Frame) : f.colors.length = f.width.toNat * f.height.toNat := by
  rw [colors_eq, length_flatMap_of_each f.length_rowColors, List.length_range]

theorem mem_positions {p : Nat × Nat} :
    p ∈ f.positions ↔ p.1 < f.width.toNat ∧ p.2 < f.height.toNat := by
  simp only [positions, List.mem_flatMap, List.mem_map, List.mem_range]
  constructor
  · rintro ⟨y, below, x, left, rfl⟩
    exact ⟨left, below⟩
  · rintro ⟨left, below⟩
    exact ⟨p.2, below, p.1, left, rfl⟩

theorem positions_nodup (f : Frame) : f.positions.Nodup := by
  rw [positions, List.nodup_flatMap]
  constructor
  · intro y _
    exact List.nodup_range.map fun x x' same => congrArg Prod.fst same
  · refine List.nodup_range.imp ?_
    intro y y' different p mem mem'
    obtain ⟨x, -, rfl⟩ := List.mem_map.mp mem
    obtain ⟨x', -, same⟩ := List.mem_map.mp mem'
    exact different (congrArg Prod.snd same).symm

/-- A color is counted once for each of its pixels. -/
theorem countColor_eq (f : Frame) (c : Rgba) :
    f.countColor c = {p : Nat × Nat | f.pixel? p.1 p.2 = some c}.ncard := by
  have pixels : {p : Nat × Nat | f.pixel? p.1 p.2 = some c} =
      (f.positions.filter fun p => f.colorAt (f.offset p.1 p.2) == c).toFinset := by
    ext p
    simp only [Set.mem_ofPred_eq, List.coe_toFinset, List.mem_filter, mem_positions, pixel?, beq_iff_eq,
      Option.ite_none_right_eq_some, Option.some.injEq]
  rw [pixels, Set.ncard_coe_finset, List.toFinset_card_of_nodup (f.positions_nodup.filter _),
    ← List.countP_eq_length_filter, countColor, colors, List.count, List.countP_map]
  rfl

theorem channels_count (f : Frame) (whole : f.Whole) (some_stride : 0 < f.stride) (c : Rgba) :
    (f.rows.flatMap (chunks 4)).count c.channels = f.countColor c := by
  rw [flatMap_chunks_rows whole some_stride, countColor]
  exact List.count_map_of_injective _ _ Rgba.channels_injective c

/-- Writing to a pixel leaves every other one as it is, also those outside the frame. -/
theorem pixel?_set_other {x' y' : Nat} (whole : f.Whole) (c : Rgba) (other : ¬(x' = x ∧ y' = y)) :
    (f.set x' y' c).pixel? x y = f.pixel? x y := by
  by_cases inside : x < f.width.toNat ∧ y < f.height.toNat
  · rw [pixel?_set (whole.holds inside.1 inside.2), if_neg other]
  · have alike := f.alike_set x' y' c
    rw [pixel?, pixel?, alike.width, alike.height, if_neg inside, if_neg inside]

/-- Whatever is read from a frame of a size is read from its pixels, and a pixel that is written is read back. -/
structure ReadAlike (v : Viewport) (f : Frame) : Prop where
  /-- The compact buffer has four bytes for each pixel. -/
  length : f.compactBytes.size = 4 * (v.width.toNat * v.height.toNat)
  /-- They are the channels of the color of the pixel, in the order of rows. -/
  compact : ∀ x y, x < v.width.toNat → y < v.height.toNat → ∃ c, f.pixel? x y = some c ∧
    (f.compactBytes.extract (4 * (y * v.width.toNat + x)) (4 * (y * v.width.toNat + x) + 4)).data.toList =
      c.channels
  /-- Copied row by row, the compact buffer is no other. -/
  copied : f.compactBytes.data.toList = f.rows.flatten
  count : ∀ c, f.countColor c = {p : Nat × Nat | f.pixel? p.1 p.2 = some c}.ncard
  /-- Counted in the rows of the buffer, the number of pixels of a color is no other. -/
  counted : ∀ c, (f.rows.flatMap (chunks 4)).count c.channels = f.countColor c
  written : ∀ x y c, x < v.width.toNat → y < v.height.toNat → (f.set x y c).pixel? x y = some c
  kept : ∀ x y x' y' c, ¬(x' = x ∧ y' = y) → (f.set x' y' c).pixel? x y = f.pixel? x y

theorem LaidOut.readAlike (laid : f.LaidOut v) (made : Allocatable v.width v.height) :
    f.ReadAlike v := by
  have whole := laid.whole
  obtain rfl : f.size = v := laid.size
  have some_stride : 0 < f.stride := by
    have width : 0 < f.width.toNat := Nat.pos_of_ne_zero fun none => made.wide (UInt32.toNat_inj.mp none)
    exact Nat.lt_of_lt_of_le (Nat.mul_pos (by decide) width) f.rowBytes_le_stride
  have compact := compactBytes_eq whole some_stride made.fits
  have bytes : f.compactBytes.data.toList = f.colors.flatMap Rgba.channels :=
    compact.trans (flatten_rows whole some_stride)
  constructor
  · rw [← ByteArray.size_data, ← Array.length_toList, bytes,
      length_flatMap_of_each Rgba.length_channels, length_colors]
    rfl
  · intro x y hx hy
    have there := part_flatMap Rgba.length_channels (colors_getElem? hx hy)
    refine ⟨_, if_pos ⟨hx, hy⟩, ?_⟩
    rw [data_extract, bytes, Nat.mul_comm y]
    exact there
  · exact compact
  · exact f.countColor_eq
  · exact f.channels_count whole some_stride
  · intro x y c hx hy
    rw [pixel?_set (whole.holds hx hy), if_pos ⟨rfl, rfl⟩]
  · intro x y x' y' c other
    exact pixel?_set_other whole c other

end Frame

namespace Drawing

/-- From a new frame, of any size that there is one of, all readers of a frame agree after every sequence
of drawings: the compact buffer, the numbers of the colors and the single pixels, also behind a pixel that
is written. -/
theorem drawAll_readAlike {v : Viewport} (made : Frame.Allocatable v.width v.height) :
    ∃ start, Frame.new? v.width v.height = .ok start ∧
      ∀ drawings : List Drawing, (drawAll start drawings).ReadAlike v := by
  obtain ⟨start, new⟩ := Frame.exists_new? made
  have laid := Frame.laidOut_of_new? new
  refine ⟨start, new, fun drawings => ?_⟩
  exact (laid.of_alike (alike_drawAll start drawings)).readAlike made

theorem drawAll_readAlike_disc :
    ∃ start, Frame.new? 3 2 = .ok start ∧
      (drawAll start [.clear .red, .disc ⟨1, 1⟩ 1 ⟨0, 0, 255, 128⟩]).ReadAlike ⟨3, 2⟩ := by
  obtain ⟨start, new, alike⟩ := drawAll_readAlike (v := ⟨3, 2⟩) (by decide)
  exact ⟨start, new, alike [.clear .red, .disc ⟨1, 1⟩ 1 ⟨0, 0, 255, 128⟩]⟩

end Drawing

end PointScope
