import PointScope.Proofs.Frame.Pixels

/-! Clearing a frame. Blocks of sixteen pixels and then single pixels fill exactly the pixels of
every row, whatever the width; what is behind them in a row is left. Frames of one size that agree
there are the same frame once both are cleared. -/
namespace PointScope

/-- The channel of a color that a byte of a buffer holds; pixels begin at multiples of four. -/
def Rgba.channel (c : Rgba) (i : Nat) : UInt8 :=
  match i % 4 with
  | 0 => c.r
  | 1 => c.g
  | 2 => c.b
  | _ => c.a

namespace Frame

variable {c : Rgba} {bytes part : ByteArray} {i j n : Nat}

/-! ### Bytes of a buffer -/

/-- A byte of a buffer, zero beyond its end. -/
def byteOf (bytes : ByteArray) (i : Nat) : UInt8 := if h : i < bytes.size then bytes[i] else 0

theorem byteOf_of_le (beyond : bytes.size ≤ i) : byteOf bytes i = 0 :=
  dif_neg (Nat.not_lt.mpr beyond)

theorem eq_of_byteOf {other : ByteArray} (size : other.size = bytes.size)
    (same : ∀ j < bytes.size, byteOf other j = byteOf bytes j) : other = bytes := by
  refine ByteArray.ext_getElem size fun j bound bound' => ?_
  have := same j bound'
  rwa [byteOf, dif_pos bound, byteOf, dif_pos bound'] at this

theorem byteOf_putByte (bytes : ByteArray) (i j : Nat) (v : UInt8) :
    byteOf (putByte bytes i v) j = if i = j ∧ j < bytes.size then v else byteOf bytes j :=
  byte_putByte (f := ⟨0, 0, bytes⟩) bytes i j v

theorem byteOf_append (a b : ByteArray) (j : Nat) :
    byteOf (a ++ b) j = if j < a.size then byteOf a j else byteOf b (j - a.size) := by
  by_cases left : j < a.size
  · rw [if_pos left, byteOf, dif_pos (by rw [ByteArray.size_append]; omega), byteOf, dif_pos left,
      ByteArray.getElem_append_left left]
  · rw [if_neg left]
    by_cases right : j - a.size < b.size
    · rw [byteOf, dif_pos (by rw [ByteArray.size_append]; omega), byteOf, dif_pos right,
        ByteArray.getElem_append_right (by omega)]
    · rw [byteOf_of_le (by rw [ByteArray.size_append]; omega), byteOf_of_le (by omega)]

theorem byteOf_extract {lo hi : Nat} (within : hi ≤ bytes.size) (j : Nat) :
    byteOf (bytes.extract lo hi) j = if j < hi - lo then byteOf bytes (lo + j) else 0 := by
  have size : (bytes.extract lo hi).size = hi - lo := by
    rw [ByteArray.size_extract, Nat.min_eq_left within]
  by_cases bound : j < hi - lo
  · rw [if_pos bound, byteOf, dif_pos (size ▸ bound), byteOf, dif_pos (by omega),
      ByteArray.getElem_extract]
  · rw [if_neg bound, byteOf_of_le (by omega)]

/-! ### Copied parts -/

theorem putPart_eq (fits : i + part.size ≤ bytes.size) :
    putPart bytes i part =
      bytes.extract 0 i ++ part ++ bytes.extract (i + part.size) bytes.size := by
  rw [putPart, if_pos fits, ByteArray.copySlice_eq_append, Nat.zero_add, Nat.sub_zero,
    ByteArray.extract_zero_size, ByteArray.size_data, ByteArray.size_data, Nat.min_self]

theorem size_putPart (bytes : ByteArray) (i : Nat) (part : ByteArray) :
    (putPart bytes i part).size = bytes.size := by
  by_cases fits : i + part.size ≤ bytes.size
  · rw [putPart_eq fits]
    simp only [ByteArray.size_append, ByteArray.size_extract]
    omega
  · rw [putPart, if_neg fits]

/-- A part is copied as a whole or not at all. -/
theorem byteOf_putPart (bytes : ByteArray) (i j : Nat) (part : ByteArray) :
    byteOf (putPart bytes i part) j =
      if i + part.size ≤ bytes.size ∧ i ≤ j ∧ j < i + part.size then byteOf part (j - i)
      else byteOf bytes j := by
  by_cases fits : i + part.size ≤ bytes.size
  · have before : (bytes.extract 0 i).size = i := by
      rw [ByteArray.size_extract]
      omega
    rw [putPart_eq fits, byteOf_append, byteOf_append, byteOf_extract (by omega),
      byteOf_extract (Nat.le_refl _), ByteArray.size_append, before]
    by_cases left : j < i
    · rw [if_pos (by omega), if_pos left, if_pos (by omega), Nat.zero_add, if_neg (by omega)]
    · by_cases middle : j < i + part.size
      · rw [if_pos middle, if_neg left, if_pos ⟨fits, by omega, middle⟩]
      · have away : ¬(i + part.size ≤ bytes.size ∧ i ≤ j ∧ j < i + part.size) :=
          fun h => middle h.2.2
        rw [if_neg middle, if_neg away]
        by_cases right : j < bytes.size
        · rw [if_pos (by omega), Nat.add_sub_cancel' (by omega)]
        · rw [if_neg (by omega), byteOf_of_le (by omega)]
  · rw [putPart, if_neg fits, if_neg fun h => fits h.1]

/-! ### Filled regions -/

/-- A region of a buffer is filled with a color, and nothing else changes. A buffer that is not
made of whole blocks may keep some bytes of the region behind its last block. -/
structure Fills (c : Rgba) (region : Nat → Prop) (old new : ByteArray) : Prop where
  size : new.size = old.size
  inside : blockBytes ∣ old.size → ∀ j < old.size, region j → byteOf new j = c.channel j
  outside : ∀ j, ¬region j → byteOf new j = byteOf old j

theorem Fills.none {region : Nat → Prop} (empty : ∀ j, ¬region j) (bytes : ByteArray) :
    Fills c region bytes bytes :=
  ⟨rfl, fun _ j _ within => absurd within (empty j), fun _ _ => rfl⟩

theorem Fills.trans {old mid new : ByteArray} {first second : Nat → Prop}
    (h : Fills c first old mid) (h' : Fills c second mid new) :
    Fills c (fun j => first j ∨ second j) old new where
  size := h'.size.trans h.size
  inside whole j bound within := by
    by_cases late : second j
    · exact h'.inside (h.size ▸ whole) j (h.size ▸ bound) late
    · rw [h'.outside j late]
      exact h.inside whole j bound (within.resolve_right late)
  outside j without := by
    rw [not_or] at without
    rw [h'.outside j without.2, h.outside j without.1]

theorem Fills.congr {old new : ByteArray} {region region' : Nat → Prop}
    (h : Fills c region old new) (same : ∀ j, region' j ↔ region j) : Fills c region' old new where
  size := h.size
  inside whole j bound within := h.inside whole j bound ((same j).mp within)
  outside j without := h.outside j fun within => without ((same j).mpr within)

/-- Steps that each fill a region fill all of them together. -/
theorem Fills.foldl {step : ByteArray → Nat → ByteArray} {region : Nat → Nat → Prop}
    (h : ∀ bytes k, Fills c (region k) bytes (step bytes k)) (ks : List Nat) (bytes : ByteArray) :
    Fills c (fun j => ∃ k ∈ ks, region k j) bytes (ks.foldl step bytes) := by
  induction ks generalizing bytes with
  | nil => exact .none (by simp) bytes
  | cons k ks ih =>
    refine ((h bytes k).trans (ih (step bytes k))).congr fun j => ?_
    simp only [List.mem_cons, exists_eq_or_imp]

/-- Parts of one length that follow one another fill a region from the first to the last. -/
theorem Fills.run {step : ByteArray → Nat → ByteArray} {length : Nat} (positive : 0 < length)
    (h : ∀ bytes k, Fills c (fun j => i + length * k ≤ j ∧ j < i + length * k + length) bytes
      (step bytes k)) (parts : Nat) (bytes : ByteArray) :
    Fills c (fun j => i ≤ j ∧ j < i + length * parts) bytes
      ((List.range parts).foldl step bytes) := by
  refine (Fills.foldl h (List.range parts) bytes).congr fun j => ?_
  constructor
  · rintro ⟨low, high⟩
    have split := Nat.div_add_mod (j - i) length
    have rest := Nat.mod_lt (j - i) positive
    refine ⟨(j - i) / length, List.mem_range.mpr ?_, by omega, by omega⟩
    exact (Nat.div_lt_iff_lt_mul positive).mpr (by rw [Nat.mul_comm]; omega)
  · rintro ⟨k, mem, low, high⟩
    have := Nat.mul_le_mul_left length (Nat.succ_le_of_lt (List.mem_range.mp mem))
    rw [Nat.mul_succ] at this
    omega

/-! ### Pixels and blocks -/

theorem fills_putColor (aligned : 4 ∣ i) (bytes : ByteArray) (c : Rgba) :
    Fills c (fun j => i ≤ j ∧ j < i + 4) bytes (putColor bytes i c) where
  size := size_putColor bytes i c
  inside _ j bound within := by
    obtain ⟨q, rfl⟩ := aligned
    simp only [putColor, byteOf_putByte, size_putByte, Rgba.channel]
    obtain rfl | rfl | rfl | rfl : j = 4 * q ∨ j = 4 * q + 1 ∨ j = 4 * q + 2 ∨ j = 4 * q + 3 := by
      omega
    · simp (disch := omega) only [true_and, if_pos bound, if_neg, Nat.mul_mod_right]
    · simp (disch := omega) only [true_and, if_pos bound, if_neg, Nat.mul_add_mod]
    · simp (disch := omega) only [true_and, if_pos bound, if_neg, Nat.mul_add_mod]
    · simp (disch := omega) only [true_and, if_pos bound, if_neg, Nat.mul_add_mod]
  outside j without := by
    simp only [putColor, byteOf_putByte, size_putByte]
    simp (disch := omega) only [if_neg]

theorem fills_putRun (aligned : 4 ∣ i) (bytes : ByteArray) (pixels : Nat) (c : Rgba) :
    Fills c (fun j => i ≤ j ∧ j < i + 4 * pixels) bytes (putRun bytes i pixels c) :=
  .run (by decide) (fun bytes k => fills_putColor (by omega) bytes c) pixels bytes

theorem size_block (c : Rgba) : (block c).size = blockBytes := by
  rw [block, (fills_putRun (Nat.dvd_zero 4) _ blockPixels c).size]
  exact Array.size_replicate

theorem byteOf_block (c : Rgba) (bound : j < blockBytes) : byteOf (block c) j = c.channel j := by
  have filled := fills_putRun (Nat.dvd_zero 4) ⟨Array.replicate blockBytes 0⟩ blockPixels c
  have size : (⟨Array.replicate blockBytes 0⟩ : ByteArray).size = blockBytes := Array.size_replicate
  refine filled.inside (size ▸ Nat.dvd_refl _) j (size ▸ bound) ⟨Nat.zero_le j, ?_⟩
  rwa [Nat.zero_add]

/-- A block is copied to its place in every buffer that is made of whole blocks. -/
theorem fills_putPart (aligned : blockBytes ∣ i) (bytes : ByteArray) (c : Rgba) :
    Fills c (fun j => i ≤ j ∧ j < i + blockBytes) bytes (putPart bytes i (block c)) where
  size := size_putPart bytes i (block c)
  inside whole j bound within := by
    obtain ⟨q, rfl⟩ := aligned
    obtain ⟨blocks, whole⟩ := whole
    have room : blockBytes * q + blockBytes ≤ bytes.size := by
      simp only [blockBytes, blockPixels] at *
      omega
    rw [byteOf_putPart, size_block, if_pos ⟨room, within⟩, byteOf_block c (by omega)]
    have same : (j - blockBytes * q) % 4 = j % 4 := by
      simp only [blockBytes, blockPixels] at *
      omega
    rw [Rgba.channel, Rgba.channel, same]
  outside j without := by
    rw [byteOf_putPart, size_block, if_neg fun h => without h.2]

/-! ### Rows -/

/-- A row of any number of pixels is filled from its first to its last. -/
theorem fills_clearRow (aligned : blockBytes ∣ i) (bytes : ByteArray) (pixels : Nat) (c : Rgba) :
    Fills c (fun j => i ≤ j ∧ j < i + 4 * pixels) bytes
      (clearRow bytes i (4 * pixels) (block c) c) := by
  have blocks : Fills c (fun j => i ≤ j ∧ j < i + blockBytes * (4 * pixels / blockBytes)) bytes _ :=
    .run (by decide) (fun bytes k => fills_putPart (Nat.dvd_add aligned (Nat.dvd_mul_right _ k)) bytes c)
      (4 * pixels / blockBytes) bytes
  refine (blocks.trans (fills_putRun ?_ _ (4 * pixels % blockBytes / 4) c)).congr fun j => ?_
  · simp only [blockBytes, blockPixels] at *
    omega
  · simp only [blockBytes, blockPixels]
    omega

variable {f g : Frame}

theorem blockBytes_dvd_stride (f : Frame) : blockBytes ∣ f.stride := by
  rw [stride, rowStride_toNat]
  exact Nat.dvd_mul_left _ _

/-- Clearing fills the pixels of all rows. -/
theorem fills_clear (f : Frame) (c : Rgba) :
    Fills c (fun j => ∃ y ∈ List.range f.height.toNat,
      y * f.stride ≤ j ∧ j < y * f.stride + f.rowBytes) f.bytes (f.clear c).bytes :=
  .foldl (fun bytes y => fills_clearRow (Nat.dvd_mul_left_of_dvd f.blockBytes_dvd_stride y) bytes
    f.width.toNat c) _ f.bytes

theorem alike_clear (f : Frame) (c : Rgba) : f.Alike (f.clear c) := by
  refine ⟨rfl, rfl, (f.fills_clear c).size, fun j behind => (f.fills_clear c).outside j ?_⟩
  rintro ⟨y, _, low, high⟩
  obtain ⟨x, rfl⟩ := Nat.exists_eq_add_of_le low
  have row := f.rowBytes_le_stride
  rw [Nat.mul_add_mod', Nat.mod_eq_of_lt (by omega)] at behind
  omega

/-- The buffer of a new frame is made of whole blocks and no longer than its rows. -/
theorem layout_of_new? {width height : UInt32} (new : new? width height = .ok f) :
    blockBytes ∣ f.bytes.size ∧ f.bytes.size ≤ f.stride * f.height.toNat := by
  have bytes := bytes_size_of_new? new
  rw [bytes]
  exact ⟨Nat.dvd_mul_right_of_dvd f.blockBytes_dvd_stride _, Nat.le_refl _⟩

/-- Once cleared, frames do not show what they held before. -/
theorem Alike.clear_eq (alike : f.Alike g) (whole : blockBytes ∣ f.bytes.size)
    (room : f.bytes.size ≤ f.stride * f.height.toNat) (c : Rgba) : g.clear c = f.clear c := by
  have cleared := f.fills_clear c
  have cleared' := g.fills_clear c
  have size : (g.clear c).bytes.size = (f.clear c).bytes.size := by
    rw [cleared'.size, cleared.size, alike.bytes]
  have bytes : (g.clear c).bytes = (f.clear c).bytes := by
    refine eq_of_byteOf size fun j bound => ?_
    rw [cleared.size] at bound
    by_cases behind : f.rowBytes ≤ j % f.stride
    · have kept := (f.alike_clear c).padding j behind
      have kept' := (g.alike_clear c).padding j (by rwa [alike.rowBytes, alike.stride])
      exact kept'.trans ((alike.padding j behind).trans kept.symm)
    · have pixel : ∃ y ∈ List.range f.height.toNat,
          y * f.stride ≤ j ∧ j < y * f.stride + f.rowBytes := by
        refine ⟨j / f.stride, List.mem_range.mpr ?_, ?_⟩
        · exact Nat.div_lt_of_lt_mul (by omega)
        · have split := Nat.div_add_mod' j f.stride
          omega
      have pixel' := pixel
      rw [← alike.height, ← alike.stride, ← alike.rowBytes] at pixel'
      rw [cleared.inside whole j bound pixel,
        cleared'.inside (alike.bytes ▸ whole) j (alike.bytes ▸ bound) pixel']
  change Frame.mk g.width g.height (g.clear c).bytes = Frame.mk f.width f.height (f.clear c).bytes
  rw [alike.width, alike.height, bytes]

end Frame

end PointScope
