import PointScope.Proofs.Terminal.Means

/-! Previews in machine words. Positions of cells are computed in words of 64 bits and kept in words of
32, sums of channels are kept in words of 64 bits and means in bytes. Here every number is checked to fit
where it is computed and every pixel to have its bytes; for the cells of a preview none of the checks
fails. With this the cells of a preview divide its frame as plain arithmetic has it. -/
namespace PointScope

/-- A number that is an unsigned word of so many bits. -/
def Word.fits? (bits n : Nat) : Option Nat := if n < 2 ^ bits then some n else none

theorem Word.fits?_eq_some {bits n : Nat} (small : n < 2 ^ bits) : fits? bits n = some n := if_pos small

namespace Terminal

open Word

variable {s : Settings} {f : Frame} {column columns row rows i n length : Nat} {colors : List Rgba}

/-! ### Words -/

def cellSpanInWords? (i n length : Nat) : Option (Nat × Nat) := do
  if n = 0 then none
  let low ← fits? 64 (i * length)
  let next ← fits? 32 (i + 1)
  let high ← fits? 64 (next * length)
  let first ← fits? 32 (low / n)
  let beyond ← fits? 32 (high / n)
  let second ← fits? 32 (first + 1)
  return (first, min (max beyond second) length)

def Sums.addInWords? (sums : Sums) (c : Rgba) : Option Sums := do
  let r ← fits? 64 (sums.r + c.r.toNat)
  let g ← fits? 64 (sums.g + c.g.toNat)
  let b ← fits? 64 (sums.b + c.b.toNat)
  let count ← fits? 64 (sums.count + 1)
  return { r, g, b, count }

def addPixelInWords? (f : Frame) (sums : Sums) (p : Nat × Nat) : Option Sums := do
  match ← f.get? p.1 p.2 with
  | none => return sums
  | some c => sums.addInWords? c

def channelMeanInWords? (sum count : Nat) : Option UInt8 := do
  let raised ← fits? 64 (sum + count / 2)
  let mean ← fits? 8 (raised / count)
  return mean.toUInt8

/-- The color a cell is shown in; a cell without pixels would be black. -/
def cellColorInWords? (s : Settings) (f : Frame) (column columns row rows : Nat) : Option Rgba := do
  let xs ← cellSpanInWords? column columns f.width.toNat
  let ys ← cellSpanInWords? row rows f.height.toNat
  let sums ← (block xs ys).foldlM (addPixelInWords? f) {}
  if sums.count = 0 then return .black
  let r ← channelMeanInWords? sums.r sums.count
  let g ← channelMeanInWords? sums.g sums.count
  let b ← channelMeanInWords? sums.b sums.count
  return if s.invert then inverted (.rgb r g b) else .rgb r g b

theorem cellSpanInWords?_eq_some (some_ : 0 < length) (short : length < 2 ^ 32) (few : n < 2 ^ 32)
    (cell : i < n) : cellSpanInWords? i n length = some (cellSpan i n length) := by
  have begins := begin_lt some_ cell
  have ends := end_le length cell
  have next : (i + 1) * length = i * length + length := Nat.succ_mul i length
  have product : (i + 1) * length < 2 ^ 32 * 2 ^ 32 :=
    Nat.mul_lt_mul_of_lt_of_le (by omega) (by omega) (by decide)
  rw [cellSpanInWords?, if_neg (by omega), fits?_eq_some (by omega), fits?_eq_some (by omega)]
  simp only [Option.bind_eq_bind, Option.bind_some]
  rw [fits?_eq_some (by omega), Option.bind_some, fits?_eq_some (by omega), Option.bind_some,
    fits?_eq_some (by omega), Option.bind_some, fits?_eq_some (by omega)]
  rfl

/-! ### Sums -/

/-- The sums can take the colors of some more pixels. -/
structure Sums.HasRoom (sums : Sums) (pixels : Nat) : Prop where
  r : sums.r + 255 * pixels < 2 ^ 64
  g : sums.g + 255 * pixels < 2 ^ 64
  b : sums.b + 255 * pixels < 2 ^ 64
  count : sums.count + pixels < 2 ^ 64

theorem Sums.HasRoom.add {sums : Sums} {pixels : Nat} (room : sums.HasRoom (pixels + 1)) (c : Rgba) :
    sums.addInWords? c = some (sums.add c) ∧ (sums.add c).HasRoom pixels := by
  obtain ⟨r, g, b, count⟩ := room
  have red := c.r.toNat_lt
  have green := c.g.toNat_lt
  have blue := c.b.toNat_lt
  constructor
  · rw [addInWords?, fits?_eq_some (by omega), fits?_eq_some (by omega), fits?_eq_some (by omega),
      fits?_eq_some (by omega)]
    rfl
  · simp only [Sums.add]
    constructor <;> dsimp only <;> omega

/-- Pixels of a whole frame are added up one after the other. -/
theorem foldlM_addPixelInWords? (whole : f.Whole) {ps : List (Nat × Nat)}
    (inside : ∀ p ∈ ps, p.1 < f.width.toNat ∧ p.2 < f.height.toNat) {sums : Sums}
    (room : sums.HasRoom ps.length) :
    ps.foldlM (addPixelInWords? f) sums =
      some ((ps.map fun p => f.colorAt (f.offset p.1 p.2)).foldl Sums.add sums) := by
  induction ps generalizing sums with
  | nil => rfl
  | cons p ps ih =>
    obtain ⟨added, rest⟩ := room.add (f.colorAt (f.offset p.1 p.2))
    have step : addPixelInWords? f sums p = some (sums.add (f.colorAt (f.offset p.1 p.2))) := by
      rw [addPixelInWords?, Frame.get?_eq_some whole, Frame.pixel?, if_pos (inside p List.mem_cons_self)]
      exact added
    rw [List.foldlM_cons, step]
    exact ih (fun q mem => inside q (List.mem_cons_of_mem p mem)) rest

theorem length_cellBlock_le (f : Frame) (column columns row rows : Nat) :
    (cellBlock f column columns row rows).length ≤ f.pixelCount := by
  have wide := cellSpan_snd_le column columns f.width.toNat
  have tall := cellSpan_snd_le row rows f.height.toNat
  simp only [cellBlock, block, List.length_flatMap, List.length_map, List.length_range', List.map_const',
    List.sum_replicate_nat]
  rw [Frame.pixelCount, Nat.mul_comm]
  exact Nat.mul_le_mul (by omega) (by omega)

/-- Four bytes of the buffer belong to each pixel. -/
theorem four_mul_pixelCount_le (whole : f.Whole) : 4 * f.pixelCount ≤ f.bytes.size := by
  rw [whole, Frame.pixelCount, ← Nat.mul_assoc]
  exact Nat.mul_le_mul_right _ f.rowBytes_le_stride

/-! ### Colors -/

theorem sum_channel_le (colors : List Rgba) (channel : Rgba → UInt8) :
    (colors.map fun c => (channel c).toNat).sum ≤ 255 * colors.length := by
  have bytes := List.sum_le_card_nsmul (colors.map fun c => (channel c).toNat) 255 fun n mem => by
    obtain ⟨c, _, rfl⟩ := List.mem_map.mp mem
    exact Nat.le_of_lt_succ (channel c).toNat_lt
  rw [List.length_map] at bytes
  exact bytes.trans_eq (Nat.mul_comm _ _)

theorem channelMeanInWords?_eq_some (some_ : colors ≠ []) (few : colors.length ≤ 2 ^ 56)
    (channel : Rgba → UInt8) :
    channelMeanInWords? (colors.map fun c => (channel c).toNat).sum colors.length =
      some (channelMean colors channel) := by
  have sum := sum_channel_le colors channel
  have mean := roundedMean_lt some_ channel
  rw [roundedMean, List.length_map] at mean
  rw [channelMeanInWords?, fits?_eq_some (by omega)]
  change (fits? 8 _).bind _ = _
  rw [fits?_eq_some mean, channelMean, roundedMean, List.length_map]
  rfl

theorem cellColorInWords?_eq_some (whole : f.Whole) (size : f.bytes.size ≤ 2 ^ 58)
    (wide : 0 < f.width.toNat) (tall : 0 < f.height.toNat) (few : columns < 2 ^ 32) (few' : rows < 2 ^ 32)
    (at_column : column < columns) (at_row : row < rows) :
    cellColorInWords? s f column columns row rows =
      some (cellColor s f column columns row rows) := by
  have pixels := length_cellBlock_le f column columns row rows
  have bytes := four_mul_pixelCount_le whole
  have some_ : cellColors f column columns row rows ≠ [] :=
    mt List.map_eq_nil_iff.mp (cellBlock_ne_nil wide tall at_column at_row)
  have count : (cellColors f column columns row rows).length =
      (cellBlock f column columns row rows).length := List.length_map _
  have room : ({} : Sums).HasRoom (cellBlock f column columns row rows).length := by
    constructor <;> dsimp only <;> omega
  have sums := foldlM_addPixelInWords? whole (fun p => lt_of_mem_cellBlock) room
  have mean (channel : Rgba → UInt8) := channelMeanInWords?_eq_some some_ (by omega) channel
  rw [cellColorInWords?, cellSpanInWords?_eq_some wide f.width.toNat_lt few at_column,
    cellSpanInWords?_eq_some tall f.height.toNat_lt few' at_row]
  simp only [Option.bind_eq_bind, Option.bind_some]
  rw [← cellBlock, sums, ← cellColors, foldl_add]
  simp only [Option.bind_some, Nat.zero_add]
  rw [if_neg (mt List.length_eq_zero_iff.mp some_)]
  simp only [mean, Option.bind_some]
  exact congrArg some (cellColor_eq some_).symm

/-! ### Previews -/

/-- The cells of a preview divide its frame. Each of them is a block of pixels of the frame, not empty, in
the mean color of all of these, and no check of a word or of the buffer fails for it. Each column of pixels
is in one column of cells, and each row in one row of cells if there are no more of these. Else a line of
text has two rows of cells and the rows of pixels are odd; there is one row of cells too many, which shows
the first row of pixels again. -/
theorem cells_partition (s : Settings) (f : Frame) (wide : f.width ≠ 0) (tall : f.height ≠ 0)
    (short : f.height < 4294967295) :
    let columns := (gridSize s f).columns
    let rows := cellRows s f
    (∀ column < columns, ∀ row < rows,
      cellBlock f column columns row rows ≠ [] ∧
      (∀ x y, (x, y) ∈ cellBlock f column columns row rows ↔
        InCell column columns f.width.toNat x ∧ InCell row rows f.height.toNat y) ∧
      (∀ p ∈ cellBlock f column columns row rows, p.1 < f.width.toNat ∧ p.2 < f.height.toNat) ∧
      (∃ colors mean,
        (cellBlock f column columns row rows).map (fun p => f.pixel? p.1 p.2) = colors.map some ∧
        IsMean colors mean ∧ cellMean? f column columns row rows = some mean ∧
        cellColor s f column columns row rows = if s.invert then inverted mean else mean) ∧
      (f.Whole → f.bytes.size ≤ 2 ^ 58 → cellColorInWords? s f column columns row rows =
        some (cellColor s f column columns row rows))) ∧
    (∀ x < f.width.toNat, ∃! column, column < columns ∧ InCell column columns f.width.toNat x) ∧
    (rows ≤ f.height.toNat →
      ∀ y < f.height.toNat, ∃! row, row < rows ∧ InCell row rows f.height.toNat y) ∧
    (f.height.toNat < rows →
      (rows = f.height.toNat + 1 ∧ f.height.toNat % 2 = 1 ∧ s.mode = .halfBlock) ∧
      (∀ row < rows, InCell row rows f.height.toNat 0 ↔ row = 0 ∨ row = 1) ∧
      ∀ y, 0 < y → y < f.height.toNat → ∃! row, row < rows ∧ InCell row rows f.height.toNat y) ∧
    ∀ x < f.width.toNat, ∀ y < f.height.toNat, ∃ column < columns, ∃ row < rows,
      (x, y) ∈ cellBlock f column columns row rows := by
  intro columns rows
  have width : 0 < f.width.toNat := toNat_pos wide
  have height : 0 < f.height.toNat := toNat_pos tall
  obtain ⟨some_, few, _⟩ := columns_bounds (s := s) width
  obtain ⟨some_', cases_⟩ := cellRows_cases (s := s) height
  have acrossColumns (x : Nat) (inside : x < f.width.toNat) := existsUnique_cell few some_ inside
  refine ⟨?_, acrossColumns, fun fits y => existsUnique_cell fits some_', ?_, ?_⟩
  · intro column at_column row at_row
    have block := cellBlock_ne_nil width height at_column at_row
    have colors : cellColors f column columns row rows ≠ [] := mt List.map_eq_nil_iff.mp block
    refine ⟨block, fun x y => mem_cellBlock, fun p => lt_of_mem_cellBlock, ?_, ?_⟩
    · exact ⟨_, _, map_pixel?_cellBlock, isMean_meanColor colors, cellMean?_eq_some colors,
        cellColor_eq colors⟩
    · intro whole size
      exact cellColorInWords?_eq_some whole size width height (Nat.lt_of_le_of_lt few f.width.toNat_lt)
        (cellRows_lt height short) at_column at_row
  · intro more
    have shape := cases_.resolve_left (Nat.not_le.mpr more)
    have count : rows = f.height.toNat + 1 := shape.1
    refine ⟨shape, ?_, ?_⟩
    · rw [count]
      intro row at_row
      rw [inCell_succ_iff height at_row]
      omega
    · rw [count]
      exact fun y later inside => existsUnique_cell_succ later inside
  · intro x inside y inside'
    obtain ⟨column, at_column, wide⟩ := (acrossColumns x inside).exists
    obtain ⟨row, at_row, tall⟩ := exists_cellRow (s := s) inside'
    exact ⟨column, at_column, row, at_row, mem_cellBlock.mpr ⟨wide, tall⟩⟩

/-- Three rows of pixels are shown on two lines, by four rows of cells. -/
theorem cells_partition_square :
    ∃ f, Frame.new? 3 3 = .ok f ∧ f.width ≠ 0 ∧ f.height ≠ 0 ∧ f.height < 4294967295 ∧
      (gridSize {} f).columns = 3 ∧ cellRows {} f = 4 ∧ InCell 0 4 3 0 ∧ InCell 1 4 3 0 ∧
      (∃! row, row < 4 ∧ InCell row 4 3 2) ∧
      cellColorInWords? {} f 0 3 1 4 = some (cellColor {} f 0 3 1 4) := by
  obtain ⟨f, new, width, height, _⟩ := Frame.exists_whole_new? (by decide : Frame.Allocatable 3 3)
  have laid := Frame.laidOut_of_new? (v := ⟨3, 3⟩) new
  have size : f.bytes.size = 192 := by
    rw [laid.length, Frame.stride, width]
    decide
  have three : f.height.toNat = 3 := height ▸ (by decide : (3 : UInt32).toNat = 3)
  have columns : (gridSize {} f).columns = 3 := congrArg GridSize.columns (gridSize_square width height)
  have rows : cellRows {} f = 4 := by
    rw [cellRows, gridSize_square width height]
    rfl
  have wide : f.width ≠ 0 := width ▸ by decide
  have tall : f.height ≠ 0 := height ▸ by decide
  have short : f.height < 4294967295 := height ▸ by decide
  have law := cells_partition {} f wide tall short
  dsimp only at law
  rw [columns, rows, three] at law
  obtain ⟨cells, _, _, more, _⟩ := law
  obtain ⟨_, first, others⟩ := more (by decide)
  obtain ⟨_, _, _, _, words⟩ := cells 0 (by decide) 1 (by decide)
  refine ⟨f, new, wide, tall, short, columns, rows, ?_, ?_, ?_, ?_⟩
  · exact (first 0 (by decide)).mpr (.inl rfl)
  · exact (first 1 (by decide)).mpr (.inr rfl)
  · exact others 2 (by decide) (by decide)
  · exact words laid.whole (size ▸ by decide)

end Terminal

end PointScope
