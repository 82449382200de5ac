import PointScope.Proofs.Decimal.Digits
import PointScope.Proofs.Terminal.Means

/-! Previews read back. The text of a preview is as many lines as its grid has, each behind the other and
ended by a line feed. In characters of the ramp a line has one for each column. In half blocks a terminal
that obeys the escape sequences sees the colors of the cells: what is in front of a block is exactly what
sets its two colors, so a text shows one grid of colors only. -/
namespace PointScope.Terminal

variable {s : Settings} {f : Frame}

/-! ### Lines -/

/-- There are no more lines than the rows of pixels can fill. -/
theorem lines_le_ceil (tall : 0 < f.height.toNat) :
    (gridSize s f).lines ≤ ⌈(f.height.toNat : ℚ) / s.mode.rowsPerLine⌉₊ := by
  obtain ⟨some_, last⟩ := lines_bounds (s := s) tall
  have perLine : (0 : ℚ) < s.mode.rowsPerLine := by
    rcases rowsPerLine_cases s.mode with ⟨_, single⟩ | ⟨_, double⟩
    · simp [single]
    · simp [double]
  have before : (gridSize s f).lines - 1 < ⌈(f.height.toNat : ℚ) / s.mode.rowsPerLine⌉₊ := by
    rw [Nat.lt_ceil, lt_div_iff₀ perLine]
    exact_mod_cast last
  omega

/-- Lines that are each ended by a line feed are found again between the line feeds. -/
theorem splitOn_lines {lines : List (List Char)} (plain : ∀ line ∈ lines, '\n' ∉ line) :
    (lines.flatMap (· ++ ['\n'])).splitOn '\n' = lines ++ [[]] := by
  induction lines with
  | nil => exact List.splitOn_nil '\n'
  | cons line lines ih =>
    rw [List.forall_mem_cons] at plain
    rw [List.flatMap_cons, List.append_assoc, List.singleton_append,
      List.splitOn_append_cons_self_of_not_mem plain.1, ih plain.2, List.cons_append]

/-- A preview in characters of the ramp, line by line. -/
def asciiLines (s : Settings) (f : Frame) : List (List Char) :=
  (List.range (gridSize s f).lines).map fun row =>
    (List.range (gridSize s f).columns).map (asciiCell s f (lumaRange s f) (gridSize s f) row)

theorem toList_render_ascii (mode : s.mode = .ascii) (f : Frame) :
    (render s f).toList = (asciiLines s f).flatMap (· ++ ['\n']) := by
  simp only [render, mode, asciiLines, String.toList_join, List.flatMap_map, String.toList_append,
    String.toList_ofList]
  rfl

/-- Whatever number a character is taken for, it is one of the ramp. -/
theorem rampChar_mem (level : Float) : rampChar level ∈ " .:-=+*#%@".toList := by
  have ramp_ : ramp.toList = " .:-=+*#%@".toList := by decide
  have bound (i : Nat) : min i (ramp.size - 1) < ramp.size :=
    Nat.lt_of_le_of_lt (Nat.min_le_right ..) (by decide)
  rw [rampChar, Array.getD_eq_getD_getElem?, Array.getElem?_eq_getElem (bound _), Option.getD_some, ← ramp_]
  exact Array.mem_toList_iff.mpr (Array.getElem_mem _)

/-! ### Escape sequences -/

/-- What a terminal is in the middle of. -/
inductive Phase where
  | text
  | escape
  /-- The parameters of a sequence, those before the present one and the present one so far. -/
  | parameters (before : List Nat) (present : Nat)
deriving DecidableEq, Repr

/-- The colors of the blocks on a line, those of the upper and of the lower half of each. -/
abbrev Row := List (Rgba × Rgba)

/-- All colors of a line cover what is behind them. -/
def Row.Covers (row : Row) : Prop := ∀ pair ∈ row, pair.1.isOpaque = true ∧ pair.2.isOpaque = true

/-- A terminal that shows half blocks: the colors that are set and the blocks it was sent so far. -/
structure Reader where
  phase : Phase := .text
  foreground : Option Rgba := none
  background : Option Rgba := none
  line : Row := []
  lines : List Row := []
deriving DecidableEq, Repr

def color? (red green blue : Nat) : Option Rgba :=
  if red < 256 ∧ green < 256 ∧ blue < 256 then
    some (.rgb red.toUInt8 green.toUInt8 blue.toUInt8)
  else none

namespace Reader

/-- What the parameters of a sequence select: `0` no colors, `38;2` a foreground, `48;2` a background. -/
def select (r : Reader) : List Nat → Option Reader
  | [0] => some { r with foreground := none, background := none }
  | [38, 2, red, green, blue] => (color? red green blue).map fun c => { r with foreground := some c }
  | [48, 2, red, green, blue] => (color? red green blue).map fun c => { r with background := some c }
  | _ => none

/-- Obeys one character: part of a sequence, a block in the two colors that are set, or the end of a line,
where none may be. -/
def step (r : Reader) (ch : Char) : Option Reader :=
  match r.phase with
  | .text =>
    if ch = '\x1b' then some { r with phase := .escape }
    else if ch = '▀' then
      match r.foreground, r.background with
      | some top, some bottom => some { r with line := r.line ++ [(top, bottom)] }
      | _, _ => none
    else if ch = '\n' ∧ r.foreground = none ∧ r.background = none then
      some { r with line := [], lines := r.lines ++ [r.line] }
    else none
  | .escape => if ch = '[' then some { r with phase := .parameters [] 0 } else none
  | .parameters before present =>
    if ch.isDigit then
      some { r with phase := .parameters before (10 * present + (ch.toNat - '0'.toNat)) }
    else if ch = ';' then some { r with phase := .parameters (before ++ [present]) 0 }
    else if ch = 'm' then { r with phase := .text }.select (before ++ [present])
    else none

def run (r : Reader) (text : List Char) : Option Reader := text.foldlM step r

end Reader

/-- The grid of colors that a text of half blocks shows. -/
def read? (text : List Char) : Option (List Row) :=
  match ({} : Reader).run text with
  | some ⟨.text, none, none, [], lines⟩ => some lines
  | _ => none

/-! ### Texts of sequences -/

open Decimal (digits)

def parametersText : List Nat → List Char
  | [] => []
  | [n] => digits n
  | n :: m :: ns => digits n ++ ';' :: parametersText (m :: ns)

def sequenceText (parameters : List Nat) : List Char :=
  '\x1b' :: '[' :: (parametersText parameters ++ ['m'])

/-- The text of a line of half blocks, without its end. -/
def rowText (row : Row) : List Char :=
  (row.flatMap fun (top, bottom) => (blockText top bottom).toList) ++ "\x1b[0m".toList

def gridText (grid : List Row) : List Char :=
  (grid.map rowText).flatMap (· ++ ['\n'])

theorem toList_toString_byte (n : UInt8) : (toString n).toList = digits n.toNat := by
  have decimal : toString n = n.toNat.repr := rfl
  rw [decimal, Nat.toList_repr, digits]

theorem toList_blockText (top bottom : Rgba) :
    (blockText top bottom).toList =
      sequenceText [38, 2, top.r.toNat, top.g.toNat, top.b.toNat] ++
        (sequenceText [48, 2, bottom.r.toNat, bottom.g.toNat, bottom.b.toNat] ++ ['▀']) := by
  have front : (toString "\x1b[38;2;").toList =
      '\x1b' :: '[' :: (digits 38 ++ ';' :: (digits 2 ++ [';'])) := by
    decide +kernel
  have back : (toString "m\x1b[48;2;").toList =
      'm' :: '\x1b' :: '[' :: (digits 48 ++ ';' :: (digits 2 ++ [';'])) := by
    decide +kernel
  have between : (toString ";").toList = [';'] := rfl
  have shown : (toString "m▀").toList = ['m', '▀'] := rfl
  unfold blockText
  simp only [String.toList_append, toList_toString_byte]
  rw [front, back, shown, between]
  simp only [sequenceText, parametersText, List.append_assoc, List.cons_append, List.nil_append]

theorem resetText_eq : "\x1b[0m".toList = sequenceText [0] := by decide

namespace Reader

variable {r r' : Reader}

theorem run_cons (r : Reader) (ch : Char) (text : List Char) :
    r.run (ch :: text) = (r.step ch).bind fun r => r.run text := by
  rw [run, List.foldlM_cons]
  rfl

theorem run_append {text : List Char} (first : r.run text = some r') (rest : List Char) :
    r.run (text ++ rest) = r'.run rest := by
  rw [run, List.foldlM_append, ← run, first]
  rfl

theorem run_digits {ds : List Char} (numeral : ∀ d ∈ ds, d.isDigit = true) (r : Reader)
    (before : List Nat) (present : Nat) :
    ({ r with phase := .parameters before present } : Reader).run ds =
      some { r with phase := .parameters before (Nat.ofDigitChars 10 ds present) } := by
  induction ds generalizing present with
  | nil => rfl
  | cons d ds ih =>
    rw [List.forall_mem_cons] at numeral
    rw [run_cons, step]
    simp only [numeral.1, if_true, Option.bind_some]
    rw [ih numeral.2, Nat.ofDigitChars_cons]

theorem run_numeral (r : Reader) (before : List Nat) (n : Nat) (rest : List Char) :
    ({ r with phase := .parameters before 0 } : Reader).run (digits n ++ rest) =
      ({ r with phase := .parameters before n } : Reader).run rest := by
  have read := run_digits (fun d => Decimal.isDigit_of_mem_digits (n := n)) r before 0
  rw [digits, Nat.ofDigitChars_ten_toDigits] at read
  exact run_append read rest

theorem run_parametersText (r : Reader) (before : List Nat) (n : Nat) (ns : List Nat) :
    ({ r with phase := .parameters before 0 } : Reader).run (parametersText (n :: ns) ++ ['m']) =
      ({ r with phase := .text } : Reader).select (before ++ n :: ns) := by
  induction ns generalizing before n with
  | nil =>
    rw [parametersText, run_numeral, run_cons]
    exact Option.bind_fun_some _
  | cons m ns ih =>
    rw [parametersText, List.append_assoc, run_numeral, List.cons_append, run_cons,
      List.append_cons before, ← ih]
    rfl

/-- A sequence is obeyed as a whole. -/
theorem run_sequenceText (r : Reader) (text : r.phase = .text) (n : Nat) (ns : List Nat) :
    r.run (sequenceText (n :: ns)) = r.select (n :: ns) := by
  obtain ⟨phase, foreground, background, line, lines⟩ := r
  obtain rfl : phase = .text := text
  exact run_parametersText ⟨.text, foreground, background, line, lines⟩ [] n ns

theorem color?_eq_some {c : Rgba} (covers : c.isOpaque = true) :
    color? c.r.toNat c.g.toNat c.b.toNat = some c := by
  obtain ⟨r, g, b, a⟩ := c
  obtain rfl : a = 255 := by simpa [Rgba.isOpaque] using covers
  rw [color?, if_pos ⟨r.toNat_lt, g.toNat_lt, b.toNat_lt⟩]
  simp only [Nat.toUInt8_eq, UInt8.ofNat_toNat]
  rfl

/-! ### Shown blocks -/

/-- A block is shown in its own two colors, whatever colors were set before it. -/
theorem run_blockText (r : Reader) (text : r.phase = .text) {top bottom : Rgba}
    (front : top.isOpaque = true) (back : bottom.isOpaque = true) (rest : List Char) :
    r.run ((blockText top bottom).toList ++ rest) =
      ({ r with
        foreground := some top
        background := some bottom
        line := r.line ++ [(top, bottom)] } : Reader).run rest := by
  rw [toList_blockText, List.append_assoc, List.append_assoc]
  have foreground : r.run (sequenceText [38, 2, top.r.toNat, top.g.toNat, top.b.toNat]) =
      some { r with foreground := some top } := by
    rw [run_sequenceText r text, select, color?_eq_some front]
    rfl
  have background :
      ({ r with foreground := some top } : Reader).run
        (sequenceText [48, 2, bottom.r.toNat, bottom.g.toNat, bottom.b.toNat]) =
      some { r with foreground := some top, background := some bottom } := by
    rw [run_sequenceText { r with foreground := some top } text, select, color?_eq_some back]
    rfl
  rw [run_append foreground, run_append background, List.singleton_append, run_cons, step, text]
  rfl

/-- Blocks are shown one behind the other. -/
theorem run_blocks {row : Row} (cover : row.Covers) (r : Reader) (text : r.phase = .text) :
    ∃ foreground background, r.run (row.flatMap fun (top, bottom) => (blockText top bottom).toList) =
      some { r with foreground, background, line := r.line ++ row } := by
  -- The colors that stay set are those of the last block; where there is none, they are any.
  induction row generalizing r with
  | nil => exact ⟨r.foreground, r.background, by rw [List.append_nil]; rfl⟩
  | cons pair row ih =>
    obtain ⟨⟨front, back⟩, cover⟩ := List.forall_mem_cons.mp cover
    obtain ⟨foreground, background, shown⟩ := ih cover
      { r with foreground := some pair.1, background := some pair.2, line := r.line ++ [pair] } text
    refine ⟨foreground, background, ?_⟩
    rw [List.flatMap_cons, run_blockText r text front back, shown, List.append_cons r.line pair row]

/-- A line is shown as a whole and leaves no colors to the next. -/
theorem run_rowText {row : Row} (cover : row.Covers) (lines : List Row) :
    ({ lines } : Reader).run (rowText row ++ ['\n']) = some { lines := lines ++ [row] } := by
  obtain ⟨foreground, background, shown⟩ := run_blocks cover { lines } rfl
  have reset : ({ foreground, background, line := row, lines } : Reader).run (sequenceText [0]) =
      some { line := row, lines } := run_sequenceText _ rfl 0 []
  rw [rowText, List.append_assoc, run_append shown, resetText_eq, List.nil_append, run_append reset]
  rfl

theorem run_gridText {grid : List Row} (cover : ∀ row ∈ grid, row.Covers) (lines : List Row) :
    ({ lines } : Reader).run (gridText grid) = some { lines := lines ++ grid } := by
  induction grid generalizing lines with
  | nil =>
    rw [List.append_nil]
    rfl
  | cons row grid ih =>
    rw [List.forall_mem_cons] at cover
    have rest := ih cover.2 (lines ++ [row])
    rw [gridText] at rest ⊢
    rw [List.map_cons, List.flatMap_cons, run_append (run_rowText cover.1 lines), rest,
      ← List.append_cons]

end Reader

theorem read?_gridText {grid : List Row} (cover : ∀ row ∈ grid, row.Covers) :
    read? (gridText grid) = some grid := by
  rw [read?, Reader.run_gridText cover]
  rfl

/-! ### Previews -/

/-- The colors of the upper and the lower cells of each line of a preview in half blocks. -/
def cellGrid (s : Settings) (f : Frame) : List Row :=
  (List.range (gridSize s f).lines).map fun row =>
    (List.range (gridSize s f).columns).map fun column =>
      (cellColor s f column (gridSize s f).columns (row * 2) ((gridSize s f).lines * 2),
        cellColor s f column (gridSize s f).columns (row * 2 + 1) ((gridSize s f).lines * 2))

theorem toList_render_halfBlock (mode : s.mode = .halfBlock) (f : Frame) :
    (render s f).toList = gridText (cellGrid s f) := by
  have ending : "\x1b[0m\n".toList = "\x1b[0m".toList ++ ['\n'] := by decide
  simp only [render, mode, gridText, cellGrid, rowText, halfBlockCell, String.toList_join,
    String.toList_append, List.flatMap_map, ending, List.append_assoc]

theorem isOpaque_of_mean? {sums : Sums} {c : Rgba} (mean : sums.mean? = some c) : c.isOpaque = true := by
  simp only [Sums.mean?] at mean
  split at mean
  · contradiction
  · cases mean
    rfl

theorem isOpaque_cellColor (s : Settings) (f : Frame) (column columns row rows : Nat) :
    (cellColor s f column columns row rows).isOpaque = true := by
  rw [cellColor]
  split
  · rfl
  · next mean found =>
    split
    · rfl
    · exact isOpaque_of_mean? found

theorem covers_of_mem_cellGrid : ∀ row ∈ cellGrid s f, row.Covers := by
  simp only [cellGrid, Row.Covers, List.forall_mem_map]
  exact fun _ _ _ _ => ⟨isOpaque_cellColor .., isOpaque_cellColor ..⟩

/-- Both halves of a block have the mean colors of pixels, since no cell is without any. -/
theorem cellGrid_getElem? (wide : 0 < f.width.toNat) (tall : 0 < f.height.toNat) {line column : Nat}
    (at_line : line < (gridSize s f).lines) (at_column : column < (gridSize s f).columns) :
    ∃ upper lower,
      cellMean? f column (gridSize s f).columns (line * 2) ((gridSize s f).lines * 2) = some upper ∧
      cellMean? f column (gridSize s f).columns (line * 2 + 1) ((gridSize s f).lines * 2) = some lower ∧
      (cellGrid s f)[line]?.bind (·[column]?) =
        some (if s.invert then (inverted upper, inverted lower) else (upper, lower)) := by
  have colors {row : Nat} (at_row : row < (gridSize s f).lines * 2) :
      cellColors f column (gridSize s f).columns row ((gridSize s f).lines * 2) ≠ [] :=
    mt List.map_eq_nil_iff.mp (cellBlock_ne_nil wide tall at_column at_row)
  have upper := colors (by omega : line * 2 < _)
  have lower := colors (by omega : line * 2 + 1 < _)
  refine ⟨_, _, cellMean?_eq_some upper, cellMean?_eq_some lower, ?_⟩
  rw [cellGrid, List.getElem?_map, List.getElem?_range at_line, Option.map_some, Option.bind_some,
    List.getElem?_map, List.getElem?_range at_column, Option.map_some, cellColor_eq upper,
    cellColor_eq lower]
  split <;> rfl

/-! No line feed stands inside a line. -/

theorem newline_notMem_digits (n : Nat) : '\n' ∉ digits n := fun mem =>
  absurd (Decimal.isDigit_of_mem_digits mem) (by decide)

theorem newline_notMem_parametersText (parameters : List Nat) : '\n' ∉ parametersText parameters := by
  induction parameters with
  | nil => exact List.not_mem_nil
  | cons n ns ih =>
    cases ns with
    | nil => exact newline_notMem_digits n
    | cons m ns =>
      rw [parametersText, List.mem_append, List.mem_cons, not_or, not_or]
      exact ⟨newline_notMem_digits n, by decide, ih⟩

theorem newline_notMem_sequenceText (parameters : List Nat) : '\n' ∉ sequenceText parameters := by
  have plain := newline_notMem_parametersText parameters
  simp [sequenceText, plain]

theorem newline_notMem_rowText (row : Row) : '\n' ∉ rowText row := by
  rw [rowText, resetText_eq, List.mem_append, List.mem_flatMap, not_or]
  refine ⟨?_, newline_notMem_sequenceText _⟩
  rintro ⟨⟨top, bottom⟩, _, mem⟩
  dsimp only at mem
  rw [toList_blockText, List.mem_append, List.mem_append] at mem
  rcases mem with front | back | block
  · exact newline_notMem_sequenceText _ front
  · exact newline_notMem_sequenceText _ back
  · contradiction

theorem mem_asciiLines {text : List Char} (mem : text ∈ asciiLines s f) :
    text.length = (gridSize s f).columns ∧ ∀ ch ∈ text, ch ∈ " .:-=+*#%@".toList := by
  obtain ⟨row, _, rfl⟩ := List.mem_map.mp mem
  refine ⟨by rw [List.length_map, List.length_range], ?_⟩
  rw [List.forall_mem_map]
  exact fun column _ => rampChar_mem _

/-- The text of a preview is its lines. -/
theorem exists_lines (s : Settings) (f : Frame) :
    ∃ texts, (render s f).toList.splitOn '\n' = texts ++ [[]] ∧ texts.length = (gridSize s f).lines ∧
      (s.mode = .ascii → ∀ text ∈ texts,
        text.length = (gridSize s f).columns ∧ ∀ ch ∈ text, ch ∈ " .:-=+*#%@".toList) := by
  cases mode : s.mode with
  | ascii =>
    refine ⟨asciiLines s f, ?_, ?_, fun _ text => mem_asciiLines⟩
    · rw [toList_render_ascii mode]
      refine splitOn_lines fun text mem newline => ?_
      exact absurd ((mem_asciiLines mem).2 _ newline) (by decide)
    · rw [asciiLines, List.length_map, List.length_range]
  | halfBlock =>
    refine ⟨(cellGrid s f).map rowText, ?_, ?_, nofun⟩
    · rw [toList_render_halfBlock mode, gridText]
      refine splitOn_lines ?_
      rw [List.forall_mem_map]
      exact fun row _ => newline_notMem_rowText row
    · rw [cellGrid, List.length_map, List.length_map, List.length_range]

/-- A preview has at least one column and one line, at most as many columns as are asked for and as there
are columns of pixels, and at most as many lines as the rows of pixels can fill. Its text is just these
lines, each ended by a line feed, and in characters of the ramp one character for each column. In half
blocks the sequences show a terminal the mean colors of the upper and the lower cells, and no other grid
has this text. -/
theorem render_reads (s : Settings) (f : Frame) (wide : f.width ≠ 0) (tall : f.height ≠ 0)
    (short : f.height < 4294967295) :
    let columns := (gridSize s f).columns
    let lines := (gridSize s f).lines
    1 ≤ columns ∧ columns ≤ min (max s.columns 1) f.width.toNat ∧
    1 ≤ lines ∧ lines ≤ ⌈(f.height.toNat : ℚ) / s.mode.rowsPerLine⌉₊ ∧
    lines * s.mode.rowsPerLine < 2 ^ 32 ∧
    (∃ texts, (render s f).toList.splitOn '\n' = texts ++ [[]] ∧ texts.length = lines ∧
      (s.mode = .ascii → ∀ text ∈ texts,
        text.length = columns ∧ ∀ ch ∈ text, ch ∈ " .:-=+*#%@".toList)) ∧
    (s.mode = .halfBlock →
      read? (render s f).toList = some (cellGrid s f) ∧
      (∀ line < lines, ∀ column < columns, ∃ upper lower,
        cellMean? f column columns (line * 2) (lines * 2) = some upper ∧
        cellMean? f column columns (line * 2 + 1) (lines * 2) = some lower ∧
        (cellGrid s f)[line]?.bind (·[column]?) =
          some (if s.invert then (inverted upper, inverted lower) else (upper, lower))) ∧
      ∀ grid, (∀ row ∈ grid, row.Covers) →
        gridText grid = (render s f).toList → grid = cellGrid s f) := by
  intro columns lines
  have width : 0 < f.width.toNat := toNat_pos wide
  have height : 0 < f.height.toNat := toNat_pos tall
  obtain ⟨some_, narrow, requested⟩ := columns_bounds (s := s) width
  refine ⟨some_, Nat.le_min.mpr ⟨requested, narrow⟩, (lines_bounds height).1, lines_le_ceil height,
    cellRows_lt height short, exists_lines s f, ?_⟩
  intro mode
  rw [toList_render_halfBlock mode]
  have shown : read? (gridText (cellGrid s f)) = some (cellGrid s f) :=
    read?_gridText covers_of_mem_cellGrid
  refine ⟨shown, fun line at_line column => cellGrid_getElem? width height at_line, ?_⟩
  intro grid cover same
  have read := read?_gridText cover
  rw [same, shown] at read
  exact (Option.some.inj read).symm

/-- Two lines of three blocks show three rows of three pixels. -/
theorem render_reads_square :
    ∃ f, Frame.new? 3 3 = .ok f ∧ f.width ≠ 0 ∧ f.height ≠ 0 ∧ f.height < 4294967295 ∧
      (∃ first second, (render {} f).toList.splitOn '\n' = [first, second, []]) ∧
      read? (render {} f).toList = some (cellGrid {} f) := by
  obtain ⟨f, new, width, height, _⟩ := Frame.exists_whole_new? (by decide : Frame.Allocatable 3 3)
  have wide : f.width ≠ 0 := width ▸ by decide
  have tall : f.height ≠ 0 := height ▸ by decide
  have short : f.height < 4294967295 := height ▸ by decide
  obtain ⟨_, _, _, _, _, ⟨texts, split, count, _⟩, shown⟩ := render_reads {} f wide tall short
  rw [gridSize_square width height] at count
  obtain ⟨first, second, rfl⟩ := List.length_eq_two.mp count
  exact ⟨f, new, wide, tall, short, ⟨first, second, split⟩, (shown rfl).1⟩

end PointScope.Terminal
