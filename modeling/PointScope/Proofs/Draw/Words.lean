import PointScope.Proofs.Decimal.Rounding
import PointScope.Proofs.Draw.Area
import PointScope.Proofs.Frame.Access

/-! Areas in machine words. Columns, rows and lengths are computed in signed words of 64 bits, written
with unsigned words of 32 bits, and the sums of a rectangle stop at the greatest of those. Here every
number is checked to fit into its word where it is computed; on frames whose rows are pixel coordinates
none fails to, and what is drawn is the area itself. -/
namespace PointScope

/-! ### Words -/

namespace Screen

/-- A number that is a pixel coordinate. -/
def IsCoordinate (n : Int) : Prop := least ≤ n ∧ n ≤ greatest

instance (n : Int) : Decidable (IsCoordinate n) := inferInstanceAs (Decidable (_ ∧ _))

end Screen

namespace Word

/-- A number, if it lies in a range. -/
def within? (least greatest n : Int) : Option Int :=
  if least ≤ n ∧ n ≤ greatest then some n else none

/-- A signed word of 64 bits. It stays folded, since unifying with its ends would count up to them. -/
@[irreducible]
def long? (n : Int) : Option Int := within? (-9223372036854775808) 9223372036854775807 n

/-- A signed word of 32 bits. -/
def coordinate? (n : Int) : Option Int := within? Screen.least Screen.greatest n

/-- An unsigned word of 32 bits. -/
def unsigned? (n : Int) : Option UInt32 :=
  (within? 0 4294967295 n).map fun n => UInt32.ofNat n.toNat

/-- The sum of two words, or the greatest word if it is none. -/
def plus (a b : UInt32) : UInt32 := if a + b < a then 4294967295 else a + b

variable {n : Int}

theorem long?_eq_some (low : -9223372036854775808 ≤ n) (high : n ≤ 9223372036854775807) :
    long? n = some n := by
  rw [long?, within?, if_pos ⟨low, high⟩]

theorem coordinate?_eq_some (low : Screen.least ≤ n) (high : n ≤ Screen.greatest) :
    coordinate? n = some n :=
  if_pos ⟨low, high⟩

theorem unsigned?_eq_some (low : 0 ≤ n) (high : n ≤ 4294967295) :
    ∃ w, unsigned? n = some w ∧ w.toNat = n.toNat := by
  refine ⟨_, by rw [unsigned?, within?, if_pos ⟨low, high⟩]; rfl, ?_⟩
  rw [UInt32.toNat_ofNat', Nat.mod_eq_of_lt]
  omega

theorem toNat_plus (a b : UInt32) : (plus a b).toNat = min (a.toNat + b.toNat) 4294967295 := by
  have first := a.toNat_lt
  have second := b.toNat_lt
  have sum : (a + b).toNat = (a.toNat + b.toNat) % 4294967296 := UInt32.toNat_add a b
  simp only [plus, UInt32.lt_iff_toNat_lt, sum]
  split
  · change 4294967295 = _
    omega
  · rw [sum]
    omega

variable {start length limit : UInt32}

/-- A side of a rectangle that has nothing before a limit has no length once it is cut. -/
theorem cut_eq_zero (empty : min (plus start length) limit ≤ min start limit) :
    min (start.toNat + length.toNat) limit.toNat - start.toNat = 0 := by
  have bound := limit.toNat_lt
  rw [UInt32.le_iff_toNat_le, UInt32.toNat_min, UInt32.toNat_min, toNat_plus] at empty
  omega

/-- The ends of any other side are apart by its length up to the limit, whether or not their sum stopped
at the greatest word. -/
theorem cut_eq (filled : min start limit < min (plus start length) limit) :
    start.toNat < limit.toNat ∧ (min start limit).toNat = start.toNat ∧
      (min (plus start length) limit - min start limit).toNat =
        min (start.toNat + length.toNat) limit.toNat - start.toNat := by
  have bound := limit.toNat_lt
  have difference := UInt32.toNat_sub_of_le _ _ (UInt32.le_of_lt filled)
  rw [UInt32.toNat_min, UInt32.toNat_min, toNat_plus] at difference
  rw [UInt32.lt_iff_toNat_lt, UInt32.toNat_min, UInt32.toNat_min, toNat_plus] at filled
  rw [UInt32.toNat_min, difference]
  omega

end Word

open Word

/-! ### Rectangles of a frame -/

namespace Frame

variable {f g : Frame} {c : Rgba}

/-- Replaces the color of the pixels of a rectangle, cut to the frame, each row of them at once. -/
def fillRectInWords (f : Frame) (x y w h : UInt32) (c : Rgba) : Frame :=
  let left := min x f.width
  let top := min y f.height
  let right := min (plus x w) f.width
  let bottom := min (plus y h) f.height
  if right ≤ left ∨ bottom ≤ top then f
  else
    (List.range' top.toNat (bottom - top).toNat).foldl
      (fun f row =>
        let bytes := putRun f.bytes (f.offset left.toNat row) (right - left).toNat c
        { f with bytes }) f

/-- Pixels of a row that follow one another are written one after the other. -/
theorem foldl_set_eq_putRun {x y n : Nat} (f : Frame) (wide : x + n ≤ f.width.toNat)
    (tall : y < f.height.toNat) (c : Rgba) :
    (List.range' x n).foldl (fun f column => f.set column y c) f =
      { f with bytes := putRun f.bytes (f.offset x y) n c } := by
  induction n with
  | zero => rfl
  | succ n ih =>
    have last : ∀ bytes, ({ f with bytes } : Frame).set (x + n) y c =
        { f with bytes := putColor bytes (f.offset x y + 4 * n) c } := by
      intro bytes
      have inside : x + n < f.width.toNat ∧ y < f.height.toNat := ⟨by omega, tall⟩
      have place : ({ f with bytes } : Frame).offset (x + n) y = f.offset x y + 4 * n := by
        change y * f.stride + 4 * (x + n) = y * f.stride + 4 * x + 4 * n
        omega
      rw [set, if_pos inside, place]
    rw [List.range'_1_concat, List.foldl_append, ih (by omega), List.foldl_cons, List.foldl_nil, last]
    simp only [putRun, List.range_succ, List.foldl_append, List.foldl_cons, List.foldl_nil]

/-- Stopping at the greatest word is cutting to the frame, whose sides are words. -/
theorem fillRectInWords_eq (f : Frame) (x y w h : UInt32) (c : Rgba) :
    f.fillRectInWords x y w h c = f.fillRect x.toNat y.toNat w.toNat h.toNat c := by
  simp only [fillRectInWords, fillRect]
  split
  · rename_i empty
    rcases empty with narrow | low
    · simp only [cut_eq_zero narrow, List.range'_zero, List.foldl_nil, List.foldl_fixed]
    · simp only [cut_eq_zero low, List.range'_zero, List.foldl_nil]
  · rename_i filled
    rw [not_or, UInt32.not_le, UInt32.not_le] at filled
    obtain ⟨starts, left, columns⟩ := cut_eq filled.1
    obtain ⟨_, top, rows⟩ := cut_eq filled.2
    rw [left, columns, top, rows]
    apply Alike.foldl_congr
    · intro g row
      exact .foldl (fun g column => g.alike_set column row c) _ g
    · intro g alike row mem
      rw [List.mem_range'_1] at mem
      rw [foldl_set_eq_putRun g]
      · rw [alike.width]
        omega
      · rw [alike.height]
        omega

end Frame

namespace Draw

variable {f : Frame} {v s : Nat}

/-! ### Roots -/

def loweredInWords? (v : Nat) : Nat → Option Nat
  | 0 => some 0
  | s + 1 => do
    let square ← long? ((s + 1) * (s + 1) : Nat)
    if (v : Int) < square then loweredInWords? v s else some (s + 1)

def raisedInWords? (v s : Nat) : Option Nat := do
  let _ ← long? ((s + 1) * (s + 1) : Nat)
  if (s + 1) * (s + 1) ≤ v then raisedInWords? v (s + 1) else some s
termination_by v - s
decreasing_by
  have : s + 1 ≤ (s + 1) * (s + 1) := Nat.le_mul_self _
  omega

/-- The whole part of a square root, corrected from the root in double precision. -/
def rootInWords? (v : Nat) : Option Nat := do
  let guess ← long? (Float.sqrt (UInt64.ofNat v).toFloat).toUInt64.toNat
  let low ← loweredInWords? v guess.toNat
  raisedInWords? v low

theorem loweredInWords?_eq_some (short : s ≤ 2 ^ 31) :
    loweredInWords? v s = some (lowered v s) := by
  induction s with
  | zero => rfl
  | succ s ih =>
    have square : (s + 1) * (s + 1) ≤ 2 ^ 31 * 2 ^ 31 := Nat.mul_le_mul short short
    rw [loweredInWords?, long?_eq_some (by omega) (by omega), lowered]
    change (if _ then _ else _) = _
    simp only [Int.ofNat_lt]
    split
    · exact ih (by omega)
    · rfl

theorem raisedInWords?_eq_some (small : v < 2 ^ 62) (below : s * s ≤ v) :
    raisedInWords? v s = some (raised v s) := by
  fun_induction raised v s with
  | case1 s next ih =>
    rw [raisedInWords?, long?_eq_some (by omega) (by omega)]
    change (if _ then _ else _) = _
    rw [if_pos next]
    exact ih next
  | case2 s stop =>
    have short : s < 2 ^ 31 := by
      apply Nat.mul_self_lt_mul_self_iff.mp
      omega
    have square : (s + 1) * (s + 1) ≤ 2 ^ 31 * 2 ^ 31 := Nat.mul_le_mul short short
    rw [raisedInWords?, long?_eq_some (by omega) (by omega)]
    exact if_neg stop

/-- The root of what remains of the square of a radius is found without leaving the words. -/
theorem rootInWords?_eq_some (small : v < 2 ^ 62) : rootInWords? v = some (root v) := by
  have guess := Decimal.toUInt64_sqrt_le small
  rw [rootInWords?, long?_eq_some (by omega) (by omega)]
  change (loweredInWords? v _).bind _ = _
  rw [Int.toNat_natCast, loweredInWords?_eq_some guess]
  exact raisedInWords?_eq_some small (lowered_mul_self_le v _)

/-! ### Spans -/

def spanInWords? (f : Frame) (row first last : Int) (c : Rgba) : Option Frame := do
  if row < 0 ∨ f.height.toNat ≤ row then return f
  let lo := max first 0
  let edge ← long? ((f.width.toNat : Int) - 1)
  let hi := min last edge
  if hi < lo then return f
  let y ← unsigned? row
  if c.isOpaque then
    let x ← unsigned? lo
    let reach ← long? (hi - lo)
    let length ← long? (reach + 1)
    let w ← unsigned? length
    return f.fillRectInWords x y w 1 c
  else
    (List.range' lo.toNat (hi + 1 - lo).toNat).foldlM
      (fun f (column : Nat) => do
        let x ← unsigned? column
        return f.blend x.toNat y.toNat c) f

theorem spanInWords?_eq_some {row : Nat} (inside : row < f.height.toNat) (first last : Int)
    (c : Rgba) : spanInWords? f row first last c = some (span f row first last c) := by
  have width := f.width.toNat_lt
  have height := f.height.toNat_lt
  have nonneg : 0 ≤ max first 0 := by omega
  have within : min last ((f.width.toNat : Int) - 1) < f.width.toNat := by omega
  have left : ((max first 0).toNat : Int) = max first 0 := Int.toNat_of_nonneg nonneg
  obtain ⟨y, row_fits, at_row⟩ := unsigned?_eq_some (n := row) (by omega) (by omega)
  rw [Int.toNat_natCast] at at_row
  simp only [spanInWords?, span]
  rw [if_neg (by omega), long?_eq_some (by omega) (by omega), left]
  simp only [Option.bind_eq_bind, Option.bind_some, row_fits, at_row]
  generalize max first 0 = lo at *
  generalize min last ((f.width.toNat : Int) - 1) = hi at *
  split
  · rename_i empty
    have length : (hi + 1 - lo).toNat = 0 := by omega
    have columns : min (lo.toNat + 0) f.width.toNat - lo.toNat = 0 := by omega
    simp only [length, Frame.fillRect, columns, List.range'_zero, List.foldl_nil, List.foldl_fixed]
    exact congrArg some (ite_self f).symm
  · rename_i filled
    split
    · obtain ⟨x, x_fits, at_x⟩ := unsigned?_eq_some (n := lo) (by omega) (by omega)
      obtain ⟨w, w_fits, at_w⟩ := unsigned?_eq_some (n := hi - lo + 1) (by omega) (by omega)
      have length : (hi + 1 - lo).toNat = (hi - lo + 1).toNat := by omega
      rw [x_fits, long?_eq_some (by omega) (by omega), Option.bind_some, Option.bind_some,
        long?_eq_some (by omega) (by omega), Option.bind_some, w_fits, Option.bind_some,
        Frame.fillRectInWords_eq, at_x, at_row, at_w, length]
      rfl
    · apply foldlM_eq_some (P := fun _ => True)
      · intro _ _ _
        trivial
      · intro g _ column mem
        rw [List.mem_range'_1] at mem
        obtain ⟨x, x_fits, at_x⟩ := unsigned?_eq_some (n := column) (by omega) (by omega)
        rw [x_fits, Option.bind_some, at_x]
        rfl
      · trivial

/-! ### Areas -/

def rectInWords? (f : Frame) (x y : Int) (w h : UInt32) (c : Rgba) : Option Frame := do
  let beyond ← long? (y + h.toNat)
  let right ← long? (x + w.toNat)
  let last ← long? (right - 1)
  let top := max y 0
  let bottom := min beyond f.height.toNat
  (List.range' top.toNat (bottom - top).toNat).foldlM
    (fun f (row : Nat) => do
      let row ← coordinate? row
      spanInWords? f row x last c) f

def discRowInWords? (f : Frame) (center : Pixel) (radius row : Int) (c : Rgba) : Option Frame := do
  let dy ← long? (row - center.y)
  let square ← long? (radius * radius)
  let height ← long? (dy * dy)
  let rest ← long? (square - height)
  let half ← rootInWords? rest.toNat
  let first ← long? (center.x - half)
  let last ← long? (center.x + half)
  let row ← coordinate? row
  spanInWords? f row first last c

def discInWords? (f : Frame) (center : Pixel) (radius : Int) (c : Rgba) : Option Frame := do
  if radius < 0 then return f
  let above ← long? (center.y - radius)
  let below ← long? (center.y + radius)
  let edge ← long? ((f.height.toNat : Int) - 1)
  let top := max above 0
  let bottom := min below edge
  (List.range' top.toNat (bottom + 1 - top).toNat).foldlM
    (fun f (row : Nat) => discRowInWords? f center radius row c) f

/-- The rows of a frame are pixel coordinates if it is not taller than there are of these. -/
theorem rowsOf_eq_range' (short : f.height.toNat ≤ 2 ^ 31) (first beyond : Int) :
    rowsOf f first beyond =
      List.range' (max first 0).toNat (min beyond f.height.toNat - max first 0).toNat := by
  simp only [rowsOf, Screen.greatest]
  congr 1
  omega

/-- Rows are painted one after the other, each in words. -/
theorem foldlM_rows_eq_some {step? : Frame → Nat → Option Frame} {first last : Nat → Int} {c : Rgba}
    {rows : List Nat} (inside : ∀ row ∈ rows, row < f.height.toNat)
    (succeeds : ∀ g : Frame, f.Alike g → ∀ row ∈ rows,
      step? g row = spanInWords? g row (first row) (last row) c) :
    rows.foldlM step? f = some (rows.foldl (fun f row => span f row (first row) (last row) c) f) := by
  apply foldlM_eq_some (P := fun g => f.Alike g)
  · intro g row alike
    exact alike.trans (alike_span g row (first row) (last row) c)
  · intro g alike row mem
    rw [succeeds g alike row mem]
    exact spanInWords?_eq_some (alike.height ▸ inside row mem) (first row) (last row) c
  · exact .refl f

theorem rectInWords?_eq_some (short : f.height.toNat ≤ 2 ^ 31) {x y : Int}
    (hx : Screen.IsCoordinate x) (hy : Screen.IsCoordinate y) (w h : UInt32) (c : Rgba) :
    rectInWords? f x y w h c = some (rect f x y w.toNat h.toNat c) := by
  have width := w.toNat_lt
  have height := h.toNat_lt
  unfold Screen.IsCoordinate Screen.least Screen.greatest at hx hy
  simp only [rectInWords?, rect]
  rw [long?_eq_some (by omega) (by omega), long?_eq_some (by omega) (by omega)]
  simp only [Option.bind_eq_bind, Option.bind_some]
  rw [long?_eq_some (by omega) (by omega), Option.bind_some, ← rowsOf_eq_range' short]
  apply foldlM_rows_eq_some lt_height_of_mem_rowsOf
  intro g _ row mem
  obtain ⟨_, _, _, high⟩ := mem_rowsOf.mp mem
  rw [coordinate?_eq_some (Int.le_trans (by decide) (Int.natCast_nonneg row)) high]
  rfl

theorem discRowInWords?_eq {center : Pixel} {radius row : Int} (hx : Screen.IsCoordinate center.x)
    (hr : Screen.IsCoordinate radius) (nonneg : 0 ≤ radius)
    (near : center.y - radius ≤ row ∧ row ≤ center.y + radius) (hrow : Screen.IsCoordinate row)
    (c : Rgba) :
    discRowInWords? f center radius row c =
      spanInWords? f row (center.x - root (radius * radius - (row - center.y) * (row - center.y)).toNat)
        (center.x + root (radius * radius - (row - center.y) * (row - center.y)).toNat) c := by
  unfold Screen.IsCoordinate at hx hr hrow
  have coordinate := coordinate?_eq_some hrow.1 hrow.2
  unfold Screen.least Screen.greatest at hx hr hrow
  have square : radius * radius ≤ 2147483647 * 2147483647 :=
    Int.mul_le_mul hr.2 hr.2 nonneg (by decide)
  have height : (row - center.y) * (row - center.y) ≤ radius * radius := by
    rw [← Int.natAbs_le_iff_mul_self_le]
    omega
  have height_nonneg := mul_self_nonneg (row - center.y)
  have rest : (radius * radius - (row - center.y) * (row - center.y)).toNat < 2 ^ 62 := by omega
  have half : root (radius * radius - (row - center.y) * (row - center.y)).toNat < 2 ^ 31 := by
    rw [root_eq_sqrt]
    exact Nat.sqrt_lt.mpr rest
  rw [discRowInWords?, long?_eq_some (by omega) (by omega), long?_eq_some (by omega) (by omega)]
  simp only [Option.bind_eq_bind, Option.bind_some]
  rw [long?_eq_some (by omega) (by omega), Option.bind_some, long?_eq_some (by omega) (by omega),
    Option.bind_some, rootInWords?_eq_some rest, Option.bind_some,
    long?_eq_some (by omega) (by omega), Option.bind_some, long?_eq_some (by omega) (by omega),
    Option.bind_some, coordinate]
  rfl

theorem discInWords?_eq_some (short : f.height.toNat ≤ 2 ^ 31) {center : Pixel} {radius : Int}
    (hx : Screen.IsCoordinate center.x) (hy : Screen.IsCoordinate center.y)
    (hr : Screen.IsCoordinate radius) (c : Rgba) :
    discInWords? f center radius c = some (disc f center radius c) := by
  simp only [discInWords?, disc]
  split
  · rfl
  · rename_i nonneg
    have near : ∀ row ∈ rowsOf f (center.y - radius) (center.y + radius + 1),
        (center.y - radius ≤ row ∧ row ≤ center.y + radius) ∧ Screen.IsCoordinate row := by
      intro row mem
      obtain ⟨above, below, _, high⟩ := mem_rowsOf.mp mem
      exact ⟨⟨above, by omega⟩, Int.le_trans (by decide) (Int.natCast_nonneg row), high⟩
    unfold Screen.IsCoordinate Screen.least Screen.greatest at hy
    have bounds := hr
    unfold Screen.IsCoordinate Screen.least Screen.greatest at bounds
    rw [long?_eq_some (by omega) (by omega), long?_eq_some (by omega) (by omega)]
    simp only [Option.bind_eq_bind, Option.bind_some]
    rw [long?_eq_some (by omega) (by omega), Option.bind_some]
    have rows : List.range' (max (center.y - radius) 0).toNat
        (min (center.y + radius) ((f.height.toNat : Int) - 1) + 1 - max (center.y - radius) 0).toNat =
        rowsOf f (center.y - radius) (center.y + radius + 1) := by
      rw [rowsOf_eq_range' short]
      congr 1
      omega
    rw [rows]
    apply foldlM_rows_eq_some lt_height_of_mem_rowsOf
    intro g _ row mem
    obtain ⟨close, coordinate⟩ := near row mem
    exact discRowInWords?_eq hx hr (Int.not_lt.mp nonneg) close coordinate c

end Draw

end PointScope
