import PointScope.Proofs.Draw.Path

/-! Lines without division. An incremental walk keeps an error, which says on which side of the ideal line
the point half a pixel across from the next step lies, and moves across whenever that point is reached. The
error is what the rounded quotient of the closed form leaves over, so both take the same pixels. -/
namespace PointScope.Draw

/-- An incremental walk at a pixel. -/
structure Walker where
  place : Pixel
  error : Int
deriving DecidableEq, Repr

namespace Line

variable (l : Line) {i : Nat} {w : Walker}

/-! ### Steps -/

/-- The pixel next to one along the longer axis of the line, towards its end. -/
def ahead (p : Pixel) : Pixel :=
  if l.isFlat then ⟨p.x + heading l.start.x l.stop.x, p.y⟩
  else ⟨p.x, p.y + heading l.start.y l.stop.y⟩

/-- The pixel next to one along the shorter axis of the line, towards its end. -/
def aside (p : Pixel) : Pixel :=
  if l.isFlat then ⟨p.x, p.y + heading l.start.y l.stop.y⟩
  else ⟨p.x + heading l.start.x l.stop.x, p.y⟩

def outset : Walker := ⟨l.start, 2 * l.shorter - l.length⟩

/-- Moves across by one pixel if the error is not negative. -/
def turn (w : Walker) : Walker :=
  if 0 ≤ w.error then ⟨l.aside w.place, w.error - 2 * l.length⟩ else w

/-- One step of the incremental walk: a turn if it is due, and then one pixel ahead. -/
def advance (w : Walker) : Walker :=
  ⟨l.ahead (l.turn w).place, (l.turn w).error + 2 * l.shorter⟩

/-- The pixels of a walk, from where it is to the end of some steps. -/
def walkFrom (w : Walker) : (steps : Nat) → List Pixel
  | 0 => [w.place]
  | steps + 1 => w.place :: walkFrom (l.advance w) steps

/-- The line as an incremental walk. -/
def walk : List Pixel := l.walkFrom l.outset l.length

theorem ahead_axes (p : Pixel) :
    l.along (l.ahead p) = l.along p + l.forward ∧ l.across (l.ahead p) = l.across p := by
  simp only [along, across, forward, ahead]
  by_cases flat : l.isFlat = true
  · simp only [if_pos flat, and_self]
  · simp only [if_neg flat, and_self]

theorem aside_axes (p : Pixel) :
    l.along (l.aside p) = l.along p ∧ l.across (l.aside p) = l.across p + l.sideways := by
  simp only [along, across, sideways, aside]
  by_cases flat : l.isFlat = true
  · simp only [if_pos flat, and_self]
  · simp only [if_neg flat, and_self]

/-! ### Runs -/

/-- What is left of a number of steps, in parts of a pixel, when the point half a pixel beyond an offset is
taken off. -/
def remainder (i offset : Nat) : Int := (2 * i * l.shorter : Nat) - ((2 * offset + 1) * l.length : Nat)

theorem remainder_ahead (i offset : Nat) :
    l.remainder (i + 1) offset = l.remainder i offset + 2 * l.shorter := by
  simp only [remainder, Nat.mul_add, Nat.add_mul]
  omega

theorem remainder_aside (i offset : Nat) :
    l.remainder i (offset + 1) = l.remainder i offset - 2 * l.length := by
  simp only [remainder, Nat.mul_add, Nat.add_mul]
  omega

theorem remainder_nonneg_iff {i offset : Nat} :
    0 ≤ l.remainder i offset ↔ (2 * offset + 1) * l.length ≤ 2 * i * l.shorter := by
  rw [remainder, Int.sub_nonneg, Int.ofNat_le]

/-- The walk is where the closed form is after some steps, and its error is what remains of the next step
behind the present offset. -/
structure IsAfter (i : Nat) (w : Walker) : Prop where
  place : w.place = l.pixel i
  error : w.error = l.remainder (i + 1) (minorOffset i l.shorter l.length)

theorem isAfter_outset : l.IsAfter 0 l.outset where
  place := l.pixel_zero.symm
  error := by
    rw [minorOffset_zero, outset, remainder]
    dsimp only
    omega

/-- A turn is due exactly if the offset of the next step is another one. -/
theorem IsAfter.turn (moves : 0 < l.length) (after : l.IsAfter i w) :
    l.along (l.turn w).place = l.along (l.pixel i) ∧
      l.across (l.turn w).place = l.across (l.pixel (i + 1)) ∧
      (l.turn w).error = l.remainder (i + 1) (minorOffset (i + 1) l.shorter l.length) := by
  obtain ⟨along, across⟩ := l.aside_axes (l.pixel i)
  rw [across_pixel] at across
  rw [across_pixel, Line.turn, after.place, after.error,
    minorOffset_succ moves l.shorter_le_length]
  simp only [← remainder_nonneg_iff]
  by_cases due : 0 ≤ l.remainder (i + 1) (minorOffset i l.shorter l.length)
  · rw [if_pos due, if_pos due, remainder_aside]
    exact ⟨along, across.trans (add_mul_succ _ _ _).symm, rfl⟩
  · rw [if_neg due, if_neg due]
    exact ⟨congrArg l.along after.place, after.place ▸ l.across_pixel i, after.error⟩

theorem IsAfter.advance (moves : 0 < l.length) (after : l.IsAfter i w) :
    l.IsAfter (i + 1) (l.advance w) := by
  obtain ⟨along, across, error⟩ := after.turn l moves
  obtain ⟨ahead, beside⟩ := l.ahead_axes (l.turn w).place
  constructor
  · apply eq_of_axes
    · rw [Line.advance, ahead, along, along_pixel, along_pixel, add_mul_succ]
    · exact beside.trans across
  · rw [l.remainder_ahead (i + 1), ← error]
    rfl

/-- A run of the walk takes the pixels of the closed form one after the other. -/
theorem IsAfter.walkFrom {steps : Nat} (after : l.IsAfter i w) (room : i + steps ≤ l.length) :
    l.walkFrom w steps = (List.range' i (steps + 1)).map l.pixel := by
  induction steps generalizing i w with
  | zero => exact congrArg (fun p => [p]) after.place
  | succ steps ih =>
    have next := after.advance l (by omega)
    rw [Line.walkFrom, ih next (by omega), after.place]
    rfl

/-- The closed form is the incremental algorithm: both take the same pixels in the same order, ties
included, and so drawing a line is plotting the incremental walk. -/
theorem pixels_eq_walk (l : Line) :
    l.pixels = l.walk ∧ ∀ (f : Frame) (c : Rgba), l.draw f c = f.plotAll l.walk c := by
  have same : l.pixels = l.walk := by
    rw [walk, l.isAfter_outset.walkFrom l (by omega), pixels, List.range_eq_range']
  refine ⟨same, fun f c => ?_⟩
  rw [draw_eq_plotAll, same]

end Line

end PointScope.Draw
