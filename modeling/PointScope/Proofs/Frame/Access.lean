import PointScope.Proofs.Frame.Layout

/-! Accesses to the buffer of a frame. Every operation has a checked form that stops at the first
access to bytes the buffer does not have, and is the operation itself otherwise. On a frame whose
buffer holds all of its rows no checked operation stops: whatever the arguments are, all bytes that
are read or written are bytes of the buffer. -/
namespace PointScope

/-- A fold whose steps succeed wherever an invariant of the plain fold holds. -/
theorem foldlM_eq_some {P : σ → Prop} {step? : σ → α → Option σ} {step : σ → α → σ} {as : List α}
    (kept : ∀ s a, P s → P (step s a))
    (succeeds : ∀ s, P s → ∀ a ∈ as, step? s a = some (step s a)) {s : σ} (start : P s) :
    as.foldlM step? s = some (as.foldl step s) := by
  induction as generalizing s with
  | nil => rfl
  | cons a as ih =>
    rw [List.foldlM_cons, succeeds s start a List.mem_cons_self]
    exact ih (fun s start b mem => succeeds s start b (List.mem_cons_of_mem a mem)) (kept s a start)

namespace Frame

variable {f g : Frame}

/-- The buffer holds all rows of the frame. -/
def Whole (f : Frame) : Prop := f.bytes.size = f.stride * f.height.toNat

theorem Alike.whole (alike : f.Alike g) (whole : f.Whole) : g.Whole := by
  rw [Whole, alike.bytes, alike.stride, alike.height]
  exact whole

/-- A row of a whole frame lies in the buffer. -/
theorem Whole.row (whole : f.Whole) {y : Nat} (inside : y < f.height.toNat) :
    y * f.stride + f.rowBytes ≤ f.bytes.size := by
  have rows := Nat.mul_le_mul_left f.stride (Nat.succ_le_of_lt inside)
  have row := f.rowBytes_le_stride
  rw [Nat.mul_succ, Nat.mul_comm _ y] at rows
  rw [whole]
  omega

theorem Whole.holds (whole : f.Whole) {x y : Nat} (hx : x < f.width.toNat)
    (hy : y < f.height.toNat) : f.Holds x y := by
  have row := whole.row hy
  refine ⟨hx, hy, ?_⟩
  simp only [rowBytes, offset] at *
  omega

theorem LaidOut.whole {v : Viewport} (laid : f.LaidOut v) : f.Whole := by
  cases laid.size
  exact laid.length

/-- Steps that succeed on whole frames, and keep them whole, succeed one after the other. -/
theorem Whole.foldlM {step? : Frame → α → Option Frame} {step : Frame → α → Frame}
    (alike : ∀ (f : Frame) a, f.Alike (step f a))
    (succeeds : ∀ (f : Frame), f.Whole → ∀ a, step? f a = some (step f a)) (whole : f.Whole)
    (as : List α) : as.foldlM step? f = some (as.foldl step f) :=
  foldlM_eq_some (fun f a => (alike f a).whole) (fun f whole a _ => succeeds f whole a) whole

/-! ### Checked accesses -/

/-- Reads the four bytes of a color. -/
def colorAt? (f : Frame) (i : Nat) : Option Rgba :=
  if i + 4 ≤ f.bytes.size then some (f.colorAt i) else none

/-- Writes the four bytes of a color. -/
def putColor? (bytes : ByteArray) (i : Nat) (c : Rgba) : Option ByteArray :=
  if i + 4 ≤ bytes.size then some (putColor bytes i c) else none

/-- Writes the bytes of a part. -/
def putPart? (bytes : ByteArray) (i : Nat) (part : ByteArray) : Option ByteArray :=
  if i + part.size ≤ bytes.size then some (putPart bytes i part) else none

/-! ### Pixels -/

def set? (f : Frame) (x y : Nat) (c : Rgba) : Option Frame :=
  if x < f.width.toNat ∧ y < f.height.toNat then
    (putColor? f.bytes (f.offset x y) c).map fun bytes => { f with bytes }
  else some f

def blend? (f : Frame) (x y : Nat) (c : Rgba) : Option Frame :=
  if x < f.width.toNat ∧ y < f.height.toNat then do
    let under ← f.colorAt? (f.offset x y)
    let bytes ← putColor? f.bytes (f.offset x y) (c.onto under)
    return { f with bytes }
  else some f

def paint? (f : Frame) (x y : Nat) (c : Rgba) : Option Frame :=
  if c.isOpaque then f.set? x y c else f.blend? x y c

def plot? (f : Frame) (p : Pixel) (c : Rgba) : Option Frame :=
  if f.contains p then f.paint? p.x.toNat p.y.toNat c else some f

def fillRect? (f : Frame) (x y w h : Nat) (c : Rgba) : Option Frame :=
  let columns := List.range' x (min (x + w) f.width.toNat - x)
  (List.range' y (min (y + h) f.height.toNat - y)).foldlM
    (fun f row => columns.foldlM (fun f column => f.set? column row c) f) f

theorem set?_eq_some (whole : f.Whole) (x y : Nat) (c : Rgba) :
    f.set? x y c = some (f.set x y c) := by
  simp only [set?, set]
  split
  · rename_i inside
    rw [putColor?, if_pos (whole.holds inside.1 inside.2).2.2]
    rfl
  · rfl

theorem blend?_eq_some (whole : f.Whole) (x y : Nat) (c : Rgba) :
    f.blend? x y c = some (f.blend x y c) := by
  simp only [blend?, blend]
  split
  · rename_i inside
    have fits := (whole.holds inside.1 inside.2).2.2
    simp only [colorAt?, putColor?, if_pos fits]
    rfl
  · rfl

theorem paint?_eq_some (whole : f.Whole) (x y : Nat) (c : Rgba) :
    f.paint? x y c = some (f.paint x y c) := by
  simp only [paint?, paint]
  split
  · exact set?_eq_some whole x y c
  · exact blend?_eq_some whole x y c

theorem plot?_eq_some (whole : f.Whole) (p : Pixel) (c : Rgba) :
    f.plot? p c = some (f.plot p c) := by
  simp only [plot?, plot]
  split
  · exact paint?_eq_some whole _ _ c
  · rfl

/-- Without its bytes, a pixel of the frame cannot be written. -/
example : (Frame.mk 1 1 ⟨#[]⟩).plot? ⟨0, 0⟩ .red = none := rfl

theorem fillRect?_eq_some (whole : f.Whole) (x y w h : Nat) (c : Rgba) :
    f.fillRect? x y w h c = some (f.fillRect x y w h c) := by
  simp only [fillRect?, fillRect]
  apply Whole.foldlM
  · intro f row
    exact .foldl (fun f column => f.alike_set column row c) _ f
  · intro f whole row
    exact Whole.foldlM (fun f column => f.alike_set column row c)
      (fun f whole column => set?_eq_some whole column row c) whole _
  · exact whole

/-! ### Clearing -/

def putRun? (bytes : ByteArray) (i pixels : Nat) (c : Rgba) : Option ByteArray :=
  (List.range pixels).foldlM (fun bytes k => putColor? bytes (i + 4 * k) c) bytes

def clearRow? (bytes : ByteArray) (start rowBytes : Nat) (pattern : ByteArray) (c : Rgba) :
    Option ByteArray := do
  let blocks := rowBytes / blockBytes
  let copied ← (List.range blocks).foldlM
    (fun bytes k => putPart? bytes (start + blockBytes * k) pattern) bytes
  putRun? copied (start + blockBytes * blocks) (rowBytes % blockBytes / 4) c

def clear? (f : Frame) (c : Rgba) : Option Frame :=
  let pattern := block c
  ((List.range f.height.toNat).foldlM
    (fun bytes y => clearRow? bytes (y * f.stride) f.rowBytes pattern c) f.bytes).map
      fun bytes => { f with bytes }

theorem putRun?_eq_some {bytes : ByteArray} {i pixels : Nat} (fits : i + 4 * pixels ≤ bytes.size)
    (c : Rgba) : putRun? bytes i pixels c = some (putRun bytes i pixels c) := by
  apply foldlM_eq_some (P := fun b => b.size = bytes.size)
  · intro b k size
    rw [size_putColor, size]
  · intro b size k mem
    have := List.mem_range.mp mem
    rw [putColor?, if_pos (by omega)]
  · rfl

theorem clearRow?_eq_some {bytes : ByteArray} {start rowBytes : Nat}
    (fits : start + rowBytes ≤ bytes.size) (c : Rgba) :
    clearRow? bytes start rowBytes (block c) c =
      some (clearRow bytes start rowBytes (block c) c) := by
  have split := Nat.div_add_mod rowBytes blockBytes
  have copied : (List.range (rowBytes / blockBytes)).foldlM
      (fun bytes k => putPart? bytes (start + blockBytes * k) (block c)) bytes =
      some ((List.range (rowBytes / blockBytes)).foldl
        (fun bytes k => putPart bytes (start + blockBytes * k) (block c)) bytes) := by
    apply foldlM_eq_some (P := fun b => b.size = bytes.size)
    · intro b k size
      rw [size_putPart, size]
    · intro b size k mem
      have := Nat.mul_le_mul_left blockBytes (Nat.succ_le_of_lt (List.mem_range.mp mem))
      rw [Nat.mul_succ] at this
      rw [putPart?, size_block, if_pos (by omega)]
    · rfl
  have size : ((List.range (rowBytes / blockBytes)).foldl
      (fun bytes k => putPart bytes (start + blockBytes * k) (block c)) bytes).size =
      bytes.size := by
    refine List.foldlRecOn _ _ (motive := fun (b : ByteArray) => b.size = bytes.size) rfl ?_
    intro b size k _
    rw [size_putPart, size]
  simp only [clearRow?, clearRow, copied]
  exact putRun?_eq_some (by omega) c

theorem clear?_eq_some (whole : f.Whole) (c : Rgba) : f.clear? c = some (f.clear c) := by
  have rows : (List.range f.height.toNat).foldlM
      (fun bytes y => clearRow? bytes (y * f.stride) f.rowBytes (block c) c) f.bytes =
      some (f.clear c).bytes := by
    apply foldlM_eq_some (P := fun b => b.size = f.bytes.size)
    · intro b y size
      have filled := fills_clearRow (Nat.dvd_mul_left_of_dvd f.blockBytes_dvd_stride y) b
        f.width.toNat c
      exact filled.size.trans size
    · intro b size y mem
      have row := whole.row (List.mem_range.mp mem)
      exact clearRow?_eq_some (by omega) c
    · rfl
  simp only [clear?, rows]
  rfl

end Frame
end PointScope
