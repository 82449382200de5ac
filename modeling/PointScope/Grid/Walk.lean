import PointScope.Grid.Rank

/-!
Walks along an axis: numbers reached from a start by adding a step again and again. The step is
added to the last number, not multiplied, so the numbers carry the rounding of the additions. A
walk ends where its condition fails or where adding the step no longer gets ahead.
-/

namespace PointScope.Grid

/-- The numbers of a walk behind those already visited, which are given last first. -/
def walkOn (inside : Float → Bool) (step v : Float) (visited : List Float) : List Float :=
  if inside v then
    if v < v + step then walkOn inside step (v + step) (v :: visited)
    else (v :: visited).reverse
  else visited.reverse
termination_by UInt64.size - rank v
decreasing_by
  rename_i ahead
  have := rank_lt_rank ahead
  have := rank_lt (v + step)
  omega

def walk (inside : Float → Bool) (step start : Float) : List Float := walkOn inside step start []

/-- Induction along the numbers that a walk may come to. -/
theorem ahead_induction {motive : Float → Prop} (step : Float)
    (h : ∀ v, (v < v + step → motive (v + step)) → motive v) (v : Float) : motive v := by
  induction left : UInt64.size - rank v using Nat.strongRecOn generalizing v with
  | ind n ih =>
    apply h
    intro ahead
    have := rank_lt_rank ahead
    have := rank_lt (v + step)
    exact ih _ (by omega) (v + step) rfl

theorem walkOn_eq_append (inside : Float → Bool) (step v : Float) (visited : List Float) :
    walkOn inside step v visited = visited.reverse ++ walk inside step v := by
  unfold walk
  induction v using ahead_induction step generalizing visited with
  | _ v ih =>
    rw [walkOn.eq_def inside step v visited, walkOn.eq_def inside step v []]
    split
    · split
      · rename_i ahead
        rw [ih ahead (v :: visited), ih ahead [v]]
        simp
      · simp
    · simp

theorem walk_eq (inside : Float → Bool) (step v : Float) :
    walk inside step v =
      if inside v then
        if v < v + step then v :: walk inside step (v + step) else [v]
      else [] := by
  conv => lhs; unfold walk; rw [walkOn]
  split
  · split
    · rw [walkOn_eq_append]; simp
    · simp
  · simp

/-! ### Walks that keep nothing -/

/-- Does something for each number of a walk in turn. The walk itself is not kept. -/
@[specialize] def foldOn {α : Type} (inside : Float → Bool) (step : Float) (visit : α → Float → α)
    (v : Float) (a : α) : α :=
  if inside v then
    if v < v + step then foldOn inside step visit (v + step) (visit a v) else visit a v
  else a
termination_by UInt64.size - rank v
decreasing_by
  rename_i ahead
  have := rank_lt_rank ahead
  have := rank_lt (v + step)
  omega

theorem foldOn_eq {α : Type} (inside : Float → Bool) (step : Float) (visit : α → Float → α)
    (v : Float) (a : α) :
    foldOn inside step visit v a = (walk inside step v).foldl visit a := by
  induction v using ahead_induction step generalizing a with
  | _ v ih =>
    rw [foldOn, walk_eq]
    split
    · split
      · rename_i ahead
        exact ih ahead (visit a v)
      · rfl
    · rfl

/-- How many numbers a walk has. -/
@[inline] def count (inside : Float → Bool) (step start : Float) : Nat :=
  foldOn inside step (fun n _ => n + 1) start 0

theorem count_eq_length (inside : Float → Bool) (step start : Float) :
    count inside step start = (walk inside step start).length := by
  rw [count, foldOn_eq, List.foldl_add_const, Nat.one_mul, Nat.zero_add]

end PointScope.Grid
