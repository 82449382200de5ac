import Mathlib.Data.List.Chain
import PointScope.Proofs.Grid.Sampling

/-! The walk along an axis, number by number. It is taken by requests: a walk holds the number to come,
answers with it while it is in range, and from then on holds the sum with the step, if that is any greater.
The answers come to an end and are as many as they can be: the sum behind the last one is out of range or no
greater. -/
namespace PointScope

namespace Grid

variable {inside : Float → Bool} {step : Float}

theorem walk_eq_nil_iff (v : Float) : walk inside step v = [] ↔ inside v = false := by
  rw [walk_eq]
  cases here : inside v with
  | false => simp
  | true =>
    by_cases ahead : v < v + step
    · simp [ahead]
    · simp [ahead]

theorem head_walk {v w : Float} (first : w ∈ (walk inside step v).head?) : w = v := by
  rw [walk_eq] at first
  split at first
  · split at first
    · exact (Option.some.inj first).symm
    · exact (Option.some.inj first).symm
  · contradiction

/-- Each number of a walk is the one before it and the step. -/
theorem isChain_walk (v : Float) : (walk inside step v).IsChain fun u w => w = u + step := by
  induction v using ahead_induction step with
  | _ v ih =>
    rw [walk_eq]
    split
    · split
      · rename_i ahead
        apply List.isChain_cons.mpr
        constructor
        · intro w next
          exact head_walk next
        · exact ih ahead
      · exact .singleton v
    · exact .nil

/-- A walk ends only where the sum with the step is out of range or no greater. -/
theorem last_walk {v w : Float} (last : w ∈ (walk inside step v).getLast?) :
    inside (w + step) = false ∨ ¬w < w + step := by
  induction v using ahead_induction step with
  | _ v ih =>
    rw [walk_eq] at last
    split at last
    · split at last
      · rename_i ahead
        cases behind : walk inside step (v + step) with
        | nil =>
          rw [behind] at last
          obtain rfl : v = w := Option.some.inj last
          exact Or.inl ((walk_eq_nil_iff _).mp behind)
        | cons u us =>
          apply ih ahead
          rw [behind, List.getLast?_cons_cons] at last
          rw [behind]
          exact last
      · rename_i stalled
        obtain rfl : v = w := Option.some.inj last
        exact Or.inr stalled
    · contradiction

/-! ### Requests -/

/-- One request to a walk that holds a number to come, or none: the answer, and what is held from
then on. -/
def pull (inside : Float → Bool) (step : Float) (next : Option Float) :
    Option Float × Option Float :=
  match next.filter inside with
  | none => (none, next)
  | some v => (some v, if v < v + step then some (v + step) else none)

/-- The answer to a request that comes behind `n` others. -/
def answer (inside : Float → Bool) (step : Float) : Nat → Option Float → Option Float
  | 0, next => (pull inside step next).1
  | n + 1, next => answer inside step n (pull inside step next).2

theorem pull_of_inside {v : Float} (here : inside v = true) :
    pull inside step (some v) = (some v, if v < v + step then some (v + step) else none) := by
  rw [pull, Option.filter_some, if_pos here]

/-- A refused request leaves the walk as it is. -/
theorem pull_of_outside {v : Float} (here : inside v = false) :
    pull inside step (some v) = (none, some v) := by
  rw [pull, Option.filter_some, here]
  rfl

theorem answer_none (n : Nat) : answer inside step n none = none := by
  induction n with
  | zero => rfl
  | succ n ih => exact ih

/-- Requests are answered with the numbers of the walk one after the other, and all later ones with
none. -/
theorem answer_eq_getElem? (n : Nat) (v : Float) :
    answer inside step n (some v) = (walk inside step v)[n]? := by
  induction n generalizing v with
  | zero =>
    rw [answer, walk_eq]
    cases here : inside v with
    | false => rw [pull_of_outside here]; rfl
    | true =>
      rw [pull_of_inside here, if_pos rfl]
      split <;> rfl
  | succ n ih =>
    rw [answer]
    cases here : inside v with
    | false =>
      have empty : walk inside step v = [] := (walk_eq_nil_iff v).mpr here
      rw [pull_of_outside here, ih, empty]
      rfl
    | true =>
      rw [pull_of_inside here, walk_eq, if_pos here]
      split
      · exact ih (v + step)
      · exact answer_none n

end Grid

/-! ### Axes -/

namespace SampleGrid

open Grid

/-- The numbers of the longest walk from one bound to another. -/
structure IsWalk (start stop step : Float) (vs : List Float) : Prop where
  empty : vs = [] ↔ stop < start
  first : ∀ v ∈ vs.head?, v = start
  ascending : vs.Pairwise (· < ·)
  inside : ∀ v ∈ vs, v ≤ stop
  adds : vs.IsChain fun v w => w = v + step
  last : ∀ v ∈ vs.getLast?, stop < v + step ∨ ¬v < v + step

theorem isWalk_axis {start stop : Float} (hstart : start.isNaN = false) (hstop : stop.isNaN = false)
    (step : Float) : IsWalk start stop step (axis start stop step) where
  empty := by
    rw [axis, walk_eq_nil_iff, decide_eq_false_iff_not]
    exact not_le_iff_less hstart hstop
  first v first := head_walk first
  ascending := (walk_ascends _ step start).1
  inside v mem := (bounds_of_mem_axis mem).2
  adds := isChain_walk start
  last v last := by
    by_cases ahead : v < v + step
    · left
      have beyond := (last_walk last).resolve_right (not_not_intro ahead)
      have number := (lt_iff_rank_lt.mp ahead).1.2
      exact (not_le_iff_less number hstop).mp (of_decide_eq_false beyond)
    · right
      exact ahead

theorem isNaN_of_isFinite {v : Float} (finite : v.isFinite = true) : v.isNaN = false := by
  change v.toModel.unpack.isFinite = true at finite
  change v.toModel.unpack.isNaN = false
  cases kind : v.toModel.unpack with
  | notANumber => rw [kind] at finite; contradiction
  | _ => rfl

theorem isFinite_of_new? {xMin xMax yMin yMax step : Float} {g : SampleGrid}
    (accepted : new? xMin xMax yMin yMax step = .ok g) :
    (xMin.isFinite ∧ xMax.isFinite) ∧ (yMin.isFinite ∧ yMax.isFinite) ∧
      g = ⟨xMin, xMax, yMin, yMax, step⟩ := by
  unfold new? at accepted
  split at accepted
  · contradiction
  · iterate 4
      split at accepted
      · contradiction
    simp_all

/-- On both axes of a grid that was accepted, the walk gives out finitely many numbers, one for each
request. There are none exactly if the lower bound is above the upper one; else they begin at the lower
bound, go up by adding the step, stay up to the upper bound, and end only where they must. -/
theorem axes_walked {xMin xMax yMin yMax step : Float} {g : SampleGrid}
    (accepted : new? xMin xMax yMin yMax step = .ok g) :
    (IsWalk xMin xMax step g.xs ∧ ∀ n, answer (· ≤ xMax) step n (some xMin) = g.xs[n]?) ∧
      IsWalk yMin yMax step g.ys ∧ ∀ n, answer (· ≤ yMax) step n (some yMin) = g.ys[n]? := by
  obtain ⟨⟨hx, hx'⟩, ⟨hy, hy'⟩, rfl⟩ := isFinite_of_new? accepted
  refine ⟨⟨?_, ?_⟩, ?_, ?_⟩
  · exact isWalk_axis (isNaN_of_isFinite hx) (isNaN_of_isFinite hx') step
  · intro n
    exact answer_eq_getElem? n xMin
  · exact isWalk_axis (isNaN_of_isFinite hy) (isNaN_of_isFinite hy') step
  · intro n
    exact answer_eq_getElem? n yMin

/-- From a number that is too large to be raised by the step, and along an axis whose bounds are the
wrong way round. -/
theorem axes_walked_stalled :
    ∃ g, new? 1e17 2e17 1.0 0.0 1.0 = .ok g ∧
      (IsWalk 1e17 2e17 1.0 g.xs ∧ ∀ n, answer (· ≤ 2e17) 1.0 n (some 1e17) = g.xs[n]?) ∧
        IsWalk 1.0 0.0 1.0 g.ys ∧ ∀ n, answer (· ≤ 0.0) 1.0 n (some 1.0) = g.ys[n]? :=
  ⟨_, rfl, axes_walked rfl⟩

end SampleGrid

end PointScope
