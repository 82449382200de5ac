import PointScope.Grid.Rank
import PointScope.Proofs.View.Events

/-! The range of the scale. A projection is changed by its own operations only, also by the events of a
view, and every operation that sets the scale sets it through the same clamp. So the scale is a number
of its range after every run, whatever the shell asks for. -/
namespace PointScope

namespace Projection

/-- What may be asked of a projection, with the arguments. -/
inductive Change where
  | setRotation (x y z : Float)
  | setScale (s : Float)
  | setOffset (x y : Float)
  | setViewport (viewport : Viewport)
  | rotateBy (dx dy : Float)
  | rotateByScroll (dx dy : Float)
  | panBy (dx dy : Float)
  | zoomBy (factor : Float)
  | zoomIn
  | zoomOut
  | reset

def change (p : Projection) : Change → Projection
  | .setRotation x y z => p.setRotation x y z
  | .setScale s => p.setScale s
  | .setOffset x y => p.setOffset x y
  | .setViewport viewport => p.setViewport viewport
  | .rotateBy dx dy => p.rotateBy dx dy
  | .rotateByScroll dx dy => p.rotateByScroll dx dy
  | .panBy dx dy => p.panBy dx dy
  | .zoomBy factor => p.zoomBy factor
  | .zoomIn => p.zoomIn
  | .zoomOut => p.zoomOut
  | .reset => p.reset

/-- The projection after a sequence of changes. -/
def changeAll (p : Projection) (changes : List Change) : Projection := changes.foldl change p

theorem changeAll_append (p : Projection) (before after : List Change) :
    p.changeAll (before ++ after) = (p.changeAll before).changeAll after :=
  List.foldl_append

/-- The scale is a number from 5 to 500. -/
structure InRange (p : Projection) : Prop where
  number : p.scale.isNaN = false
  least : 5.0 ≤ p.scale
  greatest : p.scale ≤ 500.0

variable {p q : Projection}

/-! ### The clamp -/

theorem clampScale_cases {s : Float} (number : s.isNaN = false) :
    (s < minScale ∧ clampScale s = minScale) ∨ (maxScale < s ∧ clampScale s = maxScale) ∨
      ((minScale ≤ s ∧ s ≤ maxScale) ∧ clampScale s = s) := by
  rw [clampScale]
  split
  · rename_i below
    exact .inl ⟨below, rfl⟩
  · rename_i not_below
    split
    · rename_i above
      exact .inr (.inl ⟨above, rfl⟩)
    · rename_i not_above
      have least : minScale ≤ s := Grid.le_of_not_less (by decide) number not_below
      have greatest : s ≤ maxScale := Grid.le_of_not_less number (by decide) not_above
      exact .inr (.inr ⟨⟨least, greatest⟩, rfl⟩)

theorem setScale_of_isNaN (p : Projection) {s : Float} (nan : s.isNaN = true) : p.setScale s = p := by
  rw [setScale, if_pos nan]

theorem InRange.setScale (range : p.InRange) (s : Float) : (p.setScale s).InRange := by
  by_cases nan : s.isNaN = true
  · rw [setScale_of_isNaN p nan]
    exact range
  · have number : s.isNaN = false := Bool.eq_false_iff.mpr nan
    have set : (p.setScale s).scale = clampScale s := by
      rw [Projection.setScale, if_neg nan]
    obtain ⟨-, lowest⟩ | ⟨-, highest⟩ | ⟨⟨least, greatest⟩, kept⟩ := clampScale_cases number
    · rw [lowest] at set
      constructor <;> rw [set] <;> decide
    · rw [highest] at set
      constructor <;> rw [set] <;> decide
    · rw [kept] at set
      constructor
      · rw [set]; exact number
      · rw [set]; exact least
      · rw [set]; exact greatest

/-! ### Changes -/

theorem InRange.of_scale (range : p.InRange) (same : q.scale = p.scale) : q.InRange where
  number := same ▸ range.number
  least := same ▸ range.least
  greatest := same ▸ range.greatest

theorem inRange_new (viewport : Viewport) : (new viewport).InRange where
  number := by change (50.0 : Float).isNaN = false; decide
  least := by change (5.0 : Float) ≤ 50.0; decide
  greatest := by change (50.0 : Float) ≤ 500.0; decide

theorem InRange.change (range : p.InRange) (c : Change) : (p.change c).InRange := by
  cases c with
  | setScale s => exact range.setScale s
  -- All zooms are requests of a scale, and a reset gives that of the first projection.
  | zoomBy factor => exact range.setScale (p.scale * factor)
  | zoomIn => exact range.setScale (p.scale * zoomStep)
  | zoomOut => exact range.setScale (p.scale * (1.0 / zoomStep))
  | reset => exact inRange_new p.viewport
  | _ => exact range.of_scale rfl

theorem InRange.changeAll (range : p.InRange) (changes : List Change) :
    (p.changeAll changes).InRange := by
  induction changes generalizing p with
  | nil => exact range
  | cons c changes ih => exact ih (range.change c)

end Projection

namespace Viewer

/-- What a shell may do with a view: tell it of an event, or change its projection itself. -/
inductive Act where
  | event (e : Event)
  | change (c : Projection.Change)

def act (v : Viewer) : Act → Viewer
  | .event e => v.step e
  | .change c => { v with projection := v.projection.change c }

/-- The view after all that a shell did with it. -/
def actAll (v : Viewer) (acts : List Act) : Viewer := acts.foldl act v

/-- An event does nothing to the projection but change it. -/
theorem exists_changes_step (v : Viewer) (e : Event) :
    ∃ changes, (v.step e).projection = v.projection.changeAll changes := by
  cases e with
  | pointerMoved at_ =>
    rw [step, pointerMoved_eq]
    cases v.drag with
    | none => exact ⟨[], rfl⟩
    | some drag =>
      dsimp only [Option.elim_some, Drag.follow]
      split
      · exact ⟨[.rotateBy _ _], rfl⟩
      · exact ⟨[.panBy _ _], rfl⟩
  | scrolled dx dy =>
    rw [step, scrolled]
    split_ifs
    · exact ⟨[.rotateByScroll dx dy], rfl⟩
    · exact ⟨[.zoomOut], rfl⟩
    · exact ⟨[.zoomIn], rfl⟩
    · exact ⟨[], rfl⟩
  | resetView => exact ⟨[.reset], rfl⟩
  | replaceCloud cloud => exact ⟨[.reset], rfl⟩
  | render viewport =>
    obtain ⟨size, sized⟩ := v.exists_sized_render viewport
    rw [step, sized]
    exact ⟨[.setViewport size], rfl⟩
  | _ => exact ⟨[], rfl⟩

theorem exists_changes_act (v : Viewer) (a : Act) :
    ∃ changes, (v.act a).projection = v.projection.changeAll changes := by
  cases a with
  | event e => exact v.exists_changes_step e
  | change c => exact ⟨[c], rfl⟩

/-- The projection of a view is always one that its changes reach from the first one. -/
theorem exists_changes_actAll (v : Viewer) (acts : List Act) :
    ∃ changes, (v.actAll acts).projection = v.projection.changeAll changes := by
  induction acts generalizing v with
  | nil => exact ⟨[], rfl⟩
  | cons a acts ih =>
    obtain ⟨first, acted⟩ := v.exists_changes_act a
    obtain ⟨rest, ran⟩ := ih (v.act a)
    refine ⟨first ++ rest, ?_⟩
    rw [Projection.changeAll_append, ← acted]
    exact ran

end Viewer

/-- Whatever is asked of a projection or of a view, in any order and with any numbers, the scale stays
a number from 5 to 500. A scale that is not a number is not taken: nothing changes. -/
theorem scale_stays_in_range :
    (∀ viewport changes, ((Projection.new viewport).changeAll changes).InRange) ∧
    (∀ cloud style acts, ((Viewer.new cloud style).actAll acts).projection.InRange) ∧
    (∀ (p : Projection) (s : Float), s.isNaN = true → p.setScale s = p) ∧
    ∀ (p : Projection) (factor : Float), (p.scale * factor).isNaN = true → p.zoomBy factor = p := by
  have projections : ∀ viewport changes,
      ((Projection.new viewport).changeAll changes).InRange := by
    intro viewport changes
    exact (Projection.inRange_new viewport).changeAll changes
  refine ⟨projections, ?_, ?_, ?_⟩
  · intro cloud style acts
    obtain ⟨changes, reached⟩ := (Viewer.new cloud style).exists_changes_actAll acts
    rw [reached]
    exact projections .default changes
  · intro p s nan
    exact p.setScale_of_isNaN nan
  · intro p factor nan
    exact p.setScale_of_isNaN nan

end PointScope
