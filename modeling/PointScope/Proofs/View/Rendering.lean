import PointScope.Proofs.Scene.Painter
import PointScope.Proofs.View.Events

/-! Rendering has no effect that lasts. A render call keeps nothing but the size of its frame; no event
reads that size, and every frame is composed in its own. So a run may be compared with the run in which
nothing is rendered, and thereby with every run that renders at other times. -/
namespace PointScope

/-- One entry of a log of two runs: an event of both, or a render call of the first or of the second
run only. -/
inductive Edit where
  | kept (e : Event)
  | removed (viewport : Viewport)
  | inserted (viewport : Viewport)

namespace Edit

def before? : Edit → Option Event
  | .kept e => some e
  | .removed viewport => some (.render viewport)
  | .inserted _ => none

def after? : Edit → Option Event
  | .kept e => some e
  | .removed _ => none
  | .inserted viewport => some (.render viewport)

/-- The events before an edit of render calls. -/
def before (edits : List Edit) : List Event := edits.filterMap before?

/-- The events after an edit of render calls. -/
def after (edits : List Edit) : List Event := edits.filterMap after?

end Edit

namespace Event

def isRender : Event → Bool
  | .render _ => true
  | _ => false

/-- The events that are no render calls. -/
def unrendered (events : List Event) : List Event := events.filter fun e => !e.isRender

theorem unrendered_snoc (events : List Event) (e : Event) :
    unrendered (events ++ [e]) =
      match e.isRender with
      | true => unrendered events
      | false => unrendered events ++ [e] := by
  rw [unrendered, List.filter_append]
  cases quiet : e.isRender with
  | true => rw [List.filter_cons_of_neg (by rw [quiet]; decide), List.filter_nil, List.append_nil]; rfl
  | false => rw [List.filter_cons_of_pos (by rw [quiet]; rfl), List.filter_nil]; rfl

theorem unrendered_before (edits : List Edit) :
    unrendered (Edit.before edits) = unrendered (Edit.after edits) := by
  induction edits with
  | nil => rfl
  | cons edit edits ih =>
    cases edit with
    | kept e =>
      cases e with
      | render viewport => exact ih
      | _ => exact congrArg (List.cons _) ih
    | removed viewport => exact ih
    | inserted viewport => exact ih

end Event

open Event

namespace Viewer

/-! ### Frame sizes -/

theorem render_snd (v : Viewer) (viewport : Viewport) :
    (v.render viewport).2 = Scene.compose v.style v.cloud v.projection viewport v.hover := by
  rw [render]
  split
  · exact Eq.symm ‹_›
  · exact Eq.symm ‹_›

/-- A frame does not depend on the size of the frame before it. -/
theorem render_sized (v : Viewer) (size viewport : Viewport) :
    ((v.sized size).render viewport).2 = (v.render viewport).2 := by
  rw [render_snd, render_snd]
  -- The composition sets the size of its own frame, whatever was there.
  rfl

theorem follow_setViewport (drag : Drag) (key : Bool) (at_ : Pointer) (p : Projection)
    (size : Viewport) :
    drag.follow key at_ (p.setViewport size) = (drag.follow key at_ p).setViewport size := by
  rw [Drag.follow, Drag.follow]
  split_ifs
  · rfl
  · rfl

theorem pointerMoved_sized (v : Viewer) (size : Viewport) (at_ : Pointer) :
    (v.sized size).pointerMoved at_ = (v.pointerMoved at_).sized size := by
  rw [pointerMoved_eq, pointerMoved_eq]
  cases dragging : v.drag with
  | none => simp only [sized, dragging]; rfl
  | some drag => simp only [sized, dragging, Option.elim_some, follow_setViewport]

theorem zoomBy_setViewport (p : Projection) (size : Viewport) (factor : Float) :
    (p.setViewport size).zoomBy factor = (p.zoomBy factor).setViewport size := by
  change (p.setViewport size).setScale (p.scale * factor) = _
  rw [Projection.zoomBy, Projection.setScale, Projection.setScale]
  split_ifs
  · rfl
  · rfl

theorem scrolled_sized (v : Viewer) (size : Viewport) (dx dy : Float) :
    (v.sized size).scrolled dx dy = (v.scrolled dx dy).sized size := by
  have key : (v.sized size).rotateKey = v.rotateKey := rfl
  have zoomedOut : (v.sized size).projection.zoomOut = v.projection.zoomOut.setViewport size :=
    zoomBy_setViewport ..
  have zoomedIn : (v.sized size).projection.zoomIn = v.projection.zoomIn.setViewport size :=
    zoomBy_setViewport ..
  rw [scrolled, scrolled, key, zoomedOut, zoomedIn]
  split_ifs
  · rfl
  · rfl
  · rfl
  · rfl

/-- An event that is no render call acts alike on views that differ in their frame size only. -/
theorem step_sized (v : Viewer) (size : Viewport) {e : Event} (quiet : e.isRender = false) :
    (v.sized size).step e = (v.step e).sized size := by
  cases e with
  | pointerMoved at_ => exact v.pointerMoved_sized size at_
  | scrolled dx dy => exact v.scrolled_sized size dx dy
  | render viewport => cases quiet
  | _ => rfl

/-! ### Runs -/

/-- A run is, but for the frame size, the run without its render calls. -/
theorem exists_sized_run (v : Viewer) (events : List Event) :
    ∃ size, v.run events = (v.run (unrendered events)).sized size := by
  induction events using List.reverseRecOn with
  | nil => exact ⟨v.projection.viewport, rfl⟩
  | append_singleton events e ih =>
    obtain ⟨size, ran⟩ := ih
    rw [run_snoc, ran, unrendered_snoc]
    cases quiet : e.isRender with
    | false =>
      rw [run_snoc]
      exact ⟨size, step_sized _ size quiet⟩
    | true =>
      cases e with
      | render viewport => exact exists_sized_render _ viewport
      | _ => cases quiet

theorem exists_sized_run_after (v : Viewer) (edits : List Edit) :
    ∃ size, v.run (Edit.after edits) = (v.run (Edit.before edits)).sized size := by
  obtain ⟨first, before⟩ := v.exists_sized_run (Edit.before edits)
  obtain ⟨second, after⟩ := v.exists_sized_run (Edit.after edits)
  rw [before, after, unrendered_before]
  exact ⟨second, rfl⟩

/-- Render calls may be inserted into a run and removed from it, anywhere and with any frame size. The
calls that stay have the same results, and the view ends as it did but for the size. A call keeps the size
of its frame, and nothing if there is none. -/
theorem run_edited (v : Viewer) (edits : List Edit) :
    (∀ earlier viewport later, edits = earlier ++ .kept (.render viewport) :: later →
      ((v.run (Edit.after earlier)).render viewport).2 =
        ((v.run (Edit.before earlier)).render viewport).2) ∧
    (∃ size, v.run (Edit.after edits) = (v.run (Edit.before edits)).sized size) ∧
    ∀ viewport,
      (∀ e, (v.render viewport).2 = .error e → (v.render viewport).1 = v) ∧
      (∀ f, (v.render viewport).2 = .ok f → (v.render viewport).1 = v.sized viewport) ∧
      (∀ size, (v.render viewport).2 = .error (.empty size) ↔
        (viewport.width = 0 ∨ viewport.height = 0) ∧ size = ⟨viewport.width, viewport.height⟩) ∧
      ((∃ f, (v.render viewport).2 = .ok f) ↔
        Frame.Allocatable viewport.width viewport.height) := by
  refine ⟨?_, v.exists_sized_run_after edits, ?_⟩
  · intro earlier viewport later _
    obtain ⟨size, ran⟩ := v.exists_sized_run_after earlier
    rw [ran, render_sized]
  · intro viewport
    have made : (∃ f, (v.render viewport).2 = .ok f) ↔
        Frame.Allocatable viewport.width viewport.height := by
      rw [render_snd]
      exact Scene.exists_compose_iff ..
    simp only [← Frame.new?_eq_empty_iff]
    obtain ⟨fault, new, failed⟩ | ⟨f, new, drawn⟩ := v.render_cases viewport
    · rw [failed] at made ⊢
      rw [new]
      refine ⟨fun _ _ => rfl, fun _ ok => ?_, fun _ => .rfl, made⟩
      cases ok
    · rw [drawn] at made ⊢
      rw [new]
      refine ⟨fun _ error => ?_, fun _ _ => rfl, fun _ => ?_, made⟩
      · cases error
      · exact ⟨nofun, nofun⟩

end Viewer

end PointScope
