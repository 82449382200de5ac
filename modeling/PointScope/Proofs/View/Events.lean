import PointScope.View.Viewer
import Mathlib.Data.List.Induction

/-! Runs of an interactive view. An event is a call of the shell; a history is a list of events,
the earliest first. What a history says about one part of the state is what its latest event about
that part says. -/
namespace PointScope

/-- What a shell may tell a view, with the arguments. -/
inductive Event where
  | pointerDown (button : PointerButton) (held : Modifiers) (at_ : Pointer)
  | pointerMoved (at_ : Pointer)
  | pointerUp
  | pointerLeft
  | scrolled (dx dy : Float)
  | setRotateKey (held : Bool)
  | resetView
  | replaceCloud (cloud : Cloud)
  | render (viewport : Viewport)

/-- What a move of the pointer makes of a projection during a drag. -/
def Drag.follow (drag : Drag) (rotateKey : Bool) (at_ : Pointer) (p : Projection) : Projection :=
  if rotateKey ∨ drag.mode = .rotate then
    p.rotateBy (at_.x - drag.last.x) (at_.y - drag.last.y)
  else p.panBy (at_.x - drag.last.x) (at_.y - drag.last.y)

namespace Viewer

def step (v : Viewer) : Event → Viewer
  | .pointerDown button held at_ => v.pointerDown button held at_
  | .pointerMoved at_ => v.pointerMoved at_
  | .pointerUp => v.pointerUp
  | .pointerLeft => v.pointerLeft
  | .scrolled dx dy => v.scrolled dx dy
  | .setRotateKey held => v.setRotateKey held
  | .resetView => v.resetView
  | .replaceCloud cloud => v.replaceCloud cloud
  | .render viewport => (v.render viewport).1

/-- The view after a history. -/
def run (v : Viewer) (history : List Event) : Viewer := history.foldl step v

theorem run_append (v : Viewer) (before after : List Event) :
    v.run (before ++ after) = (v.run before).run after :=
  List.foldl_append

theorem run_cons (v : Viewer) (e : Event) (after : List Event) :
    v.run (e :: after) = (v.step e).run after :=
  rfl

theorem run_snoc (v : Viewer) (before : List Event) (e : Event) :
    v.run (before ++ [e]) = (v.run before).step e :=
  v.run_append before [e]

/-! ### What an event does -/

theorem pointerMoved_eq (v : Viewer) (at_ : Pointer) :
    v.pointerMoved at_ =
      { v with
        hover := some at_
        drag := v.drag.map fun drag => { drag with last := at_ }
        projection :=
          v.drag.elim v.projection fun drag => drag.follow v.rotateKey at_ v.projection } := by
  rw [pointerMoved]
  cases v.drag with
  | none => rfl
  | some drag => rfl

theorem exists_zoomBy (p : Projection) (factor : Float) :
    ∃ scale, p.zoomBy factor = { p with scale } := by
  rw [Projection.zoomBy, Projection.setScale]
  split
  · exact ⟨p.scale, rfl⟩
  · exact ⟨_, rfl⟩

/-- Scrolling turns the view while the rotate key is down; else it changes no more than the scale. -/
theorem scrolled_cases (v : Viewer) (dx dy : Float) :
    (v.rotateKey = true ∧
      v.scrolled dx dy = { v with projection := v.projection.rotateByScroll dx dy }) ∨
    (v.rotateKey = false ∧
      ∃ scale, v.scrolled dx dy = { v with projection := { v.projection with scale } }) := by
  by_cases key : v.rotateKey = true
  · refine .inl ⟨key, ?_⟩
    rw [scrolled, if_pos key]
  · refine .inr ⟨Bool.eq_false_iff.mpr key, ?_⟩
    obtain ⟨smaller, zoomedOut⟩ := exists_zoomBy v.projection (1.0 / Projection.zoomStep)
    obtain ⟨larger, zoomedIn⟩ := exists_zoomBy v.projection Projection.zoomStep
    rw [scrolled, if_neg key, Projection.zoomOut, zoomedOut, Projection.zoomIn, zoomedIn]
    split_ifs
    · exact ⟨smaller, rfl⟩
    · exact ⟨larger, rfl⟩
    · exact ⟨v.projection.scale, rfl⟩

/-- The view with another frame size. -/
def sized (v : Viewer) (viewport : Viewport) : Viewer :=
  { v with projection := v.projection.setViewport viewport }

/-- Of a frame only the size is kept, and if there is none of a size, nothing changes. -/
theorem render_cases (v : Viewer) (viewport : Viewport) :
    (∃ fault, Frame.new? viewport.width viewport.height = .error fault ∧
      v.render viewport = (v, .error fault)) ∨
    ∃ f, Frame.new? viewport.width viewport.height = .ok f ∧ v.render viewport =
      (v.sized viewport, .ok (Scene.composeInto v.style f v.cloud v.projection v.hover)) := by
  rw [render, Scene.compose]
  cases Frame.new? viewport.width viewport.height with
  | error fault => exact .inl ⟨fault, rfl, rfl⟩
  | ok f => exact .inr ⟨f, rfl, rfl⟩

theorem exists_sized_render (v : Viewer) (viewport : Viewport) :
    ∃ size, (v.render viewport).1 = v.sized size := by
  obtain ⟨_, -, failed⟩ | ⟨f, -, drawn⟩ := v.render_cases viewport
  · rw [failed]
    exact ⟨v.projection.viewport, rfl⟩
  · rw [drawn]
    exact ⟨viewport, rfl⟩

end Viewer

namespace Event

/-! ### What the latest event says -/

variable {α : Type} {answer : Event → Option α}

/-- The answer of the latest event that has one. -/
def latest? (answer : Event → Option α) (history : List Event) : Option α :=
  (history.filterMap answer).getLast?

theorem latest?_snoc (history : List Event) (e : Event) :
    latest? answer (history ++ [e]) = (answer e).or (latest? answer history) := by
  rw [latest?, List.filterMap_append, List.getLast?_append]
  cases said : answer e with
  | none => rw [List.filterMap_cons_none said]; rfl
  | some a => rw [List.filterMap_cons_some said]; rfl

/-- The latest answer is at a place behind which no event has one. -/
theorem exists_of_latest? {a : α} {history : List Event} (said : latest? answer history = some a) :
    ∃ before e since, history = before ++ e :: since ∧ answer e = some a ∧
      ∀ later ∈ since, answer later = none := by
  induction history using List.reverseRecOn with
  | nil => cases said
  | append_singleton history last ih =>
    rw [latest?_snoc] at said
    cases here : answer last with
    | some b =>
      rw [here, Option.some_or] at said
      exact ⟨history, last, [], rfl, here.trans said, fun _ none => by cases none⟩
    | none =>
      rw [here, Option.none_or] at said
      obtain ⟨before, e, since, rfl, found, silent⟩ := ih said
      refine ⟨before, e, since ++ [last], List.append_assoc .., found, fun later member => ?_⟩
      obtain member | member := List.mem_append.mp member
      · exact silent later member
      · exact List.mem_singleton.mp member ▸ here

end Event

/-- A part of the state that every event sets to its answer, if it has one, is what the latest answer
of a history says. -/
theorem Viewer.run_part {α : Type} {answer : Event → Option α} (part : Viewer → α)
    (sets : ∀ v e, part (v.step e) = (answer e).getD (part v)) (v : Viewer) (history : List Event) :
    part (v.run history) = (Event.latest? answer history).getD (part v) := by
  induction history using List.reverseRecOn with
  | nil => rfl
  | append_singleton history e ih =>
    rw [Viewer.run_snoc, sets, ih, Event.latest?_snoc]
    cases answer e with
    | none => rfl
    | some a => rfl

end PointScope
