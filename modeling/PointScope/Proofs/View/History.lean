import PointScope.Proofs.View.Events

/-! What a history says about the pointer, the rotate key and the view. A drag is told by its press and
the moves since; nothing else takes part in it, neither the other events in between nor the state. -/
namespace PointScope

/-- The angles of a projection about the three axes. -/
def Projection.angles (p : Projection) : Vec3 Float := ⟨p.rotationX, p.rotationY, p.rotationZ⟩

def Projection.offset (p : Projection) : Float × Float := (p.offsetX, p.offsetY)

namespace Event

/-- Whether the pointer is pressed, of the events that press or release it. -/
def pressed? : Event → Option Bool
  | .pointerDown .. => some true
  | .pointerUp => some false
  | _ => none

def moved? : Event → Option Pointer
  | .pointerMoved at_ => some at_
  | _ => none

def hover? : Event → Option (Option Pointer)
  | .pointerMoved at_ => some (some at_)
  | .pointerLeft => some none
  | _ => none

def rotateKey? : Event → Option Bool
  | .setRotateKey held => some held
  | _ => none

def isReset : Event → Bool
  | .resetView | .replaceCloud _ => true
  | _ => false

/-- Whether the rotate key is down after a history. -/
def keyHeld (history : List Event) : Bool := (latest? rotateKey? history).getD false

end Event

open Event

/-- A drag that a history leaves: a press of the pointer, and no other and no release since. -/
structure Gesture (history : List Event) where
  before : List Event
  button : PointerButton
  held : Modifiers
  start : Pointer
  since : List Event
  history_eq : history = before ++ .pointerDown button held start :: since
  unbroken : ∀ e ∈ since, e.pressed? = none

namespace Gesture

variable {history : List Event} (g : Gesture history)

/-- The mode is settled by the press. -/
def mode : DragMode :=
  if keyHeld g.before then .rotate
  else if g.button = .secondary ∨ g.held.alt then .pan
  else .rotate

/-- The position that the drag reported last. -/
def last : Pointer := (latest? moved? g.since).getD g.start

def drag : Drag := { mode := g.mode, last := g.last }

end Gesture

theorem nonempty_gesture {history : List Event}
    (pressed : latest? pressed? history = some true) : Nonempty (Gesture history) := by
  obtain ⟨before, e, since, history_eq, down, unbroken⟩ := exists_of_latest? pressed
  cases e with
  | pointerDown button held start =>
    exact ⟨before, button, held, start, since, history_eq, unbroken⟩
  | _ => cases down

namespace Viewer

/-! ### The pointer and the key -/

/-- The drag after an event. Only presses, moves and releases touch it. -/
def dragAfter (v : Viewer) : Event → Option Drag
  | .pointerDown button held at_ => some { mode := v.modeOf button held, last := at_ }
  | .pointerMoved at_ => v.drag.map fun drag => { drag with last := at_ }
  | .pointerUp => none
  | _ => v.drag

/-- What an event can do: it sets the hover position and the rotate key only if it speaks of them. -/
theorem exists_step (v : Viewer) (e : Event) :
    ∃ cloud projection, v.step e =
      { v with
        cloud
        projection
        hover := e.hover?.getD v.hover
        drag := v.dragAfter e
        rotateKey := e.rotateKey?.getD v.rotateKey } := by
  cases e with
  | pointerMoved at_ => exact ⟨_, _, v.pointerMoved_eq at_⟩
  | scrolled dx dy =>
    obtain ⟨-, turned⟩ | ⟨-, scale, zoomed⟩ := v.scrolled_cases dx dy
    · exact ⟨_, _, turned⟩
    · exact ⟨_, _, zoomed⟩
  | render viewport =>
    obtain ⟨kept, sized⟩ := v.exists_sized_render viewport
    exact ⟨_, _, sized⟩
  | _ => exact ⟨_, _, rfl⟩

theorem rotateKey_step (v : Viewer) (e : Event) :
    (v.step e).rotateKey = e.rotateKey?.getD v.rotateKey := by
  obtain ⟨cloud, projection, stepped⟩ := v.exists_step e
  rw [stepped]

theorem hover_step (v : Viewer) (e : Event) : (v.step e).hover = e.hover?.getD v.hover := by
  obtain ⟨cloud, projection, stepped⟩ := v.exists_step e
  rw [stepped]

theorem drag_step (v : Viewer) (e : Event) : (v.step e).drag = v.dragAfter e := by
  obtain ⟨cloud, projection, stepped⟩ := v.exists_step e
  rw [stepped]

theorem isSome_drag_step (v : Viewer) (e : Event) :
    (v.step e).drag.isSome = e.pressed?.getD v.drag.isSome := by
  rw [drag_step]
  cases e with
  | pointerMoved at_ => exact Option.isSome_map
  | _ => rfl

/-- An event that neither presses nor releases the pointer keeps the mode of a drag. -/
theorem drag_step_of_unpressed (v : Viewer) {e : Event} (unpressed : e.pressed? = none) :
    (v.step e).drag = v.drag.map fun drag => { drag with last := e.moved?.getD drag.last } := by
  rw [drag_step]
  cases e with
  | pointerDown button held at_ => cases unpressed
  | pointerUp => cases unpressed
  | pointerMoved at_ => rfl
  | _ => exact Option.map_id'.symm

/-! ### Histories -/

theorem rotateKey_run (cloud : Cloud) (style : SceneStyle) (history : List Event) :
    ((new cloud style).run history).rotateKey = keyHeld history :=
  run_part rotateKey rotateKey_step _ history

/-- In the course of a drag the mode stays, and the position is that of the latest move. -/
theorem drag_run (v : Viewer) {since : List Event} (unbroken : ∀ e ∈ since, e.pressed? = none) :
    (v.run since).drag =
      v.drag.map fun drag => { drag with last := (latest? moved? since).getD drag.last } := by
  induction since using List.reverseRecOn with
  | nil => exact Option.map_id'.symm
  | append_singleton since e ih =>
    have unpressed : e.pressed? = none := unbroken e (List.mem_append_right _ List.mem_cons_self)
    have before := ih fun e member => unbroken e (List.mem_append_left _ member)
    rw [run_snoc, drag_step_of_unpressed _ unpressed, before, Option.map_map, latest?_snoc]
    cases e.moved? with
    | none => rfl
    | some at_ => rfl

theorem drag_run_of_gesture (cloud : Cloud) (style : SceneStyle) {history : List Event}
    (g : Gesture history) : ((new cloud style).run history).drag = some g.drag := by
  have held : ((new cloud style).run g.before).rotateKey = keyHeld g.before :=
    rotateKey_run cloud style g.before
  have split := congrArg (run (new cloud style)) g.history_eq
  rw [run_append, run_cons] at split
  rw [split, drag_run _ g.unbroken, drag_step, dragAfter, modeOf, held]
  rfl

/-! ### The view -/

theorem moved_of_drag (v : Viewer) {drag : Drag} (dragging : v.drag = some drag) (at_ : Pointer) :
    (v.step (.pointerMoved at_)).projection = drag.follow v.rotateKey at_ v.projection := by
  rw [step, pointerMoved_eq, dragging]
  rfl

theorem moved_of_no_drag (v : Viewer) (idle : v.drag = none) (at_ : Pointer) :
    (v.step (.pointerMoved at_)).projection = v.projection := by
  rw [step, pointerMoved_eq, idle]
  rfl

theorem reset_step (v : Viewer) {e : Event} (reset : e.isReset = true) :
    (v.step e).projection = .new v.projection.viewport := by
  cases e with
  | resetView => rfl
  | replaceCloud cloud => rfl
  | _ => cases reset

theorem angles_step (v : Viewer) {e : Event} (unmoved : e.moved? = none) (kept : e.isReset = false)
    (zooms : ∀ dx dy, e = .scrolled dx dy → v.rotateKey = false) :
    (v.step e).projection.angles = v.projection.angles := by
  cases e with
  | pointerMoved at_ => cases unmoved
  | resetView => cases kept
  | replaceCloud cloud => cases kept
  | scrolled dx dy =>
    obtain ⟨held, -⟩ | ⟨-, scale, zoomed⟩ := v.scrolled_cases dx dy
    · cases held.symm.trans (zooms dx dy rfl)
    · rw [step, zoomed]
      rfl
  | render viewport =>
    obtain ⟨size, sized⟩ := v.exists_sized_render viewport
    rw [step, sized]
    rfl
  | _ => rfl

theorem offset_step (v : Viewer) {e : Event} (unmoved : e.moved? = none)
    (kept : e.isReset = false) : (v.step e).projection.offset = v.projection.offset := by
  cases e with
  | pointerMoved at_ => cases unmoved
  | resetView => cases kept
  | replaceCloud cloud => cases kept
  | scrolled dx dy =>
    obtain ⟨-, turned⟩ | ⟨-, scale, zoomed⟩ := v.scrolled_cases dx dy
    · rw [step, turned]
      rfl
    · rw [step, zoomed]
      rfl
  | render viewport =>
    obtain ⟨size, sized⟩ := v.exists_sized_render viewport
    rw [step, sized]
    rfl
  | _ => rfl

end Viewer

/-- What a history tells about a view that was new before it, and what any next event then does to the
projection. -/
structure Follows (history : List Event) (v : Viewer) : Prop where
  /-- A drag is in progress if the pointer was pressed and not released since. -/
  active : v.drag.isSome ↔ latest? pressed? history = some true
  gesture : v.drag.isSome → Nonempty (Gesture history)
  drag : ∀ g : Gesture history, v.drag = some g.drag
  hover : v.hover = (latest? hover? history).getD none
  /-- During a drag a move turns or shifts the view once, by its way from the last position. -/
  dragged : ∀ (g : Gesture history) (at_ : Pointer),
    (v.step (.pointerMoved at_)).projection = g.drag.follow (keyHeld history) at_ v.projection
  passed : latest? pressed? history ≠ some true → ∀ at_ : Pointer,
    (v.step (.pointerMoved at_)).projection = v.projection
  turned : keyHeld history = true → ∀ dx dy,
    (v.step (.scrolled dx dy)).projection = v.projection.rotateByScroll dx dy
  reset : ∀ e : Event, e.isReset = true → (v.step e).projection = .new v.projection.viewport
  /-- Nothing else touches the angles. -/
  angles : ∀ e : Event, e.moved? = none → e.isReset = false →
    (∀ dx dy, e = .scrolled dx dy → keyHeld history = false) →
    (v.step e).projection.angles = v.projection.angles
  /-- Nothing else touches the offset. -/
  offset : ∀ e : Event, e.moved? = none → e.isReset = false →
    (v.step e).projection.offset = v.projection.offset

namespace Viewer

/-- After every history of a new view, the pointer, the key and the next change of the view are what
the history tells. -/
theorem follows_run (cloud : Cloud) (style : SceneStyle) (history : List Event) :
    Follows history ((new cloud style).run history) := by
  have key := rotateKey_run cloud style history
  have active : ((new cloud style).run history).drag.isSome = (latest? pressed? history).getD false :=
    run_part (fun v => v.drag.isSome) isSome_drag_step _ history
  have active_iff : ((new cloud style).run history).drag.isSome ↔
      latest? pressed? history = some true := by
    rw [active]
    cases latest? pressed? history with
    | none => decide
    | some pressed => cases pressed <;> decide
  constructor
  · exact active_iff
  · intro dragging
    exact nonempty_gesture (active_iff.mp dragging)
  · exact drag_run_of_gesture cloud style
  · exact run_part hover hover_step _ history
  · intro g at_
    rw [moved_of_drag _ (drag_run_of_gesture cloud style g), key]
  · intro unpressed at_
    apply moved_of_no_drag
    exact Option.not_isSome_iff_eq_none.mp (unpressed ∘ active_iff.mp)
  · intro held dx dy
    rw [step, scrolled, if_pos (key.trans held)]
  · intro e reset
    exact reset_step _ reset
  · rw [← key]
    intro e unmoved kept zooms
    exact angles_step _ unmoved kept zooms
  · intro e unmoved kept
    exact offset_step _ unmoved kept

/-- A drag that began with the rotate key down goes on to turn the view when the key is up again. -/
example (at_ next : Pointer) :
    ((new [] .default).run [.setRotateKey true, .pointerDown .secondary {} at_,
      .setRotateKey false, .resetView, .pointerMoved next]).drag = some ⟨.rotate, next⟩ :=
  rfl

end Viewer

end PointScope
