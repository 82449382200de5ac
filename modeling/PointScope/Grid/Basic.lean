import PointScope.Decimal.Shortest
import PointScope.Grid.Walk

/-!
Sampling grids: a range on each axis and one step for both. A grid is made by `SampleGrid.new?`,
which refuses what no walk could use; a lower bound above its upper bound is allowed and gives a
grid without cells.
-/

namespace PointScope

inductive GridBound where
  | xMin
  | xMax
  | yMin
  | yMax
deriving DecidableEq, Repr

def GridBound.name : GridBound → String
  | xMin => "xmin"
  | xMax => "xmax"
  | yMin => "ymin"
  | yMax => "ymax"

inductive GridFault where
  /-- The step is not a positive finite number. -/
  | step (value : Float)
  | bound (which : GridBound) (value : Float)
deriving Repr

def GridFault.message : GridFault → String
  | step value => s!"step must be a positive finite number, got {Decimal.shortest value}"
  | bound which value => s!"{which.name} must be finite, got {Decimal.shortest value}"

def GridFault.report (f : GridFault) : String := s!"Invalid sampling grid: {f.message}"

structure SampleGrid where
  xMin : Float
  xMax : Float
  yMin : Float
  yMax : Float
  step : Float
deriving Repr

namespace SampleGrid

def default : SampleGrid := ⟨-5.0, 5.0, -5.0, 5.0, 0.2⟩

/-- Makes a grid; the step is judged first, then the bounds in the order of the fields. -/
def new? (xMin xMax yMin yMax step : Float) : Except GridFault SampleGrid :=
  if !step.isFinite || step ≤ 0.0 then .error (.step step)
  else if !xMin.isFinite then .error (.bound .xMin xMin)
  else if !xMax.isFinite then .error (.bound .xMax xMax)
  else if !yMin.isFinite then .error (.bound .yMin yMin)
  else if !yMax.isFinite then .error (.bound .yMax yMax)
  else .ok ⟨xMin, xMax, yMin, yMax, step⟩

/-- The numbers from one bound to another, both ends included. -/
def axis (start stop step : Float) : List Float := Grid.walk (· ≤ stop) step start

def xs (g : SampleGrid) : List Float := axis g.xMin g.xMax g.step

def ys (g : SampleGrid) : List Float := axis g.yMin g.yMax g.step

def axisCount (start stop step : Float) : Nat := Grid.count (· ≤ stop) step start

theorem axisCount_eq (start stop step : Float) :
    axisCount start stop step = (axis start stop step).length :=
  Grid.count_eq_length ..

/-- The number of cells in a word of 64 bits; a larger number stops at the greatest word. -/
def cellCount (g : SampleGrid) : Nat :=
  min (axisCount g.xMin g.xMax g.step * axisCount g.yMin g.yMax g.step) (UInt64.size - 1)

theorem cellCount_eq (g : SampleGrid) :
    g.cellCount = min (g.xs.length * g.ys.length) (UInt64.size - 1) := by
  rw [cellCount, axisCount_eq, axisCount_eq, xs, ys]

/-- The cells of a grid in the order of a visit: the first axis is the outer one. -/
def cells (g : SampleGrid) : List (Float × Float) :=
  g.xs.flatMap fun x => g.ys.map fun y => (x, y)

theorem length_cells (g : SampleGrid) : g.cells.length = g.xs.length * g.ys.length := by
  simp [cells, List.length_flatMap, List.map_const']

end SampleGrid

end PointScope
