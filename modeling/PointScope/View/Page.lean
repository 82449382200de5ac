import PointScope.Cloud.Builtin
import PointScope.Cloud.Csv
import PointScope.Grid.Sample
import PointScope.Png.DataUri
import PointScope.View.Viewer

/-!
The view on a web page: pointer buttons by their number, points as comma separated text, and
frames in the forms that a page can show.
-/

namespace PointScope.Page

/-- The button of a number: the first is the primary one, the second the wheel. -/
def button (number : UInt8) : PointerButton :=
  if number = 1 then .tertiary else if number = 2 then .secondary else .primary

def reference : Viewer := .new Cloud.reference .default

/-- The view of a formula over a grid. A text that is no formula has no points. -/
def ofFormula (source : String) (grid : SampleGrid) : Viewer :=
  .new ((FormulaText.ofString source).surface.sample grid) .default

def ofCsv (text : String) : Except Csv.Error Viewer :=
  (Csv.readText text).map fun cloud => .new cloud .default

def loadCsv (v : Viewer) (text : String) : Except Csv.Error Viewer :=
  (Csv.readText text).map v.replaceCloud

def toCsv (v : Viewer) : String := Csv.write v.cloud

def pointerDown (v : Viewer) (number : UInt8) (alt : Bool) (at_ : Pointer) : Viewer :=
  v.pointerDown (button number) { alt } at_

def rgba (v : Viewer) (size : Viewport) : Viewer × Except FrameFault ByteArray :=
  let (v, frame) := v.render size
  (v, frame.map Frame.compactBytes)

def png (v : Viewer) (size : Viewport) : Viewer × Except FrameFault ByteArray :=
  let (v, frame) := v.render size
  (v, frame.map fun f => Png.encode (.ofFrame f))

def dataUri (v : Viewer) (size : Viewport) : Viewer × Except FrameFault String :=
  let (v, frame) := v.render size
  (v, frame.map fun f => Png.dataUri (.ofFrame f))

end PointScope.Page
