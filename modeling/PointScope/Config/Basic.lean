import PointScope.Color.Hex
import PointScope.Grid.Basic
import PointScope.Scene.Style

/-!
Configurations: what a scene looks like, the size of its frame and the grid that functions are
sampled on. Settings are kept as they were written; `check` says whether they can be used like
that, and everything that uses them is meant for settings that passed it.
-/

namespace PointScope

structure StyleSettings where
  pointSize : Int := SceneStyle.default.pointSize
  background : String := SceneStyle.default.background.toHex
  pointColor : String := SceneStyle.default.pointColor.toHex
  borderColor : String := SceneStyle.default.borderColor.toHex
  labelColor : String := SceneStyle.default.labelColor.toHex
  gridExtent : Int := SceneStyle.default.gridExtent
  axisLength : Float := SceneStyle.default.axisLength
  axisThickness : Nat := SceneStyle.default.axisThickness
deriving Repr

/-- The range and the step of sampling as they are written in a configuration. -/
structure SamplingSettings where
  xMin : Float := SampleGrid.default.xMin
  xMax : Float := SampleGrid.default.xMax
  yMin : Float := SampleGrid.default.yMin
  yMax : Float := SampleGrid.default.yMax
  step : Float := SampleGrid.default.step
deriving Repr

/-- A configuration. Whatever is not written has its default. -/
structure Config where
  version : UInt32 := 1
  viewport : Viewport := .default
  style : StyleSettings := {}
  sampling : SamplingSettings := {}
deriving Repr

namespace Config

/-! ### Use -/

def grid (c : Config) : Except GridFault SampleGrid :=
  SampleGrid.new? c.sampling.xMin c.sampling.xMax c.sampling.yMin c.sampling.yMax c.sampling.step

/-- The look of the scene. A color that cannot be read has its default. -/
def sceneStyle (c : Config) : SceneStyle :=
  let base := SceneStyle.default
  { base with
    pointSize := c.style.pointSize
    background := (Rgba.ofHex? c.style.background).getD base.background
    pointColor := (Rgba.ofHex? c.style.pointColor).getD base.pointColor
    borderColor := (Rgba.ofHex? c.style.borderColor).getD base.borderColor
    labelColor := (Rgba.ofHex? c.style.labelColor).getD base.labelColor
    gridExtent := c.style.gridExtent
    axisLength := c.style.axisLength
    axisThickness := c.style.axisThickness }

/-! ### Checks -/

inductive ColorSetting where
  | background
  | pointColor
  | borderColor
  | labelColor
deriving DecidableEq, Repr

namespace ColorSetting

/-- All colors in the order they are checked. -/
def all : List ColorSetting := [.background, .pointColor, .borderColor, .labelColor]

def name : ColorSetting → String
  | background => "background"
  | pointColor => "point_color"
  | borderColor => "border_color"
  | labelColor => "label_color"

def text (s : StyleSettings) : ColorSetting → String
  | background => s.background
  | pointColor => s.pointColor
  | borderColor => s.borderColor
  | labelColor => s.labelColor

end ColorSetting

inductive SizeSetting where
  | pointSize
  | gridExtent
  | axisThickness
deriving DecidableEq, Repr

namespace SizeSetting

/-- All sizes in the order they are checked. -/
def all : List SizeSetting := [.pointSize, .gridExtent, .axisThickness]

def name : SizeSetting → String
  | pointSize => "point_size"
  | gridExtent => "grid_extent"
  | axisThickness => "axis_thickness"

def greatest : SizeSetting → Int
  | pointSize => SceneStyle.maxPointSize
  | gridExtent => SceneStyle.maxGridExtent
  | axisThickness => SceneStyle.maxAxisThickness

def value (s : StyleSettings) : SizeSetting → Int
  | pointSize => s.pointSize
  | gridExtent => s.gridExtent
  | axisThickness => s.axisThickness

end SizeSetting

inductive Unusable where
  | color (which : ColorSetting) (text : String)
  | size (which : SizeSetting) (value : Int)
  | axisLength (value : Float)
  | sampling (fault : GridFault)
deriving Repr

def Unusable.message : Unusable → String
  | color which text => s!"style.{which.name}: '{text}' is not a #RRGGBB color"
  | size which value => s!"style.{which.name} must be within 0..={which.greatest}, got {value}"
  | axisLength value =>
    s!"style.axis_length must be finite and not negative, got {Decimal.shortest value}"
  | sampling fault => fault.report

def checkColor (s : StyleSettings) (which : ColorSetting) : Except Unusable Unit :=
  match Rgba.ofHex? (which.text s) with
  | some _ => .ok ()
  | none => .error (.color which (which.text s))

def checkSize (s : StyleSettings) (which : SizeSetting) : Except Unusable Unit :=
  let value := which.value s
  if 0 ≤ value ∧ value ≤ which.greatest then .ok () else .error (.size which value)

def checkAxisLength (s : StyleSettings) : Except Unusable Unit :=
  if !s.axisLength.isFinite || s.axisLength < 0.0 then .error (.axisLength s.axisLength) else .ok ()

/-- Judges the settings: the colors, the sizes, the length of the axes and the sampling, in this
order. -/
def check (c : Config) : Except Unusable Unit := do
  ColorSetting.all.forM (checkColor c.style)
  SizeSetting.all.forM (checkSize c.style)
  checkAxisLength c.style
  match c.grid with
  | .ok _ => return
  | .error fault => throw (.sampling fault)

end Config

end PointScope
