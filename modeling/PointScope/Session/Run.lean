import PointScope.Cloud.Builtin
import PointScope.CommandLine.Reader
import PointScope.Decimal.Fixed
import PointScope.Png.Image
import PointScope.Session.Host
import PointScope.View.Viewer

/-!
A session of the command line program: the configuration, then the points, then one frame, which
is written to a file, shown as text, or both. What is asked for on the command line comes before
the configuration, and the configuration before the defaults.
-/

namespace PointScope.Session

open CommandLine (Options)

section Steps

variable {m : Type → Type} [Monad m] (host : Host m)

def say (line : String) : Step m Unit := ExceptT.lift (host.print (line ++ "\n"))

/-- Does what cannot fail. -/
def always {α : Type} (action : m α) : Step m α := ExceptT.lift action

/-- Does what may fail; a failure ends the session and is reported as one of what was attempted. -/
def trying {α : Type} (attempt : Option String) (action : m (Except Failure α)) : Step m α :=
  ExceptT.mk do
    match ← action with
    | .ok v => return .ok v
    | .error failure => return .error (.reported { attempt, failure })

/-- Does a part of a session and logs its beginning and its end. There is no end if the program stops. -/
def timed {α : Type} (phase : Phase) (part : Step m α) : Step m α :=
  ExceptT.mk do
    host.note (.began phase)
    match ← part.run with
    | .error .stopped => return .error .stopped
    | result =>
      host.note (.ended phase)
      return result

/-! ### Files -/

def loadConfig (path : String) : m (Except Failure Config) := do
  match (← host.read path).toOption.bind String.fromUTF8? with
  | none => return .error (.noConfig path)
  | some text =>
    match Config.parse text with
    | .error fault => return .error (.config fault)
    | .ok config =>
      host.note (.configLoaded path)
      return .ok config

/-- Loads a configuration, or the defaults if there is none that can be used. -/
def loadConfigOrDefault (path : String) : m Config := do
  match ← loadConfig host path with
  | .ok config => return config
  | .error _ => return {}

def loadCloud (path : String) : m (Except Failure Cloud) := do
  match ← host.read path with
  | .error fault => return .error (.file fault)
  | .ok bytes =>
    match Csv.read bytes.data.toList with
    | .error e => return .error (.ofCsv e)
    | .ok cloud =>
      host.note (.cloudLoaded cloud.length path)
      return .ok cloud

def saveCloud (path : String) (cloud : Cloud) : m (Except Failure Unit) := do
  match ← host.write path (Csv.write cloud).toUTF8 with
  | .error fault => return .error (.file fault)
  | .ok _ =>
    host.note (.cloudSaved cloud.length path)
    return .ok ()

def saveImage (path : String) (frame : Frame) : m (Except Failure Unit) := do
  match ← host.write path (Png.encode (.ofFrame frame)) with
  | .error fault => return .error (.file fault)
  | .ok _ =>
    host.note (.imageWritten frame.size path)
    return .ok ()

/-! ### Parts -/

/-- The configuration: the one that is asked for, which has to be usable, or the user's. -/
def chooseConfig (env : Environment) (o : Options) : Step m Config :=
  match o.config, env.configPath with
  | some path, _ => trying (some s!"failed to load config {path}") (loadConfig host path)
  | none, some path => always (loadConfigOrDefault host path)
  | none, none => return {}

def chooseGrid (o : Options) (config : Config) : Except GridFault SampleGrid :=
  let s := config.sampling
  SampleGrid.new? (o.xmin.getD s.xMin) (o.xmax.getD s.xMax) (o.ymin.getD s.yMin)
    (o.ymax.getD s.yMax) (o.step.getD s.step)

/-- Samples a surface and logs the cells without a point. -/
def sampleLogged (surface : Surface) (grid : SampleGrid) : m Cloud := do
  let cloud := surface.sample grid
  (surface.gaps grid).forM fun gap => host.note (.cellSkipped gap)
  host.note (.sampled cloud.length grid.cellCount)
  return cloud

def rangeText (g : SampleGrid) : String :=
  let two := Decimal.fixed 2
  s!"Range: x=[{two g.xMin}, {two g.xMax}], y=[{two g.yMin}, {two g.yMax}], step={two g.step}"

def readFormula (source : String) : m (Except Failure Formula) := do
  match Formula.parse source with
  | .ok formula => return .ok formula
  | .error cause =>
    host.note (.formulaRejected source cause)
    return .error (.expression cause)

def formulaCloud (source : String) (o : Options) (config : Config) : Step m Cloud := do
  let grid ← trying none (pure ((chooseGrid o config).mapError Failure.sampling))
  let formula ← trying (some s!"invalid function '{source}'") (readFormula host source)
  say host s!"Generating points from function: {source}"
  say host (rangeText grid)
  let cloud ← timed host .sample (always (sampleLogged host formula.surface grid))
  say host s!"Generated {cloud.length} points from function"
  return cloud

def fileCloud (path : String) : Step m Cloud := do
  say host s!"Loading points from CSV file: {path}"
  let cloud ← trying (some s!"failed to load {path}") (loadCloud host path)
  say host s!"Loaded {cloud.length} points from CSV"
  return cloud

def defaultCloud : Step m Cloud := do
  say host "No function or CSV file specified, using default points"
  match Cloud.reference with
  | [p₁, p₂, p₃] =>
    say host s!"Distance p1 to p2: {Decimal.fixed 2 (p₁.distance p₂)}"
    say host s!"Distance p2 to p3: {Decimal.fixed 2 (p₂.distance p₃)}"
    say host s!"Manhattan distance p1 to p3: {Decimal.fixed 2 (p₁.manhattanDistance p₃)}"
  | _ => pure ()
  return Cloud.reference

def chooseCloud (o : Options) (config : Config) : Step m Cloud :=
  match o.function, o.csv with
  | some source, _ => formulaCloud host source o config
  | none, some path => fileCloud host path
  | none, none => defaultCloud host

def chooseView (o : Options) (p : Projection) : Projection :=
  let turned := p.setRotation o.rotateX o.rotateY o.rotateZ
  (o.zoom.map turned.setScale).getD turned

def chooseSize (o : Options) (config : Config) : Viewport :=
  ⟨o.width.getD config.viewport.width, o.height.getD config.viewport.height⟩

def renderLogged (viewer : Viewer) (size : Viewport) : Step m Frame := do
  match (viewer.render size).2 with
  | .error (.empty size) => throw (.reported { failure := .emptySize size })
  | .error .stopped => throw .stopped
  | .ok frame =>
    always (host.note (.composing size viewer.cloud.length))
    return frame

def previewSettings (o : Options) : Terminal.Settings :=
  { mode := if o.ascii then .ascii else .halfBlock
    columns := o.columns, invert := o.invert, stretch := o.stretch }

def deliverFile (path : String) (frame : Frame) : Step m Unit := do
  trying (some s!"failed to write {path}") (saveImage host path frame)
  say host s!"Wrote {frame.width}x{frame.height} frame to {path}"

def deliver (o : Options) (config : Config) (cloud : Cloud) : Step m Unit := do
  let fresh := Viewer.new cloud config.sceneStyle
  let viewer := { fresh with projection := chooseView o fresh.projection }
  let frame ← timed host .render (renderLogged host viewer (chooseSize o config))
  match o.output with
  | none => pure ()
  | some path => deliverFile host path frame
  if o.terminal || o.output.isNone then
    always (host.print (Terminal.render (previewSettings o) frame))

def generate (path : String) : Step m Unit := do
  say host s!"Generating sample CSV file at {path}"
  trying (some s!"failed to write {path}") (saveCloud host path Cloud.demo)
  say host "Sample CSV file generated successfully"

def perform (env : Environment) (o : Options) : Step m Unit := do
  always (host.note .backend)
  let config ← chooseConfig host env o
  match o.generate with
  | some path => generate host path
  | none => deliver host o config (← chooseCloud host o config)

end Steps

/-! ### Sessions -/

inductive Outcome where
  | ended (exitCode : UInt32) (report : Option String)
  | stopped
deriving DecidableEq, Repr

def run {m : Type → Type} [Monad m] (host : Host m) (env : Environment) (arguments : List String) :
    m Outcome := do
  match CommandLine.read arguments with
  | .error refusal => return .ended 2 (some refusal.message)
  | .ok .help =>
    host.print CommandLine.helpText
    return .ended 0 none
  | .ok .version =>
    host.print CommandLine.versionText
    return .ended 0 none
  | .ok (.run o) =>
    let logs := o.debug || env.logVariable.any Log.switchesOn
    match ← (perform (if logs then host else host.silent) env o).run with
    | .ok _ => return .ended 0 none
    | .error (.reported report) => return .ended 1 (some report.text)
    | .error .stopped => return .stopped

end PointScope.Session
