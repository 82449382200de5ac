import PointScope.Expr.Error
import PointScope.Grid.Sample
import PointScope.Log.Basic
import PointScope.Screen.Basic

/-!
What a session logs, as events, and the record of each.
-/

namespace PointScope

inductive Phase where
  | sample
  | render
deriving DecidableEq, Repr

def Phase.name : Phase → String
  | sample => "sample"
  | render => "render"

inductive Notice where
  /-- The instructions that blending uses. -/
  | backend
  | configLoaded (path : String)
  | formulaRejected (source : String) (cause : Expr.Error)
  | cellSkipped (gap : Surface.Gap)
  | sampled (points cells : Nat)
  | composing (size : Viewport) (points : Nat)
  | cloudLoaded (points : Nat) (path : String)
  | cloudSaved (points : Nat) (path : String)
  | imageWritten (size : Viewport) (path : String)
  | began (phase : Phase)
  | ended (phase : Phase)

namespace Notice

def backendStart : String := "SIMD backend: "

def record : Notice → Log.Record
  | backend => ⟨.debug, "trueno_points", backendStart ++ "Scalar"⟩
  | configLoaded path => ⟨.debug, "trueno_points::config", s!"loaded config from {path}"⟩
  | formulaRejected source cause =>
    ⟨.debug, "trueno_points::expr", s!"expression '{source}' rejected: {cause.message}"⟩
  | cellSkipped gap =>
    ⟨.trace, "trueno_points::sampler",
      s!"skipping cell ({Decimal.shortest gap.x}, {Decimal.shortest gap.y}): {gap.cause.message}"⟩
  | sampled points cells =>
    ⟨.debug, "trueno_points::sampler",
      s!"sampled {points} of {cells} cells ({cells - points} skipped)"⟩
  | composing size points =>
    ⟨.trace, "trueno_points::scene",
      s!"composing {size.width}x{size.height} frame with {points} points"⟩
  | cloudLoaded points path =>
    ⟨.debug, "trueno_points::io::csv", s!"loaded {points} points from {path}"⟩
  | cloudSaved points path =>
    ⟨.debug, "trueno_points::io::csv", s!"saved {points} points to {path}"⟩
  | imageWritten size path =>
    ⟨.debug, "trueno_points::output::png_encoder",
      s!"wrote {size.width}x{size.height} PNG to {path}"⟩
  | began phase => ⟨.trace, "trueno_points::timing", s!"-> {phase.name}"⟩
  | ended phase => ⟨.trace, "trueno_points::timing", s!"<- {phase.name}"⟩

end Notice

end PointScope
