import PointScope.Expr.Eval
import PointScope.Expr.Parser

/-!
Formulas: expressions together with the text they were written as, and surfaces, which are
whatever gives a height or a failure for a pair of coordinates.
-/

namespace PointScope

/-- A height, or a failure, for every pair of coordinates. -/
abbrev Surface := Float → Float → Except Expr.Error Float

structure Formula where
  source : String
  root : Expr
deriving Repr

namespace Formula

def parse (source : String) : Except Expr.Error Formula :=
  (Expr.parse source.toList).map fun root => { source, root }

def surface (f : Formula) : Surface := fun x y => f.root.eval x y

end Formula

def evaluate (source : String) (x y : Float) : Except Expr.Error Float :=
  match Formula.parse source with
  | .error e => .error e
  | .ok f => f.surface x y

/-- A text that may or may not be a formula, read once. -/
structure FormulaText where
  source : String
  parsed : Except Expr.Error Formula

namespace FormulaText

def ofString (source : String) : FormulaText := { source, parsed := Formula.parse source }

def isValid (t : FormulaText) : Bool :=
  match t.parsed with
  | .ok _ => true
  | .error _ => false

def fault? (t : FormulaText) : Option Expr.Error :=
  match t.parsed with
  | .ok _ => none
  | .error e => some e

/-- The text as a surface; if it is no formula, it fails with the same fault everywhere. -/
def surface (t : FormulaText) : Surface := fun x y =>
  match t.parsed with
  | .ok f => f.surface x y
  | .error e => .error e

end FormulaText

end PointScope
