import PointScope.Decimal.Shortest
import PointScope.Expr.Basic

/-!
The text of an expression. Binary operators stand between blanks, everything else is written
without; no parentheses are added, since the tree holds those that were written.
-/

namespace PointScope

def Expr.chars : Expr → List Char
  | .literal v => Decimal.shortestChars v
  | .variable .x => ['x']
  | .variable .y => ['y']
  | .group inner => '(' :: (inner.chars ++ [')'])
  | .signed sign operand => sign.symbol :: operand.chars
  | .binary op left right => left.chars ++ ' ' :: op.symbol :: ' ' :: right.chars
  | .call f argument => f.name.toList ++ '(' :: (argument.chars ++ [')'])

def Expr.toText (e : Expr) : String := String.ofList e.chars

end PointScope
