import PointScope.Expr.Error

/-!
Evaluation of an expression at a point. Operands are evaluated from left to right and the first
failure is the answer.
-/

namespace PointScope.Expr

/-- Applies an operator. Only a divisor that equals zero, of either sign, has no answer. -/
def BinaryOp.apply (op : BinaryOp) (a b : Float) : Except Error Float :=
  match op with
  | .add => .ok (a + b)
  | .sub => .ok (a - b)
  | .mul => .ok (a * b)
  | .div => if b == 0.0 then .error (.arithmetic .divisionByZero) else .ok (a / b)

def Sign.apply (sign : Sign) (v : Float) : Float :=
  match sign with
  | .minus => -v
  | .plus => v

/-- Applies a function. The square root refuses negative arguments and the logarithm those that
are not positive; not a number passes both. -/
def Function.apply (f : Function) (v : Float) : Except Error Float :=
  match f with
  | .sin => .ok v.sin
  | .cos => .ok v.cos
  | .tan => .ok v.tan
  | .exp => .ok v.exp
  | .sqrt => if v < 0.0 then .error (.domain .sqrt v) else .ok v.sqrt
  | .log => if v ≤ 0.0 then .error (.domain .log v) else .ok v.log

end PointScope.Expr

namespace PointScope

def Expr.eval (x y : Float) : Expr → Except Expr.Error Float
  | .literal v => .ok v
  | .variable .x => .ok x
  | .variable .y => .ok y
  | .group inner => inner.eval x y
  | .signed sign operand => (operand.eval x y).map sign.apply
  | .binary op left right =>
    match left.eval x y with
    | .error e => .error e
    | .ok a =>
      match right.eval x y with
      | .error e => .error e
      | .ok b => op.apply a b
  | .call f argument =>
    match argument.eval x y with
    | .error e => .error e
    | .ok v => f.apply v

end PointScope
