/-!
Arithmetic expressions over the variables `x` and `y`: the tree, its operators and its functions.
-/

namespace PointScope.Expr

inductive Variable where
  | x
  | y
deriving DecidableEq, Repr

inductive BinaryOp where
  | add
  | sub
  | mul
  | div
deriving DecidableEq, Repr

namespace BinaryOp

def all : List BinaryOp := [.add, .sub, .mul, .div]

/-- How strongly the operator binds; the higher binds tighter. -/
def precedence : BinaryOp → Nat
  | .add | .sub => 1
  | .mul | .div => 2

def symbol : BinaryOp → Char
  | .add => '+'
  | .sub => '-'
  | .mul => '*'
  | .div => '/'

end BinaryOp

inductive Sign where
  | minus
  | plus
deriving DecidableEq, Repr

namespace Sign

def symbol : Sign → Char
  | .minus => '-'
  | .plus => '+'

end Sign

inductive Function where
  | sin
  | cos
  | tan
  | sqrt
  | exp
  | log
deriving DecidableEq, Repr

namespace Function

def all : List Function := [.sin, .cos, .tan, .sqrt, .exp, .log]

def name : Function → String
  | .sin => "sin"
  | .cos => "cos"
  | .tan => "tan"
  | .sqrt => "sqrt"
  | .exp => "exp"
  | .log => "log"

/-- The function of a name; names are matched exactly. -/
def ofName? (name : String) : Option Function := all.find? (·.name == name)

theorem ofName?_name (f : Function) : ofName? f.name = some f := by cases f <;> decide

end Function

end PointScope.Expr

namespace PointScope

/-- An expression. A pair of parentheses is a node of its own, so a tree remembers how it was
written. -/
inductive Expr where
  | literal (value : Float)
  | variable (v : Expr.Variable)
  | group (inner : Expr)
  | signed (sign : Expr.Sign) (operand : Expr)
  | binary (op : Expr.BinaryOp) (left right : Expr)
  | call (f : Expr.Function) (argument : Expr)
deriving Repr, Inhabited

end PointScope
