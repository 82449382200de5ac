import PointScope.Decimal.Shortest
import PointScope.Expr.Basic

/-!
What can go wrong with an expression, as causes, and the wording of each cause.
-/

namespace PointScope.Expr

inductive SyntaxFault where
  | invalidNumber (text : String)
  | unexpectedCharacter (c : Char)
  | nestedTooDeeply
  | missingClose
  | unexpectedEnd
  /-- A token that starts no operand, under the name of its kind. -/
  | unexpectedToken (kind : String)
  | trailingInput
deriving DecidableEq, Repr

namespace SyntaxFault

def message : SyntaxFault → String
  | invalidNumber text => s!"invalid number '{text}'"
  | unexpectedCharacter c => s!"unexpected character '{c}'"
  | nestedTooDeeply => "expression nested too deeply"
  | missingClose => "expected ')'"
  | unexpectedEnd => "unexpected end of expression"
  | unexpectedToken kind => s!"unexpected token {kind}"
  | trailingInput => "unexpected trailing input"

end SyntaxFault

/-- What is well-formed, or nearly so, and still not in the language. -/
inductive Unsupported where
  | operator (symbol : Char)
  | functionWithoutCall (name : String)
  | identifier (name : String)
  | function (name : String)
  | argumentCount (name : String)
  /-- Refused, in its own words, by a surface that is not an expression. -/
  | refused (reason : String)
deriving DecidableEq, Repr

namespace Unsupported

def message : Unsupported → String
  | operator symbol => s!"operator '{symbol}'"
  | functionWithoutCall name => s!"function '{name}' used without a call"
  | identifier name => s!"unknown identifier '{name}'"
  | function name => s!"unknown function '{name}'"
  | argumentCount name => s!"function '{name}' requires exactly one argument"
  | refused reason => reason

end Unsupported

inductive ArithmeticFault where
  | divisionByZero
deriving DecidableEq, Repr

namespace ArithmeticFault

def message : ArithmeticFault → String
  | divisionByZero => "division by zero"

end ArithmeticFault

/-- A failure to parse or to evaluate an expression. Columns count characters from zero. -/
inductive Error where
  | syntaxError (column : Nat) (fault : SyntaxFault)
  | domain (f : Function) (argument : Float)
  | arithmetic (fault : ArithmeticFault)
  | unsupported (what : Unsupported)
deriving Repr

namespace Error

def message : Error → String
  | syntaxError column fault => s!"parse error at column {column}: {fault.message}"
  | domain f argument => s!"domain error: {f.name}({Decimal.shortest argument}) is undefined"
  | arithmetic fault => s!"arithmetic error: {fault.message}"
  | unsupported what => s!"unsupported expression: {what.message}"

end Error

end PointScope.Expr
