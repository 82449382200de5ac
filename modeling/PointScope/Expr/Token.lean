import PointScope.Decimal.Reader
import PointScope.Expr.Error
import PointScope.Text.Blank
import PointScope.Text.Letter

/-!
Tokens of an expression. The text is cut from the left: blanks are skipped, and at every other
character one token begins, as long as its class allows. Each token keeps the column it begins at
and the number of characters it takes, so the tokens and the blanks between them tile the text.
-/

namespace PointScope.Expr

/-- A token. The end of the text is the end of the token list, not a token. -/
inductive Token where
  | number (value : Float)
  | identifier (name : String)
  | plus
  | minus
  | star
  | slash
  | openParen
  | closeParen
  | comma
  /-- An operator outside the language. -/
  | foreign (symbol : Char)
deriving Repr

namespace Token

/-- The operator that a token stands for between two operands. -/
def binaryOp? : Token → Option BinaryOp
  | plus => some .add
  | minus => some .sub
  | star => some .mul
  | slash => some .div
  | _ => none

/-- The sign that a token stands for in front of an operand. -/
def sign? : Token → Option Sign
  | plus => some .plus
  | minus => some .minus
  | _ => none

def kind : Token → String
  | number _ => "Num"
  | identifier _ => "Ident"
  | plus => "Plus"
  | minus => "Minus"
  | star => "Star"
  | slash => "Slash"
  | openParen => "LParen"
  | closeParen => "RParen"
  | comma => "Comma"
  | foreign _ => "Foreign"

/-- The token of a single character that is a token by itself. -/
def ofSymbol? : Char → Option Token
  | '+' => some plus
  | '-' => some minus
  | '*' => some star
  | '/' => some slash
  | '(' => some openParen
  | ')' => some closeParen
  | ',' => some comma
  | '%' => some (foreign '%')
  | '^' => some (foreign '^')
  | _ => none

end Token

structure Lexeme where
  token : Token
  column : Nat
  width : Nat
deriving Repr

def isNumeral (c : Char) : Bool := c.isDigit || c == '.'

def isNameStart (c : Char) : Bool := Text.isLetter c || c == '_'

def isNamePart (c : Char) : Bool := Text.isLetterOrNumber c || c == '_'

/-- The exponent part that a text begins with: a mark, an optional sign and at least one digit.
It is empty where the mark is not followed by a number. -/
def exponentPart : List Char → List Char
  | mark :: s =>
    if mark == 'e' || mark == 'E' then
      let sign := match s with
        | c :: _ => if c == '+' || c == '-' then [c] else []
        | [] => []
      match (s.drop sign.length).takeWhile Char.isDigit with
      | [] => []
      | ds => mark :: sign ++ ds
    else []
  | [] => []

/-- The numeral that a text begins with: a run of digits and points and its exponent part. -/
def numeral (s : List Char) : List Char :=
  s.takeWhile isNumeral ++ exponentPart (s.dropWhile isNumeral)

/-- The token that begins at a character which is no blank, and how many of the characters behind
it belong to it too. -/
def scan (c : Char) (behind : List Char) : Except SyntaxFault (Token × Nat) :=
  if isNumeral c then
    let text := numeral (c :: behind)
    match Decimal.read? text with
    | some v => .ok (.number v, text.length - 1)
    | none => .error (.invalidNumber (String.ofList text))
  else if isNameStart c then
    let others := behind.takeWhile isNamePart
    .ok (.identifier (String.ofList (c :: others)), others.length)
  else
    match Token.ofSymbol? c with
    | some token => .ok (token, 0)
    | none => .error (.unexpectedCharacter c)

/-- Cuts a text that begins at a column into tokens; the first fault from the left is the answer
if there is one. -/
def lexFrom (column : Nat) : List Char → Except Error (List Lexeme)
  | [] => .ok []
  | c :: behind =>
    if Text.isBlank c then lexFrom (column + 1) behind
    else
      match scan c behind with
      | .error fault => .error (.syntaxError column fault)
      | .ok (token, more) =>
        match lexFrom (column + 1 + more) (behind.drop more) with
        | .error e => .error e
        | .ok rest => .ok (⟨token, column, more + 1⟩ :: rest)
termination_by s => s.length

def lex (text : List Char) : Except Error (List Lexeme) := lexFrom 0 text

end PointScope.Expr
