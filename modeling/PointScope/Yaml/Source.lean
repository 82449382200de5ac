/-!
YAML text as a reader walks through it: the characters that are left and the position of the next
one. Lines end at line feeds, carriage returns, the two together, and the three line separators of
Unicode.
-/

namespace PointScope.Yaml

def isAllowed (c : Char) : Bool :=
  let n := c.toNat
  n == 0x09 || n == 0x0A || n == 0x0D || (0x20 ≤ n && n ≤ 0x7E) || n == 0x85 ||
    (0xA0 ≤ n && n ≤ 0xFFFD) || 0x10000 ≤ n

def isBreak (c : Char) : Bool :=
  c == '\n' || c == '\r' || c == '\u0085' || c == '\u2028' || c == '\u2029'

def isSpacing (c : Char) : Bool := c == ' ' || c == '\t'

def isNameChar (c : Char) : Bool := c.isAlphanum || c == '_' || c == '-'

/-- A position in a text: how many characters stand before it, and its line and column, both
counted from zero. -/
structure Mark where
  index : Nat := 0
  line : Nat := 0
  column : Nat := 0
deriving DecidableEq, Repr

/-- What is left of a text, and the position it begins at. -/
structure Cursor where
  rest : List Char
  at_ : Mark

namespace Cursor

def start (text : List Char) : Cursor := { rest := text, at_ := {} }

def line (c : Cursor) : Nat := c.at_.line + 1

def skip (c : Cursor) (n : Nat) : Cursor :=
  { rest := c.rest.drop n
    at_ := { c.at_ with index := c.at_.index + n, column := c.at_.column + n } }

/-- The characters from here on that belong to a class, and the cursor behind them. The class
must not hold line breaks. -/
def span (c : Cursor) (belongs : Char → Bool) : List Char × Cursor :=
  let taken := c.rest.takeWhile belongs
  (taken, c.skip taken.length)

/-- Passes the characters of a class that holds no line breaks. -/
def skipWhile (c : Cursor) (belongs : Char → Bool) : Cursor := (c.span belongs).2

def skipLine (c : Cursor) : Cursor := c.skipWhile fun ch => !isBreak ch

/-- The cursor at the beginning of the next line, when `n` characters end this one. -/
def nextLine (c : Cursor) (n : Nat) : Cursor :=
  { rest := c.rest.drop n
    at_ := { index := c.at_.index + n, line := c.at_.line + 1, column := 0 } }

/-- Passes the end of a line, if there is one here, and says which character stands for it: the
two separators of Unicode for lines and paragraphs keep their own, all others are line feeds. -/
def lineBreak? (c : Cursor) : Option (Char × Cursor) :=
  match c.rest with
  | '\r' :: '\n' :: _ => some ('\n', c.nextLine 2)
  | ch :: _ =>
    if ch == '\u2028' || ch == '\u2029' then some (ch, c.nextLine 1)
    else if isBreak ch then some ('\n', c.nextLine 1)
    else none
  | [] => none

/-- The cursor at the beginning of the next line, if a line ends here, and else this one. -/
def skipBreak (c : Cursor) : Cursor := (c.lineBreak?.map Prod.snd).getD c

/-- Whether the text, or the line, or the word ends before character number `n` from here. -/
def endsWord (c : Cursor) (n : Nat) : Bool :=
  match c.rest.drop n with
  | [] => true
  | ch :: _ => isSpacing ch || isBreak ch

def endsLine (c : Cursor) : Bool :=
  match c.rest with
  | [] => true
  | ch :: _ => isBreak ch

def sees (c : Cursor) (ch : Char) : Bool := c.rest.head? == some ch

/-- Whether a line begins here with three dashes as a word. -/
def seesDocumentStart (c : Cursor) : Bool :=
  c.at_.column == 0 && c.rest.take 3 == ['-', '-', '-'] && c.endsWord 3

/-- Whether a line begins here with three dots as a word. -/
def seesDocumentEnd (c : Cursor) : Bool :=
  c.at_.column == 0 && c.rest.take 3 == ['.', '.', '.'] && c.endsWord 3

def seesDocumentMark (c : Cursor) : Bool := c.seesDocumentStart || c.seesDocumentEnd

end Cursor

end PointScope.Yaml
