import PointScope.Yaml.Fault

/-!
The scalars of YAML: how their text is read from plain, quoted and block form. Each reader starts
at the first character of the scalar and answers the text with the cursor behind it.

Inside flowing text, what separates two words becomes one blank if it is a single line break, the
remaining breaks if it is several, and stays as it is within a line.
-/

namespace PointScope.Yaml

inductive ScalarStyle where
  | plain
  | singleQuoted
  | doubleQuoted
  | literal
  | folded
deriving DecidableEq, Repr

/-! ### Gaps between words -/

/-- Blanks and line breaks between two words. Once a line has ended, blanks no longer count. -/
structure Gap where
  broken : Bool := false
  blanks : List Char := []
  /-- The first line break, unless an escape took its place. -/
  first : Option Char := none
  more : List Char := []

namespace Gap

def addBlank (g : Gap) (ch : Char) : Gap :=
  if g.broken then g else { g with blanks := g.blanks ++ [ch] }

def addBreak (g : Gap) (ch : Char) : Gap :=
  if g.broken then { g with more := g.more ++ [ch] }
  else { g with broken := true, first := some ch }

def text (g : Gap) : List Char :=
  if !g.broken then g.blanks
  else
    match g.first with
    | some '\n' => if g.more.isEmpty then [' '] else g.more
    | some ch => ch :: g.more
    | none => g.more

/-- Reads on through a gap. After a line break, a tab before column `indent` is a fault. -/
def readOn (indent : Nat) : (fuel : Nat) → Gap → Cursor → Except Fault (Gap × Cursor)
  | 0, g, c => .ok (g, c)
  | fuel + 1, g, c =>
    match c.lineBreak? with
    | some (ch, next) => readOn indent fuel (g.addBreak ch) next
    | none =>
      match c.rest with
      | ch :: _ =>
        if !isSpacing ch then .ok (g, c)
        else if ch == '\t' && g.broken && decide (c.at_.column < indent) then
          .error (c.fault .tabIndentation)
        else readOn indent fuel (g.addBlank ch) (c.skip 1)
      | [] => .ok (g, c)

def read (indent : Nat) (g : Gap) (c : Cursor) : Except Fault (Gap × Cursor) :=
  readOn indent c.rest.length g c

end Gap

/-! ### Plain scalars -/

/-- Whether a character always has a meaning of its own between brackets. -/
def isFlowIndicator (ch : Char) : Bool :=
  ch == ',' || ch == '[' || ch == ']' || ch == '\x7b' || ch == '\x7d'

structure Plain where
  text : List Char
  /-- Whether line breaks follow it. -/
  broken : Bool
  behind : Cursor

/-- Reads on in a plain scalar, whose text so far is given backwards. -/
def plainOn (inFlow : Bool) (indent : Nat) :
    (fuel : Nat) → List Char → Gap → Cursor → Except Fault Plain
  | 0, text, g, c => .ok ⟨text.reverse, g.broken, c⟩
  | fuel + 1, text, g, c =>
    let stop : Except Fault Plain := .ok ⟨text.reverse, g.broken, c⟩
    match c.rest with
    | [] => stop
    | ch :: rest =>
      let inWord := !g.broken && g.blanks.isEmpty && !text.isEmpty
      if c.seesDocumentMark || (ch == '#' && !inWord) then stop
      else if isSpacing ch || isBreak ch then
        match Gap.read indent {} c with
        | .error e => .error e
        | .ok (g, c) =>
          if !inFlow && decide (c.at_.column < indent) then .ok ⟨text.reverse, g.broken, c⟩
          else plainOn inFlow indent fuel text g c
      else if inFlow && ch == ':' &&
          (rest.head?.any fun next => isFlowIndicator next || next == '?') then
        .error (c.fault .colonInFlow)
      else if (ch == ':' && c.endsWord 1) || (inFlow && isFlowIndicator ch) then stop
      else plainOn inFlow indent fuel (ch :: (g.text.reverse ++ text)) {} (c.skip 1)

/-- Reads a plain scalar. Outside of brackets it ends before a line that is indented by less than
`indent`. -/
def readPlain (inFlow : Bool) (indent : Nat) (c : Cursor) : Except Fault Plain :=
  plainOn inFlow indent (2 * c.rest.length + 1) [] {} c

/-! ### Quoted scalars -/

def hexValue? (ds : List Char) : Option Nat :=
  ds.foldl (fun value ch =>
    match value with
    | none => none
    | some v =>
      if ch.isDigit then some (16 * v + (ch.toNat - 48))
      else if 'a' ≤ ch ∧ ch ≤ 'f' then some (16 * v + (ch.toNat - 87))
      else if 'A' ≤ ch ∧ ch ≤ 'F' then some (16 * v + (ch.toNat - 55))
      else none) (some 0)

def simpleEscape? (ch : Char) : Option Char :=
  [('0', '\x00'), ('a', '\x07'), ('b', '\x08'), ('t', '\t'), ('\t', '\t'), ('n', '\n'),
    ('v', '\x0b'), ('f', '\x0c'), ('r', '\r'), ('e', '\x1b'), (' ', ' '), ('"', '"'), ('/', '/'),
    ('\\', '\\'), ('N', '\u0085'), ('_', '\u00a0'), ('L', '\u2028'), ('P', '\u2029')].lookup ch

def escapeDigits? (ch : Char) : Option Nat := [('x', 2), ('u', 4), ('U', 8)].lookup ch

def readEscape (c : Cursor) : Except Fault (Char × Cursor) :=
  match c.rest with
  | [] => .error (c.fault .unknownEscape)
  | letter :: rest =>
    match simpleEscape? letter, escapeDigits? letter with
    | some ch, _ => .ok (ch, c.skip 1)
    | none, none => .error (c.fault .unknownEscape)
    | none, some n =>
      match if rest.length < n then none else hexValue? (rest.take n) with
      | none => .error (c.fault .badEscapeCode)
      | some code =>
        if (0xD800 ≤ code ∧ code ≤ 0xDFFF) ∨ 0x10FFFF < code then .error (c.fault .badEscapeCode)
        else .ok (Char.ofNat code, c.skip (n + 1))

/-- Reads on in a quoted scalar, whose text so far is given backwards. -/
def quotedOn (single : Bool) : (fuel : Nat) → List Char → Cursor → Except Fault (List Char × Cursor)
  | 0, _, c => .error (c.fault .unclosedQuote)
  | fuel + 1, text, c =>
    let acrossGap (g : Gap) (c : Cursor) : Except Fault (List Char × Cursor) :=
      match Gap.read 0 g c with
      | .error e => .error e
      | .ok (g, c) => quotedOn single fuel (g.text.reverse ++ text) c
    match c.rest with
    | [] => .error (c.fault .unclosedQuote)
    | ch :: rest =>
      if c.seesDocumentMark then .error (c.fault .documentMarkInQuote)
      else if isSpacing ch || isBreak ch then acrossGap {} c
      else if single && ch == '\'' && rest.head? == some '\'' then
        quotedOn single fuel ('\'' :: text) (c.skip 2)
      else if ch == (if single then '\'' else '"') then .ok (text.reverse, c.skip 1)
      else if !single && ch == '\\' then
        if rest.head?.any isBreak then acrossGap { broken := true } (c.skip 1).skipBreak
        else
          match readEscape (c.skip 1) with
          | .error e => .error e
          | .ok (escaped, c) => quotedOn single fuel (escaped :: text) c
      else quotedOn single fuel (ch :: text) (c.skip 1)

def readQuoted (single : Bool) (c : Cursor) : Except Fault (List Char × Cursor) :=
  quotedOn single c.rest.length [] (c.skip 1)

/-! ### Block scalars -/

inductive Chomping where
  | strip
  | clip
  | keep
deriving DecidableEq, Repr

def chomping? (ch : Char) : Option Chomping :=
  if ch == '+' then some .keep else if ch == '-' then some .strip else none

/-- The header of a block scalar behind its first indicator: chomping and an explicit indentation,
which is not zero, in any order. -/
def readBlockHeader (c : Cursor) : Except Fault (Chomping × Nat × Cursor) :=
  let digit? (c : Cursor) : Except Fault (Nat × Cursor) :=
    match c.rest with
    | ch :: _ =>
      if !ch.isDigit then .ok (0, c)
      else if ch == '0' then .error (c.fault .blockIndicator)
      else .ok (ch.toNat - 48, c.skip 1)
    | [] => .ok (0, c)
  match c.rest.head?.bind chomping? with
  | some chomping => (digit? (c.skip 1)).map fun (n, c) => (chomping, n, c)
  | none => (digit? c).map fun (n, c) =>
      if n == 0 then (.clip, n, c)
      else
        match c.rest.head?.bind chomping? with
        | some chomping => (chomping, n, c.skip 1)
        | none => (.clip, n, c)

/-- The lines without text from a cursor on, the indentation of the text behind them, and the
cursor there. An `indent` of zero is still to be found out. -/
def emptyLines (indent : Nat) :
    (fuel : Nat) → List Char → Nat → Cursor → Except Fault (List Char × Nat × Cursor)
  | 0, breaks, widest, c => .ok (breaks, widest, c)
  | fuel + 1, breaks, widest, c =>
    let spaces := c.rest.takeWhile (· == ' ')
    let passed := if indent == 0 then spaces.length else min spaces.length (indent - c.at_.column)
    let c := c.skip passed
    let widest := max widest c.at_.column
    if (indent == 0 || decide (c.at_.column < indent)) && c.sees '\t' then
      .error (c.fault .tabIndentation)
    else
      match c.lineBreak? with
      | some (ch, next) => emptyLines indent fuel (breaks ++ [ch]) widest next
      | none => .ok (breaks, widest, c)

/-- Reads on in a block scalar at the beginning of a line. The text so far is given backwards;
`pending` is the break that ended the last line, and `breaks` are those of the empty lines behind
it. -/
def blockOn (isLiteral : Bool) (chomping : Chomping) (indent : Nat) :
    (fuel : Nat) → List Char → Option Char → List Char → (afterBlank : Bool) → Cursor →
      Except Fault (List Char × Cursor)
  | 0, text, _, _, _, c => .ok (text.reverse, c)
  | fuel + 1, text, pending, breaks, afterBlank, c =>
    if c.at_.column != indent || c.rest.isEmpty then
      let tail := if chomping == .strip then [] else pending.toList
      let tail := if chomping == .keep then tail ++ breaks else tail
      .ok (text.reverse ++ tail, c)
    else
      let startsBlank := c.rest.head?.any isSpacing
      let joined :=
        if !isLiteral && pending == some '\n' && !afterBlank && !startsBlank then
          if breaks.isEmpty then [' '] else breaks
        else pending.toList ++ breaks
      let (line, c) := c.span fun ch => !isBreak ch
      let (pending, c) :=
        match c.lineBreak? with
        | some (ch, next) => (some ch, next)
        | none => (none, c)
      match emptyLines indent (c.rest.length + 1) [] 0 c with
      | .error e => .error e
      | .ok (breaks, _, c) =>
        blockOn isLiteral chomping indent fuel (line.reverse ++ (joined.reverse ++ text)) pending
          breaks startsBlank c

/-- Reads a block scalar, from its indicator on. `outer` is the column behind the indentation of
the surrounding block. -/
def readBlock (isLiteral : Bool) (outer : Nat) (c : Cursor) : Except Fault (List Char × Cursor) :=
  match readBlockHeader (c.skip 1) with
  | .error e => .error e
  | .ok (chomping, increment, c) =>
    let c := c.skipWhile isSpacing
    let c := if c.sees '#' then c.skipLine else c
    if !c.endsLine then .error (c.fault .blockIndicator)
    else
      let c := c.skipBreak
      let given := if increment == 0 then 0 else (outer - 1) + increment
      match emptyLines given (c.rest.length + 1) [] 0 c with
      | .error e => .error e
      | .ok (breaks, widest, c) =>
        let indent := if increment == 0 then max widest (max outer 1) else given
        blockOn isLiteral chomping indent (c.rest.length + 1) [] none breaks false c

end PointScope.Yaml
