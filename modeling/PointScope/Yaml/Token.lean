import PointScope.Yaml.Property

/-!
The tokens of a YAML text. Indentation becomes tokens that open and close blocks. What may turn
out to be the key of a mapping is remembered until its colon is found: a key stands on one line
and is not longer than 1024 characters. The tokens of a key, and the one that opens its mapping,
are then put in front of it; until that is decided the tokens behind it are held back.
-/

namespace PointScope.Yaml

inductive TokenKind where
  | streamEnd
  | directive (d : Directive)
  | documentStart
  | documentEnd
  | blockSequenceStart
  | blockMappingStart
  | blockEnd
  | flowSequenceStart
  | flowSequenceEnd
  | flowMappingStart
  | flowMappingEnd
  | blockEntry
  | flowEntry
  | key
  | value
  | alias (name : List Char)
  | anchor (name : List Char)
  | tag (text : TagText)
  | scalar (style : ScalarStyle) (text : List Char)
deriving DecidableEq, Repr

/-- A token and the line it begins on, counted from one. -/
structure Token where
  kind : TokenKind
  line : Nat
deriving DecidableEq, Repr

/-- Something that is a key if a colon follows. -/
structure PendingKey where
  /-- The number of its first token. -/
  token : Nat
  at_ : Mark
  /-- Whether nothing but a key may stand at its column. -/
  required : Bool
deriving DecidableEq, Repr

def maxKeyLength : Nat := 1024

/-- Whether something may still be a key when its colon comes at a position. -/
def PendingKey.isFresh (k : PendingKey) (at_ : Mark) : Bool :=
  decide (at_.line ≤ k.at_.line) && decide (at_.index ≤ k.at_.index + maxKeyLength)

structure Scanner where
  cursor : Cursor
  tokens : Array Token := #[]
  /-- Whether a key may begin here. -/
  keyAllowed : Bool := true
  /-- What may be a key on each level of brackets, the innermost level first. -/
  keys : List (Option PendingKey) := [none]
  /-- The columns of the open blocks, the innermost first. -/
  blocks : List Nat := []
  finished : Bool := false

namespace Scanner

def inFlow (s : Scanner) : Bool := decide (1 < s.keys.length)

/-- The column behind the indentation of the innermost block. -/
def margin (s : Scanner) : Nat := (s.blocks.head?.map (· + 1)).getD 0

def here (s : Scanner) (kind : TokenKind) : Token := ⟨kind, s.cursor.line⟩

def emit (s : Scanner) (kind : TokenKind) : Scanner :=
  { s with tokens := s.tokens.push (s.here kind) }

def emitTo (s : Scanner) (kind : TokenKind) (behind : Cursor) : Scanner :=
  { s.emit kind with cursor := behind }

def emitChars (s : Scanner) (kind : TokenKind) (n : Nat) : Scanner :=
  s.emitTo kind (s.cursor.skip n)

/-! ### Keys -/

def dropStale (s : Scanner) : Except Fault Scanner :=
  let isStale (k : PendingKey) := !k.isFresh s.cursor.at_
  if s.keys.any (·.any fun k => k.required && isStale k) then .error (s.cursor.fault .missingColon)
  else .ok { s with keys := s.keys.map fun key => key.filter fun k => !isStale k }

def dropKey (s : Scanner) : Except Fault Scanner :=
  match s.keys with
  | [] => .ok s
  | key :: outer =>
    if key.any (·.required) then .error (s.cursor.fault .missingColon)
    else .ok { s with keys := none :: outer }

def saveKey (s : Scanner) : Except Fault Scanner :=
  if !s.keyAllowed then .ok s
  else s.dropKey.map fun s =>
    let required := !s.inFlow && s.blocks.head? == some s.cursor.at_.column
    { s with keys := some ⟨s.tokens.size, s.cursor.at_, required⟩ :: s.keys.drop 1 }

/-! ### Blocks -/

/-- Opens a block at a column, unless it is open or the cursor is within brackets. The token that
opens it is put at a place among the tokens. -/
def openBlock (s : Scanner) (kind : TokenKind) (at_ : Mark) (place : Nat) : Scanner :=
  if s.inFlow || decide (at_.column < s.margin) then s
  else
    { s with
      blocks := at_.column :: s.blocks
      tokens := s.tokens.take place ++ #[Token.mk kind (at_.line + 1)] ++ s.tokens.drop place }

/-- Closes the blocks that are indented further than `keep` columns allow. -/
def closeBlocks (s : Scanner) (keep : Nat → Bool) : Scanner :=
  if s.inFlow then s
  else
    { s with
      blocks := s.blocks.dropWhile fun column => !keep column
      tokens := s.tokens ++
        ((s.blocks.takeWhile fun column => !keep column).map fun _ => s.here .blockEnd).toArray }

def closeAll (s : Scanner) : Scanner := s.closeBlocks fun _ => false

/-! ### Single tokens -/

/-- Passes blanks, comments and line ends. A tab counts as a blank where no key may begin. -/
def skipBlanks : (fuel : Nat) → Scanner → Scanner
  | 0, s => s
  | fuel + 1, s =>
    let c := if s.cursor.at_.index == 0 && s.cursor.sees '\ufeff' then s.cursor.skip 1 else s.cursor
    let tabs := s.inFlow || !s.keyAllowed
    let c := c.skipWhile fun ch => ch == ' ' || (tabs && ch == '\t')
    let c := if c.sees '#' then c.skipLine else c
    match c.lineBreak? with
    | some (_, next) =>
      skipBlanks fuel { s with cursor := next, keyAllowed := s.keyAllowed || !s.inFlow }
    | none => { s with cursor := c }

/-- The end of the text, which counts as the beginning of a line. -/
def readEnd (s : Scanner) : Except Fault Scanner :=
  let c := if s.cursor.at_.column == 0 then s.cursor else s.cursor.nextLine 0
  let atLineStart : Scanner := { s with cursor := c }
  atLineStart.closeAll.dropKey.map fun s =>
    { s.emit .streamEnd with keyAllowed := false, finished := true }

def readDocumentMark (s : Scanner) (kind : TokenKind) : Except Fault Scanner :=
  s.closeAll.dropKey.map fun s => { s.emitChars kind 3 with keyAllowed := false }

def readDirectiveLine (s : Scanner) : Except Fault Scanner := do
  let s ← s.closeAll.dropKey
  let (d, behind) ← readDirective s.cursor
  return { s.emitTo (.directive d) behind with keyAllowed := false }

def readOpen (s : Scanner) (kind : TokenKind) : Except Fault Scanner :=
  s.saveKey.map fun s => { s.emitChars kind 1 with keys := none :: s.keys, keyAllowed := true }

def readClose (s : Scanner) (kind : TokenKind) : Except Fault Scanner :=
  s.dropKey.map fun s =>
    { s.emitChars kind 1 with
      keys := if s.inFlow then s.keys.drop 1 else s.keys
      keyAllowed := false }

def readFlowEntry (s : Scanner) : Except Fault Scanner :=
  s.dropKey.map fun s => { s.emitChars .flowEntry 1 with keyAllowed := true }

def readBlockEntry (s : Scanner) : Except Fault Scanner :=
  if !s.inFlow && !s.keyAllowed then .error (s.cursor.fault .entryNotAllowed)
  else
    (s.openBlock .blockSequenceStart s.cursor.at_ s.tokens.size).dropKey.map fun s =>
      { s.emitChars .blockEntry 1 with keyAllowed := true }

def readKey (s : Scanner) : Except Fault Scanner :=
  if !s.inFlow && !s.keyAllowed then .error (s.cursor.fault .keyNotAllowed)
  else
    (s.openBlock .blockMappingStart s.cursor.at_ s.tokens.size).dropKey.map fun s =>
      { s.emitChars .key 1 with keyAllowed := !s.inFlow }

/-- A colon. What may be a key in front of it now is one. -/
def readValue (s : Scanner) : Except Fault Scanner :=
  match s.keys.head?.join with
  | some k =>
    let keyed : Scanner := { s with
      tokens := s.tokens.take k.token ++ #[Token.mk .key (k.at_.line + 1)] ++ s.tokens.drop k.token
      keys := none :: s.keys.drop 1 }
    let opened := keyed.openBlock .blockMappingStart k.at_ k.token
    .ok { opened.emitChars .value 1 with keyAllowed := false }
  | none =>
    if !s.inFlow && !s.keyAllowed then .error (s.cursor.fault .valueNotAllowed)
    else
      let opened := s.openBlock .blockMappingStart s.cursor.at_ s.tokens.size
      .ok { opened.emitChars .value 1 with keyAllowed := !s.inFlow }

def readName (s : Scanner) (kind : List Char → TokenKind) : Except Fault Scanner := do
  let s ← s.saveKey
  let (name, behind) ← readAnchorName s.cursor
  return { s.emitTo (kind name) behind with keyAllowed := false }

def readTagToken (s : Scanner) : Except Fault Scanner := do
  let s ← s.saveKey
  let (tag, behind) ← readTag s.inFlow s.cursor
  return { s.emitTo (.tag tag) behind with keyAllowed := false }

def readBlockScalar (s : Scanner) (isLiteral : Bool) : Except Fault Scanner := do
  let s ← s.dropKey
  let (text, behind) ← readBlock isLiteral s.margin s.cursor
  return { s.emitTo (.scalar (if isLiteral then .literal else .folded) text) behind with
    keyAllowed := true }

def readQuotedScalar (s : Scanner) (single : Bool) : Except Fault Scanner := do
  let s ← s.saveKey
  let (text, behind) ← readQuoted single s.cursor
  return { s.emitTo (.scalar (if single then .singleQuoted else .doubleQuoted) text) behind with
    keyAllowed := false }

def readPlainScalar (s : Scanner) : Except Fault Scanner := do
  let s ← s.saveKey
  let plain ← readPlain s.inFlow s.margin s.cursor
  return { s.emitTo (.scalar .plain plain.text) plain.behind with keyAllowed := plain.broken }

def isIndicator (ch : Char) : Bool := "-?:,[]\x7b\x7d#&*!|>'\"%@\x60".toList.contains ch

def startsPlain (s : Scanner) (ch : Char) : Bool :=
  let next := (s.cursor.rest.drop 1).head?
  !(isIndicator ch || isSpacing ch || isBreak ch) ||
    (ch == '-' && !next.any isSpacing) ||
    (!s.inFlow && (ch == '?' || ch == ':') && !s.cursor.endsWord 1)

def readToken (s : Scanner) (ch : Char) : Except Fault Scanner :=
  let word := s.cursor.endsWord 1
  if s.cursor.at_.column == 0 && ch == '%' then s.readDirectiveLine
  else if s.cursor.seesDocumentStart then s.readDocumentMark .documentStart
  else if s.cursor.seesDocumentEnd then s.readDocumentMark .documentEnd
  else if ch == '[' then s.readOpen .flowSequenceStart
  else if ch == '\x7b' then s.readOpen .flowMappingStart
  else if ch == ']' then s.readClose .flowSequenceEnd
  else if ch == '\x7d' then s.readClose .flowMappingEnd
  else if ch == ',' then s.readFlowEntry
  else if ch == '-' && word then s.readBlockEntry
  else if ch == '?' && (s.inFlow || word) then s.readKey
  else if ch == ':' && (s.inFlow || word) then s.readValue
  else if ch == '*' then s.readName .alias
  else if ch == '&' then s.readName .anchor
  else if ch == '!' then s.readTagToken
  else if ch == '|' && !s.inFlow then s.readBlockScalar true
  else if ch == '>' && !s.inFlow then s.readBlockScalar false
  else if ch == '\'' then s.readQuotedScalar true
  else if ch == '"' then s.readQuotedScalar false
  else if s.startsPlain ch then s.readPlainScalar
  else .error (s.cursor.fault .strayCharacter)

/-- Reads the next token, together with those that close the blocks in front of it. -/
def step (s : Scanner) : Except Fault Scanner := do
  let s := skipBlanks (s.cursor.rest.length + 1) s
  let s ← s.dropStale
  let s := s.closeBlocks fun column => decide (column ≤ s.cursor.at_.column)
  let s ← match s.cursor.rest with
    | [] => s.readEnd
    | ch :: _ => s.readToken ch
  s.dropStale

/-- The tokens in front of everything that may still be a key. -/
def released (s : Scanner) : List Token :=
  let held := (s.keys.filterMap id).foldl (fun n k => min n k.token) s.tokens.size
  (s.tokens.take held).toList

end Scanner

/-- The tokens of a text up to its end or to the first fault. -/
structure Tokens where
  list : List Token
  fault : Option Fault

def Scanner.run : (fuel : Nat) → Scanner → Tokens
  | 0, s => ⟨s.tokens.toList, none⟩
  | fuel + 1, s =>
    match s.step with
    | .error e => ⟨s.released, some e⟩
    | .ok s => if s.finished then ⟨s.tokens.toList, none⟩ else run fuel s

/-- Reads the tokens of a text. A character that no text may hold is a fault of the first line. -/
def Tokens.ofText (text : List Char) : Tokens :=
  if text.all isAllowed then Scanner.run (text.length + 2) { cursor := .start text }
  else ⟨[], some ⟨1, .controlCharacter⟩⟩

end PointScope.Yaml
