import PointScope.Yaml.Node
import PointScope.Yaml.Token

/-!
Documents from tokens. Each function reads one construct and answers what there is of it; the
first fault is kept in the state and from then on no token is seen any more, so that everything
ends where the text breaks off.
-/

namespace PointScope.Yaml

structure NodeReader where
  tokens : List Token
  fault : Option Fault := none
  /-- The fault behind the last token. -/
  atEnd : Option Fault
  /-- What the handles of tags stand for. -/
  handles : List (List Char × List Char) := []
  names : List (List Char × Nat) := []
  anchors : Array (Nat × Node) := #[]

abbrev Reading (α : Type) := StateM NodeReader α

def peek : Reading (Option Token) := fun s =>
  match s.fault, s.tokens with
  | some _, _ => (none, s)
  | none, t :: _ => (some t, s)
  | none, [] => (none, { s with fault := some (s.atEnd.getD ⟨0, .contentExpected⟩) })

def advance : Reading Unit := modify fun s => { s with tokens := s.tokens.drop 1 }

/-- Keeps a fault, unless there was one before. -/
def refuse (line : Nat) (problem : Problem) : Reading Unit :=
  modify fun s => { s with fault := s.fault.or (some ⟨line, problem⟩) }

/-- What stands in front of a node. -/
structure Properties where
  line : Nat
  anchor : Option (List Char) := none
  tag : Option (List Char) := none

def resolveTag (line : Nat) (tag : TagText) : Reading (List Char) := do
  if tag.handle.isEmpty then return tag.suffix
  match (← get).handles.lookup tag.handle with
  | some start => return start ++ tag.suffix
  | none =>
    refuse line .undefinedTagHandle
    return tag.suffix

/-- Reads an anchor and a tag, in any order. -/
def readProperties (line : Nat) : Reading Properties := do
  let anchor? : Reading (Option (List Char)) := do
    match (← peek).map Token.kind with
    | some (.anchor name) =>
      advance
      return some name
    | _ => return none
  let before ← anchor?
  match ← peek with
  | some ⟨.tag text, tagLine⟩ =>
    advance
    let anchor ← if before.isNone then anchor? else pure before
    match ← peek with
    | none => return { line, anchor }
    | some _ => return { line, anchor, tag := some (← resolveTag tagLine text) }
  | _ => return { line, anchor := before }

/-- Reads a node and remembers it under its anchor. A name takes the number of names known when
it is given; its node is known from its beginning on. -/
def atAnchor (name : Option (List Char)) (read : Reading Node) : Reading Node := do
  match name with
  | none => read
  | some name =>
    let s ← get
    let number := s.names.length
    let place := s.anchors.size
    set { s with
      names := (name, number) :: s.names.filter (·.1 != name)
      anchors := s.anchors.push (number, .missing) }
    let node ← read
    modify fun s => { s with anchors := s.anchors.setIfInBounds place (number, node) }
    return node

/-- The entry that stands where a mapping breaks off. -/
def brokenOff : List (Node × Node) := [(.missing, .missing)]

/-- Whether nothing is written for a key or value of a block in front of a token. -/
def endsBlockNode (kind : TokenKind) : Bool := kind == .key || kind == .value || kind == .blockEnd

mutual

/-- Reads a node. Blocks may begin only in `block` context, and a sequence may lack an
indentation of its own only as the value or key of a block mapping. -/
def readNode (fuel : Nat) (block indentless : Bool) : Reading Node :=
  match fuel with
  | 0 => return .missing
  | fuel + 1 => do
    match ← peek with
    | none => return .missing
    | some ⟨.alias name, line⟩ =>
      advance
      match (← get).names.lookup name with
      | some number => return .alias number
      | none =>
        refuse line .unknownAnchor
        return .missing
    | some first =>
      let p ← readProperties first.line
      match ← peek with
      | none => return .missing
      | some t => atAnchor p.anchor (readContent fuel block indentless p t)

/-- Reads a node behind its properties, beginning with a token. -/
def readContent (fuel : Nat) (block indentless : Bool) (p : Properties) (t : Token) :
    Reading Node :=
  match fuel with
  | 0 => return .missing
  | fuel + 1 => do
    match t.kind with
    | .scalar style text =>
      advance
      return .scalar p.line style p.tag text
    | .flowSequenceStart =>
      advance
      return .sequence p.line (← readFlowSequence fuel true)
    | .flowMappingStart =>
      advance
      return .mapping p.line (← readFlowMapping fuel true)
    | kind =>
      if indentless && kind == .blockEntry then
        return .sequence p.line (← readIndentless fuel)
      else if block && kind == .blockSequenceStart then
        advance
        return .sequence p.line (← readBlockSequence fuel)
      else if block && kind == .blockMappingStart then
        advance
        return .mapping p.line (← readBlockMapping fuel)
      else if p.anchor.isSome || p.tag.isSome then return .scalar p.line .plain p.tag []
      else
        refuse t.line .contentExpected
        return .missing

def readBlockSequence (fuel : Nat) : Reading (List Node) :=
  match fuel with
  | 0 => return []
  | fuel + 1 => do
    match ← peek with
    | some ⟨.blockEntry, line⟩ =>
      advance
      let item ← readUnless fuel line fun kind => kind == .blockEntry || kind == .blockEnd
      return item :: (← readBlockSequence fuel)
    | some ⟨.blockEnd, _⟩ =>
      advance
      return []
    | some t =>
      refuse t.line .entryExpected
      return []
    | none => return []

/-- Reads the entries of a sequence without an indentation of its own. -/
def readIndentless (fuel : Nat) : Reading (List Node) :=
  match fuel with
  | 0 => return []
  | fuel + 1 => do
    match ← peek with
    | some ⟨.blockEntry, line⟩ =>
      advance
      let item ← readUnless fuel line fun kind => kind == .blockEntry || endsBlockNode kind
      return item :: (← readIndentless fuel)
    | _ => return []

/-- Reads a node of a block sequence, or nothing in front of some tokens. -/
def readUnless (fuel : Nat) (line : Nat) (stops : TokenKind → Bool) : Reading Node :=
  match fuel with
  | 0 => return .missing
  | fuel + 1 => do
    match ← peek with
    | none => return .missing
    | some t => if stops t.kind then return .empty line else readNode fuel true false

def readBlockMapping (fuel : Nat) : Reading (List (Node × Node)) :=
  match fuel with
  | 0 => return brokenOff
  | fuel + 1 => do
    match ← peek with
    | some ⟨.key, line⟩ =>
      advance
      let key ← readBlockPart fuel line
      let value ← readBlockValue fuel
      return (key, value) :: (← readBlockMapping fuel)
    | some ⟨.blockEnd, _⟩ =>
      advance
      return []
    | some t =>
      refuse t.line .keyExpected
      return brokenOff
    | none => return brokenOff

def readBlockValue (fuel : Nat) : Reading Node :=
  match fuel with
  | 0 => return .missing
  | fuel + 1 => do
    match ← peek with
    | some ⟨.value, line⟩ =>
      advance
      readBlockPart fuel line
    | some t => return .empty t.line
    | none => return .missing

/-- Reads a key or a value of a block mapping behind its indicator. -/
def readBlockPart (fuel : Nat) (line : Nat) : Reading Node :=
  match fuel with
  | 0 => return .missing
  | fuel + 1 => do
    match ← peek with
    | none => return .missing
    | some t => if endsBlockNode t.kind then return .empty line else readNode fuel true true

def readFlowSequence (fuel : Nat) (first : Bool) : Reading (List Node) :=
  match fuel with
  | 0 => return []
  | fuel + 1 => do
    match ← peek with
    | none => return []
    | some ⟨.flowSequenceEnd, _⟩ =>
      advance
      return []
    | some t =>
      if !first && t.kind != .flowEntry then
        refuse t.line .sequenceEndExpected
        return []
      if !first then advance
      match ← peek with
      | none => return []
      | some ⟨.flowSequenceEnd, _⟩ =>
        advance
        return []
      | some ⟨.key, line⟩ =>
        advance
        let pair ← readFlowPair fuel
        return .mapping line [pair] :: (← readFlowSequence fuel false)
      | some _ =>
        let item ← readNode fuel false false
        return item :: (← readFlowSequence fuel false)

/-- Reads a mapping of one entry without braces, behind the indicator of its key. A key that is
not written takes the token behind it along. -/
def readFlowPair (fuel : Nat) : Reading (Node × Node) :=
  match fuel with
  | 0 => return (.missing, .missing)
  | fuel + 1 => do
    match ← peek with
    | none => return (.missing, .missing)
    | some t =>
      let ends := t.kind == .value || t.kind == .flowEntry || t.kind == .flowSequenceEnd
      let key ← if ends then do
          advance
          pure (.empty t.line)
        else readNode fuel false false
      return (key, ← readFlowValue fuel .flowSequenceEnd)

def readFlowMapping (fuel : Nat) (first : Bool) : Reading (List (Node × Node)) :=
  match fuel with
  | 0 => return brokenOff
  | fuel + 1 => do
    match ← peek with
    | none => return brokenOff
    | some ⟨.flowMappingEnd, _⟩ =>
      advance
      return []
    | some t =>
      if !first && t.kind != .flowEntry then
        refuse t.line .mappingEndExpected
        return brokenOff
      if !first then advance
      match ← peek with
      | none => return brokenOff
      | some ⟨.flowMappingEnd, _⟩ =>
        advance
        return []
      | some ⟨.key, _⟩ =>
        advance
        let key ← readFlowPart fuel fun kind =>
          kind == .value || kind == .flowEntry || kind == .flowMappingEnd
        let value ← readFlowValue fuel .flowMappingEnd
        return (key, value) :: (← readFlowMapping fuel false)
      | some _ =>
        let key ← readNode fuel false false
        let value := (← peek).elim .missing fun t => .empty t.line
        return (key, value) :: (← readFlowMapping fuel false)

def readFlowValue (fuel : Nat) (close : TokenKind) : Reading Node :=
  match fuel with
  | 0 => return .missing
  | fuel + 1 => do
    match ← peek with
    | some ⟨.value, _⟩ =>
      advance
      readFlowPart fuel fun kind => kind == .flowEntry || kind == close
    | some t => return .empty t.line
    | none => return .missing

/-- Reads a node between brackets, or nothing in front of some tokens. -/
def readFlowPart (fuel : Nat) (stops : TokenKind → Bool) : Reading Node :=
  match fuel with
  | 0 => return .missing
  | fuel + 1 => do
    match ← peek with
    | none => return .missing
    | some t => if stops t.kind then return .empty t.line else readNode fuel false false

end

/-! ### Documents -/

def standardHandles : List (List Char × List Char) :=
  [(['!'], ['!']), (['!', '!'], "tag:yaml.org,2002:".toList)]

def readDirectives : (fuel : Nat) → (sawVersion : Bool) → Reading Unit
  | 0, _ => return
  | fuel + 1, sawVersion => do
    match ← peek with
    | some ⟨.directive (.version major minor), line⟩ =>
      if sawVersion then refuse line .duplicateDirective
      else if major != 1 || (minor != 1 && minor != 2) then refuse line .version
      advance
      readDirectives fuel true
    | some ⟨.directive (.tag handle start), line⟩ =>
      if ((← get).handles.lookup handle).isSome then refuse line .duplicateDirective
      modify fun s => { s with handles := s.handles ++ [(handle, start)] }
      advance
      readDirectives fuel sawVersion
    | _ => modify fun s => { s with handles := s.handles ++ standardHandles }

def isBetweenDocuments : TokenKind → Bool
  | .directive _ | .documentStart | .documentEnd | .streamEnd => true
  | _ => false

def isDirective : TokenKind → Bool
  | .directive _ => true
  | _ => false

/-- Reads the root of a document. Behind directives its beginning has to be marked. -/
def readRoot (fuel : Nat) : Reading Node := do
  let marked := (← peek).any fun t => isDirective t.kind
  readDirectives fuel false
  match ← peek with
  | none => return .missing
  | some ⟨.documentStart, _⟩ =>
    advance
    match ← peek with
    | none => return .missing
    | some t => if isBetweenDocuments t.kind then return .empty t.line else readNode fuel true false
  | some t =>
    if marked then
      refuse t.line .documentStartExpected
      return .missing
    else readNode fuel true false

def skipDocumentEnds : (fuel : Nat) → Reading Unit
  | 0 => return
  | fuel + 1 => do
    match ← peek with
    | some ⟨.documentEnd, _⟩ =>
      advance
      skipDocumentEnds fuel
    | _ => return

/-- Reads the first document. A text without any has an empty one. -/
def readFirst (fuel : Nat) : Reading Document := do
  match (← peek).map Token.kind with
  | some .streamEnd => return { root := .empty 1, anchors := [], fault := none, followed := false }
  | _ =>
    let root ← readRoot fuel
    let _ ← peek
    let s ← get
    skipDocumentEnds fuel
    let followed := (← peek).map Token.kind != some .streamEnd
    return { root, anchors := s.anchors.toList, fault := s.fault, followed }

def Document.ofTokens (tokens : Tokens) : Document :=
  (readFirst (8 * tokens.list.length + 8) { tokens := tokens.list, atEnd := tokens.fault }).1

def Document.ofText (text : List Char) : Document := .ofTokens (.ofText text)

end PointScope.Yaml
