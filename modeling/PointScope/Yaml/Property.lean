import PointScope.Yaml.Scalar

/-!
What may stand in front of a node, and the lines that set it up: anchors, tags, and the two
directives.
-/

namespace PointScope.Yaml

/-! ### Anchors -/

def endsName (c : Cursor) : Bool :=
  c.endsWord 0 ||
    (c.rest.head?.any fun ch => ['?', ':', ',', ']', '\x7d', '%', '@', '\x60'].contains ch)

def readAnchorName (c : Cursor) : Except Fault (List Char × Cursor) :=
  let (name, behind) := (c.skip 1).span isNameChar
  if name.isEmpty || !endsName behind then .error (behind.fault .nameExpected)
  else .ok (name, behind)

/-! ### Tags -/

/-- Whether a character may stand in a tag as it is; some may only within angle brackets. -/
def isTagChar (verbatim : Bool) (ch : Char) : Bool :=
  isNameChar ch || ";/?:@&=+$.!~*'()".toList.contains ch ||
    (verbatim && (ch == ',' || ch == '[' || ch == ']'))

/-- The number of bytes of a character in UTF-8 whose first byte is given. -/
def utf8Width? (first : Nat) : Option Nat :=
  if first < 0x80 then some 1
  else if 0xC0 ≤ first ∧ first < 0xE0 then some 2
  else if 0xE0 ≤ first ∧ first < 0xF0 then some 3
  else if 0xF0 ≤ first ∧ first < 0xF8 then some 4
  else none

def escapedByte? : List Char → Option Nat
  | '%' :: high :: low :: _ => hexValue? [high, low]
  | _ => none

/-- The character that a run of escaped bytes begins with, and the number of its bytes. -/
def escapedChar? (s : List Char) : Option (Char × Nat) := do
  let width ← utf8Width? (← escapedByte? s)
  let bytes ← (List.range width).mapM fun k => escapedByte? (s.drop (3 * k))
  let text ← String.fromUTF8? ⟨(bytes.map Nat.toUInt8).toArray⟩
  return (← text.toList.head?, width)

def readTagText (verbatim : Bool) :
    (fuel : Nat) → List Char → Cursor → Except Fault (List Char × Cursor)
  | 0, text, c => .ok (text.reverse, c)
  | fuel + 1, text, c =>
    match c.rest with
    | '%' :: _ =>
      match escapedChar? c.rest with
      | some (ch, width) => readTagText verbatim fuel (ch :: text) (c.skip (3 * width))
      | none => .error (c.fault .tagExpected)
    | ch :: _ =>
      if isTagChar verbatim ch then readTagText verbatim fuel (ch :: text) (c.skip 1)
      else .ok (text.reverse, c)
    | [] => .ok (text.reverse, c)

/-- Reads the text of a tag, of which `before` has been read already and counts. -/
def readTagRest (verbatim : Bool) (before : List Char) (c : Cursor) :
    Except Fault (List Char × Cursor) :=
  match readTagText verbatim c.rest.length [] c with
  | .error e => .error e
  | .ok (text, behind) =>
    if before.isEmpty && text.isEmpty then .error (behind.fault .tagExpected)
    else .ok (before.drop 1 ++ text, behind)

/-- Reads an exclamation mark, a name and, if there is one, a second mark. -/
def readTagHandle (c : Cursor) : List Char × Cursor :=
  let (name, behind) := (c.skip 1).span isNameChar
  if behind.sees '!' then ('!' :: name ++ ['!'], behind.skip 1) else ('!' :: name, behind)

structure TagText where
  handle : List Char
  suffix : List Char
deriving DecidableEq, Repr

/-- Reads a tag, but not what it ends before. -/
def readTagParts (c : Cursor) : Except Fault (TagText × Cursor) :=
  if c.rest.drop 1 |>.head? |>.any (· == '<') then
    match readTagRest true [] (c.skip 2) with
    | .error e => .error e
    | .ok (suffix, behind) =>
      if behind.sees '>' then .ok (⟨[], suffix⟩, behind.skip 1)
      else .error (behind.fault .tagExpected)
  else
    let (handle, behind) := readTagHandle c
    if 1 < handle.length && handle.getLast? == some '!' then
      (readTagRest false [] behind).map fun (suffix, behind) => (⟨handle, suffix⟩, behind)
    else
      (readTagRest false handle behind).map fun (suffix, behind) =>
        (if suffix.isEmpty then ⟨[], ['!']⟩ else ⟨['!'], suffix⟩, behind)

def readTag (inFlow : Bool) (c : Cursor) : Except Fault (TagText × Cursor) :=
  match readTagParts c with
  | .error e => .error e
  | .ok (tag, behind) =>
    if behind.endsWord 0 || (inFlow && behind.sees ',') then .ok (tag, behind)
    else .error (behind.fault .tagExpected)

/-! ### Directives -/

inductive Directive where
  | version (major minor : Nat)
  | tag (handle start : List Char)
deriving DecidableEq, Repr

def maxVersionDigits : Nat := 9

def readVersionNumber (c : Cursor) : Except Fault (Nat × Cursor) :=
  let (ds, behind) := c.span Char.isDigit
  if ds.isEmpty || decide (maxVersionDigits < ds.length) then .error (behind.fault .directive)
  else .ok (ds.foldl (fun n d => 10 * n + (d.toNat - 48)) 0, behind)

def readVersion (c : Cursor) : Except Fault (Directive × Cursor) := do
  let (major, c) ← readVersionNumber c
  if !c.sees '.' then .error (c.fault .directive)
  let (minor, c) ← readVersionNumber (c.skip 1)
  return (.version major minor, c)

def readTagDirective (c : Cursor) : Except Fault (Directive × Cursor) := do
  if !c.sees '!' then .error (c.fault .directive)
  let (handle, c) := readTagHandle c
  if handle.length != 1 && handle.getLast? != some '!' then .error (c.fault .directive)
  if !(c.rest.head?.any isSpacing) then .error (c.fault .directive)
  let (start, c) ← readTagRest true [] (c.skipWhile isSpacing)
  if !c.endsWord 0 then .error (c.fault .directive)
  return (.tag handle start, c)

def readDirective (c : Cursor) : Except Fault (Directive × Cursor) := do
  let (name, c) := (c.skip 1).span isNameChar
  if name.isEmpty || !c.endsWord 0 then .error (c.fault .directive)
  let (directive, c) ←
    if name = ['Y', 'A', 'M', 'L'] then readVersion (c.skipWhile isSpacing)
    else if name = ['T', 'A', 'G'] then readTagDirective (c.skipWhile isSpacing)
    else .error (c.fault .directive)
  let c := c.skipWhile isSpacing
  let c := if c.sees '#' then c.skipLine else c
  if !c.endsLine then .error (c.fault .directive)
  return (directive, c.skipBreak)

end PointScope.Yaml
