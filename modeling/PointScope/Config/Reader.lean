import PointScope.Config.Basic
import PointScope.Text.Blank
import PointScope.Yaml.Document
import PointScope.Yaml.Number

/-!
Configurations from YAML. Keys that are not known are passed over, whatever their value is; a
known key may be given once. Reading goes through the document from its beginning, so of two
faults the first one is reported, and a value that is wrong comes before a text that breaks off
behind it.
-/

namespace PointScope.Config

open Yaml (Document Node)

inductive Expected where
  | mapping
  | key
  | text
  | unsigned
  | signed
  | number
deriving DecidableEq, Repr

def Expected.name : Expected → String
  | mapping => "a mapping"
  | key => "a key"
  | text => "a string"
  | unsigned => "a whole number of 32 bits"
  | signed => "a signed whole number of 32 bits"
  | number => "a number"

/-- Why a text holds no settings. Lines are counted from one. -/
inductive ReadFault where
  | text (fault : Yaml.Fault)
  | value (line : Nat) (expected : Expected)
  | repeated (line : Nat) (key : String)
  | severalDocuments
deriving DecidableEq, Repr

namespace ReadFault

/-- The line of a fault, or zero if it has none. -/
def line : ReadFault → Nat
  | text fault => fault.line
  | value line _ => line
  | repeated line _ => line
  | severalDocuments => 0

def message : ReadFault → String
  | text fault => s!"{fault.problem.message} at line {fault.line}"
  | value line expected => s!"expected {expected.name} at line {line}"
  | repeated line key => s!"duplicate field '{key}' at line {line}"
  | severalDocuments =>
    "deserializing from YAML containing more than one document is not supported"

end ReadFault

/-! ### Values -/

def mismatch (d : Document) (expected : Expected) : Node → ReadFault
  | .scalar line .. => .value line expected
  | .sequence line _ => .value line expected
  | .mapping line _ => .value line expected
  | .alias _ | .missing => .text (d.fault.getD ⟨0, .contentExpected⟩)

def readScalar (d : Document) (expected : Expected)
    (read : Yaml.ScalarStyle → Option (List Char) → List Char → Option α) (node : Node) :
    Except ReadFault α :=
  let node := d.resolve node
  match node with
  | .scalar _ style tag text =>
    match read style tag text with
    | some v => .ok v
    | none => .error (mismatch d expected node)
  | _ => .error (mismatch d expected node)

/-- Reads a node as text; every scalar is one. -/
def readText (d : Document) (expected : Expected) : Node → Except ReadFault String :=
  readScalar d expected fun _ _ text => some (String.ofList text)

/-- Reads a number from a plain scalar, or from a literal one that is tagged as such. -/
def readNumber (d : Document) (expected : Expected) (tag : String) (read : List Char → Option α) :
    Node → Except ReadFault α :=
  readScalar d expected fun style given text =>
    match style with
    | .plain => read text
    | .literal => if given = some tag.toList then read text else none
    | _ => none

/-- Reads a whole number of 32 bits. -/
def readUnsigned (d : Document) : Node → Except ReadFault Nat :=
  readNumber d .unsigned "tag:yaml.org,2002:int" fun s => (Yaml.unsigned? s).filter (· < UInt32.size)

/-- Reads a signed whole number of 32 bits. -/
def readSigned (d : Document) : Node → Except ReadFault Int :=
  readNumber d .signed "tag:yaml.org,2002:int" fun s =>
    (Yaml.signed? s).filter fun n => decide (-2147483648 ≤ n) && decide (n ≤ 2147483647)

def readFloat (d : Document) : Node → Except ReadFault Float :=
  readNumber d .number "tag:yaml.org,2002:float" Yaml.float?

/-! ### Mappings -/

/-- How the value of a known key is put into a record. -/
abbrev Field (α : Type) := α → Node → Except ReadFault α

/-- Reads the entries of a mapping that begins on a line into a record. -/
def readEntries (d : Document) (line : Nat) (field? : String → Option (Field α))
    (seen : List String) (record : α) :
    List (Node × Node) → Except ReadFault α
  | [] => .ok record
  | (key, value) :: rest =>
    match readText d .key key with
    | .error e => .error e
    | .ok name =>
      match field? name with
      | none => readEntries d line field? seen record rest
      | some put =>
        if seen.contains name then .error (.repeated line name)
        else
          match put record value with
          | .error e => .error e
          | .ok record => readEntries d line field? (name :: seen) record rest

/-- Reads a node as a record, beginning with the defaults; nothing at all is an empty mapping. -/
def readMapping (d : Document) (field? : String → Option (Field α)) (record : α) (node : Node) :
    Except ReadFault α :=
  let node := d.resolve node
  match node with
  | .mapping line entries => readEntries d line field? [] record entries
  | .scalar _ .plain _ [] => .ok record
  | _ => .error (mismatch d .mapping node)

def viewportField? (d : Document) : String → Option (Field Viewport)
  | "width" =>
    some fun v node => (readUnsigned d node).map fun n => { v with width := n.toUInt32 }
  | "height" =>
    some fun v node => (readUnsigned d node).map fun n => { v with height := n.toUInt32 }
  | _ => none

def styleField? (d : Document) : String → Option (Field StyleSettings)
  | "point_size" => some fun s node => (readSigned d node).map fun n => { s with pointSize := n }
  | "background" =>
    some fun s node => (readText d .text node).map fun t => { s with background := t }
  | "point_color" =>
    some fun s node => (readText d .text node).map fun t => { s with pointColor := t }
  | "border_color" =>
    some fun s node => (readText d .text node).map fun t => { s with borderColor := t }
  | "label_color" =>
    some fun s node => (readText d .text node).map fun t => { s with labelColor := t }
  | "grid_extent" => some fun s node => (readSigned d node).map fun n => { s with gridExtent := n }
  | "axis_length" => some fun s node => (readFloat d node).map fun v => { s with axisLength := v }
  | "axis_thickness" =>
    some fun s node => (readUnsigned d node).map fun n => { s with axisThickness := n }
  | _ => none

def samplingField? (d : Document) : String → Option (Field SamplingSettings)
  | "x_min" => some fun s node => (readFloat d node).map fun v => { s with xMin := v }
  | "x_max" => some fun s node => (readFloat d node).map fun v => { s with xMax := v }
  | "y_min" => some fun s node => (readFloat d node).map fun v => { s with yMin := v }
  | "y_max" => some fun s node => (readFloat d node).map fun v => { s with yMax := v }
  | "step" => some fun s node => (readFloat d node).map fun v => { s with step := v }
  | _ => none

def field? (d : Document) : String → Option (Field Config)
  | "version" =>
    some fun c node => (readUnsigned d node).map fun n => { c with version := n.toUInt32 }
  | "viewport" => some fun c node =>
      (readMapping d (viewportField? d) .default node).map fun v => { c with viewport := v }
  | "style" => some fun c node =>
      (readMapping d (styleField? d) {} node).map fun s => { c with style := s }
  | "sampling" => some fun c node =>
      (readMapping d (samplingField? d) {} node).map fun s => { c with sampling := s }
  | _ => none

/-- Reads the settings of a document, which has to be whole and the only one. -/
def readDocument (d : Document) : Except ReadFault Config :=
  match readMapping d (field? d) {} d.root with
  | .error e => .error e
  | .ok c =>
    match d.fault with
    | some fault => .error (.text fault)
    | none => if d.followed then .error .severalDocuments else .ok c

def readSettings (text : String) : Except ReadFault Config :=
  readDocument (.ofText text.toList)

/-! ### Configurations -/

inductive Fault where
  | unreadable (fault : ReadFault)
  | unusable (fault : Unusable)
deriving Repr

def Fault.line : Fault → Nat
  | unreadable fault => fault.line
  | unusable _ => 0

def Fault.message : Fault → String
  | unreadable fault => fault.message
  | unusable fault => fault.message

/-- The configuration of a text, given how settings are read. A blank text holds the defaults. -/
def parseWith (read : String → Except ReadFault Config) (text : String) : Except Fault Config :=
  if Text.isBlankText text.toList then .ok {}
  else
    match read text with
    | .error e => .error (.unreadable e)
    | .ok c =>
      match c.check with
      | .error e => .error (.unusable e)
      | .ok _ => .ok c

def parse (text : String) : Except Fault Config := parseWith readSettings text

end PointScope.Config
