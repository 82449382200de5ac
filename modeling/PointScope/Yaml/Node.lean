import PointScope.Yaml.Scalar

/-!
What a YAML document says: scalars, sequences and mappings, each with the line it begins on. A
document that breaks off at a fault is kept up to there, since what stands in front of the fault
may already be wrong for its reader.
-/

namespace PointScope.Yaml

inductive Node where
  | scalar (line : Nat) (style : ScalarStyle) (tag : Option (List Char)) (text : List Char)
  | sequence (line : Nat) (items : List Node)
  /-- Where the text breaks off within a mapping, its last key is missing. -/
  | mapping (line : Nat) (entries : List (Node × Node))
  /-- Stands for the node that an anchor of this number is at. -/
  | alias (anchor : Nat)
  /-- Stands where the text breaks off. -/
  | missing
deriving Inhabited

/-- The scalar that nothing was written for. -/
def Node.empty (line : Nat) : Node := .scalar line .plain none []

structure Document where
  root : Node
  /-- Anchors with their nodes; of two with one number the last one counts. -/
  anchors : List (Nat × Node)
  /-- Where the text breaks off. -/
  fault : Option Fault
  /-- Whether anything but the end of the text follows. -/
  followed : Bool

/-- The node itself, or the one that an alias stands for. -/
def Document.resolve (d : Document) : Node → Node
  | .alias anchor => (d.anchors.reverse.lookup anchor).getD .missing
  | node => node

end PointScope.Yaml
