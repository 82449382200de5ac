import PointScope.Cloud.Basic
import PointScope.Decimal.Reader
import PointScope.Decimal.Shortest
import PointScope.Text.Blank

/-!
Clouds as comma separated text. The first line that is not blank is a header, whatever it holds;
every other line that is not blank is one point, given by its first three fields. Reading stops at
the first line that is wrong. Writing uses the shortest text of each coordinate, so that reading
gives the number back.
-/

namespace PointScope.Csv

inductive Column where
  | x
  | y
  | z
deriving DecidableEq, Repr

def Column.name : Column → String
  | x => "X"
  | y => "Y"
  | z => "Z"

/-- Why a line, or the whole text, is wrong. -/
inductive Fault where
  | missingHeader
  | tooFewFields (found : Nat)
  | coordinate (column : Column) (field : String)
deriving DecidableEq, Repr

def Fault.message : Fault → String
  | missingHeader => "missing header row"
  | tooFewFields found => s!"need at least 3 columns for X, Y, Z coordinates, found {found}"
  | coordinate column field => s!"invalid {column.name} coordinate '{field}'"

/-- Why reading fails. Lines are counted from one. -/
inductive Error where
  /-- A line that is not text. -/
  | notText
  | format (line : Nat) (fault : Fault)
deriving DecidableEq, Repr

/-! ### Lines -/

/-- Drops one carriage return at the end of a line. -/
def dropReturn (line : List UInt8) : List UInt8 :=
  match line.reverse with
  | 13 :: rest => rest.reverse
  | _ => line

/-- The lines of a byte sequence. A line ends at a line feed, which it loses together with one
carriage return before it; a last line without one is kept as it is. -/
def lines (bytes : List UInt8) : List (List UInt8) :=
  match _cut : bytes.dropWhile (· != 10) with
  | [] => if bytes.isEmpty then [] else [bytes]
  | _ :: rest => dropReturn (bytes.takeWhile (· != 10)) :: lines rest
termination_by bytes.length
decreasing_by
  have := (List.dropWhile_suffix (p := (· != 10)) (l := bytes)).length_le
  rw [_cut] at this
  simp only [List.length_cons] at this
  omega

/-- The text of a line, if its bytes are one in UTF-8. -/
def decode? (line : List UInt8) : Option (List Char) :=
  (String.fromUTF8? ⟨line.toArray⟩).map String.toList

/-! ### Records -/

/-- The fields of a line: what stands between commas, without the blanks at both ends and then
without the quotes at both ends. -/
def fields (line : List Char) : List (List Char) :=
  (splitCommas line).map fun field => Text.stripEnds (· == '"') (Text.trim field)
where
  splitCommas : List Char → List (List Char)
    | [] => [[]]
    | c :: rest =>
      if c == ',' then [] :: splitCommas rest
      else
        match splitCommas rest with
        | first :: others => (c :: first) :: others
        | [] => [[c]]

def coordinate (column : Column) (field : List Char) : Except Fault Float :=
  match Decimal.read? field with
  | some v => .ok v
  | none => .error (.coordinate column (String.ofList field))

/-- The point on a line; the columns are judged from left to right. -/
def record (line : List Char) : Except Fault Point :=
  match fields line with
  | fx :: fy :: fz :: _ => do
    let x ← coordinate .x fx
    let y ← coordinate .y fy
    let z ← coordinate .z fz
    return ⟨x, y, z⟩
  | short => .error (.tooFewFields short.length)

/-! ### Reading -/

structure State where
  sawHeader : Bool := false
  /-- The points read, the last one first. -/
  points : List Point := []

def State.step (s : State) (number : Nat) (line : List UInt8) : Except Error State :=
  match decode? line with
  | none => .error .notText
  | some text =>
    if Text.isBlankText text then .ok s
    else if !s.sawHeader then .ok { s with sawHeader := true }
    else
      match record text with
      | .error fault => .error (.format number fault)
      | .ok p => .ok { s with points := p :: s.points }

def State.run (s : State) (number : Nat) : List (List UInt8) → Except Error State
  | [] => .ok s
  | line :: rest =>
    match s.step number line with
    | .error e => .error e
    | .ok s => s.run (number + 1) rest

def read (bytes : List UInt8) : Except Error Cloud :=
  match State.run {} 1 (lines bytes) with
  | .error e => .error e
  | .ok s => if s.sawHeader then .ok s.points.reverse else .error (.format 1 .missingHeader)

def readText (text : String) : Except Error Cloud := read text.toUTF8.data.toList

/-! ### Writing -/

def header : String := "X,Y,Z"

def line (p : Point) : String :=
  s!"{Decimal.shortest p.x},{Decimal.shortest p.y},{Decimal.shortest p.z}\n"

def write (cloud : Cloud) : String := cloud.foldl (fun text p => text ++ line p) (header ++ "\n")

end PointScope.Csv
