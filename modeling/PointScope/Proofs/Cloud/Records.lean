import PointScope.Proofs.Cloud.Lines
import PointScope.Proofs.Decimal.Numeral
import Mathlib.Logic.Relator

/-! What a line of text says: the point it gives, or the one fault that is found in it. Fields are told
from left to right, and a line is judged by its first three only. -/
namespace PointScope.Csv

variable {text : List Char} {p : Point} {fault : Fault}

/-! ### Fields -/

theorem splitCommas_eq_splitOn (line : List Char) : fields.splitCommas line = line.splitOn ',' := by
  induction line with
  | nil => rfl
  | cons c line ih =>
    rw [fields.splitCommas, List.splitOn_cons_eq_if_modifyHead, ih]
    split
    · rfl
    · cases split : line.splitOn ',' with
      | nil => exact absurd split (List.splitOn_ne_nil ',' line)
      | cons first others => rfl

/-- A field without the blanks around it and then without the quotes around it. -/
def bare (field : List Char) : List Char := Text.stripEnds (· == '"') (Text.trim field)

theorem fields_eq (line : List Char) : fields line = (line.splitOn ',').map bare := by
  rw [fields, splitCommas_eq_splitOn]
  rfl

/-! ### Verdicts -/

/-- The text is that of a point: its first three fields are numbers, the coordinates. -/
def Tells (text : List Char) (p : Point) : Prop :=
  ∃ fx fy fz more, text.splitOn ',' = fx :: fy :: fz :: more ∧
    Decimal.read? (bare fx) = some p.x ∧ Decimal.read? (bare fy) = some p.y ∧
    Decimal.read? (bare fz) = some p.z

/-- What is wrong with a text that is not that of a point: it has too few fields, or the first of its
coordinates that is not a number. -/
inductive Wrong (text : List Char) : Fault → Prop where
  | few : (text.splitOn ',').length < 3 → Wrong text (.tooFewFields (text.splitOn ',').length)
  | x {fx fy fz : List Char} {more : List (List Char)} :
      text.splitOn ',' = fx :: fy :: fz :: more → ¬Decimal.IsNumeral (bare fx) →
      Wrong text (.coordinate .x (String.ofList (bare fx)))
  | y {fx fy fz : List Char} {more : List (List Char)} :
      text.splitOn ',' = fx :: fy :: fz :: more → Decimal.IsNumeral (bare fx) →
      ¬Decimal.IsNumeral (bare fy) → Wrong text (.coordinate .y (String.ofList (bare fy)))
  | z {fx fy fz : List Char} {more : List (List Char)} :
      text.splitOn ',' = fx :: fy :: fz :: more → Decimal.IsNumeral (bare fx) →
      Decimal.IsNumeral (bare fy) → ¬Decimal.IsNumeral (bare fz) →
      Wrong text (.coordinate .z (String.ofList (bare fz)))

theorem coordinate_of_read? {column : Column} {field : List Char} {v : Float}
    (read : Decimal.read? field = some v) : coordinate column field = .ok v := by
  rw [coordinate, read]

theorem coordinate_of_not_numeral {field : List Char} (column : Column)
    (wrong : ¬Decimal.IsNumeral field) :
    coordinate column field = .error (.coordinate column (String.ofList field)) := by
  rw [coordinate]
  split
  · rename_i v read
    exact absurd (Decimal.exists_read?_iff.mp ⟨v, read⟩) wrong
  · rfl

theorem coordinate_of_numeral {field : List Char} (column : Column)
    (numeral : Decimal.IsNumeral field) :
    ∃ v, coordinate column field = .ok v := by
  obtain ⟨v, read⟩ := Decimal.exists_read?_iff.mpr numeral
  exact ⟨v, coordinate_of_read? read⟩

theorem record_of_fields {fx fy fz : List Char} {more : List (List Char)}
    (split : text.splitOn ',' = fx :: fy :: fz :: more) :
    record text = do
      let x ← coordinate .x (bare fx)
      let y ← coordinate .y (bare fy)
      let z ← coordinate .z (bare fz)
      return ⟨x, y, z⟩ := by
  rw [record, fields_eq, split]
  rfl

theorem record_of_few (few : (text.splitOn ',').length < 3) :
    record text = .error (.tooFewFields (text.splitOn ',').length) := by
  rw [record, fields_eq]
  split
  · rename_i fx fy fz more split
    have long := congrArg List.length split
    rw [List.length_map, List.length_cons, List.length_cons, List.length_cons] at long
    omega
  · rw [List.length_map]

theorem record_of_tells (tells : Tells text p) : record text = .ok p := by
  obtain ⟨fx, fy, fz, more, split, x, y, z⟩ := tells
  rw [record_of_fields split, coordinate_of_read? x, coordinate_of_read? y, coordinate_of_read? z]
  rfl

theorem record_of_wrong (wrong : Wrong text fault) : record text = .error fault := by
  cases wrong with
  | few short => exact record_of_few short
  | x split wrong =>
    rw [record_of_fields split, coordinate_of_not_numeral .x wrong]
    rfl
  | y split x wrong =>
    obtain ⟨vx, first⟩ := coordinate_of_numeral .x x
    rw [record_of_fields split, first, coordinate_of_not_numeral .y wrong]
    rfl
  | z split x y wrong =>
    obtain ⟨vx, first⟩ := coordinate_of_numeral .x x
    obtain ⟨vy, second⟩ := coordinate_of_numeral .y y
    rw [record_of_fields split, first, second, coordinate_of_not_numeral .z wrong]
    rfl

/-- Every text is that of a point or has a fault. -/
theorem tells_or_wrong (text : List Char) : (∃ p, Tells text p) ∨ ∃ fault, Wrong text fault := by
  match split : text.splitOn ',' with
  | fx :: fy :: fz :: more =>
    by_cases x : Decimal.IsNumeral (bare fx)
    · by_cases y : Decimal.IsNumeral (bare fy)
      · by_cases z : Decimal.IsNumeral (bare fz)
        · obtain ⟨vx, x⟩ := Decimal.exists_read?_iff.mpr x
          obtain ⟨vy, y⟩ := Decimal.exists_read?_iff.mpr y
          obtain ⟨vz, z⟩ := Decimal.exists_read?_iff.mpr z
          exact .inl ⟨⟨vx, vy, vz⟩, fx, fy, fz, more, split, x, y, z⟩
        · exact .inr ⟨_, .z split x y z⟩
      · exact .inr ⟨_, .y split x y⟩
    · exact .inr ⟨_, .x split x⟩
  | [] | [_] | [_, _] => exact .inr ⟨_, .few (by rw [split]; simp)⟩

/-- A text is that of one point. -/
theorem rightUnique_tells : Relator.RightUnique Tells := by
  intro text p q tells tells'
  exact Except.ok.inj ((record_of_tells tells).symm.trans (record_of_tells tells'))

end PointScope.Csv
