import PointScope.Proofs.Cloud.Reading
import PointScope.Proofs.Decimal.RoundTrip

/-! Saving a cloud and loading it loses nothing. The text of a cloud is cut into its header and one
line for each point, a line into the three texts of its coordinates, and each of these is read as
the number it was written from; so it is the text of the point it was written for. -/
namespace PointScope.Csv

open Decimal (shortestChars)

/-! ### Fields -/

/-- Nothing is stripped from the text of a number. -/
theorem bare_shortestChars (v : Float) : bare (shortestChars v) = shortestChars v := by
  have codes := Decimal.toNat_of_mem_shortestChars (v := v)
  have trimmed : Text.trim (shortestChars v) = shortestChars v := by
    refine Text.stripEnds_of_forall fun c mem => ?_
    obtain ⟨low, high⟩ := codes c mem
    exact Text.not_isBlank (by omega) (by omega)
  rw [bare, trimmed]
  refine Text.stripEnds_of_forall fun c mem => ?_
  rw [beq_eq_false_iff_ne]
  rintro rfl
  exact absurd (codes '"' mem).1 (by decide)

theorem comma_not_mem_shortestChars (v : Float) : ',' ∉ shortestChars v :=
  fun mem => absurd (Decimal.toNat_of_mem_shortestChars ',' mem).1 (by decide)

/-! ### Records -/

/-- The characters of a line without its end. -/
def recordChars (p : Point) : List Char :=
  shortestChars p.x ++ ',' :: (shortestChars p.y ++ ',' :: shortestChars p.z)

theorem toList_line (p : Point) : (line p).toList = recordChars p ++ ['\n'] := by
  simp [line, recordChars, Decimal.shortest, toString]

theorem splitOn_recordChars (p : Point) :
    (recordChars p).splitOn ',' = [shortestChars p.x, shortestChars p.y, shortestChars p.z] := by
  rw [recordChars, List.splitOn_append_cons_self_of_not_mem (comma_not_mem_shortestChars p.x),
    List.splitOn_append_cons_self_of_not_mem (comma_not_mem_shortestChars p.y),
    List.splitOn_eq_singleton (comma_not_mem_shortestChars p.z)]

theorem tells_recordChars (p : Point) : Tells (recordChars p) p := by
  have read : ∀ v, Decimal.read? (bare (shortestChars v)) = some v := by
    intro v
    rw [bare_shortestChars, Decimal.read?_shortestChars]
  exact ⟨_, _, _, [], splitOn_recordChars p, read p.x, read p.y, read p.z⟩

theorem toNat_of_mem_recordChars {p : Point} :
    ∀ c ∈ recordChars p, 44 ≤ c.toNat ∧ c.toNat ≤ 122 := by
  have number : ∀ v, ∀ c ∈ shortestChars v, 44 ≤ c.toNat ∧ c.toNat ≤ 122 := fun v c mem => by
    obtain ⟨low, high⟩ := Decimal.toNat_of_mem_shortestChars c mem
    omega
  have comma : 44 ≤ ','.toNat ∧ ','.toNat ≤ 122 := by decide
  intro c mem
  rw [recordChars, List.mem_append, List.mem_cons, List.mem_append, List.mem_cons] at mem
  rcases mem with x | rfl | y | rfl | z
  · exact number p.x c x
  · exact comma
  · exact number p.y c y
  · exact comma
  · exact number p.z c z

/-- A line of a cloud has no character that ends lines, as a byte. -/
theorem toNat_of_mem_encode_recordChars {p : Point} {b : UInt8} (mem : b ∈ encode (recordChars p)) :
    44 ≤ b.toNat := by
  by_contra low
  obtain ⟨c, here, code⟩ := exists_of_mem_encode mem (by omega)
  have := (toNat_of_mem_recordChars c here).1
  omega

theorem isBlankText_recordChars (p : Point) : Text.isBlankText (recordChars p) = false := by
  have comma : ',' ∈ recordChars p := List.mem_append_right _ List.mem_cons_self
  rw [Text.isBlankText, List.all_eq_false]
  exact ⟨',', comma, by decide⟩

/-! ### Clouds -/

theorem toList_write (cloud : Cloud) :
    (write cloud).toList = header.toList ++ '\n' :: cloud.flatMap fun p => recordChars p ++ ['\n'] := by
  have prefixed : ∀ text : String, (cloud.foldl (fun text p => text ++ line p) text).toList =
      text.toList ++ cloud.flatMap fun p => recordChars p ++ ['\n'] := by
    induction cloud with
    | nil =>
      intro text
      exact (List.append_nil _).symm
    | cons p cloud ih =>
      intro text
      rw [List.foldl_cons, ih, String.toList_append, toList_line, List.flatMap_cons,
        List.append_assoc]
  rw [write, prefixed, String.toList_append, List.append_assoc]
  rfl

theorem lines_encode_records (cloud : Cloud) :
    lines (encode (cloud.flatMap fun p => recordChars p ++ ['\n'])) =
      cloud.map fun p => encode (recordChars p) := by
  induction cloud with
  | nil => exact lines_nil
  | cons p cloud ih =>
    have feed : 10 ∉ encode (recordChars p) := fun mem =>
      absurd (toNat_of_mem_encode_recordChars mem) (by decide)
    have no_return : 13 ∉ encode (recordChars p) := fun mem =>
      absurd (toNat_of_mem_encode_recordChars mem) (by decide)
    rw [List.flatMap_cons, encode_append, encode_append, List.append_assoc]
    change lines (encode (recordChars p) ++ 10 :: encode _) = _
    rw [lines_append feed, dropReturn_of_not_mem no_return, ih]
    rfl

/-- The text of a cloud is its header and a line for each of its points. -/
theorem lines_write (cloud : Cloud) :
    lines (write cloud).toUTF8.data.toList =
      encode header.toList :: cloud.map fun p => encode (recordChars p) := by
  have feed : 10 ∉ encode header.toList := by decide
  have no_return : 13 ∉ encode header.toList := by decide
  rw [utf8_eq_encode, toList_write, encode_append]
  change lines (encode header.toList ++ 10 :: encode _) = _
  rw [lines_append feed, dropReturn_of_not_mem no_return, lines_encode_records]

theorem filled_records (cloud : Cloud) :
    filled (cloud.map fun p => encode (recordChars p)) = cloud.map recordChars := by
  have shown : ∀ p : Point, filled? (encode (recordChars p)) = some (recordChars p) := by
    intro p
    exact filled?_eq_some_iff.mpr ⟨rfl, isBlankText_recordChars p⟩
  rw [filled, List.filterMap_map, ← List.filterMap_eq_map]
  exact congrArg (List.filterMap · cloud) (funext shown)

theorem filled_written (cloud : Cloud) :
    filled (encode header.toList :: cloud.map fun p => encode (recordChars p)) =
      header.toList :: cloud.map recordChars := by
  have shown : filled? (encode header.toList) = some header.toList :=
    filled?_eq_some_iff.mpr ⟨rfl, by decide⟩
  rw [filled, List.filterMap_cons_some shown, ← filled_records]
  rfl

theorem readText_write (cloud : Cloud) : readText (write cloud) = .ok cloud := by
  rw [readText, read_eq_ok_iff, ← lines_eq_physicalLines, lines_write, filled_written]
  refine ⟨?_, List.cons_ne_nil _ _, ?_⟩
  · intro line mem
    rcases List.mem_cons.mp mem with rfl | record
    · exact ⟨_, rfl⟩
    · obtain ⟨p, -, rfl⟩ := List.mem_map.mp record
      exact ⟨_, rfl⟩
  · rw [List.tail_cons, List.forall₂_map_left_iff, List.forall₂_same]
    exact fun p _ => tells_recordChars p

/-- The bits of the coordinates of a point. -/
def bits (p : Point) : Vec3 UInt64 := ⟨p.x.toBits, p.y.toBits, p.z.toBits⟩

/-- A saved cloud can be loaded, and what is loaded is the cloud: the same points in the same order,
each coordinate with the same bits. That holds of zeros with a sign, subnormal numbers and infinities
as of any other, and of the one number that is not a number. Saving what was loaded gives the same
text. -/
theorem load_saved (cloud : Cloud) :
    readText (write cloud) = .ok cloud ∧
      ∀ again, readText (write cloud) = .ok again →
        again.length = cloud.length ∧ again.map bits = cloud.map bits ∧
          write again = write cloud := by
  have loaded := readText_write cloud
  refine ⟨loaded, fun again read => ?_⟩
  rw [loaded] at read
  cases read
  exact ⟨rfl, rfl, rfl⟩

end PointScope.Csv
