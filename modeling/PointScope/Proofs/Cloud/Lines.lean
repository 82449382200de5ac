import PointScope.Cloud.Csv
import Mathlib.Data.List.DropRight

/-! Lines of text as bytes. A character of one byte is found in the bytes of a text only where it
stands in the text, so a text is cut into lines at its line feeds, and every line is decoded to the
characters it was written with. -/
namespace PointScope.Csv

/-! ### Bytes of a text -/

/-- The bytes of a text. -/
def encode (text : List Char) : List UInt8 := text.flatMap String.utf8EncodeChar

theorem encode_append (text text' : List Char) : encode (text ++ text') = encode text ++ encode text' :=
  List.flatMap_append

theorem utf8_eq_encode (text : String) : text.toUTF8.data.toList = encode text.toList := by
  have bytes : text.toUTF8 = text.toList.utf8Encode := String.utf8Encode_toList.symm
  rw [bytes, List.utf8Encode, List.toList_data_toByteArray, encode]

/-- Bytes are decoded to the text they encode. -/
theorem decode?_encode (text : List Char) : decode? (encode text) = some text := by
  have bytes : (⟨(encode text).toArray⟩ : ByteArray) = (String.ofList text).toUTF8 := by
    apply ByteArray.ext
    rw [← Array.toList_inj, utf8_eq_encode, String.toList_ofList]
  have valid : (String.ofList text).toUTF8.IsValidUTF8 := (String.ofList text).isValidUTF8
  rw [decode?, bytes, String.fromUTF8?, dif_pos valid]
  exact congrArg some String.toList_ofList

theorem encode_of_decode? {line : List UInt8} {text : List Char} (decoded : decode? line = some text) :
    encode text = line := by
  simp only [decode?, String.fromUTF8?, Option.map_eq_some_iff, Option.dite_none_right_eq_some,
    Option.some.injEq] at decoded
  obtain ⟨string, ⟨valid, rfl⟩, rfl⟩ := decoded
  rw [← utf8_eq_encode]
  rfl

/-- A line is text if it is what some text is encoded to. -/
theorem decode?_eq_some_iff {line : List UInt8} {text : List Char} :
    decode? line = some text ↔ encode text = line := by
  constructor
  · exact encode_of_decode?
  · rintro rfl
    exact decode?_encode text

/-- A byte below 128 is the whole of a character: every byte of a longer one is above. -/
theorem toNat_of_mem_utf8EncodeChar {c : Char} {b : UInt8} (mem : b ∈ String.utf8EncodeChar c)
    (ascii : b.toNat < 128) : c.toNat = b.toNat := by
  have above : ∀ n, 128 ≤ n → n < 256 → b ≠ UInt8.ofNat n := by
    rintro n low high rfl
    rw [UInt8.toNat_ofNat', Nat.mod_eq_of_lt high] at ascii
    omega
  unfold String.utf8EncodeChar at mem
  dsimp only at mem
  split at mem
  · obtain rfl := List.mem_singleton.mp mem
    change c.val.toNat = _
    rw [UInt8.toNat_ofNat', Nat.mod_eq_of_lt (by omega)]
  · exfalso
    split at mem
    · simp only [List.mem_cons, List.not_mem_nil, or_false] at mem
      rcases mem with eq | eq <;> exact above _ (by omega) (by omega) eq
    · split at mem
      · simp only [List.mem_cons, List.not_mem_nil, or_false] at mem
        rcases mem with eq | eq | eq <;> exact above _ (by omega) (by omega) eq
      · simp only [List.mem_cons, List.not_mem_nil, or_false] at mem
        rcases mem with eq | eq | eq | eq <;> exact above _ (by omega) (by omega) eq

theorem exists_of_mem_encode {text : List Char} {b : UInt8} (mem : b ∈ encode text)
    (ascii : b.toNat < 128) : ∃ c ∈ text, c.toNat = b.toNat := by
  obtain ⟨c, here, mem⟩ := List.mem_flatMap.mp mem
  exact ⟨c, here, toNat_of_mem_utf8EncodeChar mem ascii⟩

/-! ### Lines -/

variable {line : List UInt8}

theorem dropReturn_of_not_mem (no_return : 13 ∉ line) : dropReturn line = line := by
  unfold dropReturn
  split
  · rename_i rest reversed
    refine absurd ?_ no_return
    rw [← List.mem_reverse, reversed]
    exact List.mem_cons_self
  · rfl

/-- A line ends at the first line feed. -/
theorem lines_append (no_feed : 10 ∉ line) (rest : List UInt8) :
    lines (line ++ 10 :: rest) = dropReturn line :: lines rest := by
  have other : ∀ b ∈ line, (b != 10) = true := by
    rintro b mem
    rw [bne_iff_ne]
    rintro rfl
    exact no_feed mem
  have dropped : (line ++ 10 :: rest).dropWhile (· != 10) = 10 :: rest := by
    rw [List.dropWhile_append_of_pos other]
    rfl
  have taken : (line ++ 10 :: rest).takeWhile (· != 10) = line := by
    rw [List.takeWhile_append_of_pos other]
    exact List.append_nil line
  rw [lines]
  split
  · rename_i nothing
    rw [dropped] at nothing
    contradiction
  · rename_i feed behind cut
    rw [dropped] at cut
    cases cut
    rw [taken]

theorem lines_of_not_mem (no_feed : 10 ∉ line) : lines line = if line = [] then [] else [line] := by
  have dropped : line.dropWhile (· != 10) = [] := by
    rw [List.dropWhile_eq_nil_iff]
    intro b mem
    rw [bne_iff_ne]
    rintro rfl
    exact no_feed mem
  rw [lines]
  split
  · simp only [List.isEmpty_iff]
  · rename_i cut
    rw [dropped] at cut
    contradiction

theorem lines_nil : lines [] = [] := lines_of_not_mem List.not_mem_nil

/-- The pieces of a byte sequence between its line feeds. What a line feed ends loses one carriage
return; what comes after the last line feed is a line if it is not empty. -/
def physicalLines (bytes : List UInt8) : List (List UInt8) :=
  let pieces := bytes.splitOn 10
  pieces.dropLast.map dropReturn ++ pieces.getLast?.toList.filter (· ≠ [])

theorem lines_eq_physicalLines (bytes : List UInt8) : lines bytes = physicalLines bytes := by
  induction size : bytes.length using Nat.strongRecOn generalizing bytes with
  | ind n ih =>
    by_cases feed : 10 ∈ bytes
    · obtain ⟨line, rest, rfl, no_feed⟩ := List.eq_append_cons_of_mem feed
      have shorter : rest.length < n := by
        rw [← size, List.length_append, List.length_cons]
        omega
      rw [lines_append no_feed, ih _ shorter rest rfl, physicalLines, physicalLines,
        List.splitOn_append_cons_self_of_not_mem no_feed]
      have pieces := List.splitOn_ne_nil 10 rest
      rw [List.dropLast_cons_of_ne_nil pieces, List.getLast?_cons_of_ne_nil pieces]
      rfl
    · rw [lines_of_not_mem feed, physicalLines, List.splitOn_eq_singleton feed]
      by_cases empty : bytes = []
      · rw [if_pos empty, empty]
        rfl
      · rw [if_neg empty]
        simp [empty]

end PointScope.Csv
