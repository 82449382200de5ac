import PointScope.Proofs.Color.Hex

/-! The written form of a color. Many texts are read as one color, and one of them is written for it: a
mark and then small digits, six if the color covers what is underneath and eight if it does not. No other
text has this form, so reading a text and writing its color gives the normal text of that color. -/
namespace PointScope.Rgba

variable {c high low : Char} {v : Nat} {digits : List Char} {text : String} {color : Rgba}

/-! ### Small digits -/

/-- A digit that is no capital, and its value. -/
def SmallDigit (c : Char) (v : Nat) : Prop := Digit c v ∧ c.isUpper = false

theorem smallDigit_iff : SmallDigit c v ↔ v < 16 ∧ c = digit v.toUInt8 := by
  constructor
  · rintro ⟨read, small⟩
    refine ⟨read.lt, ?_⟩
    cases read with
    | @decimal v bound => interval_cases v <;> rfl
    | @small v bound => interval_cases v <;> rfl
    | @capital v bound => interval_cases v <;> contradiction
  · rintro ⟨bound, rfl⟩
    by_cases decimal : v < 10
    · have written : digit v.toUInt8 = Char.ofNat ('0'.toNat + v) := by interval_cases v <;> rfl
      rw [written]
      exact ⟨.decimal decimal, by interval_cases v <;> rfl⟩
    · obtain ⟨place, rfl⟩ := Nat.exists_eq_add_of_le (Nat.not_lt.mp decimal)
      have letter : place < 6 := by omega
      have written : digit (10 + place).toUInt8 = Char.ofNat ('a'.toNat + place) := by
        interval_cases place <;> rfl
      rw [written]
      exact ⟨.small letter, by interval_cases place <;> rfl⟩

/-- Two small digits and their value. -/
def SmallPair (high low : Char) (v : UInt8) : Prop :=
  ∃ h l, SmallDigit high h ∧ SmallDigit low l ∧ v.toNat = 16 * h + l

theorem SmallPair.pair {v : UInt8} (small : SmallPair high low v) : Pair high low v := by
  obtain ⟨h, l, first, second, value⟩ := small
  exact ⟨h, l, first.1, second.1, value⟩

/-- A channel is written with the one pair of small digits that has its value. -/
theorem smallPair_iff {v : UInt8} : SmallPair high low v ↔ [high, low] = pair v := by
  have upper : (v.toNat / 16).toUInt8 = v / 16 := by
    rw [← UInt8.toNat_inj, UInt8.toNat_div]
    exact Nat.mod_eq_of_lt (by have := v.toNat_lt; omega)
  have lower : (v.toNat % 16).toUInt8 = v % 16 := by
    rw [← UInt8.toNat_inj, UInt8.toNat_mod]
    exact Nat.mod_eq_of_lt (by omega)
  rw [pair, ← upper, ← lower]
  constructor
  · rintro ⟨h, l, first, second, value⟩
    obtain ⟨-, rfl⟩ := smallDigit_iff.mp first
    obtain ⟨bound, rfl⟩ := smallDigit_iff.mp second
    rw [show v.toNat / 16 = h by omega, show v.toNat % 16 = l by omega]
  · intro written
    obtain ⟨rfl, rfl⟩ : high = digit (v.toNat / 16).toUInt8 ∧ low = digit (v.toNat % 16).toUInt8 := by
      simpa using written
    have bound := v.toNat_lt
    exact ⟨v.toNat / 16, v.toNat % 16, smallDigit_iff.mpr ⟨by omega, rfl⟩,
      smallDigit_iff.mpr ⟨by omega, rfl⟩, by omega⟩

/-! ### Written texts -/

/-- A color has the small digits of its four channels, and if it is opaque also those of three. -/
theorem smallDigits_iff : Digits SmallPair digits color ↔
    (color.isOpaque = true ∧ digits = pair color.r ++ pair color.g ++ pair color.b) ∨
      digits = pair color.r ++ pair color.g ++ pair color.b ++ pair color.a := by
  constructor
  · intro small
    cases small with
    | short red green blue =>
      refine .inl ⟨rfl, ?_⟩
      rw [← smallPair_iff.mp red, ← smallPair_iff.mp green, ← smallPair_iff.mp blue]
      rfl
    | long red green blue alpha =>
      refine .inr ?_
      rw [← smallPair_iff.mp red, ← smallPair_iff.mp green, ← smallPair_iff.mp blue,
        ← smallPair_iff.mp alpha]
      rfl
  · obtain ⟨r, g, b, a⟩ := color
    rintro (⟨solid, rfl⟩ | rfl)
    · obtain rfl : a = 255 := eq_of_beq solid
      exact .short (smallPair_iff.mpr rfl) (smallPair_iff.mpr rfl) (smallPair_iff.mpr rfl)
    · exact .long (smallPair_iff.mpr rfl) (smallPair_iff.mpr rfl) (smallPair_iff.mpr rfl)
        (smallPair_iff.mpr rfl)

/-- The written form of a color: a mark and then small digits of the color, six of them if it is opaque
and eight if it is not. -/
def Written (text : String) (color : Rgba) : Prop :=
  ∃ digits, text.toList = '#' :: digits ∧ Digits SmallPair digits color ∧
    digits.length = if color.isOpaque then 6 else 8

/-- What is written for a color has its written form, and nothing else has. -/
theorem written_iff : Written text color ↔ text = toHex color := by
  have eight : (pair color.r ++ pair color.g ++ pair color.b ++ pair color.a).length = 8 := rfl
  rw [toHex]
  constructor
  · rintro ⟨digits, spelled, small, length⟩
    rw [← String.toList_inj, spelled, String.toList_ofList]
    refine congrArg ('#' :: ·) ?_
    -- The number of digits tells which of the two spellings of the color they are.
    rcases smallDigits_iff.mp small with ⟨solid, rfl⟩ | rfl
    · rw [if_pos solid, List.append_nil]
    · have faint : ¬color.isOpaque = true := by
        intro solid
        rw [eight, if_pos solid] at length
        contradiction
      rw [if_neg faint]
  · rintro rfl
    refine ⟨_, String.toList_ofList, smallDigits_iff.mpr ?_, ?_⟩
    · split_ifs with solid
      · exact .inl ⟨solid, List.append_nil _⟩
      · exact .inr rfl
    · split_ifs <;> rfl

theorem Digit.not_isBlank (digit : Digit c v) : Text.isBlank c = false := by
  cases digit with
  | @decimal v bound => interval_cases v <;> rfl
  | @small v bound => interval_cases v <;> rfl
  | @capital v bound => interval_cases v <;> rfl

theorem Written.documented (written : Written text color) : Documented text color := by
  obtain ⟨digits, spelled, small, -⟩ := written
  have paired : Digits Pair digits color := small.mono fun _ _ _ _ pair => pair.pair
  refine ⟨digits, .inr ?_, paired⟩
  rw [spelled]
  refine Text.stripEnds_of_forall fun c mem => ?_
  rcases List.mem_cons.mp mem with rfl | mem
  · rfl
  · obtain ⟨v, digit⟩ := paired.exists_digit c mem
    exact digit.not_isBlank

theorem ofHex?_toHex (color : Rgba) : ofHex? (toHex color) = some color :=
  ofHex?_eq_some_iff.mpr (written_iff.mpr rfl).documented.readable

/-! ### The normal text -/

/-- What is written for the color that a text is read as. -/
def normalized? (text : String) : Option String := (ofHex? text).map toHex

theorem normalized?_toHex (color : Rgba) : normalized? (toHex color) = some (toHex color) := by
  rw [normalized?, ofHex?_toHex, Option.map_some]

/-- The texts that writing does not change are the written ones. -/
theorem normalized?_eq_self_iff : normalized? text = some text ↔ ∃ color, Written text color := by
  constructor
  · intro kept
    obtain ⟨color, -, same⟩ := Option.map_eq_some_iff.mp kept
    exact ⟨color, written_iff.mpr same.symm⟩
  · rintro ⟨color, written⟩
    rw [written_iff.mp written]
    exact normalized?_toHex color

/-- Every color is read from what is written for it, so no two colors are written alike. Whatever text a
color was read from, what is then written for it is the one text of its written form, is read as the same
color and is written again for it. No other texts are their own normal text. -/
theorem toHex_normalizes :
    (∀ color, ofHex? (toHex color) = some color) ∧ Function.Injective toHex ∧
      (∀ text color, ofHex? text = some color →
        normalized? text = some (toHex color) ∧
        normalized? (toHex color) = some (toHex color) ∧
        (∀ text', Written text' color ↔ text' = toHex color) ∧
        ofHex? (toHex color) = some color) ∧
      ∀ text, normalized? text = some text ↔ ∃ color, Written text color := by
  refine ⟨ofHex?_toHex, ?_, ?_, ?_⟩
  · intro color color' same
    have read := ofHex?_toHex color
    rw [same, ofHex?_toHex] at read
    exact (Option.some.inj read).symm
  · intro text color read
    refine ⟨?_, normalized?_toHex color, fun text' => written_iff, ofHex?_toHex color⟩
    rw [normalized?, read, Option.map_some]
  · intro text
    exact normalized?_eq_self_iff

/-- Blanks, a second mark and capitals are gone from the normal text. -/
theorem toHex_normalizes_capitals :
    ofHex? "\t##1E90Ff7F " = some ⟨30, 144, 255, 127⟩ ∧
      normalized? "\t##1E90Ff7F " = some "#1e90ff7f" ∧
      normalized? "#1e90ff7f" = some "#1e90ff7f" ∧ Written "#1e90ff7f" ⟨30, 144, 255, 127⟩ := by
  have read : ofHex? "\t##1E90Ff7F " = some ⟨30, 144, 255, 127⟩ := by decide +kernel
  have shown : toHex ⟨30, 144, 255, 127⟩ = "#1e90ff7f" := by decide +kernel
  obtain ⟨-, -, normal, -⟩ := toHex_normalizes
  obtain ⟨normalized, fixed, written, -⟩ := normal _ _ read
  rw [shown] at normalized fixed
  exact ⟨read, normalized, fixed, (written _).mpr shown.symm⟩

end PointScope.Rgba
