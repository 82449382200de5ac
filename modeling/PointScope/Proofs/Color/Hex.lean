import PointScope.Color.Hex
import Mathlib.Tactic.IntervalCases
import Mathlib.Data.List.TakeWhile

/-! The texts that are read as a color. The documented ones have at most one mark and then six or eight
digits. The reader takes more: any number of marks, and a plus sign in place of the first digit of a
channel. Where a text has neither of these it is read exactly as documented. -/
namespace PointScope.Rgba

variable {c high low : Char} {s : List Char} {text : String} {color : Rgba}

/-! ### Digits -/

/-- A hexadecimal digit of either case and its value. -/
inductive Digit : Char → Nat → Prop where
  | decimal {v : Nat} (bound : v < 10) : Digit (Char.ofNat ('0'.toNat + v)) v
  | small {v : Nat} (bound : v < 6) : Digit (Char.ofNat ('a'.toNat + v)) (10 + v)
  | capital {v : Nat} (bound : v < 6) : Digit (Char.ofNat ('A'.toNat + v)) (10 + v)

theorem Digit.lt {v : Nat} (digit : Digit c v) : v < 16 := by
  cases digit with
  | decimal bound => omega
  | small bound => omega
  | capital bound => omega

theorem Digit.read {v : Nat} (digit : Digit c v) : digitValue? c = some v.toUInt8 := by
  cases digit with
  | @decimal v bound => interval_cases v <;> rfl
  | @small v bound => interval_cases v <;> rfl
  | @capital v bound => interval_cases v <;> rfl

theorem digit_of_digitValue? {v : UInt8} (read : digitValue? c = some v) : Digit c v.toNat := by
  -- A digit is told by its distance from the first one of its kind.
  have placed : ∀ {first place : Nat}, c.toNat = first + place → c = Char.ofNat (first + place) := by
    intro first place code
    rw [← code, Char.ofNat_toNat]
  have value : ∀ {n : Nat}, n < 16 → n.toUInt8.toNat = n := by
    intro n small
    exact Nat.mod_eq_of_lt (by omega)
  simp only [digitValue?] at read
  split_ifs at read with decimal small capital
  · obtain ⟨place, code⟩ := Nat.exists_eq_add_of_le decimal.1
    cases read
    rw [value (by omega), show c.toNat - 48 = place by omega, placed code]
    exact .decimal (by omega)
  · obtain ⟨place, code⟩ := Nat.exists_eq_add_of_le small.1
    cases read
    rw [value (by omega), show c.toNat - 87 = 10 + place by omega, placed code]
    exact .small (by omega)
  · obtain ⟨place, code⟩ := Nat.exists_eq_add_of_le capital.1
    cases read
    rw [value (by omega), show c.toNat - 55 = 10 + place by omega, placed code]
    exact .capital (by omega)

theorem digitValue?_eq_some_iff {v : UInt8} : digitValue? c = some v ↔ Digit c v.toNat := by
  constructor
  · exact digit_of_digitValue?
  · intro digit
    rw [digit.read]
    exact congrArg some UInt8.ofNat_toNat

theorem not_digit {v : Nat} (refused : digitValue? c = none) : ¬Digit c v := by
  intro digit
  rw [digit.read] at refused
  contradiction

/-! ### Channels -/

/-- Two digits and their value. -/
def Pair (high low : Char) (v : UInt8) : Prop :=
  ∃ h l, Digit high h ∧ Digit low l ∧ v.toNat = 16 * h + l

/-- What is read as a channel. -/
def LoosePair (high low : Char) (v : UInt8) : Prop :=
  Pair high low v ∨ high = '+' ∧ Digit low v.toNat

theorem channel?_eq_some_iff {v : UInt8} : channel? high low = some v ↔ LoosePair high low v := by
  rw [channel?]
  split
  · rename_i plus
    subst plus
    rw [digitValue?_eq_some_iff]
    constructor
    · intro digit
      exact .inr ⟨rfl, digit⟩
    · rintro (⟨h, l, plus, -, -⟩ | ⟨-, digit⟩)
      · exact absurd plus (not_digit rfl)
      · exact digit
  · rename_i not_plus
    constructor
    · intro read
      split at read
      · rename_i h l first second
        rw [digitValue?_eq_some_iff] at first second
        cases read
        refine .inl ⟨h.toNat, l.toNat, first, second, ?_⟩
        have := first.lt
        have := second.lt
        rw [UInt8.toNat_add, UInt8.toNat_mul]
        change (16 * h.toNat % 256 + l.toNat) % 256 = _
        omega
      · contradiction
    · rintro (⟨h, l, first, second, value⟩ | ⟨plus, -⟩)
      · rw [first.read, second.read]
        refine congrArg some ?_
        rw [← UInt8.toNat_inj, value, UInt8.toNat_add, UInt8.toNat_mul]
        have := first.lt
        have := second.lt
        change (16 * (h % 256) % 256 + l % 256) % 256 = _
        omega
      · exact absurd plus not_plus

/-! ### Colors -/

/-- The digits of a color, given what is a channel. Without a fourth channel the color is opaque. -/
inductive Digits (Channel : Char → Char → UInt8 → Prop) : List Char → Rgba → Prop where
  | short {r₁ r₂ g₁ g₂ b₁ b₂ : Char} {r g b : UInt8} :
      Channel r₁ r₂ r → Channel g₁ g₂ g → Channel b₁ b₂ b →
      Digits Channel [r₁, r₂, g₁, g₂, b₁, b₂] ⟨r, g, b, 255⟩
  | long {r₁ r₂ g₁ g₂ b₁ b₂ a₁ a₂ : Char} {r g b a : UInt8} :
      Channel r₁ r₂ r → Channel g₁ g₂ g → Channel b₁ b₂ b → Channel a₁ a₂ a →
      Digits Channel [r₁, r₂, g₁, g₂, b₁, b₂, a₁, a₂] ⟨r, g, b, a⟩

theorem ofDigits?_eq_some_iff : ofDigits? s = some color ↔ Digits LoosePair s color := by
  constructor
  · intro read
    unfold ofDigits? at read
    split at read
    · simp only [Option.bind_eq_bind, Option.bind_eq_some_iff, channel?_eq_some_iff] at read
      obtain ⟨r, red, g, green, b, blue, made⟩ := read
      cases made
      exact .short red green blue
    · simp only [Option.bind_eq_bind, Option.bind_eq_some_iff, channel?_eq_some_iff] at read
      obtain ⟨r, red, g, green, b, blue, a, alpha, made⟩ := read
      cases made
      exact .long red green blue alpha
    · contradiction
  · intro digits
    cases digits with
    | short red green blue =>
      rw [ofDigits?, channel?_eq_some_iff.mpr red, channel?_eq_some_iff.mpr green,
        channel?_eq_some_iff.mpr blue]
      rfl
    | long red green blue alpha =>
      rw [ofDigits?, channel?_eq_some_iff.mpr red, channel?_eq_some_iff.mpr green,
        channel?_eq_some_iff.mpr blue, channel?_eq_some_iff.mpr alpha]
      rfl

theorem Digits.mono {Channel Channel' : Char → Char → UInt8 → Prop}
    (digits : Digits Channel s color)
    (step : ∀ high low v, high ∈ s → Channel high low v → Channel' high low v) :
    Digits Channel' s color := by
  cases digits with
  | short red green blue =>
    exact .short (step _ _ _ (by simp) red) (step _ _ _ (by simp) green) (step _ _ _ (by simp) blue)
  | long red green blue alpha =>
    exact .long (step _ _ _ (by simp) red) (step _ _ _ (by simp) green) (step _ _ _ (by simp) blue)
      (step _ _ _ (by simp) alpha)

theorem Digits.exists_digit (digits : Digits Pair s color) : ∀ c ∈ s, ∃ v, Digit c v := by
  have both : ∀ {high low v}, Pair high low v → (∃ h, Digit high h) ∧ ∃ l, Digit low l := by
    rintro high low v ⟨h, l, first, second, -⟩
    exact ⟨⟨h, first⟩, ⟨l, second⟩⟩
  cases digits with
  | short red green blue => simp [both red, both green, both blue]
  | long red green blue alpha => simp [both red, both green, both blue, both alpha]

/-- No color begins with a mark. -/
theorem Digits.dropWhile_mark (digits : Digits LoosePair s color) :
    s.dropWhile (· == '#') = s := by
  have kept : ∀ {high low v}, LoosePair high low v → (high == '#') = false := by
    rintro high low v loose
    rw [beq_eq_false_iff_ne]
    rintro rfl
    rcases loose with ⟨h, l, first, -, -⟩ | ⟨plus, -⟩
    · exact not_digit rfl first
    · contradiction
  cases digits with
  | short red => rw [List.dropWhile_cons, kept red]; rfl
  | long red => rw [List.dropWhile_cons, kept red]; rfl

/-! ### Texts -/

/-- The documented texts of a color: its digits behind one mark or none. -/
def Documented (text : String) (color : Rgba) : Prop :=
  ∃ digits, (Text.trim text.toList = digits ∨ Text.trim text.toList = '#' :: digits) ∧
    Digits Pair digits color

/-- The texts that are read as a color. -/
def Readable (text : String) (color : Rgba) : Prop :=
  ∃ marks digits, Text.trim text.toList = List.replicate marks '#' ++ digits ∧
    Digits LoosePair digits color

/-- A text that uses neither of the two forms that are read beside the documented ones. -/
def Plain (text : String) : Prop :=
  ¬['#', '#'] <+: Text.trim text.toList ∧ '+' ∉ Text.trim text.toList

theorem ofHex?_eq_some_iff : ofHex? text = some color ↔ Readable text color := by
  rw [ofHex?, Readable]
  generalize Text.trim text.toList = trimmed
  constructor
  · intro read
    have marks : trimmed.takeWhile (· == '#') =
        List.replicate (trimmed.takeWhile (· == '#')).length '#' := by
      refine List.eq_replicate_of_mem fun c mem => ?_
      exact eq_of_beq (List.mem_takeWhile_imp (p := (· == '#')) mem)
    refine ⟨(trimmed.takeWhile (· == '#')).length, _, ?_, ofDigits?_eq_some_iff.mp read⟩
    rw [← marks, List.takeWhile_append_dropWhile]
  · rintro ⟨marks, digits, rfl, loose⟩
    have dropped : (List.replicate marks '#' ++ digits).dropWhile (· == '#') = digits := by
      rw [List.dropWhile_append_of_pos, loose.dropWhile_mark]
      intro c mem
      rw [List.eq_of_mem_replicate mem]
      rfl
    rw [dropped]
    exact ofDigits?_eq_some_iff.mpr loose

theorem Documented.readable (documented : Documented text color) : Readable text color := by
  obtain ⟨digits, trimmed, paired⟩ := documented
  have loose : Digits LoosePair digits color := paired.mono fun _ _ _ _ pair => .inl pair
  rcases trimmed with bare | marked
  · exact ⟨0, digits, bare, loose⟩
  · exact ⟨1, digits, marked, loose⟩

theorem Documented.plain (documented : Documented text color) : Plain text := by
  obtain ⟨digits, trimmed, paired⟩ := documented
  have mark : '#' ∉ digits := by
    intro mem
    obtain ⟨v, digit⟩ := paired.exists_digit _ mem
    exact not_digit rfl digit
  have plus : '+' ∉ digits := by
    intro mem
    obtain ⟨v, digit⟩ := paired.exists_digit _ mem
    exact not_digit rfl digit
  rcases trimmed with bare | marked
  · rw [Plain, bare]
    refine ⟨fun marks => mark ?_, plus⟩
    exact marks.subset List.mem_cons_self
  · rw [Plain, marked]
    refine ⟨fun marks => mark ?_, ?_⟩
    · exact (List.cons_prefix_cons.mp marks).2.subset List.mem_cons_self
    · exact List.not_mem_cons_of_ne_of_not_mem (by decide) plus

theorem Readable.documented (readable : Readable text color) (plain : Plain text) :
    Documented text color := by
  obtain ⟨marks, digits, trimmed, loose⟩ := readable
  rw [Plain, trimmed] at plain
  obtain ⟨single, unsigned⟩ := plain
  have paired : Digits Pair digits color := by
    refine loose.mono fun high low v mem channel => ?_
    rcases channel with pair | ⟨rfl, -⟩
    · exact pair
    · exact absurd (List.mem_append_right _ mem) unsigned
  -- Two marks are in front of no plain text, so there is one mark or none.
  match marks with
  | 0 => exact ⟨digits, .inl trimmed, paired⟩
  | 1 => exact ⟨digits, .inr trimmed, paired⟩
  | marks + 2 => exact absurd (List.prefix_append ['#', '#'] _) single

/-- A text is read as a color if its digits are those of the color, behind any number of marks and with
plus signs for first digits. So it is read as documented, to the color its digits spell or to none, if and
only if it is refused or has neither two marks in front nor a plus sign. -/
theorem ofHex?_documented_iff (text : String) :
    (∀ color, ofHex? text = some color ↔ Readable text color) ∧
    ((∀ color, ofHex? text = some color ↔ Documented text color) ↔
      ofHex? text = none ∨ Plain text) := by
  refine ⟨fun color => ofHex?_eq_some_iff, ?_, ?_⟩
  · intro agrees
    cases read : ofHex? text with
    | none => exact .inl rfl
    | some color => exact .inr ((agrees color).mp read).plain
  · intro harmless color
    constructor
    · intro read
      rcases harmless with refused | plain
      · rw [refused] at read
        contradiction
      · exact (ofHex?_eq_some_iff.mp read).documented plain
    · intro documented
      exact ofHex?_eq_some_iff.mpr documented.readable

/-- A second mark, or a plus sign for a digit, is no documented text of a color and is read as one. -/
theorem ofHex?_undocumented :
    (ofHex? "##1e90ff" = some ⟨30, 144, 255, 255⟩ ∧ ∀ color, ¬Documented "##1e90ff" color) ∧
      ofHex? "+1+2+3" = some ⟨1, 2, 3, 255⟩ ∧ ∀ color, ¬Documented "+1+2+3" color := by
  refine ⟨⟨by decide +kernel, fun color documented => ?_⟩, by decide +kernel, fun color documented => ?_⟩
  · exact documented.plain.1 (by decide +kernel)
  · exact documented.plain.2 (by decide +kernel)

end PointScope.Rgba
