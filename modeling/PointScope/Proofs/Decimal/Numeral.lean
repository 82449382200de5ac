import PointScope.Proofs.Decimal.Digits
import Mathlib.Data.List.TakeWhile

/-! The texts that are read as a number: an optional sign, then digits with at most one point among
them and an optional exponent, or one of the names of numbers without digits, in any case. -/
namespace PointScope.Decimal

variable {s : List Char}

inductive IsSign : List Char → Prop where
  | absent : IsSign []
  | plus : IsSign ['+']
  | minus : IsSign ['-']

def AllDigits (s : List Char) : Prop := ∀ d ∈ s, d.isDigit = true

inductive IsExponent : List Char → Prop where
  | absent : IsExponent []
  | present {mark : Char} {sign ds : List Char} : mark = 'e' ∨ mark = 'E' → IsSign sign → ds ≠ [] →
      AllDigits ds → IsExponent (mark :: (sign ++ ds))

/-- Digits with at most one point. There is a digit before the point or behind it. -/
inductive IsDecimal : List Char → Prop where
  | whole {ds e : List Char} : ds ≠ [] → AllDigits ds → IsExponent e → IsDecimal (ds ++ e)
  | pointed {ds places e : List Char} : ¬(ds = [] ∧ places = []) → AllDigits ds → AllDigits places →
      IsExponent e → IsDecimal (ds ++ '.' :: (places ++ e))

def IsName (s : List Char) : Prop :=
  s.map Char.toLower = ['i', 'n', 'f'] ∨
    s.map Char.toLower = ['i', 'n', 'f', 'i', 'n', 'i', 't', 'y'] ∨
    s.map Char.toLower = ['n', 'a', 'n']

/-- The text of a number. -/
def IsNumeral (s : List Char) : Prop :=
  ∃ sign rest, s = sign ++ rest ∧ IsSign sign ∧ (IsDecimal rest ∨ IsName rest)

/-! ### Signs -/

theorem exists_sign (s : List Char) : ∃ sign, IsSign sign ∧ s = sign ++ (splitSign s).2 := by
  unfold splitSign
  split
  · exact ⟨['-'], .minus, rfl⟩
  · exact ⟨['+'], .plus, rfl⟩
  · exact ⟨[], .absent, rfl⟩

/-- A sign is split off a text that does not begin with another one. -/
theorem splitSign_append {sign rest : List Char} (signed : IsSign sign)
    (unsigned : splitSign rest = (false, rest)) : (splitSign (sign ++ rest)).2 = rest := by
  cases signed with
  | absent => exact congrArg Prod.snd unsigned
  | plus => rfl
  | minus => rfl

theorem AllDigits.splitSign (digits : AllDigits s) (some_digit : s ≠ []) (rest : List Char) :
    splitSign (s ++ rest) = (false, s ++ rest) := by
  obtain ⟨d, s, rfl⟩ := List.exists_cons_of_ne_nil some_digit
  exact splitSign_of_isDigit (digits d List.mem_cons_self) (s ++ rest)

theorem IsDecimal.splitSign (decimal : IsDecimal s) : splitSign s = (false, s) := by
  cases decimal with
  | whole some_digit digits => exact digits.splitSign some_digit _
  | @pointed ds places e _ digits =>
    by_cases none : ds = []
    · rw [none]
      rfl
    · exact digits.splitSign none _

theorem IsName.splitSign (named : IsName s) : splitSign s = (false, s) := by
  cases s with
  | nil => rfl
  | cons c s =>
    refine splitSign_cons ?_ ?_ s
    · rintro rfl
      rcases named with name | name | name <;> cases name
    · rintro rfl
      rcases named with name | name | name <;> cases name

/-! ### Exponents -/

theorem exists_exponent?_iff : (∃ e, exponent? s = some e) ↔ IsExponent s := by
  constructor
  · rintro ⟨e, read⟩
    unfold exponent? at read
    split at read
    · exact .absent
    · rename_i mark rest
      split at read
      · rename_i marked
        obtain ⟨sign, signed, parts⟩ := exists_sign rest
        dsimp only at read
        split at read
        · contradiction
        · rename_i digits
          rw [Bool.or_eq_true, not_or, Bool.not_eq_true, List.isEmpty_eq_false_iff,
            Bool.not_eq_true, Bool.not_eq_false', List.all_eq_true] at digits
          rw [parts]
          exact .present marked signed digits.1 digits.2
      · contradiction
  · intro exponent
    cases exponent with
    | absent => exact ⟨0, rfl⟩
    | @present mark sign ds marked signed some_digit digits =>
      have unsigned : splitSign ds = (false, ds) := by
        have := AllDigits.splitSign digits some_digit []
        rwa [List.append_nil] at this
      have present : ds.isEmpty = false := List.isEmpty_eq_false_iff.mpr some_digit
      have all : ds.all Char.isDigit = true := List.all_eq_true.mpr digits
      simp only [exponent?, if_pos marked, splitSign_append signed unsigned, present, all]
      exact ⟨_, rfl⟩

/-- No exponent begins with a digit or a point. -/
theorem IsExponent.head (exponent : IsExponent s) :
    s.takeWhile Char.isDigit = [] ∧ s.dropWhile Char.isDigit = s ∧ ∀ t, s ≠ '.' :: t := by
  cases exponent with
  | absent => exact ⟨rfl, rfl, fun t eq => by cases eq⟩
  | present marked =>
    rcases marked with rfl | rfl
    · exact ⟨rfl, rfl, fun t eq => by cases eq⟩
    · exact ⟨rfl, rfl, fun t eq => by cases eq⟩

/-! ### Magnitudes -/

/-- There is a number only if there is a digit and all behind the digits is an exponent. -/
theorem exponent_of_digits {bare : Bool} {scale : Int → Float} {v : Float}
    (read : (if bare = true then none else (exponent? s).map scale) = some v) :
    ¬bare = true ∧ IsExponent s := by
  split at read
  · contradiction
  · rename_i some_digit
    obtain ⟨e, exponent, -⟩ := Option.map_eq_some_iff.mp read
    exact ⟨some_digit, exists_exponent?_iff.mp ⟨e, exponent⟩⟩

theorem isDecimal_of_magnitude? {v : Float} (read : magnitude? s = some v) : IsDecimal s := by
  have leading : ∀ t : List Char, AllDigits (t.takeWhile Char.isDigit) :=
    fun t d mem => List.mem_takeWhile_imp mem
  have parts := List.takeWhile_append_dropWhile (p := Char.isDigit) (l := s)
  unfold magnitude? at read
  dsimp only at read
  split at read
  · rename_i behind point
    obtain ⟨some_digit, exponent⟩ := exponent_of_digits read
    rw [Bool.and_eq_true, List.isEmpty_iff, List.isEmpty_iff] at some_digit
    rw [← parts, point, ← List.takeWhile_append_dropWhile (p := Char.isDigit) (l := behind)]
    exact .pointed some_digit (leading s) (leading behind) exponent
  · obtain ⟨some_digit, exponent⟩ := exponent_of_digits read
    rw [Bool.and_eq_true, List.isEmpty_iff] at some_digit
    rw [← parts]
    exact .whole (fun none => some_digit ⟨none, rfl⟩) (leading s) exponent

theorem exists_magnitude?_iff : (∃ v, magnitude? s = some v) ↔ IsDecimal s := by
  constructor
  · rintro ⟨v, read⟩
    exact isDecimal_of_magnitude? read
  · intro decimal
    cases decimal with
    | @whole ds e some_digit digits exponent =>
      obtain ⟨no_digit, unread, no_point⟩ := exponent.head
      obtain ⟨value, read⟩ := exists_exponent?_iff.mpr exponent
      have taken := takeWhile_isDigit digits e
      have dropped := dropWhile_isDigit digits e
      rw [no_digit, List.append_nil] at taken
      rw [unread] at dropped
      have present : ds.isEmpty = false := List.isEmpty_eq_false_iff.mpr some_digit
      unfold magnitude?
      dsimp only
      rw [taken, dropped]
      split
      · exact absurd rfl (no_point _)
      · rw [present, read]
        exact ⟨_, rfl⟩
    | @pointed ds places e some_digit digits place_digits exponent =>
      obtain ⟨no_digit, unread, -⟩ := exponent.head
      obtain ⟨value, read⟩ := exists_exponent?_iff.mpr exponent
      have taken := takeWhile_isDigit digits ('.' :: (places ++ e))
      have dropped := dropWhile_isDigit digits ('.' :: (places ++ e))
      have taken_places := takeWhile_isDigit place_digits e
      have dropped_places := dropWhile_isDigit place_digits e
      rw [List.takeWhile_cons_of_neg (by decide), List.append_nil] at taken
      rw [List.dropWhile_cons_of_neg (by decide)] at dropped
      rw [no_digit, List.append_nil] at taken_places
      rw [unread] at dropped_places
      have present : ¬(ds.isEmpty && places.isEmpty) = true := by
        rwa [Bool.and_eq_true, List.isEmpty_iff, List.isEmpty_iff]
      simp only [magnitude?, taken, dropped, taken_places, dropped_places, if_neg present, read]
      exact ⟨_, rfl⟩

theorem exists_named?_iff : (∃ v, named? s = some v) ↔ IsName s := by
  rw [named?, IsName]
  split
  · rename_i infinite
    exact ⟨fun _ => or_assoc.mp (.inl infinite), fun _ => ⟨_, rfl⟩⟩
  · rename_i finite
    split
    · rename_i nan
      exact ⟨fun _ => .inr (.inr nan), fun _ => ⟨_, rfl⟩⟩
    · rename_i number
      constructor
      · rintro ⟨v, none⟩
        contradiction
      · intro name
        rcases or_assoc.mpr name with infinite | nan
        · exact absurd infinite finite
        · exact absurd nan number

/-- Exactly the texts of numbers are read. -/
theorem exists_read?_iff : (∃ v, read? s = some v) ↔ IsNumeral s := by
  have parts : (∃ v, read? s = some v) ↔
      IsDecimal (splitSign s).2 ∨ IsName (splitSign s).2 := by
    rw [← exists_magnitude?_iff, ← exists_named?_iff]
    simp only [read?, ← Option.isSome_iff_exists, Option.isSome_map, Option.isSome_or,
      Bool.or_eq_true]
  rw [parts]
  constructor
  · intro read
    obtain ⟨sign, signed, split⟩ := exists_sign s
    exact ⟨sign, (splitSign s).2, split, signed, read⟩
  · rintro ⟨sign, rest, rfl, signed, read⟩
    have unsigned : splitSign rest = (false, rest) := by
      rcases read with decimal | name
      · exact decimal.splitSign
      · exact name.splitSign
    rwa [splitSign_append signed unsigned]

end PointScope.Decimal
