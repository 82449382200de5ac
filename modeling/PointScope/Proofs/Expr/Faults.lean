import PointScope.Proofs.Expr.Words

/-! Where no token begins: at a character of no class, and at a run of digits and points that is no number. Scanning
fails at these places and at no others. -/
namespace PointScope.Expr

open Decimal (IsExponent AllDigits)

/-- The run of digits and points that a text begins with. -/
def run (s : List Char) : List Char := s.takeWhile isNumeral

/-- Texts that begin with neither a blank nor a token: with a character of no class, or with a run of
digits and points that has two points or no digit. -/
inductive Faulty : List Char → SyntaxFault → Prop where
  | character {c : Char} {behind : List Char} : Text.isBlank c = false → isNumeral c = false →
      isNameStart c = false → Token.ofSymbol? c = none → Faulty (c :: behind) (.unexpectedCharacter c)
  | number {s : List Char} : run s ≠ [] → (1 < (run s).count '.' ∨ ∀ d ∈ run s, d.isDigit = false) →
      Faulty s (.invalidNumber (String.ofList (numeral s)))

theorem isNumeral_of_isDigit {d : Char} (digit : d.isDigit = true) : isNumeral d = true := by
  rw [isNumeral, digit]
  rfl

theorem takeWhile_of_exponent {ds e : List Char} (all : ∀ d ∈ ds, isNumeral d = true)
    (exponent : IsExponent e) : (ds ++ e).takeWhile isNumeral = ds := by
  by_cases none : e = []
  · rw [none, List.takeWhile_append_of_pos all, List.takeWhile_nil, List.append_nil]
  · have stops : ∀ c rest, e = c :: rest → isNumeral c = false := by
      rw [← List.append_nil e]
      exact not_isNumeral_of_exponent exponent none
    exact (takeWhile_stops all stops).1

theorem isDigit_of_isNumeral {d : Char} (numeral : isNumeral d = true) (no_point : d ≠ '.') :
    d.isDigit = true := by
  rw [isNumeral, Bool.or_eq_true, beq_iff_eq] at numeral
  exact numeral.resolve_right no_point

theorem allDigits_of_isNumeral {ds : List Char} (all : ∀ d ∈ ds, isNumeral d = true)
    (no_point : ds.count '.' = 0) : AllDigits ds := by
  intro d mem
  apply isDigit_of_isNumeral (all d mem)
  rintro rfl
  exact List.count_eq_zero.mp no_point mem

theorem count_point_of_allDigits {ds : List Char} (digits : AllDigits ds) : ds.count '.' = 0 := by
  apply List.count_eq_zero.mpr
  intro point
  exact absurd (digits '.' point) (by decide)

theorem isNumeral_of_pointed {ws places : List Char} (digits : AllDigits ws)
    (place_digits : AllDigits places) : ∀ d ∈ ws ++ '.' :: places, isNumeral d = true := by
  intro d mem
  rcases List.mem_append.mp mem with digit | mem
  · exact isNumeral_of_isDigit (digits d digit)
  · rcases List.mem_cons.mp mem with rfl | digit
    · rfl
    · exact isNumeral_of_isDigit (place_digits d digit)

/-- The run of a decimal numeral has a digit and at most one point. -/
theorem run_of_isDecimal {s : List Char} (decimal : Decimal.IsDecimal s) :
    (run s).count '.' ≤ 1 ∧ ∃ d ∈ run s, d.isDigit = true := by
  cases decimal with
  | @whole ws e some_digit digits exponent =>
    rw [run, takeWhile_of_exponent (fun d mem => isNumeral_of_isDigit (digits d mem)) exponent]
    obtain ⟨d, mem⟩ := List.exists_mem_of_ne_nil ws some_digit
    exact ⟨by rw [count_point_of_allDigits digits]; omega, d, mem, digits d mem⟩
  | @pointed ws places e some_digit digits place_digits exponent =>
    rw [run, ← List.cons_append, ← List.append_assoc,
      takeWhile_of_exponent (isNumeral_of_pointed digits place_digits) exponent]
    constructor
    · rw [List.count_append, List.count_cons_self, count_point_of_allDigits digits,
        count_point_of_allDigits place_digits]
    · by_cases none : ws = []
      · obtain ⟨d, mem⟩ := List.exists_mem_of_ne_nil places fun none' => some_digit ⟨none, none'⟩
        exact ⟨d, List.mem_append_right ws (List.mem_cons_of_mem _ mem), place_digits d mem⟩
      · obtain ⟨d, mem⟩ := List.exists_mem_of_ne_nil ws none
        exact ⟨d, List.mem_append_left _ mem, digits d mem⟩

/-- Digits and points with an exponent are decimal if there is a digit and at most one point. -/
theorem isDecimal_iff {ds e : List Char} (all : ∀ d ∈ ds, isNumeral d = true) (exponent : IsExponent e) :
    Decimal.IsDecimal (ds ++ e) ↔ ds.count '.' ≤ 1 ∧ ∃ d ∈ ds, d.isDigit = true := by
  constructor
  · intro decimal
    have readable := run_of_isDecimal decimal
    rw [run, takeWhile_of_exponent all exponent] at readable
    exact readable
  · rintro ⟨points, d, mem, digit⟩
    by_cases point : '.' ∈ ds
    · obtain ⟨ws, places, rfl⟩ := List.append_of_mem point
      rw [List.count_append, List.count_cons_self] at points
      have whole_part : ∀ w ∈ ws, isNumeral w = true := fun w mem => all w (List.mem_append_left _ mem)
      have places_part : ∀ w ∈ places, isNumeral w = true :=
        fun w mem => all w (List.mem_append_right _ (List.mem_cons_of_mem _ mem))
      rw [List.append_assoc, List.cons_append]
      apply Decimal.IsDecimal.pointed
      · rintro ⟨rfl, rfl⟩
        obtain rfl := List.mem_singleton.mp mem
        exact absurd digit (by decide)
      · exact allDigits_of_isNumeral whole_part (by omega)
      · exact allDigits_of_isNumeral places_part (by omega)
      · exact exponent
    · apply Decimal.IsDecimal.whole
      · rintro rfl
        exact List.not_mem_nil mem
      · exact allDigits_of_isNumeral all (List.count_eq_zero.mpr point)
      · exact exponent

theorem run_ne_nil_iff {c : Char} {behind : List Char} : run (c :: behind) ≠ [] ↔ isNumeral c = true := by
  rw [run, List.takeWhile_cons]
  cases isNumeral c <;> simp

/-- A numeral is read unless its run of digits and points has two points or no digit. -/
theorem read?_numeral_eq_none_iff {c : Char} (start : isNumeral c = true) (behind : List Char) :
    Decimal.read? (numeral (c :: behind)) = none ↔
      1 < (run (c :: behind)).count '.' ∨ ∀ d ∈ run (c :: behind), d.isDigit = false := by
  obtain ⟨others, word⟩ := numeral_cons start behind
  have exponent := (isExponent_exponentPart ((c :: behind).dropWhile isNumeral)).1
  have all : ∀ d ∈ run (c :: behind), isNumeral d = true := fun d mem => List.mem_takeWhile_imp mem
  have readable := isDecimal_iff all exponent
  have whole : run (c :: behind) ++ exponentPart ((c :: behind).dropWhile isNumeral) = c :: others :=
    word
  rw [whole, ← Decimal.exists_magnitude?_iff, ← read?_eq_magnitude? start] at readable
  rw [word, Option.eq_none_iff_forall_ne_some, ← not_exists, readable, not_and_or, Nat.not_le]
  simp only [not_exists, not_and, Bool.not_eq_true]

theorem faulty_of_numeral {c : Char} (start : isNumeral c = true) {behind : List Char}
    {fault : SyntaxFault} : Faulty (c :: behind) fault ↔
      Decimal.read? (numeral (c :: behind)) = none ∧
        fault = .invalidNumber (String.ofList (numeral (c :: behind))) := by
  rw [read?_numeral_eq_none_iff start]
  constructor
  · intro faulty
    cases faulty with
    | character _ other =>
      rw [start] at other
      cases other
    | number _ wrong => exact ⟨wrong, rfl⟩
  · rintro ⟨wrong, rfl⟩
    exact .number (run_ne_nil_iff.mpr start) wrong

theorem faulty_of_other {c : Char} (ink : Text.isBlank c = false) (other : isNumeral c = false)
    {behind : List Char} {fault : SyntaxFault} : Faulty (c :: behind) fault ↔
      (isNameStart c = false ∧ Token.ofSymbol? c = none) ∧ fault = .unexpectedCharacter c := by
  constructor
  · intro faulty
    cases faulty with
    | character _ _ no_name no_symbol => exact ⟨⟨no_name, no_symbol⟩, rfl⟩
    | number some_run =>
      rw [run_ne_nil_iff, other] at some_run
      cases some_run
  · rintro ⟨⟨no_name, no_symbol⟩, rfl⟩
    exact .character ink other no_name no_symbol

/-- Where a token should begin, scanning fails exactly at the faults. -/
theorem scan_error_iff {c : Char} (ink : Text.isBlank c = false) {behind : List Char}
    {fault : SyntaxFault} : scan c behind = .error fault ↔ Faulty (c :: behind) fault := by
  unfold scan
  cases start : isNumeral c with
  | true =>
    rw [faulty_of_numeral start, if_pos rfl]
    dsimp only
    cases Decimal.read? (numeral (c :: behind)) with
    | some v => simp
    | none => simp [eq_comm]
  | false =>
    rw [faulty_of_other ink start, if_neg Bool.false_ne_true]
    cases isNameStart c with
    | true => simp
    | false =>
      cases Token.ofSymbol? c with
      | some token => simp
      | none => simp [eq_comm]

/-- A fault begins with a character that is no blank. -/
theorem Faulty.cons {s : List Char} {fault : SyntaxFault} (faulty : Faulty s fault) :
    ∃ c behind, s = c :: behind ∧ Text.isBlank c = false := by
  cases faulty with
  | character ink => exact ⟨_, _, rfl, ink⟩
  | number some_run =>
    cases s with
    | nil => contradiction
    | cons c behind => exact ⟨c, behind, rfl, not_isBlank_of_isNumeral (run_ne_nil_iff.mp some_run)⟩

/-- Cutting a text into tokens ends at a fault. -/
theorem Faulty.lexFrom_eq {s : List Char} {fault : SyntaxFault} (faulty : Faulty s fault)
    (column : Nat) : lexFrom column s = .error (.syntaxError column fault) := by
  obtain ⟨c, behind, rfl, ink⟩ := faulty.cons
  rw [lexFrom, ink, (scan_error_iff ink).mpr faulty]
  rfl

end PointScope.Expr
