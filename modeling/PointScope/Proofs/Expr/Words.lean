import PointScope.Proofs.Decimal.Numeral
import PointScope.Proofs.Expr.Lexing

/-! The words of a text. Where a token begins it takes the longest word that stands there: a number, a name or
any other single character. No word has a blank in it, so what comes next lengthens a word only by characters
that stand before the next blank. -/
namespace PointScope.Expr

open Decimal (IsExponent IsSign AllDigits)

/-! ### Blanks -/

/-- All blanks. -/
def blanks : List Char :=
  [9, 10, 11, 12, 13, 32, 0x85, 0xA0, 0x1680, 0x2000, 0x2001, 0x2002, 0x2003, 0x2004, 0x2005, 0x2006,
    0x2007, 0x2008, 0x2009, 0x200A, 0x2028, 0x2029, 0x202F, 0x205F, 0x3000].map Char.ofNat

theorem mem_blanks {c : Char} (blank : Text.isBlank c = true) : c ∈ blanks := by
  refine List.mem_map.mpr ⟨c.toNat, ?_, Char.ofNat_toNat c⟩
  simp only [Text.isBlank, Bool.or_eq_true, Bool.and_eq_true, decide_eq_true_eq, beq_iff_eq] at blank
  simp only [List.mem_cons, List.not_mem_nil, or_false]
  omega

theorem all_blanks_not_isNamePart : blanks.all (fun b => !isNamePart b) = true := by decide +kernel

/-- No blank is a part of a name. -/
theorem not_isBlank_of_isNamePart {c : Char} (part : isNamePart c = true) : Text.isBlank c = false := by
  rw [Bool.eq_false_iff]
  intro blank
  have other := List.all_eq_true.mp all_blanks_not_isNamePart c (mem_blanks blank)
  rw [part] at other
  contradiction

theorem isNamePart_of_isNameStart {c : Char} (start : isNameStart c = true) : isNamePart c = true := by
  rw [isNameStart, Bool.or_eq_true] at start
  rw [isNamePart, Text.isLetterOrNumber, Bool.or_eq_true, Bool.or_eq_true]
  rcases start with letter | underscore
  · exact Or.inl (Or.inl letter)
  · exact Or.inr underscore

/-! ### Words -/

/-- Digits and points with an exponent, names, and every other character that is no blank. -/
inductive Word : List Char → Prop where
  | number {c : Char} {ds e : List Char} : isNumeral c = true → (∀ d ∈ ds, isNumeral d = true) →
      IsExponent e → Word (c :: (ds ++ e))
  | name {c : Char} {parts : List Char} : isNumeral c = false → isNameStart c = true →
      (∀ d ∈ parts, isNamePart d = true) → Word (c :: parts)
  | symbol {c : Char} : isNumeral c = false → isNameStart c = false → Text.isBlank c = false → Word [c]

theorem not_isBlank_of_mem_exponent {e : List Char} (exponent : IsExponent e) {d : Char} (mem : d ∈ e) :
    Text.isBlank d = false := by
  cases exponent with
  | absent => contradiction
  | present marked signed _ digits =>
    rcases List.mem_cons.mp mem with rfl | mem
    · rcases marked with rfl | rfl <;> decide
    · rcases List.mem_append.mp mem with sign | digit
      · cases signed with
        | absent => contradiction
        | plus => obtain rfl := List.mem_singleton.mp sign; decide
        | minus => obtain rfl := List.mem_singleton.mp sign; decide
      · have := Decimal.toNat_of_isDigit (digits d digit)
        exact Text.not_isBlank (by omega) (by omega)

theorem Word.not_isBlank {w : List Char} (word : Word w) {d : Char} (mem : d ∈ w) :
    Text.isBlank d = false := by
  cases word with
  | number start numerals exponent =>
    rcases List.mem_cons.mp mem with rfl | mem
    · exact not_isBlank_of_isNumeral start
    · rcases List.mem_append.mp mem with numeral | mem
      · exact not_isBlank_of_isNumeral (numerals d numeral)
      · exact not_isBlank_of_mem_exponent exponent mem
  | name _ start parts =>
    rcases List.mem_cons.mp mem with rfl | mem
    · exact not_isBlank_of_isNamePart (isNamePart_of_isNameStart start)
    · exact not_isBlank_of_isNamePart (parts d mem)
  | symbol _ _ ink =>
    obtain rfl := List.mem_singleton.mp mem
    exact ink

/-- The longest word that a text begins with. -/
structure Longest (w s : List Char) : Prop where
  word : Word w
  begins : w <+: s
  longest : ∀ u, Word u → u <+: s → u.length ≤ w.length

theorem Longest.unique {u w s : List Char} (first : Longest u s) (second : Longest w s) : u = w := by
  have shorter := second.longest u first.word first.begins
  have longer := first.longest w second.word second.begins
  exact (List.prefix_of_prefix_length_le first.begins second.begins shorter).eq_of_length (by omega)

/-- Up to its first blank, a text is the beginning of another. -/
def InkWithin (s' s : List Char) : Prop :=
  ∀ u, (∀ d ∈ u, Text.isBlank d = false) → u <+: s' → u <+: s

theorem inkWithin_of_begins {s' s : List Char} (begins : s' <+: s) : InkWithin s' s :=
  fun _ _ start => start.trans begins

/-- A longest word stays the longest one in front of a text that has no more characters to offer. -/
theorem Longest.of_inkWithin {w after after' : List Char} (longest : Longest w (w ++ after))
    (within : InkWithin after' after) : Longest w (w ++ after') where
  word := longest.word
  begins := List.prefix_append w after'
  longest := by
    intro u word begins
    rcases Nat.le_total u.length w.length with short | long
    · exact short
    · -- What such a word has behind `w` stands behind it in the first text too.
      obtain ⟨more, rfl⟩ := List.prefix_of_prefix_length_le (List.prefix_append w after') begins long
      have start : more <+: after' := (List.prefix_append_right_inj w).mp begins
      have start' : more <+: after := by
        apply within more _ start
        intro d mem
        exact word.not_isBlank (List.mem_append_right w mem)
      exact longest.longest _ word ((List.prefix_append_right_inj w).mpr start')

/-! ### Exponents -/

theorem exponentPart_present {mark : Char} {sign ds : List Char} (marked : mark = 'e' ∨ mark = 'E')
    (signed : IsSign sign) (some_digit : ds ≠ []) (digits : AllDigits ds) (after : List Char) :
    exponentPart (mark :: (sign ++ ds) ++ after) =
      mark :: (sign ++ ds) ++ after.takeWhile Char.isDigit := by
  have is_mark : (mark == 'e' || mark == 'E') = true := by
    rcases marked with rfl | rfl <;> rfl
  obtain ⟨d, ds, rfl⟩ := List.exists_cons_of_ne_nil some_digit
  have code := Decimal.toNat_of_isDigit (digits d List.mem_cons_self)
  have unsigned : (d == '+' || d == '-') = false := by
    rw [Bool.or_eq_false_iff, beq_eq_false_iff_ne, beq_eq_false_iff_ne]
    constructor
    · rintro rfl; exact absurd code (by decide)
    · rintro rfl; exact absurd code (by decide)
  have taken : (d :: ds ++ after).takeWhile Char.isDigit = d :: ds ++ after.takeWhile Char.isDigit :=
    Decimal.takeWhile_isDigit digits after
  simp only [List.cons_append] at taken ⊢
  cases signed with
  | absent => simp [exponentPart, is_mark, unsigned, taken]
  | plus => simp [exponentPart, is_mark, taken]
  | minus => simp [exponentPart, is_mark, taken]

/-- Behind a mark there is a sign or none, and then the exponent is decided by the digits. -/
theorem exponentPart_marked {mark : Char} (is_mark : (mark == 'e' || mark == 'E') = true)
    (s : List Char) : ∃ sign rest, IsSign sign ∧ s = sign ++ rest ∧
      exponentPart (mark :: s) =
        match rest.takeWhile Char.isDigit with
        | [] => []
        | ds => mark :: sign ++ ds := by
  cases s with
  | nil => exact ⟨[], [], .absent, rfl, by simp [exponentPart, is_mark]⟩
  | cons d rest =>
    by_cases signed : (d == '+' || d == '-') = true
    · refine ⟨[d], rest, ?_, rfl, ?_⟩
      · rw [Bool.or_eq_true, beq_iff_eq, beq_iff_eq] at signed
        rcases signed with rfl | rfl
        · exact .plus
        · exact .minus
      · simp only [exponentPart, if_pos is_mark, if_pos signed]
        rfl
    · refine ⟨[], d :: rest, .absent, rfl, ?_⟩
      simp only [exponentPart, if_pos is_mark, if_neg signed]
      rfl

theorem isExponent_exponentPart (s : List Char) :
    IsExponent (exponentPart s) ∧ exponentPart s <+: s := by
  cases s with
  | nil => exact ⟨.absent, List.nil_prefix⟩
  | cons mark s =>
    by_cases is_mark : (mark == 'e' || mark == 'E') = true
    · have marked : mark = 'e' ∨ mark = 'E' := by
        simpa only [Bool.or_eq_true, beq_iff_eq] using is_mark
      obtain ⟨sign, rest, signed, rfl, read⟩ := exponentPart_marked is_mark s
      rw [read]
      split
      · exact ⟨.absent, List.nil_prefix⟩
      · rename_i some_digit
        refine ⟨.present marked signed some_digit fun d mem => List.mem_takeWhile_imp mem, ?_⟩
        rw [List.cons_append, List.prefix_cons_inj, List.prefix_append_right_inj]
        exact List.takeWhile_prefix _
    · have none : exponentPart (mark :: s) = [] := by simp only [exponentPart, if_neg is_mark]
      rw [none]
      exact ⟨.absent, List.nil_prefix⟩

theorem length_le_exponentPart {e s : List Char} (exponent : IsExponent e) (begins : e <+: s) :
    e.length ≤ (exponentPart s).length := by
  obtain ⟨after, rfl⟩ := begins
  cases exponent with
  | absent => exact Nat.zero_le _
  | present marked signed some_digit digits =>
    rw [exponentPart_present marked signed some_digit digits, List.length_append]
    exact Nat.le_add_right _ _

/-- No exponent begins with a digit or a point. -/
theorem not_isNumeral_of_exponent {e after : List Char} (exponent : IsExponent e) (present : e ≠ []) :
    ∀ c rest, e ++ after = c :: rest → isNumeral c = false := by
  intro c rest eq
  cases exponent with
  | absent => contradiction
  | present marked =>
    obtain rfl := (List.cons.inj eq).1
    rcases marked with rfl | rfl <;> decide

/-! ### Where a token begins -/

/-- The word that is taken where a token begins. -/
def wordAt (c : Char) (behind : List Char) : List Char :=
  if isNumeral c then numeral (c :: behind)
  else if isNameStart c then c :: behind.takeWhile isNamePart
  else [c]

/-- What a word stands for that begins with a character. -/
def meaning (c : Char) (word : List Char) : Except SyntaxFault Token :=
  if isNumeral c then
    match Decimal.read? word with
    | some v => .ok (.number v)
    | none => .error (.invalidNumber (String.ofList word))
  else if isNameStart c then .ok (.identifier (String.ofList word))
  else
    match Token.ofSymbol? c with
    | some token => .ok token
    | none => .error (.unexpectedCharacter c)

theorem scan_eq (c : Char) (behind : List Char) :
    scan c behind =
      (meaning c (wordAt c behind)).map fun token => (token, (wordAt c behind).length - 1) := by
  unfold scan meaning wordAt
  split
  · dsimp only
    cases Decimal.read? (numeral (c :: behind)) <;> rfl
  · split
    · rfl
    · cases Token.ofSymbol? c <;> rfl

/-- A run of digits and points, and what makes no longer one of it. -/
theorem longest_numeral {c : Char} (start : isNumeral c = true) (behind : List Char) :
    Longest (numeral (c :: behind)) (c :: behind) := by
  obtain ⟨exponent, begins⟩ := isExponent_exponentPart ((c :: behind).dropWhile isNumeral)
  have parts := List.takeWhile_append_dropWhile (p := isNumeral) (l := c :: behind)
  constructor
  · rw [numeral, List.takeWhile_cons_of_pos start]
    exact .number start (fun d mem => List.mem_takeWhile_imp mem) exponent
  · rw [numeral]
    conv => rhs; rw [← parts]
    exact (List.prefix_append_right_inj _).mpr begins
  · intro u word begins
    cases word with
    | @number c' ds e _ numerals exponent' =>
      obtain ⟨rfl, after, rfl⟩ := List.cons_prefix_cons.mp begins
      have all : ∀ d ∈ c' :: ds, isNumeral d = true := by
        intro d mem
        rcases List.mem_cons.mp mem with rfl | mem
        · exact start
        · exact numerals d mem
      rw [List.append_assoc, ← List.cons_append, ← List.cons_append, numeral, List.length_append,
        List.length_append]
      by_cases none : e = []
      · rw [List.takeWhile_append_of_pos all, List.length_append, none, List.length_nil]
        omega
      · obtain ⟨taken, dropped⟩ := takeWhile_stops all (not_isNumeral_of_exponent exponent' none)
        have longer := length_le_exponentPart exponent' (List.prefix_append e after)
        rw [taken, dropped]
        omega
    | name other =>
      obtain ⟨rfl, _⟩ := List.cons_prefix_cons.mp begins
      rw [start] at other
      contradiction
    | symbol other =>
      obtain ⟨rfl, _⟩ := List.cons_prefix_cons.mp begins
      rw [start] at other
      contradiction

theorem longest_name {c : Char} (no_number : isNumeral c = false) (start : isNameStart c = true)
    (behind : List Char) : Longest (c :: behind.takeWhile isNamePart) (c :: behind) := by
  constructor
  · exact .name no_number start fun d mem => List.mem_takeWhile_imp mem
  · exact (List.prefix_cons_inj c).mpr (List.takeWhile_prefix _)
  · intro u word begins
    cases word with
    | number other =>
      obtain ⟨rfl, _⟩ := List.cons_prefix_cons.mp begins
      rw [no_number] at other
      contradiction
    | name _ _ parts =>
      obtain ⟨rfl, after, rfl⟩ := List.cons_prefix_cons.mp begins
      rw [List.takeWhile_append_of_pos parts, ← List.cons_append, List.length_append]
      exact Nat.le_add_right _ _
    | symbol _ other =>
      obtain ⟨rfl, _⟩ := List.cons_prefix_cons.mp begins
      rw [start] at other
      contradiction

theorem longest_symbol {c : Char} (no_number : isNumeral c = false) (no_name : isNameStart c = false)
    (ink : Text.isBlank c = false) (behind : List Char) : Longest [c] (c :: behind) := by
  constructor
  · exact .symbol no_number no_name ink
  · exact ⟨behind, rfl⟩
  · intro u word begins
    cases word with
    | number other =>
      obtain ⟨rfl, _⟩ := List.cons_prefix_cons.mp begins
      rw [no_number] at other
      contradiction
    | name _ other =>
      obtain ⟨rfl, _⟩ := List.cons_prefix_cons.mp begins
      rw [no_name] at other
      contradiction
    | symbol => exact Nat.le_refl _

/-- Where a token begins the longest word is taken. -/
theorem longest_wordAt {c : Char} (ink : Text.isBlank c = false) (behind : List Char) :
    Longest (wordAt c behind) (c :: behind) := by
  unfold wordAt
  cases start : isNumeral c with
  | true => exact longest_numeral start behind
  | false =>
    cases named : isNameStart c with
    | true => exact longest_name start named behind
    | false => exact longest_symbol start named ink behind

theorem exists_wordAt {c : Char} (ink : Text.isBlank c = false) (behind : List Char) :
    ∃ others after, behind = others ++ after ∧ wordAt c behind = c :: others := by
  have longest := longest_wordAt ink behind
  obtain ⟨after, whole⟩ := longest.begins
  cases word : wordAt c behind with
  | nil =>
    have none := longest.word
    rw [word] at none
    cases none
  | cons d others =>
    rw [word, List.cons_append] at whole
    obtain ⟨rfl, rfl⟩ := List.cons.inj whole
    exact ⟨others, after, rfl, rfl⟩

/-- A word is taken alike in front of every text that has no more characters to offer. -/
theorem wordAt_of_inkWithin {c : Char} (ink : Text.isBlank c = false) {others after after' : List Char}
    (word : wordAt c (others ++ after) = c :: others) (within : InkWithin after' after) :
    wordAt c (others ++ after') = c :: others := by
  have longest := longest_wordAt ink (others ++ after)
  rw [word] at longest
  exact (longest_wordAt ink (others ++ after')).unique (longest.of_inkWithin within)

/-- A token takes the first character and the others of its word. -/
theorem scan_ok_iff {c : Char} (ink : Text.isBlank c = false) {others after : List Char} {token : Token} :
    scan c (others ++ after) = .ok (token, others.length) ↔
      wordAt c (others ++ after) = c :: others ∧ meaning c (c :: others) = .ok token := by
  rw [scan_eq]
  constructor
  · intro scanned
    obtain ⟨others', after', split, word⟩ := exists_wordAt ink (others ++ after)
    rw [word] at scanned ⊢
    cases means : meaning c (c :: others') with
    | error fault =>
      rw [means] at scanned
      cases scanned
    | ok found =>
      rw [means] at scanned
      obtain ⟨rfl, size⟩ := Prod.mk.inj (Except.ok.inj scanned)
      obtain ⟨rfl, -⟩ := List.append_inj split size.symm
      exact ⟨rfl, means⟩
  · rintro ⟨word, means⟩
    rw [word, means]
    rfl

/-- A token is taken alike in front of every text that has no more characters to offer. -/
theorem scan_of_inkWithin {c : Char} (ink : Text.isBlank c = false) {others after after' : List Char}
    {token : Token} (scanned : scan c (others ++ after) = .ok (token, others.length))
    (within : InkWithin after' after) : scan c (others ++ after') = .ok (token, others.length) := by
  obtain ⟨word, means⟩ := (scan_ok_iff ink).mp scanned
  exact (scan_ok_iff ink).mpr ⟨wordAt_of_inkWithin ink word within, means⟩

/-- Behind a token that is found, the text goes on with what is left of it. -/
theorem exists_of_scan {c : Char} (ink : Text.isBlank c = false) {behind : List Char} {token : Token}
    {more : Nat} (scanned : scan c behind = .ok (token, more)) :
    ∃ others after, behind = others ++ after ∧ more = others.length := by
  obtain ⟨others, after, rfl, word⟩ := exists_wordAt ink behind
  refine ⟨others, after, rfl, ?_⟩
  rw [scan_eq, word] at scanned
  cases means : meaning c (c :: others) with
  | error fault =>
    rw [means] at scanned
    cases scanned
  | ok found =>
    rw [means] at scanned
    exact (Prod.mk.inj (Except.ok.inj scanned)).2.symm

end PointScope.Expr
