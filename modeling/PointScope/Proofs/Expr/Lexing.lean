import PointScope.Expr.Printer
import PointScope.Proofs.Decimal.Shortest
import PointScope.Proofs.Expr.Grammar

/-! Printed text is cut into the tokens of its tree. A text is cut by itself as long as what comes
next does not prolong its last token; in printed text that is a blank, a parenthesis or the end. -/
namespace PointScope.Expr

/-- What comes next prolongs neither a name nor a number. -/
def Stops (after : List Char) : Prop :=
  ∀ c rest, after = c :: rest → c = ' ' ∨ c = '(' ∨ c = ')'

/-- A text is cut into certain tokens, wherever it begins and whatever allowed text comes next. -/
def Cuts (allowed : List Char → Prop) (text : List Char) (tokens : List Token) : Prop :=
  ∀ column after, allowed after → ∃ ts, ts.map Lexeme.token = tokens ∧
    lexFrom column (text ++ after) =
      (lexFrom (column + text.length) after).map fun rest => ts ++ rest

/-- Any text may come next. -/
abbrev Anything : List Char → Prop := fun _ => True

variable {allowed allowed' : List Char → Prop} {text text' : List Char} {tokens tokens' : List Token}

/-- Texts are cut one after another. -/
theorem Cuts.append (first : Cuts allowed text tokens) (second : Cuts allowed' text' tokens')
    (next : ∀ after, allowed' after → allowed (text' ++ after)) :
    Cuts allowed' (text ++ text') (tokens ++ tokens') := by
  intro column after ok
  obtain ⟨ts, eq, cut⟩ := first column (text' ++ after) (next after ok)
  obtain ⟨ts', eq', cut'⟩ := second (column + text.length) after ok
  refine ⟨ts ++ ts', by rw [List.map_append, eq, eq'], ?_⟩
  rw [List.append_assoc, cut, cut', List.length_append, Nat.add_assoc]
  cases lexFrom (column + (text.length + text'.length)) after with
  | error e => rfl
  | ok rest => exact congrArg Except.ok (List.append_assoc ..).symm

theorem Cuts.mono (h : Cuts allowed text tokens) (le : ∀ after, allowed' after → allowed after) :
    Cuts allowed' text tokens :=
  fun column after ok => h column after (le after ok)

theorem lexFrom_cons {c : Char} (ink : Text.isBlank c = false) {token : Token} {more : Nat}
    {behind : List Char} (scanned : scan c behind = .ok (token, more)) (column : Nat) :
    lexFrom column (c :: behind) =
      (lexFrom (column + 1 + more) (behind.drop more)).map fun rest =>
        ⟨token, column, more + 1⟩ :: rest := by
  rw [lexFrom, ink, scanned]
  dsimp only [Bool.false_eq_true, if_false]
  cases lexFrom (column + 1 + more) (behind.drop more) <;> rfl

/-- A token that takes the whole text is cut from it. -/
theorem cuts_of_scan {c : Char} {others : List Char} {token : Token} (ink : Text.isBlank c = false)
    (scanned : ∀ after, allowed after → scan c (others ++ after) = .ok (token, others.length)) :
    Cuts allowed (c :: others) [token] := by
  intro column after ok
  refine ⟨[⟨token, column, others.length + 1⟩], rfl, ?_⟩
  rw [List.cons_append, lexFrom_cons ink (scanned after ok), List.drop_left, List.length_cons,
    Nat.add_assoc, Nat.add_comm 1]
  rfl

theorem cuts_blank : Cuts Anything [' '] [] := by
  intro column after _
  refine ⟨[], rfl, ?_⟩
  rw [List.singleton_append, lexFrom]
  dsimp only [Text.isBlank]
  cases lexFrom (column + 1) after <;> rfl

/-- A character that is a token by itself. -/
theorem cuts_symbol {c : Char} {token : Token} (ink : Text.isBlank c = false)
    (no_number : isNumeral c = false) (no_name : isNameStart c = false)
    (symbol : Token.ofSymbol? c = some token) : Cuts Anything [c] [token] := by
  refine cuts_of_scan ink fun after _ => ?_
  rw [scan, no_number, no_name, symbol]
  rfl

theorem takeWhile_stops {p : Char → Bool} {ds after : List Char} (all : ∀ d ∈ ds, p d = true)
    (stops : ∀ c rest, after = c :: rest → p c = false) :
    (ds ++ after).takeWhile p = ds ∧ (ds ++ after).dropWhile p = after := by
  rw [List.takeWhile_append_of_pos all, List.dropWhile_append_of_pos all]
  cases after with
  | nil => exact ⟨List.append_nil ds, rfl⟩
  | cons c rest =>
    have stop : ¬p c = true := by rw [stops c rest rfl]; exact Bool.false_ne_true
    rw [List.takeWhile_cons_of_neg stop, List.dropWhile_cons_of_neg stop]
    exact ⟨List.append_nil ds, rfl⟩

theorem Stops.not_name {after : List Char} (stops : Stops after) (c : Char) (rest : List Char)
    (eq : after = c :: rest) : isNamePart c = false := by
  rcases stops c rest eq with rfl | rfl | rfl <;> decide

theorem Stops.not_numeral {after : List Char} (stops : Stops after) (c : Char) (rest : List Char)
    (eq : after = c :: rest) : isNumeral c = false := by
  rcases stops c rest eq with rfl | rfl | rfl <;> decide

theorem Stops.exponentPart {after : List Char} (stops : Stops after) : exponentPart after = [] := by
  cases after with
  | nil => rfl
  | cons c rest => rcases stops c rest rfl with rfl | rfl | rfl <;> rfl

theorem cuts_name {c : Char} {others : List Char} (ink : Text.isBlank c = false)
    (no_number : isNumeral c = false) (start : isNameStart c = true)
    (parts : others.all isNamePart = true) :
    Cuts Stops (c :: others) [.identifier (String.ofList (c :: others))] := by
  refine cuts_of_scan ink fun after stops => ?_
  rw [scan, no_number, start]
  dsimp only [Bool.false_eq_true, if_false, if_true]
  rw [(takeWhile_stops (List.all_eq_true.mp parts) stops.not_name).1]
  rfl

theorem toNat_of_isNumeral {c : Char} (numeral : isNumeral c = true) :
    46 ≤ c.toNat ∧ c.toNat ≤ 57 := by
  rw [isNumeral, Bool.or_eq_true] at numeral
  rcases numeral with digit | point
  · have := Decimal.toNat_of_isDigit digit
    omega
  · obtain rfl := eq_of_beq point
    decide

theorem not_isBlank_of_isNumeral {c : Char} (numeral : isNumeral c = true) :
    Text.isBlank c = false := by
  have code := toNat_of_isNumeral numeral
  exact Text.not_isBlank (by omega) (by omega)

/-- Text of digits and points that can be read is cut as one number. -/
theorem cuts_number {c : Char} {others : List Char} {v : Float} (start : isNumeral c = true)
    (numerals : ∀ d ∈ others, isNumeral d = true) (read : Decimal.read? (c :: others) = some v) :
    Cuts Stops (c :: others) [.number v] := by
  refine cuts_of_scan (not_isBlank_of_isNumeral start) fun after stops => ?_
  have all : ∀ d ∈ c :: others, isNumeral d = true := by
    intro d mem
    rcases List.mem_cons.mp mem with rfl | mem
    · exact start
    · exact numerals d mem
  obtain ⟨taken, dropped⟩ := takeWhile_stops all stops.not_numeral
  have whole : numeral (c :: (others ++ after)) = c :: others := by
    rw [numeral, ← List.cons_append, taken, dropped, stops.exponentPart, List.append_nil]
  rw [scan, start, whole]
  dsimp only [if_true]
  rw [read]
  rfl

/-! ### Numbers of a text -/

/-- The numeral of a text has no sign and no name, so it is read as a magnitude. -/
theorem read?_eq_magnitude? {c : Char} (start : isNumeral c = true) (others : List Char) :
    Decimal.read? (c :: others) = Decimal.magnitude? (c :: others) := by
  have code := toNat_of_isNumeral start
  have unsigned : Decimal.splitSign (c :: others) = (false, c :: others) := by
    refine Decimal.splitSign_cons ?_ ?_ others
    · rintro rfl
      exact absurd code (by decide)
    · rintro rfl
      exact absurd code (by decide)
  have lower : c.toLower = c := by
    refine dif_neg fun upper => ?_
    have : 65 ≤ c.toNat := upper.1
    omega
  have unnamed : Decimal.named? (c :: others) = none := by
    have no_letter : c ≠ 'i' ∧ c ≠ 'n' := by
      constructor
      · rintro rfl
        exact absurd code (by decide)
      · rintro rfl
        exact absurd code (by decide)
    rw [Decimal.named?, List.map_cons, lower]
    simp [no_letter.1, no_letter.2]
  rw [Decimal.read?, unsigned]
  dsimp only
  rw [unnamed, Option.or_none]
  exact Option.map_id_apply

theorem read?_of_isNumeral {c : Char} {others : List Char} {v : Float} (start : isNumeral c = true)
    (read : Decimal.read? (c :: others) = some v) : v.toBits.toNat ≤ Decimal.infinityBits := by
  rw [read?_eq_magnitude? start] at read
  exact Decimal.toBits_magnitude?_le read

theorem numeral_cons {c : Char} (start : isNumeral c = true) (behind : List Char) :
    ∃ others, numeral (c :: behind) = c :: others := by
  rw [numeral, List.takeWhile_cons_of_pos start]
  exact ⟨_, List.cons_append⟩

theorem scan_number {c : Char} {behind : List Char} {v : Float} {more : Nat}
    (scanned : scan c behind = .ok (.number v, more)) : v.toBits.toNat ≤ Decimal.infinityBits := by
  unfold scan at scanned
  split at scanned
  · rename_i start
    obtain ⟨others, begins⟩ := numeral_cons start behind
    dsimp only at scanned
    rw [begins] at scanned
    split at scanned
    · rename_i w read
      cases scanned
      exact read?_of_isNumeral start read
    · contradiction
  · split at scanned
    · cases scanned
    · split at scanned
      · rename_i token symbol
        cases scanned
        simp only [Token.ofSymbol?] at symbol
        split at symbol <;> cases symbol
      · contradiction

/-- The numbers of a text are magnitudes or infinite. -/
theorem lexFrom_number {column : Nat} {text : List Char} {ts : List Lexeme} {v : Float}
    (cut : lexFrom column text = .ok ts) (mem : .number v ∈ ts.map Lexeme.token) :
    v.toBits.toNat ≤ Decimal.infinityBits := by
  fun_induction lexFrom column text generalizing ts with
  | case1 column =>
    cases cut
    contradiction
  | case2 column c behind blank ih => exact ih cut mem
  | case3 column c behind ink fault refused => contradiction
  | case4 column c behind ink token more scanned e refused ih => contradiction
  | case5 column c behind ink token more scanned rest found ih =>
    cases cut
    rcases List.mem_cons.mp mem with rfl | mem
    · exact scan_number scanned
    · exact ih found mem

end PointScope.Expr
