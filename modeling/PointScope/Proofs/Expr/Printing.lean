import PointScope.Proofs.Expr.Language
import PointScope.Proofs.Expr.Lexing

/-! Printing and parsing. The text of every tree is cut into tokens, with one token for a literal
that is a magnitude and other tokens for any other. Parsing the text gives back the tree exactly if
the tree is one the parser may return. -/
namespace PointScope.Expr

/-! ### Printed literals -/

/-- The token of a sign, if there is one. -/
def signTokens (negative : Bool) : List Token := if negative then [.minus] else []

/-- The tokens of a printed literal. -/
def literalTokens (v : Float) : List Token :=
  match Decimal.Parts.ofFloat v with
  | .notANumber => [.identifier "NaN"]
  | .infinite negative => signTokens negative ++ [.identifier "inf"]
  | .finite negative mantissa exponent =>
    signTokens negative ++
      [.number (Float.ofBits (UInt64.ofNat (Decimal.bitsOf mantissa exponent)))]

/-- A literal that the parser may return without an overflow: finite and without a sign. -/
def IsMagnitude (v : Float) : Prop := v.isFinite = true ∧ v.toBits.toNat < Decimal.signPlace

theorem cuts_signed {text : List Char} {tokens : List Token} (cuts : Cuts Stops text tokens)
    (negative : Bool) :
    Cuts Stops (Decimal.signed negative text) (signTokens negative ++ tokens) := by
  cases negative with
  | false => exact cuts
  | true =>
    have minus : Cuts Anything ['-'] [.minus] := cuts_symbol (by decide) (by decide) (by decide) rfl
    exact minus.append cuts fun _ _ => trivial

theorem cuts_magnitude {mantissa : Nat} {exponent : Int} (encodes : Decimal.Encodes mantissa exponent) :
    Cuts Stops (Decimal.magnitudeChars mantissa exponent)
      [.number (Float.ofBits (UInt64.ofNat (Decimal.bitsOf mantissa exponent)))] := by
  have read := Decimal.read?_magnitudeChars encodes
  have numerals : ∀ d ∈ Decimal.magnitudeChars mantissa exponent, isNumeral d = true := by
    intro d mem
    rw [isNumeral, Bool.or_eq_true, beq_iff_eq]
    exact Decimal.mem_plain mem
  obtain ⟨d, others, begins, digit⟩ : ∃ d others,
      Decimal.magnitudeChars mantissa exponent = d :: others ∧ d.isDigit = true :=
    Decimal.plain_eq_cons _ _
  rw [begins] at read numerals ⊢
  exact cuts_number (numerals d List.mem_cons_self)
    (fun e mem => numerals e (List.mem_cons_of_mem d mem)) read

theorem cuts_literal (v : Float) : Cuts Stops (Decimal.shortestChars v) (literalTokens v) := by
  simp only [Decimal.shortestChars, literalTokens]
  by_cases finite : v.isFinite = true
  · obtain ⟨mantissa, exponent, parts, encodes, _⟩ := Decimal.ofFloat_of_isFinite finite
    rw [parts]
    exact cuts_signed (cuts_magnitude encodes) _
  · by_cases infinite : v.isInf = true
    · rw [Decimal.ofFloat_of_isInf infinite]
      exact cuts_signed (cuts_name (by decide) (by decide) (by decide) (by decide)) _
    · rw [Decimal.ofFloat_of_not_number finite infinite]
      exact cuts_name (by decide) (by decide) (by decide) (by decide)

theorem literalTokens_of_isMagnitude {v : Float} (magnitude : IsMagnitude v) :
    literalTokens v = [.number v] := by
  obtain ⟨finite, unsigned⟩ := magnitude
  obtain ⟨mantissa, exponent, parts, _, bits⟩ := Decimal.ofFloat_of_isFinite finite
  rw [literalTokens, parts, decide_eq_false (Nat.not_le.mpr unsigned)]
  dsimp only
  rw [bits, Nat.mod_eq_of_lt unsigned, UInt64.ofNat_toNat, Float.ofBits_toBits]
  rfl

theorem literalTokens_of_isInf {v : Float} (infinite : v.isInf = true)
    (unsigned : v.toBits.toNat < Decimal.signPlace) : literalTokens v = [.identifier "inf"] := by
  rw [literalTokens, Decimal.ofFloat_of_isInf infinite, decide_eq_false (Nat.not_le.mpr unsigned)]
  rfl

theorem length_literalTokens_pos (v : Float) : 0 < (literalTokens v).length := by
  simp only [literalTokens]
  split <;> simp

/-- A literal is printed as itself only if it is a magnitude. -/
theorem literalTokens_eq_iff {v : Float} : literalTokens v = [.number v] ↔ IsMagnitude v := by
  refine ⟨fun same => ?_, literalTokens_of_isMagnitude⟩
  simp only [literalTokens] at same
  by_cases finite : v.isFinite = true
  · refine ⟨finite, ?_⟩
    by_contra signed
    obtain ⟨mantissa, exponent, parts, _⟩ := Decimal.ofFloat_of_isFinite finite
    rw [parts, decide_eq_true (Nat.le_of_not_lt signed)] at same
    have := congrArg List.length same
    simp [signTokens] at this
  · by_cases infinite : v.isInf = true
    · rw [Decimal.ofFloat_of_isInf infinite] at same
      have last := congrArg List.getLast? same
      simp at last
    · rw [Decimal.ofFloat_of_not_number finite infinite] at same
      simp at same

/-! ### Printed trees -/

theorem cuts_operator (op : BinaryOp) : Cuts Anything [op.symbol] [op.token] := by
  cases op <;> exact cuts_symbol (by decide) (by decide) (by decide) rfl

theorem cuts_sign (sign : Sign) : Cuts Anything [sign.symbol] [sign.token] := by
  cases sign <;> exact cuts_symbol (by decide) (by decide) (by decide) rfl

theorem cuts_function (f : Function) : Cuts Stops f.name.toList [.identifier f.name] := by
  cases f <;> exact cuts_name (by decide) (by decide) (by decide) (by decide)

/-- A text between parentheses. -/
theorem cuts_enclosed {text : List Char} {tokens : List Token} (cuts : Cuts Stops text tokens) :
    Cuts Anything ('(' :: (text ++ [')'])) (.openParen :: (tokens ++ [.closeParen])) := by
  have opener : Cuts Anything ['('] [.openParen] :=
    cuts_symbol (by decide) (by decide) (by decide) rfl
  have closer : Cuts Anything [')'] [.closeParen] :=
    cuts_symbol (by decide) (by decide) (by decide) rfl
  refine opener.append (cuts.append closer fun after _ => ?_) fun _ _ => trivial
  rintro c rest ⟨⟩
  exact Or.inr (Or.inr rfl)

theorem cuts_chars (t : Expr) : Cuts Stops t.chars (t.spelled literalTokens) := by
  induction t with
  | literal v => exact cuts_literal v
  | «variable» v =>
    cases v <;> exact cuts_name (by decide) (by decide) (by decide) (by decide)
  | group inner ih => exact (cuts_enclosed ih).mono fun _ _ => trivial
  | signed sign operand ih => exact (cuts_sign sign).append ih fun _ _ => trivial
  | binary op left right ihl ihr =>
    have behind := cuts_blank.append ihr fun _ _ => trivial
    have operator := (cuts_operator op).append behind fun _ _ => trivial
    refine ihl.append (cuts_blank.append operator fun _ _ => trivial) fun after _ => ?_
    rintro c rest ⟨⟩
    exact Or.inl rfl
  | call f argument ih =>
    refine ((cuts_function f).append (cuts_enclosed ih) fun after _ => ?_).mono fun _ _ => trivial
    rintro c rest ⟨⟩
    exact Or.inr (Or.inl rfl)

/-- The text of every tree is cut into its tokens. -/
theorem lex_chars (t : Expr) :
    ∃ ts, lex t.chars = .ok ts ∧ ts.map Lexeme.token = t.spelled literalTokens := by
  obtain ⟨ts, eq, cut⟩ := cuts_chars t 0 [] (by rintro c rest ⟨⟩)
  refine ⟨ts, ?_, eq⟩
  rw [List.append_nil, lexFrom] at cut
  rw [lex, cut]
  exact congrArg Except.ok (List.append_nil ts)

/-! ### Trees and their tokens -/

theorem spelled_congr {a b : Float → List Token} {t : Expr} (same : ∀ v ∈ t.literals, a v = b v) :
    t.spelled a = t.spelled b := by
  induction t with
  | literal v => exact same v List.mem_cons_self
  | «variable» v => cases v <;> rfl
  | group inner ih => rw [spelled, spelled, ih same]
  | signed sign operand ih => rw [spelled, spelled, ih same]
  | binary op left right ihl ihr =>
    rw [spelled, spelled, ihl fun v mem => same v (List.mem_append_left _ mem),
      ihr fun v mem => same v (List.mem_append_right _ mem)]
  | call f argument ih => rw [spelled, spelled, ih same]

/-- A literal takes one token in the tokens of a tree and at least one in any other spelling. -/
theorem length_tokens_le {a : Float → List Token} (some_token : ∀ v, 0 < (a v).length) (t : Expr) :
    t.tokens.length ≤ (t.spelled a).length := by
  simp only [tokens]
  induction t with
  | literal v => exact some_token v
  | «variable» v => cases v <;> exact Nat.le_refl 1
  | group inner ih =>
    simp only [spelled, List.length_cons, List.length_append]
    omega
  | signed sign operand ih =>
    simp only [spelled, List.length_cons]
    omega
  | binary op left right ihl ihr =>
    simp only [spelled, List.length_cons, List.length_append]
    omega
  | call f argument ih =>
    simp only [spelled, List.length_cons, List.length_append]
    omega

/-- A spelling of a tree is its tokens only if it is at every literal. -/
theorem spelled_eq_tokens {a : Float → List Token} (some_token : ∀ v, 0 < (a v).length) {t : Expr}
    (same : t.spelled a = t.tokens) : ∀ v ∈ t.literals, a v = [.number v] := by
  simp only [tokens] at same
  induction t with
  | literal v =>
    intro w mem
    obtain rfl := List.mem_singleton.mp mem
    exact same
  | «variable» v =>
    intro w mem
    contradiction
  | group inner ih => exact ih (List.append_cancel_right (List.cons.inj same).2)
  | signed sign operand ih => exact ih (List.cons.inj same).2
  | binary op left right ihl ihr =>
    rw [spelled, spelled] at same
    have left_le := length_tokens_le some_token left
    have right_le := length_tokens_le some_token right
    -- Neither operand may take more tokens than in the tree, since both together do not.
    have size := congrArg List.length same
    simp only [List.length_append, List.length_cons] at size
    simp only [tokens] at left_le right_le
    obtain ⟨lefts, rights⟩ := List.append_inj same (by omega)
    intro v mem
    rcases List.mem_append.mp mem with mem | mem
    · exact ihl lefts v mem
    · exact ihr (List.cons.inj rights).2 v mem
  | call f argument ih =>
    exact ih (List.append_cancel_right (List.cons.inj (List.cons.inj same).2).2)

theorem number_mem_tokens {v : Float} {t : Expr} (mem : v ∈ t.literals) : .number v ∈ t.tokens := by
  simp only [tokens]
  induction t with
  | literal w =>
    obtain rfl := List.mem_singleton.mp mem
    exact List.mem_cons_self
  | «variable» w => contradiction
  | group inner ih => exact List.mem_cons_of_mem _ (List.mem_append_left _ (ih mem))
  | signed sign operand ih => exact List.mem_cons_of_mem _ (ih mem)
  | binary op left right ihl ihr =>
    rcases List.mem_append.mp mem with mem | mem
    · exact List.mem_append_left _ (ihl mem)
    · exact List.mem_append_right _ (List.mem_cons_of_mem _ (ihr mem))
  | call f argument ih =>
    exact List.mem_cons_of_mem _ (List.mem_cons_of_mem _ (List.mem_append_left _ (ih mem)))

/-! ### Round trip -/

/-- A tree that the parser may return for a text whose numbers do not overflow. -/
structure Canonical (t : Expr) : Prop where
  literals : ∀ v ∈ t.literals, IsMagnitude v
  shaped : t.PrecedenceShaped
  nesting : t.nesting ≤ 256

/-- Printing and parsing give back the canonical trees and no others. -/
theorem parse_chars_iff (t : Expr) : parse t.chars = .ok t ↔ t.Canonical := by
  obtain ⟨ts, cut, printed⟩ := lex_chars t
  constructor
  · intro parsed
    obtain ⟨_, found, parsed⟩ := parse_eq_ok.mp parsed
    rw [cut] at found
    cases found
    obtain ⟨written, shaped, room⟩ := parseTokens_sound parsed
    refine ⟨fun v mem => ?_, shaped, room⟩
    rw [printed] at written
    exact literalTokens_eq_iff.mp (spelled_eq_tokens length_literalTokens_pos written v mem)
  · rintro ⟨magnitudes, shaped, room⟩
    have written : t.spelled literalTokens = t.tokens :=
      spelled_congr fun v mem => literalTokens_of_isMagnitude (magnitudes v mem)
    exact parse_eq_ok.mpr ⟨ts, cut, parseTokens_tokens shaped room (printed.trans written)⟩

theorem literals_of_parse {text : List Char} {t : Expr} (parsed : parse text = .ok t) :
    ∀ v ∈ t.literals, v.toBits.toNat ≤ Decimal.infinityBits := by
  intro v mem
  obtain ⟨ts, cut, parsed⟩ := parse_eq_ok.mp parsed
  obtain ⟨written, _, _⟩ := parseTokens_sound parsed
  refine lexFrom_number cut ?_
  rw [written]
  exact number_mem_tokens mem

theorem isFinite_or_isInf {v : Float} (le : v.toBits.toNat ≤ Decimal.infinityBits) :
    (v.isFinite = true ∨ v.isInf = true) ∧ v.toBits.toNat < Decimal.signPlace := by
  have unsigned : v.toBits.toNat < Decimal.signPlace :=
    Nat.lt_of_le_of_lt le (by decide : Decimal.infinityBits < Decimal.signPlace)
  rw [Decimal.isFinite_iff, Decimal.isInf_iff, Nat.mod_eq_of_lt unsigned]
  exact ⟨Nat.lt_or_eq_of_le le, unsigned⟩

theorem not_isInf_of_isFinite {v : Float} (finite : v.isFinite = true) : v.isInf = false := by
  rw [Bool.eq_false_iff]
  intro infinite
  rw [Decimal.isFinite_iff] at finite
  rw [Decimal.isInf_iff] at infinite
  omega

/-- A printed infinity is a name, which the parser does not know. -/
theorem parse_chars_of_isInf {t : Expr} (shaped : t.PrecedenceShaped) (room : t.nesting ≤ maxDepth)
    (literals : ∀ v ∈ t.literals, v.toBits.toNat ≤ Decimal.infinityBits)
    (infinite : ∃ v ∈ t.literals, v.isInf = true) :
    parse t.chars = .error (.unsupported (.identifier "inf")) := by
  obtain ⟨ts, cut, printed⟩ := lex_chars t
  have written : t.spelled literalTokens = t.spelled (leaf Float.isInf) := by
    refine spelled_congr fun v mem => ?_
    obtain ⟨finite | infinite, unsigned⟩ := isFinite_or_isInf (literals v mem)
    · rw [literalTokens_of_isMagnitude ⟨finite, unsigned⟩, leaf, not_isInf_of_isFinite finite]
      rfl
    · rw [literalTokens_of_isInf infinite unsigned, leaf, infinite]
      rfl
  have refused : t.literals.any Float.isInf = true := List.any_eq_true.mpr infinite
  rw [parse, cut]
  dsimp only
  rw [parseTokens_spelled shaped room (printed.trans written), behind, if_pos refused]

/-- Printing and parsing are inverse on the trees the parser returns, and only on them. The text of
a tree is parsed as that tree exactly if the tree is canonical. A tree that was parsed is canonical,
except that a number too large for its size is infinite; then its text is refused for the name that
the infinity is printed as. -/
theorem parse_toText :
    (∀ t : Expr, parse t.toText.toList = .ok t ↔ t.Canonical) ∧
      ∀ text t, parse text = .ok t →
        t.PrecedenceShaped ∧ t.nesting ≤ 256 ∧
        (∀ v ∈ t.literals, (v.isFinite = true ∨ v.isInf = true) ∧ v.toBits.toNat < Decimal.signPlace) ∧
        ((∃ v ∈ t.literals, v.isInf = true) → ∃ refusal : Unsupported,
          parse t.toText.toList = .error (.unsupported refusal) ∧
            refusal.message = "unknown identifier 'inf'") := by
  have chars : ∀ t : Expr, t.toText.toList = t.chars := fun t => String.toList_ofList
  simp only [chars]
  refine ⟨parse_chars_iff, fun text t parsed => ?_⟩
  obtain ⟨_, _, parsed_tokens⟩ := parse_eq_ok.mp parsed
  obtain ⟨_, shaped, room⟩ := parseTokens_sound parsed_tokens
  have literals := literals_of_parse parsed
  refine ⟨shaped, room, fun v mem => isFinite_or_isInf (literals v mem), fun infinite => ?_⟩
  exact ⟨_, parse_chars_of_isInf shaped room literals infinite, rfl⟩

end PointScope.Expr
