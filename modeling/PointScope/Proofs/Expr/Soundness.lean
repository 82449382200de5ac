import PointScope.Proofs.Expr.Steps

/-! What the parser returns is written with the tokens it took, has the shape that precedence
leaves, and nests no deeper than allowed. The induction is on the number of tokens: a step calls
the others on fewer tokens, or on the same ones in a fixed order. -/
namespace PointScope.Expr

/-- A tree was read from tokens at a depth and left the tokens `rest`. -/
structure Reads (depth : Nat) (source : List Token) (t : Expr) (rest : List Lexeme) : Prop where
  tokens : source = t.tokens ++ rest.map Lexeme.token
  shaped : t.PrecedenceShaped
  nesting : depth + t.nesting ≤ maxDepth

def SignedSound (n : Nat) : Prop := ∀ ⦃end_ depth ts t rest⦄, ts.length < n → depth ≤ maxDepth →
  readSigned end_ depth ts = .ok (t, rest) →
    Reads depth (ts.map Lexeme.token) t rest ∧ t.operator? = none

def BinarySound (n : Nat) : Prop := ∀ ⦃end_ depth least ts t rest⦄, ts.length < n →
  depth ≤ maxDepth → readBinary end_ depth least ts = .ok (t, rest) →
    Reads depth (ts.map Lexeme.token) t rest ∧ t.BindsFrom least ∧ Ends least rest

def OperatorsSound (n : Nat) : Prop := ∀ ⦃end_ depth least left ts t rest⦄, ts.length < n →
  left.PrecedenceShaped → depth + left.nesting ≤ maxDepth → left.BindsFrom least →
  Precedes left ts → readOperators end_ depth least left ts = .ok (t, rest) →
    Reads depth (left.tokens ++ ts.map Lexeme.token) t rest ∧ t.BindsFrom least ∧ Ends least rest

/-- A list of arguments is not empty, and one that is a single tree was read as that tree. -/
def ArgumentListSound (n : Nat) : Prop := ∀ ⦃end_ depth ts args rest⦄, ts.length < n →
  depth ≤ maxDepth → readArgumentList end_ depth ts = .ok (args, rest) →
    args ≠ [] ∧ ∀ argument, args = [argument] → Reads depth (ts.map Lexeme.token) argument rest

theorem plain_fewer {P : List Lexeme → Prop}
    {step : Except Error (α × { rest : List Lexeme // P rest })}
    (h : plain step = .ok (found, rest)) : P rest := by
  cases step with
  | error e => simp [plain, Except.map] at h
  | ok pair =>
    simp only [plain, Except.map, Except.ok.injEq, Prod.mk.injEq] at h
    exact h.2 ▸ pair.2.property

theorem bind_ok {m : Except ε α} {k : α → Except ε β} {value : β}
    (h : m.bind k = .ok value) : ∃ x, m = .ok x ∧ k x = .ok value := by
  cases m with
  | error e => contradiction
  | ok x => exact ⟨x, rfl, h⟩

theorem map_ok {m : Except ε α} {k : α → β} {value : β}
    (h : m.map k = .ok value) : ∃ x, m = .ok x ∧ k x = value := by
  cases m with
  | error e => contradiction
  | ok x => exact ⟨x, rfl, Except.ok.inj h⟩

theorem readArguments_single {n : Nat} (lists : ArgumentListSound n) (short : ts.length < n)
    (bound : depth ≤ maxDepth) (h : readArguments end_ depth ts = .ok ([argument], rest)) :
    Reads depth (ts.map Lexeme.token) argument rest := by
  cases ts with
  | nil => simp [readArguments_nil] at h
  | cons t behind =>
    by_cases closes : t.token = .closeParen
    · simp [readArguments_close closes] at h
    · rw [readArguments_list closes] at h
      exact (lists short bound h).2 argument rfl

theorem bareName_ok (h : bareName name = .ok t) :
    t.tokens = [.identifier name] ∧ t.PrecedenceShaped ∧ t.nesting = 0 ∧ t.operator? = none := by
  simp only [bareName] at h
  split at h
  · cases h; exact ⟨by simp [tokens, spelled, *], trivial, rfl, rfl⟩
  · split at h
    · cases h; exact ⟨by simp [tokens, spelled, *], trivial, rfl, rfl⟩
    · split at h <;> contradiction

theorem application_ok (h : application name args = .ok t) :
    ∃ f argument, f.name = name ∧ args = [argument] ∧ t = .call f argument := by
  simp only [application] at h
  split at h
  · contradiction
  · rename_i f found
    split at h
    · rename_i argument
      exact ⟨f, argument, Function.ofName?_eq_some found, rfl, (Except.ok.inj h).symm⟩
    · contradiction

theorem readPrimary_sound {n : Nat} (binary : BinarySound n) (lists : ArgumentListSound n)
    (short : rest.length < n) (bound : depth ≤ maxDepth)
    (h : readPrimary end_ depth next rest = .ok (t, last)) :
    Reads depth (next.token :: rest.map Lexeme.token) t last ∧ t.operator? = none := by
  cases token : next.token
  case number v =>
    rw [readPrimary_number token] at h
    cases h
    exact ⟨⟨rfl, trivial, by simpa [nesting] using bound⟩, rfl⟩
  case identifier name =>
    by_cases opens : ∃ opener arguments, rest = opener :: arguments ∧ opener.token = .openParen
    · obtain ⟨opener, arguments, rfl, opener_token⟩ := opens
      rw [readPrimary_call token opener_token] at h
      obtain ⟨deeper, entered, h⟩ := bind_ok h
      obtain ⟨room, rfl⟩ := enter_ok.mp entered
      obtain ⟨⟨args, behind⟩, read, h⟩ := bind_ok h
      obtain ⟨after, closed, h⟩ := bind_ok h
      obtain ⟨tree, applied, pair⟩ := map_ok h
      cases pair
      obtain ⟨f, argument, rfl, rfl, rfl⟩ := application_ok applied
      obtain ⟨closer, rfl, closer_token⟩ := readClosing_ok.mp closed
      simp only [List.length_cons] at short
      have inner := readArguments_single lists (by omega) room read
      refine ⟨⟨?_, inner.shaped, ?_⟩, rfl⟩
      · simp [tokens, spelled, opener_token, inner.tokens, closer_token]
      · have := inner.nesting
        simp only [nesting]
        omega
    · rw [readPrimary_name token fun opener behind eq opener_token =>
        opens ⟨opener, behind, eq, opener_token⟩] at h
      obtain ⟨tree, named, pair⟩ := map_ok h
      cases pair
      obtain ⟨written, shaped, flat, atomic⟩ := bareName_ok named
      exact ⟨⟨by rw [written]; rfl, shaped, by omega⟩, atomic⟩
  case openParen =>
    rw [readPrimary_group token] at h
    obtain ⟨deeper, entered, h⟩ := bind_ok h
    obtain ⟨room, rfl⟩ := enter_ok.mp entered
    obtain ⟨⟨inner, behind⟩, read, h⟩ := bind_ok h
    obtain ⟨after, closed, pair⟩ := map_ok h
    cases pair
    obtain ⟨closer, rfl, closer_token⟩ := readClosing_ok.mp closed
    obtain ⟨inner_reads, _, _⟩ := binary short room read
    refine ⟨⟨?_, inner_reads.shaped, ?_⟩, rfl⟩
    · simp [tokens, spelled, inner_reads.tokens, closer_token]
    · have := inner_reads.nesting
      simp only [nesting]
      omega
  all_goals
    rw [readPrimary_refused (by simp [token]) (by simp [token]) (by simp [token])] at h
    contradiction

theorem readSigned_sound {n : Nat} (signed : SignedSound n) (binary : BinarySound n)
    (lists : ArgumentListSound n) : SignedSound (n + 1) := by
  intro end_ depth ts t rest short bound h
  cases ts with
  | nil => simp [readSigned_nil] at h
  | cons next behind =>
    simp only [List.length_cons, Nat.add_lt_add_iff_right] at short
    cases sign : next.token.sign? with
    | none =>
      rw [readSigned_primary sign] at h
      exact readPrimary_sound binary lists short bound h
    | some found =>
      rw [readSigned_sign sign] at h
      obtain ⟨deeper, entered, h⟩ := bind_ok h
      obtain ⟨room, rfl⟩ := enter_ok.mp entered
      obtain ⟨⟨operand, last⟩, read, pair⟩ := map_ok h
      cases pair
      obtain ⟨inner, atomic⟩ := signed short room read
      refine ⟨⟨?_, ⟨atomic, inner.shaped⟩, ?_⟩, rfl⟩
      · simp [tokens, spelled, inner.tokens, Token.eq_of_sign? sign]
      · have := inner.nesting
        simp only [nesting]
        omega

theorem readOperators_sound {n : Nat} (binary : BinarySound n) (operators : OperatorsSound n) :
    OperatorsSound (n + 1) := by
  intro end_ depth least left ts t rest short shaped bound binds precedes h
  cases ts with
  | nil =>
    rw [readOperators_nil] at h
    cases h
    exact ⟨⟨rfl, shaped, bound⟩, binds, fun op next => by simp [nextOperator?] at next⟩
  | cons next behind =>
    simp only [List.length_cons, Nat.add_lt_add_iff_right] at short
    by_cases foreign : ∃ symbol, next.token = .foreign symbol
    · obtain ⟨symbol, token⟩ := foreign
      simp [readOperators_foreign token] at h
    · cases found : next.token.binaryOp? with
      | none =>
        rw [readOperators_other (fun symbol token => foreign ⟨symbol, token⟩) found] at h
        cases h
        exact ⟨⟨rfl, shaped, bound⟩, binds, fun op eq => by simp [nextOperator?, found] at eq⟩
      | some op =>
        by_cases loose : op.precedence < least
        · rw [readOperators_looser found loose] at h
          cases h
          refine ⟨⟨rfl, shaped, bound⟩, binds, fun op' eq => ?_⟩
          simp only [nextOperator?, found, Option.some.injEq] at eq
          exact eq ▸ loose
        · rw [readOperators_operator found (Nat.le_of_not_lt loose)] at h
          obtain ⟨⟨right, after⟩, read, h⟩ := bind_ok h
          have fewer : after.length < behind.length := plain_fewer read
          obtain ⟨inner, inner_binds, inner_ends⟩ := binary short (by omega) read
          -- The right operand took every operator above `op`, so the tree may stand before the next.
          have continues : Precedes (.binary op left right) after := fun op' eq =>
            bindsFrom_binary.mpr (Nat.lt_succ_iff.mp (inner_ends op' eq))
          have := inner.nesting
          have joined_shaped : (Expr.binary op left right).PrecedenceShaped :=
            ⟨precedes op found, inner_binds, shaped, inner.shaped⟩
          obtain ⟨whole, whole_binds, whole_ends⟩ := operators (by omega) joined_shaped
            (by simp only [nesting]; omega)
            (bindsFrom_binary.mpr (Nat.le_of_not_lt loose)) continues h
          refine ⟨⟨?_, whole.shaped, whole.nesting⟩, whole_binds, whole_ends⟩
          rw [← whole.tokens]
          simp [tokens, spelled, inner.tokens, Token.eq_of_binaryOp? found]

theorem readBinary_sound {n : Nat} (signed : SignedSound n) (operators : OperatorsSound n) :
    BinarySound n := by
  intro end_ depth least ts t rest short bound h
  rw [readBinary_eq] at h
  obtain ⟨⟨left, mid⟩, read, h⟩ := bind_ok h
  have fewer : mid.length < ts.length := plain_fewer read
  obtain ⟨first, atomic⟩ := signed short bound read
  have binds := bindsFrom_of_operator?_eq_none atomic
  obtain ⟨whole, whole_binds, whole_ends⟩ := operators (by omega) first.shaped first.nesting
    (binds least) (fun op _ => binds op.precedence) h
  exact ⟨⟨first.tokens.trans whole.tokens, whole.shaped, whole.nesting⟩, whole_binds, whole_ends⟩

theorem readArgumentList_sound {n : Nat} (binary : BinarySound (n + 1))
    (lists : ArgumentListSound n) : ArgumentListSound (n + 1) := by
  intro end_ depth ts args rest short bound h
  rw [readArgumentList_eq] at h
  obtain ⟨⟨first, behind⟩, read, h⟩ := bind_ok h
  have fewer : behind.length < ts.length := plain_fewer read
  have reads := (binary short bound read).1
  cases behind with
  | nil =>
    cases h
    exact ⟨by simp, by rintro _ ⟨⟩; exact reads⟩
  | cons t behind =>
    simp only [List.length_cons] at fewer
    simp only [readOthers] at h
    split at h
    · obtain ⟨⟨others, last⟩, read, pair⟩ := map_ok h
      cases pair
      have some_others := (lists (by omega) bound read).1
      exact ⟨by simp, fun argument single => absurd (List.cons.inj single).2 some_others⟩
    · cases h
      exact ⟨by simp, by rintro _ ⟨⟩; exact reads⟩

/-- All functions of the parser are sound on token lists of any length below `n`. -/
theorem parser_sound (n : Nat) :
    SignedSound n ∧ OperatorsSound n ∧ BinarySound n ∧ ArgumentListSound n := by
  induction n with
  | zero =>
    exact ⟨fun _ _ _ _ _ short => absurd short (Nat.not_lt_zero _),
      fun _ _ _ _ _ _ _ short => absurd short (Nat.not_lt_zero _),
      fun _ _ _ _ _ _ short => absurd short (Nat.not_lt_zero _),
      fun _ _ _ _ _ short => absurd short (Nat.not_lt_zero _)⟩
  | succ n ih =>
    obtain ⟨signed, operators, binary, lists⟩ := ih
    have signed' := readSigned_sound signed binary lists
    have operators' := readOperators_sound binary operators
    have binary' := readBinary_sound signed' operators'
    exact ⟨signed', operators', binary', readArgumentList_sound binary' lists⟩

/-- A whole token list that is accepted is the tokens of the tree. -/
theorem parseTokens_sound (h : parseTokens end_ ts = .ok t) :
    ts.map Lexeme.token = t.tokens ∧ t.PrecedenceShaped ∧ t.nesting ≤ maxDepth := by
  have binary := (parser_sound (ts.length + 1)).2.2.1
  rw [parseTokens_eq] at h
  obtain ⟨⟨tree, rest⟩, read, h⟩ := bind_ok h
  cases rest with
  | cons t behind => contradiction
  | nil =>
  cases h
  have reads := (binary (Nat.lt_succ_self _) (Nat.zero_le _) read).1
  have nesting := reads.nesting
  exact ⟨by simpa using reads.tokens, reads.shaped, by omega⟩

end PointScope.Expr
