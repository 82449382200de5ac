import PointScope.Proofs.Expr.Steps

/-! Every tree of the right shape is read back from its tokens. The statement is about a tree in
front of arbitrary further tokens and says that parsing goes on behind it as if the tree had been
read already, so that a chain of operators is one induction on the tree.

Some literals may be written as the identifier `inf`, as a printed infinity is. Parsing then stops
at the first of them, with the same refusal wherever it stands. -/
namespace PointScope.Expr

variable (bad : Float → Bool)

/-- A literal as a number, unless it is one that is written as an identifier. -/
def leaf (v : Float) : List Token := [if bad v then .identifier "inf" else .number v]

/-- What parsing gives behind a tree: nothing if one of its literals is no number. -/
def behind (t : Expr) (found : Except Error α) : Except Error α :=
  if t.literals.any bad then .error (.unsupported (.identifier "inf")) else found

/-- The tokens do not turn a name before them into a call. -/
def Uncalled (rest : List Lexeme) : Prop :=
  ∀ next others, rest = next :: others → next.token ≠ .openParen

/-- The tokens do not begin with an operator outside the language. -/
def Unforeign (rest : List Lexeme) : Prop :=
  ∀ next others symbol, rest = next :: others → next.token ≠ .foreign symbol

def SignedReads (t : Expr) : Prop := ∀ ⦃end_ depth front rest⦄, t.operator? = none →
  front.map Lexeme.token = t.spelled (leaf bad) → depth + t.nesting ≤ maxDepth → Uncalled rest →
    readSigned end_ depth (front ++ rest) = behind bad t (.ok (t, rest))

def BinaryReads (t : Expr) : Prop := ∀ ⦃end_ depth least front rest⦄,
  front.map Lexeme.token = t.spelled (leaf bad) → depth + t.nesting ≤ maxDepth →
  t.BindsFrom least → Uncalled rest → Unforeign rest → Precedes t rest →
    readBinary end_ depth least (front ++ rest) =
      behind bad t (readOperators end_ depth least t rest)

variable {bad} {t inner left right operand argument : Expr} {rest front : List Lexeme}

theorem behind_bind {found : Except Error α} {k : α → Except Error β} :
    (behind bad t found).bind k = behind bad t (found.bind k) := by
  simp only [behind]
  split <;> rfl

theorem behind_map {found : Except Error α} {k : α → β} :
    (behind bad t found).map k = behind bad t (found.map k) := by
  simp only [behind]
  split <;> rfl

theorem behind_binary {found : Except Error α} :
    behind bad left (behind bad right found) = behind bad (.binary op left right) found := by
  simp only [behind]
  simp only [literals, List.any_append, Bool.or_eq_true]
  by_cases hl : left.literals.any bad = true <;> by_cases hr : right.literals.any bad = true <;>
    simp [hl, hr]

theorem readOperators_ends (unforeign : Unforeign rest) (ends : Ends least rest) :
    readOperators end_ depth least t rest = .ok (t, rest) := by
  cases rest with
  | nil => exact readOperators_nil
  | cons next others =>
    cases found : next.token.binaryOp? with
    | none => exact readOperators_other (fun symbol => unforeign next others symbol rfl) found
    | some op => exact readOperators_looser found (ends op found)

/-- A closing parenthesis ends whatever stands before it. -/
theorem closing_ends {closer : Lexeme} (closes : closer.token = .closeParen) (rest : List Lexeme) :
    Uncalled (closer :: rest) ∧ Unforeign (closer :: rest) ∧ ∀ least, Ends least (closer :: rest) := by
  refine ⟨?_, ?_, ?_⟩
  · rintro _ _ ⟨⟩ opens
    rw [closes] at opens
    contradiction
  · rintro _ _ symbol ⟨⟩ foreign
    rw [closes] at foreign
    contradiction
  · intro least op next
    simp [nextOperator?, closes, Token.binaryOp?] at next

/-- Inside parentheses any tree is read whole. -/
theorem BinaryReads.closed (h : BinaryReads bad t)
    (written : front.map Lexeme.token = t.spelled (leaf bad)) (room : depth + t.nesting ≤ maxDepth)
    {closer : Lexeme} (closes : closer.token = .closeParen) :
    readBinary end_ depth 0 (front ++ closer :: rest) = behind bad t (.ok (t, closer :: rest)) := by
  obtain ⟨uncalled, unforeign, ends⟩ := closing_ends closes rest
  rw [h written room (bindsFrom_zero t) uncalled unforeign fun op next =>
    absurd (ends 0 op next) (Nat.not_lt_zero _), readOperators_ends unforeign (ends 0)]

theorem literal_reads (v : Float) : SignedReads bad (.literal v) := by
  intro end_ depth front rest _ written _ uncalled
  obtain ⟨next, others, rfl, token, none_behind⟩ := List.map_eq_cons_iff.mp written
  obtain rfl := List.map_eq_nil_iff.mp none_behind
  rw [List.cons_append, List.nil_append]
  by_cases named : bad v
  · rw [if_pos named] at token
    rw [readSigned_primary (by rw [token]; rfl), readPrimary_name token uncalled]
    simp [behind, literals, named, bareName, Function.ofName?, Function.all, Function.name,
      Except.map]
  · rw [if_neg named] at token
    rw [readSigned_primary (by rw [token]; rfl), readPrimary_number token]
    simp [behind, literals, named]

theorem variable_reads (v : Variable) : SignedReads bad (.variable v) := by
  intro end_ depth front rest _ written _ uncalled
  cases v <;>
  · obtain ⟨next, others, rfl, token, none_behind⟩ := List.map_eq_cons_iff.mp written
    obtain rfl := List.map_eq_nil_iff.mp none_behind
    rw [List.cons_append, List.nil_append, readSigned_primary (by rw [token]; rfl),
      readPrimary_name token uncalled]
    rfl

/-- Tokens between parentheses. -/
theorem enclosed {within : List Token}
    (h : front.map Lexeme.token = within ++ [.closeParen]) :
    ∃ between closer, front = between ++ [closer] ∧ between.map Lexeme.token = within ∧
      closer.token = .closeParen := by
  obtain ⟨between, last, rfl, written, ends⟩ := List.map_eq_append_iff.mp h
  obtain ⟨closer, others, rfl, token, none_behind⟩ := List.map_eq_cons_iff.mp ends
  obtain rfl := List.map_eq_nil_iff.mp none_behind
  exact ⟨between, closer, rfl, written, token⟩

theorem group_reads (ih : BinaryReads bad inner) : SignedReads bad (.group inner) := by
  intro end_ depth front rest _ written room _
  obtain ⟨opener, others, rfl, opens, written⟩ := List.map_eq_cons_iff.mp written
  obtain ⟨between, closer, rfl, written, closes⟩ := enclosed written
  simp only [nesting] at room
  rw [List.cons_append, List.append_assoc, List.singleton_append,
    readSigned_primary (by rw [opens]; rfl), readPrimary_group opens, enter_eq (by omega),
    Except.bind, ih.closed written (by omega) closes, behind_bind]
  simp only [Except.bind, readClosing_cons closes, Except.map]
  rfl

theorem signed_reads {sign : Sign} (shaped : (Expr.signed sign operand).PrecedenceShaped)
    (ih : SignedReads bad operand) : SignedReads bad (.signed sign operand) := by
  intro end_ depth front rest _ written room uncalled
  obtain ⟨next, others, rfl, token, written⟩ := List.map_eq_cons_iff.mp written
  simp only [nesting] at room
  rw [List.cons_append, readSigned_sign (by rw [token, Sign.sign?_token]), enter_eq (by omega),
    Except.bind, ih shaped.1 written (by omega) uncalled, behind_map]
  rfl

theorem readArguments_reads (ih : BinaryReads bad argument)
    (written : front.map Lexeme.token = argument.spelled (leaf bad))
    (room : depth + argument.nesting ≤ maxDepth) {closer : Lexeme}
    (closes : closer.token = .closeParen) :
    readArguments end_ depth (front ++ closer :: rest) =
      behind bad argument (.ok ([argument], closer :: rest)) := by
  have list : readArgumentList end_ depth (front ++ closer :: rest) =
      behind bad argument (.ok ([argument], closer :: rest)) := by
    rw [readArgumentList_eq, ih.closed written room closes, behind_bind]
    simp only [Except.bind, readOthers, closes]
  have first : ∀ v, ∃ token others, leaf bad v = token :: others ∧ token ≠ .closeParen :=
    fun v => ⟨_, [], rfl, by split <;> simp⟩
  obtain ⟨token, others, begins, ne⟩ := spelled_eq_cons first argument
  rw [begins] at written
  obtain ⟨next, others, rfl, rfl, _⟩ := List.map_eq_cons_iff.mp written
  rw [← list]
  exact readArguments_list ne

theorem call_reads {f : Function} (ih : BinaryReads bad argument) :
    SignedReads bad (.call f argument) := by
  intro end_ depth front rest _ written room _
  obtain ⟨name, others, rfl, named, written⟩ := List.map_eq_cons_iff.mp written
  obtain ⟨opener, others, rfl, opens, written⟩ := List.map_eq_cons_iff.mp written
  obtain ⟨between, closer, rfl, written, closes⟩ := enclosed written
  simp only [nesting] at room
  rw [List.cons_append, List.cons_append, List.append_assoc, List.singleton_append,
    readSigned_primary (by rw [named]; rfl), readPrimary_call named opens, enter_eq (by omega),
    Except.bind, readArguments_reads ih written (by omega) closes, behind_bind]
  simp only [Except.bind, readClosing_cons closes, application, Function.ofName?_name, Except.map]
  rfl

/-- An operand that is no operation leaves the rest to the operators behind it. -/
theorem SignedReads.binaryReads (h : SignedReads bad t) (atomic : t.operator? = none) :
    BinaryReads bad t := by
  intro end_ depth least front rest written room _ uncalled _ _
  rw [readBinary_eq, h atomic written room uncalled, behind_bind]
  rfl

theorem binary_reads {op : BinaryOp} (shaped : (Expr.binary op left right).PrecedenceShaped)
    (ihl : BinaryReads bad left) (ihr : BinaryReads bad right) :
    BinaryReads bad (.binary op left right) := by
  intro end_ depth least front rest written room binds uncalled unforeign precedes
  obtain ⟨left_binds, right_binds, _, _⟩ := shaped
  obtain ⟨front, back, rfl, left_written, written⟩ := List.map_eq_append_iff.mp written
  obtain ⟨next, back, rfl, token, right_written⟩ := List.map_eq_cons_iff.mp written
  have found : next.token.binaryOp? = some op := by rw [token, BinaryOp.binaryOp?_token]
  simp only [nesting] at room
  have operator_uncalled : Uncalled (next :: (back ++ rest)) := by
    rintro _ _ ⟨⟩ opens
    rw [opens] at found
    contradiction
  have operator_unforeign : Unforeign (next :: (back ++ rest)) := by
    rintro _ _ symbol ⟨⟩ foreign
    rw [foreign] at found
    contradiction
  have operator_precedes : Precedes left (next :: (back ++ rest)) := by
    intro op' eq
    simp only [nextOperator?, found, Option.some.injEq] at eq
    exact eq ▸ left_binds
  -- What may follow the operation binds no tighter than it, so the right operand ends there.
  have right_precedes : Precedes right rest := fun op' eq =>
    right_binds.mono (Nat.le_succ_of_le (bindsFrom_binary.mp (precedes op' eq)))
  have right_ends : Ends (op.precedence + 1) rest := fun op' eq =>
    Nat.lt_succ_of_le (bindsFrom_binary.mp (precedes op' eq))
  rw [List.append_assoc, List.cons_append,
    ihl left_written (by omega) (left_binds.mono (bindsFrom_binary.mp binds)) operator_uncalled
      operator_unforeign operator_precedes,
    readOperators_operator found (bindsFrom_binary.mp binds),
    ihr right_written (by omega) right_binds uncalled unforeign right_precedes,
    readOperators_ends unforeign right_ends, behind_bind]
  exact behind_binary

theorem tree_reads (bad : Float → Bool) (t : Expr) (shaped : t.PrecedenceShaped) :
    SignedReads bad t ∧ BinaryReads bad t := by
  have atomic : ∀ {t : Expr}, t.operator? = none → SignedReads bad t →
      SignedReads bad t ∧ BinaryReads bad t :=
    fun root reads => ⟨reads, reads.binaryReads root⟩
  induction t with
  | literal v => exact atomic rfl (literal_reads v)
  | «variable» v => exact atomic rfl (variable_reads v)
  | group inner ih => exact atomic rfl (group_reads (ih shaped).2)
  | signed sign operand ih => exact atomic rfl (signed_reads shaped (ih shaped.2).1)
  | binary op left right ihl ihr =>
    obtain ⟨_, _, left_shaped, right_shaped⟩ := id shaped
    exact ⟨fun _ _ _ _ root => by simp [operator?] at root,
      binary_reads shaped (ihl left_shaped).2 (ihr right_shaped).2⟩
  | call f argument ih => exact atomic rfl (call_reads (ih shaped).2)

/-- A whole text is read back from the tokens of its tree, up to the first literal that is no
number. -/
theorem parseTokens_spelled (shaped : t.PrecedenceShaped) (room : t.nesting ≤ maxDepth)
    (written : ts.map Lexeme.token = t.spelled (leaf bad)) :
    parseTokens end_ ts = behind bad t (.ok t) := by
  have read : readBinary end_ 0 0 (ts ++ []) = behind bad t (readOperators end_ 0 0 t []) :=
    (tree_reads bad t shaped).2 written (by omega) (bindsFrom_zero t) (by rintro _ _ ⟨⟩)
      (by rintro _ _ _ ⟨⟩) (by rintro op ⟨⟩)
  rw [List.append_nil, readOperators_nil] at read
  rw [parseTokens_eq, read, behind_bind]
  rfl

theorem parseTokens_tokens (shaped : t.PrecedenceShaped) (room : t.nesting ≤ maxDepth)
    (written : ts.map Lexeme.token = t.tokens) : parseTokens end_ ts = .ok t := by
  have none_bad : t.literals.any (fun _ => false) = false := by simp
  have read : parseTokens end_ ts = behind (fun _ => false) t (.ok t) :=
    parseTokens_spelled shaped room written
  rwa [behind, none_bad] at read

end PointScope.Expr
