import PointScope.Proofs.Expr.Scanning
import PointScope.Proofs.Expr.Soundness

/-! Where the parser puts the blame. Each step of the parser sees the tokens that it takes and the one behind
them, and what it answers is settled by what it sees. A step that refuses refuses at the last token it has
seen, so a text stays refused in the same way whatever stands behind that token. -/
namespace PointScope.Expr

/-- What stands at a column: a token, or the end of the text. -/
structure Mark where
  token? : Option Token
  column : Nat

def Lexeme.mark (t : Lexeme) : Mark := ⟨some t.token, t.column⟩

/-- The tokens and the end behind them. -/
def marks (end_ : Nat) (ts : List Lexeme) : List Mark := ts.map Lexeme.mark ++ [⟨none, end_⟩]

/-- The marks begin with those of `seen`, and `next` comes behind them. -/
def Sees (seen : List Mark) (next : Mark) (end_ : Nat) (ts : List Lexeme) : Prop :=
  seen ++ [next] <+: marks end_ ts

abbrev Step (α : Type) := Nat → List Lexeme → Except Error (α × List Lexeme)

/-- A step takes the tokens that it sees but for the last one, or refuses at the last one. On all tokens
that begin with those it has seen it does the same. -/
structure Prompt (step : Step α) (end_ : Nat) (ts : List Lexeme) : Prop where
  taken : ∀ a rest, step end_ ts = .ok (a, rest) →
    ∃ seen next, Sees seen next end_ ts ∧ ∀ e us, Sees seen next e us →
      ∃ behind, step e us = .ok (a, behind) ∧ marks e us = seen ++ marks e behind
  refused : ∀ c fault, step end_ ts = .error (.syntaxError c fault) →
    ∃ seen next, (Sees seen next end_ ts ∧ next.column = c) ∧ ∀ e us, Sees seen next e us →
      step e us = .error (.syntaxError c fault)

variable {end_ e depth least c n : Nat} {t u : Lexeme} {ts us rest behind : List Lexeme}
  {seen seen' : List Mark} {next next' m : Mark} {step step' : Step α} {fault : SyntaxFault}

/-! ### What is seen -/

theorem marks_cons : marks end_ (t :: rest) = t.mark :: marks end_ rest := rfl

theorem token_of_mark (same : u.mark = t.mark) : u.token = t.token :=
  Option.some.inj (Mark.mk.inj same).1

theorem column_of_mark (same : u.mark = t.mark) : u.column = t.column :=
  (Mark.mk.inj same).2

theorem exists_sees (end_ : Nat) (ts : List Lexeme) : ∃ next, Sees [] next end_ ts := by
  cases ts with
  | nil => exact ⟨_, List.prefix_refl _⟩
  | cons t rest => exact ⟨t.mark, List.prefix_append [t.mark] _⟩

theorem sees_cons : Sees (m :: seen) next end_ ts ↔
    ∃ t rest, ts = t :: rest ∧ t.mark = m ∧ Sees seen next end_ rest := by
  cases ts with
  | nil => simp [Sees, marks]
  | cons t rest =>
    rw [Sees, marks_cons, List.cons_append, List.cons_prefix_cons]
    constructor
    · rintro ⟨rfl, sees⟩
      exact ⟨t, rest, rfl, rfl, sees⟩
    · rintro ⟨_, _, ⟨⟩, mark, sees⟩
      exact ⟨mark.symm, sees⟩

theorem nextColumn_of_sees (sees : Sees [] next end_ ts) : nextColumn end_ ts = next.column := by
  cases ts with
  | nil =>
    obtain ⟨rfl, -⟩ := List.cons_prefix_cons.mp sees
    rfl
  | cons t rest =>
    obtain ⟨rfl, -⟩ := List.cons_prefix_cons.mp sees
    rfl

theorem sees_append (taken : marks end_ ts = seen ++ marks end_ rest) :
    Sees (seen ++ seen') next end_ ts ↔ Sees seen' next end_ rest := by
  rw [Sees, taken, List.append_assoc, List.prefix_append_right_inj]
  rfl

/-- What is seen first is seen wherever the same is seen behind it. -/
theorem Sees.first (first : Sees seen next end_ ts) (further : Sees (seen ++ seen') next' end_ ts)
    (elsewhere : Sees (seen ++ seen') next' e us) : Sees seen next e us := by
  apply List.IsPrefix.trans _ elsewhere
  apply List.prefix_of_prefix_length_le first further
  simp only [List.length_append, List.length_singleton]
  omega

/-! ### Prompt steps -/

/-- An answer that rests on no token. -/
theorem Prompt.constant (answer : Except Error α)
    (blameless : ∀ c fault, answer ≠ .error (.syntaxError c fault)) (end_ : Nat) (ts : List Lexeme) :
    Prompt (fun _ us => answer.map (·, us)) end_ ts := by
  constructor
  · intro a rest given
    obtain ⟨value, rfl, same⟩ := map_ok given
    cases same
    obtain ⟨next, sees⟩ := exists_sees end_ ts
    exact ⟨[], next, sees, fun e us _ => ⟨us, rfl, rfl⟩⟩
  · intro c fault given
    cases answer with
    | ok value => cases given
    | error other =>
      cases given
      exact absurd rfl (blameless c fault)

theorem Prompt.give (value : α) (end_ : Nat) (ts : List Lexeme) :
    Prompt (fun _ us => .ok (value, us)) end_ ts :=
  Prompt.constant (.ok value) (fun _ _ other => nomatch other) end_ ts

theorem Prompt.unsupported (what : Unsupported) (end_ : Nat) (ts : List Lexeme) :
    Prompt (fun _ _ => (.error (.unsupported what) : Except Error (α × List Lexeme))) end_ ts :=
  Prompt.constant (.error (.unsupported what)) (fun _ _ other => nomatch other) end_ ts

/-- A refusal at the token that comes next. -/
theorem Prompt.refusal (fault : SyntaxFault) (end_ : Nat) (ts : List Lexeme) :
    Prompt (fun e us => (.error (.syntaxError (nextColumn e us) fault) : Except Error (α × List Lexeme)))
      end_ ts := by
  constructor
  · intro a rest given
    cases given
  · intro c fault given
    cases given
    obtain ⟨next, sees⟩ := exists_sees end_ ts
    refine ⟨[], next, ⟨sees, (nextColumn_of_sees sees).symm⟩, ?_⟩
    intro e us sees'
    rw [nextColumn_of_sees sees, nextColumn_of_sees sees']

theorem Prompt.of_eq (prompt : Prompt step' end_ ts) (same : ∀ e us, step e us = step' e us) :
    Prompt step end_ ts := by
  have steps : step = step' := funext₂ same
  exact steps ▸ prompt

/-- A step may look at the token that comes next before it chooses what to do. -/
theorem Prompt.of_sees (prompt : Prompt step' end_ ts) (sees : Sees [] m end_ ts)
    (same : ∀ e us, Sees [] m e us → step e us = step' e us) : Prompt step end_ ts := by
  constructor
  · intro a rest given
    rw [same end_ ts sees] at given
    obtain ⟨seen, next, here, elsewhere⟩ := prompt.taken a rest given
    refine ⟨seen, next, here, ?_⟩
    intro e us there
    rw [same e us (sees.first here there)]
    exact elsewhere e us there
  · intro c fault given
    rw [same end_ ts sees] at given
    obtain ⟨seen, next, ⟨here, column⟩, elsewhere⟩ := prompt.refused c fault given
    refine ⟨seen, next, ⟨here, column⟩, ?_⟩
    intro e us there
    rw [same e us (sees.first here there)]
    exact elsewhere e us there

theorem Prompt.of_nil (prompt : Prompt step' end_ []) (same : ∀ e, step e [] = step' e []) :
    Prompt step end_ [] := by
  refine prompt.of_sees (m := ⟨none, end_⟩) (List.prefix_refl _) ?_
  intro e us sees
  cases us with
  | nil => exact same e
  | cons u behind =>
    obtain ⟨other, -⟩ := List.cons_prefix_cons.mp sees
    cases other

theorem Prompt.of_cons (prompt : Prompt step' end_ (t :: rest))
    (same : ∀ e u behind, u.mark = t.mark → step e (u :: behind) = step' e (u :: behind)) :
    Prompt step end_ (t :: rest) := by
  refine prompt.of_sees (m := t.mark) (List.prefix_append [t.mark] _) ?_
  intro e us sees
  cases us with
  | nil =>
    obtain ⟨other, -⟩ := List.cons_prefix_cons.mp sees
    cases other
  | cons u behind =>
    obtain ⟨mark, -⟩ := List.cons_prefix_cons.mp sees
    exact same e u behind mark.symm

/-- A step may take a token first. -/
theorem Prompt.of_behind (prompt : Prompt step' end_ rest)
    (same : ∀ e u behind, u.mark = t.mark → step e (u :: behind) = step' e behind) :
    Prompt step end_ (t :: rest) := by
  constructor
  · intro a last given
    rw [same end_ t rest rfl] at given
    obtain ⟨seen, next, here, elsewhere⟩ := prompt.taken a last given
    refine ⟨t.mark :: seen, next, sees_cons.mpr ⟨t, rest, rfl, rfl, here⟩, ?_⟩
    intro e us there
    obtain ⟨u, behind, rfl, mark, there⟩ := sees_cons.mp there
    obtain ⟨left, taken, passed⟩ := elsewhere e behind there
    refine ⟨left, (same e u behind mark).trans taken, ?_⟩
    rw [marks_cons, mark, passed, List.cons_append]
  · intro c fault given
    rw [same end_ t rest rfl] at given
    obtain ⟨seen, next, ⟨here, column⟩, elsewhere⟩ := prompt.refused c fault given
    refine ⟨t.mark :: seen, next, ⟨sees_cons.mpr ⟨t, rest, rfl, rfl, here⟩, column⟩, ?_⟩
    intro e us there
    obtain ⟨u, behind, rfl, mark, there⟩ := sees_cons.mp there
    exact (same e u behind mark).trans (elsewhere e behind there)

/-- A step that has taken some tokens takes them too wherever the same comes next behind them. -/
theorem Prompt.resume {a : α} (prompt : Prompt step end_ ts) (given : step end_ ts = .ok (a, rest)) :
    ∃ seen, ∀ seen' next', Sees seen' next' end_ rest → Sees (seen ++ seen') next' end_ ts ∧
      ∀ e us, Sees (seen ++ seen') next' e us → ∃ behind, step e us = .ok (a, behind) ∧
        marks e us = seen ++ marks e behind ∧ Sees seen' next' e behind := by
  obtain ⟨seen, next, here, elsewhere⟩ := prompt.taken a rest given
  obtain ⟨_, same, passed⟩ := elsewhere end_ ts here
  cases given.symm.trans same
  refine ⟨seen, fun seen' next' behind_here => ?_⟩
  have further := (sees_append passed).mpr behind_here
  refine ⟨further, ?_⟩
  intro e us there
  obtain ⟨behind, taken, passed⟩ := elsewhere e us (here.first further there)
  exact ⟨behind, taken, passed, (sees_append passed).mp there⟩

/-- One step behind another. The second one begins with the token that the first one has seen last. -/
theorem Prompt.bind {before : Step α} {after : α → Step β} (prompt : Prompt before end_ ts)
    (prompts : ∀ a rest, before end_ ts = .ok (a, rest) → Prompt (after a) end_ rest) :
    Prompt (fun e us => (before e us).bind fun found => after found.1 e found.2) end_ ts := by
  constructor
  · intro b last given
    obtain ⟨⟨a, rest⟩, first, second⟩ := bind_ok given
    obtain ⟨seen, resume⟩ := prompt.resume first
    obtain ⟨seen', next, here, elsewhere⟩ := (prompts a rest first).taken b last second
    obtain ⟨further, resume⟩ := resume seen' next here
    refine ⟨seen ++ seen', next, further, ?_⟩
    intro e us there
    obtain ⟨behind, taken, passed, there⟩ := resume e us there
    obtain ⟨left, taken', passed'⟩ := elsewhere e behind there
    refine ⟨left, ?_, ?_⟩
    · rw [taken]
      exact taken'
    · rw [passed, passed', List.append_assoc]
  · intro c fault given
    cases first : before end_ ts with
    | error other =>
      rw [first] at given
      cases given
      obtain ⟨seen, next, here, elsewhere⟩ := prompt.refused c fault first
      refine ⟨seen, next, here, ?_⟩
      intro e us there
      rw [elsewhere e us there]
      rfl
    | ok found =>
      obtain ⟨a, rest⟩ := found
      rw [first] at given
      obtain ⟨seen, resume⟩ := prompt.resume first
      obtain ⟨seen', next, ⟨here, column⟩, elsewhere⟩ := (prompts a rest first).refused c fault given
      obtain ⟨further, resume⟩ := resume seen' next here
      refine ⟨seen ++ seen', next, ⟨further, column⟩, ?_⟩
      intro e us there
      obtain ⟨behind, taken, -, there⟩ := resume e us there
      rw [taken]
      exact elsewhere e behind there

theorem Prompt.map {before : Step α} (prompt : Prompt before end_ ts) (f : α → β) :
    Prompt (fun e us => (before e us).map fun found => (f found.1, found.2)) end_ ts := by
  have both := prompt.bind fun a rest _ => Prompt.give (f a) end_ rest
  refine both.of_eq ?_
  intro e us
  cases before e us <;> rfl

/-! ### The steps of the parser -/

theorem Prompt.enter {after : Nat → Step α} (depth : Nat)
    (prompt : ∀ deeper, Prompt (after deeper) end_ ts) :
    Prompt (fun e us => (enter e depth us).bind fun deeper => after deeper e us) end_ ts := by
  by_cases full : maxDepth ≤ depth
  · refine (Prompt.refusal .nestedTooDeeply end_ ts).of_eq ?_
    intro e us
    rw [enter_full full]
    rfl
  · refine (prompt (depth + 1)).of_eq ?_
    intro e us
    rw [enter_eq (Nat.lt_of_not_le full)]
    rfl

theorem Prompt.closing {after : Step α}
    (prompt : ∀ rest, readClosing end_ ts = .ok rest → Prompt after end_ rest) :
    Prompt (fun e us => (readClosing e us).bind fun last => after e last) end_ ts := by
  cases ts with
  | nil => exact (Prompt.refusal .missingClose end_ []).of_nil fun e => rfl
  | cons t rest =>
    by_cases closes : t.token = .closeParen
    · refine (prompt rest (readClosing_cons closes)).of_behind ?_
      intro e u behind mark
      rw [readClosing_cons ((token_of_mark mark).trans closes)]
      rfl
    · refine (Prompt.refusal .missingClose end_ (t :: rest)).of_cons ?_
      intro e u behind mark
      rw [readClosing_other (token_of_mark mark ▸ closes)]
      rfl

theorem bareName_blameless (name : String) (c : Nat) (fault : SyntaxFault) :
    bareName name ≠ .error (.syntaxError c fault) := by
  unfold bareName
  split
  · simp
  · split
    · simp
    · split <;> simp

theorem application_blameless (name : String) (args : List Expr) (c : Nat) (fault : SyntaxFault) :
    application name args ≠ .error (.syntaxError c fault) := by
  unfold application
  split
  · simp
  · split <;> simp

theorem refusal_eq (mark : u.mark = t.mark) : refusal u = refusal t := by
  rw [refusal, refusal, token_of_mark mark, column_of_mark mark]

theorem refusal_prompt (t : Lexeme) (end_ : Nat) (rest : List Lexeme) :
    Prompt (fun _ _ => (.error (refusal t) : Except Error (α × List Lexeme))) end_ (t :: rest) := by
  unfold refusal
  split
  · exact Prompt.unsupported _ end_ (t :: rest)
  · refine (Prompt.refusal (.unexpectedToken t.token.kind) end_ (t :: rest)).of_cons ?_
    intro e u behind mark
    rw [nextColumn, column_of_mark mark]

def SignedPrompt (n : Nat) : Prop := ∀ end_ depth ts, ts.length < n →
  Prompt (fun e us => readSigned e depth us) end_ ts

def OperatorsPrompt (n : Nat) : Prop := ∀ end_ depth least left ts, ts.length < n →
  Prompt (fun e us => readOperators e depth least left us) end_ ts

def BinaryPrompt (n : Nat) : Prop := ∀ end_ depth least ts, ts.length < n →
  Prompt (fun e us => readBinary e depth least us) end_ ts

def ArgumentListPrompt (n : Nat) : Prop := ∀ end_ depth ts, ts.length < n →
  Prompt (fun e us => readArgumentList e depth us) end_ ts

theorem readArguments_prompt (lists : ArgumentListPrompt n) (depth : Nat) (short : ts.length < n) :
    Prompt (fun e us => readArguments e depth us) end_ ts := by
  cases ts with
  | nil => exact (Prompt.refusal .unexpectedEnd end_ []).of_nil fun e => readArguments_nil
  | cons t rest =>
    by_cases closes : t.token = .closeParen
    · refine (Prompt.give [] end_ (t :: rest)).of_cons ?_
      intro e u behind mark
      exact readArguments_close ((token_of_mark mark).trans closes)
    · refine (lists end_ depth (t :: rest) short).of_cons ?_
      intro e u behind mark
      exact readArguments_list (token_of_mark mark ▸ closes)

theorem readOthers_prompt (lists : ArgumentListPrompt n) (depth : Nat) (first : Expr)
    (short : ts.length < n) :
    Prompt (fun e us => readOthers e depth first us) end_ ts := by
  have alone := Prompt.give [first] end_ ts
  cases ts with
  | nil => exact alone.of_nil fun e => rfl
  | cons t rest =>
    rw [List.length_cons] at short
    by_cases comma : t.token = .comma
    · have more := (lists end_ depth rest (by omega)).map fun others => first :: others
      refine more.of_behind ?_
      intro e u behind mark
      rw [readOthers, token_of_mark mark, comma]
    · refine alone.of_cons ?_
      intro e u behind mark
      rw [← token_of_mark mark] at comma
      rw [readOthers]
      split
      · contradiction
      · rfl

theorem readNamed_prompt (lists : ArgumentListPrompt n) (depth : Nat) (name : String)
    (short : rest.length < n) :
    Prompt (fun e us => readNamed e depth name us) end_ rest := by
  have bare := Prompt.constant _ (bareName_blameless name) end_ rest
  cases rest with
  | nil => exact bare.of_nil fun e => rfl
  | cons t arguments =>
    rw [List.length_cons] at short
    by_cases opens : t.token = .openParen
    · have applied := fun args last =>
        Prompt.constant _ (application_blameless name args) end_ last
      have call := Prompt.enter depth fun deeper =>
        (readArguments_prompt lists deeper (Nat.lt_of_succ_lt short)).bind fun args behind _ =>
          Prompt.closing fun last _ => applied args last
      refine call.of_behind ?_
      intro e u behind mark
      rw [readNamed, token_of_mark mark, opens]
    · refine bare.of_cons ?_
      intro e u behind mark
      rw [← token_of_mark mark] at opens
      rw [readNamed]
      split
      · contradiction
      · rfl

/-- An operand without a sign. Every token that begins none is refused before it is taken. -/
theorem readUnsigned_prompt (binary : BinaryPrompt n) (lists : ArgumentListPrompt n) (depth : Nat)
    (sign : t.token.sign? = none) (short : rest.length < n) :
    Prompt (fun e us => readSigned e depth us) end_ (t :: rest) := by
  have primary : ∀ {e u behind}, u.mark = t.mark →
      readSigned e depth (u :: behind) = readPrimary e depth u behind := by
    intro e u behind mark
    rw [← token_of_mark mark] at sign
    exact readSigned_primary sign
  cases token : t.token
  case number value =>
    refine (Prompt.give (Expr.literal value) end_ rest).of_behind ?_
    intro e u behind mark
    exact (primary mark).trans (readPrimary_number ((token_of_mark mark).trans token))
  case identifier name =>
    refine (readNamed_prompt lists depth name short).of_behind ?_
    intro e u behind mark
    exact (primary mark).trans (readPrimary_named ((token_of_mark mark).trans token))
  case openParen =>
    have group := Prompt.enter depth fun deeper =>
      (binary end_ deeper 0 rest short).bind fun inner behind _ =>
        Prompt.closing fun last _ => Prompt.give (Expr.group inner) end_ last
    refine group.of_behind ?_
    intro e u behind mark
    exact (primary mark).trans (readPrimary_group ((token_of_mark mark).trans token))
  all_goals
    refine (refusal_prompt t end_ rest).of_cons ?_
    intro e u behind mark
    rw [primary mark, ← refusal_eq mark]
    rw [← token_of_mark mark] at token
    exact readPrimary_refused (by simp [token]) (by simp [token]) (by simp [token])

theorem readSigned_prompt (signed : SignedPrompt n) (binary : BinaryPrompt n)
    (lists : ArgumentListPrompt n) : SignedPrompt (n + 1) := by
  intro end_ depth ts short
  cases ts with
  | nil => exact (Prompt.refusal .unexpectedEnd end_ []).of_nil fun e => readSigned_nil
  | cons t rest =>
    rw [List.length_cons, Nat.add_lt_add_iff_right] at short
    cases sign : t.token.sign? with
    | none => exact readUnsigned_prompt binary lists depth sign short
    | some found =>
      have operand := Prompt.enter depth fun deeper =>
        (signed end_ deeper rest short).map (Expr.signed found)
      refine operand.of_behind ?_
      intro e u behind mark
      rw [← token_of_mark mark] at sign
      exact readSigned_sign sign

theorem readOperators_prompt (binary : BinaryPrompt n) (operators : OperatorsPrompt n) :
    OperatorsPrompt (n + 1) := by
  intro end_ depth least left ts short
  have nothing := Prompt.give left end_ ts
  cases ts with
  | nil => exact nothing.of_nil fun e => readOperators_nil
  | cons t rest =>
    rw [List.length_cons, Nat.add_lt_add_iff_right] at short
    by_cases foreign : ∃ symbol, t.token = .foreign symbol
    · obtain ⟨symbol, token⟩ := foreign
      refine (Prompt.unsupported (.operator symbol) end_ (t :: rest)).of_cons ?_
      intro e u behind mark
      exact readOperators_foreign ((token_of_mark mark).trans token)
    · cases found : t.token.binaryOp? with
      | none =>
        refine nothing.of_cons ?_
        intro e u behind mark
        rw [← token_of_mark mark] at foreign found
        exact readOperators_other (fun symbol token => foreign ⟨symbol, token⟩) found
      | some op =>
        by_cases loose : op.precedence < least
        · refine nothing.of_cons ?_
          intro e u behind mark
          rw [← token_of_mark mark] at found
          exact readOperators_looser found loose
        · have both := (binary end_ depth (op.precedence + 1) rest short).bind
            fun right last read => operators end_ depth least (.binary op left right) last
              (Nat.lt_trans (plain_fewer read) short)
          refine both.of_behind ?_
          intro e u behind mark
          rw [← token_of_mark mark] at found
          exact readOperators_operator found (Nat.le_of_not_lt loose)

theorem readBinary_prompt (signed : SignedPrompt n) (operators : OperatorsPrompt n) :
    BinaryPrompt n := by
  intro end_ depth least ts short
  have both := (signed end_ depth ts short).bind fun left rest read =>
    operators end_ depth least left rest (Nat.lt_trans (plain_fewer read) short)
  exact both.of_eq fun e us => readBinary_eq

theorem readArgumentList_prompt (binary : BinaryPrompt (n + 1)) (lists : ArgumentListPrompt n) :
    ArgumentListPrompt (n + 1) := by
  intro end_ depth ts short
  have both := (binary end_ depth 0 ts short).bind fun first rest read =>
    readOthers_prompt lists depth first (Nat.lt_of_lt_of_le (plain_fewer read) (Nat.le_of_lt_succ short))
  exact both.of_eq fun e us => readArgumentList_eq

/-- All functions of the parser are prompt on token lists of any length below `n`. -/
theorem parser_prompt (n : Nat) :
    SignedPrompt n ∧ OperatorsPrompt n ∧ BinaryPrompt n ∧ ArgumentListPrompt n := by
  induction n with
  | zero =>
    exact ⟨fun _ _ _ short => absurd short (Nat.not_lt_zero _),
      fun _ _ _ _ _ short => absurd short (Nat.not_lt_zero _),
      fun _ _ _ _ short => absurd short (Nat.not_lt_zero _),
      fun _ _ _ short => absurd short (Nat.not_lt_zero _)⟩
  | succ n ih =>
    obtain ⟨signed, operators, binary, lists⟩ := ih
    have signed' := readSigned_prompt signed binary lists
    have operators' := readOperators_prompt binary operators
    have binary' := readBinary_prompt signed' operators'
    exact ⟨signed', operators', binary', readArgumentList_prompt binary' lists⟩

theorem whole_prompt (tree : Expr) (end_ : Nat) (ts : List Lexeme) :
    Prompt (fun _ us => (whole tree us).map (·, us)) end_ ts := by
  cases ts with
  | nil => exact (Prompt.give tree end_ []).of_nil fun e => rfl
  | cons t rest =>
    refine (Prompt.refusal .trailingInput end_ (t :: rest)).of_cons ?_
    intro e u behind mark
    rfl

/-- A whole token list is refused at the last token that was seen of it. -/
theorem parseTokens_refused (refused : parseTokens end_ ts = .error (.syntaxError c fault)) :
    ∃ seen next, (Sees seen next end_ ts ∧ next.column = c) ∧ ∀ e us, Sees seen next e us →
      parseTokens e us = .error (.syntaxError c fault) := by
  have binary := (parser_prompt (ts.length + 1)).2.2.1 end_ 0 0 ts (Nat.lt_succ_self _)
  have prompt := binary.bind fun tree rest _ => whole_prompt tree end_ rest
  have same : ∀ e us, parseTokens e us = .error (.syntaxError c fault) ↔
      ((readBinary e 0 0 us).bind fun found => (whole found.1 found.2).map (·, found.2)) =
        .error (.syntaxError c fault) := by
    intro e us
    rw [parseTokens_eq]
    cases readBinary e 0 0 us with
    | error other => simp [Except.bind]
    | ok found => cases read : whole found.1 found.2 <;> simp [Except.bind, Except.map, read]
  obtain ⟨seen, next, here, elsewhere⟩ := prompt.refused c fault ((same end_ ts).mp refused)
  refine ⟨seen, next, here, ?_⟩
  intro e us there
  exact (same e us).mpr (elsewhere e us there)

/-! ### Texts -/

/-- The marks up to a column. -/
def upTo (c : Nat) (ms : List Mark) : List Mark := ms.filter (·.column ≤ c)

theorem marks_ascend {text : List Char} (cut : lex text = .ok ts) :
    (marks text.length ts).Pairwise fun m m' => m.column < m'.column := by
  have scans := lex_eq_ok_iff.mp cut
  rw [marks, List.pairwise_append]
  refine ⟨?_, List.pairwise_singleton _ _, ?_⟩
  · rw [List.pairwise_map]
    refine scans.pairwise.imp_of_mem ?_
    intro t u t_mem _ apart
    exact Nat.lt_of_lt_of_le (Nat.lt_add_of_pos_right (scans.inside t_mem).1) apart
  · intro m mem m' mem'
    obtain ⟨t, t_mem, rfl⟩ := List.mem_map.mp mem
    obtain rfl := List.mem_singleton.mp mem'
    obtain ⟨some_width, inside⟩ := scans.inside t_mem
    exact Nat.lt_of_lt_of_le (Nat.lt_add_of_pos_right some_width) inside

/-- Marks in order begin with those up to a column. -/
theorem upTo_begins {ms : List Mark} (ascend : ms.Pairwise fun m m' => m.column < m'.column) (c : Nat) :
    upTo c ms <+: ms := by
  induction ms with
  | nil => exact List.nil_prefix
  | cons m ms ih =>
    obtain ⟨beyond, ascend⟩ := List.pairwise_cons.mp ascend
    by_cases early : m.column ≤ c
    · have kept : upTo c (m :: ms) = m :: upTo c ms := List.filter_cons_of_pos (decide_eq_true early)
      rw [kept]
      exact List.cons_prefix_cons.mpr ⟨rfl, ih ascend⟩
    · have none : upTo c (m :: ms) = [] := by
        apply List.filter_eq_nil_iff.mpr
        intro m' mem
        rw [decide_eq_true_iff]
        rcases List.mem_cons.mp mem with rfl | mem
        · exact early
        · have := beyond m' mem
          omega
      rw [none]
      exact List.nil_prefix

/-- Of marks in order, those up to the column of one are those that come before it and itself. -/
theorem upTo_eq {ms : List Mark} (ascend : ms.Pairwise fun m m' => m.column < m'.column)
    (begins : seen ++ [next] <+: ms) : upTo next.column ms = seen ++ [next] := by
  obtain ⟨after, rfl⟩ := begins
  obtain ⟨ascend, -, apart⟩ := List.pairwise_append.mp ascend
  have last := (List.pairwise_append.mp ascend).2.2
  have all : (seen ++ [next]).filter (·.column ≤ next.column) = seen ++ [next] := by
    apply List.filter_eq_self.mpr
    intro m mem
    rw [decide_eq_true_iff]
    rcases List.mem_append.mp mem with mem | mem
    · exact Nat.le_of_lt (last m mem next List.mem_cons_self)
    · rw [List.mem_singleton.mp mem]
  have none : after.filter (·.column ≤ next.column) = [] := by
    apply List.filter_eq_nil_iff.mpr
    intro m mem
    rw [decide_eq_true_iff, Nat.not_le]
    exact apart next (List.mem_append_right seen List.mem_cons_self) m mem
  rw [upTo, List.filter_append, all, none, List.append_nil]

/-- A text that is cut into tokens and refused at a column has a token there, or ends there, and every text
with the same tokens at the same columns up to there is refused in the same way. -/
theorem parse_blames {text : List Char} (cut : lex text = .ok ts)
    (refused : parse text = .error (.syntaxError c fault)) :
    (∃! m, m ∈ marks text.length ts ∧ m.column = c) ∧
      ∀ other us, lex other = .ok us →
        upTo c (marks other.length us) = upTo c (marks text.length ts) →
          parse other = .error (.syntaxError c fault) := by
  rw [parse, cut] at refused
  obtain ⟨seen, next, ⟨here, rfl⟩, elsewhere⟩ := parseTokens_refused refused
  have ascend := marks_ascend cut
  have mem := here.subset (List.mem_append_right seen List.mem_cons_self)
  constructor
  · refine ⟨next, ⟨mem, rfl⟩, ?_⟩
    rintro m ⟨mem', column⟩
    have distinct : ((marks text.length ts).map Mark.column).Nodup :=
      List.pairwise_map.mpr (ascend.imp Nat.ne_of_lt)
    exact List.inj_on_of_nodup_map distinct mem' mem column
  · intro other us cut' same
    have there := upTo_begins (marks_ascend cut') next.column
    rw [same, upTo_eq ascend here] at there
    rw [parse, cut']
    exact elsewhere other.length us there

/-- A parenthesis that was never opened is refused whatever stands behind it. -/
theorem parse_blames_unopened :
    (∃! m, m ∈ marks ['x', ')'].length [⟨.identifier "x", 0, 1⟩, ⟨.closeParen, 1, 1⟩] ∧ m.column = 1) ∧
      parse ['x', ')', '*', '('] = .error (.syntaxError 1 .trailingInput) :=
  have blames := parse_blames (show lex ['x', ')'] = .ok _ by cbv) (by cbv)
  ⟨blames.1, blames.2 _ [⟨.identifier "x", 0, 1⟩, ⟨.closeParen, 1, 1⟩, ⟨.star, 2, 1⟩, ⟨.openParen, 3, 1⟩]
    (by cbv) rfl⟩

end PointScope.Expr
