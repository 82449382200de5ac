import PointScope.Proofs.Expr.Grammar

/-! The parser without the facts it carries for its termination. Each function gets the equation
that its body states, over plain token lists; everything later is proved from these equations. -/
namespace PointScope.Expr

/-- What a step of the parser read and the tokens behind it. -/
def plain {P : List Lexeme → Prop} (step : Except Error (α × { rest : List Lexeme // P rest })) :
    Except Error (α × List Lexeme) :=
  step.map fun found => (found.1, found.2.val)

def readBinary (end_ depth least : Nat) (ts : List Lexeme) := plain (parseBinary end_ depth least ts)

def readOperators (end_ depth least : Nat) (left : Expr) (ts : List Lexeme) :=
  plain (parseOperators end_ depth least left ts)

def readSigned (end_ depth : Nat) (ts : List Lexeme) := plain (parseSigned end_ depth ts)

def readPrimary (end_ depth : Nat) (t : Lexeme) (rest : List Lexeme) :=
  plain (parsePrimary end_ depth t rest)

def readArguments (end_ depth : Nat) (ts : List Lexeme) := plain (parseArguments end_ depth ts)

def readArgumentList (end_ depth : Nat) (ts : List Lexeme) :=
  plain (parseArgumentList end_ depth ts)

def readClosing (end_ : Nat) (ts : List Lexeme) : Except Error (List Lexeme) :=
  (closing end_ ts).map Subtype.val

/-- The operator at the front of tokens. -/
def nextOperator? : List Lexeme → Option BinaryOp
  | [] => none
  | t :: _ => t.token.binaryOp?

/-- The operator that follows, if any, has a precedence below `least`. -/
def Ends (least : Nat) (rest : List Lexeme) : Prop :=
  ∀ op, nextOperator? rest = some op → op.precedence < least

/-- The operator that follows, if any, may take the tree as its left operand. -/
def Precedes (t : Expr) (rest : List Lexeme) : Prop :=
  ∀ op, nextOperator? rest = some op → t.BindsFrom op.precedence

variable {end_ depth least : Nat} {left : Expr} {t : Lexeme} {rest ts : List Lexeme}

theorem readBinary_eq : readBinary end_ depth least ts =
    (readSigned end_ depth ts).bind fun (left, rest) =>
      readOperators end_ depth least left rest := by
  rw [readBinary, parseBinary]
  cases signed : parseSigned end_ depth ts with
  | error e => simp only [plain, readSigned, signed, Except.map, Except.bind]
  | ok found =>
    obtain ⟨left, mid, fewer⟩ := found
    simp only [plain, readSigned, readOperators, signed, Except.map, Except.bind]
    cases parseOperators end_ depth least left mid with
    | error e => rfl
    | ok found => rfl

theorem readOperators_nil : readOperators end_ depth least left [] = .ok (left, []) := by
  rw [readOperators, parseOperators]
  rfl

theorem readOperators_foreign (h : t.token = .foreign symbol) :
    readOperators end_ depth least left (t :: rest) = .error (.unsupported (.operator symbol)) := by
  rw [readOperators, parseOperators]
  simp only [h]
  rfl

theorem readOperators_other (foreign : ∀ symbol, t.token ≠ .foreign symbol)
    (h : t.token.binaryOp? = none) :
    readOperators end_ depth least left (t :: rest) = .ok (left, t :: rest) := by
  rw [readOperators, parseOperators]
  split
  · exact absurd ‹_› (foreign _)
  · rw [h]
    rfl

theorem readOperators_looser (h : t.token.binaryOp? = some op) (loose : op.precedence < least) :
    readOperators end_ depth least left (t :: rest) = .ok (left, t :: rest) := by
  rw [readOperators, parseOperators]
  split
  · simp_all [Token.binaryOp?]
  · rw [h]
    simp only [loose, if_true]
    rfl

theorem readOperators_operator (h : t.token.binaryOp? = some op) (tight : least ≤ op.precedence) :
    readOperators end_ depth least left (t :: rest) =
      (readBinary end_ depth (op.precedence + 1) rest).bind fun (right, behind) =>
        readOperators end_ depth least (.binary op left right) behind := by
  rw [readOperators, parseOperators]
  split
  · simp_all [Token.binaryOp?]
  · rw [h]
    simp only [if_neg (Nat.not_lt.mpr tight)]
    cases found : parseBinary end_ depth (op.precedence + 1) rest with
    | error e => simp only [plain, readBinary, found, Except.map, Except.bind]
    | ok pair =>
      obtain ⟨right, behind, fewer⟩ := pair
      simp only [plain, readBinary, readOperators, found, Except.map, Except.bind]
      cases parseOperators end_ depth least (.binary op left right) behind with
      | error e => rfl
      | ok found => rfl

theorem readSigned_nil :
    readSigned end_ depth [] = .error (.syntaxError end_ .unexpectedEnd) := by
  rw [readSigned, parseSigned]
  rfl

theorem readSigned_primary (h : t.token.sign? = none) :
    readSigned end_ depth (t :: rest) = readPrimary end_ depth t rest := by
  rw [readSigned, parseSigned]
  simp only [h]
  rfl

theorem readSigned_sign (h : t.token.sign? = some sign) :
    readSigned end_ depth (t :: rest) =
      (enter end_ depth rest).bind fun deeper =>
        (readSigned end_ deeper rest).map fun (operand, behind) => (.signed sign operand, behind) := by
  rw [readSigned, parseSigned]
  simp only [h]
  cases enter end_ depth rest with
  | error e => rfl
  | ok deeper =>
    simp only [Except.bind, readSigned]
    cases parseSigned end_ deeper rest with
    | error e => rfl
    | ok found => rfl

theorem readPrimary_number (h : t.token = .number v) :
    readPrimary end_ depth t rest = .ok (.literal v, rest) := by
  rw [readPrimary, parsePrimary]
  simp only [h]
  rfl

theorem readPrimary_name (h : t.token = .identifier name)
    (bare : ∀ next behind, rest = next :: behind → next.token ≠ .openParen) :
    readPrimary end_ depth t rest = (bareName name).map (·, rest) := by
  rw [readPrimary, parsePrimary]
  simp only [h]
  cases rest with
  | nil => cases bareName name <;> rfl
  | cons next behind =>
    have ne := bare next behind rfl
    dsimp only
    split
    · contradiction
    · cases bareName name <;> rfl

theorem readPrimary_call {next : Lexeme} {arguments : List Lexeme}
    (h : t.token = .identifier name) (opens : next.token = .openParen) :
    readPrimary end_ depth t (next :: arguments) =
      (enter end_ depth arguments).bind fun deeper =>
        (readArguments end_ deeper arguments).bind fun (args, behind) =>
          (readClosing end_ behind).bind fun last => (application name args).map (·, last) := by
  rw [readPrimary, parsePrimary]
  simp only [h, opens]
  cases enter end_ depth arguments with
  | error e => rfl
  | ok deeper =>
    simp only [Except.bind, readArguments, plain]
    cases parseArguments end_ deeper arguments with
    | error e => rfl
    | ok found =>
      obtain ⟨args, behind, fewer⟩ := found
      simp only [Except.map, readClosing]
      cases closing end_ behind with
      | error e => rfl
      | ok last => cases application name args <;> rfl

/-- What follows on a name: the arguments of a call, if a parenthesis opens. -/
def readNamed (end_ depth : Nat) (name : String) : List Lexeme → Except Error (Expr × List Lexeme)
  | [] => (bareName name).map (·, [])
  | next :: arguments =>
    match next.token with
    | .openParen =>
      (enter end_ depth arguments).bind fun deeper =>
        (readArguments end_ deeper arguments).bind fun (args, behind) =>
          (readClosing end_ behind).bind fun last => (application name args).map (·, last)
    | _ => (bareName name).map (·, next :: arguments)

theorem readPrimary_named {name : String} (named : t.token = .identifier name) :
    readPrimary end_ depth t rest = readNamed end_ depth name rest := by
  cases rest with
  | nil => exact readPrimary_name named fun next behind other => nomatch other
  | cons next arguments =>
    rw [readNamed]
    split
    · exact readPrimary_call named ‹_›
    · refine readPrimary_name named ?_
      rintro _ _ ⟨⟩
      assumption

theorem readPrimary_group (h : t.token = .openParen) :
    readPrimary end_ depth t rest =
      (enter end_ depth rest).bind fun deeper =>
        (readBinary end_ deeper 0 rest).bind fun (inner, behind) =>
          (readClosing end_ behind).map fun last => (.group inner, last) := by
  rw [readPrimary, parsePrimary]
  simp only [h]
  cases enter end_ depth rest with
  | error e => rfl
  | ok deeper =>
    simp only [Except.bind, readBinary, plain]
    cases parseBinary end_ deeper 0 rest with
    | error e => rfl
    | ok found =>
      obtain ⟨inner, behind, fewer⟩ := found
      simp only [Except.map, readClosing]
      cases closing end_ behind with
      | error e => rfl
      | ok last => rfl

/-- How a token that begins no operand is refused. -/
def refusal (t : Lexeme) : Error :=
  match t.token with
  | .foreign symbol => .unsupported (.operator symbol)
  | token => .syntaxError t.column (.unexpectedToken token.kind)

theorem readPrimary_refused (number : ∀ v, t.token ≠ .number v)
    (name : ∀ n, t.token ≠ .identifier n) (group : t.token ≠ .openParen) :
    readPrimary end_ depth t rest = .error (refusal t) := by
  rw [readPrimary, parsePrimary, refusal]
  cases token : t.token
  case number v => exact absurd token (number v)
  case identifier n => exact absurd token (name n)
  case openParen => exact absurd token group
  all_goals rfl

theorem readArguments_nil :
    readArguments end_ depth [] = .error (.syntaxError end_ .unexpectedEnd) := by
  rw [readArguments, parseArguments]
  rfl

theorem readArguments_close (h : t.token = .closeParen) :
    readArguments end_ depth (t :: rest) = .ok ([], t :: rest) := by
  rw [readArguments, parseArguments]
  simp only [h]
  rfl

theorem readArguments_list (h : t.token ≠ .closeParen) :
    readArguments end_ depth (t :: rest) = readArgumentList end_ depth (t :: rest) := by
  rw [readArguments, parseArguments]
  split
  · contradiction
  · rfl

/-- The arguments behind the first one: none, unless a comma follows. -/
def readOthers (end_ depth : Nat) (first : Expr) :
    List Lexeme → Except Error (List Expr × List Lexeme)
  | [] => .ok ([first], [])
  | t :: behind =>
    match t.token with
    | .comma => (readArgumentList end_ depth behind).map fun (others, last) => (first :: others, last)
    | _ => .ok ([first], t :: behind)

theorem readArgumentList_eq : readArgumentList end_ depth ts =
    (readBinary end_ depth 0 ts).bind fun (first, behind) =>
      readOthers end_ depth first behind := by
  rw [readArgumentList, parseArgumentList]
  simp only [readBinary, plain]
  cases parseBinary end_ depth 0 ts with
  | error e => rfl
  | ok found =>
    obtain ⟨first, behind, fewer⟩ := found
    cases behind with
    | nil => rfl
    | cons t behind =>
      simp only [Except.map, Except.bind, readOthers]
      cases token : t.token
      case comma =>
        simp only [readArgumentList, plain]
        cases parseArgumentList end_ depth behind with
        | error e => rfl
        | ok found => rfl
      all_goals rfl

theorem readClosing_ok : readClosing end_ ts = .ok rest ↔
    ∃ t, ts = t :: rest ∧ t.token = .closeParen := by
  cases ts with
  | nil => simp [readClosing, closing, Except.map]
  | cons t behind =>
    simp only [readClosing, closing]
    split
    · rename_i closes
      simp only [Except.map, Except.ok.injEq, List.cons.injEq]
      constructor
      · intro same
        exact ⟨t, ⟨rfl, same⟩, closes⟩
      · rintro ⟨_, ⟨_, same⟩, _⟩
        exact same
    · rename_i other
      simp only [Except.map, reduceCtorEq, List.cons.injEq, false_iff]
      rintro ⟨_, ⟨rfl, _⟩, closes⟩
      exact other closes

theorem readClosing_cons (closes : t.token = .closeParen) : readClosing end_ (t :: rest) = .ok rest :=
  readClosing_ok.mpr ⟨t, rfl, closes⟩

theorem readClosing_other (other : t.token ≠ .closeParen) :
    readClosing end_ (t :: rest) = .error (.syntaxError t.column .missingClose) := by
  rw [readClosing, closing]
  split
  · contradiction
  · rfl

theorem enter_ok {deeper : Nat} :
    enter end_ depth ts = .ok deeper ↔ depth < maxDepth ∧ deeper = depth + 1 := by
  simp only [enter]
  split
  · simp only [reduceCtorEq, false_iff, not_and]; omega
  · simp only [Except.ok.injEq]; omega

theorem enter_eq (room : depth < maxDepth) : enter end_ depth ts = .ok (depth + 1) :=
  enter_ok.mpr ⟨room, rfl⟩

theorem enter_full (full : maxDepth ≤ depth) :
    enter end_ depth ts = .error (.syntaxError (nextColumn end_ ts) .nestedTooDeeply) :=
  if_pos (Nat.lt_succ_of_le full)

/-- What a tree and the tokens behind it are as a whole text. -/
def whole (tree : Expr) : List Lexeme → Except Error Expr
  | [] => .ok tree
  | t :: _ => .error (.syntaxError t.column .trailingInput)

theorem parseTokens_eq : parseTokens end_ ts =
    (readBinary end_ 0 0 ts).bind fun (tree, rest) => whole tree rest := by
  simp only [parseTokens, readBinary, plain]
  split
  · simp only [*, Except.map, Except.bind]
  · simp only [*, Except.map, Except.bind, whole]
  · simp only [*, Except.map, Except.bind, whole]

end PointScope.Expr
