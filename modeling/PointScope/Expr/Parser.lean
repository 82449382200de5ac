import PointScope.Expr.Token

/-!
Expressions from tokens. Binary operators associate to the left, `*` and `/` bind tighter than `+`
and `-`, and a sign binds tighter than both. Each step returns what it read together with the
tokens behind it and the fact that they became fewer, which is why parsing ends.

`end_` is the column behind the text, where the end of the tokens is reported, and `depth` the
number of signs, parentheses and calls around the place.
-/

namespace PointScope.Expr

/-- How many signs, parentheses and calls may stand inside each other. -/
def maxDepth : Nat := 256

abbrev Fewer (ts : List Lexeme) := { rest : List Lexeme // rest.length < ts.length }

abbrev NoMore (ts : List Lexeme) := { rest : List Lexeme // rest.length ≤ ts.length }

def nextColumn (end_ : Nat) : List Lexeme → Nat
  | [] => end_
  | t :: _ => t.column

/-- The depth inside one more sign, parenthesis or call. A refusal is reported at the token that
comes next. -/
def enter (end_ depth : Nat) (ts : List Lexeme) : Except Error Nat :=
  if maxDepth < depth + 1 then .error (.syntaxError (nextColumn end_ ts) .nestedTooDeeply)
  else .ok (depth + 1)

def closing (end_ : Nat) : (ts : List Lexeme) → Except Error (Fewer ts)
  | [] => .error (.syntaxError end_ .missingClose)
  | t :: rest =>
    match t.token with
    | .closeParen => .ok ⟨rest, by simp⟩
    | _ => .error (.syntaxError t.column .missingClose)

def bareName (name : String) : Except Error Expr :=
  if name = "x" then .ok (.variable .x)
  else if name = "y" then .ok (.variable .y)
  else if (Function.ofName? name).isSome then .error (.unsupported (.functionWithoutCall name))
  else .error (.unsupported (.identifier name))

def application (name : String) (arguments : List Expr) : Except Error Expr :=
  match Function.ofName? name with
  | none => .error (.unsupported (.function name))
  | some f =>
    match arguments with
    | [argument] => .ok (.call f argument)
    | _ => .error (.unsupported (.argumentCount name))

mutual

/-- An operand and the operators behind it that bind at least as tightly as `least`. -/
def parseBinary (end_ depth least : Nat) (ts : List Lexeme) : Except Error (Expr × Fewer ts) :=
  match parseSigned end_ depth ts with
  | .error e => .error e
  | .ok (left, ⟨rest, _⟩) =>
    match parseOperators end_ depth least left rest with
    | .error e => .error e
    | .ok (tree, ⟨behind, _⟩) => .ok (tree, ⟨behind, by omega⟩)
termination_by (ts.length, 2)

/-- Operators and their right operands, gathered to the left. -/
def parseOperators (end_ depth least : Nat) (left : Expr) (ts : List Lexeme) :
    Except Error (Expr × NoMore ts) :=
  match ts with
  | [] => .ok (left, ⟨[], by simp⟩)
  | t :: rest =>
    match t.token with
    | .foreign symbol => .error (.unsupported (.operator symbol))
    | token =>
      match token.binaryOp? with
      | none => .ok (left, ⟨t :: rest, by simp⟩)
      | some op =>
        if op.precedence < least then .ok (left, ⟨t :: rest, by simp⟩)
        else
          match parseBinary end_ depth (op.precedence + 1) rest with
          | .error e => .error e
          | .ok (right, ⟨behind, _⟩) =>
            match parseOperators end_ depth least (.binary op left right) behind with
            | .error e => .error e
            | .ok (tree, ⟨last, _⟩) => .ok (tree, ⟨last, by simp only [List.length_cons]; omega⟩)
termination_by (ts.length, 0)
decreasing_by all_goals (simp_wf; omega)

/-- Signs and the operand that they stand before. -/
def parseSigned (end_ depth : Nat) (ts : List Lexeme) : Except Error (Expr × Fewer ts) :=
  match ts with
  | [] => .error (.syntaxError end_ .unexpectedEnd)
  | t :: rest =>
    match t.token.sign? with
    | none => parsePrimary end_ depth t rest
    | some sign =>
      match enter end_ depth rest with
      | .error e => .error e
      | .ok deeper =>
        match parseSigned end_ deeper rest with
        | .error e => .error e
        | .ok (operand, ⟨behind, _⟩) =>
          .ok (.signed sign operand, ⟨behind, by simp only [List.length_cons]; omega⟩)
termination_by (ts.length, 1)
decreasing_by all_goals (simp_wf; omega)

/-- A number, a name, a call or a parenthesised expression that begins with the token `t`. -/
def parsePrimary (end_ depth : Nat) (t : Lexeme) (rest : List Lexeme) :
    Except Error (Expr × Fewer (t :: rest)) :=
  match t.token with
  | .number value => .ok (.literal value, ⟨rest, by simp⟩)
  | .identifier name =>
    match rest with
    | [] => (bareName name).map (·, ⟨[], by simp⟩)
    | next :: arguments =>
      match next.token with
      | .openParen =>
        match enter end_ depth arguments with
        | .error e => .error e
        | .ok deeper =>
          match parseArguments end_ deeper arguments with
          | .error e => .error e
          | .ok (args, ⟨behind, _⟩) =>
            match closing end_ behind with
            | .error e => .error e
            | .ok ⟨last, _⟩ =>
              (application name args).map (·, ⟨last, by simp only [List.length_cons]; omega⟩)
      | _ => (bareName name).map (·, ⟨next :: arguments, by simp⟩)
  | .openParen =>
    match enter end_ depth rest with
    | .error e => .error e
    | .ok deeper =>
      match parseBinary end_ deeper 0 rest with
      | .error e => .error e
      | .ok (inner, ⟨behind, _⟩) =>
        match closing end_ behind with
        | .error e => .error e
        | .ok ⟨last, _⟩ => .ok (.group inner, ⟨last, by simp only [List.length_cons]; omega⟩)
  | .foreign symbol => .error (.unsupported (.operator symbol))
  | token => .error (.syntaxError t.column (.unexpectedToken token.kind))
termination_by (rest.length + 1, 0)
decreasing_by all_goals (simp_wf; omega)

/-- The arguments of a call up to its closing parenthesis, which stays. -/
def parseArguments (end_ depth : Nat) (ts : List Lexeme) :
    Except Error (List Expr × NoMore ts) :=
  match ts with
  | [] => .error (.syntaxError end_ .unexpectedEnd)
  | t :: rest =>
    match t.token with
    | .closeParen => .ok ([], ⟨t :: rest, by simp⟩)
    | _ => parseArgumentList end_ depth (t :: rest)
termination_by (ts.length, 4)

/-- At least one argument, and more behind commas. -/
def parseArgumentList (end_ depth : Nat) (ts : List Lexeme) :
    Except Error (List Expr × NoMore ts) :=
  match parseBinary end_ depth 0 ts with
  | .error e => .error e
  | .ok (first, ⟨[], _⟩) => .ok ([first], ⟨[], by simp⟩)
  | .ok (first, ⟨t :: behind, fewer⟩) =>
    match t.token with
    | .comma =>
      have : behind.length < ts.length := by simp only [List.length_cons] at fewer; omega
      match parseArgumentList end_ depth behind with
      | .error e => .error e
      | .ok (others, ⟨last, _⟩) =>
        .ok (first :: others, ⟨last, by omega⟩)
    | _ => .ok ([first], ⟨t :: behind, by omega⟩)
termination_by (ts.length, 3)

end

def parseTokens (end_ : Nat) (ts : List Lexeme) : Except Error Expr :=
  match parseBinary end_ 0 0 ts with
  | .error e => .error e
  | .ok (tree, ⟨[], _⟩) => .ok tree
  | .ok (_, ⟨t :: _, _⟩) => .error (.syntaxError t.column .trailingInput)

/-- The expression that a text is. The text is cut into tokens first, so a fault in a token wins
over one in the order of tokens. -/
def parse (text : List Char) : Except Error Expr :=
  match lex text with
  | .error e => .error e
  | .ok ts => parseTokens text.length ts

end PointScope.Expr
