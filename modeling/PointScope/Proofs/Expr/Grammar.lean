import PointScope.Expr.Parser

/-! Which trees the parser may return, said without the parser: the tokens a tree is written with,
the shape that precedence and left association leave, and how deep its nodes stand inside each
other. -/
namespace PointScope.Expr

/-- The token an operator is written with. -/
def BinaryOp.token : BinaryOp → Token
  | .add => .plus
  | .sub => .minus
  | .mul => .star
  | .div => .slash

/-- The token a sign is written with. -/
def Sign.token : Sign → Token
  | .minus => .minus
  | .plus => .plus

@[simp] theorem BinaryOp.binaryOp?_token (op : BinaryOp) : op.token.binaryOp? = some op := by
  cases op <;> rfl

@[simp] theorem Sign.sign?_token (sign : Sign) : sign.token.sign? = some sign := by
  cases sign <;> rfl

theorem Token.eq_of_binaryOp? {token : Token} {op : BinaryOp} (h : token.binaryOp? = some op) :
    token = op.token := by
  cases token <;> simp only [binaryOp?, Option.some.injEq, reduceCtorEq] at h <;> subst h <;> rfl

theorem Token.eq_of_sign? {token : Token} {sign : Sign} (h : token.sign? = some sign) :
    token = sign.token := by
  cases token <;> simp only [sign?, Option.some.injEq, reduceCtorEq] at h <;> subst h <;> rfl

theorem Function.ofName?_eq_some {name : String} {f : Function} (h : ofName? name = some f) :
    f.name = name := by
  have found := List.find?_some h
  simpa only [beq_iff_eq] using found

/-- The tokens of a tree from left to right, where a literal is written with the tokens that
`leaf` gives it. -/
def spelled (leaf : Float → List Token) : Expr → List Token
  | .literal v => leaf v
  | .variable .x => [.identifier "x"]
  | .variable .y => [.identifier "y"]
  | .group inner => .openParen :: (inner.spelled leaf ++ [.closeParen])
  | .signed sign operand => sign.token :: operand.spelled leaf
  | .binary op left right => left.spelled leaf ++ op.token :: right.spelled leaf
  | .call f argument =>
    .identifier f.name :: .openParen :: (argument.spelled leaf ++ [.closeParen])

/-- The tokens of a tree. -/
def tokens (t : Expr) : List Token := t.spelled fun v => [.number v]

/-- The literals of a tree from left to right. -/
def literals : Expr → List Float
  | .literal v => [v]
  | .variable _ => []
  | .group inner => inner.literals
  | .signed _ operand => operand.literals
  | .binary _ left right => left.literals ++ right.literals
  | .call _ argument => argument.literals

/-- The operator at the root of a tree. -/
def operator? : Expr → Option BinaryOp
  | .binary op _ _ => some op
  | _ => none

/-- A tree is no binary operation of a precedence below `least`. -/
def BindsFrom (least : Nat) (t : Expr) : Prop := ∀ op, t.operator? = some op → least ≤ op.precedence

/-- The shape of trees that are written without more parentheses than they hold: the left operand
of an operation binds at least as tightly as the operation, the right one more tightly, and a sign
stands before no binary operation. -/
def PrecedenceShaped : Expr → Prop
  | .literal _ | .variable _ => True
  | .group inner => inner.PrecedenceShaped
  | .signed _ operand => operand.operator? = none ∧ operand.PrecedenceShaped
  | .binary op left right =>
    left.BindsFrom op.precedence ∧ right.BindsFrom (op.precedence + 1) ∧
      left.PrecedenceShaped ∧ right.PrecedenceShaped
  | .call _ argument => argument.PrecedenceShaped

/-- The greatest number of signs, parentheses and calls on a way from the root to a leaf. -/
def nesting : Expr → Nat
  | .literal _ | .variable _ => 0
  | .group inner => inner.nesting + 1
  | .signed _ operand => operand.nesting + 1
  | .binary _ left right => max left.nesting right.nesting
  | .call _ argument => argument.nesting + 1

theorem bindsFrom_of_operator?_eq_none {t : Expr} (h : t.operator? = none) (least : Nat) :
    t.BindsFrom least := by
  intro op root
  rw [h] at root
  contradiction

theorem bindsFrom_binary {op : BinaryOp} {left right : Expr} {least : Nat} :
    (Expr.binary op left right).BindsFrom least ↔ least ≤ op.precedence := by
  constructor
  · intro h; exact h op rfl
  · rintro h _ ⟨⟩; exact h

theorem BindsFrom.mono {t : Expr} {least lower : Nat} (h : t.BindsFrom least) (le : lower ≤ least) :
    t.BindsFrom lower :=
  fun op root => Nat.le_trans le (h op root)

theorem bindsFrom_zero (t : Expr) : t.BindsFrom 0 := fun _ _ => Nat.zero_le _

/-- No tree begins with a closing parenthesis, if no literal does. -/
theorem spelled_eq_cons {leaf : Float → List Token}
    (first : ∀ v, ∃ token rest, leaf v = token :: rest ∧ token ≠ .closeParen) (t : Expr) :
    ∃ token rest, t.spelled leaf = token :: rest ∧ token ≠ .closeParen := by
  induction t with
  | literal v => exact first v
  | «variable» v => cases v <;> exact ⟨_, _, rfl, by simp⟩
  | group inner _ => exact ⟨_, _, rfl, by simp⟩
  | signed sign operand _ => exact ⟨_, _, rfl, by cases sign <;> simp [Sign.token]⟩
  | binary op left right ihl _ =>
    obtain ⟨token, rest, eq, ne⟩ := ihl
    exact ⟨token, rest ++ op.token :: right.spelled leaf, by simp [spelled, eq], ne⟩
  | call f argument _ => exact ⟨_, _, rfl, by simp⟩

end PointScope.Expr
