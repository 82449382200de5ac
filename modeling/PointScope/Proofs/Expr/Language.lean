import PointScope.Proofs.Expr.Completeness
import PointScope.Proofs.Expr.Soundness

/-! The language of the parser. A text is an expression exactly if it is cut into the tokens of a
tree of the right shape that stays within the greatest depth, and the tree is the answer. -/
namespace PointScope.Expr

theorem parse_eq_ok {text : List Char} {t : Expr} :
    parse text = .ok t ↔ ∃ ts, lex text = .ok ts ∧ parseTokens text.length ts = .ok t := by
  simp only [parse]
  constructor
  · intro parsed
    split at parsed
    · contradiction
    · exact ⟨_, ‹_›, parsed⟩
  · rintro ⟨ts, cut, parsed⟩
    rw [cut]
    exact parsed

/-- The parser accepts the grammar and nothing else, and answers with the one right tree: for a text
that is cut into tokens, those trees come back that are shaped by precedence, hold at most 256
signs, parentheses and calls inside each other, and have the tokens of the text. -/
theorem parse_ok_iff {text : List Char} {t : Expr} :
    parse text = .ok t ↔ t.PrecedenceShaped ∧ t.nesting ≤ 256 ∧
      ∃ ts, lex text = .ok ts ∧ ts.map Lexeme.token = t.tokens := by
  rw [parse_eq_ok]
  constructor
  · rintro ⟨ts, cut, parsed⟩
    obtain ⟨written, shaped, room⟩ := parseTokens_sound parsed
    exact ⟨shaped, room, ts, cut, written⟩
  · rintro ⟨shaped, room, ts, cut, written⟩
    exact ⟨ts, cut, parseTokens_tokens shaped room written⟩

end PointScope.Expr
