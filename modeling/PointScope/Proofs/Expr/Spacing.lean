import Mathlib.Algebra.BigOperators.Intervals
import Mathlib.Order.Bounds.Defs
import PointScope.Expr.Parser
import PointScope.Proofs.Expr.Scanning

/-! The tokens of a text and the blanks between them. Every token stands alone as it stands in the text, and all
around the tokens is blank, so blanks may be put in wherever they cut no token: the tokens stay and only move. -/
namespace PointScope.Expr

variable {text : List Char} {k n : Nat} {ts : List Lexeme} {t : Lexeme} {gap : Nat → List Char}

/-- The characters of a token. -/
def Lexeme.chars (text : List Char) (t : Lexeme) : List Char := (text.drop t.column).take t.width

/-- A text with more characters in front of each of its places, which are counted from `k` on, and at its
end. -/
def spaced (gap : Nat → List Char) : Nat → List Char → List Char
  | k, [] => gap k
  | k, c :: s => gap k ++ c :: spaced gap (k + 1) s

/-- The place where a character stands once there are more characters in front of it. -/
def movedTo (gap : Nat → List Char) (k : Nat) : Nat := k + ∑ j ∈ Finset.range (k + 1), (gap j).length

/-- No character that is put in comes to stand within a token. -/
def CutsNone (gap : Nat → List Char) (ts : List Lexeme) : Prop :=
  ∀ t ∈ ts, ∀ k, t.column < k → k < t.column + t.width → gap k = []

def AllBlank (gap : Nat → List Char) : Prop := ∀ k, ∀ c ∈ gap k, Text.isBlank c = true

/-- The place behind the characters in front of `k`, without those that are put in at `k` itself. -/
def beginsAt (gap : Nat → List Char) (k : Nat) : Nat := k + ∑ j ∈ Finset.range k, (gap j).length

theorem movedTo_eq (gap : Nat → List Char) (k : Nat) : movedTo gap k = beginsAt gap k + (gap k).length := by
  rw [movedTo, beginsAt, Finset.sum_range_succ]
  omega

theorem beginsAt_succ (gap : Nat → List Char) (k : Nat) : beginsAt gap (k + 1) = movedTo gap k + 1 := by
  rw [movedTo, beginsAt]
  omega

/-- Where nothing is put in, places move all alike. -/
theorem beginsAt_add {length : Nat} (none : ∀ j, k ≤ j → j < k + length → gap j = []) :
    beginsAt gap (k + length) = beginsAt gap k + length := by
  induction length with
  | zero => rfl
  | succ length ih =>
    have empty := none (k + length) (by omega) (by omega)
    have before := ih fun j low high => none j low (by omega)
    rw [← Nat.add_assoc, beginsAt_succ, movedTo_eq, empty, before]
    rfl

theorem spaced_append {word : List Char} (none : ∀ j, k ≤ j → j < k + word.length → gap j = [])
    (after : List Char) : spaced gap k (word ++ after) = word ++ spaced gap (k + word.length) after := by
  induction word generalizing k with
  | nil => rfl
  | cons c word ih =>
    rw [List.length_cons] at none ⊢
    have rest := ih (k := k + 1) fun j low high => none j (by omega) (by omega)
    rw [List.cons_append, spaced, none k (Nat.le_refl k) (by omega), rest, List.nil_append,
      List.cons_append, Nat.add_assoc, Nat.add_comm 1]

/-- With more blanks in it, a text has no more characters to offer in front of a blank. -/
theorem inkWithin_spaced (blank : AllBlank gap) (k : Nat) (s : List Char) : InkWithin (spaced gap k s) s := by
  induction s generalizing k with
  | nil =>
    intro u ink begins
    cases u with
    | nil => exact List.nil_prefix
    | cons d u =>
      have mem : d ∈ gap k := begins.subset List.mem_cons_self
      have := blank k d mem
      rw [ink d List.mem_cons_self] at this
      cases this
  | cons c s ih =>
    intro u ink begins
    cases u with
    | nil => exact List.nil_prefix
    | cons d u =>
      rw [spaced] at begins
      cases inserted : gap k with
      | nil =>
        rw [inserted, List.nil_append] at begins
        obtain ⟨rfl, behind⟩ := List.cons_prefix_cons.mp begins
        have rest := ih (k + 1) u (fun e mem => ink e (List.mem_cons_of_mem _ mem)) behind
        exact List.cons_prefix_cons.mpr ⟨rfl, rest⟩
      | cons b bs =>
        rw [inserted, List.cons_append] at begins
        obtain ⟨rfl, -⟩ := List.cons_prefix_cons.mp begins
        have := blank k d (by rw [inserted]; exact List.mem_cons_self)
        rw [ink d List.mem_cons_self] at this
        cases this

theorem lexFrom_blanks {bs : List Char} (blank : ∀ c ∈ bs, Text.isBlank c = true) (column : Nat)
    (s : List Char) : lexFrom column (bs ++ s) = lexFrom (column + bs.length) s := by
  induction bs generalizing column with
  | nil => rfl
  | cons b bs ih =>
    rw [List.cons_append, lexFrom, blank b List.mem_cons_self, if_pos rfl,
      ih (fun c mem => blank c (List.mem_cons_of_mem b mem)), List.length_cons]
    congr 1
    omega

/-- The rest of a text is cut into the same tokens with more blanks in it. -/
theorem Scans.lexFrom_spaced (scans : Scans text k ts n) (whole : text.drop n = [])
    (blank : AllBlank gap) (cuts_none : CutsNone gap ts) :
    lexFrom (beginsAt gap k) (spaced gap k (text.drop k)) =
      .ok (ts.map fun t => { t with column := movedTo gap t.column }) := by
  induction scans with
  | @done k =>
    rw [whole, spaced, ← List.append_nil (gap k), lexFrom_blanks (blank k), lexFrom]
    rfl
  | @blank k n ts c behind here blank_here _ ih =>
    have rest := ih whole cuts_none
    rw [drop_add_one here, beginsAt_succ] at rest
    rw [here, spaced, lexFrom_blanks (blank k), ← movedTo_eq, lexFrom, blank_here, if_pos rfl]
    exact rest
  | @token k n ts c others after token here ink scanned _ ih =>
    have rest := ih whole fun t mem => cuts_none t (List.mem_cons_of_mem _ mem)
    have uncut : ∀ j, k + 1 ≤ j → j < k + 1 + others.length → gap j = [] := by
      intro j low high
      exact cuts_none _ List.mem_cons_self j (by dsimp only; omega) (by dsimp only; omega)
    have scanned' := scan_of_inkWithin ink scanned
      (inkWithin_spaced blank (k + 1 + others.length) after)
    rw [drop_add_word here, beginsAt_add uncut, beginsAt_succ] at rest
    rw [here, spaced, spaced_append uncut, lexFrom_blanks (blank k), ← movedTo_eq,
      lexFrom_cons ink scanned', List.drop_left, rest]
    rfl

theorem Lexeme.chars_eq {c : Char} {others after : List Char}
    (here : text.drop t.column = c :: (others ++ after)) (wide : t.width = others.length + 1) :
    t.chars text = c :: others := by
  rw [chars, here, wide, List.take_succ_cons, List.take_left]

/-- A token has the characters of the longest word that stands at its place. -/
theorem Scans.longest_chars (scans : Scans text k ts n) (mem : t ∈ ts) :
    Longest (t.chars text) (text.drop t.column) := by
  obtain ⟨-, c, others, after, here, ink, scanned, wide⟩ := scans.mem mem
  have longest := longest_wordAt ink (others ++ after)
  rw [((scan_ok_iff ink).mp scanned).1] at longest
  rw [Lexeme.chars_eq here wide, here]
  exact longest

/-- The characters of a token are a text of one token. -/
theorem Scans.lex_chars (scans : Scans text k ts n) (mem : t ∈ ts) :
    lex (t.chars text) = .ok [{ t with column := 0 }] := by
  obtain ⟨-, c, others, after, here, ink, scanned, wide⟩ := scans.mem mem
  have alone := scan_of_inkWithin ink scanned (inkWithin_of_begins (List.nil_prefix (l := after)))
  rw [Lexeme.chars_eq here wide, ← List.append_nil others, lex, lexFrom_cons ink alone, List.drop_left,
    lexFrom, ← wide]
  rfl

/-! ### Texts -/

/-- The tokens of a text that is cut, and what is not of them. -/
structure Covers (text : List Char) (ts : List Lexeme) : Prop where
  inside : ∀ t ∈ ts, 0 < t.width ∧ t.column + t.width ≤ text.length
  ordered : ts.Pairwise fun t u => t.column + t.width ≤ u.column
  others : ∀ i c, text[i]? = some c → (∀ t ∈ ts, ¬(t.column ≤ i ∧ i < t.column + t.width)) →
    Text.isBlank c = true
  /-- The end is reported behind the last character. -/
  finish : parse text = parseTokens text.length ts
  longest : ∀ t ∈ ts, Longest (t.chars text) (text.drop t.column)
  alone : ∀ t ∈ ts, lex (t.chars text) = .ok [{ t with column := 0 }]
  spaced : ∀ gap, AllBlank gap → CutsNone gap ts →
    lex (spaced gap 0 text) = .ok (ts.map fun t => { t with column := movedTo gap t.column })

/-- A text is refused at a column. -/
structure RefusedAt (text : List Char) (column : Nat) (fault : SyntaxFault) : Prop where
  faulty : Faulty (text.drop column) fault
  first : IsLeast {n | (∃ ts, Scans text 0 ts n) ∧ Stuck text n} column
  before : ∃ ts, lex (text.take column) = .ok ts

theorem covers_of_lex (cut : lex text = .ok ts) : Covers text ts := by
  have scans := lex_eq_ok_iff.mp cut
  constructor
  · intro t mem
    exact scans.inside mem
  · exact scans.pairwise
  · intro i c there apart
    obtain ⟨bound, -⟩ := List.getElem?_eq_some_iff.mp there
    exact scans.isBlank (Nat.zero_le i) bound there apart
  · rw [parse, cut]
  · intro t mem
    exact scans.longest_chars mem
  · intro t mem
    exact scans.lex_chars mem
  · intro gap blank cuts_none
    have moved := scans.lexFrom_spaced List.drop_length blank cuts_none
    exact moved

theorem refusedAt_of_lex {e : Error} (refused : lex text = .error e) :
    ∃ column fault, e = .syntaxError column fault ∧ RefusedAt text column fault := by
  obtain ⟨ts, n, fault, scans, faulty, rfl⟩ := lex_eq_error_iff.mp refused
  refine ⟨n, fault, rfl, faulty, ⟨⟨⟨ts, scans⟩, fault, faulty⟩, ?_⟩, ts, ?_⟩
  · rintro m ⟨⟨us, other⟩, stuck⟩
    exact scans.le_of_stuck other stuck
  · obtain ⟨c, behind, here, -⟩ := faulty.cons
    have bound := lt_length_of_drop here
    apply lex_eq_ok_iff.mpr
    rw [List.length_take, Nat.min_eq_left (by omega)]
    exact scans.take

/-- Cutting a text into tokens covers the text. Each token is the longest word at its place and stands alone, the
tokens are in order, all else is blank, and more blanks that cut no token only move them. A text that is not
cut is refused at the first place where no token begins, and cut up to there. -/
theorem lex_covers (text : List Char) :
    (∀ ts, lex text = .ok ts → Covers text ts) ∧
      ∀ e, lex text = .error e →
        ∃ column fault, e = .syntaxError column fault ∧ RefusedAt text column fault := by
  constructor
  · intro ts cut
    exact covers_of_lex cut
  · intro e refused
    exact refusedAt_of_lex refused

/-- A name with a digit in it, a sign and a name stand side by side; a second point makes a number none. -/
theorem lex_covers_beside :
    Covers ['e', '2', '-', 'x'] [⟨.identifier "e2", 0, 2⟩, ⟨.minus, 2, 1⟩, ⟨.identifier "x", 3, 1⟩] ∧
      ∃ column fault, Error.syntaxError 2 (.invalidNumber "1.2.3") = .syntaxError column fault ∧
        RefusedAt ['x', ' ', '1', '.', '2', '.', '3'] column fault :=
  ⟨(lex_covers ['e', '2', '-', 'x']).1 _ (by cbv),
    (lex_covers ['x', ' ', '1', '.', '2', '.', '3']).2 _ (by cbv)⟩

end PointScope.Expr
