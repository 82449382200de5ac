import PointScope.Proofs.Expr.Faults

/-! Scanning from place to place. A scan skips blanks and takes words, and comes to the end of the text or to a
place where no token begins; tokens and blanks lie behind one another without a gap. A scan of a text is a
scan of its beginning too, and of the same words with other blanks between them. -/
namespace PointScope.Expr

variable {text : List Char} {k n : Nat} {ts : List Lexeme} {t : Lexeme}

/-- A scan from one place of a text to another, and the tokens between them. -/
inductive Scans (text : List Char) : Nat → List Lexeme → Nat → Prop where
  | done {k : Nat} : Scans text k [] k
  | blank {k n : Nat} {ts : List Lexeme} {c : Char} {behind : List Char} :
      text.drop k = c :: behind → Text.isBlank c = true → Scans text (k + 1) ts n → Scans text k ts n
  | token {k n : Nat} {ts : List Lexeme} {c : Char} {others after : List Char} {token : Token} :
      text.drop k = c :: (others ++ after) → Text.isBlank c = false →
      scan c (others ++ after) = .ok (token, others.length) →
      Scans text (k + 1 + others.length) ts n → Scans text k (⟨token, k, others.length + 1⟩ :: ts) n

/-- A place where a token should begin and none does. -/
def Stuck (text : List Char) (k : Nat) : Prop := ∃ fault, Faulty (text.drop k) fault

theorem drop_add_one {c : Char} {behind : List Char} (here : text.drop k = c :: behind) :
    text.drop (k + 1) = behind := by
  rw [← List.drop_drop, here, List.drop_succ_cons, List.drop_zero]

theorem drop_add_word {c : Char} {others after : List Char}
    (here : text.drop k = c :: (others ++ after)) : text.drop (k + 1 + others.length) = after := by
  rw [← List.drop_drop, drop_add_one here, List.drop_left]

theorem lt_length_of_drop {c : Char} {behind : List Char} (here : text.drop k = c :: behind) :
    k < text.length := by
  have size := congrArg List.length here
  rw [List.length_drop, List.length_cons] at size
  omega

/-- From every place of a text, a scan comes to the end of the text or gets stuck. -/
theorem exists_scans (inside : k ≤ text.length) :
    ∃ ts n, Scans text k ts n ∧ n ≤ text.length ∧ (n = text.length ∨ Stuck text n) := by
  induction left : text.length - k using Nat.strongRecOn generalizing k with
  | ind _ ih =>
    cases here : text.drop k with
    | nil =>
      have beyond := List.drop_eq_nil_iff.mp here
      exact ⟨[], k, .done, inside, Or.inl (by omega)⟩
    | cons c behind =>
      have bound := lt_length_of_drop here
      cases ink : Text.isBlank c with
      | true =>
        obtain ⟨ts, n, scans, rest⟩ := ih _ (by omega) (k := k + 1) (by omega) rfl
        exact ⟨ts, n, .blank here ink scans, rest⟩
      | false =>
        cases scanned : scan c behind with
        | error fault =>
          refine ⟨[], k, .done, inside, Or.inr ⟨fault, ?_⟩⟩
          rw [here]
          exact (scan_error_iff ink).mp scanned
        | ok found =>
          obtain ⟨token, more⟩ := found
          obtain ⟨others, after, rfl, rfl⟩ := exists_of_scan ink scanned
          have size := congrArg List.length here
          rw [List.length_drop, List.length_cons, List.length_append] at size
          obtain ⟨ts, n, scans, rest⟩ :=
            ih _ (by omega) (k := k + 1 + others.length) (by omega) rfl
          exact ⟨_, n, .token here ink scanned scans, rest⟩

/-- The tokens of a scan stand before those that are cut from the place it comes to. -/
theorem Scans.lexFrom_eq (scans : Scans text k ts n) :
    lexFrom k (text.drop k) = (lexFrom n (text.drop n)).map fun rest => ts ++ rest := by
  induction scans with
  | done => exact (id_map _).symm
  | blank here blank _ ih =>
    rw [here, lexFrom, blank, if_pos rfl, ← drop_add_one here]
    exact ih
  | token here ink scanned _ ih =>
    rw [here, lexFrom_cons ink scanned, List.drop_left, ← drop_add_word here, ih]
    cases lexFrom _ _ <;> rfl

/-- A text is cut into the tokens of the scan that comes to its end. -/
theorem lex_eq_ok_iff : lex text = .ok ts ↔ Scans text 0 ts text.length := by
  constructor
  · intro cut
    obtain ⟨us, n, scans, -, whole | ⟨fault, faulty⟩⟩ := exists_scans (Nat.zero_le text.length)
    · have same := scans.lexFrom_eq
      rw [whole, List.drop_length, lexFrom, List.drop_zero] at same
      have tokens : us ++ [] = ts := Except.ok.inj (same.symm.trans cut)
      rw [← tokens, List.append_nil]
      exact whole ▸ scans
    · have same := scans.lexFrom_eq
      rw [faulty.lexFrom_eq] at same
      cases same.symm.trans cut
  · intro scans
    have same := scans.lexFrom_eq
    rw [List.drop_length, lexFrom, List.drop_zero] at same
    exact same.trans (congrArg Except.ok (List.append_nil ts))

/-- A text is refused at the place where its scan gets stuck. -/
theorem lex_eq_error_iff {e : Error} : lex text = .error e ↔
    ∃ ts n fault, Scans text 0 ts n ∧ Faulty (text.drop n) fault ∧ e = .syntaxError n fault := by
  constructor
  · intro refused
    obtain ⟨ts, n, scans, -, whole | ⟨fault, faulty⟩⟩ := exists_scans (Nat.zero_le text.length)
    · have cut := lex_eq_ok_iff.mpr (whole ▸ scans)
      cases cut.symm.trans refused
    · have same := scans.lexFrom_eq
      rw [faulty.lexFrom_eq] at same
      exact ⟨ts, n, fault, scans, faulty, Except.error.inj (refused.symm.trans same)⟩
  · rintro ⟨ts, n, fault, scans, faulty, rfl⟩
    have same := scans.lexFrom_eq
    rw [faulty.lexFrom_eq] at same
    exact same

/-! ### Where the tokens of a scan are -/

theorem Scans.le (scans : Scans text k ts n) : k ≤ n := by
  induction scans with
  | done => exact Nat.le_refl _
  | blank _ _ _ ih => omega
  | token _ _ _ _ ih => omega

/-- A token stands where it begins in the text, as long as it is wide. -/
theorem Scans.mem (scans : Scans text k ts n) (mem : t ∈ ts) :
    (k ≤ t.column ∧ t.column + t.width ≤ n) ∧
      ∃ c others after, text.drop t.column = c :: (others ++ after) ∧ Text.isBlank c = false ∧
        scan c (others ++ after) = .ok (t.token, others.length) ∧ t.width = others.length + 1 := by
  induction scans with
  | done => contradiction
  | blank _ _ _ ih =>
    obtain ⟨⟨low, high⟩, stands⟩ := ih mem
    exact ⟨⟨by omega, high⟩, stands⟩
  | @token k n ts c others after token here ink scanned scans ih =>
    rcases List.mem_cons.mp mem with rfl | mem
    · have := scans.le
      exact ⟨⟨Nat.le_refl k, by dsimp only; omega⟩, c, others, after, here, ink, scanned, rfl⟩
    · obtain ⟨⟨low, high⟩, stands⟩ := ih mem
      exact ⟨⟨by omega, high⟩, stands⟩

/-- A token is not empty and ends before the place that the scan comes to. -/
theorem Scans.inside (scans : Scans text k ts n) (mem : t ∈ ts) :
    0 < t.width ∧ t.column + t.width ≤ n := by
  obtain ⟨⟨-, high⟩, _, _, _, -, -, -, wide⟩ := scans.mem mem
  exact ⟨by omega, high⟩

/-- Tokens come one behind the other. -/
theorem Scans.pairwise (scans : Scans text k ts n) :
    ts.Pairwise fun t u => t.column + t.width ≤ u.column := by
  induction scans with
  | done => exact .nil
  | blank _ _ _ ih => exact ih
  | token _ _ _ scans ih =>
    apply List.pairwise_cons.mpr
    constructor
    · intro u mem
      have := (scans.mem mem).1.1
      dsimp only
      omega
    · exact ih

/-- All between the tokens is blank. -/
theorem Scans.isBlank (scans : Scans text k ts n) {i : Nat} {d : Char} (low : k ≤ i) (high : i < n)
    (there : text[i]? = some d) (apart : ∀ t ∈ ts, ¬(t.column ≤ i ∧ i < t.column + t.width)) :
    Text.isBlank d = true := by
  induction scans with
  | done => omega
  | @blank k n ts c behind here blank _ ih =>
    by_cases first : i = k
    · have at_place : text[k]? = some c := by rw [← List.head?_drop, here, List.head?_cons]
      rw [first, at_place] at there
      cases there
      exact blank
    · exact ih (by omega) high apart
  | token _ _ _ _ ih =>
    have behind := apart _ List.mem_cons_self
    exact ih (by dsimp only at behind; omega) high fun t mem => apart t (List.mem_cons_of_mem _ mem)

/-! ### Beginnings of a text -/

/-- A scan does not look behind the place that it comes to. -/
theorem Scans.take (scans : Scans text k ts n) : Scans (text.take n) k ts n := by
  induction scans with
  | done => exact .done
  | @blank k n ts c behind here blank scans ih =>
    have bound := scans.le
    have here' : (text.take n).drop k = c :: behind.take (n - k - 1) := by
      rw [List.drop_take, here, ← List.take_succ_cons]
      congr 1
      omega
    exact .blank here' blank ih
  | @token k n ts c others after token here ink scanned scans ih =>
    have bound := scans.le
    have here' : (text.take n).drop k =
        c :: (others ++ after.take (n - (k + 1 + others.length))) := by
      rw [List.drop_take, here, ← List.take_length_add_append, ← List.take_succ_cons]
      congr 1
      omega
    have within := inkWithin_of_begins (List.take_prefix (n - (k + 1 + others.length)) after)
    exact .token here' ink (scan_of_inkWithin ink scanned within) ih

/-- No scan comes to a place behind one where it may get stuck. -/
theorem Scans.le_of_stuck {us : List Lexeme} {m : Nat} (scans : Scans text k ts n)
    (other : Scans text k us m) (stuck : Stuck text m) : n ≤ m := by
  induction scans generalizing us with
  | done => exact other.le
  | blank here blank _ ih =>
    cases other with
    | done =>
      obtain ⟨fault, faulty⟩ := stuck
      obtain ⟨d, behind, start, ink⟩ := faulty.cons
      obtain ⟨rfl, -⟩ := List.cons.inj (here.symm.trans start)
      rw [blank] at ink
      cases ink
    | blank _ _ other => exact ih other
    | token here' ink =>
      obtain ⟨rfl, -⟩ := List.cons.inj (here.symm.trans here')
      rw [blank] at ink
      cases ink
  | token here ink scanned _ ih =>
    cases other with
    | done =>
      obtain ⟨fault, faulty⟩ := stuck
      rw [here] at faulty
      cases scanned.symm.trans ((scan_error_iff ink).mpr faulty)
    | blank here' blank =>
      obtain ⟨rfl, -⟩ := List.cons.inj (here.symm.trans here')
      rw [blank] at ink
      cases ink
    | token here' _ scanned' other =>
      obtain ⟨rfl, same⟩ := List.cons.inj (here.symm.trans here')
      rw [same] at scanned
      have size := congrArg Prod.snd (Except.ok.inj (scanned.symm.trans scanned'))
      dsimp only at size
      rw [← size] at other
      exact ih other

end PointScope.Expr
