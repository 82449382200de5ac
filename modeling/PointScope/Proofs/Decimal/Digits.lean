import Mathlib.Algebra.Group.Nat.Defs
import PointScope.Decimal.Digits
import PointScope.Decimal.Reader

/-! Positional text is read back. What is read has the value that was written, over fewer places
where zeros at the end were dropped. -/
namespace PointScope.Decimal

variable {ds whole rest : List Char} {c places : Nat}

/-! ### Values of digits -/

theorem naturalOf_eq_ofDigitChars (ds : List Char) : naturalOf ds = Nat.ofDigitChars 10 ds 0 :=
  Nat.ofDigitChars_eq_foldl.symm

theorem naturalOf_append (ds es : List Char) :
    naturalOf (ds ++ es) = naturalOf ds * 10 ^ es.length + naturalOf es := by
  simp only [naturalOf_eq_ofDigitChars]
  rw [Nat.ofDigitChars_append, Nat.ofDigitChars_eq_ofDigitChars_zero, Nat.mul_comm]

theorem naturalOf_digits (n : Nat) : naturalOf (digits n) = n := by
  rw [naturalOf_eq_ofDigitChars, digits, Nat.ofDigitChars_ten_toDigits]

theorem naturalOf_replicate_zero (n : Nat) : naturalOf (List.replicate n '0') = 0 := by
  rw [naturalOf_eq_ofDigitChars, Nat.ofDigitChars_replicate_zero, Nat.mul_zero]

theorem isDigit_of_mem_digits {n : Nat} {d : Char} (mem : d ∈ digits n) : d.isDigit = true :=
  Nat.isDigit_of_mem_toDigits (by decide) (by decide) mem

theorem toNat_of_isDigit {d : Char} (digit : d.isDigit = true) : 48 ≤ d.toNat ∧ d.toNat ≤ 57 := by
  rw [Char.isDigit, Bool.and_eq_true, decide_eq_true_eq, decide_eq_true_eq] at digit
  exact digit

theorem digits_ne_nil (n : Nat) : digits n ≠ [] := Nat.toDigits_ne_nil

theorem length_fraction (positive : 0 < places) (n : Nat) : (fraction places n).length = places := by
  have short : (digits (n % 10 ^ places)).length ≤ places :=
    (Nat.length_toDigits_le_iff (by decide) positive).mpr (Nat.mod_lt n (Nat.pow_pos (by decide)))
  rw [fraction, Nat.pow_eq, List.length_append, List.length_replicate]
  omega

theorem naturalOf_fraction (places n : Nat) : naturalOf (fraction places n) = n % 10 ^ places := by
  rw [fraction, naturalOf_append, naturalOf_replicate_zero, naturalOf_digits, Nat.zero_mul,
    Nat.zero_add, Nat.pow_eq]

theorem isDigit_of_mem_fraction {n : Nat} {d : Char} (mem : d ∈ fraction places n) :
    d.isDigit = true := by
  simp only [fraction] at mem
  rcases List.mem_append.mp mem with zero | digit
  · obtain rfl := List.eq_of_mem_replicate zero
    rfl
  · exact isDigit_of_mem_digits digit

/-! ### Trailing zeros -/

/-- A text is itself without its trailing zeros, and those zeros. -/
theorem dropTrailing_append (ds : List Char) :
    ∃ z, ds = (ds.reverse.dropWhile (· == '0')).reverse ++ List.replicate z '0' := by
  have zeros : ∀ d ∈ ds.reverse.takeWhile (· == '0'), d = '0' := fun d mem =>
    eq_of_beq (List.all_eq_true.mp List.all_takeWhile d mem)
  refine ⟨(ds.reverse.takeWhile (· == '0')).length, ?_⟩
  calc ds = (ds.reverse.takeWhile (· == '0') ++ ds.reverse.dropWhile (· == '0')).reverse := by
        rw [List.takeWhile_append_dropWhile, List.reverse_reverse]
    _ = (ds.reverse.dropWhile (· == '0')).reverse ++ (ds.reverse.takeWhile (· == '0')).reverse :=
        List.reverse_append
    _ = _ := by rw [← List.reverse_replicate, ← List.eq_replicate_iff.mpr ⟨rfl, zeros⟩]

/-! ### Positional text -/

/-- The text of a number with a whole part and a part behind the point. -/
def positional (whole rest : List Char) : List Char :=
  if rest.isEmpty then whole else whole ++ '.' :: rest

/-- The digits of a positional text have the value it was made from. -/
theorem plain_eq_positional (c places : Nat) :
    ∃ whole rest z, plain c places = positional whole rest ∧ whole ≠ [] ∧
      (∀ d ∈ whole, d.isDigit = true) ∧ (∀ d ∈ rest, d.isDigit = true) ∧
      rest.length + z = places ∧ naturalOf (whole ++ rest) * 10 ^ z = c := by
  unfold plain
  rw [Nat.pow_eq]
  dsimp only
  by_cases none : places = 0
  · subst none
    refine ⟨_, [], 0, rfl, digits_ne_nil _, fun d => isDigit_of_mem_digits, by simp, rfl, ?_⟩
    rw [List.append_nil, naturalOf_digits, Nat.pow_zero, Nat.div_one, Nat.mul_one]
  · rw [if_neg none]
    obtain ⟨z, halves⟩ := dropTrailing_append (fraction places c)
    have size := congrArg List.length halves
    have value := congrArg naturalOf halves
    rw [length_fraction (Nat.pos_of_ne_zero none), List.length_append, List.length_replicate] at size
    rw [naturalOf_fraction, naturalOf_append, naturalOf_replicate_zero, List.length_replicate] at value
    refine ⟨_, _, z, rfl, digits_ne_nil _, fun d => isDigit_of_mem_digits, fun d mem => ?_,
      size.symm, ?_⟩
    · have within : d ∈ fraction places c := by
        rw [halves]
        exact List.mem_append_left _ mem
      exact isDigit_of_mem_fraction within
    · rw [naturalOf_append, naturalOf_digits, Nat.add_mul, Nat.mul_assoc, ← Nat.pow_add, ← size,
        ← Nat.add_zero (naturalOf _ * 10 ^ z), ← value]
      exact Nat.div_add_mod' c (10 ^ places)

theorem takeWhile_isDigit (digits : ∀ d ∈ ds, d.isDigit = true) (s : List Char) :
    (ds ++ s).takeWhile Char.isDigit = ds ++ s.takeWhile Char.isDigit :=
  List.takeWhile_append_of_pos digits

theorem dropWhile_isDigit (digits : ∀ d ∈ ds, d.isDigit = true) (s : List Char) :
    (ds ++ s).dropWhile Char.isDigit = s.dropWhile Char.isDigit :=
  List.dropWhile_append_of_pos digits

/-- A positional text is read as its digits over as many places as stand behind the point. -/
theorem magnitude?_positional (some_whole : whole ≠ []) (whole_digits : ∀ d ∈ whole, d.isDigit = true)
    (rest_digits : ∀ d ∈ rest, d.isDigit = true) :
    magnitude? (positional whole rest) = some (nearest (naturalOf (whole ++ rest)) (-rest.length)) := by
  simp only [positional, magnitude?]
  have present : whole.isEmpty = false := List.isEmpty_eq_false_iff.mpr some_whole
  cases rest with
  | nil =>
    have taken := takeWhile_isDigit whole_digits []
    have dropped := dropWhile_isDigit whole_digits []
    simp only [List.append_nil, List.takeWhile_nil, List.dropWhile_nil] at taken dropped
    simp [taken, dropped, present, exponent?]
  | cons d rest =>
    have taken := takeWhile_isDigit whole_digits ('.' :: d :: rest)
    have dropped := dropWhile_isDigit whole_digits ('.' :: d :: rest)
    have places := takeWhile_isDigit rest_digits []
    have used := dropWhile_isDigit rest_digits []
    rw [List.takeWhile_cons_of_neg (by decide), List.append_nil] at taken
    rw [List.dropWhile_cons_of_neg (by decide)] at dropped
    rw [List.append_nil, List.takeWhile_nil, List.append_nil] at places
    rw [List.append_nil, List.dropWhile_nil] at used
    simp [taken, dropped, places, used, present, exponent?]

/-- Positional text is read as the number nearest to the value it was made from, over no more
places. -/
theorem magnitude?_plain (c places : Nat) :
    ∃ n fewer z, magnitude? (plain c places) = some (nearest n (-(fewer : Nat))) ∧
      fewer + z = places ∧ n * 10 ^ z = c := by
  obtain ⟨whole, rest, z, eq, some_whole, whole_digits, rest_digits, size, value⟩ :=
    plain_eq_positional c places
  refine ⟨naturalOf (whole ++ rest), rest.length, z, ?_, size, value⟩
  rw [eq, magnitude?_positional some_whole whole_digits rest_digits]

/-- Positional text begins with a digit. -/
theorem plain_eq_cons (c places : Nat) :
    ∃ d text, plain c places = d :: text ∧ d.isDigit = true := by
  obtain ⟨whole, rest, z, eq, some_whole, whole_digits, _⟩ := plain_eq_positional c places
  obtain ⟨d, whole, rfl⟩ := List.exists_cons_of_ne_nil some_whole
  simp only [positional] at eq
  refine ⟨d, if rest.isEmpty then whole else whole ++ '.' :: rest, ?_,
    whole_digits d List.mem_cons_self⟩
  rw [eq]
  split <;> rfl

/-- Positional text is digits and a point. -/
theorem mem_plain {c places : Nat} {d : Char} (mem : d ∈ plain c places) :
    d.isDigit = true ∨ d = '.' := by
  obtain ⟨whole, rest, z, eq, _, whole_digits, rest_digits, _⟩ := plain_eq_positional c places
  rw [eq, positional] at mem
  split at mem
  · exact Or.inl (whole_digits d mem)
  · rcases List.mem_append.mp mem with before | behind
    · exact Or.inl (whole_digits d before)
    · rcases List.mem_cons.mp behind with point | behind
      · exact Or.inr point
      · exact Or.inl (rest_digits d behind)

theorem splitSign_cons {c : Char} (minus : c ≠ '-') (plus : c ≠ '+') (text : List Char) :
    splitSign (c :: text) = (false, c :: text) := by
  simp only [splitSign]
  split
  · exact absurd (List.cons.inj ‹_›).1 minus
  · exact absurd (List.cons.inj ‹_›).1 plus
  · rfl

theorem splitSign_of_isDigit {d : Char} (digit : d.isDigit = true) (text : List Char) :
    splitSign (d :: text) = (false, d :: text) := by
  refine splitSign_cons ?_ ?_ text
  · rintro rfl
    contradiction
  · rintro rfl
    contradiction

end PointScope.Decimal
