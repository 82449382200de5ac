/-!
Blank characters and trimming. A blank is a character of the Unicode class `White_Space`; every
reader of text in this library skips and trims that one class.
-/

namespace PointScope.Text

/-- The Unicode class `White_Space`. -/
def isBlank (c : Char) : Bool :=
  let n := c.toNat
  (9 ≤ n && n ≤ 13) || n == 32 || n == 0x85 || n == 0xA0 || n == 0x1680 ||
    (0x2000 ≤ n && n ≤ 0x200A) || n == 0x2028 || n == 0x2029 || n == 0x202F || n == 0x205F ||
    n == 0x3000

/-- From the exclamation mark to the end of ASCII there is no blank. -/
theorem not_isBlank {c : Char} (low : 32 < c.toNat) (high : c.toNat < 0x85) : isBlank c = false := by
  rw [Bool.eq_false_iff]
  intro blank
  simp only [isBlank, Bool.or_eq_true, Bool.and_eq_true, decide_eq_true_eq, beq_iff_eq] at blank
  omega

def stripEnds (drop : Char → Bool) (s : List Char) : List Char :=
  ((s.dropWhile drop).reverse.dropWhile drop).reverse

theorem stripEnds_of_forall {drop : Char → Bool} {s : List Char} (kept : ∀ c ∈ s, drop c = false) :
    stripEnds drop s = s := by
  have whole : ∀ s : List Char, (∀ c ∈ s, drop c = false) → s.dropWhile drop = s := by
    intro s kept
    cases s with
    | nil => rfl
    | cons c s =>
      rw [List.dropWhile_cons_of_neg]
      rw [kept c List.mem_cons_self]
      exact Bool.false_ne_true
  rw [stripEnds, whole s kept, whole s.reverse fun c mem => kept c (List.mem_reverse.mp mem),
    List.reverse_reverse]

def trim (s : List Char) : List Char := stripEnds isBlank s

def isBlankText (s : List Char) : Bool := s.all isBlank

end PointScope.Text
