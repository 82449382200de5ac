import PointScope.Proofs.Cloud.Reading
import Mathlib.Logic.Relation

/-! The layout of a text does not matter. A line says the same with blanks around its fields, and a carriage
return before its end is a blank; so the lines of a text may be taken as what stands between its line feeds.
Two texts are then read alike if their lines say the same, one by one. -/
namespace PointScope.Csv

variable {line line' text u v w : List Char} {s s' : State} {number : Nat}

/-! ### Parts of a list -/

/-- What stands before the first separator is the beginning of the first part. -/
theorem splitOn_append_of_not_mem {α : Type} [BEq α] [LawfulBEq α] {a : α} {xs : List α}
    (none : a ∉ xs) (ys : List α) : (xs ++ ys).splitOn a = (ys.splitOn a).modifyHead (xs ++ ·) := by
  by_cases separated : a ∈ ys
  · obtain ⟨first, rest, rfl, none'⟩ := List.eq_append_cons_of_mem separated
    have neither : a ∉ xs ++ first := List.not_mem_append none none'
    rw [← List.append_assoc, List.splitOn_append_cons_self_of_not_mem neither,
      List.splitOn_append_cons_self_of_not_mem none']
    rfl
  · rw [List.splitOn_eq_singleton separated,
      List.splitOn_eq_singleton (List.not_mem_append none separated)]
    rfl

/-- A list up to its last separator, and what stands behind. -/
theorem exists_last_part {α : Type} [BEq α] [LawfulBEq α] (a : α) (before : List α) :
    ∃ parts u, a ∉ u ∧ u <:+ before ∧
      ∀ rest, (before ++ rest).splitOn a = parts ++ (u ++ rest).splitOn a := by
  by_cases separated : a ∈ before.reverse
  · obtain ⟨last, others, reversed, none⟩ := List.eq_append_cons_of_mem separated
    have cut : before = others.reverse ++ a :: last.reverse := by
      rw [← before.reverse_reverse, reversed]
      simp
    refine ⟨others.reverse.splitOn a, last.reverse, by simpa using none, ?_, fun rest => ?_⟩
    · rw [cut]
      exact List.IsSuffix.trans (List.suffix_cons a _) (List.suffix_append _ _)
    · rw [cut, List.append_assoc, List.cons_append, List.splitOn_append_cons_self]
  · exact ⟨[], before, by simpa using separated, List.suffix_rfl, fun rest => rfl⟩

/-- A list from its first separator on, and what stands before. -/
theorem exists_first_part {α : Type} [BEq α] [LawfulBEq α] (a : α) (after : List α) :
    ∃ v parts, a ∉ v ∧ v <+: after ∧
      ∀ rest, a ∉ rest → (rest ++ after).splitOn a = (rest ++ v) :: parts := by
  by_cases separated : a ∈ after
  · obtain ⟨first, others, rfl, none⟩ := List.eq_append_cons_of_mem separated
    refine ⟨first, others.splitOn a, none, List.prefix_append _ _, fun rest none' => ?_⟩
    rw [← List.append_assoc,
      List.splitOn_append_cons_self_of_not_mem (List.not_mem_append none' none)]
  · refine ⟨after, [], separated, List.prefix_rfl, fun rest none => ?_⟩
    rw [List.splitOn_eq_singleton (List.not_mem_append none separated)]

/-! ### Lines that say the same -/

/-- Lines of which none or both are blank, with the same fields. -/
def SaysSame (line line' : List Char) : Prop :=
  Text.isBlankText line' = Text.isBlankText line ∧ fields line' = fields line

theorem SaysSame.refl (line : List Char) : SaysSame line line := ⟨rfl, rfl⟩

theorem SaysSame.symm (same : SaysSame line line') : SaysSame line' line := ⟨same.1.symm, same.2.symm⟩

theorem comma_not_mem (blank : Text.isBlankText w = true) : ',' ∉ w := fun mem =>
  absurd (List.all_eq_true.mp blank ',' mem) (by decide)

theorem trim_blank_append (blank : Text.isBlankText w = true) (field : List Char) :
    Text.trim (w ++ field) = Text.trim field := by
  unfold Text.trim Text.stripEnds
  rw [List.dropWhile_append_of_pos (List.all_eq_true.mp blank)]

theorem trim_append_blank (blank : Text.isBlankText w = true) (field : List Char) :
    Text.trim (field ++ w) = Text.trim field := by
  unfold Text.trim Text.stripEnds
  rw [List.dropWhile_append]
  split
  · rename_i none
    rw [List.isEmpty_iff.mp none, List.dropWhile_eq_nil_iff.mpr (List.all_eq_true.mp blank)]
  · have reversed : ∀ c ∈ w.reverse, Text.isBlank c = true := fun c mem =>
      List.all_eq_true.mp blank c (List.mem_reverse.mp mem)
    rw [List.reverse_append, List.dropWhile_append_of_pos reversed]

theorem bare_blank_append (blank : Text.isBlankText w = true) (field : List Char) :
    bare (w ++ field) = bare field := by
  rw [bare, bare, trim_blank_append blank]

theorem bare_append_blank (blank : Text.isBlankText w = true) (field : List Char) :
    bare (field ++ w) = bare field := by
  rw [bare, bare, trim_append_blank blank]

theorem fields_append_comma (u v : List Char) : fields (u ++ ',' :: v) = fields u ++ fields v := by
  rw [fields_eq, fields_eq, fields_eq, List.splitOn_append_cons_self, List.map_append]

theorem fields_blank_append (blank : Text.isBlankText w = true) (v : List Char) :
    fields (w ++ v) = fields v := by
  obtain ⟨first, parts, -, -, split⟩ := exists_first_part ',' v
  have whole := split [] List.not_mem_nil
  rw [List.nil_append, List.nil_append] at whole
  rw [fields_eq, fields_eq, split w (comma_not_mem blank), whole, List.map_cons, List.map_cons,
    bare_blank_append blank]

theorem fields_append_blank (blank : Text.isBlankText w = true) (u : List Char) :
    fields (u ++ w) = fields u := by
  obtain ⟨parts, last, none, -, split⟩ := exists_last_part ',' u
  have whole := split []
  rw [List.append_nil, List.append_nil] at whole
  rw [fields_eq, fields_eq, split w, whole, List.splitOn_eq_singleton none,
    List.splitOn_eq_singleton (List.not_mem_append none (comma_not_mem blank))]
  simp only [List.map_append, List.map_cons, List.map_nil, bare_append_blank blank]

theorem isBlankText_append (u v : List Char) :
    Text.isBlankText (u ++ v) = (Text.isBlankText u && Text.isBlankText v) :=
  List.all_append

theorem saysSame_append_blank (blank : Text.isBlankText w = true) (u : List Char) :
    SaysSame u (u ++ w) :=
  ⟨by rw [isBlankText_append, blank, Bool.and_true], fields_append_blank blank u⟩

/-- Blanks may be put in at the beginning of a line and behind a comma. -/
theorem saysSame_leading (blank : Text.isBlankText w = true) (start : u = [] ∨ ∃ u', u = u' ++ [','])
    (v : List Char) : SaysSame (u ++ v) (u ++ w ++ v) := by
  constructor
  · simp only [isBlankText_append, blank, Bool.and_true]
  · rcases start with rfl | ⟨u', rfl⟩
    · rw [List.nil_append, List.nil_append, fields_blank_append blank]
    · simp only [List.append_assoc, List.cons_append, List.nil_append, fields_append_comma,
        fields_blank_append blank]

/-- Blanks may be put in before a comma and at the end of a line, also before blanks there. -/
theorem saysSame_trailing (blank : Text.isBlankText w = true)
    (stop : Text.isBlankText v = true ∨ ∃ v', v = ',' :: v') (u : List Char) :
    SaysSame (u ++ v) (u ++ w ++ v) := by
  constructor
  · simp only [isBlankText_append, blank, Bool.and_true]
  · rcases stop with blank' | ⟨v', rfl⟩
    · rw [fields_append_blank blank', fields_append_blank blank', fields_append_blank blank]
    · rw [fields_append_comma, fields_append_comma, fields_append_blank blank]

/-! ### Lines between line feeds -/

theorem encode_cons (c : Char) (text : List Char) :
    encode (c :: text) = String.utf8EncodeChar c ++ encode text := List.flatMap_cons

theorem splitOn_encode (text : List Char) : (encode text).splitOn 10 = (text.splitOn '\n').map encode := by
  induction text with
  | nil => rfl
  | cons c text ih =>
    by_cases feed : c = '\n'
    · subst feed
      change (10 :: encode text).splitOn 10 = (('\n' :: text).splitOn '\n').map encode
      rw [List.splitOn_cons_eq_if_modifyHead, List.splitOn_cons_eq_if_modifyHead, ih]
      rfl
    · have no_feed : 10 ∉ String.utf8EncodeChar c := fun mem =>
        feed (Char.toNat_inj.mp (toNat_of_mem_utf8EncodeChar mem (by decide)))
      have other : ¬(c == '\n') = true := fun eq => feed (beq_iff_eq.mp eq)
      rw [encode_cons, splitOn_append_of_not_mem no_feed, ih, List.splitOn_cons_eq_if_modifyHead,
        if_neg other]
      cases text.splitOn '\n' with
      | nil => rfl
      | cons first others => exact congrArg (· :: others.map encode) (encode_cons c first).symm

theorem dropReturn_append_return (line : List UInt8) : dropReturn (line ++ [13]) = line := by
  unfold dropReturn
  rw [List.reverse_append]
  exact line.reverse_reverse

theorem dropReturn_of_ne {c : Char} (other : c ≠ '\r') (line : List Char) :
    dropReturn (encode (line ++ [c])) = encode (line ++ [c]) := by
  have bytes : encode (line ++ [c]) = encode line ++ String.utf8EncodeChar c := by
    rw [encode_append, encode_cons]
    exact congrArg (encode line ++ ·) (List.append_nil _)
  unfold dropReturn
  split
  · rename_i rest reversed
    obtain ⟨front, last, split⟩ := (List.eq_nil_or_concat (String.utf8EncodeChar c)).resolve_left
      String.utf8EncodeChar_ne_nil
    have mem : last ∈ String.utf8EncodeChar c := by
      rw [split, List.concat_eq_append]
      exact List.mem_append_right _ List.mem_cons_self
    rw [bytes, split, List.concat_eq_append, ← List.append_assoc, List.reverse_concat] at reversed
    have code := toNat_of_mem_utf8EncodeChar mem
    rw [(List.cons.inj reversed).1] at code
    exact absurd (Char.toNat_inj.mp (code (by decide))) other
  · rfl

/-- What a line loses at its end is a blank. -/
theorem exists_dropReturn_encode (line : List Char) :
    ∃ kept, dropReturn (encode line) = encode kept ∧ SaysSame kept line := by
  rcases List.eq_nil_or_concat line with rfl | ⟨kept, c, rfl⟩
  · exact ⟨[], rfl, .refl []⟩
  · rw [List.concat_eq_append]
    by_cases returned : c = '\r'
    · subst returned
      refine ⟨kept, ?_, saysSame_append_blank (by decide) kept⟩
      rw [encode_append]
      exact dropReturn_append_return (encode kept)
    · exact ⟨kept ++ [c], dropReturn_of_ne returned kept, .refl _⟩

theorem exists_map_dropReturn (ls : List (List Char)) :
    ∃ kept, (ls.map encode).map dropReturn = kept.map encode ∧ List.Forall₂ SaysSame kept ls := by
  induction ls with
  | nil => exact ⟨[], rfl, .nil⟩
  | cons line ls ih =>
    obtain ⟨kept, dropped, same⟩ := exists_dropReturn_encode line
    obtain ⟨others, dropped', same'⟩ := ih
    refine ⟨kept :: others, ?_, .cons same same'⟩
    rw [List.map_cons, List.map_cons, List.map_cons, dropped, dropped']

/-! ### Judging lines -/

theorem step_congr (same : SaysSame line line') (s : State) (number : Nat) :
    s.step number (encode line') = s.step number (encode line) := by
  have judged : record line' = record line := by rw [record, record, same.2]
  rw [State.step, State.step, decode?_encode, decode?_encode]
  dsimp only
  rw [same.1, judged]

theorem run_congr {ls ls' : List (List Char)} (same : List.Forall₂ SaysSame ls ls') (s : State)
    (number : Nat) : s.run number (ls'.map encode) = s.run number (ls.map encode) := by
  induction same generalizing s number with
  | nil => rfl
  | cons here _ ih =>
    rw [List.map_cons, List.map_cons, State.run, State.run, step_congr here]
    cases s.step number _ with
    | error e => rfl
    | ok s => exact ih s _

/-- The lines of a text may be taken as what stands between its line feeds. -/
theorem run_lines (s : State) (number : Nat) (text : List Char) :
    s.run number (lines (encode text)) = s.run number ((text.splitOn '\n').map encode) := by
  obtain ⟨init, last, pieces⟩ := (List.eq_nil_or_concat (text.splitOn '\n')).resolve_left
    (List.splitOn_ne_nil '\n' text)
  obtain ⟨kept, dropped, same⟩ := exists_map_dropReturn init
  have ended : ∀ (s : State) number, s.run number ((some (encode last)).toList.filter (· ≠ [])) =
      s.run number [encode last] := by
    intro s number
    by_cases empty : encode last = []
    · rw [empty]
      change s.run number [] = s.run number [encode []]
      rw [State.run, State.run, step_of_isBlankText rfl]
      rfl
    · rw [Option.toList_some, List.filter_cons_of_pos (by simpa using empty), List.filter_nil]
  rw [lines_eq_physicalLines, physicalLines, splitOn_encode, pieces, List.concat_eq_append,
    List.map_append, List.map_cons, List.map_nil, List.dropLast_concat, List.getLast?_concat, dropped,
    run_append, run_append, run_congr same, List.length_map, List.length_map, same.length_eq]
  exact congrArg _ (funext fun s => ended s _)

/-- The state after the lines of a text, which are what stands between its line feeds. -/
def judged (text : List Char) : Except Error State := State.run {} 1 ((text.splitOn '\n').map encode)

theorem readText_eq (text : String) :
    readText text =
      match judged text.toList with
      | .error e => .error e
      | .ok s => if s.sawHeader then .ok s.points.reverse else .error (.format 1 .missingHeader) := by
  rw [readText, utf8_eq_encode, read, run_lines]
  rfl

theorem readText_congr {text text' : String} (same : judged text'.toList = judged text.toList) :
    readText text' = readText text := by
  rw [readText_eq, readText_eq, same]

/-! ### Carriage returns -/

/-- Some line feeds of a text are replaced by a carriage return and a line feed. -/
inductive Returned : List Char → List Char → Prop where
  | nil : Returned [] []
  | keep {text text'} (c : Char) : Returned text text' → Returned (c :: text) (c :: text')
  | feed {text text'} : Returned text text' → Returned ('\n' :: text) ('\r' :: '\n' :: text')

theorem Returned.lines {text text' : List Char} (returned : Returned text text') :
    List.Forall₂ (fun line line' => line' = line ∨ line' = line ++ ['\r']) (text.splitOn '\n')
      (text'.splitOn '\n') := by
  induction returned with
  | nil => exact .cons (.inl rfl) .nil
  | @keep text text' c _ ih =>
    rw [List.splitOn_cons_eq_if_modifyHead, List.splitOn_cons_eq_if_modifyHead]
    split
    · exact .cons (.inl rfl) ih
    · generalize text.splitOn '\n' = pieces, text'.splitOn '\n' = pieces' at ih ⊢
      cases ih with
      | nil => exact .nil
      | cons first others =>
        refine .cons ?_ others
        rcases first with rfl | rfl
        · exact .inl rfl
        · exact .inr rfl
  | feed _ ih =>
    rw [List.splitOn_cons_eq_if_modifyHead, if_pos (by decide), List.splitOn_cons_eq_if_modifyHead,
      if_neg (by decide), List.splitOn_cons_eq_if_modifyHead, if_pos (by decide)]
    exact .cons (.inr rfl) ih

theorem judged_of_returned {text text' : List Char} (returned : Returned text text') :
    judged text' = judged text := by
  refine run_congr (returned.lines.imp fun line line' ended => ?_) _ _
  rcases ended with rfl | rfl
  · exact .refl _
  · exact saysSame_append_blank (by decide) line

/-! ### Edits -/

/-- A line begins behind this. -/
def LineStart (before : List Char) : Prop := before = [] ∨ ['\n'] <:+ before

/-- A line ends before this. -/
def LineEnd (after : List Char) : Prop := after = [] ∨ ['\n'] <+: after ∨ ['\r', '\n'] <+: after

def FieldStart (before : List Char) : Prop := LineStart before ∨ [','] <:+ before

def FieldEnd (after : List Char) : Prop := LineEnd after ∨ [','] <+: after

/-- Spaces, tabs and all other blanks but line feeds. -/
def Spacing (w : List Char) : Prop := Text.isBlankText w = true ∧ '\n' ∉ w

/-- One change of the layout of a text. -/
inductive Relaid : List Char → List Char → Prop where
  /-- Blanks are put in front of a field. -/
  | leading {before after w} : FieldStart before → Spacing w →
      Relaid (before ++ after) (before ++ w ++ after)
  /-- Blanks are put behind a field. -/
  | trailing {before after w} : FieldEnd after → Spacing w →
      Relaid (before ++ after) (before ++ w ++ after)
  /-- A blank line is put in front of a line. -/
  | blankLine {before after w} : LineStart before → Spacing w →
      Relaid (before ++ after) (before ++ (w ++ '\n' :: after))
  /-- More columns are put behind a line that is not blank. -/
  | columns {before line more after} : LineStart before → LineEnd after → '\n' ∉ line →
      Text.isBlankText line = false → '\n' ∉ more →
      Relaid (before ++ line ++ after) (before ++ (line ++ ',' :: more) ++ after)

/-- The line around a place. -/
theorem exists_line (before after : List Char) :
    ∃ above u v below, '\n' ∉ u ∧ u <:+ before ∧ '\n' ∉ v ∧ v <+: after ∧
      ∀ mid, '\n' ∉ mid → (before ++ mid ++ after).splitOn '\n' = above ++ (u ++ mid ++ v) :: below := by
  obtain ⟨above, u, no_feed, suffix_, last⟩ := exists_last_part '\n' before
  obtain ⟨v, below, no_feed', prefix_, first⟩ := exists_first_part '\n' after
  refine ⟨above, u, v, below, no_feed, suffix_, no_feed', prefix_, fun mid none => ?_⟩
  rw [List.append_assoc, last, ← List.append_assoc, first _ (List.not_mem_append no_feed none)]

theorem eq_of_prefixes {c d : Char} {after : List Char} (prefix_ : c :: v <+: after)
    (prefix_' : d :: w <+: after) : c = d := by
  obtain ⟨rest, rfl⟩ := prefix_
  obtain ⟨rest', same⟩ := prefix_'
  exact (List.cons.inj same).1.symm

theorem eq_of_suffixes {c d : Char} {before : List Char} (suffix_ : v ++ [c] <:+ before)
    (suffix_' : [d] <:+ before) : c = d := by
  obtain ⟨front, rfl⟩ := suffix_
  obtain ⟨front', same⟩ := suffix_'
  rw [← List.append_assoc] at same
  exact (List.cons.inj (List.append_inj_right' same rfl)).1.symm

theorem eq_nil_of_lineStart {before : List Char} (start : LineStart before) (suffix_ : u <:+ before)
    (no_feed : '\n' ∉ u) : u = [] := by
  rcases List.eq_nil_or_concat u with rfl | ⟨u', c, rfl⟩
  · rfl
  · rw [List.concat_eq_append] at *
    rcases start with rfl | feed
    · exact List.suffix_nil.mp suffix_
    · obtain rfl := eq_of_suffixes suffix_ feed
      exact absurd (List.mem_append_right _ List.mem_cons_self) no_feed

theorem cases_of_fieldStart {before : List Char} (start : FieldStart before) (suffix_ : u <:+ before)
    (no_feed : '\n' ∉ u) : u = [] ∨ ∃ u', u = u' ++ [','] := by
  rcases start with line | comma
  · exact .inl (eq_nil_of_lineStart line suffix_ no_feed)
  · rcases List.eq_nil_or_concat u with rfl | ⟨u', c, rfl⟩
    · exact .inl rfl
    · rw [List.concat_eq_append] at *
      exact .inr ⟨u', by rw [eq_of_suffixes suffix_ comma]⟩

/-- What is left of a line in front of its end is nothing or the carriage return. -/
theorem isBlankText_of_lineEnd {after : List Char} (stop : LineEnd after) (prefix_ : v <+: after)
    (no_feed : '\n' ∉ v) : Text.isBlankText v = true := by
  rcases stop with rfl | feed | ⟨rest, rfl⟩
  · rw [List.prefix_nil.mp prefix_]
    rfl
  · cases v with
    | nil => rfl
    | cons c v =>
      obtain rfl := eq_of_prefixes prefix_ feed
      exact absurd List.mem_cons_self no_feed
  · match v, prefix_ with
    | [], _ => rfl
    | [c], prefix_ =>
      obtain ⟨rest', same⟩ := prefix_
      cases same
      rfl
    | c :: d :: v, prefix_ =>
      obtain ⟨rest', same⟩ := prefix_
      cases same
      exact absurd (List.mem_cons_of_mem _ List.mem_cons_self) no_feed

theorem cases_of_fieldEnd {after : List Char} (stop : FieldEnd after) (prefix_ : v <+: after)
    (no_feed : '\n' ∉ v) : Text.isBlankText v = true ∨ ∃ v', v = ',' :: v' := by
  rcases stop with line | comma
  · exact .inl (isBlankText_of_lineEnd line prefix_ no_feed)
  · cases v with
    | nil => exact .inl rfl
    | cons c v => exact .inr ⟨v, by rw [eq_of_prefixes prefix_ comma]⟩

/-! ### Edited texts -/

/-- A line that is right where another one is, and changes the state in the same way, wherever in the
text. -/
def Follows (line line' : List Char) : Prop :=
  ∀ s s' number number', State.step s number (encode line) = .ok s' →
    State.step s number' (encode line') = .ok s'

/-- Numbers of lines are of use in errors only. -/
theorem step_renumber (stepped : s.step number (encode line) = .ok s') (number' : Nat) :
    s.step number' (encode line) = .ok s' := by
  rw [State.step, decode?_encode] at stepped ⊢
  dsimp only at stepped ⊢
  cases judged : record line with
  | ok p =>
    rw [judged] at stepped
    exact stepped
  | error fault =>
    rw [judged] at stepped
    split_ifs at stepped ⊢ with blank header
    · exact stepped
    · exact stepped

theorem SaysSame.follows (same : SaysSame line line') : Follows line line' := by
  intro s s' number number' stepped
  rw [step_congr same]
  exact step_renumber stepped number'

theorem Follows.refl (line : List Char) : Follows line line := (SaysSame.refl line).follows

theorem Follows.trans (follows : Follows line line') (follows' : Follows line' text) : Follows line text :=
  fun s s' number number' stepped => follows' s s' number number' (follows s s' number number stepped)

theorem run_follows {ls ls' : List (List Char)} (follows : List.Forall₂ Follows ls ls')
    (ran : s.run number (ls.map encode) = .ok s') (number' : Nat) :
    s.run number' (ls'.map encode) = .ok s' := by
  induction follows generalizing s number number' with
  | nil => exact ran
  | @cons line line' ls ls' here _ ih =>
    rw [List.map_cons, State.run] at ran ⊢
    cases stepped : s.step number (encode line) with
    | error e =>
      rw [stepped] at ran
      contradiction
    | ok mid =>
      rw [stepped] at ran
      rw [here s mid number number' stepped]
      exact ih ran (number' + 1)

/-- A line may be exchanged for one that follows it. -/
theorem forall₂_follows (above below : List (List Char)) (here : Follows line line') :
    List.Forall₂ Follows (above ++ line :: below) (above ++ line' :: below) := by
  have kept : ∀ ls : List (List Char), List.Forall₂ Follows ls ls := fun ls =>
    List.forall₂_same.mpr fun line _ => .refl line
  exact List.rel_append (kept above) (.cons here (kept below))

/-- A blank line may stand anywhere. -/
theorem run_blankLine {above below : List (List Char)} (blank : Text.isBlankText w = true)
    (ran : s.run number ((above ++ below).map encode) = .ok s') :
    s.run number ((above ++ w :: below).map encode) = .ok s' := by
  have kept : List.Forall₂ Follows below below := List.forall₂_same.mpr fun line _ => .refl line
  rw [List.map_append, run_append] at ran ⊢
  cases start : s.run number (above.map encode) with
  | error e =>
    rw [start] at ran
    contradiction
  | ok mid =>
    rw [start] at ran
    change mid.run _ (encode w :: below.map encode) = .ok s'
    rw [State.run, step_of_isBlankText blank]
    exact run_follows kept ran _

theorem record_columns {p : Point} (read : record line = .ok p) (more : List Char) :
    record (line ++ ',' :: more) = .ok p := by
  rw [record, fields_append_comma]
  rw [record] at read
  split at read
  · rename_i fx fy fz others columns
    rw [columns]
    exact read
  · contradiction

/-- More columns may stand behind a line that is not blank. -/
theorem follows_columns (shown : Text.isBlankText line = false) (more : List Char) :
    Follows line (line ++ ',' :: more) := by
  intro s s' number number' stepped
  have shown' : Text.isBlankText (line ++ ',' :: more) = false := by
    rw [isBlankText_append, shown, Bool.false_and]
  rw [step_of_filled (filled?_eq_some_iff.mpr ⟨rfl, shown⟩)] at stepped
  rw [step_of_filled (filled?_eq_some_iff.mpr ⟨rfl, shown'⟩)]
  cases read : record line with
  | ok p =>
    rw [record_columns read]
    rw [read] at stepped
    exact stepped
  | error fault =>
    -- Such a line can only be the header, which is not asked for a point.
    rw [read] at stepped
    split_ifs at stepped ⊢ with header
    exact stepped

/-- A part of a line may be exchanged for another one if the line that this gives follows the one that
was there. -/
theorem judged_exchange {before after mid mid' : List Char} (single : '\n' ∉ mid) (single' : '\n' ∉ mid')
    (follows : ∀ u v, '\n' ∉ u → u <:+ before → '\n' ∉ v → v <+: after →
      Follows (u ++ mid ++ v) (u ++ mid' ++ v))
    (accepted : judged (before ++ mid ++ after) = .ok s) : judged (before ++ mid' ++ after) = .ok s := by
  obtain ⟨above, u, v, below, no_feed, suffix_, no_feed', prefix_, split⟩ := exists_line before after
  rw [judged, split mid single] at accepted
  rw [judged, split mid' single']
  exact run_follows (forall₂_follows above below (follows u v no_feed suffix_ no_feed' prefix_)) accepted 1

/-- Blanks may be put in where they leave what the line around them says. -/
theorem judged_of_spacing {before after : List Char} (spacing : Spacing w)
    (same : ∀ u v, '\n' ∉ u → u <:+ before → '\n' ∉ v → v <+: after → SaysSame (u ++ v) (u ++ w ++ v))
    (accepted : judged (before ++ after) = .ok s) : judged (before ++ w ++ after) = .ok s := by
  refine judged_exchange List.not_mem_nil spacing.2 (fun u v no_feed suffix_ no_feed' prefix_ => ?_)
    (by rwa [List.append_nil])
  rw [List.append_nil]
  exact (same u v no_feed suffix_ no_feed' prefix_).follows

theorem judged_of_relaid {text text' : List Char} (relaid : Relaid text text')
    (accepted : judged text = .ok s) : judged text' = .ok s := by
  cases relaid with
  | leading start spacing =>
    exact judged_of_spacing spacing (fun u v no_feed suffix_ _ _ =>
      saysSame_leading spacing.1 (cases_of_fieldStart start suffix_ no_feed) v) accepted
  | trailing stop spacing =>
    exact judged_of_spacing spacing (fun u v _ _ no_feed prefix_ =>
      saysSame_trailing spacing.1 (cases_of_fieldEnd stop prefix_ no_feed) u) accepted
  | @blankLine before after w start spacing =>
    obtain ⟨above, u, no_feed, suffix_, last⟩ := exists_last_part '\n' before
    obtain rfl := eq_nil_of_lineStart start suffix_ no_feed
    rw [judged, last, List.nil_append] at accepted
    rw [judged, last, List.nil_append, List.splitOn_append_cons_self_of_not_mem spacing.2]
    exact run_blankLine spacing.1 accepted
  | @columns before line more after start stop single shown single' =>
    have columns : '\n' ∉ line ++ ',' :: more := by
      rw [List.mem_append, List.mem_cons]
      rintro (mem | eq | mem)
      · exact single mem
      · exact absurd eq (by decide)
      · exact single' mem
    refine judged_exchange single columns (fun u v no_feed suffix_ no_feed' prefix_ => ?_) accepted
    obtain rfl := eq_nil_of_lineStart start suffix_ no_feed
    have blank := isBlankText_of_lineEnd stop prefix_ no_feed'
    -- The carriage return that may end the line is a blank behind either of them.
    have same : SaysSame (line ++ v) line := (saysSame_append_blank blank line).symm
    have behind : line ++ ',' :: more ++ v = line ++ ',' :: (more ++ v) := List.append_assoc ..
    rw [List.nil_append, List.nil_append, behind]
    exact same.follows.trans (follows_columns shown (more ++ v))

theorem readText_relaid {text text' : String} {cloud : Cloud}
    (relaid : Relaid text.toList text'.toList) (loaded : readText text = .ok cloud) :
    readText text' = .ok cloud := by
  rw [readText_eq] at loaded ⊢
  cases accepted : judged text.toList with
  | error e =>
    rw [accepted] at loaded
    contradiction
  | ok s =>
    rw [accepted] at loaded
    rw [judged_of_relaid relaid accepted]
    exact loaded

/-- Reading ignores the layout of a text. With carriage returns in front of any of its line feeds, a text
gives the same cloud or the same error on the same line. A text that gives a cloud gives the same cloud
after any number of changes: blank lines between its lines, blanks around its fields and more columns
behind its lines. -/
theorem readText_layout (text : String) :
    (∀ text' : String, Returned text.toList text'.toList → readText text' = readText text) ∧
    ∀ cloud, readText text = .ok cloud → ∀ text' : String,
      Relation.ReflTransGen (fun old new : String => Relaid old.toList new.toList) text text' →
        readText text' = .ok cloud := by
  refine ⟨fun text' returned => readText_congr (judged_of_returned returned), ?_⟩
  intro cloud loaded text' changes
  induction changes with
  | refl => exact loaded
  | tail _ change ih => exact readText_relaid change ih

/-- A carriage return put in behind the header, and a blank in front of a field. -/
theorem readText_layout_padded :
    readText "x,y,z\n1,2,3" = .ok [⟨1.0, 2.0, 3.0⟩] ∧
      readText "x,y,z\r\n1,2,3" = .ok [⟨1.0, 2.0, 3.0⟩] ∧
      readText "x,y,z\n1, 2,3" = .ok [⟨1.0, 2.0, 3.0⟩] := by
  have loaded : readText "x,y,z\n1,2,3" = .ok [⟨1.0, 2.0, 3.0⟩] := by decide +kernel
  obtain ⟨returned, relaid⟩ := readText_layout "x,y,z\n1,2,3"
  refine ⟨loaded, (returned "x,y,z\r\n1,2,3" ?_).trans loaded, ?_⟩
  · exact .keep _ (.keep _ (.keep _ (.keep _ (.keep _ (.feed
      (.keep _ (.keep _ (.keep _ (.keep _ (.keep _ .nil))))))))))
  · have field : FieldStart "x,y,z\n1,".toList := .inr ⟨"x,y,z\n1".toList, rfl⟩
    have space : Spacing [' '] := ⟨by decide, by decide⟩
    have edit : Relaid ("x,y,z\n1,".toList ++ "2,3".toList)
      ("x,y,z\n1,".toList ++ [' '] ++ "2,3".toList) := .leading field space
    exact relaid _ loaded "x,y,z\n1, 2,3" (.single edit)

end PointScope.Csv
