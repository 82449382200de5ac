import PointScope.Proofs.Cloud.Records
import Mathlib.Data.List.Forall2
import Mathlib.Data.List.Induction

/-! What reading a byte sequence gives. Lines are judged one after the other, each by itself and by
whether the header is behind it; the first one that is wrong decides. The state after lines that are all
right tells whether there was a header among them and the points of the lines since, so the verdict on
the next line does not need them again. -/
namespace PointScope.Csv

variable {ls before after : List (List UInt8)} {line : List UInt8} {text : List Char} {e : Error}

/-! ### Lines -/

/-- The text of a line, if it has one that is not blank. -/
def filled? (line : List UInt8) : Option (List Char) :=
  (decode? line).filter fun text => !(Text.trim text).isEmpty

/-- The texts of the lines that are not blank. The first of them is the header, the others are to be
points. -/
def filled (ls : List (List UInt8)) : List (List Char) := ls.filterMap filled?

theorem trim_eq_nil_iff : Text.trim text = [] ↔ Text.isBlankText text = true := by
  have ends : Text.trim text = (text.dropWhile Text.isBlank).rdropWhile Text.isBlank := rfl
  rw [ends, List.rdropWhile_eq_nil_iff, Text.isBlankText, List.all_eq_true]
  constructor
  · intro blank
    rw [← List.dropWhile_eq_nil_iff]
    cases rest : text.dropWhile Text.isBlank with
    | nil => rfl
    | cons c rest' =>
      have first := List.head?_dropWhile_not Text.isBlank text
      rw [rest, List.head?_cons] at first
      have kept : Text.isBlank c = false := first
      rw [rest] at blank
      rw [blank c List.mem_cons_self] at kept
      contradiction
  · intro blank
    rw [List.dropWhile_eq_nil_iff.mpr blank]
    exact fun c mem => absurd mem List.not_mem_nil

theorem filled?_eq_some_iff :
    filled? line = some text ↔ encode text = line ∧ Text.isBlankText text = false := by
  rw [filled?, Option.filter_eq_some_iff, decode?_eq_some_iff, ← Bool.not_eq_true,
    ← trim_eq_nil_iff, Bool.not_eq_true', List.isEmpty_eq_false_iff]

theorem isBlankText_of_filled?_eq_none (blank : filled? (encode text) = none) :
    Text.isBlankText text = true := by
  by_contra filled
  rw [Bool.not_eq_true] at filled
  rw [filled?_eq_some_iff.mpr ⟨rfl, filled⟩] at blank
  contradiction

/-! ### Verdicts on lines -/

/-- Lines none of which is wrong: each is text, and each behind the header that is not blank is that of
a point. -/
structure Sound (ls : List (List UInt8)) : Prop where
  text : ∀ line ∈ ls, ∃ text, encode text = line
  points : ∀ text ∈ (filled ls).tail, ∃ p, Tells text p

/-- What is wrong with a line behind others: it is no text, or there was a header and it is neither
blank nor that of a point. -/
inductive Faulty (before : List (List UInt8)) (line : List UInt8) : Error → Prop where
  | notText : (∀ text, encode text ≠ line) → Faulty before line .notText
  | wrong {text : List Char} {fault : Fault} : filled before ≠ [] → filled? line = some text →
      Wrong text fault → Faulty before line (.format (before.length + 1) fault)

theorem filled_snoc (ls : List (List UInt8)) (line : List UInt8) :
    filled (ls ++ [line]) = filled ls ++ (filled? line).toList := by
  rw [filled, List.filterMap_append]
  cases here : filled? line with
  | none => rw [List.filterMap_cons_none here]; rfl
  | some text => rw [List.filterMap_cons_some here]; rfl

/-- The texts of points among lines and one more. -/
theorem tail_filled_snoc (ls : List (List UInt8)) (line : List UInt8) :
    (filled (ls ++ [line])).tail =
      (filled ls).tail ++ if filled ls = [] then [] else (filled? line).toList := by
  rw [filled_snoc]
  cases filled ls with
  | nil => cases filled? line <;> rfl
  | cons first others => rfl

theorem Sound.init (sound : Sound (ls ++ [line])) : Sound ls where
  text other mem := sound.text other (List.mem_append_left _ mem)
  points text mem := by
    refine sound.points text ?_
    rw [tail_filled_snoc]
    exact List.mem_append_left _ mem

/-- Every sequence of lines is sound, or it has a first line that is wrong. -/
theorem sound_or_faulty (ls : List (List UInt8)) :
    Sound ls ∨ ∃ before line after e, ls = before ++ line :: after ∧ Sound before ∧
      Faulty before line e := by
  -- From behind: the last line is judged only if none before it is wrong.
  induction ls using List.reverseRecOn with
  | nil => exact .inl ⟨fun line mem => absurd mem List.not_mem_nil, fun text mem => by cases mem⟩
  | append_singleton ls line ih =>
    rcases ih with sound | ⟨before, wrong, after, e, rfl, sound, faulty⟩
    · by_cases encoded : ∃ text, encode text = line
      · have texts : ∀ other ∈ ls ++ [line], ∃ text, encode text = other := by
          intro other mem
          rcases List.mem_append.mp mem with earlier | here
          · exact sound.text other earlier
          · exact List.mem_singleton.mp here ▸ encoded
        by_cases fault : ∃ e, Faulty ls line e
        · obtain ⟨e, faulty⟩ := fault
          exact .inr ⟨ls, line, [], e, rfl, sound, faulty⟩
        · refine .inl ⟨texts, fun text mem => ?_⟩
          rw [tail_filled_snoc, List.mem_append] at mem
          rcases mem with earlier | here
          · exact sound.points text earlier
          · split at here
            · exact absurd here List.not_mem_nil
            · rename_i header
              rcases tells_or_wrong text with tells | ⟨reason, wrong⟩
              · exact tells
              · exact absurd ⟨_, .wrong header (Option.mem_toList.mp here) wrong⟩ fault
      · exact .inr ⟨ls, line, [], _, rfl, sound, .notText (not_exists.mp encoded)⟩
    · exact .inr ⟨before, wrong, after ++ [line], e, by simp, sound, faulty⟩

/-! ### Steps -/

theorem run_append (s : State) (number : Nat) (ls after : List (List UInt8)) :
    s.run number (ls ++ after) = (s.run number ls).bind fun s => s.run (number + ls.length) after := by
  induction ls generalizing s number with
  | nil => rfl
  | cons line ls ih =>
    rw [List.cons_append, State.run, State.run]
    cases s.step number line with
    | error e => rfl
    | ok s =>
      dsimp only
      rw [ih, List.length_cons, Nat.add_assoc, Nat.add_comm 1]

/-- The state after lines that are all right. -/
def stateAfter (ls : List (List UInt8)) (points : List Point) : State :=
  { sawHeader := !(filled ls).isEmpty, points := points.reverse }

theorem step_of_filled {s : State} (here : filled? line = some text) (number : Nat) :
    s.step number line =
      if !s.sawHeader then .ok { s with sawHeader := true }
      else
        match record text with
        | .error fault => .error (.format number fault)
        | .ok p => .ok { s with points := p :: s.points } := by
  obtain ⟨rfl, shown⟩ := filled?_eq_some_iff.mp here
  rw [State.step, decode?_encode]
  dsimp only
  rw [shown]
  rfl

theorem step_of_isBlankText (blank : Text.isBlankText text = true) (s : State) (number : Nat) :
    s.step number (encode text) = .ok s := by
  rw [State.step, decode?_encode]
  dsimp only
  rw [if_pos blank]

theorem step_of_blank (s : State) (blank : filled? (encode text) = none) (number : Nat) :
    s.step number (encode text) = .ok s :=
  step_of_isBlankText (isBlankText_of_filled?_eq_none blank) s number

theorem step_of_faulty {points : List Point} (faulty : Faulty before line e) :
    (stateAfter before points).step (before.length + 1) line = .error e := by
  cases faulty with
  | notText no_text =>
    have undecoded : decode? line = none := by
      rw [Option.eq_none_iff_forall_ne_some]
      intro text decoded
      exact no_text text (encode_of_decode? decoded)
    rw [State.step, undecoded]
  | wrong header here wrong =>
    have saw : (stateAfter before points).sawHeader = true := by
      rw [stateAfter, Bool.not_eq_true', List.isEmpty_eq_false_iff]
      exact header
    rw [step_of_filled here, saw, record_of_wrong wrong]
    rfl

/-- A line that is right adds its point, if it is one. -/
theorem step_of_sound {points : List Point} (sound : Sound (before ++ [line]))
    (told : List.Forall₂ Tells (filled before).tail points) :
    ∃ more, List.Forall₂ Tells (filled (before ++ [line])).tail (points ++ more) ∧
      (stateAfter before points).step (before.length + 1) line =
        .ok (stateAfter (before ++ [line]) (points ++ more)) := by
  obtain ⟨text, rfl⟩ := sound.text line (List.mem_append_right _ List.mem_cons_self)
  have all := filled_snoc before (encode text)
  cases here : filled? (encode text) with
  | none =>
    rw [here, Option.toList_none, List.append_nil] at all
    refine ⟨[], ?_, ?_⟩
    · rw [all, List.append_nil]
      exact told
    · rw [step_of_blank _ here, stateAfter, stateAfter, all, List.append_nil]
  | some shown =>
    rw [here, Option.toList_some] at all
    cases header : filled before with
    | nil =>
      -- This line is the header, so it is not asked for a point.
      rw [header] at all told
      obtain rfl := List.forall₂_nil_left_iff.mp told
      refine ⟨[], ?_, ?_⟩
      · rw [all]
        exact .nil
      · rw [step_of_filled here, stateAfter, stateAfter, header, all]
        rfl
    | cons first others =>
      rw [header] at all told
      have shown_told : ∃ p, Tells shown p := by
        refine sound.points shown ?_
        rw [all]
        exact List.mem_append_right _ List.mem_cons_self
      obtain ⟨p, tells⟩ := shown_told
      refine ⟨[p], ?_, ?_⟩
      · rw [all]
        exact List.rel_append told (List.Forall₂.cons tells .nil)
      · rw [step_of_filled here, record_of_tells tells, stateAfter, stateAfter, header, all,
          List.reverse_append]
        rfl

/-! ### Runs -/

theorem run_snoc (s : State) (number : Nat) (ls : List (List UInt8)) (line : List UInt8) :
    s.run number (ls ++ [line]) =
      (s.run number ls).bind fun s => s.step (number + ls.length) line := by
  rw [run_append]
  refine congrArg _ (funext fun s => ?_)
  rw [State.run]
  cases s.step (number + ls.length) line with
  | error e => rfl
  | ok s => rfl

theorem run_of_sound (sound : Sound ls) :
    ∃ points, List.Forall₂ Tells (filled ls).tail points ∧
      State.run {} 1 ls = .ok (stateAfter ls points) := by
  induction ls using List.reverseRecOn with
  | nil => exact ⟨[], .nil, rfl⟩
  | append_singleton before line ih =>
    obtain ⟨points, told, ran⟩ := ih sound.init
    obtain ⟨more, told, stepped⟩ := step_of_sound sound told
    refine ⟨points ++ more, told, ?_⟩
    rw [run_snoc, ran, Nat.add_comm 1]
    exact stepped

/-- The first line that is wrong ends the run, whatever comes behind it. -/
theorem run_of_faulty (sound : Sound before) (faulty : Faulty before line e)
    (after : List (List UInt8)) : State.run {} 1 (before ++ line :: after) = .error e := by
  obtain ⟨points, -, ran⟩ := run_of_sound sound
  have stepped : (stateAfter before points).step (before.length + 1) line = .error e :=
    step_of_faulty faulty
  rw [run_append, ran, Nat.add_comm 1]
  change State.run _ _ (line :: after) = _
  rw [State.run, stepped]

/-! ### Texts -/

variable {bytes : List UInt8}

theorem read_of_sound (sound : Sound (physicalLines bytes)) :
    ∃ points, List.Forall₂ Tells (filled (physicalLines bytes)).tail points ∧
      read bytes = if filled (physicalLines bytes) = [] then .error (.format 1 .missingHeader)
        else .ok points := by
  obtain ⟨points, told, ran⟩ := run_of_sound sound
  refine ⟨points, told, ?_⟩
  rw [read, lines_eq_physicalLines, ran]
  cases header : filled (physicalLines bytes) with
  | nil => simp [stateAfter, header]
  | cons first others => simp [stateAfter, header]

theorem read_of_faulty (cut : physicalLines bytes = before ++ line :: after) (sound : Sound before)
    (faulty : Faulty before line e) : read bytes = .error e := by
  rw [read, lines_eq_physicalLines, cut, run_of_faulty sound faulty]

theorem exists_of_told {texts : List (List Char)} {cloud : Cloud}
    (told : List.Forall₂ Tells texts cloud) : ∀ text ∈ texts, ∃ p, Tells text p := by
  induction told with
  | nil => exact fun text mem => absurd mem List.not_mem_nil
  | cons tells _ ih => exact List.forall_mem_cons.mpr ⟨⟨_, tells⟩, ih⟩

theorem read_eq_ok_iff {cloud : Cloud} :
    read bytes = .ok cloud ↔
      (∀ line ∈ physicalLines bytes, ∃ text, encode text = line) ∧
      filled (physicalLines bytes) ≠ [] ∧
      List.Forall₂ Tells (filled (physicalLines bytes)).tail cloud := by
  constructor
  · intro success
    rcases sound_or_faulty (physicalLines bytes) with
      sound | ⟨before, line, after, e, cut, sound, faulty⟩
    · obtain ⟨points, told, result⟩ := read_of_sound sound
      rw [success] at result
      split at result
      · contradiction
      · rename_i header
        cases result
        exact ⟨sound.text, header, told⟩
    · rw [read_of_faulty cut sound faulty] at success
      contradiction
  · rintro ⟨texts, header, told⟩
    obtain ⟨points, told', result⟩ := read_of_sound ⟨texts, exists_of_told told⟩
    rw [result, if_neg header, List.right_unique_forall₂' rightUnique_tells told told']

theorem read_eq_error_iff :
    read bytes = .error e ↔
      (∃ before line after, physicalLines bytes = before ++ line :: after ∧ Sound before ∧
        Faulty before line e) ∨
      (Sound (physicalLines bytes) ∧ filled (physicalLines bytes) = [] ∧
        e = .format 1 .missingHeader) := by
  constructor
  · intro failure
    rcases sound_or_faulty (physicalLines bytes) with
      sound | ⟨before, line, after, e', cut, sound, faulty⟩
    · obtain ⟨points, told, result⟩ := read_of_sound sound
      rw [failure] at result
      split at result
      · rename_i no_header
        cases result
        exact .inr ⟨sound, no_header, rfl⟩
      · contradiction
    · have result := read_of_faulty cut sound faulty
      rw [failure] at result
      cases result
      exact .inl ⟨before, line, after, cut, sound, faulty⟩
  · rintro (⟨before, line, after, cut, sound, faulty⟩ | ⟨sound, no_header, rfl⟩)
    · exact read_of_faulty cut sound faulty
    · obtain ⟨points, told, result⟩ := read_of_sound sound
      rw [result, if_pos no_header]

/-- Reading a byte sequence gives a cloud if all of its lines are text, one of them is not blank, and every
later one that is not blank is that of a point; then the cloud is these points. Otherwise the first line
that is wrong tells the error, or that there is no header, and no line behind it matters. -/
theorem read_decided (bytes : List UInt8) :
    (∀ cloud, read bytes = .ok cloud ↔
      (∀ line ∈ physicalLines bytes, ∃ text, encode text = line) ∧
      filled (physicalLines bytes) ≠ [] ∧
      List.Forall₂ Tells (filled (physicalLines bytes)).tail cloud) ∧
    (∀ e, read bytes = .error e ↔
      (∃ before line after, physicalLines bytes = before ++ line :: after ∧ Sound before ∧
        Faulty before line e) ∨
      (Sound (physicalLines bytes) ∧ filled (physicalLines bytes) = [] ∧
        e = .format 1 .missingHeader)) ∧
    ∀ before line after e, physicalLines bytes = before ++ line :: after → Sound before →
      Faulty before line e → ∀ bytes' after', physicalLines bytes' = before ++ line :: after' →
        read bytes' = read bytes := by
  refine ⟨fun cloud => read_eq_ok_iff, fun e => read_eq_error_iff, ?_⟩
  intro before line after e cut sound faulty bytes' after' cut'
  rw [read_of_faulty cut sound faulty, read_of_faulty cut' sound faulty]

end PointScope.Csv
