import PointScope.Proofs.Grid.Axis
import PointScope.Session.Run

/-! Which configurations are accepted, and what is made of them. The checks are requirements in a row: a
configuration that meets them all is accepted, and else the first one it violates is named. What is made of
an accepted configuration needs none of the defaults that stand in for what cannot be used. -/
namespace PointScope.Config

variable {c : Config} {e : Unusable}

/-! ### Checks in a row -/

section

variable {α ε : Type} {check : α → Except ε Unit} {as : List α} {fault : ε}

theorem forM_of_forall_ok (passed : ∀ a ∈ as, check a = .ok ()) : as.forM check = .ok () := by
  induction as with
  | nil => rfl
  | cons a as ih =>
    change (check a >>= fun _ => as.forM check) = .ok ()
    rw [passed a List.mem_cons_self]
    exact ih fun b mem => passed b (List.mem_cons_of_mem a mem)

/-- The first check that fails ends the row, whatever comes behind it. -/
theorem forM_of_error {before : List α} {a : α} (passed : ∀ b ∈ before, check b = .ok ())
    (failed : check a = .error fault) (after : List α) :
    (before ++ a :: after).forM check = .error fault := by
  induction before with
  | nil =>
    change (check a >>= fun _ => after.forM check) = .error fault
    rw [failed]
    rfl
  | cons b before ih =>
    change (check b >>= fun _ => (before ++ a :: after).forM check) = .error fault
    rw [passed b List.mem_cons_self]
    exact ih fun b' mem => passed b' (List.mem_cons_of_mem b mem)

/-- A row of checks is passed, or there is a first one that fails. -/
theorem forall_ok_or_first_error (as : List α) (check : α → Except ε Unit) :
    (∀ a ∈ as, check a = .ok ()) ∨
      ∃ before a after fault, as = before ++ a :: after ∧ (∀ b ∈ before, check b = .ok ()) ∧
        check a = .error fault := by
  induction as with
  | nil => exact .inl fun a mem => absurd mem List.not_mem_nil
  | cons a as ih =>
    cases here : check a with
    | error fault => exact .inr ⟨[], a, as, fault, rfl, fun b mem => absurd mem List.not_mem_nil, here⟩
    | ok _ =>
      rcases ih with passed | ⟨before, b, after, fault, rfl, passed, failed⟩
      · exact .inl (List.forall_mem_cons.mpr ⟨here, passed⟩)
      · exact .inr ⟨a :: before, b, after, fault, rfl, List.forall_mem_cons.mpr ⟨here, passed⟩, failed⟩

end

/-! ### Requirements -/

/-- What is asked of a configuration. -/
inductive Requirement where
  | color (which : ColorSetting)
  | size (which : SizeSetting)
  | axisLength
  | sampling

namespace Requirement

/-- All requirements in the order they are checked. -/
def all : List Requirement := [
  .color .background, .color .pointColor, .color .borderColor, .color .labelColor,
  .size .pointSize, .size .gridExtent, .size .axisThickness, .axisLength, .sampling]

def Met (c : Config) : Requirement → Prop
  | color which => ∃ color, Rgba.ofHex? (which.text c.style) = some color
  | size which => 0 ≤ which.value c.style ∧ which.value c.style ≤ which.greatest
  | axisLength => c.style.axisLength.isFinite = true ∧ 0.0 ≤ c.style.axisLength
  | sampling => ∃ g, c.grid = .ok g

def judge (c : Config) : Requirement → Except Unusable Unit
  | color which => checkColor c.style which
  | size which => checkSize c.style which
  | axisLength => checkAxisLength c.style
  | sampling =>
    match c.grid with
    | .ok _ => .ok ()
    | .error fault => .error (.sampling fault)

/-- A requirement is not met, and this is said about it. -/
inductive Violated (c : Config) : Requirement → Unusable → Prop where
  | color {which : ColorSetting} : Rgba.ofHex? (which.text c.style) = none →
      Violated c (.color which) (.color which (which.text c.style))
  | size {which : SizeSetting} :
      ¬(0 ≤ which.value c.style ∧ which.value c.style ≤ which.greatest) →
      Violated c (.size which) (.size which (which.value c.style))
  | axisLength : ¬(c.style.axisLength.isFinite = true ∧ 0.0 ≤ c.style.axisLength) →
      Violated c .axisLength (.axisLength c.style.axisLength)
  | sampling {fault : GridFault} : c.grid = .error fault → Violated c .sampling (.sampling fault)

end Requirement

/-- A finite number is not below zero exactly if zero is not above it, with either sign of zero. -/
theorem not_lt_zero_iff {v : Float} (finite : v.isFinite = true) : ¬v < 0.0 ↔ 0.0 ≤ v := by
  have number := SampleGrid.isNaN_of_isFinite finite
  rw [← Grid.not_le_iff_less (by decide +kernel) number, not_not]

theorem checkAxisLength_eq (s : StyleSettings) :
    checkAxisLength s =
      if s.axisLength.isFinite = true ∧ 0.0 ≤ s.axisLength then .ok ()
      else .error (.axisLength s.axisLength) := by
  have refused : (!s.axisLength.isFinite || decide (s.axisLength < 0.0)) = true ↔
      ¬(s.axisLength.isFinite = true ∧ 0.0 ≤ s.axisLength) := by
    by_cases finite : s.axisLength.isFinite = true
    · simp only [finite, Bool.not_true, Bool.false_or, decide_eq_true_eq, true_and]
      rw [← not_lt_zero_iff finite, not_not]
    · simp only [finite, Bool.not_false, Bool.true_or, Bool.false_eq_true, false_and, not_false_eq_true]
  unfold checkAxisLength
  rw [if_congr refused rfl rfl, ite_not]

/-- A requirement is met and its check is passed, or it is violated and its check says so. -/
theorem met_or_violated (c : Config) (r : Requirement) :
    r.Met c ∧ r.judge c = .ok () ∨ ∃ e, r.Violated c e ∧ ¬r.Met c ∧ r.judge c = .error e := by
  cases r with
  | color which =>
    cases read : Rgba.ofHex? (which.text c.style) with
    | some color =>
      refine .inl ⟨⟨color, read⟩, ?_⟩
      rw [Requirement.judge, checkColor, read]
    | none =>
      refine .inr ⟨_, .color read, ?_, ?_⟩
      · rintro ⟨color, read'⟩
        rw [read] at read'
        contradiction
      · rw [Requirement.judge, checkColor, read]
  | size which =>
    by_cases within : 0 ≤ which.value c.style ∧ which.value c.style ≤ which.greatest
    · exact .inl ⟨within, if_pos within⟩
    · exact .inr ⟨_, .size within, within, if_neg within⟩
  | axisLength =>
    by_cases met : c.style.axisLength.isFinite = true ∧ 0.0 ≤ c.style.axisLength
    · exact .inl ⟨met, (checkAxisLength_eq c.style).trans (if_pos met)⟩
    · exact .inr ⟨_, .axisLength met, met, (checkAxisLength_eq c.style).trans (if_neg met)⟩
  | sampling =>
    cases made : c.grid with
    | ok g =>
      refine .inl ⟨⟨g, made⟩, ?_⟩
      rw [Requirement.judge, made]
    | error fault =>
      refine .inr ⟨_, .sampling made, ?_, ?_⟩
      · rintro ⟨g, made'⟩
        rw [made] at made'
        contradiction
      · rw [Requirement.judge, made]

theorem judge_eq_ok_iff {r : Requirement} : r.judge c = .ok () ↔ r.Met c := by
  rcases met_or_violated c r with ⟨met, passed⟩ | ⟨e, -, unmet, failed⟩
  · exact iff_of_true passed met
  · rw [failed]
    exact iff_of_false nofun unmet

theorem violated_of_judge {r : Requirement} (failed : r.judge c = .error e) : r.Violated c e := by
  rcases met_or_violated c r with ⟨-, passed⟩ | ⟨e', violated, -, failed'⟩
  · rw [passed] at failed
    contradiction
  · rw [failed] at failed'
    cases failed'
    exact violated

/-- Checking a configuration is checking the requirements in a row. -/
theorem check_eq (c : Config) : c.check = Requirement.all.forM (Requirement.judge c) := by
  simp only [check, Requirement.all, ColorSetting.all, SizeSetting.all, List.forM_eq_forM,
    List.forM_cons, List.forM_nil, bind_assoc, pure_bind, Requirement.judge]
  cases c.grid <;> rfl

/-- A configuration that meets all requirements passes the check; else the check names the first one that
is violated. -/
theorem check_cases (c : Config) :
    (∀ r ∈ Requirement.all, r.Met c) ∧ c.check = .ok () ∨
      ∃ before r after e, Requirement.all = before ++ r :: after ∧ (∀ q ∈ before, q.Met c) ∧
        r.Violated c e ∧ ¬r.Met c ∧ c.check = .error e := by
  rcases forall_ok_or_first_error Requirement.all (Requirement.judge c) with
    passed | ⟨before, r, after, e, cut, passed, failed⟩
  · refine .inl ⟨fun r mem => judge_eq_ok_iff.mp (passed r mem), ?_⟩
    rw [check_eq, forM_of_forall_ok passed]
  · refine .inr ⟨before, r, after, e, cut, fun q mem => judge_eq_ok_iff.mp (passed q mem),
      violated_of_judge failed, fun met => ?_, ?_⟩
    · rw [judge_eq_ok_iff.mpr met] at failed
      contradiction
    · rw [check_eq, cut, forM_of_error passed failed]

/-! ### Use -/

/-- What can be used as it is written: colors that can be read, sizes and a length within bounds and a
grid that can be walked. -/
structure Usable (c : Config) : Prop where
  background : ∃ color, Rgba.ofHex? c.style.background = some color
  pointColor : ∃ color, Rgba.ofHex? c.style.pointColor = some color
  borderColor : ∃ color, Rgba.ofHex? c.style.borderColor = some color
  labelColor : ∃ color, Rgba.ofHex? c.style.labelColor = some color
  pointSize : 0 ≤ c.style.pointSize ∧ c.style.pointSize ≤ 200
  gridExtent : 0 ≤ c.style.gridExtent ∧ c.style.gridExtent ≤ 100
  axisThickness : c.style.axisThickness ≤ 32
  axisLength : c.style.axisLength.isFinite = true ∧ 0.0 ≤ c.style.axisLength
  sampling : ∃ g, SampleGrid.new? c.sampling.xMin c.sampling.xMax c.sampling.yMin c.sampling.yMax
    c.sampling.step = .ok g

/-- The style has every setting as it is written, and no default in the place of a color. -/
structure UsesAll (c : Config) (s : SceneStyle) : Prop where
  background : Rgba.ofHex? c.style.background = some s.background
  pointColor : Rgba.ofHex? c.style.pointColor = some s.pointColor
  borderColor : Rgba.ofHex? c.style.borderColor = some s.borderColor
  labelColor : Rgba.ofHex? c.style.labelColor = some s.labelColor
  pointSize : s.pointSize = c.style.pointSize
  gridExtent : s.gridExtent = c.style.gridExtent
  axisLength : s.axisLength = c.style.axisLength
  axisThickness : s.axisThickness = c.style.axisThickness

theorem usable_iff : Usable c ↔ ∀ r ∈ Requirement.all, r.Met c := by
  simp only [Requirement.all, List.forall_mem_cons]
  constructor
  · intro usable
    exact ⟨usable.background, usable.pointColor, usable.borderColor, usable.labelColor,
      usable.pointSize, usable.gridExtent, ⟨Int.natCast_nonneg _, Int.ofNat_le.mpr usable.axisThickness⟩,
      usable.axisLength, usable.sampling, fun r mem => absurd mem List.not_mem_nil⟩
  · rintro ⟨background, pointColor, borderColor, labelColor, pointSize, gridExtent, axisThickness,
      axisLength, sampling, -⟩
    exact ⟨background, pointColor, borderColor, labelColor, pointSize, gridExtent,
      Int.ofNat_le.mp axisThickness.2, axisLength, sampling⟩

theorem check_eq_ok_iff : c.check = .ok () ↔ Usable c := by
  rw [usable_iff]
  rcases check_cases c with ⟨met, passed⟩ | ⟨before, r, after, e, cut, -, -, unmet, failed⟩
  · exact iff_of_true passed met
  · rw [failed]
    refine iff_of_false nofun fun met => unmet (met r ?_)
    rw [cut]
    exact List.mem_append_right _ List.mem_cons_self

theorem Usable.grid_eq (usable : Usable c) :
    c.grid = .ok ⟨c.sampling.xMin, c.sampling.xMax, c.sampling.yMin, c.sampling.yMax, c.sampling.step⟩ := by
  obtain ⟨g, made⟩ := usable.sampling
  rw [grid, made, (SampleGrid.isFinite_of_new? made).2.2]

theorem Usable.usesAll (usable : Usable c) : UsesAll c c.sceneStyle := by
  have read : ∀ {text : String}, (∃ color, Rgba.ofHex? text = some color) →
      ∀ fallback, Rgba.ofHex? text = some ((Rgba.ofHex? text).getD fallback) := by
    rintro text ⟨color, read⟩ fallback
    rw [read, Option.getD_some]
  exact ⟨read usable.background _, read usable.pointColor _, read usable.borderColor _,
    read usable.labelColor _, rfl, rfl, rfl, rfl⟩

theorem Usable.hoverBox_eq (usable : Usable c) : c.sceneStyle.hoverBox = 5 * c.style.pointSize := by
  obtain ⟨least, most⟩ := usable.pointSize
  change Screen.saturate (c.style.pointSize * 5) = _
  rw [Screen.saturate_of_mem]
  · exact Int.mul_comm ..
  · unfold Screen.least
    omega
  · unfold Screen.greatest
    omega

/-- The defaults can be used. -/
theorem usable_default : Usable {} := check_eq_ok_iff.mp rfl

/-! ### Texts and files -/

section

variable (read : String → Except ReadFault Config)

/-- The configuration of a file, given what it holds if it can be read. -/
def ofFile (path : String) (content : Option ByteArray) : Except Failure Config :=
  match content.bind String.fromUTF8? with
  | none => .error (.noConfig path)
  | some text =>
    match parseWith read text with
    | .error fault => .error (.config fault)
    | .ok c => .ok c

/-- The configurations that are given out, by any way of reading settings. -/
inductive GivenOut : Config → Prop where
  | parsed {text c} : parseWith read text = .ok c → GivenOut c
  | loaded {path content c} : ofFile read path content = .ok c → GivenOut c
  | loadedOrDefault (path content) : GivenOut ((ofFile read path content).toOption.getD {})

variable {read} {text : String}

theorem parseWith_eq_ok_iff :
    parseWith read text = .ok c ↔
      Text.isBlankText text.toList = true ∧ c = {} ∨
        Text.isBlankText text.toList = false ∧ read text = .ok c ∧ Usable c := by
  unfold parseWith
  cases Text.isBlankText text.toList with
  | true =>
    rw [if_pos rfl]
    constructor
    · intro accepted
      exact .inl ⟨rfl, (Except.ok.inj accepted).symm⟩
    · rintro (⟨-, rfl⟩ | ⟨shown, -⟩)
      · rfl
      · contradiction
  | false =>
    rw [if_neg Bool.false_ne_true]
    constructor
    · intro accepted
      split at accepted
      · contradiction
      · rename_i c' settings
        split at accepted
        · contradiction
        · rename_i passed
          obtain rfl := Except.ok.inj accepted
          exact .inr ⟨rfl, settings, check_eq_ok_iff.mp passed⟩
    · rintro (⟨blank, -⟩ | ⟨-, settings, usable⟩)
      · contradiction
      · rw [settings]
        dsimp only
        rw [check_eq_ok_iff.mpr usable]

/-- Settings that cannot be used as they are written are refused with the first reason why. -/
theorem parseWith_of_unusable (shown : Text.isBlankText text.toList = false) (settings : read text = .ok c)
    (unusable : ¬Usable c) :
    ∃ before r after e, Requirement.all = before ++ r :: after ∧ (∀ q ∈ before, q.Met c) ∧
      r.Violated c e ∧ parseWith read text = .error (.unusable e) := by
  rcases check_cases c with ⟨met, -⟩ | ⟨before, r, after, e, cut, met, violated, -, failed⟩
  · exact absurd (usable_iff.mpr met) unusable
  · refine ⟨before, r, after, e, cut, met, violated, ?_⟩
    rw [parseWith, shown, if_neg Bool.false_ne_true, settings]
    dsimp only
    rw [failed]

theorem parseWith_of_ofFile {path : String} {content : Option ByteArray}
    (loaded : ofFile read path content = .ok c) : ∃ text, parseWith read text = .ok c := by
  unfold ofFile at loaded
  split at loaded
  · contradiction
  · rename_i text _
    split at loaded
    · contradiction
    · rename_i c' accepted
      obtain rfl := Except.ok.inj loaded
      exact ⟨text, accepted⟩

theorem usable_of_parseWith (accepted : parseWith read text = .ok c) : Usable c := by
  rcases parseWith_eq_ok_iff.mp accepted with ⟨-, rfl⟩ | ⟨-, -, usable⟩
  · exact usable_default
  · exact usable

theorem usable_of_givenOut (given : GivenOut read c) : Usable c := by
  cases given with
  | parsed accepted => exact usable_of_parseWith accepted
  | loaded loaded =>
    obtain ⟨text, accepted⟩ := parseWith_of_ofFile loaded
    exact usable_of_parseWith accepted
  | loadedOrDefault path content =>
    cases loaded : ofFile read path content with
    | error failure => exact usable_default
    | ok c =>
      obtain ⟨text, accepted⟩ := parseWith_of_ofFile loaded
      exact usable_of_parseWith accepted

end

/-! ### Sessions -/

/-- A session loads the file of a configuration in this way, and logs it if it can be used. -/
theorem loadConfig_eq {m : Type → Type} [Monad m] (host : Session.Host m) (path : String) :
    Session.loadConfig host path = do
      match ofFile readSettings path (← host.read path).toOption with
      | .error failure => return .error failure
      | .ok c =>
        host.note (.configLoaded path)
        return .ok c := by
  unfold Session.loadConfig
  refine congrArg (host.read path >>= ·) (funext fun content => ?_)
  unfold ofFile
  cases content.toOption.bind String.fromUTF8? with
  | none => rfl
  | some text =>
    dsimp only
    rw [parse]
    cases parseWith readSettings text <;> rfl

theorem loadConfigOrDefault_eq {m : Type → Type} [Monad m] (host : Session.Host m) (path : String) :
    Session.loadConfigOrDefault host path = do
      return (← Session.loadConfig host path).toOption.getD {} := by
  unfold Session.loadConfigOrDefault
  refine congrArg (Session.loadConfig host path >>= ·) (funext fun result => ?_)
  cases result <;> rfl

/-- However settings are read from texts, a configuration is accepted if and only if it can be used as it is
written, and a text of settings that cannot be used is refused, on no line, with the first requirement that
they violate. All that is given out, from texts or from files of whatever content, the defaults included,
makes a grid, a style without a default in the place of any setting, and a square around points that reaches
five of their radii. Sessions load their files in this way. -/
theorem accepted_iff_usable (read : String → Except ReadFault Config) :
    (∀ text c, parseWith read text = .ok c ↔
      Text.isBlankText text.toList = true ∧ c = {} ∨
        Text.isBlankText text.toList = false ∧ read text = .ok c ∧ Usable c) ∧
    (∀ text c, Text.isBlankText text.toList = false → read text = .ok c → ¬Usable c →
      ∃ before r after e, Requirement.all = before ++ r :: after ∧ (∀ q ∈ before, q.Met c) ∧
        r.Violated c e ∧ parseWith read text = .error (.unusable e) ∧ (Fault.unusable e).line = 0) ∧
    (∀ c, GivenOut read c → Usable c ∧
      c.grid = .ok ⟨c.sampling.xMin, c.sampling.xMax, c.sampling.yMin, c.sampling.yMax, c.sampling.step⟩ ∧
      UsesAll c c.sceneStyle ∧ c.sceneStyle.hoverBox = 5 * c.style.pointSize) ∧
    ∀ (m : Type → Type) [Monad m] (host : Session.Host m) (path : String),
      (Session.loadConfig host path = do
        match ofFile readSettings path (← host.read path).toOption with
        | .error failure => return .error failure
        | .ok c =>
          host.note (.configLoaded path)
          return .ok c) ∧
      Session.loadConfigOrDefault host path = do
        return (← Session.loadConfig host path).toOption.getD {} := by
  refine ⟨fun text c => parseWith_eq_ok_iff, ?_, ?_, ?_⟩
  · intro text c shown settings unusable
    obtain ⟨before, r, after, e, cut, met, violated, refused⟩ :=
      parseWith_of_unusable shown settings unusable
    exact ⟨before, r, after, e, cut, met, violated, refused, rfl⟩
  · intro c given
    have usable := usable_of_givenOut given
    exact ⟨usable, usable.grid_eq, usable.usesAll, usable.hoverBox_eq⟩
  · exact fun m _ host path => ⟨loadConfig_eq host path, loadConfigOrDefault_eq host path⟩

/-- A configuration whose points are too large is refused, and the defaults reach five radii. -/
theorem accepted_iff_usable_oversized :
    (∃ e, parseWith (fun _ => .ok { style := { pointSize := 201 } }) "style: \x7bpoint_size: 201\x7d" =
      .error (.unusable e)) ∧
      ({} : Config).sceneStyle.hoverBox = 5 * ({} : Config).style.pointSize := by
  obtain ⟨-, refused, given, -⟩ := accepted_iff_usable fun _ => .ok { style := { pointSize := 201 } }
  constructor
  · obtain ⟨-, -, -, e, -, -, -, eq, -⟩ := refused "style: \x7bpoint_size: 201\x7d" _ (by decide) rfl
      (fun usable => absurd usable.pointSize.2 (by decide))
    exact ⟨e, eq⟩
  · have blank : parseWith (fun _ => .ok { style := { pointSize := 201 } }) "" = .ok {} := rfl
    exact (given {} (.parsed blank)).2.2.2

end PointScope.Config
