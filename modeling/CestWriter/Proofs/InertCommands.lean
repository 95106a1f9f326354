import CestWriter.Proofs.Concatenation

/-!
# Commands that do nothing

A command that is disabled or only concerns the recorder adds no statement to a test. Put anywhere
into a test, it leaves its comment and, if it is disabled, a line that says so, both at the level of
the place where it stands. It changes nothing else: the running level, and with it every other line,
is as before, and a test that fails without it fails with it at the same command. Only a test with
open blocks, which names its last command, can name another one.
-/

namespace CestWriter

/-- The command is disabled, or it only concerns the recorder. -/
def Command.IsInert (c : Command) : Prop :=
  c.isDisabled = true ∨ c.name ∈ Vocabulary.recorderNames

instance (c : Command) : Decidable c.IsInert :=
  inferInstanceAs (Decidable (_ ∨ _))

/-- The lines that an inert command leaves at a level. -/
def inertLines (level : Nat) (c : Command) : List Line :=
  commentLines level c.comment ++ if c.isDisabled then [disabledLine level c] else []

namespace Table

section Standard

variable {t : Table} (ht : t.IsStandard) {c : Command} (hinert : c.IsInert)

include ht hinert

/-- An inert command is passed at every level, and the level stays. -/
theorem step_inert (level : Nat) : t.step level c = .ok (level, inertLines level c) := by
  cases hd : c.isDisabled with
  | true => rw [step_disabled t level hd, inertLines, if_pos hd]
  | false =>
    have hrecorder : c.name ∈ Vocabulary.recorderOnly := by
      rcases hinert with hdisabled | hname
      · rw [hd] at hdisabled
        cases hdisabled
      · exact Vocabulary.mem_recorderOnly_iff.mpr hname
    have hemit : t.emit level c = .ok .nothing := emit_recorderOnly ht hrecorder
    have hlevel : (level : Int) = level + Emission.nothing.before := (Int.add_zero _).symm
    rw [step_of_emit hd hemit hlevel hlevel, inertLines, if_neg (by simp [hd])]
    rfl

/-- The walk through commands with an inert one among them. -/
theorem walk_insert (level : Nat) (before after : List Command) :
    t.walk level (before ++ c :: after) =
      (t.walk level before).bind fun first =>
        (t.walk first.1 after).map fun r => (r.1, first.2 ++ inertLines first.1 c ++ r.2) := by
  rw [walk_append_eq]
  cases t.walk level before with
  | error error => rfl
  | ok first =>
    change t.continued (c :: after) first = (t.walk first.1 after).map _
    rw [continued, walk_cons_eq, step_inert ht hinert]
    change (t.continued after (first.1, inertLines first.1 c)).map _ = _
    rw [continued]
    cases t.walk first.1 after with
    | error error => rfl
    | ok r => simp only [Except.map, List.append_assoc]

theorem walk_insert_eq_error_iff {level : Nat} {before after : List Command} {error : Error} :
    t.walk level (before ++ c :: after) = .error error ↔
      t.walk level (before ++ after) = .error error := by
  rw [walk_insert ht hinert, walk_append_eq, bind_eq_error_iff, bind_eq_error_iff]
  simp only [continued, map_eq_error_iff]

/-- Where the lines of an inert command stand. -/
theorem walk_insert_of_ok {level final : Nat} {before after : List Command} {lines : List Line}
    (h : t.walk level (before ++ after) = .ok (final, lines)) :
    ∃ mid first second, t.walk level before = .ok (mid, first) ∧
      t.walk mid after = .ok (final, second) ∧ lines = first ++ second ∧
      t.walk level (before ++ c :: after) =
        .ok (final, first ++ inertLines mid c ++ second) := by
  obtain ⟨mid, first, second, hbefore, hafter, hlines⟩ := walk_append_eq_ok_iff.mp h
  refine ⟨mid, first, second, hbefore, hafter, hlines, ?_⟩
  rw [walk_insert ht hinert, hbefore]
  change (t.walk mid after).map _ = _
  rw [hafter]
  rfl

theorem renderTest_insert_of_ok {before after : List Command} {lines : List Line}
    (h : t.renderTest (before ++ after) = .ok lines) :
    ∃ level first second, t.walk 0 before = .ok (level, first) ∧
      (level : Int) = Balance.levelAfter 0 before ∧
      t.walk level after = .ok (0, second) ∧ lines = first ++ second ∧
      t.renderTest (before ++ c :: after) = .ok (first ++ inertLines level c ++ second) := by
  obtain ⟨level, first, second, hbefore, hafter, hlines, hinserted⟩ :=
    walk_insert_of_ok ht hinert (renderTest_eq_ok_iff.mp h)
  exact ⟨level, first, second, hbefore, Balance.walk_level ht hbefore, hafter, hlines,
    renderTest_eq_ok hinserted⟩

theorem renderTest_insert_of_error {before after : List Command} {error : Error}
    (h : t.renderTest (before ++ after) = .error error) :
    (t.StopsWith (before ++ after) error ∧ t.renderTest (before ++ c :: after) = .error error) ∨
    ∃ level lines, t.walk 0 (before ++ after) = .ok (level, lines) ∧ level ≠ 0 ∧
      error = .unbalanced (lastName (before ++ after)) level ∧
      t.renderTest (before ++ c :: after) =
        .error (.unbalanced (lastName (before ++ c :: after)) level) := by
  rcases renderTest_eq_error_iff.mp h with hstops | ⟨level, lines, hwalk, hlevel, herror⟩
  · have hinserted := (walk_insert_eq_error_iff ht hinert).mpr (stopsWith_iff.mp hstops)
    exact .inl ⟨hstops, renderTest_eq_error_of_walk hinserted⟩
  · obtain ⟨mid, first, second, -, -, -, hinserted⟩ := walk_insert_of_ok ht hinert hwalk
    exact .inr ⟨level, lines, hwalk, hlevel, herror,
      renderTest_eq_error_of_level hinserted hlevel⟩

end Standard

/-- An inert command, put at any place of a test, changes neither whether the test is accepted nor
its other lines. Its own lines stand between those of the commands before it and those of the
commands after it, at the running level of that place. A test that fails at one of its commands
fails there with the same error, and one that has open blocks at its end has as many of them, only
that the last command may be another one. -/
theorem renderTest_insert_inert (config : Config) (resolver : Resolver)
    (before after : List Command) (c : Command) (hinert : c.IsInert) :
    let t := (standard config).withResolver resolver
    ((∃ lines, t.renderTest (before ++ c :: after) = .ok lines) ↔
      ∃ lines, t.renderTest (before ++ after) = .ok lines) ∧
    (∀ lines, t.renderTest (before ++ after) = .ok lines →
      ∃ level first second, t.walk 0 before = .ok (level, first) ∧
        (level : Int) = Balance.levelAfter 0 before ∧
        t.walk level after = .ok (0, second) ∧ lines = first ++ second ∧
        t.renderTest (before ++ c :: after) = .ok (first ++ inertLines level c ++ second)) ∧
    ∀ error, t.renderTest (before ++ after) = .error error →
      (t.StopsWith (before ++ after) error ∧
        t.renderTest (before ++ c :: after) = .error error) ∨
      ∃ level lines, t.walk 0 (before ++ after) = .ok (level, lines) ∧ level ≠ 0 ∧
        error = .unbalanced (lastName (before ++ after)) level ∧
        t.renderTest (before ++ c :: after) =
          .error (.unbalanced (lastName (before ++ c :: after)) level) := by
  intro t
  have ht : t.IsStandard := isStandard_withResolver config resolver
  refine ⟨?_, fun _ => renderTest_insert_of_ok ht hinert,
    fun _ => renderTest_insert_of_error ht hinert⟩
  cases hwithout : t.renderTest (before ++ after) with
  | ok lines =>
    obtain ⟨level, first, second, -, -, -, -, hwith⟩ :=
      renderTest_insert_of_ok ht hinert hwithout
    exact iff_of_true ⟨_, hwith⟩ ⟨_, rfl⟩
  | error error =>
    have hwith : ∃ error', t.renderTest (before ++ c :: after) = .error error' := by
      rcases renderTest_insert_of_error ht hinert hwithout with ⟨-, h⟩ | ⟨_, _, -, -, -, h⟩
      · exact ⟨_, h⟩
      · exact ⟨_, h⟩
    obtain ⟨error', herror⟩ := hwith
    rw [herror]
    simp

/-- The end of a loop, disabled, in a step that would open a window. -/
def disabledEnd : Command :=
  { name := "//end", comment := "not yet", opensWindow := true, windowHandleName := "popup" }

/-- A loop whose end is disabled and recorded once more, and one whose only end is disabled. -/
theorem renderTest_insert_disabledEnd :
    let t := (standard {}).withResolver .standard
    disabledEnd.IsInert ∧
    t.renderTest [{ name := "do" }, { name := "end" }] = .ok [⟨0, "do \x7b"⟩, ⟨0, "\x7d"⟩] ∧
    t.renderTest [{ name := "do" }, disabledEnd, { name := "end" }] =
      .ok [⟨0, "do \x7b"⟩, ⟨1, "// not yet"⟩, ⟨1, "// disabled: end"⟩, ⟨0, "\x7d"⟩] ∧
    t.renderTest [{ name := "do" }] = .error (.unbalanced "do" 1) ∧
    t.renderTest [{ name := "do" }, disabledEnd] = .error (.unbalanced "//end" 1) := by
  intro t
  have ht : t.IsStandard := isStandard_withResolver {} .standard
  have hinert : disabledEnd.IsInert := by decide
  have hdo : t.walk 0 [{ name := "do" }] = .ok (1, [⟨0, "do \x7b"⟩]) :=
    walk_singleton (step_of_emit (by decide) (emit_keyword ht (k := .doLoop) rfl) rfl rfl)
  have hend : t.walk 1 [{ name := "end" }] = .ok (0, [⟨0, "\x7d"⟩]) :=
    walk_singleton (step_of_emit (by decide) (emit_keyword ht (k := .endBlock) rfl)
      (show ((0 : Nat) : Int) = (1 : Nat) + -1 by decide) rfl)
  have hclosed := renderTest_eq_ok (walk_append hdo hend)
  have hopen := renderTest_eq_error_of_level hdo Nat.one_ne_zero
  obtain ⟨-, hok, -⟩ := renderTest_insert_inert {} .standard [{ name := "do" }]
    [{ name := "end" }] disabledEnd hinert
  obtain ⟨-, -, herror⟩ := renderTest_insert_inert {} .standard [{ name := "do" }] []
    disabledEnd hinert
  refine ⟨hinert, hclosed, ?_, hopen, ?_⟩
  · obtain ⟨level, first, second, hfirst, -, hsecond, -, hwith⟩ := hok _ hclosed
    cases hdo.symm.trans hfirst
    cases hend.symm.trans hsecond
    exact hwith
  · rcases herror _ hopen with ⟨hstops, -⟩ | ⟨level, lines, hlevel, -, -, hwith⟩
    · cases hdo.symm.trans (stopsWith_iff.mp hstops)
    · cases hdo.symm.trans hlevel
      exact hwith

end Table

end CestWriter
