import CestWriter.Proofs.Parts

/-!
# Tests one after another

All that a walk through commands hands on is the running level. A test that is accepted leaves it
at zero, so commands that follow such a test are rendered as if they stood alone: their lines come
after those of the test, and if they fail, the whole fails with their error. A test that stops at
one of its commands stops there whatever follows. This holds for every table, with emitters of
any kind.
-/

namespace CestWriter.Table

/-- The walk through the commands stops before its end: an enabled command is met whose emission
fails, or whose emission cannot be placed. -/
def StopsWith (t : Table) (commands : List Command) (error : Error) : Prop :=
  ∃ before c after level lines, commands = before ++ c :: after ∧
    t.walk 0 before = .ok (level, lines) ∧ c.isDisabled = false ∧
    (t.emit level c = .error error ∨
      ∃ e, t.emit level c = .ok e ∧ (Placement.place level c.name e).2 = .error error)

theorem step_eq_error_iff {t : Table} {level : Nat} {c : Command} {error : Error} :
    t.step level c = .error error ↔
      c.isDisabled = false ∧
        (t.emit level c = .error error ∨
          ∃ e, t.emit level c = .ok e ∧ (Placement.place level c.name e).2 = .error error) := by
  rw [step_eq_part, map_eq_error_iff, part, map_eq_error_iff]
  cases hd : c.isDisabled with
  | true => simp [contribution_disabled t level hd]
  | false =>
    rw [contribution_enabled t level hd, bind_eq_error_iff]
    simp only [Placement.outcome_eq_error_iff, true_and]

theorem walk_cons_eq_error_iff {t : Table} {level : Nat} {c : Command} {rest : List Command}
    {error : Error} :
    t.walk level (c :: rest) = .error error ↔
      t.step level c = .error error ∨
        ∃ next lines, t.step level c = .ok (next, lines) ∧ t.walk next rest = .error error := by
  rw [walk_cons_eq, bind_eq_error_iff]
  simp only [continued, map_eq_error_iff, Prod.exists]

/-- A walk fails exactly when one of the commands fails at the level that those before it left. -/
theorem walk_eq_error_iff {t : Table} {level : Nat} {commands : List Command} {error : Error} :
    t.walk level commands = .error error ↔
      ∃ before c after mid lines, commands = before ++ c :: after ∧
        t.walk level before = .ok (mid, lines) ∧ t.step mid c = .error error := by
  induction commands generalizing level with
  | nil => simp [walk]
  | cons c rest ih =>
    rw [walk_cons_eq_error_iff]
    constructor
    · rintro (hstep | ⟨next, lines, hstep, hrest⟩)
      · exact ⟨[], c, rest, level, [], rfl, rfl, hstep⟩
      · obtain ⟨before, c', after, mid, more, rfl, hbefore, hstep'⟩ := ih.mp hrest
        exact ⟨c :: before, c', after, mid, lines ++ more, rfl, walk_cons hstep hbefore, hstep'⟩
    · rintro ⟨before, c', after, mid, lines, hsplit, hbefore, hstep⟩
      cases before with
      | nil =>
        cases hsplit
        cases hbefore
        exact .inl hstep
      | cons b before =>
        obtain ⟨rfl, rfl⟩ := List.cons.inj hsplit
        obtain ⟨next, first, more, hfirst, hmore, -⟩ := walk_cons_eq_ok_iff.mp hbefore
        exact .inr ⟨next, first, hfirst, ih.mpr ⟨before, c', after, mid, more, rfl, hmore, hstep⟩⟩

theorem stopsWith_iff {t : Table} {commands : List Command} {error : Error} :
    t.StopsWith commands error ↔ t.walk 0 commands = .error error := by
  rw [walk_eq_error_iff, StopsWith]
  simp only [step_eq_error_iff]

/-- The ways in which a test fails: at one of its commands, or at its end with open blocks. -/
theorem renderTest_eq_error_iff {t : Table} {commands : List Command} {error : Error} :
    t.renderTest commands = .error error ↔
      t.StopsWith commands error ∨
        ∃ level lines, t.walk 0 commands = .ok (level, lines) ∧ level ≠ 0 ∧
          error = .unbalanced (lastName commands) level := by
  rw [stopsWith_iff]
  cases hwalk : t.walk 0 commands with
  | error stopped =>
    rw [renderTest_eq_error_of_walk hwalk]
    simp
  | ok r =>
    obtain ⟨level, lines⟩ := r
    by_cases hlevel : level = 0
    · subst hlevel
      rw [renderTest_eq_ok hwalk]
      simp
    · rw [renderTest_eq_error_of_level hwalk hlevel]
      simp [hlevel, eq_comm]

theorem walk_append_error {t : Table} {level : Nat} {commands : List Command} {error : Error}
    (h : t.walk level commands = .error error) (rest : List Command) :
    t.walk level (commands ++ rest) = .error error := by
  rw [walk_append_eq, h]
  rfl

/-- The walk through a test that is accepted and then through other commands. -/
theorem walk_append_of_renderTest {t : Table} {first : List Command} {lines : List Line}
    (h : t.renderTest first = .ok lines) (second : List Command) :
    t.walk 0 (first ++ second) = (t.walk 0 second).map fun r => (r.1, lines ++ r.2) := by
  rw [walk_append_eq, renderTest_eq_ok_iff.mp h]
  rfl

theorem lastName_append (first : List Command) {second : List Command} (h : second ≠ []) :
    lastName (first ++ second) = lastName second := by
  rw [lastName, lastName, List.getLast?_append]
  obtain ⟨c, hc⟩ := Option.ne_none_iff_exists'.mp (mt List.getLast?_eq_none_iff.mp h)
  rw [hc, Option.some_or]

/-- After a test that is accepted, commands fail as they do alone. The last name that a test with
open blocks reports is theirs, since commands that fail are at least one. -/
theorem renderTest_append_error {t : Table} {first second : List Command} {lines : List Line}
    {error : Error} (hfirst : t.renderTest first = .ok lines)
    (hsecond : t.renderTest second = .error error) :
    t.renderTest (first ++ second) = .error error := by
  have hwhole := walk_append_of_renderTest hfirst second
  have hne : second ≠ [] := by
    rintro rfl
    exact nomatch hsecond
  cases hwalk : t.walk 0 second with
  | error error' =>
    rw [renderTest_eq_error_of_walk hwalk] at hsecond
    cases hsecond
    exact renderTest_eq_error_of_walk (by rw [hwhole, hwalk]; rfl)
  | ok r =>
    obtain ⟨level, more⟩ := r
    by_cases hlevel : level = 0
    · subst hlevel
      rw [renderTest_eq_ok hwalk] at hsecond
      exact nomatch hsecond
    · have hopen : t.walk 0 (first ++ second) = .ok (level, lines ++ more) := by
        rw [hwhole, hwalk]
        rfl
      rw [renderTest_eq_error_of_level hopen hlevel, lastName_append first hne,
        ← renderTest_eq_error_of_level hwalk hlevel]
      exact hsecond

/-- Rendering respects concatenation. Commands after a test that is accepted add their lines to
those of the test, or fail with the error that they give alone; and a test that stops at one of its
commands stops there with the same error whatever follows it. -/
theorem renderTest_append (t : Table) (first second : List Command) :
    (∀ lines, t.renderTest first = .ok lines →
      (∀ more, t.renderTest second = .ok more →
        t.renderTest (first ++ second) = .ok (lines ++ more)) ∧
      (∀ error, t.renderTest second = .error error →
        t.renderTest (first ++ second) = .error error)) ∧
    (∀ error, t.StopsWith first error →
      t.renderTest first = .error error ∧ t.renderTest (first ++ second) = .error error) := by
  refine ⟨fun lines hfirst => ⟨fun more hsecond => ?_, fun error hsecond => ?_⟩,
    fun error hstops => ?_⟩
  · apply renderTest_eq_ok
    rw [walk_append_of_renderTest hfirst, renderTest_eq_ok_iff.mp hsecond]
    rfl
  · exact renderTest_append_error hfirst hsecond
  · have hwalk := stopsWith_iff.mp hstops
    exact ⟨renderTest_eq_error_of_walk hwalk,
      renderTest_eq_error_of_walk (walk_append_error hwalk second)⟩

/-- Emits the beginning of a section, which names the depth it stands at. -/
def enterSection : Emitter := fun ctx _ =>
  .ok (.block [⟨0, String.join ["section(", ctx.depth.repr, ");"]⟩] 0 1)

/-- Emits the end of a section. -/
def leaveSection : Emitter := fun _ _ =>
  .ok (.block [⟨0, "endSection();"⟩] (-1) 0)

/-- The standard vocabulary with two commands more, which begin and end a section. -/
def sectioned : Table :=
  ((standard {}).register "enter" enterSection).register "leave" leaveSection

theorem get?_sectioned_leave : sectioned.emitters.get? "leave" = some leaveSection := by
  rw [sectioned, get?_register, if_pos rfl]

theorem get?_sectioned_enter : sectioned.emitters.get? "enter" = some enterSection := by
  rw [sectioned, get?_register, if_neg (by decide), get?_register, if_pos rfl]

theorem emit_sectioned_enter (depth : Nat) :
    sectioned.emit depth { name := "enter" } =
      .ok (.block [⟨0, String.join ["section(", depth.repr, ");"]⟩] 0 1) := by
  rw [emit_of_get? (c := { name := "enter" }) depth get?_sectioned_enter]
  rfl

theorem emit_sectioned_leave (depth : Nat) :
    sectioned.emit depth { name := "leave" } = .ok (.block [⟨0, "endSection();"⟩] (-1) 0) := by
  rw [emit_of_get? (c := { name := "leave" }) depth get?_sectioned_leave]
  rfl

theorem step_sectioned_enter (level : Nat) :
    sectioned.step level { name := "enter" } =
      .ok (level + 1, [⟨level, String.join ["section(", level.repr, ");"]⟩]) :=
  step_of_emit (by decide) (emit_sectioned_enter level) (Int.add_zero _).symm rfl

theorem step_sectioned_leave (level : Nat) :
    sectioned.step (level + 1) { name := "leave" } = .ok (level, [⟨level, "endSection();"⟩]) :=
  step_of_emit (by decide) (emit_sectioned_leave (level + 1))
    (by simp only [Emission.before]; omega) (Int.add_zero _).symm

/-- A section is followed by another one, or by one that is left open; and a section that is left
twice stops there. -/
theorem renderTest_append_sections :
    sectioned.renderTest [{ name := "enter" }, { name := "leave" }] =
      .ok [⟨0, "section(0);"⟩, ⟨0, "endSection();"⟩] ∧
    sectioned.renderTest [{ name := "enter" }, { name := "leave" }, { name := "enter" },
        { name := "leave" }] =
      .ok [⟨0, "section(0);"⟩, ⟨0, "endSection();"⟩, ⟨0, "section(0);"⟩, ⟨0, "endSection();"⟩] ∧
    sectioned.renderTest [{ name := "enter" }, { name := "leave" }, { name := "enter" }] =
      .error (.unbalanced "enter" 1) ∧
    sectioned.renderTest [{ name := "leave" }, { name := "enter" }] =
      .error (.unbalanced "leave" (-1)) := by
  have hpair : sectioned.renderTest [{ name := "enter" }, { name := "leave" }] =
      .ok [⟨0, "section(0);"⟩, ⟨0, "endSection();"⟩] :=
    renderTest_eq_ok (walk_cons (step_sectioned_enter 0) (walk_cons (step_sectioned_leave 0) rfl))
  have hopen : sectioned.renderTest [{ name := "enter" }] = .error (.unbalanced "enter" 1) :=
    renderTest_eq_error_of_level (walk_singleton (step_sectioned_enter 0)) Nat.one_ne_zero
  have hstops : sectioned.StopsWith [{ name := "leave" }] (.unbalanced "leave" (-1)) :=
    ⟨[], _, [], 0, [], rfl, rfl, by decide, .inr ⟨_, emit_sectioned_leave 0, rfl⟩⟩
  obtain ⟨hafter, -⟩ := renderTest_append sectioned [{ name := "enter" }, { name := "leave" }]
    [{ name := "enter" }, { name := "leave" }]
  obtain ⟨hafter', -⟩ := renderTest_append sectioned [{ name := "enter" }, { name := "leave" }]
    [{ name := "enter" }]
  obtain ⟨-, hstopped⟩ := renderTest_append sectioned [{ name := "leave" }] [{ name := "enter" }]
  exact ⟨hpair, (hafter _ hpair).1 _ hpair, (hafter' _ hpair).2 _ hopen, (hstopped _ hstops).2⟩

end CestWriter.Table
