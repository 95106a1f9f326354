import CestWriter.Proofs.Parts

/-!
# Commands that open windows

The emitters of the standard vocabulary look at nothing but the name, the target and the value of a
command. So a test in which commands open windows is rendered as the same test without windows, only
that two lines more stand around the own lines of each such command: one that remembers the windows
that are open, and one that waits for the new window.
-/

namespace CestWriter

/-- The same step, not opening a window. -/
def Command.withoutWindow (c : Command) : Command :=
  { c with opensWindow := false }

/-- The statement that remembers which windows are open. -/
def snapshotStatement : String :=
  String.join ["$windowHandles = $I->executeInSelenium(",
    "function (\\Facebook\\WebDriver\\Remote\\RemoteWebDriver $webdriver) \x7b ",
    "return $webdriver->getWindowHandles(); \x7d);"]

/-- The own lines of a command together with those for the window that it opens: one before them and
one after them, at the level of their first. A disabled command opens no window, and neither does
one that leaves no lines. -/
def linesWithWindow (config : Config) (c : Command) : List Line → List Line
  | [] => []
  | first :: rest =>
    if c.isDisabled = false ∧ c.opensWindow = true then
      ⟨first.level, snapshotStatement⟩ :: (first :: rest) ++
        [⟨first.level, "$" ++ c.windowHandleName ++
          " = $this->waitForWindow($I, $windowHandles, " ++
          (match c.windowTimeout with
            | some timeout => timeout
            | none => config.defaultWindowTimeout).toNat.repr ++ ");"⟩]
    else first :: rest

/-- What a command leaves, given what it leaves when it opens no window. -/
def Part.withWindow (config : Config) (c : Command) (p : Part) : Part where
  command := c
  comment := p.comment
  own := linesWithWindow config c p.own

namespace Vocabulary

/-- An emitter that looks at nothing of a command but its name, its target and its value. -/
def ReadsParameters (emitter : Emitter) : Prop :=
  ∀ ctx c, emitter ctx c = emitter ctx { name := c.name, target := c.target, value := c.value }

theorem readsParameters_controlFlow (k : Keyword) : ReadsParameters (controlFlow k) := by
  intro ctx c
  cases k <;> rfl

theorem readsParameters_of_mem_interactions : ∀ entry ∈ interactions, ReadsParameters entry.2 := by
  simp only [interactions, List.forall_mem_cons]
  and_intros
  all_goals first | exact fun _ _ => rfl | exact List.forall_mem_nil _

theorem readsParameters_of_mem_checks : ∀ entry ∈ checks, ReadsParameters entry.2 := by
  simp only [checks, List.forall_mem_cons]
  and_intros
  all_goals first | exact fun _ _ => rfl | exact List.forall_mem_nil _

theorem readsParameters_of_mem_rest :
    ∀ entry ∈ dialogChecks ++ storing ++ waiting, ReadsParameters entry.2 := by
  simp only [dialogChecks, storing, waiting, List.cons_append, List.nil_append,
    List.forall_mem_cons]
  and_intros
  all_goals first | exact fun _ _ => rfl | exact List.forall_mem_nil _

theorem readsParameters_of_mem_standard : ∀ entry ∈ standard, ReadsParameters entry.2 := by
  have hrest := readsParameters_of_mem_rest
  simp only [standard, List.forall_mem_append, List.forall_mem_map] at hrest ⊢
  exact ⟨⟨⟨⟨⟨⟨⟨fun _ _ _ _ => rfl, fun k _ => readsParameters_controlFlow k⟩,
    readsParameters_of_mem_interactions⟩, readsParameters_of_mem_checks⟩,
    readsParameters_of_mem_checks⟩, hrest.1.1⟩, hrest.1.2⟩, hrest.2⟩

theorem isEmpty_eq_false_of_placeable {e : Emission} (h : Placeable e.lines) :
    e.isEmpty = false := by
  obtain ⟨statement, rest, hlines⟩ := h.first
  cases e with
  | nothing => cases hlines
  | statement s =>
    have hs : s ≠ "" := h.statement_ne ⟨0, s⟩ List.mem_cons_self
    rw [Emission.isEmpty, Bool.eq_false_iff, ne_eq, String.isEmpty_iff]
    exact hs
  | block lines before after =>
    rw [Emission.lines] at hlines
    rw [Emission.isEmpty, hlines]
    rfl
  | callback body binding => rfl

theorem withWindow_withoutWindow (c : Command) (config : Config) (e : Emission) :
    withWindow c.withoutWindow config e = e := by
  rw [withWindow, if_neg]
  exact Bool.false_ne_true

theorem snapshotLine_eq : snapshotLine = ⟨0, snapshotStatement⟩ := by
  simp [snapshotLine, Emission.callbackOpen, snapshotStatement]

/-- The lines around an emission, once it is placed. -/
theorem map_shift_withWindow {c : Command} (henabled : c.isDisabled = false) (config : Config)
    {e : Emission} (h : e ≠ .nothing → Placeable e.lines) (base : Nat) :
    (withWindow c config e).lines.map (Line.shift base) =
      linesWithWindow config c (e.lines.map (Line.shift base)) := by
  by_cases hnothing : e = .nothing
  · subst hnothing
    rw [withWindow_nothing]
    rfl
  · have hplaceable := h hnothing
    have hempty := isEmpty_eq_false_of_placeable hplaceable
    obtain ⟨statement, rest, hlines⟩ := hplaceable.first
    by_cases hopens : c.opensWindow = true
    · rw [withWindow, if_pos (by rw [hopens, hempty]; rfl), Emission.lines, hlines]
      rw [List.map_append, List.map_cons, List.map_cons, linesWithWindow,
        if_pos ⟨henabled, hopens⟩]
      cases hwait : c.windowTimeout with
      | none => simp [Line.shift, snapshotLine_eq, awaitLine, Literal.variableOf, hwait]
      | some timeout => simp [Line.shift, snapshotLine_eq, awaitLine, Literal.variableOf, hwait]
    · rw [withWindow, if_neg (by simp [hopens]), hlines, List.map_cons, linesWithWindow,
        if_neg (fun hboth => hopens hboth.2)]

end Vocabulary

theorem firstLevel_linesWithWindow (config : Config) (c : Command) (level : Nat)
    (lines : List Line) :
    firstLevel level (linesWithWindow config c lines) = firstLevel level lines := by
  cases lines with
  | nil => rfl
  | cons first rest =>
    rw [linesWithWindow]
    split
    · rfl
    · rfl

namespace Table

open Vocabulary

section Standard

variable {t : Table} (ht : t.IsStandard)

include ht

/-- What a table with the standard vocabulary emits for a command that may open a window. -/
theorem emit_withoutWindow (depth : Nat) (c : Command) :
    t.emit depth c = (t.emit depth c.withoutWindow).map (withWindow c t.config) := by
  cases hget : t.emitters.get? c.name with
  | none =>
    rw [emit_unknown depth hget, emit_unknown (c := c.withoutWindow) depth hget]
    rfl
  | some emitter =>
    have hmem : (c.name, emitter) ∈ Vocabulary.standard := by
      rw [ht] at hget
      exact get?_standardEmitters_eq_some_iff.mp hget
    have hreads := readsParameters_of_mem_standard (c.name, emitter) hmem
    have hsame : ∀ ctx, emitter ctx c.withoutWindow = emitter ctx c := fun ctx =>
      (hreads ctx c.withoutWindow).trans (hreads ctx c).symm
    rw [emit_of_get? depth hget, emit_of_get? (c := c.withoutWindow) depth hget, hsame]
    cases emitter ⟨t.resolver, t.config, depth⟩ c with
    | error error => rfl
    | ok e =>
      change Except.ok _ = Except.ok _
      rw [withWindow_withoutWindow]

/-- The own lines of a command that may open a window. -/
theorem contribution_withoutWindow (level : Nat) (c : Command) :
    t.contribution level c =
      (t.contribution level c.withoutWindow).map fun r =>
        (r.1, linesWithWindow t.config c r.2) := by
  cases hd : c.isDisabled with
  | true =>
    rw [contribution_disabled t level hd, contribution_disabled (c := c.withoutWindow) t level hd]
    change _ = Except.ok (level, linesWithWindow t.config c [disabledLine level c])
    rw [linesWithWindow, if_neg (by simp [hd])]
  | false =>
    rw [contribution_enabled t level hd, contribution_enabled (c := c.withoutWindow) t level hd,
      emit_withoutWindow ht level c]
    cases hemit : t.emit level c.withoutWindow with
    | error error => rfl
    | ok e =>
      have hplaceable := (fits_of_emit ht hemit).placeable
      change Placement.outcome level c.name (withWindow c t.config e) =
        (Placement.outcome level c.name e).map _
      -- the changes of the level are the same, so both are placed at the same base or both fail
      simp only [Placement.outcome_eq, withWindow_before, withWindow_after,
        map_shift_withWindow hd t.config hplaceable]
      cases Placement.adjust level c.name e.before with
      | error error => rfl
      | ok base =>
        change Except.map _ _ = Except.map _ (Except.map _ _)
        cases Placement.adjust base c.name e.after with
        | error error => rfl
        | ok final => rfl

theorem part_withoutWindow (level : Nat) (c : Command) :
    t.part level c =
      (t.part level c.withoutWindow).map fun r => (r.1, r.2.withWindow t.config c) := by
  rw [part, part, contribution_withoutWindow ht]
  cases t.contribution level c.withoutWindow with
  | error error => rfl
  | ok r =>
    simp only [Except.map, firstLevel_linesWithWindow]
    rfl

/-- The lines of a command that may open a window. -/
theorem step_of_part_withoutWindow {level next : Nat} {c : Command} {p : Part}
    (h : t.part level c.withoutWindow = .ok (next, p)) :
    t.step level c = .ok (next, (p.withWindow t.config c).lines) := by
  rw [step_eq_part, part_withoutWindow ht, h]
  rfl

/-- What commands that may open windows leave. -/
theorem parts_withoutWindow (level : Nat) (commands : List Command) :
    t.parts level commands =
      (t.parts level (commands.map Command.withoutWindow)).map fun r =>
        (r.1, List.zipWith (Part.withWindow t.config) commands r.2) := by
  induction commands generalizing level with
  | nil => rfl
  | cons c rest ih =>
    rw [List.map_cons, parts, parts, part_withoutWindow ht]
    cases t.part level c.withoutWindow with
    | error error => rfl
    | ok first =>
      change Except.map _ (t.parts first.1 rest) = Except.map _ (Except.map _ _)
      rw [ih]
      cases t.parts first.1 (rest.map Command.withoutWindow) with
      | error error => rfl
      | ok more => rfl

end Standard

theorem lastName_withoutWindow (commands : List Command) :
    lastName (commands.map Command.withoutWindow) = lastName commands := by
  rw [lastName, lastName, List.getLast?_map]
  cases commands.getLast? with
  | none => rfl
  | some c => rfl

/-- Rendering a test with windows is rendering it without them and adding the lines for them. -/
theorem renderTest_withoutWindow {t : Table} (ht : t.IsStandard) (commands : List Command) :
    t.renderTest commands =
      (t.parts 0 (commands.map Command.withoutWindow)).bind fun r =>
        (Placement.finish r.1 (lastName commands)).map fun _ =>
          (List.zipWith (Part.withWindow t.config) commands r.2).flatMap Part.lines := by
  rw [renderTest_eq_parts, parts_withoutWindow ht]
  cases t.parts 0 (commands.map Command.withoutWindow) with
  | error error => rfl
  | ok r => rfl

theorem command_of_parts {t : Table} {level final : Nat} {commands : List Command}
    {parts : List Part} (h : t.parts level commands = .ok (final, parts)) :
    parts.map Part.command = commands := by
  induction commands generalizing level parts with
  | nil =>
    cases h
    rfl
  | cons c rest ih =>
    rw [Table.parts, bind_eq_ok_iff] at h
    obtain ⟨⟨next, first⟩, hfirst, hrest⟩ := h
    rw [part, map_eq_ok_iff] at hfirst
    obtain ⟨r, -, hr⟩ := hfirst
    rw [map_eq_ok_iff] at hrest
    obtain ⟨⟨final', more⟩, hmore, heq⟩ := hrest
    cases hr
    cases heq
    rw [List.map_cons, ih hmore]

/-- Opening windows only adds lines. A test and the same test without windows fail with the same
errors. If they are accepted, the commands leave the same comments and the same own lines in both,
except that in the first the lines for a new window stand around the own lines of each command that
opens one. -/
theorem renderTest_windows (config : Config) (resolver : Resolver) (commands : List Command) :
    let t := (standard config).withResolver resolver
    let plain := commands.map Command.withoutWindow
    (∀ error, t.renderTest commands = .error error ↔ t.renderTest plain = .error error) ∧
    ∀ lines, t.renderTest plain = .ok lines →
      ∃ parts, t.parts 0 plain = .ok (0, parts) ∧ parts.map Part.command = plain ∧
        lines = parts.flatMap Part.lines ∧
        t.renderTest commands =
          .ok ((List.zipWith (Part.withWindow config) commands parts).flatMap Part.lines) := by
  intro t plain
  have ht : t.IsStandard := isStandard_withResolver config resolver
  refine ⟨fun error => ?_, fun lines hlines => ?_⟩
  · rw [renderTest_withoutWindow ht, renderTest_eq_parts t plain, lastName_withoutWindow,
      bind_eq_error_iff, bind_eq_error_iff]
    simp only [map_eq_error_iff]
    exact Iff.rfl
  · obtain ⟨parts, hparts, rfl⟩ := parts_of_renderTest hlines
    refine ⟨parts, hparts, command_of_parts hparts, rfl, ?_⟩
    rw [renderTest_withoutWindow ht, hparts]
    rfl

/-- A callback with a note on it, which may open a window. -/
def storeMain (opens : Bool) : Command :=
  { name := "storeWindowHandle", target := some "main", comment := "open it",
    opensWindow := opens, windowHandleName := "popup" }

/-- A call, which may open a window for which a time to wait is recorded. -/
def leaveElement (opens : Bool) : Command :=
  { name := "mouseOut", opensWindow := opens, windowHandleName := "tip",
    windowTimeout := some 500 }

/-- A loop around the callback and the call. It ends with a disabled command and one of the
recorder, which open no window though it is recorded that they do. -/
def popups (opens : Bool) : List Command :=
  [{ name := "do" }, storeMain opens, leaveElement opens,
    { name := "//click", opensWindow := opens, windowHandleName := "never" },
    { name := "debugger", opensWindow := opens, windowHandleName := "never" }, { name := "end" }]

/-- The lines of the loop, given those of the callback and of the call. -/
def popupLines (callback call : List Line) : List Line :=
  ⟨0, "do \x7b"⟩ :: ⟨1, "// open it"⟩ :: callback ++ call ++
    [⟨1, "// disabled: click"⟩, ⟨0, "\x7d"⟩]

theorem renderTest_popups {opens : Bool} {callback call : List Line}
    (hcallback : ((standard {}).withResolver .standard).step 1 (storeMain opens) =
      .ok (1, ⟨1, "// open it"⟩ :: callback))
    (hcall : ((standard {}).withResolver .standard).step 1 (leaveElement opens) = .ok (1, call)) :
    ((standard {}).withResolver .standard).renderTest (popups opens) =
      .ok (popupLines callback call) := by
  have ht := isStandard_withResolver {} .standard
  have hdo : ((standard {}).withResolver .standard).step 0 { name := "do" } =
      .ok (1, [⟨0, "do \x7b"⟩]) :=
    step_of_emit (by decide) (emit_keyword ht (k := .doLoop) rfl) rfl rfl
  have hclick : ((standard {}).withResolver .standard).step 1
      { name := "//click", opensWindow := opens, windowHandleName := "never" } =
      .ok (1, [disabledLine 1 { name := "//click" }]) :=
    step_disabled _ 1 (show Text.startsWith "//" "//click" = true by decide)
  have hpart : ((standard {}).withResolver .standard).part 1
      { name := "debugger", windowHandleName := "never" } = .ok (1, ⟨_, [], []⟩) :=
    part_of_emit (by decide) (emit_recorderOnly ht (by decide)) rfl rfl
  have hdebugger : ((standard {}).withResolver .standard).step 1
      { name := "debugger", opensWindow := opens, windowHandleName := "never" } = .ok (1, []) :=
    step_of_part_withoutWindow
      (c := { name := "debugger", opensWindow := opens, windowHandleName := "never" }) ht hpart
  have hend : ((standard {}).withResolver .standard).step 1 { name := "end" } =
      .ok (0, [⟨0, "\x7d"⟩]) :=
    step_of_emit (by decide) (emit_keyword ht (k := .endBlock) rfl)
      (show ((0 : Nat) : Int) = (1 : Nat) + -1 by decide) rfl
  have hok := renderTest_eq_ok (walk_cons hdo (walk_cons hcallback (walk_cons hcall
    (walk_cons hclick (walk_cons hdebugger (walk_singleton hend))))))
  have hdisabled : disabledLine 1 { name := "//click" } = ⟨1, "// disabled: click"⟩ := by decide
  rw [popups, hok, hdisabled]
  simp [popupLines]

/-- The lines of the callback. -/
def storeMainLines : List Line :=
  [⟨1, "$main = " ++ Emission.callbackOpen⟩, ⟨2, "return $webdriver->getWindowHandle();"⟩,
    ⟨1, "\x7d);"⟩]

/-- The line of the call. -/
def leaveElementLine : Line :=
  ⟨1, "$I->moveMouseOver(\"body\", 0, 0);"⟩

theorem step_storeMain (opens : Bool) :
    ((standard {}).withResolver .standard).step 1 (storeMain opens) =
      .ok (1, ⟨1, "// open it"⟩ :: linesWithWindow {} (storeMain opens) storeMainLines) := by
  have ht := isStandard_withResolver {} .standard
  have hmem : ((storeMain false).name, storeWindowHandle) ∈ Vocabulary.standard := by
    simp [Vocabulary.standard, storing, storeMain]
  have hpart : ((standard {}).withResolver .standard).part 1 (storeMain false) =
      .ok (1, ⟨storeMain false, [⟨1, "// open it"⟩], storeMainLines⟩) :=
    part_of_emit (by decide) (emit_of_mem_standard ht hmem) rfl rfl
  exact step_of_part_withoutWindow (c := storeMain opens) ht hpart

theorem step_leaveElement (opens : Bool) :
    ((standard {}).withResolver .standard).step 1 (leaveElement opens) =
      .ok (1, linesWithWindow {} (leaveElement opens) [leaveElementLine]) := by
  have ht := isStandard_withResolver {} .standard
  have hmem : ((leaveElement false).name, mouseOut) ∈ Vocabulary.standard := by
    simp [Vocabulary.standard, interactions, leaveElement]
  have hpart : ((standard {}).withResolver .standard).part 1 (leaveElement false) =
      .ok (1, ⟨leaveElement false, [], [leaveElementLine]⟩) :=
    part_of_emit (by decide) (emit_of_mem_standard ht hmem) rfl rfl
  exact step_of_part_withoutWindow (c := leaveElement opens) ht hpart

theorem renderTest_windows_popups :
    ∃ parts, ((standard {}).withResolver .standard).parts 0 (popups false) = .ok (0, parts) ∧
      parts.flatMap Part.lines = popupLines storeMainLines [leaveElementLine] ∧
      (List.zipWith (Part.withWindow {}) (popups true) parts).flatMap Part.lines = popupLines
        (⟨1, snapshotStatement⟩ :: storeMainLines ++
          [⟨1, "$popup = $this->waitForWindow($I, $windowHandles, 2000);"⟩])
        [⟨1, snapshotStatement⟩, leaveElementLine,
          ⟨1, "$tip = $this->waitForWindow($I, $windowHandles, 500);"⟩] ∧
      ((standard {}).withResolver .standard).renderTest (popups true) =
        .ok ((List.zipWith (Part.withWindow {}) (popups true) parts).flatMap Part.lines) := by
  have hplain := renderTest_popups (step_storeMain false) (step_leaveElement false)
  have hwindows := renderTest_popups (step_storeMain true) (step_leaveElement true)
  have hpopup : linesWithWindow {} (storeMain true) storeMainLines =
      ⟨1, snapshotStatement⟩ :: storeMainLines ++
        [⟨1, "$popup = $this->waitForWindow($I, $windowHandles, 2000);"⟩] := by
    have hwait : "$" ++ "popup" ++ " = $this->waitForWindow($I, $windowHandles, " ++
        (2000 : UInt64).toNat.repr ++ ");" =
        "$popup = $this->waitForWindow($I, $windowHandles, 2000);" := by decide
    rw [storeMainLines, linesWithWindow, if_pos ⟨by decide, rfl⟩, ← hwait]
    rfl
  have htip : linesWithWindow {} (leaveElement true) [leaveElementLine] =
      [⟨1, snapshotStatement⟩, leaveElementLine,
        ⟨1, "$tip = $this->waitForWindow($I, $windowHandles, 500);"⟩] := by
    have hwait : "$" ++ "tip" ++ " = $this->waitForWindow($I, $windowHandles, " ++
        (500 : UInt64).toNat.repr ++ ");" =
        "$tip = $this->waitForWindow($I, $windowHandles, 500);" := by decide
    rw [linesWithWindow, if_pos ⟨by decide, rfl⟩, ← hwait]
    rfl
  obtain ⟨parts, hparts, -, hlines, hopened⟩ :=
    (renderTest_windows {} .standard (popups true)).2 _ hplain
  refine ⟨parts, hparts, hlines.symm, ?_, hopened⟩
  rw [← hpopup, ← htip]
  exact Except.ok.inj (hopened.symm.trans hwindows)

end Table

end CestWriter
