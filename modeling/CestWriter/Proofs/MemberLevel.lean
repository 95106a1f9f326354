import CestWriter.Proofs.Containment

/-!
# Members one level deeper

The members of a class are rendered relative to its body, and the class file indents their text.
Since a statement takes one line of the text, this is the same as rendering the members one level
deeper.
-/

namespace CestWriter

/-- Every statement takes one line of text, and the last one is not empty. -/
structure WholeLines (lines : List Line) : Prop where
  unbroken : ∀ l ∈ lines, Text.Unbroken l.statement
  last : ∀ l ∈ lines.getLast?, l.statement ≠ ""

instance (lines : List Line) : Decidable (WholeLines lines) :=
  decidable_of_iff ((∀ l ∈ lines, Text.Unbroken l.statement) ∧
      ∀ l ∈ lines.getLast?, l.statement ≠ "")
    ⟨fun h => ⟨h.1, h.2⟩, fun h => ⟨h.unbroken, h.last⟩⟩

/-! ## Lines -/

theorem render_of_ne_empty (unit : String) {l : Line} (h : l.statement ≠ "") :
    l.render unit = String.join (List.replicate l.level unit) ++ l.statement := by
  have hempty : ¬ l.statement.isEmpty = true := by
    rw [String.isEmpty_iff]
    exact h
  rw [Line.render, if_neg hempty]

theorem render_of_empty (unit : String) {l : Line} (h : l.statement = "") : l.render unit = "" := by
  have hempty : l.statement.isEmpty = true := by
    rw [String.isEmpty_iff]
    exact h
  rw [Line.render, if_pos hempty]

theorem newline_not_mem_join {unit : String} (h : '\n' ∉ unit.toList) (n : Nat) :
    '\n' ∉ (String.join (List.replicate n unit)).toList := by
  rw [String.toList_join, List.mem_flatMap]
  rintro ⟨part, hpart, hmem⟩
  rw [List.eq_of_mem_replicate hpart] at hmem
  exact h hmem

theorem unbroken_render {unit : String} (hunit : '\n' ∉ unit.toList) {l : Line}
    (h : Text.Unbroken l.statement) : Text.Unbroken (l.render unit) := by
  by_cases hempty : l.statement = ""
  · rw [render_of_empty unit hempty]
    decide
  · rw [render_of_ne_empty unit hempty]
    have hchars : l.statement.toList ≠ [] := mt String.toList_eq_nil_iff.mp hempty
    constructor
    · rw [String.toList_append, List.mem_append, not_or]
      exact ⟨newline_not_mem_join hunit l.level, h.1⟩
    · rw [String.toList_append, List.getLast?_append_of_ne_nil _ hchars]
      exact h.2

theorem indentLine_render (unit : String) (l : Line) :
    Text.indentLine unit.toList (l.render unit).toList = ((l.shift 1).render unit).toList := by
  by_cases hempty : l.statement = ""
  · rw [render_of_empty unit hempty, render_of_empty unit (l := l.shift 1) hempty]
    rfl
  · have hchars : (l.render unit).toList.isEmpty = false := by
      rw [render_of_ne_empty unit hempty]
      simp [hempty]
    have hlevel : (l.shift 1).level = l.level + 1 := Nat.add_comm 1 l.level
    rw [Text.indentLine, hchars, render_of_ne_empty unit hempty,
      render_of_ne_empty unit (l := l.shift 1) hempty, hlevel, List.replicate_succ,
      String.join_cons]
    simp [Line.shift]

theorem toList_renderLines (unit : String) (lines : List Line) :
    (renderLines unit lines).toList =
      ['\n'].intercalate (lines.map fun l => (l.render unit).toList) := by
  rw [renderLines, String.toList_intercalate, List.map_map]
  rfl

theorem indent_renderLines {unit : String} (hunit : '\n' ∉ unit.toList) {lines : List Line}
    (h : WholeLines lines) :
    Text.indent unit (renderLines unit lines) = renderLines unit (lines.map (Line.shift 1)) := by
  apply String.toList_injective
  have hlines : Text.lines (renderLines unit lines).toList =
      lines.map fun l => (l.render unit).toList := by
    rw [toList_renderLines]
    apply Text.lines_intercalate
    · intro part hpart
      obtain ⟨l, hl, rfl⟩ := List.mem_map.mp hpart
      exact unbroken_render hunit (h.unbroken l hl)
    · rw [List.getLast?_map]
      intro hlast
      obtain ⟨l, hl, hempty⟩ := Option.map_eq_some_iff.mp hlast
      rw [render_of_ne_empty unit (h.last l hl)] at hempty
      simp [h.last l hl] at hempty
  rw [Text.toList_indent, hlines, toList_renderLines, List.map_map, List.map_map]
  congr 1
  apply List.map_congr_left
  intro l hl
  exact indentLine_render unit l

namespace Exporter

/-! ## Members -/

/-- The lines of the method for a test whose own lines are `body`. -/
def methodLines (x : Exporter) (name : String) (body : List Line) : List Line :=
  [⟨0, "public function " ++ name ++ "(AcceptanceTester $I)"⟩, ⟨0, "\x7b"⟩] ++
    body.map (Line.shift 1) ++ (x.hooks .inEachEnd).lines.map outdent

/-- The lines of every member of the class, relative to its body. The lines of the tests are
`bodies`. -/
def memberLines (x : Exporter) (tests : List Test) (bodies : List (List Line)) :
    List (List Line) :=
  (memberPoints.filter fun p => !(x.hooks p).lines.isEmpty).map (fun p => (x.hooks p).lines) ++
    List.zipWith (fun pair body => x.methodLines pair.1 body) (named tests) bodies ++
    if tests.any Test.opensWindow then [Helper.waitForWindow.lines] else []

theorem renderMethods_of_bodies (x : Exporter) {pairs : List (String × Test)}
    {bodies : List (List Line)}
    (h : pairs.map (fun pair => x.table.renderTest pair.2.commands) = bodies.map .ok) :
    x.renderMethods pairs =
      .ok ((List.zipWith (fun pair body => x.methodLines pair.1 body) pairs bodies).map
        (renderLines x.table.config.indent)) := by
  induction pairs generalizing bodies with
  | nil => rfl
  | cons pair rest ih =>
    obtain ⟨body, more, rfl, hbody, hmore⟩ := List.map_eq_cons_iff.mp h.symm
    obtain ⟨name, test⟩ := pair
    have hmethod : x.renderMethod name test =
        .ok (renderLines x.table.config.indent (x.methodLines name body)) := by
      have htest : x.table.renderTest test.commands = .ok body := hbody.symm
      rw [renderMethod, htest]
      rfl
    rw [renderMethods, hmethod, ih hmore.symm]
    rfl

theorem map_snd_named (tests : List Test) : (named tests).map Prod.snd = tests := by
  apply List.map_snd_zip
  rw [MethodName.length_assign, List.length_map]

/-- The members of a class file are the lines of its members, each member as one text. -/
theorem classFile_of_bodies (x : Exporter) (p : Project) (className : String) {tests : List Test}
    (source time : String) {bodies : List (List Line)}
    (h : tests.map (fun test => x.table.renderTest test.commands) = bodies.map .ok) :
    ∃ file, x.classFile p className tests source time = .ok file ∧
      file.indent = x.table.config.indent ∧
      file.members = (x.memberLines tests bodies).map (renderLines x.table.config.indent) := by
  have hpairs : (named tests).map (fun pair => x.table.renderTest pair.2.commands) =
      bodies.map .ok := by
    rw [← h]
    conv => rhs; rw [← map_snd_named tests, List.map_map]
    rfl
  rw [classFile, renderMethods_of_bodies x hpairs]
  refine ⟨_, rfl, rfl, ?_⟩
  rw [memberLines, List.map_append, List.map_append, List.map_map, hookMembers, helperMembers]
  split <;> rfl

/-! ## The class file -/

theorem membersText_renderLines {unit : String} (hunit : '\n' ∉ unit.toList)
    {members : List (List Line)} (h : ∀ lines ∈ members, WholeLines lines) :
    ClassFile.membersText unit (members.map (renderLines unit)) =
      "\n".intercalate
        (members.map fun lines => renderLines unit (lines.map (Line.shift 1)) ++ "\n") := by
  rw [ClassFile.membersText_eq_intercalate, List.map_map]
  congr 1
  apply List.map_congr_left
  intro lines hlines
  exact congrArg (· ++ "\n") (indent_renderLines hunit (h lines hlines))

/-- Indenting rendered lines is rendering them one level deeper, if every statement takes one line
of text and the last one is not empty; the unit of indentation may be any text without line feeds.
So a class file that is laid out by the standard template holds the lines of its members as they are
rendered one level deeper, with an empty line between two members. -/
theorem members_one_level_deeper :
    (∀ unit lines, '\n' ∉ unit.toList → WholeLines lines →
      Text.indent unit (renderLines unit lines) = renderLines unit (lines.map (Line.shift 1))) ∧
    ∀ (x : Exporter) (p : Project) (className : String) (tests : List Test) (source time : String)
      (bodies : List (List Line)),
      x.template = none → '\n' ∉ x.table.config.indent.toList →
      tests.map (fun test => x.table.renderTest test.commands) = bodies.map .ok →
      (∀ lines ∈ x.memberLines tests bodies, WholeLines lines) →
      ∃ file, x.classFile p className tests source time = .ok file ∧
        x.renderTests p className tests source time = .ok (file.headerText ++
          "\n".intercalate ((x.memberLines tests bodies).map fun lines =>
            renderLines x.table.config.indent (lines.map (Line.shift 1)) ++ "\n") ++ "\x7d") := by
  refine ⟨fun _ _ hunit => indent_renderLines hunit, ?_⟩
  intro x p className tests source time bodies htemplate hunit hbodies hwhole
  obtain ⟨file, hfile, hindent, hmembers⟩ :=
    classFile_of_bodies x p className source time hbodies
  refine ⟨file, hfile, ?_⟩
  have hrender := ClassFile.render_eq_header file
  rw [hindent, hmembers, membersText_renderLines hunit hwhole, ClassFile.render_eq] at hrender
  rw [renderTests_standard htemplate, hfile]
  exact congrArg (Except.mapError Error.template) hrender

/-- A test with one command, which is disabled. -/
def disabledTest : Test :=
  { name := "t", commands := [{ name := "//click", comment := "later" }] }

/-- A carriage return as the unit of indentation, and a class of one method. -/
theorem members_one_level_deeper_samples :
    Text.indent "\r" (renderLines "\r" [⟨0, "a"⟩, ⟨2, ""⟩, ⟨1, "b"⟩]) =
      renderLines "\r" [⟨1, "a"⟩, ⟨3, ""⟩, ⟨2, "b"⟩] ∧
    ∃ file, bareExporter.classFile { name := "p" } "PCest" [disabledTest] "p.side" "" = .ok file ∧
      bareExporter.renderTests { name := "p" } "PCest" [disabledTest] "p.side" "" =
        .ok (file.headerText ++ renderLines "    " [⟨1, "public function t(AcceptanceTester $I)"⟩,
          ⟨1, "\x7b"⟩, ⟨2, "// later"⟩, ⟨2, "// disabled: click"⟩, ⟨1, "\x7d"⟩] ++ "\n" ++
          "\x7d") := by
  have hbodies : [disabledTest].map (fun test => bareExporter.table.renderTest test.commands) =
      [[⟨0, "// later"⟩, ⟨0, "// disabled: click"⟩]].map .ok := rfl
  have hmembers : bareExporter.memberLines [disabledTest]
      [[⟨0, "// later"⟩, ⟨0, "// disabled: click"⟩]] =
      [[⟨0, "public function t(AcceptanceTester $I)"⟩, ⟨0, "\x7b"⟩, ⟨1, "// later"⟩,
        ⟨1, "// disabled: click"⟩, ⟨0, "\x7d"⟩]] := by decide
  obtain ⟨hlines, hfiles⟩ := members_one_level_deeper
  obtain ⟨file, hfile, hrender⟩ := hfiles bareExporter { name := "p" } "PCest" [disabledTest]
    "p.side" "" _ rfl (by decide) hbodies (by rw [hmembers]; decide)
  refine ⟨hlines "\r" [⟨0, "a"⟩, ⟨2, ""⟩, ⟨1, "b"⟩] (by decide) (by decide), file, hfile, ?_⟩
  rw [hmembers] at hrender
  rw [hrender, List.map_singleton, String.intercalate_singleton, ← String.append_assoc]
  rfl

end Exporter

end CestWriter
