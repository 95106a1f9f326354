import CestWriter.Proofs.ClassMembers
import CestWriter.Proofs.FileLayout
import CestWriter.Proofs.Indentation
import CestWriter.Proofs.Pieces
import CestWriter.Proofs.Walk

/-!
# Statements in the class file

Every statement of a test reaches the class file. One that holds no line feed and does not end with
a carriage return stands there as it is; in the others the indentation of the class body comes
between their lines.
-/

namespace CestWriter

/-! ## Lines and methods -/

theorem statement_infix_render (unit : String) (l : Line) :
    l.statement.toList <:+: (l.render unit).toList := by
  unfold Line.render
  split
  · next hempty =>
    rw [String.isEmpty_iff] at hempty
    rw [hempty]
  · rw [String.toList_append]
    exact (List.suffix_append _ _).isInfix

theorem infix_intercalate {separator part : String} {parts : List String} (h : part ∈ parts) :
    part.toList <:+: (separator.intercalate parts).toList := by
  induction parts with
  | nil => exact nomatch h
  | cons first rest ih =>
    cases rest with
    | nil =>
      rw [List.mem_singleton] at h
      rw [h, String.intercalate_singleton]
    | cons second rest =>
      rw [String.intercalate_cons_cons, String.toList_append]
      rcases List.mem_cons.mp h with rfl | hrest
      · rw [String.toList_append, List.append_assoc]
        exact (List.prefix_append _ _).isInfix
      · exact (ih hrest).trans (List.suffix_append _ _).isInfix

theorem statement_infix_renderLines (unit : String) {lines : List Line} {l : Line}
    (h : l ∈ lines) : l.statement.toList <:+: (renderLines unit lines).toList :=
  (statement_infix_render unit l).trans (infix_intercalate (List.mem_map_of_mem h))

namespace Exporter

theorem renderMethod_eq_ok {x : Exporter} {name method : String} {test : Test}
    (h : x.renderMethod name test = .ok method) :
    ∃ body, x.table.renderTest test.commands = .ok body ∧
      ∀ l ∈ body, l.statement.toList <:+: method.toList := by
  unfold renderMethod at h
  cases hbody : x.table.renderTest test.commands with
  | error error =>
    rw [hbody] at h
    exact nomatch h
  | ok body =>
    rw [hbody] at h
    refine ⟨body, rfl, fun l hl => ?_⟩
    rw [← Except.ok.inj h]
    -- the line stands one level deeper in the method, with the same statement
    apply statement_infix_renderLines x.table.config.indent (l := l.shift 1)
    apply List.mem_append_left
    apply List.mem_append_right
    exact List.mem_map_of_mem hl

/-! ## The class file -/

theorem indent_of_classFile {x : Exporter} {p : Project} {className : String} {tests : List Test}
    {source time : String} {file : ClassFile}
    (h : x.classFile p className tests source time = .ok file) :
    file.indent = x.table.config.indent := by
  unfold classFile at h
  cases hmethods : x.renderMethods (named tests) with
  | error error =>
    rw [hmethods] at h
    exact nomatch h
  | ok methods =>
    rw [hmethods] at h
    cases h
    rfl

/-- Every test of a class file is written as one of its members. -/
theorem member_of_classFile {x : Exporter} {p : Project} {className : String} {tests : List Test}
    {source time : String} {file : ClassFile}
    (h : x.classFile p className tests source time = .ok file) {test : Test}
    (htest : test ∈ tests) :
    ∃ name, ∃ member ∈ file.members, x.renderMethod name test = .ok member := by
  obtain ⟨methods, hmethods, hmembers⟩ := classFile_eq_ok h
  obtain ⟨i, hi⟩ := List.mem_iff_getElem?.mp htest
  obtain ⟨name, method, -, hmethod, hrender, -⟩ := renderMethods_getElem? hmethods hi
  refine ⟨name, method, ?_, hrender⟩
  rw [hmembers]
  apply List.mem_append_left
  apply List.mem_append_right
  exact List.mem_of_getElem? hmethod

theorem renderTests_standard {x : Exporter} (htemplate : x.template = none) (p : Project)
    (className : String) (tests : List Test) (source time : String) :
    x.renderTests p className tests source time =
      (x.classFile p className tests source time).bind fun file =>
        (Template.renderAll ClassFile.standardNodes file.scope).mapError .template := by
  unfold renderTests
  cases x.classFile p className tests source time with
  | error error => rfl
  | ok file =>
    change (x.layOut file).mapError Error.template = _
    rw [layOut, htemplate]
    change file.render.mapError Error.template = _
    rw [ClassFile.render_eq]
    rfl

/-- How the statements of tests stand in a class file that is laid out by the standard template:
every one is carried over, and unbroken ones stand there as they are. -/
theorem statements_of_renderTests (x : Exporter) (htemplate : x.template = none) (p : Project)
    (className : String) (tests : List Test) (source time text : String)
    (hrender : x.renderTests p className tests source time = .ok text) (test : Test)
    (htest : test ∈ tests) :
    ∃ lines, x.table.renderTest test.commands = .ok lines ∧
      ∀ l ∈ lines, Text.carriedOver x.table.config.indent l.statement <:+: text.toList ∧
        (Text.Unbroken l.statement → l.statement.toList <:+: text.toList) := by
  obtain ⟨file, hfile, hout⟩ := renderTests_eq_ok hrender
  rw [layOut, htemplate] at hout
  obtain ⟨name, member, hmember, hmethod⟩ := member_of_classFile hfile htest
  obtain ⟨lines, hlines, hstatements⟩ := renderMethod_eq_ok hmethod
  refine ⟨lines, hlines, fun l hl => ?_⟩
  have hindented := ClassFile.member_infix_render hout hmember
  rw [indent_of_classFile hfile] at hindented
  have hcarried := (Text.carriedOver_infix_indent x.table.config.indent
    (hstatements l hl)).trans hindented
  refine ⟨hcarried, fun hunbroken => ?_⟩
  rw [Text.carriedOver_of_unbroken _ hunbroken] at hcarried
  exact hcarried

/-! ## A statement of two lines -/

/-- Writes class files by the standard template that do not say where they come from. -/
def bareExporter : Exporter :=
  { table := .standard { provenance := false } }

/-- A command that types two lines into a field. -/
def typeTwoLines : Command :=
  { name := "type", target := some "id=x", value := some "a\nb", comment := "two lines" }

/-- A test with this command. -/
def twoLineTest : Test :=
  { name := "t", commands := [typeTwoLines] }

/-- The statement that types the two lines. -/
def twoLineStatement : String :=
  "$I->fillField([\"id\" => \"x\"], \"a\nb\");"

/-- The method of this test. -/
def twoLineMethod : String :=
  renderLines "    " [⟨0, "public function t(AcceptanceTester $I)"⟩, ⟨0, "\x7b"⟩,
    ⟨1, "// two lines"⟩, ⟨1, twoLineStatement⟩, ⟨0, "\x7d"⟩]

/-- The class file with this test. -/
def twoLineText : String :=
  "\n".intercalate ["<?php", "use Faker\\Factory;", "", "class PCest", "\x7b",
    "    public function t(AcceptanceTester $I)", "    \x7b", "        // two lines",
    "        $I->fillField([\"id\" => \"x\"], \"a", "    b\");", "    \x7d", "\x7d"]

theorem emit_typeTwoLines :
    bareExporter.table.emit 0 typeTwoLines = .ok (.statement twoLineStatement) := by
  have hpieces : Text.decompose "a\nb".toList = [.literal "a\nb".toList] :=
    Text.Piece.decompose_of_not_mem (by decide) (by decide)
  have htext : Literal.text "a\nb" = "\"a\nb\"" := by
    rw [Literal.text, Text.interpolate, hpieces]
    decide +kernel
  have hmem : ("type", Vocabulary.targetAndTextCall "fillField") ∈ Vocabulary.standard := by
    simp [Vocabulary.standard, Vocabulary.interactions]
  have hstandard : bareExporter.table.IsStandard := rfl
  rw [Table.emit_of_mem_standard hstandard hmem]
  change ((Vocabulary.onElement "fillField" _ "id=x" (Literal.text "a\nb")).map _) = _
  rw [htext]
  apply eq_ok_of_toOption
  decide +kernel

theorem renderTest_twoLineTest : bareExporter.table.renderTest twoLineTest.commands =
    .ok [⟨0, "// two lines"⟩, ⟨0, twoLineStatement⟩] := by
  have hstep : bareExporter.table.step 0 typeTwoLines =
      .ok (0, [⟨0, "// two lines"⟩, ⟨0, twoLineStatement⟩]) := by
    rw [Table.step, if_neg (by decide), emit_typeTwoLines]
    rfl
  exact Table.renderTest_eq_ok (Table.walk_singleton hstep)

theorem renderTests_twoLineTest :
    bareExporter.renderTests { name := "p", tests := [twoLineTest] } "PCest" [twoLineTest] "p.side"
      "" = .ok twoLineText := by
  have hnamed : named [twoLineTest] = [("t", twoLineTest)] := by decide +kernel
  have hmethod : bareExporter.renderMethod "t" twoLineTest = .ok twoLineMethod := by
    rw [renderMethod, renderTest_twoLineTest]
    rfl
  have hmethods : bareExporter.renderMethods (named [twoLineTest]) = .ok [twoLineMethod] := by
    rw [hnamed, renderMethods, hmethod]
    rfl
  rw [renderTests_standard rfl, classFile, hmethods]
  apply eq_ok_of_toOption
  decide +kernel

/-- The comment of the command stands in the file, and its statement with the indentation in it. -/
theorem statements_of_twoLineTest :
    bareExporter.template = none ∧
    bareExporter.renderTests { name := "p", tests := [twoLineTest] } "PCest" [twoLineTest] "p.side"
      "" = .ok twoLineText ∧
    "// two lines".toList <:+: twoLineText.toList ∧
    "$I->fillField([\"id\" => \"x\"], \"a\n    b\");".toList <:+: twoLineText.toList := by
  obtain ⟨lines, hlines, hstatements⟩ := statements_of_renderTests bareExporter rfl _ _ _ _ _ _
    renderTests_twoLineTest twoLineTest List.mem_cons_self
  obtain rfl := Except.ok.inj (renderTest_twoLineTest.symm.trans hlines)
  have hcomment := hstatements ⟨0, "// two lines"⟩ List.mem_cons_self
  have htyped := hstatements ⟨0, twoLineStatement⟩ (List.mem_cons_of_mem _ List.mem_cons_self)
  refine ⟨rfl, renderTests_twoLineTest, hcomment.2 (by decide), ?_⟩
  have hcarried : Text.carriedOver "    " twoLineStatement =
      "$I->fillField([\"id\" => \"x\"], \"a\n    b\");".toList := by decide
  rw [← hcarried]
  exact htyped.1

/-- The file with the test does not hold its statement. -/
theorem twoLineStatement_not_infix :
    bareExporter.renderTests { name := "p", tests := [twoLineTest] } "PCest" [twoLineTest] "p.side"
      "" = .ok twoLineText ∧
    bareExporter.table.renderTest twoLineTest.commands =
      .ok [⟨0, "// two lines"⟩, ⟨0, twoLineStatement⟩] ∧
    ¬ twoLineStatement.toList <:+: twoLineText.toList := by
  refine ⟨renderTests_twoLineTest, renderTest_twoLineTest, ?_⟩
  rw [twoLineText, String.toList_intercalate]
  decide +kernel

end Exporter

end CestWriter
