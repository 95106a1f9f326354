import CestWriter.Proofs.StandardTemplate
import Mathlib.Data.List.Infix

/-!
# The layout of a class file

What the standard template makes of a class file, said without the template: its opening, the lines
on where it comes from, what the class depends on, and the class with its members.
-/

namespace CestWriter.ClassFile

open Template

/-- The comment lines that say where a file comes from, and an empty line. -/
def provenanceLines (f : ClassFile) : List String := [
  "// GENERATED by side-export " ++ f.version ++ " - DO NOT EDIT",
  "// SOURCE: " ++ f.source,
  "// PROJECT HASH: " ++ f.digest,
  "// GENERATED: " ++ f.generatedAt,
  ""]

/-- What a file says about where it comes from, if it does. -/
def provenanceText (f : ClassFile) : String :=
  if f.provenance then String.join (f.provenanceLines.map (· ++ "\n")) else ""

/-- The declarations before the class, if there are any. -/
def dependencyText (f : ClassFile) : String :=
  if f.dependencies = "" then "" else f.dependencies ++ "\n"

/-- Everything before the members. -/
def headerText (f : ClassFile) : String :=
  String.join [f.opening, "\n", f.provenanceText, f.dependencyText, "class ", f.className,
    "\n\x7b\n"]

theorem renderAll_provenanceNodes (f : ClassFile) :
    renderAll provenanceNodes f.scope = .ok (String.join (f.provenanceLines.map (· ++ "\n"))) := by
  have hjoin : renderAll provenanceNodes f.scope = .ok (String.join [
      "// GENERATED by side-export ", f.version, " - DO NOT EDIT\n// SOURCE: ", f.source,
      "\n// PROJECT HASH: ", f.digest, "\n// GENERATED: ", f.generatedAt, "\n\n"]) :=
    renderAll_eq_join rfl
  rw [hjoin]
  -- the line ends stand in the middle of the literal parts of the template
  apply congrArg Except.ok (String.toList_injective _)
  simp [provenanceLines]

theorem render_provenance (f : ClassFile) :
    (Node.condition (.name "provenance") provenanceNodes).render f.scope =
      .ok f.provenanceText := by
  rw [Node.render]
  change (if f.provenance then renderAll provenanceNodes f.scope else .ok "") = _
  rw [renderAll_provenanceNodes, provenanceText]
  split <;> rfl

theorem render_dependencies (f : ClassFile) :
    (Node.condition (.name "dependencies") dependencyNodes).render f.scope =
      .ok f.dependencyText := by
  have hjoin : renderAll dependencyNodes f.scope = .ok (String.join [f.dependencies, "\n"]) :=
    renderAll_eq_join rfl
  rw [Node.render]
  change (if !f.dependencies.isEmpty then renderAll dependencyNodes f.scope else .ok "") = _
  rw [hjoin, dependencyText]
  by_cases hempty : f.dependencies = ""
  · simp [hempty]
  · simp [hempty]

theorem membersText_eq_intercalate (unit : String) (members : List String) :
    membersText unit members =
      "\n".intercalate (members.map fun member => Text.indent unit member ++ "\n") := by
  induction members with
  | nil => rfl
  | cons member rest ih =>
    rw [membersText, ih, List.map_cons]
    cases rest with
    | nil => simp
    | cons next rest => simp [String.append_assoc]

/-- A class file laid out by the standard template ends with its members and a closing brace. -/
theorem render_eq_header (f : ClassFile) :
    f.render = .ok (f.headerText ++ membersText f.indent f.members ++ "\x7d") := by
  have hunit : f.scope.get "indent" = .text f.indent := rfl
  have hmembers : (Node.repetition "member" (.name "members") memberNodes).render f.scope =
      .ok (membersText f.indent f.members) := by
    rw [Node.render]
    exact repeatFor_memberNodes hunit true f.members
  have hjoin : f.render = .ok (String.join [f.opening, "\n", f.provenanceText, f.dependencyText,
      "class ", f.className, "\n\x7b\n", membersText f.indent f.members, "\x7d"]) := by
    rw [render_eq]
    apply renderAll_eq_join
    simp only [standardNodes, headerNodes, List.cons_append, List.nil_append, List.map_cons,
      List.map_nil, render_provenance, render_dependencies, hmembers]
    rfl
  rw [hjoin, headerText]
  simp [String.append_assoc]

theorem member_infix_membersText (unit : String) {member : String} {members : List String}
    (h : member ∈ members) :
    (Text.indent unit member).toList ++ ['\n'] <:+: (membersText unit members).toList := by
  induction members with
  | nil => exact nomatch h
  | cons first rest ih =>
    rw [membersText, String.toList_append]
    rcases List.mem_cons.mp h with rfl | hrest
    · rw [String.toList_append, String.toList_append, ← List.append_assoc, List.append_assoc]
      exact (List.prefix_append _ _).isInfix
    · exact (ih hrest).trans (List.suffix_append _ _).isInfix

/-- A class file laid out by the standard template holds every member, indented and ended by a line
feed. -/
theorem member_infix_render {f : ClassFile} {text member : String} (hrender : f.render = .ok text)
    (hmember : member ∈ f.members) :
    (Text.indent f.indent member).toList ++ ['\n'] <:+: text.toList := by
  obtain rfl : f.headerText ++ membersText f.indent f.members ++ "\x7d" = text :=
    Except.ok.inj ((render_eq_header f).symm.trans hrender)
  rw [String.toList_append, String.toList_append]
  have hinside := member_infix_membersText f.indent hmember
  exact hinside.trans (List.infix_append _ _ _)

/-- How a class file is laid out by the standard template, whatever texts its parts are. -/
theorem standard_layout (f : ClassFile) :
    f.render = .ok (String.join [
      f.opening, "\n",
      if f.provenance then String.join (f.provenanceLines.map (· ++ "\n")) else "",
      if f.dependencies = "" then "" else f.dependencies ++ "\n",
      "class ", f.className, "\n", "\x7b", "\n",
      "\n".intercalate (f.members.map fun member => Text.indent f.indent member ++ "\n"),
      "\x7d"]) := by
  rw [render_eq_header, headerText, membersText_eq_intercalate]
  apply congrArg Except.ok (String.toList_injective _)
  simp [provenanceText, dependencyText]

-- Texts that look like tags are put in as they are.
example : ClassFile.render {
      opening := outputTag "version", provenance := false, source := "", digest := "",
      generatedAt := "", version := "1", dependencies := controlTag "endif", className := "A",
      indent := "", members := [outputTag "indent"] } =
    .ok ("\n".intercalate [outputTag "version", controlTag "endif", "class A", "\x7b",
      outputTag "indent", "\x7d"]) := by
  rw [render_eq_header]
  rfl

end CestWriter.ClassFile
