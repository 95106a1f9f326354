import CestWriter.ClassFile

/-!
# The standard template

The standard template is read once into its parts: a header, the members of the class and the
closing brace. What the part for the members writes is worked out here.
-/

namespace CestWriter

theorem eq_ok_of_toOption {ε α : Type} {result : Except ε α} {a : α}
    (h : result.toOption = some a) : result = .ok a := by
  cases result with
  | error error => exact nomatch h
  | ok b => exact congrArg Except.ok (Option.some.inj h)

namespace Template

/-- Parts that can be filled in each by itself give their texts one after the other. -/
theorem renderAll_eq_join {nodes : List Node} {scope : Scope} {texts : List String}
    (h : nodes.map (·.render scope) = texts.map .ok) :
    renderAll nodes scope = .ok (String.join texts) := by
  induction nodes generalizing texts with
  | nil =>
    obtain rfl : texts = [] := List.map_eq_nil_iff.mp h.symm
    rfl
  | cons node nodes ih =>
    obtain ⟨text, rest, rfl, hnode, hnodes⟩ := List.map_eq_cons_iff.mp h.symm
    have hfirst : node.render scope = .ok text := hnode.symm
    rw [renderAll, hfirst, ih hnodes.symm, String.join_cons]
    rfl

end Template

namespace ClassFile

open Template

/-! ## Reading -/

/-- Literal text of the template. -/
def literalPart (s : String) : Segment :=
  .text s.toList

/-- A tag of the template with blanks around what it says. -/
def tagPart (kind : Tag) (body : String) : Segment :=
  .tag kind (' ' :: body.toList ++ [' '])

/-- The segments of the standard template. -/
def standardSegments : List Segment := [
  literalPart "", tagPart .output "begin",
  literalPart "\n", tagPart .control "if provenance",
  literalPart "// GENERATED by side-export ", tagPart .output "version",
  literalPart " - DO NOT EDIT\n// SOURCE: ", tagPart .output "source",
  literalPart "\n// PROJECT HASH: ", tagPart .output "project_hash",
  literalPart "\n// GENERATED: ", tagPart .output "generated_at",
  literalPart "\n\n", tagPart .control "endif",
  literalPart "", tagPart .control "if dependencies",
  literalPart "", tagPart .output "dependencies",
  literalPart "\n", tagPart .control "endif",
  literalPart "class ", tagPart .output "class_name",
  literalPart "\n\x7b\n", tagPart .control "for member in members",
  literalPart "", tagPart .output "member | indent(indent)",
  literalPart "\n", tagPart .control "if not loop.last",
  literalPart "\n", tagPart .control "endif",
  literalPart "", tagPart .control "endfor",
  literalPart "\x7d"]

/-- What the template writes about where the file comes from. -/
def provenanceNodes : List Node := [
  .text "// GENERATED by side-export ", .output (.name "version"),
  .text " - DO NOT EDIT\n// SOURCE: ", .output (.name "source"),
  .text "\n// PROJECT HASH: ", .output (.name "project_hash"),
  .text "\n// GENERATED: ", .output (.name "generated_at"), .text "\n\n"]

/-- What the template writes about what the class depends on. -/
def dependencyNodes : List Node :=
  [.output (.name "dependencies"), .text "\n"]

/-- What the template writes before the members. -/
def headerNodes : List Node := [
  .output (.name "begin"), .text "\n",
  .condition (.name "provenance") provenanceNodes,
  .condition (.name "dependencies") dependencyNodes,
  .text "class ", .output (.name "class_name"), .text "\n\x7b\n"]

/-- What the template writes for one member. -/
def memberNodes : List Node := [
  .output (.filter (.name "member") "indent" [.name "indent"]), .text "\n",
  .condition (.negate (.field (.name "loop") "last")) [.text "\n"]]

/-- The parts of the standard template. -/
def standardNodes : List Node :=
  headerNodes ++ [.repetition "member" (.name "members") memberNodes, .text "\x7d"]

theorem segments_standardTemplate : segments standardTemplate.toList = .ok standardSegments := by
  apply eq_ok_of_toOption
  -- the text is taken apart first: the characters of a text that is put together are slow to list
  simp only [standardTemplate, outputTag, controlTag, String.toList_intercalate,
    String.toList_append, List.map_cons, List.map_nil]
  decide +kernel

theorem foldlM_standardSegments :
    standardSegments.foldlM Builder.step {} = .ok ⟨standardNodes.reverse, []⟩ := by
  rfl

theorem parse_standardTemplate : parse standardTemplate = .ok standardNodes := by
  rw [parse, segments_standardTemplate]
  change (standardSegments.foldlM Builder.step {} >>= fun b =>
    if b.outer.isEmpty then pure b.nodes.reverse else throw Fault.unbalanced) = _
  rw [foldlM_standardSegments]
  exact congrArg Except.ok (List.reverse_reverse standardNodes)

theorem render_eq (f : ClassFile) : f.render = renderAll standardNodes f.scope := by
  rw [render, parse_standardTemplate]
  rfl

/-! ## Filling in -/

/-- The members as the standard template writes them, with an empty line between two of them. -/
def membersText (unit : String) : List String → String
  | [] => ""
  | member :: rest =>
    Text.indent unit member ++ ("\n" ++ if rest.isEmpty then "" else "\n") ++ membersText unit rest

theorem renderAll_memberNodes {scope : Scope} {unit : String}
    (hunit : scope.get "indent" = .text unit) (member : String) (first last : Bool) :
    renderAll memberNodes (scope.inside "member" member first last) =
      .ok (Text.indent unit member ++ ("\n" ++ if last then "" else "\n")) := by
  have hindented : (Expr.filter (.name "member") "indent" [.name "indent"]).eval
      (scope.inside "member" member first last) = .ok (.text (Text.indent unit member)) := by
    change (Value.text member).filter "indent" [scope.get "indent"] = _
    rw [hunit]
    rfl
  have hlast : (Expr.negate (.field (.name "loop") "last")).eval
      (scope.inside "member" member first last) = .ok (.truth !last) := rfl
  simp only [memberNodes, renderAll, Node.render, hindented, hlast]
  cases last with
  | true => simp [bind, Except.bind, pure, Except.pure, Value.isTrue, Value.write]
  | false => simp [bind, Except.bind, pure, Except.pure, Value.isTrue, Value.write]

theorem repeatFor_memberNodes {scope : Scope} {unit : String}
    (hunit : scope.get "indent" = .text unit) (first : Bool) (members : List String) :
    repeatFor (renderAll memberNodes) scope "member" first members =
      .ok (membersText unit members) := by
  induction members generalizing first with
  | nil => rfl
  | cons member rest ih =>
    rw [repeatFor, renderAll_memberNodes hunit, ih]
    rfl

end ClassFile

end CestWriter
