import CestWriter.Template.Node

/-!
# The layout of a class file

A class file is laid out by a template, which gets the parts of the file by name. The standard
template is written with the tags of this library. A template that replaces it may be written for
any engine that reads templates.
-/

namespace CestWriter

/-- The version that generated files name. -/
def version : String :=
  "0.1.0"

/-- The parts of a class file. -/
structure ClassFile where
  /-- The beginning of the file. -/
  opening : String
  /-- Whether the file says where it comes from. -/
  provenance : Bool
  /-- The name of the recording. -/
  source : String
  /-- The digest of the recorded tests. -/
  digest : String
  /-- When the file was generated. -/
  generatedAt : String
  version : String
  /-- Declarations before the class, possibly none. -/
  dependencies : String
  className : String
  /-- The text of one level of indentation. -/
  indent : String
  /-- The members of the class, relative to its body. -/
  members : List String
deriving Repr, DecidableEq

namespace ClassFile

/-- The parts of a class file by the names that a template uses. -/
def scope (f : ClassFile) : Template.Scope := [
  ("begin", .text f.opening),
  ("provenance", .truth f.provenance),
  ("source", .text f.source),
  ("project_hash", .text f.digest),
  ("generated_at", .text f.generatedAt),
  ("version", .text f.version),
  ("dependencies", .text f.dependencies),
  ("class_name", .text f.className),
  ("indent", .text f.indent),
  ("members", .list f.members)]

/-- A tag that puts a value in. -/
def outputTag (body : String) : String :=
  "\x7b\x7b " ++ body ++ " \x7d\x7d"

/-- A control tag. -/
def controlTag (body : String) : String :=
  "\x7b% " ++ body ++ " %\x7d"

/-- The file name of a template that replaces the standard one. -/
def templateName : String :=
  "cest.php.jinja"

/-- The standard template. -/
def standardTemplate : String :=
  "\n".intercalate [
    outputTag "begin",
    controlTag "if provenance",
    "// GENERATED by side-export " ++ outputTag "version" ++ " - DO NOT EDIT",
    "// SOURCE: " ++ outputTag "source",
    "// PROJECT HASH: " ++ outputTag "project_hash",
    "// GENERATED: " ++ outputTag "generated_at",
    "",
    controlTag "endif",
    controlTag "if dependencies",
    outputTag "dependencies",
    controlTag "endif",
    "class " ++ outputTag "class_name",
    "\x7b",
    controlTag "for member in members",
    outputTag "member | indent(indent)",
    controlTag "if not loop.last",
    "",
    controlTag "endif",
    controlTag "endfor",
    "\x7d",
    ""]

/-- Lays out a class file by a template that has been read. -/
def renderBy (nodes : List Template.Node) (f : ClassFile) : Except Template.Fault String :=
  Template.renderAll nodes f.scope

/-- Lays out a class file by the standard template. -/
def render (f : ClassFile) : Except Template.Fault String := do
  renderBy (← Template.parse standardTemplate) f

end ClassFile

/-- A way to lay out class files. -/
abbrev Layout : Type :=
  ClassFile → Except Template.Fault String

/-- A template that has been read is a layout. -/
instance : Coe (Option (List Template.Node)) (Option Layout) :=
  ⟨Option.map ClassFile.renderBy⟩

/-- An engine for templates. -/
structure Engine where
  /-- Reads the source of a template. -/
  read : String → Except Template.Fault Layout

/-- The engine that knows the tags of this library. -/
def Engine.standard : Engine where
  read source := (Template.parse source).map ClassFile.renderBy

end CestWriter
