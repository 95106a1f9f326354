/-!
# Command-line arguments

Six options take the argument after them as their value. All other arguments stand for themselves.
-/

namespace CestWriter.Cli

/-- The options that take a value. -/
def valueOptions : List String :=
  ["--suite", "--output", "-o", "--config", "-c", "--template-dir"]

/-- The value of an option that has one of these spellings: the argument after the first of them
that is not the last argument. -/
def optionValue? (spellings : List String) : List String → Option String
  | first :: second :: rest =>
    if first ∈ spellings then some second else optionValue? spellings (second :: rest)
  | _ => none

/-- The arguments that are neither options nor values of options. -/
def positional : List String → List String
  | [] => []
  | [last] => if last ∈ valueOptions then [] else [last]
  | first :: second :: rest =>
    if first ∈ valueOptions then positional rest else first :: positional (second :: rest)

/-- What an export is asked for. -/
structure ExportRequest where
  project : String
  suite : Option String
  output : Option String
  config : Option String
  templateFolder : Option String
deriving Repr, DecidableEq

/-- Reads the arguments of an export; nothing if no project is named. -/
def ExportRequest.ofArguments? (args : List String) : Option ExportRequest :=
  match positional args with
  | [] => none
  | project :: _ => some {
      project := project
      suite := optionValue? ["--suite"] args
      output := optionValue? ["--output", "-o"] args
      config := optionValue? ["--config", "-c"] args
      templateFolder := optionValue? ["--template-dir"] args }

end CestWriter.Cli
