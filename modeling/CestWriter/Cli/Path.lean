import CestWriter.Text.Cut

/-!
# Paths

Paths are texts in which slashes separate the names of folders and files.
-/

namespace CestWriter.Path

/-- The names in a path. -/
def names (path : String) : List String :=
  (Text.pieces '/' path.toList).map String.ofList

/-- The name of the file at the end of a path, if there is one. -/
def fileName? (path : String) : Option String :=
  match ((names path).filter fun name => name != "" && name != ".").getLast? with
  | some ".." => none
  | last => last

/-- A path in reverse without separators and single dots at its end. -/
def dropSeparators : List Char → List Char
  | '/' :: cs => dropSeparators cs
  | '.' :: '/' :: cs => dropSeparators cs
  | cs => cs

/-- The folder that holds the file at the end of a path. -/
def folder (path : String) : String :=
  let before := path.toList.reverse.dropWhile (· != '/')
  match (dropSeparators before).reverse with
  | [] => if before.isEmpty then "." else "/"
  | cs => String.ofList cs

/-- The path of a file in a folder. -/
def join (folder name : String) : String :=
  if folder.isEmpty then name
  else if folder.toList.getLast? = some '/' then folder ++ name
  else folder ++ "/" ++ name

end CestWriter.Path
