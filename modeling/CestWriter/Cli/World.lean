import CestWriter.Cli.Host
import CestWriter.Cli.Path

/-!
# A host in memory

Files and folders, one of which is the folder the program works in, the text written to the two
channels, and a clock that stands still. Paths are resolved name by name: every name before the last
must be that of a folder. A file may be closed to reading or to writing.
-/

namespace CestWriter.Cli

/-- Files and folders, by the names that lead to them from the root. -/
structure FileTree where
  files : List (List String × ByteArray) := []
  /-- Folders that may be empty; those that lead to others or to files need not be listed. -/
  folders : List (List String) := []
  /-- The folder from which paths are followed that do not begin with a slash. -/
  home : List String := []
  /-- Why the file at a place may not be read, if it may not. -/
  unreadable : List String → Option FileFault := fun _ => none
  /-- Why the file at a place may not be given a text, if it may not. -/
  unwritable : List String → Option FileFault := fun _ => none

namespace FileTree

/-- How many bytes a name may take. -/
def nameLimit : Nat := 255

/-- How many bytes a path may take. -/
def pathLimit : Nat := 4095

/-- Whether there is a folder at a place. The root is one, and so is the working folder. -/
def isFolder (t : FileTree) (place : List String) : Bool :=
  place.isEmpty || place.isPrefixOf t.home || t.folders.any (place.isPrefixOf ·) ||
    t.files.any fun (file, _) => place != file && place.isPrefixOf file

/-- The bytes of the file at a place. -/
def file? (t : FileTree) (place : List String) : Option ByteArray :=
  t.files.lookup place

/-- Succeeds if there is a folder at a place. -/
def enter (t : FileTree) (place : List String) : Except FileFault Unit :=
  if t.isFolder place then .ok ()
  else .error (if (t.file? place).isSome then .notDirectory else .missing)

/-- Follows names from a place. The folder above the root is the root itself. -/
def follow (t : FileTree) (here : List String) : List String → Except FileFault (List String)
  | [] => .ok here
  | name :: rest => do
    t.enter here
    if name = "." then t.follow here rest
    else if name = ".." then t.follow here.dropLast rest
    else if nameLimit < name.utf8ByteSize then throw .nameTooLong
    else t.follow (here ++ [name]) rest

/-- Whether a path ends with a slash, so that only a folder can be meant. -/
def namesFolder (path : String) : Bool :=
  path.toList.getLast? == some '/'

/-- The place from which a path is followed, and the names in it. -/
def route (t : FileTree) (path : String) : Except FileFault (List String × List String) :=
  if path.isEmpty then .error .missing
  else if pathLimit < path.utf8ByteSize then .error .nameTooLong
  else .ok (if Text.startsWith "/" path then [] else t.home, (Path.names path).filter (· ≠ ""))

/-- The place that a path leads to, which need not exist. -/
def locate (t : FileTree) (path : String) : Except FileFault (List String) := do
  let (start, names) ← t.route path
  t.follow start names

/-- The text of a file. -/
def read (t : FileTree) (path : String) : Except FileFault String := do
  let place ← t.locate path
  match t.file? place with
  | some bytes =>
    if namesFolder path then throw .notDirectory
    else
      match t.unreadable place, String.fromUTF8? bytes with
      | some fault, _ => throw fault
      | none, some text => return text
      | none, none => throw .notText
  | none => throw (if t.isFolder place then .directory else .missing)

/-- Files with one of them given new bytes. -/
def replace (place : List String) (bytes : ByteArray) :
    List (List String × ByteArray) → List (List String × ByteArray)
  | [] => [(place, bytes)]
  | (other, old) :: rest =>
    if other = place then (place, bytes) :: rest else (other, old) :: replace place bytes rest

/-- The tree after a file is given a new text. A path that ends with a slash cannot be that of a
file, whatever is there. -/
def write (t : FileTree) (path text : String) : Except FileFault FileTree := do
  if namesFolder path then
    let (start, names) ← t.route path
    t.enter (← t.follow start names.dropLast)
    throw .directory
  else
    let place ← t.locate path
    if t.isFolder place then throw .directory
    else
      match t.unwritable place with
      | some fault => throw fault
      | none => return { t with files := replace place text.toUTF8 t.files }

end FileTree

/-- The state of a host in memory. -/
structure World where
  tree : FileTree
  out : String := ""
  err : String := ""
  time : String := ""

/-- The host in memory. -/
def World.host : Host (StateM World) where
  read path := do return (← get).tree.read path
  write path text := do
    let w ← get
    match w.tree.write path text with
    | .error fault => return .error fault
    | .ok tree =>
      set { w with tree := tree }
      return .ok ()
  out s := modify fun w => { w with out := w.out ++ s }
  err s := modify fun w => { w with err := w.err ++ s }
  now := do return (← get).time

end CestWriter.Cli
