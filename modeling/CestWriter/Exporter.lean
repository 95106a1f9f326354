import CestWriter.ClassFile
import CestWriter.Hook
import CestWriter.Journal
import CestWriter.Placement
import CestWriter.Recording.Codec
import CestWriter.Table

/-!
# Exporting tests

The commands of a test are emitted one after another and placed at the running level. The tests of
a suite or project become the methods of one class, between the members that hooks add.
-/

namespace CestWriter

/-- The comment of a command as a line, if there is one. -/
def commentLines (level : Nat) (comment : String) : List Line :=
  if comment.isEmpty then [] else [⟨level, "// " ++ comment⟩]

/-- The line that a disabled command leaves. -/
def disabledLine (level : Nat) (c : Command) : Line :=
  let parts := [Text.trimmed (Text.dropLeading '/' c.name), c.targetText, c.valueText]
  ⟨level, "// disabled: " ++ " ".intercalate (parts.filter (!·.isEmpty))⟩

namespace Table

/-- The lines of one command at a level, and the level after it. A comment stands at the level of
the command's first line. -/
def step (t : Table) (level : Nat) (c : Command) : Except Error (Nat × List Line) :=
  if c.isDisabled then .ok (level, commentLines level c.comment ++ [disabledLine level c])
  else do
    let e ← t.emit level c
    if e = .nothing then return (level, commentLines level c.comment)
    else
      match Placement.place level c.name e with
      | (_, .error error) => throw error
      | (next, .ok lines) =>
        let own := match lines.head? with
          | some l => l.level
          | none => level
        return (next, commentLines own c.comment ++ lines)

/-- The lines of commands from a level on, and the level after them. -/
def walk (t : Table) (level : Nat) : List Command → Except Error (Nat × List Line)
  | [] => .ok (level, [])
  | c :: rest => do
    let (next, lines) ← t.step level c
    let (final, more) ← t.walk next rest
    return (final, lines ++ more)

/-- The name of the last command, empty if there is none. -/
def lastName (commands : List Command) : String :=
  match commands.getLast? with
  | some c => c.name
  | none => ""

/-- The lines of a test, relative to the body of its method. All blocks must be closed. -/
def renderTest (t : Table) (commands : List Command) : Except Error (List Line) := do
  let (level, lines) ← t.walk 0 commands
  Placement.finish level (lastName commands)
  return lines

/-- What the emission of a command reports. -/
def emitEvents (t : Table) (depth : Nat) (c : Command) : List Event :=
  match t.emit depth c with
  | .error _ => []
  | .ok _ => [.emitted c.name c.targetText]

/-- What one command of a test reports. -/
def stepEvents (t : Table) (test : String) (level : Nat) (c : Command) : List Event :=
  if c.isDisabled then [.skipped test c.name]
  else
    match t.emit level c with
    | .error _ => []
    | .ok e => .emitted c.name c.targetText :: if e = .nothing then [.silent c.name] else []

/-- What the commands of a test report from a level on, up to the first that fails. -/
def walkEvents (t : Table) (test : String) (level : Nat) : List Command → List Event
  | [] => []
  | c :: rest =>
    t.stepEvents test level c ++
      match t.step level c with
      | .error _ => []
      | .ok (next, _) => t.walkEvents test next rest

end Table

namespace MethodName

/-- The names that no test may have. -/
def reserved : List String :=
  [Helper.waitForWindow.name, "_before", "_after"]

/-- The first of `base ++ n`, `base ++ (n + 1)`, … that is not taken, among the next `tries` of
them. The number has no upper bound: a suite is taken to have fewer than 2³¹ tests, so that it fits
into 32 bits with a sign. -/
def numbered (base : String) (taken : List String) : Nat → Nat → String
  | 0, n => base ++ n.repr
  | tries + 1, n =>
    if base ++ n.repr ∈ taken then numbered base taken tries (n + 1) else base ++ n.repr

/-- The name for a test, given the names that are taken: the plain one, or the first free one with
a number from two on. Among as many numbers as names are taken, and one more, one is free. -/
def choose (taken : List String) (test : String) : String :=
  let base := Identifier.method test
  if base ∈ taken then numbered base taken taken.length 2 else base

/-- The names for tests, in order, given the names that are taken. -/
def assign (taken : List String) : List String → List String
  | [] => []
  | test :: rest =>
    let name := choose taken test
    name :: assign (name :: taken) rest

end MethodName

/-- Exports tests as class files. -/
structure Exporter where
  table : Table
  hooks : Hooks := .standard
  /-- The layout that replaces that of the standard template. -/
  template : Option Layout := none

namespace Exporter

/-- The lines of a hook as text. -/
def hookText (x : Exporter) (p : HookPoint) : String :=
  renderLines x.table.config.indent (x.hooks p).lines

/-- The places whose hooks become members of the class, in the order of the members. -/
def memberPoints : List HookPoint :=
  [.beforeAll, .declareVariables, .beforeEach, .afterEach, .afterAll, .declareMethods]

/-- The members that hooks add. -/
def hookMembers (x : Exporter) : List String :=
  (memberPoints.filter fun p => !(x.hooks p).lines.isEmpty).map x.hookText

/-- The line that closes a method stands one level further left than its hook says. -/
def outdent (l : Line) : Line :=
  { l with level := l.level - 1 }

/-- A test as a method of the class. -/
def renderMethod (x : Exporter) (name : String) (test : Test) : Except Error String := do
  let body ← x.table.renderTest test.commands
  return renderLines x.table.config.indent <|
    [⟨0, "public function " ++ name ++ "(AcceptanceTester $I)"⟩, ⟨0, "\x7b"⟩] ++
      body.map (Line.shift 1) ++ (x.hooks .inEachEnd).lines.map outdent

/-- Tests as methods, with the names given to them. -/
def renderMethods (x : Exporter) : List (String × Test) → Except Error (List String)
  | [] => .ok []
  | (name, test) :: rest => do
    let method ← x.renderMethod name test
    let more ← x.renderMethods rest
    return method :: more

/-- Tests with the names of their methods. -/
def named (tests : List Test) : List (String × Test) :=
  (MethodName.assign MethodName.reserved (tests.map (·.name))).zip tests

/-- The helper as a member, if some test opens a window. -/
def helperMembers (x : Exporter) (tests : List Test) : List String :=
  if tests.any Test.opensWindow then
    [renderLines x.table.config.indent Helper.waitForWindow.lines]
  else []

/-- The parts of the class file for these tests. -/
def classFile (x : Exporter) (p : Project) (className : String) (tests : List Test)
    (source time : String) : Except Error ClassFile := do
  let methods ← x.renderMethods (named tests)
  return {
    opening := x.hookText .inEachBegin
    provenance := x.table.config.provenance
    source := source
    digest := p.digest
    generatedAt := time
    version := version
    dependencies := x.hookText .declareDependencies
    className := className
    indent := x.table.config.indent
    members := x.hookMembers ++ methods ++ x.helperMembers tests }

/-- The class file for these tests. -/
def renderTests (x : Exporter) (p : Project) (className : String) (tests : List Test)
    (source time : String) : Except Error String := do
  let file ← x.classFile p className tests source time
  let text := match x.template with
    | some layout => layout file
    | none => file.render
  text.mapError .template

/-- The class name for a suite or project. -/
def className (x : Exporter) (name : String) : String :=
  Identifier.className x.table.config.classSuffix name

/-- A choice of tests, with the name of what is chosen. -/
structure Selection where
  name : String
  tests : List Test

/-- The tests that a suite refers to, in its order. -/
def suiteTests (p : Project) (s : Suite) : Except Error (List Test) :=
  s.tests.mapM fun id =>
    match p.test? id with
    | some test => .ok test
    | none => .error (.unknownTest s.name id)

/-- The tests of a suite, or all tests of the project. -/
def select (p : Project) : Option String → Except Error Selection
  | none => .ok ⟨p.name, p.tests⟩
  | some name =>
    match p.suite? name with
    | none => .error (.unknownSuite name)
    | some suite => do return ⟨suite.name, ← suiteTests p suite⟩

/-- The class file for a suite, or for the whole project. -/
def render (x : Exporter) (p : Project) (suite : Option String) (source time : String) :
    Except Error String := do
  let s ← select p suite
  x.renderTests p (x.className s.name) s.tests source time

/-- What writing tests as methods reports, up to the first that fails. -/
def methodEvents (x : Exporter) : List (String × Test) → List Event
  | [] => []
  | (name, test) :: rest =>
    .rendering test.name name :: x.table.walkEvents test.name 0 test.commands ++
      match x.table.renderTest test.commands with
      | .error _ => []
      | .ok _ => x.methodEvents rest

/-- What the export of a suite, or of the whole project, reports. -/
def events (x : Exporter) (p : Project) (suite : Option String) : List Event :=
  match select p suite with
  | .error _ => []
  | .ok s => x.methodEvents (named s.tests)

end Exporter

end CestWriter
