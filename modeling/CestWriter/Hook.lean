import CestWriter.Emission

/-!
# Hooks

A class file has nine places where statements can be added. A hook holds the fixed lines of such a
place and the statements registered with it. A hook that is not required writes nothing as long as
nothing is registered.
-/

namespace CestWriter

/-- The places of a class file, in their order. -/
inductive HookPoint where
  | afterAll
  | afterEach
  | beforeAll
  | beforeEach
  | declareDependencies
  | declareMethods
  | declareVariables
  | inEachBegin
  | inEachEnd
deriving Repr, DecidableEq

namespace HookPoint

/-- All places, in order. -/
def all : List HookPoint :=
  [.afterAll, .afterEach, .beforeAll, .beforeEach, .declareDependencies, .declareMethods,
    .declareVariables, .inEachBegin, .inEachEnd]

/-- The name of a place. -/
def name : HookPoint → String
  | .afterAll => "afterAll"
  | .afterEach => "afterEach"
  | .beforeAll => "beforeAll"
  | .beforeEach => "beforeEach"
  | .declareDependencies => "declareDependencies"
  | .declareMethods => "declareMethods"
  | .declareVariables => "declareVariables"
  | .inEachBegin => "inEachBegin"
  | .inEachEnd => "inEachEnd"

/-- The place of this name. -/
def ofName? (name : String) : Option HookPoint :=
  all.find? (·.name == name)

end HookPoint

/-- What is written at a place of a class file. -/
structure Hook where
  /-- Fixed lines before the registered statements. -/
  opening : List Line := []
  /-- Fixed lines after the registered statements. -/
  closing : List Line := []
  /-- The level of the registered statements, if it is set. -/
  level : Option Nat := none
  /-- The fixed lines are written even if nothing is registered. -/
  required : Bool := false
  registered : List Line := []
deriving Repr, DecidableEq

namespace Hook

/-- The level of the registered statements: one inside a body that the hook closes, else zero,
unless it is set. -/
def effectiveLevel (h : Hook) : Nat :=
  h.level.getD (if h.closing.isEmpty then 0 else 1)

/-- Registers a statement; its level is relative to that of the hook. -/
def register (h : Hook) (l : Line) : Hook :=
  { h with registered := h.registered ++ [l] }

/-- The lines of a hook. -/
def lines (h : Hook) : List Line :=
  if !h.required && h.registered.isEmpty then []
  else h.opening ++ h.registered.map (Line.shift h.effectiveLevel) ++ h.closing

/-- The method around the statements of a hook. -/
def method (name : String) : Hook where
  opening := [⟨0, "public function " ++ name ++ "(AcceptanceTester $I)"⟩, ⟨0, "\x7b"⟩]
  closing := [⟨0, "\x7d"⟩]

/-- The hook of a place before anything is registered. -/
def standard : HookPoint → Hook
  | .afterAll | .beforeAll | .declareMethods | .declareVariables => {}
  | .afterEach => method "_after"
  | .beforeEach => method "_before"
  | .declareDependencies => { opening := [⟨0, "use Faker\\Factory;"⟩, ⟨0, ""⟩], required := true }
  | .inEachBegin => { opening := [⟨0, "<?php"⟩], required := true }
  | .inEachEnd => { closing := [⟨1, "\x7d"⟩], required := true }

end Hook

/-- The hooks of all places. -/
abbrev Hooks := HookPoint → Hook

namespace Hooks

/-- The hooks before anything is registered. -/
def standard : Hooks :=
  Hook.standard

/-- Changes the hook of one place. -/
def update (hooks : Hooks) (p : HookPoint) (change : Hook → Hook) : Hooks := fun q =>
  if q = p then change (hooks q) else hooks q

end Hooks

/-- The method that waits for a new window. -/
structure Helper where
  name : String
  lines : List Line
deriving Repr, DecidableEq

/-- The helper that commands opening a window call. -/
def Helper.waitForWindow : Helper where
  name := "waitForWindow"
  lines := [
    ⟨0, "public function waitForWindow(AcceptanceTester $I, array $windowHandles, int $timeout)"⟩,
    ⟨0, "\x7b"⟩,
    ⟨1, "return $I->executeInSelenium(function " ++
      "(\\Facebook\\WebDriver\\Remote\\RemoteWebDriver $webdriver) " ++
      "use ($windowHandles, $timeout) \x7b"⟩,
    ⟨2, "$deadline = microtime(true) + $timeout / 1000;"⟩,
    ⟨2, "while (microtime(true) < $deadline) \x7b"⟩,
    ⟨3, "$newHandles = array_values(array_diff($webdriver->getWindowHandles(), $windowHandles));"⟩,
    ⟨3, "if (count($newHandles) > 0) \x7b"⟩,
    ⟨4, "return $newHandles[0];"⟩,
    ⟨3, "\x7d"⟩,
    ⟨3, "usleep(100000);"⟩,
    ⟨2, "\x7d"⟩,
    ⟨2, "throw new \\RuntimeException('new window did not appear within ' . $timeout . 'ms');"⟩,
    ⟨1, "\x7d);"⟩,
    ⟨0, "\x7d"⟩]

end CestWriter
