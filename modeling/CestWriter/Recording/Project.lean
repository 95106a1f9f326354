import CestWriter.Text.Cut

/-!
# Recordings

A project holds recorded tests and suites; a test is a sequence of commands, and a suite refers to
tests by their identifiers.
-/

namespace CestWriter

/-- One recorded step. -/
structure Command where
  /-- The name of the command, such as `click`. -/
  name : String
  id : String := ""
  /-- A free note on the step. -/
  comment : String := ""
  target : Option String := none
  /-- Other locators of the target, each with its kind. -/
  targets : List (String × String) := []
  value : Option String := none
  /-- The step opens a new browser window. -/
  opensWindow : Bool := false
  /-- The variable that gets the handle of the new window. -/
  windowHandleName : String := ""
  /-- Milliseconds to wait for the new window. -/
  windowTimeout : Option UInt64 := none
deriving Repr, DecidableEq

namespace Command

/-- The target, empty when none is recorded. -/
def targetText (c : Command) : String :=
  c.target.getD ""

/-- The value, empty when none is recorded. -/
def valueText (c : Command) : String :=
  c.value.getD ""

/-- A command is disabled by two slashes in front of its name. -/
def isDisabled (c : Command) : Bool :=
  Text.startsWith "//" c.name

/-- The same step, opening a window whose handle goes to the variable `handle`. -/
def opening (c : Command) (handle : String) (timeout : Option UInt64) : Command :=
  { c with opensWindow := true, windowHandleName := handle, windowTimeout := timeout }

end Command

/-- A recorded test. -/
structure Test where
  name : String
  id : String := ""
  commands : List Command := []
deriving Repr, DecidableEq

/-- Whether some command of the test opens a window. -/
def Test.opensWindow (t : Test) : Bool :=
  t.commands.any (·.opensWindow)

/-- A named group of tests, given by their identifiers. -/
structure Suite where
  name : String
  id : String := ""
  tests : List String := []
deriving Repr, DecidableEq

/-- A recorded project. -/
structure Project where
  name : String
  id : String := ""
  /-- The address that the recording was made against. -/
  url : String := ""
  tests : List Test := []
  suites : List Suite := []
deriving Repr, DecidableEq

namespace Project

/-- The first suite of this name. -/
def suite? (p : Project) (name : String) : Option Suite :=
  p.suites.find? (·.name == name)

/-- The first test with this identifier. -/
def test? (p : Project) (id : String) : Option Test :=
  p.tests.find? (·.id == id)

end Project

end CestWriter
