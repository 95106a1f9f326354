import CestWriter.Literal

/-!
# Emissions

What one recorded command becomes: statements at levels relative to where the command is placed,
and the changes of the running level before and after them.
-/

namespace CestWriter

/-- A statement at a level of indentation. -/
structure Line where
  level : Nat
  statement : String
deriving Repr, DecidableEq

/-- The line moved `n` levels to the right. -/
def Line.shift (n : Nat) (l : Line) : Line :=
  { l with level := n + l.level }

/-- The line as text, `unit` standing for one level. An empty statement gives an empty line. -/
def Line.render (unit : String) (l : Line) : String :=
  if l.statement.isEmpty then ""
  else String.join (List.replicate l.level unit) ++ l.statement

/-- Lines as text, `unit` standing for one level. -/
def renderLines (unit : String) (lines : List Line) : String :=
  "\n".intercalate (lines.map (Line.render unit))

/-- What an emitter makes of a command. -/
inductive Emission where
  /-- The command has no counterpart in the generated code. -/
  | nothing
  /-- One statement at the current level. -/
  | statement (s : String)
  /-- Lines, with the changes of the running level before and after them. -/
  | block (lines : List Line) (before after : Int)
  /-- Statements that run on the driver itself; the result may go to a variable. -/
  | callback (body : List String) (binding : Option String)
deriving Repr, DecidableEq

namespace Emission

/-- The opening line of a callback on the driver. -/
def callbackOpen : String :=
  "$I->executeInSelenium(function (\\Facebook\\WebDriver\\Remote\\RemoteWebDriver $webdriver) \x7b"

/-- The closing line of a callback on the driver. -/
def callbackClose : String :=
  "\x7d);"

/-- A callback whose result goes to a variable, unless its name is empty. -/
def callbackTo (name : String) (body : List String) : Emission :=
  .callback body (if name.isEmpty then none else some name)

/-- The lines of an emission, relative to where it is placed. -/
def lines : Emission → List Line
  | .nothing => []
  | .statement s => [⟨0, s⟩]
  | .block lines _ _ => lines
  | .callback body binding =>
    let opening := match binding with
      | some name => Literal.variableOf name ++ " = " ++ callbackOpen
      | none => callbackOpen
    ⟨0, opening⟩ :: body.map (⟨1, ·⟩) ++ [⟨0, callbackClose⟩]

/-- The change of the running level before the lines. -/
def before : Emission → Int
  | .block _ before _ => before
  | _ => 0

/-- The change of the running level after the lines. -/
def after : Emission → Int
  | .block _ _ after => after
  | _ => 0

/-- Whether there is nothing to write. -/
def isEmpty : Emission → Bool
  | .nothing => true
  | .statement s => s.isEmpty
  | .block lines _ _ => lines.isEmpty
  | .callback _ _ => false

end Emission

end CestWriter
