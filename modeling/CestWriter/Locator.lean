import CestWriter.Literal

/-!
# Locators

A locator says how to find an element on the page: `strategy=selector`, or a bare XPath that begins
with two slashes. The generated code uses two forms of it: the strict form that actor methods take,
and the driver form inside callbacks on the driver.
-/

namespace CestWriter

/-- How an element is looked up. -/
inductive Strategy where
  | id
  | name
  | css
  | xpath
  | linkText
  | partialLinkText
deriving Repr, DecidableEq

/-- The strategy that a locator names before its equals sign. -/
def Strategy.ofName? (name : String) : Option Strategy :=
  if name = "id" then some .id
  else if name = "name" then some .name
  else if name = "css" then some .css
  else if name = "xpath" then some .xpath
  else if name = "link" || name = "linkText" then some .linkText
  else if name = "partialLinkText" then some .partialLinkText
  else none

/-- The key of the strict form; partial link text has none. -/
def Strategy.strictKey? : Strategy → Option String
  | .id => some "id"
  | .name => some "name"
  | .css => some "css"
  | .xpath => some "xpath"
  | .linkText => some "link"
  | .partialLinkText => none

/-- The constructor of the driver form. -/
def Strategy.driverMethod : Strategy → String
  | .id => "id"
  | .name => "name"
  | .css => "cssSelector"
  | .xpath => "xpath"
  | .linkText => "linkText"
  | .partialLinkText => "partialLinkText"

/-- Why a locator cannot be used. -/
inductive LocatorFault where
  /-- There is no equals sign. -/
  | shapeless (locator : String)
  | unknownStrategy (name : String)
  /-- The strategy cannot be written in the strict form. -/
  | noStrictForm (locator : String)
deriving Repr, DecidableEq

/-- The wording of a locator fault. -/
def LocatorFault.message : LocatorFault → String
  | .shapeless locator =>
    String.join ["locator `", locator, "` must be of the form strategy=selector"]
  | .unknownStrategy name => String.join ["unknown locator strategy `", name, "`"]
  | .noStrictForm locator =>
    String.join ["`", locator, "`: partial link text has no strict locator form"]

/-- A locator taken apart. -/
structure Locator where
  strategy : Strategy
  selector : String
deriving Repr, DecidableEq

namespace Locator

/-- Takes a locator apart at its first equals sign. A locator that begins with two slashes is an
XPath as a whole. -/
def parse (s : String) : Except LocatorFault Locator :=
  if Text.startsWith "//" s then .ok ⟨.xpath, s⟩
  else
    match Text.splitFirst '=' s with
    | none => .error (.shapeless s)
    | some (name, selector) =>
      match Strategy.ofName? name with
      | none => .error (.unknownStrategy name)
      | some strategy => .ok ⟨strategy, selector⟩

/-- The strict form of a locator. -/
def strict (s : String) : Except LocatorFault String := do
  let l ← parse s
  match l.strategy.strictKey? with
  | some key => return "[\"" ++ key ++ "\" => " ++ Literal.text l.selector ++ "]"
  | none => throw (.noStrictForm s)

/-- The driver form of a locator. -/
def driver (s : String) : Except LocatorFault String := do
  let l ← parse s
  return "\\Facebook\\WebDriver\\WebDriverBy::" ++ l.strategy.driverMethod ++ "(" ++
    Literal.text l.selector ++ ")"

end Locator

end CestWriter
