import CestWriter.Config
import CestWriter.Emission
import CestWriter.Error
import CestWriter.Recording.Project

/-!
# Emitters and what they work with

An emitter makes an emission of a command. It may resolve locators, look at the configuration, and
know how deep the command stands inside blocks. Most emissions are calls of an actor method,
`$I->method(…)`.
-/

namespace CestWriter

/-- How locators are written in the generated code. -/
structure Resolver where
  /-- The form that actor methods take. -/
  strict : String → Except Error String
  /-- The form that calls on the driver take. -/
  driver : String → Except Error String

/-- The forms that a locator has by itself. -/
def Resolver.standard : Resolver where
  strict s := (Locator.strict s).mapError .locator
  driver s := (Locator.driver s).mapError .locator

/-- What an emitter may consult besides the command. -/
structure Context where
  resolver : Resolver
  config : Config
  /-- The level of the block that the emission will stand in. -/
  depth : Nat

/-- Makes an emission of a command. -/
abbrev Emitter := Context → Command → Except Error Emission

namespace Vocabulary

/-- A call of an actor method. -/
def call (method arguments : String) : String :=
  "$I->" ++ method ++ "(" ++ arguments ++ ")"

/-- A statement that calls an actor method. -/
def callStatement (method arguments : String) : Emission :=
  .statement (call method arguments ++ ";")

/-- Arguments of a call on an element: the locator and then a value. What is empty is left out. -/
def elementArguments (ctx : Context) (target value : String) : Except Error String :=
  if target.isEmpty then .ok value
  else do
    let locator ← ctx.resolver.strict target
    return if value.isEmpty then locator else locator ++ ", " ++ value

/-- A call on an element. -/
def callOn (ctx : Context) (method target value : String) : Except Error String := do
  return call method (← elementArguments ctx target value)

/-- A statement that calls an actor method on an element. -/
def onElement (method : String) (ctx : Context) (target value : String) :
    Except Error Emission := do
  return .statement ((← callOn ctx method target value) ++ ";")

/-- Emits a call on the target that takes nothing else. -/
def targetCall (method : String) : Emitter := fun ctx c =>
  onElement method ctx c.targetText ""

/-- Emits a call on the target that also takes the value as text. -/
def targetAndTextCall (method : String) : Emitter := fun ctx c =>
  onElement method ctx c.targetText (Literal.text c.valueText)

/-- Emits a call that takes the target as text. -/
def textCall (method : String) : Emitter := fun _ c =>
  .ok (callStatement method (Literal.text c.targetText))

/-- Emits a call without arguments. -/
def bareCall (method : String) : Emitter := fun _ _ =>
  .ok (callStatement method "")

/-- Emits a callback on the driver, given the driver form of the target. -/
def onDriver (body : String → List String) : Emitter := fun ctx c => do
  return .callback (body (← ctx.resolver.driver c.targetText)) none

/-- Emits nothing: the command only concerns the recorder. -/
def skip : Emitter := fun _ _ =>
  .ok .nothing

end Vocabulary

end CestWriter
