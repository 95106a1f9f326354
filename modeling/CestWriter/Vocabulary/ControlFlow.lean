import CestWriter.Decimal.Floor
import CestWriter.Recording.Script
import CestWriter.Vocabulary.Context

/-!
# Control flow

Commands that open, divide and close blocks. An opening command raises the level after its lines, a
closing one lowers it before them, and a dividing one does both. The conditions are scripts that
run in the browser.
-/

namespace CestWriter

/-- The commands of control flow. -/
inductive Keyword where
  | doLoop
  | ifThen
  | elseIf
  | elseThen
  | endBlock
  | whileLoop
  | repeatIf
  | forEach
  | times
deriving Repr, DecidableEq

namespace Keyword

/-- The name of the command. -/
def name : Keyword → String
  | .doLoop => "do"
  | .ifThen => "if"
  | .elseIf => "elseIf"
  | .elseThen => "else"
  | .endBlock => "end"
  | .whileLoop => "while"
  | .repeatIf => "repeatIf"
  | .forEach => "forEach"
  | .times => "times"

/-- All commands of control flow. -/
def all : List Keyword :=
  [.doLoop, .ifThen, .elseIf, .elseThen, .endBlock, .whileLoop, .repeatIf, .forEach, .times]

/-- The command of control flow with this name. -/
def ofName? (name : String) : Option Keyword :=
  all.find? (·.name == name)

/-- The change of the level before the command's lines. -/
def before : Keyword → Int
  | .doLoop | .ifThen | .whileLoop | .forEach | .times => 0
  | .elseIf | .elseThen | .endBlock | .repeatIf => -1

/-- The change of the level after the command's lines. -/
def after : Keyword → Int
  | .doLoop | .ifThen | .whileLoop | .forEach | .times | .elseIf | .elseThen => 1
  | .endBlock | .repeatIf => 0

end Keyword

namespace Vocabulary

/-- The condition of a block as an expression. -/
def condition (c : Command) : String :=
  call "executeJS" ((Script.ofRecorded c.targetText).callArguments "return ")

/-- The variable that a `forEach` goes through: the target without any variable signs. -/
def collectionName (c : Command) : String :=
  String.ofList ((Text.interpolate c.targetText).toList.filter (· != '$'))

/-- The lines of a command of control flow, `depth` being the level that it is placed at. -/
def keywordLines (c : Command) (depth : Nat) : Keyword → List Line
  | .doLoop => [⟨0, "do \x7b"⟩]
  | .ifThen => [⟨0, "if (" ++ condition c ++ ") \x7b"⟩]
  | .elseIf => [⟨0, "\x7d else if (" ++ condition c ++ ") \x7b"⟩]
  | .elseThen => [⟨0, "\x7d else \x7b"⟩]
  | .endBlock => [⟨0, "\x7d"⟩]
  | .whileLoop => [⟨0, "while(" ++ condition c ++ ") \x7b"⟩]
  | .repeatIf => [⟨0, "\x7d while(" ++ condition c ++ ");"⟩]
  | .forEach =>
    let d := depth.repr
    [⟨0, "$collection_" ++ d ++ " = " ++ Literal.variableOf (collectionName c) ++ ";"⟩,
      ⟨0, "for ($i_" ++ d ++ " = 0; $i_" ++ d ++ " < count($collection_" ++ d ++ "); $i_" ++ d ++
        "++) \x7b"⟩,
      ⟨1, Literal.variableOf c.valueText ++ " = $collection_" ++ d ++ "[$i_" ++ d ++ "];"⟩]
  | .times =>
    let d := depth.repr
    [⟨0, "$times_" ++ d ++ " = " ++ floorText (Text.interpolate c.targetText) ++ ";"⟩,
      ⟨0, "for ($i_" ++ d ++ " = 0; $i_" ++ d ++ " < $times_" ++ d ++ "; $i_" ++ d ++ "++) \x7b"⟩]

/-- Emits a command of control flow. -/
def controlFlow (k : Keyword) : Emitter := fun ctx c =>
  .ok (.block (keywordLines c ctx.depth k) k.before k.after)

end Vocabulary

end CestWriter
