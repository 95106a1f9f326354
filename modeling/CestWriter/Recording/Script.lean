import CestWriter.Literal
import CestWriter.Text.Blank
import CestWriter.Text.Reference

/-!
# Recorded scripts and keystrokes

A recorded script refers to variables by `${name}`. When it runs in the browser it gets their
values as arguments, so every reference becomes `arguments[i]`. A recorded sequence of keystrokes
mixes typed text, special keys such as `${KEY_ENTER}`, and variables.
-/

namespace CestWriter

/-- A script whose references are lifted into arguments. -/
structure Script where
  /-- The script, with `arguments[i]` for the references. -/
  body : String
  /-- The variables passed as arguments, each once, in order of first reference. -/
  names : List String
deriving Repr, DecidableEq

namespace Script

/-- The names with one more at the end, unless it is there already. -/
def addName (names : List String) (name : String) : List String :=
  if name ∈ names then names else names ++ [name]

/-- The names referred to in a decomposition, in order of first reference. -/
def namesOf (pieces : List Text.Piece) : List String :=
  pieces.foldl (fun names piece =>
    match piece with
    | .literal _ => names
    | .reference name => addName names (String.ofList name)) []

/-- The list of arguments inside a script. -/
def argumentsName : List Char :=
  ['a', 'r', 'g', 'u', 'm', 'e', 'n', 't', 's']

/-- A piece of a script, where `names` are the variables passed to it. -/
def writePiece (names : List String) : Text.Piece → List Char
  | .literal cs => cs
  | .reference name =>
    argumentsName ++ '[' :: (names.idxOf (String.ofList name)).repr.toList ++ [']']

/-- Trims a recorded script and lifts its references into arguments. -/
def ofRecorded (s : String) : Script :=
  let pieces := Text.decompose (Text.trim s.toList)
  let names := namesOf pieces
  ⟨String.ofList (pieces.flatMap (writePiece names)), names⟩

/-- A script and its arguments as they stand in a call, with `lead` in front of the script. -/
def callArguments (lead : String) (script : Script) : String :=
  "\"" ++ lead ++ Literal.escapeScript script.body ++ "\"" ++ Literal.scriptArguments script.names

end Script

/-- A part of a recorded sequence of keystrokes. -/
inductive KeyPart where
  /-- Characters typed as they are. -/
  | text (s : String)
  /-- A special key, by its name without the leading `KEY_`. -/
  | key (name : String)
  /-- The value of a variable. -/
  | variableRef (name : String)
deriving Repr, DecidableEq

namespace KeyPart

/-- A reference whose name begins with `KEY_` is a special key, any other one a variable. -/
def ofName (name : List Char) : KeyPart :=
  match Text.rest? "KEY_".toList name with
  | some rest => .key (String.ofList rest)
  | none => .variableRef (String.ofList name)

/-- The parts of a text from the place `last` on, given the references that follow: for each one the
text since the one before, if there is any, and the reference; at the end the rest of the text. -/
def partsFrom (cs : List Char) (last : Nat) : List Text.Occurrence → List KeyPart
  | [] => if last < cs.length then [.text (String.ofList (cs.drop last))] else []
  | found :: rest =>
    let between := (cs.drop last).take (found.start - last)
    let typed := if last < found.start then [.text (String.ofList between)] else []
    typed ++ ofName found.name :: partsFrom cs found.stop rest

/-- The parts of a recorded sequence of keystrokes. -/
def ofRecorded (s : String) : List KeyPart :=
  partsFrom s.toList 0 (Text.occurrences 0 s.toList)

/-- A part as an argument of the call that presses the keys. -/
def argument : KeyPart → String
  | .text s => Literal.quote s
  | .key name => String.join ["\\Facebook\\WebDriver\\WebDriverKeys::", name]
  | .variableRef name => Literal.variableOf name

end KeyPart

end CestWriter
