import CestWriter.Json.Token
import CestWriter.Locator
import CestWriter.Template.Segment
import CestWriter.Yaml.Scalar

/-!
# Errors

Everything that can go wrong in an export, by cause, and the wording of each.
-/

namespace CestWriter

/-- Why a file cannot be read or written. -/
inductive FileFault where
  | missing
  | directory
  | notDirectory
  | nameTooLong
  /-- The bytes of the file are no UTF-8 text. -/
  | notText
  /-- Any other cause, in the words of the system. -/
  | other (reason : String)
deriving Repr, DecidableEq

/-- The wording of a file fault. -/
def FileFault.message : FileFault → String
  | .missing => "No such file or directory (os error 2)"
  | .directory => "Is a directory (os error 21)"
  | .notDirectory => "Not a directory (os error 20)"
  | .nameTooLong => "File name too long (os error 36)"
  | .notText => "stream did not contain valid UTF-8"
  | .other reason => reason

/-- What is wrong with a parameter of a command. -/
inductive Malformation where
  /-- An option that has no label after an equals sign. -/
  | option (value : String)
  /-- An offset without a comma. -/
  | offset (value : String)
  /-- A window size without an `x`. -/
  | size (target : String)
  /-- A locator without an attribute after an at sign. -/
  | attribute (target : String)
deriving Repr, DecidableEq

/-- The wording of a malformation. -/
def Malformation.message : Malformation → String
  | .option value => String.join ["option `", value, "` is not of the form label=..."]
  | .offset value => String.join ["offset `", value, "` is not of the form x,y"]
  | .size target => String.join ["size `", target, "` is not of the form WIDTHxHEIGHT"]
  | .attribute target => String.join ["`", target, "` is not of the form locator@attribute"]

/-- What can go wrong in an export. -/
inductive Error where
  /-- No emitter has this name. -/
  | unknownCommand (name : String)
  /-- A window is selected by something else than a handle, a name or a number. -/
  | windowSelection
  | malformed (command : String) (cause : Malformation)
  | locator (fault : LocatorFault)
  /-- A command moves the level below zero, or the last one leaves it above zero. -/
  | unbalanced (command : String) (level : Int)
  | template (fault : Template.Fault)
  | file (fault : FileFault)
  | config (fault : Yaml.Fault)
  | recording (fault : Json.Fault)
  | configFile (path : String) (fault : Yaml.Fault)
  | recordingFile (path : String) (fault : Json.Fault)
  | templateFile (path : String) (fault : FileFault)
  | unknownSuite (name : String)
  /-- A suite refers to a test that the project does not have. -/
  | unknownTest (suite test : String)
  /-- Any other cause, in its own words. -/
  | other (reason : String)
deriving Repr, DecidableEq

namespace Error

/-- The wording of a fault in a recording. -/
def recordingMessage (fault : Json.Fault) : String :=
  String.join ["JSON error: ", fault.message]

/-- The wording of a fault in a configuration. -/
def configMessage (fault : Yaml.Fault) : String :=
  String.join ["YAML error: ", fault.message]

/-- The wording of an error. -/
def message : Error → String
  | .unknownCommand name => String.join ["Unknown command: ", name]
  | .windowSelection => "Can only emit `select window` using handles"
  | .malformed command cause =>
    String.join ["Malformed argument for `", command, "`: ", cause.message]
  | .locator fault => String.join ["Locator error: ", fault.message]
  | .unbalanced command level =>
    String.join ["Unbalanced control flow at `", command, "` (level ", level.repr, ")"]
  | .template fault => String.join ["Template error: ", fault.message]
  | .file fault => String.join ["IO error: ", fault.message]
  | .config fault => configMessage fault
  | .recording fault => recordingMessage fault
  | .configFile path fault => String.join ["Failed to parse ", path, ": ", configMessage fault]
  | .recordingFile path fault =>
    String.join ["Failed to parse ", path, ": ", recordingMessage fault]
  | .templateFile path fault => String.join ["Failed to read ", path, ": ", fault.message]
  | .unknownSuite name => String.join ["Suite not found: ", name]
  | .unknownTest suite test =>
    String.join ["Suite `", suite, "` references unknown test `", test, "`"]
  | .other reason => reason

end Error

end CestWriter
