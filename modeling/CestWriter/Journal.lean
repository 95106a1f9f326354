import CestWriter.Config

/-!
# The journal of an export

What an export reports while it runs, each report with its severity.
-/

namespace CestWriter

/-- How important a report is, the most important first. -/
inductive Severity where
  | error
  | warn
  | info
  | debug
deriving Repr, DecidableEq

namespace Severity

/-- The rank of a severity; more important ones come first. -/
def rank : Severity → Nat
  | .error => 1
  | .warn => 2
  | .info => 3
  | .debug => 4

/-- The name of a severity, five characters wide. -/
def label : Severity → String
  | .error => "ERROR"
  | .warn => " WARN"
  | .info => " INFO"
  | .debug => "DEBUG"

end Severity

/-- Which reports are written: none, or those of at least this severity. -/
abbrev Verbosity := Option Severity

/-- The verbosity that a setting asks for. Without a setting warnings are written, with an empty one
only errors, and with an unknown one nothing. -/
def Verbosity.ofSetting : Option String → Verbosity
  | none => some .warn
  | some s =>
    if s = "error" || s = "" then some .error
    else if s = "warn" then some .warn
    else if s = "info" then some .info
    else if s = "debug" || s = "trace" then some .debug
    else none

/-- Whether reports of a severity are written. -/
def Verbosity.admits (verbosity : Verbosity) (severity : Severity) : Bool :=
  match verbosity with
  | none => false
  | some least => severity.rank ≤ least.rank

/-- A report. -/
inductive Event where
  /-- A disabled command is left out. -/
  | skipped (test command : String)
  /-- A test is about to be written as a method. -/
  | rendering (test method : String)
  | configured (config : Config)
  /-- A template file is used. -/
  | template (path : String)
  /-- A command has been emitted. -/
  | emitted (command target : String)
  /-- A command has no counterpart in the generated code. -/
  | silent (command : String)
deriving Repr, DecidableEq

namespace Event

/-- The severity of a report. -/
def severity : Event → Severity
  | .skipped _ _ => .warn
  | .rendering _ _ => .info
  | _ => .debug

/-- The wording of a report. -/
def message : Event → String
  | .skipped test command =>
    String.join ["skipping disabled command test=", test, " command=", command]
  | .rendering test method => String.join ["rendering test test=", test, " method=", method]
  | .configured config => String.join ["loaded config config=", config.shown]
  | .template path => String.join ["using custom template path=", path]
  | .emitted command target =>
    String.join ["emitted command=", command, " locator=", Text.shown target]
  | .silent command => String.join ["no output for recorder-only command command=", command]

/-- The line of a report, with the time it was made. -/
def line (time : String) (e : Event) : String :=
  time ++ " " ++ e.severity.label ++ " " ++ e.message

end Event

end CestWriter
