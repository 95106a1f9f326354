import CestWriter.Cli.Run
import Std.Time.Format

/-!
# The program

The command line on the files, channels and clock of the system.
-/

namespace CestWriter.Cli

/-- The number that a system gives an error, which may come with its sign changed. -/
def errorNumber (code : UInt32) : Nat :=
  if code.toNat < Nat.pow 2 31 then code.toNat else Nat.pow 2 32 - code.toNat

/-- The file fault behind an error of the system. -/
def faultOf : IO.Error → FileFault
  | .noFileOrDirectory _ _ _ => .missing
  | .inappropriateType _ code details =>
    if errorNumber code = 20 then .notDirectory
    else if errorNumber code = 21 then .directory
    else .other details
  | .permissionDenied _ code details | .alreadyExists _ code details
  | .resourceExhausted _ code details | .invalidArgument _ code details =>
    if errorNumber code = 36 then .nameTooLong
    else .other (details ++ " (os error " ++ (errorNumber code).repr ++ ")")
  | e => .other (toString e)

/-- The current time in UTC, with nanoseconds. -/
def timeNow : IO String := do
  let now ← Std.Time.Timestamp.now
  let civil := Std.Time.PlainDateTime.ofWallTime (now.toWallTime Std.Time.TimeZone.Offset.zero)
  return civil.format "uuuu-MM-dd'T'HH:mm:ss.SSSSSSSSS" ++ "+00:00"

/-- The system as a host. -/
def system : Host IO where
  read path := do
    try
      match String.fromUTF8? (← IO.FS.readBinFile path) with
      | some text => return .ok text
      | none => return .error .notText
    catch e => return .error (faultOf e)
  write path text := do
    try
      IO.FS.writeFile path text
      return .ok ()
    catch e => return .error (faultOf e)
  out s := IO.print s
  err s := IO.eprint s
  now := timeNow

end CestWriter.Cli

/-- Runs the command line; the environment says which reports are written. -/
def main (args : List String) : IO UInt32 := do
  let setting ← IO.getEnv "SIDE_EXPORT_LOG"
  CestWriter.Cli.run CestWriter.Cli.system (CestWriter.Verbosity.ofSetting setting) args
