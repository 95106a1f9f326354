import CestWriter.Error

/-!
# Hosts

What the command line needs from the system it runs on: files, two channels for text and a clock.
-/

namespace CestWriter.Cli

/-- A system with files, two channels for text and a clock. -/
structure Host (m : Type → Type) where
  /-- The text of a file. -/
  read : String → m (Except FileFault String)
  /-- Gives a file a new text. -/
  write : String → String → m (Except FileFault Unit)
  /-- Writes to standard output. -/
  out : String → m Unit
  /-- Writes to standard error. -/
  err : String → m Unit
  /-- The current time. -/
  now : m String

namespace Host

variable {m : Type → Type} [Monad m]

/-- Writes a line to standard output. -/
def outLine (host : Host m) (s : String) : m Unit :=
  host.out (s ++ "\n")

/-- Writes a line to standard error. -/
def errLine (host : Host m) (s : String) : m Unit :=
  host.err (s ++ "\n")

/-- The text of a file that must be there. -/
def load (host : Host m) (path : String) : ExceptT Error m String := do
  match ← host.read path with
  | .ok text => return text
  | .error fault => throw (.file fault)

/-- The text of a file, or nothing if there is none under this path. `blame` says what error another
fault is. -/
def load? (host : Host m) (blame : FileFault → Error) (path : String) :
    ExceptT Error m (Option String) := do
  match ← host.read path with
  | .ok text => return some text
  | .error .missing | .error .notDirectory | .error .nameTooLong => return none
  | .error fault => throw (blame fault)

/-- Gives a file a new text. -/
def save (host : Host m) (path text : String) : ExceptT Error m Unit := do
  match ← host.write path text with
  | .ok () => return ()
  | .error fault => throw (.file fault)

end Host

end CestWriter.Cli
