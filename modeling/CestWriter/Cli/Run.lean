import CestWriter.Cli.Arguments
import CestWriter.Cli.Host
import CestWriter.Cli.Path
import CestWriter.Exporter

/-!
# The command line

`export` writes a class file for a recording, `command` shows what a single command becomes,
`commands` and `hooks` list what the program knows. Errors go to standard error and give the exit
code one.
-/

namespace CestWriter.Cli

variable {m : Type → Type} [Monad m]

/-- What `help` prints. -/
def usage : String :=
  "\n".intercalate [
    "",
    "side-export - Selenium IDE recordings as Codeception tests",
    "",
    "USAGE:",
    "    side-export <COMMAND> [OPTIONS]",
    "",
    "COMMANDS:",
    "    export <project.side>            Export tests as a Cest class",
    "    command <name> [target] [value]  Emit one command",
    "    commands                         List supported commands",
    "    hooks                            Show hook definitions",
    "    version                          Print version",
    "",
    "OPTIONS:",
    "    --suite <name>                   Export one suite (default: every test)",
    "    --output <file>                  Output file (default: stdout)",
    "    --config <file>                  Config file (default: " ++ Config.fileName ++
      " next to the project)",
    "    --template-dir <dir>             Directory with a " ++ ClassFile.templateName ++
      " override",
    "",
    "ENVIRONMENT:",
    "    SIDE_EXPORT_LOG                  Log filter, e.g. debug (default: warn)",
    "",
    "EXAMPLES:",
    "    side-export export shop.side --output tests/acceptance/ShopCest.php",
    "    side-export export shop.side --suite \"Smoke\" --config ci.yaml",
    "    side-export command click css=#submit",
    "    side-export command type id=q \"hello $\x7bname\x7d\"",
    ""]

/-- What `export` prints without a project. -/
def exportUsage : String :=
  "Usage: side-export export <project.side> [--suite NAME] [--output FILE] [--config FILE]"

/-- What `command` prints without a name. -/
def commandUsage : String :=
  "Usage: side-export command <name> [target] [value]"

/-- Writes the reports that the verbosity admits to standard error. -/
def Host.report (host : Host m) (verbosity : Verbosity) : List Event → m Unit
  | [] => pure ()
  | e :: rest => do
    if verbosity.admits e.severity then
      host.errLine (e.line (← host.now))
    host.report verbosity rest

/-- Reads a recording. -/
def loadProject (host : Host m) (path : String) : ExceptT Error m Project := do
  let text ← host.load path
  MonadExcept.ofExcept ((Project.parse text).mapError (.recordingFile path))

/-- The configuration that the text of a file gives. -/
def readConfig (path text : String) : Except Error Config :=
  (Config.parse text).mapError (.configFile path)

/-- Reads the configuration: from the file that is named, or from the one next to the recording if
there is one. -/
def loadConfig (host : Host m) (request : ExportRequest) : ExceptT Error m Config := do
  match request.config with
  | some path => MonadExcept.ofExcept (readConfig path (← host.load path))
  | none =>
    let path := Path.join (Path.folder request.project) Config.fileName
    match ← host.load? .file path with
    | some text => MonadExcept.ofExcept (readConfig path text)
    | none => return {}

/-- Reads the template in a folder, if a folder is named and there is one in it. -/
def loadTemplate (engine : Engine) (host : Host m) (verbosity : Verbosity) :
    Option String → ExceptT Error m (Option Layout)
  | none => return none
  | some folder => do
    let path := Path.join folder ClassFile.templateName
    match ← host.load? (.templateFile path) path with
    | none => return none
    | some source =>
      host.report verbosity [.template path]
      return some (← MonadExcept.ofExcept ((engine.read source).mapError .template))

/-- Makes the class file that is asked for. -/
def assemble (engine : Engine) (host : Host m) (verbosity : Verbosity) (request : ExportRequest) :
    ExceptT Error m String := do
  let project ← loadProject host request.project
  let config ← loadConfig host request
  host.report verbosity [.configured config]
  let template ← loadTemplate engine host verbosity request.templateFolder
  let x : Exporter := { table := .standard config, template := template }
  host.report verbosity (x.events project request.suite)
  let source := (Path.fileName? request.project).getD request.project
  MonadExcept.ofExcept (x.render project request.suite source (← host.now))

/-- Writes a class file to a file or to standard output. -/
def deliver (host : Host m) (output : Option String) (code : String) : ExceptT Error m Unit := do
  match output with
  | none => host.outLine code
  | some path =>
    host.save path code
    host.errLine ("Written to: " ++ path)

/-- Exports a recording as asked for. Nothing is written before the whole class file is made. -/
def exportAs (engine : Engine) (host : Host m) (verbosity : Verbosity) (request : ExportRequest) :
    ExceptT Error m Unit := do
  deliver host request.output (← assemble engine host verbosity request)

/-- Runs an export. -/
def runExport (engine : Engine) (host : Host m) (verbosity : Verbosity) (args : List String) :
    ExceptT Error m Unit :=
  match ExportRequest.ofArguments? args with
  | none => throw (.other exportUsage)
  | some request => exportAs engine host verbosity request

/-- A whole number with its sign. -/
def signed (n : Int) : String :=
  if n < 0 then n.repr else "+" ++ n.repr

/-- The command that arguments name, with its target and value; nothing if there are none. -/
def commandOf? : List String → Option Command
  | [] => none
  | name :: rest => some { name := name, target := rest[0]?, value := rest[1]? }

/-- The lines of an emission on its own. One that begins by lowering the level cannot be placed at
level zero and is shown as it is. -/
def standaloneLines (name : String) (e : Emission) : Except Error (List Line) :=
  if e.before < 0 then .ok e.lines else (Placement.place 0 name e).2

/-- Shows what a single command becomes, and how it changes the level. -/
def showCommand (host : Host m) (verbosity : Verbosity) (c : Command) : ExceptT Error m Unit := do
  let table := Table.standard {}
  host.report verbosity (table.emitEvents 0 c)
  let e ← MonadExcept.ofExcept (table.emit 0 c)
  let lines ← MonadExcept.ofExcept (standaloneLines c.name e)
  host.outLine (renderLines table.config.indent lines)
  if e.before ≠ 0 || e.after ≠ 0 then
    host.errLine ("level adjustments: start " ++ signed e.before ++ ", end " ++ signed e.after)

/-- Runs the display of a single command. -/
def runCommand (host : Host m) (verbosity : Verbosity) (args : List String) :
    ExceptT Error m Unit :=
  match commandOf? (positional args) with
  | none => throw (.other commandUsage)
  | some c => showCommand host verbosity c

/-- Lists the commands that are known. -/
def commandList : String :=
  String.join ((Table.standard {}).names.map (· ++ "\n"))

/-- What is shown of a hook. -/
def hookSummary (p : HookPoint) : String :=
  let hook := Hook.standard p
  let lines := hook.opening ++ hook.closing
  "# " ++ p.name ++ " (registration level " ++ hook.effectiveLevel.repr ++ ")\n" ++
    (if lines.isEmpty then "(empty)" else renderLines ({} : Config).indent lines) ++ "\n\n"

/-- Lists the hooks. -/
def hookList : String :=
  String.join (HookPoint.all.map hookSummary)

/-- Runs a subcommand. -/
def dispatch (engine : Engine) (host : Host m) (verbosity : Verbosity) (name : String)
    (args : List String) : ExceptT Error m Unit := do
  if name = "export" then runExport engine host verbosity args
  else if name = "command" then runCommand host verbosity args
  else if name = "commands" then host.out commandList
  else if name = "hooks" then host.out hookList
  else if name = "version" || name = "--version" || name = "-v" then
    host.outLine ("side-export " ++ version)
  else if name = "help" || name = "--help" || name = "-h" then host.outLine usage
  else
    host.errLine ("Unknown command: " ++ name)
    host.outLine usage
    throw (.other "Unknown command")

/-- Ends a run: an error is reported, and the exit code tells whether there is one. -/
def conclude (host : Host m) : Except Error Unit → m UInt32
  | .ok () => return 0
  | .error e => do
    host.errLine ("Error: " ++ e.message)
    return 1

/-- Runs the command line and gives the exit code. Templates in files are read by `engine`. -/
def run (host : Host m) (verbosity : Verbosity) (args : List String)
    (engine : Engine := .standard) : m UInt32 := do
  match args with
  | [] =>
    host.outLine usage
    return 1
  | name :: rest => conclude host (← (dispatch engine host verbosity name rest).run)

end CestWriter.Cli
