import Formwright.Command.Arguments
import Formwright.Command.Listing
import Formwright.Command.Watch
import Formwright.Workspace.Starter

/-!
Running a command line.
-/

namespace Formwright.Command

def programVersion : String := "0.1.0"

def usage : String :=
  "Convert legacy Nexacro forms into React components\n\n" ++
    s!"Usage: {programName} [OPTIONS] <COMMAND>\n\n" ++
    "Commands:\n" ++
    "  init <NAME>                Initialize a new project\n" ++
    "  convert [--json] [TARGET]  Convert a project or a single markup file\n" ++
    "  watch [TARGET]             Convert again whenever something changes\n" ++
    "  mappings [KIND]            Show the mapping table, or the rule for one kind\n" ++
    "  help [COMMAND]             Print this message\n\n" ++
    "Options:\n" ++
    "  -v, --verbose  Show debug logging\n" ++
    "  -h, --help     Print help\n" ++
    "  -V, --version  Print version\n"

def Mistake.message : Mistake → String
  | .noCommand => "a command is required"
  | .unknownCommand text => s!"unrecognized subcommand '{text}'"
  | .unknownFlag text => s!"unexpected argument '{text}' found"
  | .unexpectedValue text => s!"unexpected value in '--{text}'"
  | .repeatedFlag flag => s!"the argument '--{flag.longName}' cannot be used multiple times"
  | .extraArgument text => s!"unexpected argument '{text}' found"
  | .missingName => "a name is required"

inductive Finish
  | exit (code : UInt32)
  | watching (watch : Watch)

variable {m : Type → Type} [Monad m] [Host m]

def start (name : String) : Task m Unit := do
  Workspace.create name
  Host.print s!"     Created {programName} project `{name}`\n"

def perform : Invocation → Task m Finish
  | .init name => do start name; return .exit 0
  | .convert target json => do runConversion target json; return .exit 0
  | .watch target => return .watching (← watch target)
  | .mappings kind => do showMappings kind; return .exit 0

def stop : Stop → m Finish
  | .help => do Host.print usage; return .exit 0
  | .version => do Host.print s!"{programName} {programVersion}\n"; return .exit 0
  | .mistake cause => do
    Host.printError s!"error: {cause.message}\n\n{usage}"
    return .exit 2

/-- Only the outermost message of a failure is shown. -/
def run (arguments : List String) : m Finish := do
  match readArguments arguments with
  | .error reason => stop reason
  | .ok invocation =>
    match ← (perform invocation).run with
    | .ok finish => return finish
    | .error failure =>
      Host.printError s!"error: {failure.message}\n"
      return .exit 1

end Formwright.Command
