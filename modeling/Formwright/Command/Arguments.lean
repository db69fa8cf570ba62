/-!
Reading the arguments of a command line. They are taken from left to right, and the first that
asks for help or for the version, or is a mistake, settles the matter.
-/

namespace Formwright.Command

inductive Flag
  | verbose
  | json
  | help
  | version
deriving DecidableEq, Repr

inductive Invocation
  | init (name : String)
  | convert (target : String) (json : Bool)
  | watch (target : String)
  | mappings (kind : Option String)
deriving DecidableEq, Repr

inductive Mistake
  | noCommand
  | unknownCommand (text : String)
  | unknownFlag (text : String)
  | unexpectedValue (text : String)
  | repeatedFlag (flag : Flag)
  | extraArgument (text : String)
  | missingName
deriving DecidableEq, Repr

inductive Stop
  | help
  | version
  | mistake (cause : Mistake)
deriving DecidableEq, Repr

namespace Flag

def longName : Flag → String
  | .verbose => "verbose"
  | .json => "json"
  | .help => "help"
  | .version => "version"

def letter? : Flag → Option Char
  | .verbose => some 'v'
  | .json => none
  | .help => some 'h'
  | .version => some 'V'

def note (seen : List Flag) : Flag → Except Stop (List Flag)
  | .help => .error .help
  | .version => .error .version
  | flag =>
    if seen.contains flag then .error (.mistake (.repeatedFlag flag)) else .ok (flag :: seen)

end Flag

def noteLetters (allowed seen : List Flag) : List Char → Except Stop (List Flag)
  | [] => .ok seen
  | letter :: letters =>
    match allowed.find? (·.letter? == some letter) with
    | none => .error (.mistake (.unknownFlag (String.ofList ['-', letter])))
    | some flag =>
      match flag.note seen with
      | .error stop => .error stop
      | .ok seen => noteLetters allowed seen letters

def noteLong (allowed seen : List Flag) (text : List Char) : Except Stop (List Flag) :=
  let name := String.ofList (text.takeWhile (· != '='))
  match allowed.find? (·.longName == name) with
  | none => .error (.mistake (.unknownFlag ("--" ++ name)))
  | some flag =>
    if text.contains '=' then .error (.mistake (.unexpectedValue (String.ofList text)))
    else flag.note seen

def noteFlags (allowed seen : List Flag) (argument : String) : Option (Except Stop (List Flag)) :=
  match argument.toList with
  | '-' :: '-' :: text => some (noteLong allowed seen text)
  | '-' :: letter :: letters => some (noteLetters allowed seen (letter :: letters))
  | _ => none

structure Given where
  flags : List Flag := []
  value : Option String := none
deriving DecidableEq, Repr

def Given.add (given : Given) (text : String) : Except Stop Given :=
  match given.value with
  | none => .ok { given with value := some text }
  | some _ => .error (.mistake (.extraArgument text))

def addValues (given : Given) : List String → Except Stop Given
  | [] => .ok given
  | text :: later =>
    match given.add text with
    | .error stop => .error stop
    | .ok given => addValues given later

def readGiven (allowed : List Flag) (given : Given) : List String → Except Stop Given
  | [] => .ok given
  | "--" :: later => addValues given later
  | argument :: later =>
    match noteFlags allowed given.flags argument with
    | some (.error stop) => .error stop
    | some (.ok flags) => readGiven allowed { given with flags } later
    | none =>
      match given.add argument with
      | .error stop => .error stop
      | .ok given => readGiven allowed given later

def isCommand (text : String) : Bool :=
  ["init", "convert", "watch", "mappings", "help"].contains text

def readHelp : List String → Stop
  | [] => .help
  | [command] => if isCommand command then .help else .mistake (.unknownCommand command)
  | command :: topic :: _ =>
    .mistake (.unknownCommand (if isCommand command then topic else command))

def readCommand (command : String) (arguments : List String) : Except Stop Invocation := do
  match command with
  | "init" =>
    let given ← readGiven [.verbose, .help] {} arguments
    match given.value with
    | some name => return .init name
    | none => throw (.mistake .missingName)
  | "convert" =>
    let given ← readGiven [.verbose, .json, .help] {} arguments
    return .convert (given.value.getD ".") (given.flags.contains .json)
  | "watch" =>
    let given ← readGiven [.verbose, .help] {} arguments
    return .watch (given.value.getD ".")
  | "mappings" =>
    let given ← readGiven [.verbose, .help] {} arguments
    return .mappings given.value
  | "help" => throw (readHelp arguments)
  | text => throw (.mistake (.unknownCommand text))

def readAfter (seen : List Flag) : List String → Except Stop Invocation
  | [] => .error (.mistake .noCommand)
  | "--" :: later =>
    .error (.mistake ((later.head?.map Mistake.extraArgument).getD .noCommand))
  | argument :: later =>
    match noteFlags [.verbose, .help, .version] seen argument with
    | some (.error stop) => .error stop
    | some (.ok seen) => readAfter seen later
    | none => readCommand argument later

def readArguments (arguments : List String) : Except Stop Invocation := readAfter [] arguments

end Formwright.Command
