/-!
# The command line

Arguments are read from the left. An argument that begins with a hyphen is an option, or several one
after the other when it begins with only one; a hyphen alone and everything behind a double hyphen
is a file. An option that takes a value has it behind an equals sign, directly behind its letter or
as the next argument. Nothing may be given twice but `-v`. The first argument that asks for the help
or the version ends the reading, and so does the first that is wrong.
-/
namespace Cascade.Command

/-- What a run is asked to do. -/
structure Request where
  /-- The path of the source. -/
  file : String
  /-- Whether the tokens are listed and nothing is parsed. -/
  tokens : Bool
  /-- Whether the expressions are printed. -/
  tree : Bool
  /-- Whether the number of nodes and bytes is printed. -/
  footprint : Bool
  /-- The path of the settings, if it is given. -/
  config : Option String
  /-- Whether diagnostics stay without colours. -/
  noColor : Bool
  /-- How often more messages about the run itself were asked for. -/
  verbosity : Nat
  deriving DecidableEq, Repr

/-- What a command line asks for. -/
inductive Invocation where
  /-- A run. -/
  | run (request : Request)
  /-- The help. -/
  | help
  /-- The version. -/
  | version
  deriving DecidableEq, Repr

/-- What is wrong with a command line. -/
inductive UsageError where
  /-- There is no such option, or no room for another file. -/
  | unexpectedArgument (argument : String)
  /-- An option is given twice. -/
  | repeated (option : String)
  /-- An option or a file has no value. -/
  | missingValue (option : String)
  /-- An option that takes no value has one. -/
  | unexpectedValue (option : String)
  /-- No file is given. -/
  | missingFile
  deriving DecidableEq, Repr

/-- The wording of a usage error. -/
def UsageError.message : UsageError → String
  | .unexpectedArgument argument => s!"unexpected argument '{argument}' found"
  | .repeated option => s!"the argument '{option}' cannot be used multiple times"
  | .missingValue option => s!"a value is required for '{option}' but none was supplied"
  | .unexpectedValue option => s!"unexpected value for '{option}' found; no more were expected"
  | .missingFile => "the following required arguments were not provided:\n  <FILE>"

/-- The options that may be given once and take no value. -/
inductive Switch where
  | tokens | tree | footprint | noColor
  deriving DecidableEq, Repr

/-- How a switch is written behind its two hyphens. -/
def Switch.name : Switch → String
  | .tokens => "tokens"
  | .tree => "tree"
  | .footprint => "footprint"
  | .noColor => "no-color"

/-- The switch of a name. -/
def Switch.ofName? (name : String) : Option Switch :=
  [tokens, tree, footprint, noColor].find? fun switch => switch.name == name

/-- What has been read of a command line. -/
structure Draft where
  /-- The path of the source. -/
  file : Option String
  /-- The switches in the order in which they were given. -/
  switches : List Switch
  /-- The path of the settings. -/
  config : Option String
  /-- How often `-v` was given. -/
  verbosity : Nat
  deriving DecidableEq, Repr

namespace Draft

/-- Nothing has been read. -/
def empty : Draft := ⟨none, [], none, 0⟩

/-- Takes in a file. -/
def withFile (draft : Draft) (path : String) : Except UsageError Draft :=
  if draft.file.isSome then .error (.unexpectedArgument path)
  else if path = "" then .error (.missingValue "<FILE>")
  else .ok { draft with file := some path }

/-- Takes in a switch. -/
def withSwitch (draft : Draft) (switch : Switch) : Except UsageError Draft :=
  if switch ∈ draft.switches then .error (.repeated ("--" ++ switch.name))
  else .ok { draft with switches := draft.switches ++ [switch] }

/-- Takes in the path of the settings. -/
def withConfig (draft : Draft) (path : String) : Except UsageError Draft :=
  if draft.config.isSome then .error (.repeated "--config")
  else if path = "" then .error (.missingValue "--config")
  else .ok { draft with config := some path }

/-- Takes in a `-v`. -/
def moreVerbose (draft : Draft) : Draft := { draft with verbosity := draft.verbosity + 1 }

/-- The request that has been read, if it names a file. -/
def request (draft : Draft) : Except UsageError Request :=
  match draft.file with
  | none => .error .missingFile
  | some file =>
    .ok
      { file
        tokens := .tokens ∈ draft.switches
        tree := .tree ∈ draft.switches
        footprint := .footprint ∈ draft.switches
        config := draft.config
        noColor := .noColor ∈ draft.switches
        verbosity := draft.verbosity }

end Draft

/-- What an argument does to the reading. -/
inductive Effect where
  /-- The reading goes on. -/
  | goOn (draft : Draft)
  /-- The next argument is the path of the settings. -/
  | awaitConfig (draft : Draft)
  /-- The reading ends. -/
  | stop (invocation : Invocation)

/-- Reads an option with a long name, which may have a value behind an equals sign. -/
def readLong (draft : Draft) (name : String) (value : Option String) : Except UsageError Effect :=
  match Switch.ofName? name, name, value with
  | some switch, _, none => (draft.withSwitch switch).map .goOn
  | none, "config", none => .ok (.awaitConfig draft)
  | none, "config", some path => (draft.withConfig path).map .goOn
  | none, "verbose", none => .ok (.goOn draft.moreVerbose)
  | none, "help", none => .ok (.stop .help)
  | none, "version", none => .ok (.stop .version)
  | some _, _, some _ => .error (.unexpectedValue ("--" ++ name))
  | none, _, some _ =>
    if name ∈ ["verbose", "help", "version"] then .error (.unexpectedValue ("--" ++ name))
    else .error (.unexpectedArgument ("--" ++ name))
  | none, _, none => .error (.unexpectedArgument ("--" ++ name))

/-- Reads options of one letter each. -/
def readShort (draft : Draft) : List Char → Except UsageError Effect
  | [] => .ok (.goOn draft)
  | 'v' :: later => readShort draft.moreVerbose later
  | 'h' :: _ => .ok (.stop .help)
  | 'V' :: _ => .ok (.stop .version)
  | 'c' :: [] => .ok (.awaitConfig draft)
  | 'c' :: '=' :: path => (draft.withConfig (String.ofList path)).map .goOn
  | 'c' :: path => (draft.withConfig (String.ofList path)).map .goOn
  | letter :: _ => .error (.unexpectedArgument ("-" ++ letter.toString))

/-- Reads one argument that does not stand behind a double hyphen. -/
def readArgument (draft : Draft) (argument : String) : Except UsageError Effect :=
  match argument.toList with
  | '-' :: '-' :: long =>
    let name := String.ofList (long.takeWhile (· ≠ '='))
    match long.dropWhile (· ≠ '=') with
    | [] => readLong draft name none
    | _ :: value => readLong draft name (some (String.ofList value))
  | '-' :: letter :: letters => readShort draft (letter :: letters)
  | _ => (draft.withFile argument).map .goOn

/-- Whether an argument cannot be the value of the option before it. -/
def isOption (argument : String) : Bool :=
  match argument.toList with
  | '-' :: _ :: _ => true
  | _ => false

/-- Reads arguments on top of what has been read. -/
def readArguments (draft : Draft) : List String → Except UsageError Invocation
  | [] => draft.request.map .run
  | argument :: later =>
    if argument = "--" then do
      let complete ← later.foldlM Draft.withFile draft
      complete.request.map .run
    else
      match readArgument draft argument, later with
      | .error error, _ => .error error
      | .ok (.goOn next), later => readArguments next later
      | .ok (.stop invocation), _ => .ok invocation
      | .ok (.awaitConfig _), [] => .error (.missingValue "--config")
      | .ok (.awaitConfig next), path :: rest =>
        if isOption path then .error (.missingValue "--config")
        else
          match next.withConfig path with
          | .error error => .error error
          | .ok complete => readArguments complete rest

/-- What a command line asks for. -/
def Invocation.ofArguments (arguments : List String) : Except UsageError Invocation :=
  readArguments .empty arguments

end Cascade.Command
