import Cascade.Command.Arguments
import Cascade.Diagnostic.Render
import Cascade.Session
import Cascade.Settings.Load

/-!
# Running a command

A run loads its settings, then its source, and then either lists the tokens or parses. What it was
asked to print goes to the output; the diagnostics, as many as the settings allow, go to the notes
with the number of errors behind them. A run that found errors exits with 1, and so does one that
did not get to its source. A report has no times in it: the line on how long a run took, which one
without errors adds to coloured notes, is left out, and so are the events a verbose run traces.
-/
namespace Cascade.Command

/-- What a run leaves behind. -/
structure Report where
  /-- The exit code. -/
  exit : Nat
  /-- What is printed. -/
  output : String
  /-- What is said about the source. -/
  notes : String
  deriving DecidableEq, Repr

/-- Why a run did not get to its source. -/
inductive StartError where
  /-- There are no settings. -/
  | settings (cause : SettingsError)
  /-- The source cannot be read. -/
  | unreadable (path : String) (cause : FileError)
  /-- The source is no text. -/
  | source (cause : SourceError)

/-- The wording of a start error, one line for each cause. -/
def StartError.message : StartError → String
  | .settings cause =>
    let reason :=
      match cause with
      | .unreadable _ file => file.message
      | .invalid _ document => document.message
    s!"failed to load configuration\n{cause.message}\n{reason}"
  | .unreadable path cause => s!"failed to read {path}\n{cause.message}"
  | .source cause => cause.message

/-- The name and the version of the program. -/
def versionText : String := "sablec 0.1.0\n"

/-- The lines of the help. -/
def helpLines : List String :=
  ["sable - front end for the sable systems language",
    "",
    "Usage: sablec [OPTIONS] <FILE>",
    "",
    "Arguments:",
    "  <FILE>  Source file to parse",
    "",
    "Options:",
    "      --tokens           Print the token stream instead of parsing",
    "      --tree             Print the parsed expressions as S-expressions",
    "      --footprint        Print node count and arena memory use after parsing",
    "  -c, --config <CONFIG>  Path to sable.json. Defaults to a sable.json beside FILE",
    "      --no-color         Never color diagnostics",
    "  -v, --verbose...       Raise log verbosity (-v debug, -vv trace). SABLE_LOG overrides it",
    "  -h, --help             Print help",
    "  -V, --version          Print version"]

/-- The help of the program. -/
def helpText : String := String.join (helpLines.map (· ++ "\n"))

/-- A token as it is listed. -/
def listedToken (token : Token) : String :=
  let payload := token.lexeme.payload?.getD ""
  s!"{token.start.text}\t{token.kind.name}\t{payload}\n"

/-- What a run prints and what it reports. -/
structure Findings where
  /-- What is printed. -/
  output : String
  /-- What is reported. -/
  log : DiagnosticLog

/-- Lists the tokens of a source. -/
def listTokens (source : Source) : Findings :=
  let stream := source.tokenStream
  ⟨String.join (stream.tokens.map listedToken), ⟨stream.problems⟩⟩

/-- The line on the number of nodes and bytes. -/
def footprintLine (ast : Ast) : String :=
  let footprint := ast.footprint
  s!"nodes: {ast.nodeCount}, arena bytes: {footprint.actual} (one-size-fits-all: {footprint.naive})\n"

/-- Parses a source and prints what is asked for of what is stored, after an error too. -/
def parseSource (request : Request) (settings : Settings) (source : Source) : Findings :=
  let session := ((Session.start source settings.limit).program).2
  let tree :=
    match session.ast.renderRoots with
    | .ok text => if request.tree then text else ""
    | .error _ => ""
  let footprint := if request.footprint then footprintLine session.ast else ""
  ⟨tree ++ footprint, session.log⟩

/-- The diagnostics shown, and how many are not. -/
def notes (settings : Settings) (color : Bool) (source : Source) (log : DiagnosticLog) : String :=
  let shown := settings.maxErrors.getD log.size
  let hidden := log.size - shown
  let more := if hidden = 0 then "" else s!"... and {hidden} more\n"
  DiagnosticLog.render ⟨log.entries.take shown⟩ color source ++ more

/-- The line on the number of errors. -/
def errorLine (color : Bool) (count : Nat) : String :=
  let plural := if count = 1 then "" else "s"
  let (on, off) := if color then ("\x1b[31m", "\x1b[0m") else ("", "")
  s!"\n{on}Found {count} error{plural}.{off}\n"

/-- What a run leaves behind that got to its source, less the line on the time it took. -/
def report (request : Request) (settings : Settings) (terminal : Bool) (source : Source) : Report :=
  let findings :=
    if request.tokens then listTokens source else parseSource request settings source
  let color := settings.color && !request.noColor && terminal
  let shown := notes settings color source findings.log
  if findings.log.hasErrors then
    ⟨1, findings.output, shown ++ errorLine color findings.log.errorCount⟩
  else ⟨0, findings.output, shown⟩

variable {m : Type → Type} [Monad m]

/-- Does what is requested; the notes are coloured only for a terminal. -/
def Request.run (request : Request) (access : FileAccess m) (terminal : Bool) :
    m (Except StartError Report) := do
  match ← Settings.load access request.config request.file with
  | .error cause => return .error (.settings cause)
  | .ok settings =>
    match ← access.read request.file with
    | .error cause => return .error (.unreadable request.file cause)
    | .ok bytes =>
      match Source.ofBytes 0 request.file bytes with
      | .error cause => return .error (.source cause)
      | .ok source => return .ok (report request settings terminal source)

/-- How an invocation ends. -/
inductive Outcome where
  /-- It did what was asked. -/
  | done (report : Report)
  /-- The command line is wrong. -/
  | usage (error : UsageError)
  /-- The run did not get to its source. -/
  | start (error : StartError)

/-- Does what a command line asks for. -/
def run (access : FileAccess m) (terminal : Bool) (arguments : List String) : m Outcome := do
  match Invocation.ofArguments arguments with
  | .error error => return .usage error
  | .ok .help => return .done ⟨0, helpText, ""⟩
  | .ok .version => return .done ⟨0, versionText, ""⟩
  | .ok (.run request) =>
    match ← request.run access terminal with
    | .ok report => return .done report
    | .error error => return .start error

/-- The report of every outcome; an outcome that is no report explains itself in the notes. -/
def Outcome.report : Outcome → Report
  | .done report => report
  | .usage error => ⟨2, "", s!"error: {error.message}\n\nUsage: sablec [OPTIONS] <FILE>\n"⟩
  | .start error => ⟨1, "", s!"Error: {error.message}\n"⟩

end Cascade.Command
