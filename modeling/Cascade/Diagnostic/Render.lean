import Cascade.Diagnostic.Log

/-!
# Rendering diagnostics

A rendered diagnostic has a dashed header, the source line it is about behind a gutter with the
line number, a row of carets under the columns it is about, and its hint. The row of carets keeps
the tabs of the line above it, so carets stay under their characters. A diagnostic past the last
line has no echo, and one without length still gets a caret.
-/
namespace Cascade

/-- The control texts around what is coloured; all empty when nothing is. -/
structure Palette where
  /-- Starts the colour of a severity. -/
  severity : Severity → String
  /-- Starts bold text. -/
  bold : String
  /-- Ends what was started. -/
  reset : String

namespace Palette

/-- No colours. -/
def plain : Palette := ⟨fun _ => "", "", ""⟩

/-- Red errors, yellow warnings and cyan notes. -/
def ansi : Palette where
  severity
    | .error => "\x1b[31m"
    | .warning => "\x1b[33m"
    | .info => "\x1b[36m"
  bold := "\x1b[1m"
  reset := "\x1b[0m"

/-- The palette with or without colours. -/
def of (color : Bool) : Palette := if color then ansi else plain

end Palette

/-- A line without the line feeds and carriage returns at its end. -/
def trimLineEnd (line : List Char) : List Char :=
  (line.reverse.dropWhile fun c => c = '\n' || c = '\r').reverse

/-- Blanks as wide as the first `columns` characters of a line; its tabs stay tabs. -/
def underlineIndent (line : List Char) (columns : Nat) : List Char :=
  (line.take columns).map fun c => if c = '\t' then '\t' else ' '

namespace Diagnostic

/-- The blanks and the carets under a line. -/
def underline (diagnostic : Diagnostic) (line : List Char) : List Char :=
  underlineIndent line (diagnostic.span.start.column - 1)
    ++ List.replicate (max diagnostic.span.length 1) '^'

/-- The echoed line and its carets; nothing when the line does not exist. -/
def echo (palette : Palette) (source : Source) (diagnostic : Diagnostic) : String :=
  match source.lineAt? diagnostic.span.start.line with
  | none => ""
  | some line =>
    let shown := trimLineEnd line.toList
    let gutter := toString diagnostic.span.start.line
    let blank := String.ofList (List.replicate gutter.length ' ')
    let on := palette.severity diagnostic.severity
    let carets := String.ofList (diagnostic.underline shown)
    s!"{gutter} | {String.ofList shown}\n{blank} | {on}{carets}{palette.reset}\n"

/-- The whole diagnostic as text, every line ended by a line feed. -/
def render (color : Bool) (source : Source) (diagnostic : Diagnostic) : String :=
  let palette := Palette.of color
  let on := palette.severity diagnostic.severity
  let place := s!"{source.name}:{diagnostic.span.start.text}"
  let label := s!"{on}{diagnostic.severity.label}{palette.reset}"
  let header :=
    s!"--- {place} - {label} {palette.bold}{diagnostic.message}{palette.reset}\n"
  let hint :=
    match diagnostic.hint with
    | none => ""
    | some hint => s!"hint: {hint}\n"
  header ++ diagnostic.echo palette source ++ hint

end Diagnostic

/-- All diagnostics of a log as text, in the order of the log. -/
def DiagnosticLog.render (log : DiagnosticLog) (color : Bool) (source : Source) : String :=
  String.join (log.entries.map fun diagnostic => diagnostic.render color source)

end Cascade
