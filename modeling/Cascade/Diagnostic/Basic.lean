import Cascade.Diagnostic.Template
import Cascade.Source

/-!
# Diagnostics

A diagnostic says what is wrong at a span of a source: a severity, a stable code, a message made
from a template and perhaps a hint. Codes from 1000 on are lexical, codes from 2000 on syntactic.
-/
namespace Cascade

/-- How serious a diagnostic is. -/
inductive Severity where
  /-- The text is refused. -/
  | error
  /-- The text is suspicious. -/
  | warning
  /-- A note to another diagnostic. -/
  | info
  deriving DecidableEq, Repr

/-- The word a diagnostic shows for its severity. -/
def Severity.label : Severity → String
  | .error => "ERROR"
  | .warning => "WARNING"
  | .info => "INFO"

/-- What all diagnostics of one kind share. -/
structure Message where
  /-- The stable number of the kind. -/
  code : Nat
  /-- How serious the kind is. -/
  severity : Severity
  /-- The text with placeholders for what differs. -/
  template : String
  deriving DecidableEq, Repr

/-- One thing that is wrong at one span. -/
structure Diagnostic where
  /-- How serious it is. -/
  severity : Severity
  /-- The stable number of its kind. -/
  code : Nat
  /-- The columns it is about. -/
  span : Span
  /-- What is wrong. -/
  message : String
  /-- What to do about it. -/
  hint : Option String
  deriving DecidableEq, Repr

namespace Diagnostic

/-- The diagnostic of a kind at a span, with the arguments of its template and no hint. -/
def of (span : Span) (message : Message) (arguments : List String) : Diagnostic :=
  ⟨message.severity, message.code, span, Template.fill message.template arguments, none⟩

/-- The same diagnostic with a hint. -/
def withHint (diagnostic : Diagnostic) (hint : String) : Diagnostic :=
  { diagnostic with hint := some hint }

/-- Whether the text is refused for this. -/
def isError (diagnostic : Diagnostic) : Bool := diagnostic.severity == .error

/-- The diagnostic on one line: where, how serious, what. -/
def header (source : Source) (diagnostic : Diagnostic) : String :=
  s!"{source.name}:{diagnostic.span.start.text} - {diagnostic.severity.label} {diagnostic.message}"

end Diagnostic

end Cascade
