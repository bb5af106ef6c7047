import Cascade.Diagnostic.Basic

/-!
# Logs of diagnostics

A log keeps diagnostics in the order in which they were reported. Sorting puts them in reading
order and keeps the order of report among those that start at one place.
-/
namespace Cascade

/-- Diagnostics in order of report. -/
structure DiagnosticLog where
  /-- The diagnostics, the earliest first. -/
  entries : List Diagnostic
  deriving DecidableEq, Repr

namespace DiagnosticLog

/-- A log in which nothing has been reported. -/
def empty : DiagnosticLog := ⟨[]⟩

/-- Reports one more diagnostic. -/
def report (log : DiagnosticLog) (diagnostic : Diagnostic) : DiagnosticLog :=
  ⟨log.entries ++ [diagnostic]⟩

/-- Reports several diagnostics in order. -/
def reportAll (log : DiagnosticLog) (diagnostics : List Diagnostic) : DiagnosticLog :=
  ⟨log.entries ++ diagnostics⟩

/-- How many diagnostics have been reported. -/
def size (log : DiagnosticLog) : Nat := log.entries.length

/-- Whether nothing has been reported. -/
def isEmpty (log : DiagnosticLog) : Bool := log.entries.isEmpty

/-- How many of the diagnostics are errors. -/
def errorCount (log : DiagnosticLog) : Nat := log.entries.countP Diagnostic.isError

/-- Whether one of the diagnostics is an error. -/
def hasErrors (log : DiagnosticLog) : Bool := log.entries.any Diagnostic.isError

/-- How many of the diagnostics carry the code. -/
def countCode (log : DiagnosticLog) (code : Nat) : Nat :=
  log.entries.countP fun diagnostic => diagnostic.code == code

/-- The log in reading order, in order of report where two start at one place. -/
def sort (log : DiagnosticLog) : DiagnosticLog :=
  ⟨log.entries.mergeSort fun a b => a.span.start.precedes b.span.start⟩

end DiagnosticLog

end Cascade
