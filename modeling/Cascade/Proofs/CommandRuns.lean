import Cascade.Command.Run
import Cascade.File.Folder
import Cascade.Proofs.FailedParse
import Cascade.Proofs.FaithfulPrinter

/-!
# Runs on the same source agree

What a run reports depends on its source, on whether it lists or parses, and where it parses on the
nesting limit. The exit code and the number of errors are those of everything that is reported;
colours, the number of diagnostics shown and what else is printed leave them alone. Listing looks at
every token while a parse may stop early, so they agree in one direction only: a parse that succeeds
has used up all tokens and found none malformed.
-/
namespace Cascade

/-- What is reported of a failed parse is an error among other things. -/
theorem Reported.hasErrors {context : ParseContext} {tokens rest : List Token}
    {error : SyntaxError} {entries : List Diagnostic}
    (reported : Reported context tokens rest error entries) :
    (⟨entries⟩ : DiagnosticLog).hasErrors = true := by
  cases reported with
  | invalid _ problem =>
    have severity := problem.severity
    simp only [DiagnosticLog.hasErrors, List.any_cons, Diagnostic.isError, severity, beq_self_eq_true,
      Bool.true_or]
  | expression _ | selector _ | unclosed _ _ => rfl
  | number _ _ | depth _ =>
    rw [DiagnosticLog.hasErrors, List.any_append]
    exact Bool.or_true _

namespace Command

/-- What a run reports on a source: the problems of its tokens, or what parsing it reports. -/
def reported (tokens : Bool) (limit : Nat) (source : Source) : List Diagnostic :=
  if tokens then source.tokenStream.problems
  else (Session.start source limit).program.2.log.entries

variable {request : Request} {settings : Settings} {source : Source} {terminal : Bool}

/-- A run gets to its source: its settings can be had and its file is text. -/
structure Request.Starts (request : Request) (access : FileAccess Id) (settings : Settings)
    (source : Source) : Prop where
  /-- The settings are those of a valid document, or there is none. -/
  loads : Settings.load access request.config request.file = .ok settings
  /-- The bytes of the file spell the source. -/
  decodes : ∃ bytes, access.read request.file = .ok bytes ∧
    Source.ofBytes 0 request.file bytes = .ok source

variable {access : FileAccess Id}

namespace Request.Starts

/-- A run that gets to its source reports on it. -/
theorem run_eq (starts : request.Starts access settings source) (terminal : Bool) :
    request.run access terminal = .ok (report request settings terminal source) := by
  obtain ⟨loads, bytes, read, text⟩ := starts
  unfold Request.run
  simp only [loads, read, text, bind, pure]

end Request.Starts

end Command

end Cascade
