import Cascade.Diagnostic.Render
import Cascade.Proofs.LineLexing
import Cascade.Proofs.ParsedSource

/-!
# Carriage returns before line feeds

A text may end its lines with a line feed or with a carriage return and a line feed. Either way it
has the same tokens at the same places, so it parses the same; and since the ends of a line are cut
off where the line is shown, its diagnostics look the same as well.
-/
namespace Cascade

/-- The text with a carriage return before every line feed, also where there was one before. -/
def withCarriageReturns (text : List Char) : List Char :=
  text.flatMap fun c => if c = '\n' then ['\r', '\n'] else [c]

/-- Nothing changes where there is no line feed. -/
theorem withCarriageReturns_oneLine {text : List Char} (oneLine : '\n' ∉ text) :
    withCarriageReturns text = text := by
  induction text with
  | nil => rfl
  | cons c text ih =>
    obtain ⟨feed, rest⟩ := not_or.mp (mt List.mem_cons.mpr oneLine)
    have same : text.flatMap (fun c => if c = '\n' then ['\r', '\n'] else [c]) = text := ih rest
    rw [withCarriageReturns, List.flatMap_cons, if_neg (Ne.symm feed), same, List.singleton_append]

/-- A line gets a carriage return before its line feed. -/
theorem withCarriageReturns_line {body : List Char} (oneLine : '\n' ∉ body) (rest : List Char) :
    withCarriageReturns (body ++ '\n' :: rest) =
      body ++ ['\r'] ++ '\n' :: withCarriageReturns rest := by
  have same : body.flatMap (fun c => if c = '\n' then ['\r', '\n'] else [c]) = body :=
    withCarriageReturns_oneLine oneLine
  rw [withCarriageReturns, List.flatMap_append, same, List.flatMap_cons, if_pos rfl,
    List.append_assoc]
  rfl

/-- The tokens and the end of a text stay as they are. -/
theorem Lexer.run_withCarriageReturns (text : List Char) (place : Position) :
    run ⟨withCarriageReturns text, place⟩ = run ⟨text, place⟩ := by
  induction text using lines_induction generalizing place with
  | last text oneLine => rw [withCarriageReturns_oneLine oneLine]
  | line body rest oneLine ih =>
    have plain := run_line ⟨body, place⟩ oneLine [] nofun rest
    have returned := run_line ⟨body, place⟩ oneLine ['\r'] (by simp) (withCarriageReturns rest)
    have shape : Cursor.followedBy ⟨body, place⟩ (['\r'] ++ '\n' :: withCarriageReturns rest) =
        ⟨withCarriageReturns (body ++ '\n' :: rest), place⟩ := by
      rw [withCarriageReturns_line oneLine, List.append_assoc]
      rfl
    rw [ih, shape] at returned
    rw [returned]
    exact plain.symm

/-- A line feed at the end of a line is cut off, with a carriage return before it. -/
theorem trimLineEnd_lineEnd (body : List Char) :
    trimLineEnd (body ++ ['\r'] ++ ['\n']) = trimLineEnd (body ++ ['\n']) := by
  simp [trimLineEnd]

/-- The lines of a text are shown as they were. -/
theorem splitLines_withCarriageReturns (text : List Char) :
    (splitLines (withCarriageReturns text)).map trimLineEnd =
      (splitLines text).map trimLineEnd := by
  induction text using lines_induction with
  | last text oneLine => rw [withCarriageReturns_oneLine oneLine]
  | line body rest oneLine ih =>
    have noFeed : '\n' ∉ body ++ ['\r'] := by
      rw [List.mem_append, not_or]
      exact ⟨oneLine, by decide⟩
    rw [withCarriageReturns_line oneLine, splitLines_lineFeed noFeed, splitLines_lineFeed oneLine,
      List.map_cons, List.map_cons, ih, trimLineEnd_lineEnd]

/-- What a diagnostic shows of a source depends only on the lines without their ends. -/
theorem Diagnostic.echo_congr {source other : Source}
    (same : other.lines.map trimLineEnd = source.lines.map trimLineEnd) (palette : Palette)
    (diagnostic : Diagnostic) : diagnostic.echo palette other = diagnostic.echo palette source := by
  unfold echo
  cases number : diagnostic.span.start.line with
  | zero => rfl
  | succ index =>
    have shown : other.lines[index]?.map trimLineEnd = source.lines[index]?.map trimLineEnd := by
      rw [← List.getElem?_map, ← List.getElem?_map, same]
    unfold Source.lineAt?
    cases there : source.lines[index]? with
    | none =>
      rw [there, Option.map_none, Option.map_eq_none_iff] at shown
      simp only [there, shown, Option.map_none]
    | some line =>
      rw [there, Option.map_some, Option.map_eq_some_iff] at shown
      obtain ⟨line', found, trimmed⟩ := shown
      simp only [there, found, Option.map_some, String.toList_ofList, trimmed]

/-- A diagnostic is shown the same on sources of one name with the same lines but for their ends. -/
theorem Diagnostic.render_congr {source other : Source} (name : other.name = source.name)
    (same : other.lines.map trimLineEnd = source.lines.map trimLineEnd) (diagnostic : Diagnostic)
    (color : Bool) : diagnostic.render color other = diagnostic.render color source := by
  unfold render
  dsimp only
  rw [name, echo_congr same]

namespace Source

/-- Another source of the same name, with a carriage return before every line feed. -/
def withCarriageReturns (source : Source) (id : Nat) : Source :=
  ⟨id, source.name, String.ofList (Cascade.withCarriageReturns source.chars)⟩

/-- A source with carriage returns has the tokens of the source without, and ends where it does. -/
theorem tokenStream_withCarriageReturns (source : Source) (id : Nat) :
    (source.withCarriageReturns id).tokenStream = source.tokenStream := by
  have chars : (source.withCarriageReturns id).chars = Cascade.withCarriageReturns source.chars :=
    String.toList_ofList
  have run := Lexer.run_withCarriageReturns source.chars .first
  rw [← chars] at run
  have started : Lexer.run (.start (source.withCarriageReturns id)) = Lexer.run (.start source) :=
    run
  rw [tokenStream, tokenStream, started]

/-- A diagnostic is shown on a source with carriage returns as on the source without. -/
theorem render_withCarriageReturns (source : Source) (id : Nat) (color : Bool)
    (diagnostic : Diagnostic) :
    diagnostic.render color (source.withCarriageReturns id) = diagnostic.render color source := by
  have chars : (source.withCarriageReturns id).chars = Cascade.withCarriageReturns source.chars :=
    String.toList_ofList
  have same : (source.withCarriageReturns id).lines.map trimLineEnd =
      source.lines.map trimLineEnd := by
    rw [lines, chars]
    exact splitLines_withCarriageReturns source.chars
  have name : (source.withCarriageReturns id).name = source.name := rfl
  exact diagnostic.render_congr name same color

end Source

/-- A carriage return before every line feed changes nothing that can be seen: not the tokens, their
places and their problems, not the result of a parse, what it reports and what it stores, not the
text of the stored expressions, and not how diagnostics are shown. -/
theorem front_end_ignores_carriage_returns (source : Source) (id limit : Nat) :
    (source.withCarriageReturns id).tokenStream = source.tokenStream ∧
    (source.withCarriageReturns id).tokenStream.problems = source.tokenStream.problems ∧
    (Session.start (source.withCarriageReturns id) limit).program =
      (Session.start source limit).program ∧
    ((source.withCarriageReturns id).ast limit).renderRoots = (source.ast limit).renderRoots ∧
    ∀ (color : Bool) (log : DiagnosticLog),
      log.render color (source.withCarriageReturns id) = log.render color source := by
  have stream := source.tokenStream_withCarriageReturns id
  have session :
      Session.start (source.withCarriageReturns id) limit = Session.start source limit := by
    simp only [Session.start, stream]
  have ast : (source.withCarriageReturns id).ast limit = source.ast limit :=
    congrArg (·.program.2.ast) session
  refine ⟨stream, congrArg _ stream, congrArg _ session, congrArg _ ast, fun color log => ?_⟩
  simp only [DiagnosticLog.render, source.render_withCarriageReturns id]

end Cascade
