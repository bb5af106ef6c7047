import Cascade.Proofs.LongestLexeme

/-!
# The text under a span

A span covers codepoints of one line. The span of a valid token covers what the token is written as,
and two tokens with no other between them stand in the text with trivia between them.
-/
namespace Cascade

/-- The codepoints of its line that a span covers. -/
def Source.under (source : Source) (span : Span) : List Char :=
  (source.lineFrom span.start).take span.length

/-- The span covers exactly the text: it is as long as the text, does not go over a line end, and
the text is what stands under it. -/
structure Source.Covers (source : Source) (span : Span) (text : List Char) : Prop where
  /-- The span has a column for every codepoint. -/
  length : span.length = text.length
  /-- The span lies within one line. -/
  oneLine : '\n' ∉ text
  /-- The text is what stands under the span. -/
  under : source.under span = text

/-- What stands somewhere on one line is covered by the span of its length there. -/
theorem Source.covers_of_split {source : Source} {before text after : List Char}
    (split : source.chars = before ++ (text ++ after)) (oneLine : '\n' ∉ text) :
    source.Covers ⟨placeAfter before, text.length⟩ text where
  length := rfl
  oneLine := oneLine
  under := by
    have line : source.lineFrom (placeAfter before) = (splitLines (text ++ after)).headD [] := by
      rw [lineFrom, lines, split]
      exact splitLines_placeAfter before (text ++ after)
    have front : text <+: source.lineFrom (placeAfter before) := by
      rw [line, ← prefix_lineBody_iff oneLine, lineBody_splitLines, prefix_lineBody_iff oneLine]
      exact List.prefix_append text after
    exact (List.prefix_iff_eq_take.mp front).symm

/-- A valid token is spelled as it is written. -/
theorem Spelling.eq_written {lexeme : Lexeme} {text : List Char} (valid : lexeme.kind ≠ .invalid)
    (spelled : Spelling lexeme.kind lexeme.payload? text) : text = lexeme.written := by
  cases lexeme with
  | mark sign =>
    obtain ⟨known⟩ := spelled
    cases known
    rfl
  | keyword word =>
    obtain ⟨known⟩ := spelled
    cases known
    rfl
  | identifier name =>
    cases spelled
    rfl
  | number digits =>
    cases spelled
    rfl
  | string content =>
    cases spelled
    rfl
  | unterminated content => exact absurd rfl valid
  | stray character => exact absurd rfl valid

namespace Source

variable {source : Source} {token : Token}

/-- A valid token is written in the text where it starts. -/
theorem token_split (member : token ∈ source.tokenStream.tokens) :
    ∃ before after, source.chars = before ++ (token.lexeme.written ++ after) ∧
      token.start = placeAfter before ∧ '\n' ∉ token.lexeme.written := by
  have placed : (Cursor.start source).position = placeAfter [] := rfl
  obtain ⟨before, first, rest, ahead, notBlank, rfl⟩ := Lexer.run_scanned placed member
  have ahead : source.chars = before ++ first :: rest := ahead
  obtain ⟨whole, oneLine⟩ := Lexeme.scan_written notBlank rest
  refine ⟨before, (Lexeme.scan first rest).2, ?_, rfl, oneLine⟩
  rw [ahead, whole]

/-- The span of a token covers what the token is written as. -/
theorem token_covers (member : token ∈ source.tokenStream.tokens) :
    source.Covers token.span token.lexeme.written := by
  obtain ⟨before, after, split, start, oneLine⟩ := token_split member
  have span : token.span = ⟨placeAfter before, token.lexeme.written.length⟩ := by
    rw [← start]
    rfl
  rw [span]
  exact covers_of_split split oneLine

/-- Two valid tokens with no other between them are written with trivia between them. -/
theorem neighbours_split {next : Token} (neighbours : [token, next] <:+: source.tokenStream.tokens)
    (valid : token.kind ≠ .invalid) (nextValid : next.kind ≠ .invalid) :
    ∃ before gap after, Trivia gap ∧
      source.chars = before ++ (token.lexeme.written ++ (gap ++ (next.lexeme.written ++ after))) ∧
      token.start = placeAfter before := by
  have placed : (Cursor.start source).position = placeAfter [] := rfl
  obtain ⟨pieces, last, comment, run, covered, _, _, _, stands⟩ := Lexer.run_pieces placed
  obtain ⟨early, late, split⟩ := neighbours
  have tokens : pieces.map Piece.token = early ++ (token :: next :: late) := by
    rw [run]
    exact split.symm.trans (List.append_assoc early [token, next] late)
  obtain ⟨earlier, behind, rfl, _, both⟩ := List.map_eq_append_iff.mp tokens
  obtain ⟨piece, others, rfl, rfl, one⟩ := List.map_eq_cons_iff.mp both
  obtain ⟨following, later, rfl, rfl, _⟩ := List.map_eq_cons_iff.mp one
  have here := stands earlier piece (following :: later) rfl
  have there := stands (earlier ++ [piece]) following later (by simp)
  have written : piece.spelling = piece.token.lexeme.written := here.spelled.eq_written valid
  have behind : following.spelling = following.token.lexeme.written :=
    there.spelled.eq_written nextValid
  refine ⟨earlier.flatMap Piece.text ++ piece.gap, following.gap,
    later.flatMap Piece.text ++ (last ++ comment), there.gap, ?_, here.start⟩
  have covered : source.chars = (earlier ++ piece :: following :: later).flatMap Piece.text ++
      (last ++ comment) := covered
  rw [covered, ← written, ← behind]
  simp [Piece.text]

end Source

end Cascade
