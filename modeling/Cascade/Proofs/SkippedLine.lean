import Cascade.Proofs.LineLexing
import Mathlib.Data.List.Induction

/-!
# Dropping a line and walking it

The rest of a line can be dropped at once or handed out codepoint by codepoint. A line with a line
feed is left the same way by both. The last line is not: walking it moves the column to the end of
the text, and dropping it leaves the column where it was. The lexer drops comments, so it ends at the
end of the text exactly if the text does not end in a comment.
-/
namespace Cascade

namespace Cursor

/-- Hands out codepoints until a line feed was handed out or none is left. -/
def consumeLine (cursor : Cursor) : Cursor :=
  match _step : cursor.next? with
  | none => cursor
  | some (c, later) => if c = '\n' then later else consumeLine later
termination_by cursor.ahead.length
decreasing_by
  obtain ⟨ahead, place⟩ := cursor
  cases ahead with
  | nil => cases _step
  | cons first rest => cases _step; exact Nat.lt_succ_self _

/-- At the end of the text there is nothing to hand out. -/
theorem consumeLine_nil (place : Position) : consumeLine ⟨[], place⟩ = ⟨[], place⟩ := by
  rw [consumeLine]
  rfl

/-- Walking a line starts with its first codepoint and ends there if that is a line feed. -/
theorem consumeLine_cons (c : Char) (rest : List Char) (place : Position) :
    consumeLine ⟨c :: rest, place⟩ =
      if c = '\n' then ⟨rest, place.after c⟩ else consumeLine ⟨rest, place.after c⟩ := by
  rw [consumeLine]
  rfl

/-- Walking a line to its line feed leads to the start of the next line. -/
theorem consumeLine_lineFeed {body : List Char} (oneLine : '\n' ∉ body) (rest : List Char)
    (place : Position) : consumeLine ⟨body ++ '\n' :: rest, place⟩ = ⟨rest, place.nextLine⟩ := by
  induction body generalizing place with
  | nil =>
    rw [List.nil_append, consumeLine_cons, if_pos rfl, Position.after, if_pos rfl]
    rfl
  | cons c body ih =>
    have feed : c ≠ '\n' := Ne.symm (List.ne_of_not_mem_cons oneLine)
    have others : '\n' ∉ body := List.not_mem_of_not_mem_cons oneLine
    have along : (place.after c).nextLine = place.nextLine := by
      rw [Position.after, if_neg feed]
      rfl
    rw [List.cons_append, consumeLine_cons, if_neg feed, ih others, along]

/-- Walking a text without a line feed moves the column along all of it. -/
theorem consumeLine_oneLine {text : List Char} (oneLine : '\n' ∉ text) (place : Position) :
    consumeLine ⟨text, place⟩ = ⟨[], place.shift text.length⟩ := by
  induction text generalizing place with
  | nil => exact consumeLine_nil place
  | cons c text ih =>
    have feed : c ≠ '\n' := Ne.symm (List.ne_of_not_mem_cons oneLine)
    have others : '\n' ∉ text := List.not_mem_of_not_mem_cons oneLine
    have along : (place.after c).shift text.length = place.shift (c :: text).length := by
      rw [Position.after, if_neg feed, List.length_cons]
      simp only [Position.shift, Position.mk.injEq, true_and]
      omega
    rw [consumeLine_cons, if_neg feed, ih others, along]

/-- A line with a line feed is dropped as it is walked. -/
theorem skipLine_eq_consumeLine {cursor : Cursor} (feed : '\n' ∈ cursor.ahead) :
    cursor.skipLine = cursor.consumeLine := by
  cases found : afterLineFeed? cursor.ahead with
  | none => exact absurd feed (not_mem_of_afterLineFeed? found)
  | some rest =>
    obtain ⟨body, oneLine, ahead⟩ := afterLineFeed?_split found
    have whole : cursor = ⟨body ++ '\n' :: rest, cursor.position⟩ := by rw [← ahead]
    have walked : cursor.consumeLine = ⟨rest, cursor.position.nextLine⟩ := by
      rw [whole]
      exact consumeLine_lineFeed oneLine rest cursor.position
    rw [walked]
    exact Lexer.skipLine_next found

/-- The last line is walked further than it is dropped, by as many columns as it has codepoints. -/
theorem consumeLine_last {cursor : Cursor} (oneLine : '\n' ∉ cursor.ahead) :
    cursor.consumeLine = ⟨[], cursor.skipLine.position.shift cursor.ahead.length⟩ := by
  rw [Lexer.skipLine_oneLine oneLine]
  exact consumeLine_oneLine oneLine cursor.position

end Cursor

/-- A line in front moves a place one line down. -/
theorem placeAfter_below {body : List Char} (oneLine : '\n' ∉ body) (rest : List Char) :
    placeAfter (body ++ '\n' :: rest) = (placeAfter rest).down 1 := by
  induction rest using List.reverseRecOn with
  | nil =>
    have fed := placeAfter_lineFeed oneLine []
    rw [List.nil_append] at fed
    exact fed
  | append_singleton rest c ih =>
    have grouped : body ++ '\n' :: (rest ++ [c]) = body ++ '\n' :: rest ++ [c] := by simp
    rw [grouped, placeAfter_append_singleton, placeAfter_append_singleton, ih,
      Position.after_down]

/-- The place after a text is on its last line, behind the last codepoint of that line. -/
theorem placeAfter_eq_lastLine (text : List Char) :
    placeAfter text = ⟨(splitLines text).length, 1 + ((splitLines text).getLastD []).length⟩ := by
  induction text using lines_induction with
  | last text oneLine =>
    have moved := placeAfter_append oneLine []
    rw [List.nil_append] at moved
    rw [moved, splitLines_oneLine oneLine]
    rfl
  | line body rest oneLine ih =>
    rw [placeAfter_below oneLine, ih, splitLines_lineFeed oneLine, Position.down, List.length_cons]
    cases lines : splitLines rest with
    | nil => exact absurd lines (splitLines_ne_nil rest)
    | cons line later => rfl

/-- The end of a source: its last line, and a column more than that line has codepoints. -/
def Source.endPosition (source : Source) : Position :=
  ⟨source.lines.length, 1 + (source.lines.getLastD []).length⟩

/-- A source ends at the place after its text. -/
theorem Source.endPosition_eq (source : Source) :
    source.endPosition = placeAfter source.chars := (placeAfter_eq_lastLine source.chars).symm

/-- A position is moved by a number of columns exactly if the number is not zero. -/
theorem Position.shift_eq_self {place : Position} {columns : Nat} :
    place.shift columns = place ↔ columns = 0 := by
  obtain ⟨line, column⟩ := place
  simp [shift]

namespace Lexer

/-- No text is left where the tokens end. -/
theorem run_ahead (cursor : Cursor) : (run cursor).2.ahead = [] := by
  induction remaining : cursor.ahead.length using Nat.strongRecOn generalizing cursor with
  | _ remaining ih =>
    rw [run_eq]
    cases step : next? cursor with
    | none => exact ahead_of_next?_none step
    | some found =>
      obtain ⟨token, later⟩ := found
      have shorter := next?_length step
      exact ih _ (by omega) later rfl

end Lexer

/-- Dropping the rest of a line leaves the same text ahead on the same line as walking it, and the
same column if the line has a line feed; on the last line the column stays behind by what was
dropped, so it is the same only if nothing was. The lexer, which has no text ahead when it ends, is
then on the last line of the source, whose number is the number of lines as long as that is less than
2^32, as many columns before its end as the comment behind the last trivia is long. -/
theorem dropped_line_keeps_column (cursor : Cursor) (source : Source) :
    (cursor.skipLine.ahead = cursor.consumeLine.ahead ∧
      cursor.skipLine.isAtEnd = cursor.consumeLine.isAtEnd ∧
      cursor.skipLine.position.line = cursor.consumeLine.position.line ∧
      cursor.consumeLine =
        (if '\n' ∈ cursor.ahead then cursor.skipLine
        else ⟨[], cursor.skipLine.position.shift cursor.ahead.length⟩) ∧
      (cursor.skipLine = cursor.consumeLine ↔ '\n' ∈ cursor.ahead ∨ cursor.ahead = [])) ∧
    ∃ (pieces : List Piece) (gap comment : List Char),
      pieces.map Piece.token = source.tokenStream.tokens ∧
      source.chars = pieces.flatMap Piece.text ++ (gap ++ comment) ∧
      Trivia gap ∧ LastComment comment ∧
      (∀ earlier piece later, pieces = earlier ++ piece :: later →
        piece.Stands (earlier.flatMap Piece.text)) ∧
      (Lexer.run (.start source)).2 = ⟨[], source.tokenStream.stop⟩ ∧
      source.tokenStream.stop.line = source.lines.length ∧
      (source.lines.length < 2 ^ 32 → source.lines.length = source.lineCount) ∧
      source.tokenStream.stop.shift comment.length = source.endPosition ∧
      (source.tokenStream.stop = source.endPosition ↔ comment = []) := by
  constructor
  · by_cases feed : '\n' ∈ cursor.ahead
    · have same := Cursor.skipLine_eq_consumeLine feed
      rw [same]
      exact ⟨rfl, rfl, rfl, (if_pos feed).symm, iff_of_true rfl (.inl feed)⟩
    · have dropped := Lexer.skipLine_oneLine feed
      have walked := Cursor.consumeLine_last feed
      have moved : cursor.position.shift cursor.ahead.length = cursor.position ↔
          cursor.ahead = [] := Position.shift_eq_self.trans List.length_eq_zero_iff
      rw [walked, dropped]
      refine ⟨rfl, rfl, rfl, (if_neg feed).symm, ?_⟩
      constructor
      · intro same
        exact .inr (moved.mp (congrArg Cursor.position same).symm)
      · intro some
        exact congrArg (Cursor.mk []) (moved.mpr (some.resolve_left feed)).symm
  · have placed : (Cursor.start source).position = placeAfter [] := rfl
    obtain ⟨pieces, gap, comment, tokens, covered, trivia, last, stop, stands⟩ :=
      Lexer.run_pieces placed
    have covered : source.chars = pieces.flatMap Piece.text ++ (gap ++ comment) := covered
    have stop : source.tokenStream.stop = placeAfter (pieces.flatMap Piece.text ++ gap) := stop
    have ended : source.tokenStream.stop.shift comment.length = source.endPosition := by
      rw [stop, ← placeAfter_append last.oneLine, source.endPosition_eq, covered, List.append_assoc]
    have final : (Lexer.run (.start source)).2 = ⟨[], source.tokenStream.stop⟩ := by
      rw [← Lexer.run_ahead (.start source)]
      rfl
    refine ⟨pieces, gap, comment, tokens, covered, trivia, last, stands, final, ?_,
      fun few => (Source.lineCount_eq few).symm, ended, ?_⟩
    · exact congrArg Position.line ended
    · rw [← ended, eq_comm, Position.shift_eq_self, List.length_eq_zero_iff]

/-- On a last line the column after dropping is not that after walking, and behind a comment that
ends the text the lexer stops at the column of the comment. -/
theorem dropped_comment_hides_end :
    (Cursor.start ⟨0, "t.sb", "a // b"⟩).skipLine ≠
        (Cursor.start ⟨0, "t.sb", "a // b"⟩).consumeLine ∧
      (⟨0, "t.sb", "a // b"⟩ : Source).tokenStream.stop = ⟨1, 3⟩ ∧
      (⟨0, "t.sb", "a // b"⟩ : Source).endPosition = ⟨1, 7⟩ := by
  refine ⟨?_, by decide +kernel, by decide +kernel⟩
  have walked := Cursor.consumeLine_last
    (show '\n' ∉ (Cursor.start ⟨0, "t.sb", "a // b"⟩).ahead by decide +kernel)
  rw [walked]
  decide +kernel

end Cascade
