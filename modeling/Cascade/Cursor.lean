import Cascade.Source

/-!
# Walking a text

A cursor stands before the codepoints it has not yet handed out and knows the position of the next
one. It hands out whole codepoints and crosses line ends without the caller noticing.

Dropping the rest of a line moves to the start of the next line. On the last line there is none to
move to, and the cursor then stays at the position it had: the text is used up, the column is not
advanced. The position of the end of a text therefore depends on how the end was reached.
-/
namespace Cascade

/-- The codepoints still to come and the position of the first of them. -/
structure Cursor where
  /-- What has not been handed out. -/
  ahead : List Char
  /-- The position of the next codepoint. -/
  position : Position
  deriving DecidableEq, Repr

namespace Cursor

/-- A cursor before the first codepoint of a text. -/
def ofChars (text : List Char) : Cursor := ⟨text, .first⟩

/-- A cursor at the start of a source. -/
def start (source : Source) : Cursor := ofChars source.chars

/-- The next codepoint. -/
def peek? (cursor : Cursor) : Option Char := cursor.ahead.head?

/-- The codepoint after the next one, when both stand on one line. -/
def peekSecond? (cursor : Cursor) : Option Char :=
  match cursor.ahead with
  | first :: second :: _ => if first = '\n' then none else some second
  | _ => none

/-- Whether every codepoint has been handed out. -/
def isAtEnd (cursor : Cursor) : Bool := cursor.ahead.isEmpty

/-- The cursor after the next codepoint. -/
def advance (cursor : Cursor) : Cursor :=
  match cursor.ahead with
  | [] => cursor
  | c :: rest => ⟨rest, cursor.position.after c⟩

/-- The next codepoint and the cursor after it. -/
def next? (cursor : Cursor) : Option (Char × Cursor) :=
  cursor.peek?.map fun c => (c, cursor.advance)

/-- Moves past the next codepoint if it is the expected one, and says whether it was. -/
def eat (cursor : Cursor) (expected : Char) : Bool × Cursor :=
  if cursor.peek? = some expected then (true, cursor.advance) else (false, cursor)

/-- The codepoints after the first line feed, if there is one. -/
def afterLineFeed? : List Char → Option (List Char)
  | [] => none
  | c :: rest => if c = '\n' then some rest else afterLineFeed? rest

/-- Drops the rest of the line with its line feed. On the last line the position stays. -/
def skipLine (cursor : Cursor) : Cursor :=
  match afterLineFeed? cursor.ahead with
  | some rest => ⟨rest, ⟨cursor.position.line + 1, 1⟩⟩
  | none => ⟨[], cursor.position⟩

/-- Up to `n` codepoints, and the cursor after them. -/
def take : Nat → Cursor → List Char × Cursor
  | 0, cursor => ([], cursor)
  | n + 1, cursor =>
    match cursor.next? with
    | none => ([], cursor)
    | some (c, later) =>
      let (taken, final) := take n later
      (c :: taken, final)

/-- All codepoints still to come, and the cursor after them. -/
def takeAll (cursor : Cursor) : List Char × Cursor := take cursor.ahead.length cursor

/-- What follows a line feed is shorter than the text that holds it. -/
theorem afterLineFeed?_length {text rest : List Char} (found : afterLineFeed? text = some rest) :
    rest.length < text.length := by
  induction text with
  | nil => simp [afterLineFeed?] at found
  | cons c tail ih =>
    simp only [afterLineFeed?] at found
    split at found
    · cases found; simp
    · have := ih found; simp only [List.length_cons]; omega

/-- Dropping the rest of a line uses up at least one codepoint, if there is one. -/
theorem skipLine_length {cursor : Cursor} (more : cursor.ahead ≠ []) :
    cursor.skipLine.ahead.length < cursor.ahead.length := by
  unfold skipLine
  split
  · next found => exact afterLineFeed?_length found
  · simpa using List.length_pos_iff.mpr more

end Cursor

end Cascade
