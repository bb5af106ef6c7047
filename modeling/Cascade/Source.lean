import Cascade.Position
import Cascade.Text.Quoted
import Cascade.Text.Utf8

/-!
# Sources

A source is a named text. A line starts at the start of the text and after every line feed, keeps
its line feed, and the last line, which has none, may be empty; so a text always has a line more
than it has line feeds. The line table counts the lines in 32 bits, and a line is given out only up
to that count. Two sources are the same source only when they carry the same identity, whatever
their names and texts are.
-/
namespace Cascade

/-- A named text with an identity of its own. -/
structure Source where
  /-- What tells this source from every other. -/
  id : Nat
  /-- The name the text was loaded under. -/
  name : String
  /-- The whole text. -/
  content : String

/-- Why a source has no text or no such line. -/
inductive SourceError where
  /-- The bytes are no text; the first offending byte stands at `offset`. -/
  | invalidUtf8 (name : String) (offset : Nat)
  /-- There is no line of that number. -/
  | lineOutOfRange (line lineCount : Nat)
  deriving DecidableEq, Repr

/-- The wording of a source error. -/
def SourceError.message : SourceError → String
  | .invalidUtf8 name offset =>
    s!"{name} is not valid UTF-8 (first invalid byte at offset {offset})"
  | .lineOutOfRange line lineCount =>
    s!"line {line} is out of range (file has {lineCount} lines)"

/-- Puts a codepoint in front of lines: into the first one, unless it ends a line itself. -/
def consLines (c : Char) (lines : List (List Char)) : List (List Char) :=
  if c = '\n' then [c] :: lines
  else
    match lines with
    | [] => [[c]]
    | line :: later => (c :: line) :: later

/-- The lines of a text, each with its line feed; the last line has none. -/
def splitLines (text : List Char) : List (List Char) := text.foldr consLines [[]]

/-- The lines of a longer text come from those of its tail. -/
theorem splitLines_cons (c : Char) (rest : List Char) :
    splitLines (c :: rest) = consLines c (splitLines rest) := rfl

/-- A text has at least one line. -/
theorem splitLines_ne_nil (text : List Char) : splitLines text ≠ [] := by
  cases text with
  | nil => simp [splitLines]
  | cons c rest => rw [splitLines_cons]; unfold consLines; split <;> (try split) <;> simp

/-- The lines of a text, one after the other, are the text. -/
theorem flatten_splitLines (text : List Char) : (splitLines text).flatten = text := by
  induction text with
  | nil => rfl
  | cons c rest ih =>
    rw [splitLines_cons]
    unfold consLines
    split
    · simp [ih]
    · split
      · next none => exact absurd none (splitLines_ne_nil rest)
      · next line lines found => simp [found] at ih; simp [ih]

/-- The byte offsets right after the line feeds of a text that begins at `offset`. -/
def offsetsAfterLineFeeds (offset : Nat) : List Char → List Nat
  | [] => []
  | c :: rest =>
    let next := offset + c.utf8Size
    if c = '\n' then next :: offsetsAfterLineFeeds next rest else offsetsAfterLineFeeds next rest

namespace Source

/-- The source the bytes spell, refused when they are not well-formed UTF-8. -/
def ofBytes (id : Nat) (name : String) (bytes : ByteArray) : Except SourceError Source :=
  match Utf8.decode bytes with
  | .ok content => .ok ⟨id, name, content⟩
  | .error offset => .error (.invalidUtf8 name offset)

/-- The codepoints of the text. -/
def chars (source : Source) : List Char := source.content.toList

/-- The lines of the text. -/
def lines (source : Source) : List (List Char) := splitLines source.chars

/-- How many lines the line table counts. The count is a number of 32 bits: of more lines the rest
modulo 2^32 is left. -/
def lineCount (source : Source) : Nat := source.lines.length % UInt32.size

/-- The byte offset at which each line starts. -/
def lineStarts (source : Source) : List Nat := 0 :: offsetsAfterLineFeeds 0 source.chars

/-- The text of the line of that number, counted from one, with its line feed. -/
def lineAt? (source : Source) : Nat → Option String
  | 0 => none
  | index + 1 => source.lines[index]?.map String.ofList

/-- The text of a line as it is given out: only lines that the line table counts are. -/
def line (source : Source) (number : Nat) : Except SourceError String :=
  if number ≤ source.lineCount then
    match source.lineAt? number with
    | some text => .ok text
    | none => .error (.lineOutOfRange number source.lineCount)
  else .error (.lineOutOfRange number source.lineCount)

/-- The name, byte length and number of lines of a source, on one line. -/
def summary (source : Source) : String :=
  s!"SourceFile \x7b name: {Text.quote source.name}, len: {source.content.utf8ByteSize}, lines: {source.lines.length} \x7d"

end Source

/-- A position in one particular source. -/
structure Location where
  /-- The source the position lies in. -/
  source : Source
  /-- The place in it. -/
  position : Position

namespace Location

/-- Locations agree when they are the same place of the same source. -/
instance : BEq Location :=
  ⟨fun a b => a.source.id == b.source.id && a.position == b.position⟩

/-- The name of the source, the line and the column. -/
def text (location : Location) : String := s!"{location.source.name}:{location.position.text}"

end Location

/-- A span of one particular source. -/
structure SourceSpan where
  /-- Where the span starts. -/
  start : Location
  /-- How many columns it covers. -/
  length : Nat

namespace SourceSpan

/-- Spans agree when they start at the same location and are equally long. -/
instance : BEq SourceSpan := ⟨fun a b => a.start == b.start && a.length == b.length⟩

/-- The start of the span and its length. -/
def text (span : SourceSpan) : String := s!"{span.start.text}+{span.length}"

end SourceSpan

end Cascade
