/-!
# Places in a text

Lines and columns are counted from one. A column counts codepoints, never bytes, and a span never
leaves its line, so a span is a position with a length.
-/
namespace Cascade

/-- A line and a column, both counted from one. -/
structure Position where
  /-- The line, counted from one. -/
  line : Nat
  /-- The column, counted from one in codepoints. -/
  column : Nat
  deriving DecidableEq, Repr, Inhabited

/-- A run of columns on one line. -/
structure Span where
  /-- Where the run starts. -/
  start : Position
  /-- How many columns it covers. -/
  length : Nat
  deriving DecidableEq, Repr, Inhabited

namespace Position

/-- The start of every text. -/
def first : Position := ⟨1, 1⟩

/-- The position after one codepoint: a line feed opens a line, any other moves one column on. -/
def after (here : Position) (c : Char) : Position :=
  if c = '\n' then ⟨here.line + 1, 1⟩ else ⟨here.line, here.column + 1⟩

/-- The position some columns further on the same line. -/
def shift (here : Position) (columns : Nat) : Position := ⟨here.line, here.column + columns⟩

/-- The span of the given length that starts here. -/
def span (here : Position) (length : Nat) : Span := ⟨here, length⟩

/-- Reading order: by line, then by column. -/
def precedes (a b : Position) : Bool :=
  a.line < b.line || (a.line == b.line && a.column ≤ b.column)

/-- The position as a diagnostic writes it after a file name. -/
def text (here : Position) : String := s!"{here.line}:{here.column}"

end Position

end Cascade
