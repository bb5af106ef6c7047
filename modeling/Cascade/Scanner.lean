import Cascade.Cursor

/-!
# Walking a text line by line

A scanner asks a source for one line after the other. It holds what is left of the line it is on,
and when nothing is left it moves on to the next line, and past every line that is used up, until
text is left or there are no more lines that the source counts. Nobody who asks for codepoints
notices the lines; that a scanner does what a cursor over the whole text does, if all lines are
counted, is proved and not assumed. Columns are numbers of 32 bits.

Main definitions:

* `Scanner.skipExhausted`, the loop that moves past used up lines;
* `Scanner.perform`, all that a scanner can be asked for, and `Scanner.run`, one thing after the
  other, with the text that was used up by it;
* `Scanner.collect`, the codepoints that are handed out if nothing else is asked for.
-/
namespace Cascade

/-- The text of a line, counted from one; there is none where no such line is given out. -/
def Source.lineText (source : Source) (number : Nat) : List Char :=
  match source.line number with
  | .ok text => text.toList
  | .error _ => []

/-- A place in a source, told by the line it is on. -/
structure Scanner where
  /-- The source that is walked. -/
  source : Source
  /-- What has not been handed out of the line, with its line feed. -/
  rest : List Char
  /-- The line, counted from one. -/
  line : Nat
  /-- The column of the next codepoint, counted from one. -/
  column : Nat

namespace Scanner

/-- Moves on as long as the line is used up and another one follows. -/
def skipExhausted (scanner : Scanner) : Scanner :=
  if scanner.rest.isEmpty ∧ scanner.line < scanner.source.lineCount then
    skipExhausted
      { scanner with
        rest := scanner.source.lineText (scanner.line + 1)
        line := scanner.line + 1
        column := 1 }
  else scanner
termination_by scanner.source.lineCount - scanner.line

/-- A scanner before the first codepoint of a source. -/
def start (source : Source) : Scanner := skipExhausted ⟨source, source.lineText 1, 1, 1⟩

/-- The next codepoint. -/
def peek? (scanner : Scanner) : Option Char := scanner.rest.head?

/-- The codepoint behind the next one, if it is on the same line. -/
def peekSecond? (scanner : Scanner) : Option Char := scanner.rest.tail.head?

/-- The position of the next codepoint. -/
def position (scanner : Scanner) : Position := ⟨scanner.line, scanner.column⟩

/-- Whether no text is left. -/
def isAtEnd (scanner : Scanner) : Bool := scanner.rest.isEmpty

/-- Hands out the next codepoint, if there is one. The column goes round at 2^32. -/
def consume (scanner : Scanner) : Option Char × Scanner :=
  match scanner.rest with
  | [] => (none, scanner)
  | c :: rest =>
    (some c, skipExhausted { scanner with rest, column := (scanner.column + 1) % UInt32.size })

/-- Moves past the next codepoint if it is the expected one, and says whether it was. -/
def eat (scanner : Scanner) (expected : Char) : Bool × Scanner :=
  if scanner.peek? = some expected then (true, scanner.consume.2) else (false, scanner)

/-- Drops what is left of the line. -/
def skipLine (scanner : Scanner) : Scanner := skipExhausted { scanner with rest := [] }

/-- What is left of the line, and the lines behind it. -/
def ahead (scanner : Scanner) : List Char :=
  scanner.rest ++ (scanner.source.lines.drop scanner.line).flatten

/-- A line that is counted is given out as it stands among the lines. -/
theorem lineText_succ {source : Source} {index : Nat} {line : List Char}
    (counted : index + 1 ≤ source.lineCount) (found : source.lines[index]? = some line) :
    source.lineText (index + 1) = line := by
  have there : source.lineAt? (index + 1) = some (String.ofList line) := by
    rw [Source.lineAt?, found]
    rfl
  have given : source.line (index + 1) = .ok (String.ofList line) := by
    rw [Source.line, if_pos counted, there]
  rw [Source.lineText, given]
  exact String.toList_ofList

/-- Moving past used up lines leaves the same text to come. -/
theorem skipExhausted_ahead (scanner : Scanner) : scanner.skipExhausted.ahead = scanner.ahead := by
  fun_induction skipExhausted scanner with
  | case1 scanner used ih =>
    obtain ⟨empty, more⟩ := used
    have nothing : scanner.rest = [] := List.isEmpty_iff.mp empty
    have inside : scanner.line < scanner.source.lines.length :=
      Nat.lt_of_lt_of_le more (Nat.mod_le _ _)
    have next : scanner.source.lineText (scanner.line + 1) = scanner.source.lines[scanner.line] :=
      lineText_succ more (List.getElem?_eq_getElem inside)
    rw [ih, ahead, ahead, next, nothing, List.nil_append, List.drop_eq_getElem_cons inside,
      List.flatten_cons]
  | case2 => rfl

/-- A codepoint that is handed out is gone from what is to come. -/
theorem consume_ahead {scanner later : Scanner} {c : Char}
    (step : scanner.consume = (some c, later)) : scanner.ahead = c :: later.ahead := by
  unfold consume at step
  split at step
  · cases step
  · next found =>
    cases step
    rw [skipExhausted_ahead, ahead, found]
    rfl

/-- The codepoints that are handed out one by one until there are no more. -/
def collect (scanner : Scanner) : List Char :=
  match _step : scanner.consume with
  | (none, _) => []
  | (some c, later) => c :: collect later
termination_by scanner.ahead.length
decreasing_by
  rw [consume_ahead _step]
  exact Nat.lt_succ_self _

/-- What a scanner can be asked for. -/
inductive Step where
  /-- To show the next codepoint. -/
  | peek
  /-- To show the codepoint behind the next one. -/
  | peekSecond
  /-- To hand out the next codepoint. -/
  | consume
  /-- To move past an expected codepoint. -/
  | eat (expected : Char)
  /-- To drop what is left of the line. -/
  | skipLine
  /-- To hand out the next codepoint as the next of a sequence. -/
  | next
  deriving DecidableEq, Repr

/-- What a scanner replies. -/
inductive Reply where
  /-- A codepoint, if there is one. -/
  | codepoint (found : Option Char)
  /-- Whether the expected codepoint was there. -/
  | eaten (there : Bool)
  /-- Nothing. -/
  | done
  deriving DecidableEq, Repr

/-- Does what is asked for. -/
def perform (scanner : Scanner) : Step → Reply × Scanner
  | .peek => (.codepoint scanner.peek?, scanner)
  | .peekSecond => (.codepoint scanner.peekSecond?, scanner)
  | .consume | .next => scanner.consume.map .codepoint id
  | .eat expected => (scanner.eat expected).map .eaten id
  | .skipLine => (.done, scanner.skipLine)

/-- The text that is used up when this is asked for: the codepoint that is handed out or moved past,
or the text that is dropped. -/
def used (scanner : Scanner) : Step → List Char
  | .peek | .peekSecond => []
  | .consume | .next => scanner.consume.1.toList
  | .eat expected => if (scanner.eat expected).1 then [expected] else []
  | .skipLine => scanner.rest

/-- Does one thing after the other; gives the text that was used up, and the scanner after it. -/
def run (scanner : Scanner) : List Step → List Char × Scanner
  | [] => ([], scanner)
  | step :: steps => ((scanner.perform step).2.run steps).map (scanner.used step ++ ·) id

end Scanner

end Cascade
