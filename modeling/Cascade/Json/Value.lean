import Cascade.Json.Number
import Cascade.Json.Text

/-!
# Values in documents

A reader that expects a value of some type takes no more of another value than it needs to say what
it is. A value nobody asks for is skipped over, however deeply it is nested: it is checked against
the grammar alone.
-/
namespace Cascade.Json

/-- Whether a number begins with the character. -/
def startsNumber (c : Char) : Bool := c = '-' || c.isDigit

/-- What is open around the place that has been reached. -/
inductive Bracket where
  | list | object
  deriving DecidableEq, Repr

/-- The refusal of a document that ends inside the bracket. -/
def Bracket.atEnd : Bracket → JsonError
  | .list => .endInList
  | .object => .endInObject

/-- How far a value that is skipped over has been read. -/
inductive Skipping where
  /-- At a value. -/
  | value (around : List Bracket)
  /-- At the first element or member of a bracket, or at its end. -/
  | first (inner : Bracket) (outer : List Bracket)
  /-- At a comma or the end of a bracket. -/
  | separator (inner : Bracket) (outer : List Bracket)
  /-- At a key of an object. -/
  | key (outer : List Bracket)
  /-- At the colon behind a key. -/
  | colon (outer : List Bracket)
  deriving DecidableEq, Repr

namespace Skipping

/-- The refusal of a document that ends here. -/
def atEnd : Skipping → JsonError
  | .value _ => .endInValue
  | .first inner _ => inner.atEnd
  | .separator inner _ => inner.atEnd
  | .key _ => .endInObject
  | .colon _ => .endInObject

/-- What comes after a value: nothing more when no bracket is open around it. -/
def afterValue : List Bracket → Reader.Round Skipping Unit
  | [] => .finish ()
  | inner :: outer => .again (.separator inner outer)

end Skipping

namespace Reader

/-- What a value of the wrong type is. -/
def found : Reader Found := do
  match ← peek? with
  | some 'n' =>
    skip 1
    restOfWord ['u', 'l', 'l']
    return .null
  | some 't' =>
    skip 1
    restOfWord ['r', 'u', 'e']
    return .flag true
  | some 'f' =>
    skip 1
    restOfWord ['a', 'l', 's', 'e']
    return .flag false
  | some '"' =>
    skip 1
    return .text (← text true)
  | some '[' => return .list
  | some '\x7b' => return .object
  | some c =>
    if startsNumber c then
      match ← number with
      | .integer value => return .integer value
      | .float value => return .float value
    else fail .expectedValue
  | none => fail .endInValue

/-- Refuses a value because something else was expected. -/
def mismatch {α : Type} (expected : String) : Reader α := do fail (.wrongType (← found) expected)

/-- Takes a whole number below a limit. -/
def natural (limit : Nat) (expected : String) : Reader Nat := do
  blanks
  match ← peek? with
  | some c =>
    if startsNumber c then
      match ← number with
      | .integer value =>
        if 0 ≤ value ∧ value < Int.ofNat limit then return value.toNat
        else fail (.wrongInteger value expected)
      | .float value => fail (.wrongType (.float value) expected)
    else mismatch expected
  | none => fail .endInValue

/-- Takes `null` or a value. -/
def optional {α : Type} (reader : Reader α) : Reader (Option α) := do
  blanks
  if (← peek?) = some 'n' then
    skip 1
    restOfWord ['u', 'l', 'l']
    return none
  else return some (← reader)

/-- Takes a truth value. -/
def flag : Reader Bool := do
  blanks
  match ← peek? with
  | some 't' =>
    skip 1
    restOfWord ['r', 'u', 'e']
    return true
  | some 'f' =>
    skip 1
    restOfWord ['a', 'l', 's', 'e']
    return false
  | _ => mismatch "a boolean"

/-- Takes the rest of a value without parts. -/
def restOfPlain (first : Char) : Reader Unit := do
  match first with
  | 'n' => restOfWord ['u', 'l', 'l']
  | 't' => restOfWord ['r', 'u', 'e']
  | 'f' => restOfWord ['a', 'l', 's', 'e']
  | '"' =>
    let _ ← text false
  | c =>
    if startsNumber c then
      let _ ← restOfNumeral c .invalidNumber
    else fail .expectedValue

/-- Begins a value of which one character has been taken. -/
def beginValue (around : List Bracket) (c : Char) : Reader (Round Skipping Unit) := do
  if c = '[' then return .again (.first .list around)
  else if c = '\x7b' then return .again (.first .object around)
  else
    restOfPlain c
    return Skipping.afterValue around

/-- Takes a key of which one character has been taken. -/
def beginKey (outer : List Bracket) (c : Char) : Reader (Round Skipping Unit) := do
  if c = '"' then
    let _ ← text false
    return .again (.colon outer)
  else fail .keyNotText

/-- Goes on with a skipped value after taking one character that is no blank. -/
def skipRound (state : Skipping) (c : Char) : Reader (Round Skipping Unit) := do
  match state with
  | .value around => beginValue around c
  | .first .list outer =>
    if c = ']' then return Skipping.afterValue outer else beginValue (.list :: outer) c
  | .first .object outer =>
    if c = '\x7d' then return Skipping.afterValue outer else beginKey outer c
  | .separator .list outer =>
    if c = ',' then return .again (.value (.list :: outer))
    else if c = ']' then return Skipping.afterValue outer
    else fail .expectedCommaOrBracket
  | .separator .object outer =>
    if c = ',' then return .again (.key outer)
    else if c = '\x7d' then return Skipping.afterValue outer
    else fail .expectedCommaOrBrace
  | .key outer => beginKey outer c
  | .colon outer =>
    if c = ':' then return .again (.value (.object :: outer)) else fail .expectedColon

/-- Takes a value that nobody asks for. -/
def skipValue : Reader Unit :=
  loop Skipping.atEnd
    (fun state c => if isBlank c then return .again state else skipRound state c)
    (.value [])

end Reader

end Cascade.Json
