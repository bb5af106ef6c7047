import Cascade.Decimal.Style
import Cascade.Text.Quoted

/-!
# What is wrong with a document

A document is incomplete when it ends too early, malformed when it breaks the grammar, and a
mismatch when it is well-formed as far as it was read but does not fit what is asked of it.
-/
namespace Cascade.Json

/-- What stands where something else was expected. -/
inductive Found where
  /-- The word `null`. -/
  | null
  /-- A truth value. -/
  | flag (value : Bool)
  /-- A whole number that fits in 64 bits. -/
  | integer (value : Int)
  /-- Any other number. -/
  | float (value : Float)
  /-- A text. -/
  | text (value : String)
  /-- A list. -/
  | list
  /-- An object. -/
  | object

/-- How the thing found reads inside a message. -/
def Found.description : Found → String
  | .null => "null"
  | .flag value => if value then "boolean `true`" else "boolean `false`"
  | .integer value => s!"integer `{value}`"
  | .float value => s!"floating point `{Decimal.Style.plain.writeFloat value}`"
  | .text value => s!"string {Text.quote value}"
  | .list => "sequence"
  | .object => "map"

/-- Why a document is refused. -/
inductive JsonError where
  /-- It ends where a value has to stand or in the middle of one. -/
  | endInValue
  /-- It ends inside a text. -/
  | endInText
  /-- It ends inside a list. -/
  | endInList
  /-- It ends inside an object. -/
  | endInObject
  /-- No value begins here. -/
  | expectedValue
  /-- A word begins like `null`, `true` or `false` and goes on in another way. -/
  | expectedWord
  /-- A key without its colon. -/
  | expectedColon
  /-- An element followed by neither comma nor bracket. -/
  | expectedCommaOrBracket
  /-- A member followed by neither comma nor brace. -/
  | expectedCommaOrBrace
  /-- A key that is no text. -/
  | keyNotText
  /-- A comma before the closing bracket or brace. -/
  | trailingComma
  /-- Something stands behind the document. -/
  | trailingText
  /-- Something that begins like a number is none. -/
  | invalidNumber
  /-- A number too large for floating point. -/
  | numberOutOfRange
  /-- A backslash followed by nothing it can escape. -/
  | invalidEscape
  /-- A control character stands in a text as itself. -/
  | controlCharacter
  /-- Half of a surrogate pair stands where the other half or none may stand. -/
  | loneSurrogate
  /-- The first half of a surrogate pair is followed by no escape. -/
  | unpairedSurrogate
  /-- A value of another type was expected. -/
  | wrongType (found : Found) (expected : String)
  /-- A whole number was expected, but not this one. -/
  | wrongInteger (value : Int) (expected : String)
  /-- A key is given twice. -/
  | duplicateKey (key : String)

/-- The three classes of refusals. -/
inductive JsonError.Class where
  | incomplete | malformed | mismatch
  deriving DecidableEq, Repr

namespace JsonError

/-- The class of the refusal. -/
def classOf : JsonError → Class
  | .endInValue | .endInText | .endInList | .endInObject => .incomplete
  | .wrongType .. | .wrongInteger .. | .duplicateKey _ => .mismatch
  | _ => .malformed

/-- The wording of the refusal. -/
def message : JsonError → String
  | .endInValue => "EOF while parsing a value"
  | .endInText => "EOF while parsing a string"
  | .endInList => "EOF while parsing a list"
  | .endInObject => "EOF while parsing an object"
  | .expectedValue => "expected value"
  | .expectedWord => "expected ident"
  | .expectedColon => "expected `:`"
  | .expectedCommaOrBracket => "expected `,` or `]`"
  | .expectedCommaOrBrace => "expected `,` or `\x7d`"
  | .keyNotText => "key must be a string"
  | .trailingComma => "trailing comma"
  | .trailingText => "trailing characters"
  | .invalidNumber => "invalid number"
  | .numberOutOfRange => "number out of range"
  | .invalidEscape => "invalid escape"
  | .controlCharacter => "control character (\\u0000-\\u001F) found while parsing a string"
  | .loneSurrogate => "lone leading surrogate in hex escape"
  | .unpairedSurrogate => "unexpected end of hex escape"
  | .wrongType found expected => s!"invalid type: {found.description}, expected {expected}"
  | .wrongInteger value expected => s!"invalid value: integer `{value}`, expected {expected}"
  | .duplicateKey key => s!"duplicate field `{key}`"

end JsonError

end Cascade.Json
