import Cascade.Diagnostic.Catalogue
import Cascade.Text.IdentifierStart
import Cascade.Token.Kind

/-!
# Lexemes and tokens

A lexeme is what the lexer reads at one place: a mark, a word, a number, a string, or one of the two
malformed stretches, a stray character and a string without its closing quote. Its written form is
what it covers in the source, and its width is the length of that form. A token is a lexeme with
the position at which it stands, and a malformed token brings its diagnostic along.
-/
namespace Cascade

/-- What is read at one place of a source. -/
inductive Lexeme where
  /-- Punctuation or an operator. -/
  | mark (sign : Mark)
  /-- A word that cannot be a name. -/
  | keyword (word : Keyword)
  /-- A name. -/
  | identifier (name : String)
  /-- A run of decimal digits. -/
  | number (digits : String)
  /-- The text between two double quotes. -/
  | string (content : String)
  /-- A double quote and the rest of its line, which holds no other. -/
  | unterminated (content : String)
  /-- A character that begins no other lexeme. -/
  | stray (character : Char)
  deriving DecidableEq, Repr

namespace Lexeme

/-- The kind of token the lexeme makes. -/
def kind : Lexeme → TokenKind
  | .mark sign => .mark sign
  | .keyword word => .keyword word
  | .identifier _ => .identifier
  | .number _ => .number
  | .string _ => .string
  | .unterminated _ => .invalid
  | .stray _ => .invalid

/-- What the lexeme carries beyond its kind. -/
def payload? : Lexeme → Option String
  | .mark _ => none
  | .keyword _ => none
  | .identifier name => some name
  | .number digits => some digits
  | .string content => some content
  | .unterminated content => some content
  | .stray character => some character.toString

/-- The codepoints the lexeme covers. -/
def written : Lexeme → List Char
  | .mark sign => sign.spelling.toList
  | .keyword word => word.spelling.toList
  | .identifier name => name.toList
  | .number digits => digits.toList
  | .string content => '"' :: (content.toList ++ ['"'])
  | .unterminated content => '"' :: content.toList
  | .stray character => [character]

/-- How many columns the lexeme covers. -/
def width (lexeme : Lexeme) : Nat := lexeme.written.length

/-- The payload, or the one spelling of the kind. -/
def text (lexeme : Lexeme) : String :=
  lexeme.payload?.getD (lexeme.kind.spelling?.getD "")

/-- How the lexeme reads inside a message. -/
def description (lexeme : Lexeme) : String :=
  match lexeme.kind with
  | .identifier | .number | .invalid => s!"{lexeme.kind.description} '{lexeme.text}'"
  | kind => kind.description

/-- What is wrong with a malformed lexeme that starts at the position. -/
def problem? (lexeme : Lexeme) (start : Position) : Option Diagnostic :=
  match lexeme with
  | .unterminated content =>
    some ((Diagnostic.of (start.span (content.length + 1)) .unterminatedString []).withHint
      "add a closing '\"' before the end of the line")
  | .stray character =>
    if character.toNat < 128 then
      some (.of (start.span 1) .unexpectedCharacter [Text.escapeAscii character])
    else
      let plain := Diagnostic.of (start.span 1) .invalidCharacter [character.toString]
      some (if Text.isIdentifierStart character then plain.withHint "identifiers must be ASCII"
        else plain)
  | _ => none

end Lexeme

/-- A lexeme at its place. -/
structure Token where
  /-- What was read. -/
  lexeme : Lexeme
  /-- Where it starts. -/
  start : Position
  deriving DecidableEq, Repr

namespace Token

/-- The kind of the token. -/
def kind (token : Token) : TokenKind := token.lexeme.kind

/-- How many columns the token covers. -/
def width (token : Token) : Nat := token.lexeme.width

/-- The columns the token covers. -/
def span (token : Token) : Span := token.start.span token.width

/-- The position right after the token. -/
def stop (token : Token) : Position := token.start.shift token.width

/-- The payload of the token, or its spelling. -/
def text (token : Token) : String := token.lexeme.text

/-- How the token reads inside a message. -/
def description (token : Token) : String := token.lexeme.description

/-- What is wrong with the token, if it is malformed. -/
def problem? (token : Token) : Option Diagnostic := token.lexeme.problem? token.start

/-- The kind, the position and the quoted payload, on one line. -/
def summary (token : Token) : String :=
  let payload :=
    match token.lexeme.payload? with
    | some text => s!"({Text.quote text})"
    | none => ""
  s!"{token.kind.name}@{token.start.text}{payload}"

end Token

end Cascade
