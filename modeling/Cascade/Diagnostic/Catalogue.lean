import Cascade.Diagnostic.Basic

/-!
# The catalogue of messages

Every message the lexer and the parser can give. The numbers are stable and never reused.
-/
namespace Cascade.Message

/-- A character beyond ASCII where only ASCII may stand. -/
def invalidCharacter : Message :=
  ⟨1001, .error, "invalid character '\x7b0\x7d' outside string literal"⟩

/-- An ASCII character that begins no lexeme. -/
def unexpectedCharacter : Message := ⟨1002, .error, "unexpected character '\x7b0\x7d'"⟩

/-- A string literal whose line ends before its closing quote. -/
def unterminatedString : Message := ⟨1003, .error, "unterminated string literal"⟩

/-- An expression had to begin here. -/
def expectedExpression : Message := ⟨2001, .error, "expected expression, found \x7b0\x7d"⟩

/-- A bracket had to be closed here. -/
def expectedClosing : Message := ⟨2002, .error, "expected '\x7b0\x7d', found \x7b1\x7d"⟩

/-- Where the bracket that is not closed was opened. -/
def unclosedDelimiter : Message := ⟨2003, .info, "unclosed '\x7b0\x7d' opened here"⟩

/-- A field name or another selector had to follow the dot. -/
def expectedSelector : Message :=
  ⟨2004, .error,
    "expected field name or one of '*', '&', '?', '!' after '.', found \x7b0\x7d"⟩

/-- A number is too large for its type. -/
def integerTooLarge : Message :=
  ⟨2005, .error, "integer literal '\x7b0\x7d' does not fit in 64 bits"⟩

/-- An expression is nested deeper than the limit. -/
def nestedTooDeeply : Message :=
  ⟨2006, .error, "expression nested too deeply (limit is \x7b0\x7d)"⟩

end Cascade.Message
