import Cascade.Token.Lexer

/-!
# Syntax errors

Why a parse stopped, and where. An error names the token it found, and the diagnostics that go with
it are made here too: at the token found, and for a bracket that is not closed also at the bracket.
An invalid token was reported when it was read, so stopping at one reports nothing more.
-/
namespace Cascade

/-- Why a parse stopped. -/
inductive SyntaxError where
  /-- No expression begins with the token found. -/
  | expectedExpression (place : Position) (found : String)
  /-- The bracket opened at the place is not closed. -/
  | unclosedDelimiter (place : Position) (delimiter : String)
  /-- The token found after a dot is no selector. -/
  | expectedSelector (place : Position) (found : String)
  /-- The number does not fit in 64 bits. -/
  | integerTooLarge (place : Position) (digits : String)
  /-- The expression is nested deeper than the limit. -/
  | nestingTooDeep (place : Position) (limit : Nat)
  /-- The token is malformed. -/
  | invalidToken (place : Position)
  deriving DecidableEq, Repr

namespace SyntaxError

/-- The position the error points at. -/
def position : SyntaxError → Position
  | .expectedExpression place _ => place
  | .unclosedDelimiter place _ => place
  | .expectedSelector place _ => place
  | .integerTooLarge place _ => place
  | .nestingTooDeep place _ => place
  | .invalidToken place => place

/-- The wording of the error. -/
def message (error : SyntaxError) : String :=
  let place := error.position.text
  match error with
  | .expectedExpression _ found => s!"{place}: expected expression, found {found}"
  | .unclosedDelimiter _ delimiter => s!"{place}: unclosed '{delimiter}'"
  | .expectedSelector _ found => s!"{place}: expected a selector after '.', found {found}"
  | .integerTooLarge _ digits => s!"{place}: integer literal '{digits}' does not fit in 64 bits"
  | .nestingTooDeep _ limit => s!"{place}: expression nested deeper than {limit} levels"
  | .invalidToken _ => s!"{place}: invalid token"

end SyntaxError

/-- A syntax error with the diagnostics reported for it. -/
structure Failure where
  /-- Why the parse stopped. -/
  error : SyntaxError
  /-- What is reported, in order. -/
  reports : List Diagnostic
  deriving DecidableEq, Repr

/-- What a parse is told beside its tokens. -/
structure ParseContext where
  /-- How deeply expressions may be nested. -/
  limit : Nat
  /-- The position at which the tokens end. -/
  stop : Position
  deriving DecidableEq, Repr

namespace Failure

/-- The columns and the description of the token found, which may be the end of the tokens. -/
def found (context : ParseContext) : List Token → Span × String
  | [] => (context.stop.span 0, "end of input")
  | token :: _ => (token.span, token.description)

/-- The failure at the tokens, unless they begin with an invalid one. -/
def unlessInvalid (tokens : List Token) (failure : Failure) : Failure :=
  match tokens with
  | [] => failure
  | token :: _ => if token.kind = .invalid then ⟨.invalidToken token.start, []⟩ else failure

/-- The tokens begin no expression. -/
def expectedExpression (context : ParseContext) (tokens : List Token) : Failure :=
  let (span, text) := found context tokens
  unlessInvalid tokens
    ⟨.expectedExpression span.start text, [.of span .expectedExpression [text]]⟩

/-- The tokens after a dot begin with no selector. -/
def expectedSelector (context : ParseContext) (tokens : List Token) : Failure :=
  let (span, text) := found context tokens
  unlessInvalid tokens ⟨.expectedSelector span.start text, [.of span .expectedSelector [text]]⟩

/-- The tokens begin where the bracket had to be closed. -/
def unclosed (context : ParseContext) (close : Mark) (opener : Token) (tokens : List Token) :
    Failure :=
  let (span, text) := found context tokens
  unlessInvalid tokens
    ⟨.unclosedDelimiter opener.start opener.text,
      [.of span .expectedClosing [close.spelling, text],
        .of opener.span .unclosedDelimiter [opener.text]]⟩

/-- The number is too large. -/
def integerTooLarge (token : Token) (digits : String) : Failure :=
  ⟨.integerTooLarge token.start digits,
    [(Diagnostic.of token.span .integerTooLarge [digits]).withHint
      s!"the largest integer literal is {UInt64.size - 1}"]⟩

/-- The tokens begin where the nesting limit was passed. -/
def tooDeep (context : ParseContext) (tokens : List Token) : Failure :=
  let (span, _) := found context tokens
  ⟨.nestingTooDeep span.start context.limit,
    [.of span .nestedTooDeeply [toString context.limit]]⟩

end Failure

end Cascade
