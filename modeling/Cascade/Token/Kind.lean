/-!
# Kinds of tokens

A token is a mark (punctuation or an operator), a keyword, an identifier, a number, a string or
invalid. Marks and keywords have one spelling each. The list of all kinds fixes their numbering.
-/
namespace Cascade

/-- Punctuation and operators. -/
inductive Mark where
  | openParen | closeParen | openBracket | closeBracket | openBrace | closeBrace
  | comma | dot | dotDot | colon | semicolon | question
  | plus | plusPlus | minus | arrow | star | starStar | slash | percent
  | ampersand | bar | caret | tilde
  | bang | bangEqual | equal | equalEqual
  | less | lessEqual | lessLess | greater | greaterEqual | greaterGreater
  deriving DecidableEq, Repr

namespace Mark

/-- Every mark in the order of the kinds. -/
def all : List Mark :=
  [.openParen, .closeParen, .openBracket, .closeBracket, .openBrace, .closeBrace, .comma, .dot,
    .dotDot, .colon, .semicolon, .question, .plus, .plusPlus, .minus, .arrow, .star, .starStar,
    .slash, .percent, .ampersand, .bar, .caret, .tilde, .bang, .bangEqual, .equal, .equalEqual,
    .less, .lessEqual, .lessLess, .greater, .greaterEqual, .greaterGreater]

/-- How the mark is written. -/
def spelling : Mark → String
  | .openParen => "("
  | .closeParen => ")"
  | .openBracket => "["
  | .closeBracket => "]"
  | .openBrace => "\x7b"
  | .closeBrace => "\x7d"
  | .comma => ","
  | .dot => "."
  | .dotDot => ".."
  | .colon => ":"
  | .semicolon => ";"
  | .question => "?"
  | .plus => "+"
  | .plusPlus => "++"
  | .minus => "-"
  | .arrow => "->"
  | .star => "*"
  | .starStar => "**"
  | .slash => "/"
  | .percent => "%"
  | .ampersand => "&"
  | .bar => "|"
  | .caret => "^"
  | .tilde => "~"
  | .bang => "!"
  | .bangEqual => "!="
  | .equal => "="
  | .equalEqual => "=="
  | .less => "<"
  | .lessEqual => "<="
  | .lessLess => "<<"
  | .greater => ">"
  | .greaterEqual => ">="
  | .greaterGreater => ">>"

/-- The name of the mark in token listings. -/
def name : Mark → String
  | .openParen => "OpenParenToken"
  | .closeParen => "CloseParenToken"
  | .openBracket => "OpenBracketToken"
  | .closeBracket => "CloseBracketToken"
  | .openBrace => "OpenBraceToken"
  | .closeBrace => "CloseBraceToken"
  | .comma => "CommaToken"
  | .dot => "DotToken"
  | .dotDot => "DotDotToken"
  | .colon => "ColonToken"
  | .semicolon => "SemicolonToken"
  | .question => "QuestionToken"
  | .plus => "PlusToken"
  | .plusPlus => "PlusPlusToken"
  | .minus => "MinusToken"
  | .arrow => "MinusGreaterThanToken"
  | .star => "AsteriskToken"
  | .starStar => "AsteriskAsteriskToken"
  | .slash => "SlashToken"
  | .percent => "PercentToken"
  | .ampersand => "AmpersandToken"
  | .bar => "BarToken"
  | .caret => "CaretToken"
  | .tilde => "TildeToken"
  | .bang => "ExclamationToken"
  | .bangEqual => "ExclamationEqualsToken"
  | .equal => "EqualsToken"
  | .equalEqual => "EqualsEqualsToken"
  | .less => "LessThanToken"
  | .lessEqual => "LessThanEqualsToken"
  | .lessLess => "LessThanLessThanToken"
  | .greater => "GreaterThanToken"
  | .greaterEqual => "GreaterThanEqualsToken"
  | .greaterGreater => "GreaterThanGreaterThanToken"

end Mark

/-- Words that cannot be names. -/
inductive Keyword where
  | structWord | fnWord | ownWord | forWord | whileWord | ifWord | inWord | andWord | orWord
  | elseWord | breakWord | continueWord | returnWord | letWord | mutWord | enumWord | unionWord
  | traitWord | trueWord | falseWord
  deriving DecidableEq, Repr

namespace Keyword

/-- Every keyword in the order of the kinds. -/
def all : List Keyword :=
  [.structWord, .fnWord, .ownWord, .forWord, .whileWord, .ifWord, .inWord, .andWord, .orWord,
    .elseWord, .breakWord, .continueWord, .returnWord, .letWord, .mutWord, .enumWord, .unionWord,
    .traitWord, .trueWord, .falseWord]

/-- How the keyword is written. -/
def spelling : Keyword → String
  | .structWord => "struct"
  | .fnWord => "fn"
  | .ownWord => "own"
  | .forWord => "for"
  | .whileWord => "while"
  | .ifWord => "if"
  | .inWord => "in"
  | .andWord => "and"
  | .orWord => "or"
  | .elseWord => "else"
  | .breakWord => "break"
  | .continueWord => "continue"
  | .returnWord => "return"
  | .letWord => "let"
  | .mutWord => "mut"
  | .enumWord => "enum"
  | .unionWord => "union"
  | .traitWord => "trait"
  | .trueWord => "true"
  | .falseWord => "false"

/-- The name of the keyword in token listings. -/
def name : Keyword → String
  | .structWord => "StructKeyword"
  | .fnWord => "FnKeyword"
  | .ownWord => "OwnKeyword"
  | .forWord => "ForKeyword"
  | .whileWord => "WhileKeyword"
  | .ifWord => "IfKeyword"
  | .inWord => "InKeyword"
  | .andWord => "AndKeyword"
  | .orWord => "OrKeyword"
  | .elseWord => "ElseKeyword"
  | .breakWord => "BreakKeyword"
  | .continueWord => "ContinueKeyword"
  | .returnWord => "ReturnKeyword"
  | .letWord => "LetKeyword"
  | .mutWord => "MutKeyword"
  | .enumWord => "EnumKeyword"
  | .unionWord => "UnionKeyword"
  | .traitWord => "TraitKeyword"
  | .trueWord => "TrueKeyword"
  | .falseWord => "FalseKeyword"

/-- The keyword with exactly this spelling. -/
def ofSpelling? (word : String) : Option Keyword :=
  all.find? fun keyword => keyword.spelling == word

end Keyword

/-- What class of lexeme a token is. -/
inductive TokenKind where
  /-- A character no rule matches, or a string without its closing quote. -/
  | invalid
  /-- A name. -/
  | identifier
  /-- A run of decimal digits. -/
  | number
  /-- A text between double quotes. -/
  | string
  /-- Punctuation or an operator. -/
  | mark (mark : Mark)
  /-- A word that cannot be a name. -/
  | keyword (keyword : Keyword)
  deriving DecidableEq, Repr

namespace TokenKind

/-- Every kind in the order of the codes. -/
def all : List TokenKind :=
  [.invalid, .identifier, .number, .string] ++ Mark.all.map .mark ++ Keyword.all.map .keyword

/-- The place of the kind among all kinds. -/
def code (kind : TokenKind) : Nat := all.idxOf kind

/-- Whether tokens of the kind are keywords. -/
def isKeyword : TokenKind → Bool
  | .keyword _ => true
  | _ => false

/-- The one spelling of the kind, if it has only one. -/
def spelling? : TokenKind → Option String
  | .mark sign => some sign.spelling
  | .keyword word => some word.spelling
  | _ => none

/-- The name of the kind in token listings. -/
def name : TokenKind → String
  | .invalid => "Invalid"
  | .identifier => "Identifier"
  | .number => "NumericLiteral"
  | .string => "StringLiteral"
  | .mark sign => sign.name
  | .keyword word => word.name

/-- How the kind reads inside a message. -/
def description : TokenKind → String
  | .invalid => "invalid token"
  | .identifier => "identifier"
  | .number => "number"
  | .string => "string literal"
  | .mark sign => s!"'{sign.spelling}'"
  | .keyword word => s!"keyword '{word.spelling}'"

end TokenKind

end Cascade
