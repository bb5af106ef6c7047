import Cascade.Expr.Basic
import Cascade.Expr.SyntaxError
import Cascade.Tier

/-!
# Parsing expressions

Recursive descent over the tiers, with one token of lookahead. An expression at a tier is an operand
at the next tighter tier followed by any run of operators of that tier with their operands, folded
from the left; at the two prefix tiers it may instead begin with an operator whose operand is of
the same tier. At the tightest tier stands a primary with any run of indices, calls and selectors.

Nesting is counted where an expression begins afresh (at the top, inside brackets, for each
argument) and at every prefix operator; long runs at one level add nothing.

The first token that cannot continue stops the parse. What was complete by then is kept: the parts
are handed out in the order in which they were completed.

Every result comes with the fact that a success has used up at least one token. The recursion ends
by it: each call is on fewer tokens, or on the same tokens at a tighter tier.
-/
namespace Cascade

/-- The value of a run of decimal digits. -/
def decimalValue (digits : String) : Nat :=
  digits.toList.foldl (fun value digit => 10 * value + (digit.toNat - '0'.toNat)) 0

/-- The number of 64 bits that a run of decimal digits writes. -/
def decimalLong? (digits : String) : Option UInt64 :=
  let value := decimalValue digits
  if value < UInt64.size then some (UInt64.ofNat value) else none

/-- What parsing a stretch of tokens gives. -/
inductive Outcome (α : Type) where
  /-- A value, and the tokens after it. -/
  | done (value : α) (rest : List Token)
  /-- A failure, the tokens at which it stopped, and the expressions complete by then. -/
  | stuck (failure : Failure) (rest : List Token) (completed : List (Expr Span))

/-- A success leaves fewer tokens than the bound. -/
def Outcome.Within {α : Type} (bound : Nat) : Outcome α → Prop
  | .done _ rest => rest.length < bound
  | .stuck .. => True

/-- An outcome whose success leaves fewer tokens than the bound. -/
abbrev Parsed (α : Type) (bound : Nat) : Type := { outcome : Outcome α // outcome.Within bound }

/-- Tokens split after the first one, which was found acceptable. -/
structure Taken (β : Type) (tokens : List Token) where
  /-- What the first token was accepted as. -/
  value : β
  /-- The first token. -/
  token : Token
  /-- The tokens after it. -/
  rest : List Token
  /-- The tokens are the first one and the rest. -/
  same : tokens = token :: rest

/-- Takes the first token if its kind is acceptable. -/
def take? {β : Type} (accept : TokenKind → Option β) : (tokens : List Token) →
    Option (Taken β tokens)
  | [] => none
  | token :: rest => (accept token.kind).map fun value => ⟨value, token, rest, rfl⟩

/-- Accepts one mark only. -/
def acceptMark (sign : Mark) (kind : TokenKind) : Option Unit :=
  if kind = .mark sign then some () else none

/-- Accepts the operators between operands of one tier only. -/
def acceptBinary (tier : Tier) (kind : TokenKind) : Option BinaryOp :=
  kind.binaryOp?.filter fun op => op.tier = tier

/-- Accepts the operators before operands of one tier only. -/
def acceptUnary (tier : Tier) (kind : TokenKind) : Option UnaryOp :=
  kind.unaryOp?.filter fun op => op.tier = tier

/-- How a target is continued. -/
inductive Continuation where
  /-- An index in brackets. -/
  | index
  /-- Arguments in parentheses. -/
  | call
  /-- A selector after a dot. -/
  | selector
  deriving DecidableEq, Repr

/-- Accepts the tokens that continue a target. -/
def acceptContinuation : TokenKind → Option Continuation
  | .mark .openBracket => some .index
  | .mark .openParen => some .call
  | .mark .dot => some .selector
  | _ => none

/-- What may follow a dot. -/
inductive Selector where
  /-- A selector that is no field name. -/
  | access (access : Access)
  /-- A field name. -/
  | field
  deriving DecidableEq, Repr

/-- Accepts the tokens that may follow a dot. -/
def acceptSelector (kind : TokenKind) : Option Selector :=
  if kind = .identifier then some .field else kind.access?.map .access

/-- The columns from a dot through the end of its selector, counted as if nothing stood between. -/
def selectorSpan (dot selector : Token) : Span := dot.start.span (dot.width + selector.width)

/-- A target under the selector that follows a dot. -/
def selected (target : Expr Span) (dot token : Token) : Selector → Expr Span
  | .access access => .primitive (selectorSpan dot token) access target
  | .field => .field (selectorSpan dot token) target token.text

mutual

/-- An expression that begins afresh, one level deeper. `room` is how many levels are left. -/
def parseExpression (context : ParseContext) (room : Nat) (tokens : List Token) :
    Parsed (Expr Span) tokens.length :=
  match room with
  | 0 => ⟨.stuck (.tooDeep context tokens) tokens [], trivial⟩
  | room + 1 => parseTier context .lowest room tokens
termination_by 16 * tokens.length + 14

/-- An expression whose loosest operator is of the tier or tighter. -/
def parseTier (context : ParseContext) (tier : Tier) (room : Nat) (tokens : List Token) :
    Parsed (Expr Span) tokens.length :=
  if inner : tier = .postfixChain then
    match parsePrimary context room tokens with
    | ⟨.stuck failure rest completed, _⟩ => ⟨.stuck failure rest completed, trivial⟩
    | ⟨.done target rest, shorter⟩ => parseChain context room target tokens.length rest shorter
  else
    match take? (acceptUnary tier) tokens with
    | some ⟨op, token, operandTokens, same⟩ =>
      match room with
      | 0 => ⟨.stuck (.tooDeep context operandTokens) operandTokens [], trivial⟩
      | room + 1 =>
        match parseTier context tier room operandTokens with
        | ⟨.stuck failure rest completed, _⟩ => ⟨.stuck failure rest completed, trivial⟩
        | ⟨.done operand rest, shorter⟩ =>
          ⟨.done (.unary token.span op operand) rest, by
            simp only [Outcome.Within] at shorter ⊢; simp only [same, List.length_cons]; omega⟩
    | none =>
      match parseTier context tier.tighter room tokens with
      | ⟨.stuck failure rest completed, _⟩ => ⟨.stuck failure rest completed, trivial⟩
      | ⟨.done lhs rest, shorter⟩ => parseRun context tier room lhs tokens.length rest shorter
termination_by 16 * tokens.length + (12 - tier.rank)
decreasing_by
  · subst inner; simp only [Tier.rank]; omega
  · simp only [Outcome.Within] at shorter; omega
  · simp only [same, List.length_cons]; omega
  · have := Tier.rank_tighter inner
    have := Tier.rank_le tier.tighter
    omega
  · simp only [Outcome.Within] at shorter; omega

/-- Any run of operators of the tier with their operands, folded onto what stands before it. -/
def parseRun (context : ParseContext) (tier : Tier) (room : Nat) (lhs : Expr Span) (bound : Nat)
    (tokens : List Token) (within : tokens.length < bound) : Parsed (Expr Span) bound :=
  match take? (acceptBinary tier) tokens with
  | none => ⟨.done lhs tokens, within⟩
  | some ⟨op, token, operandTokens, same⟩ =>
    match parseTier context tier.tighter room operandTokens with
    | ⟨.stuck failure rest completed, _⟩ => ⟨.stuck failure rest (lhs :: completed), trivial⟩
    | ⟨.done rhs rest, shorter⟩ =>
      parseRun context tier room (.binary token.span op lhs rhs) bound rest (by
        simp only [Outcome.Within] at shorter; simp only [same, List.length_cons] at within; omega)
termination_by 16 * tokens.length
decreasing_by
  · simp only [same, List.length_cons]; omega
  · simp only [Outcome.Within] at shorter; simp only [same, List.length_cons]; omega

/-- Any run of indices, calls and selectors after a target. -/
def parseChain (context : ParseContext) (room : Nat) (target : Expr Span) (bound : Nat)
    (tokens : List Token) (within : tokens.length < bound) : Parsed (Expr Span) bound :=
  match take? acceptContinuation tokens with
  | none => ⟨.done target tokens, within⟩
  | some ⟨.index, opener, inside, same⟩ =>
    match parseExpression context room inside with
    | ⟨.stuck failure rest completed, _⟩ => ⟨.stuck failure rest (target :: completed), trivial⟩
    | ⟨.done position closing, shorter⟩ =>
      match take? (acceptMark .closeBracket) closing with
      | none =>
        ⟨.stuck (.unclosed context .closeBracket opener closing) closing [target, position],
          trivial⟩
      | some ⟨_, _, rest, closed⟩ =>
        parseChain context room (.index opener.span target position) bound rest (by
          simp only [Outcome.Within, closed, List.length_cons] at shorter
          simp only [same, List.length_cons] at within; omega)
  | some ⟨.call, opener, inside, same⟩ =>
    match take? (acceptMark .closeParen) inside with
    | some ⟨_, _, rest, closed⟩ =>
      parseChain context room (.call opener.span target []) bound rest (by
        simp only [same, closed, List.length_cons] at within; omega)
    | none =>
      match parseArguments context room inside with
      | ⟨.stuck failure rest completed, _⟩ =>
        ⟨.stuck failure rest (target :: completed), trivial⟩
      | ⟨.done arguments closing, shorter⟩ =>
        match take? (acceptMark .closeParen) closing with
        | none =>
          ⟨.stuck (.unclosed context .closeParen opener closing) closing (target :: arguments),
            trivial⟩
        | some ⟨_, _, rest, closed⟩ =>
          parseChain context room (.call opener.span target arguments) bound rest (by
            simp only [Outcome.Within, closed, List.length_cons] at shorter
            simp only [same, List.length_cons] at within; omega)
  | some ⟨.selector, dot, following, same⟩ =>
    match take? acceptSelector following with
    | none => ⟨.stuck (.expectedSelector context following) following [target], trivial⟩
    | some ⟨selector, token, rest, taken⟩ =>
      parseChain context room (selected target dot token selector) bound rest (by
        simp only [same, taken, List.length_cons] at within; omega)
termination_by 16 * tokens.length
decreasing_by
  · simp only [same, List.length_cons]; omega
  · simp only [Outcome.Within, closed, List.length_cons] at shorter
    simp only [same, List.length_cons]; omega
  · simp only [same, closed, List.length_cons]; omega
  · simp only [same, List.length_cons]; omega
  · simp only [Outcome.Within, closed, List.length_cons] at shorter
    simp only [same, List.length_cons]; omega
  · simp only [same, taken, List.length_cons]; omega

/-- One argument and those after it, with commas between them. -/
def parseArguments (context : ParseContext) (room : Nat) (tokens : List Token) :
    Parsed (List (Expr Span)) tokens.length :=
  match parseExpression context room tokens with
  | ⟨.stuck failure rest completed, _⟩ => ⟨.stuck failure rest completed, trivial⟩
  | ⟨.done argument following, shorter⟩ =>
    match take? (acceptMark .comma) following with
    | none => ⟨.done [argument] following, shorter⟩
    | some ⟨_, _, later, same⟩ =>
      match parseArguments context room later with
      | ⟨.stuck failure rest completed, _⟩ =>
        ⟨.stuck failure rest (argument :: completed), trivial⟩
      | ⟨.done arguments rest, fewer⟩ =>
        ⟨.done (argument :: arguments) rest, by
          simp only [Outcome.Within, same, List.length_cons] at shorter fewer ⊢; omega⟩
termination_by 16 * tokens.length + 15
decreasing_by
  · omega
  · simp only [Outcome.Within, same, List.length_cons] at shorter; omega

/-- A literal, a name or an expression in parentheses. -/
def parsePrimary (context : ParseContext) (room : Nat) (tokens : List Token) :
    Parsed (Expr Span) tokens.length :=
  match tokens with
  | [] => ⟨.stuck (.expectedExpression context []) [] [], trivial⟩
  | token :: rest =>
    match token.lexeme with
    | .keyword .trueWord => ⟨.done (.bool token.span true) rest, Nat.lt_succ_self _⟩
    | .keyword .falseWord => ⟨.done (.bool token.span false) rest, Nat.lt_succ_self _⟩
    | .string content => ⟨.done (.str token.span content) rest, Nat.lt_succ_self _⟩
    | .identifier name => ⟨.done (.identifier token.span name) rest, Nat.lt_succ_self _⟩
    | .number digits =>
      match decimalLong? digits with
      | some value => ⟨.done (.int token.span value) rest, Nat.lt_succ_self _⟩
      | none => ⟨.stuck (.integerTooLarge token digits) rest [], trivial⟩
    | .mark .openParen =>
      match parseExpression context room rest with
      | ⟨.stuck failure left completed, _⟩ => ⟨.stuck failure left completed, trivial⟩
      | ⟨.done inner closing, shorter⟩ =>
        match take? (acceptMark .closeParen) closing with
        | none => ⟨.stuck (.unclosed context .closeParen token closing) closing [inner], trivial⟩
        | some ⟨_, _, left, closed⟩ =>
          ⟨.done inner left, by
            simp only [Outcome.Within, closed, List.length_cons] at shorter ⊢; omega⟩
    | _ => ⟨.stuck (.expectedExpression context (token :: rest)) (token :: rest) [], trivial⟩
termination_by 16 * tokens.length
decreasing_by simp only [List.length_cons]; omega

end

/-- What parsing all tokens gives: the complete top-level expressions and why there are no more. -/
structure ProgramOutcome where
  /-- The top-level expressions in order. -/
  roots : List (Expr Span)
  /-- The failure that stopped the parse, and what was complete of the expression it stopped in. -/
  stop : Option (Failure × List (Expr Span))
  /-- The tokens that are left. -/
  rest : List Token

/-- Parses expressions until the tokens are used up or one of them fails. -/
def parseProgram (context : ParseContext) (tokens : List Token) : ProgramOutcome :=
  match tokens with
  | [] => ⟨[], none, []⟩
  | token :: tail =>
    match parseExpression context context.limit (token :: tail) with
    | ⟨.stuck failure rest completed, _⟩ => ⟨[], some (failure, completed), rest⟩
    | ⟨.done root rest, _⟩ =>
      let later := parseProgram context rest
      { later with roots := root :: later.roots }
termination_by tokens.length
decreasing_by assumption

end Cascade
