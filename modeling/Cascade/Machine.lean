import Cascade.Session

/-!
# The parser as a machine

The parser works on a state: the cursor of its lexer, the token it looks at, how deeply it is nested
and what it has reported and stored. It takes one token after the other, stores a node as soon as
the node is complete and hands its handle on, so nothing of an expression is kept but what is in the
store. A syntax error is handed on as a result; the state stays as it was when the error was found.

A run may break down, and it may go on for ever: then there is no result. That neither happens, and
that the machine does what a session does, is proved and not assumed.

Main definitions:

* `Machine.fetch`, which looks at the next token, and `Machine.advance`, which takes the one in
  view;
* `Machine.expression` and `Machine.program`, the two calls a user of the parser makes;
* `Machine.perform` and `Machine.performAll`, calls one after the other on one machine.
-/
namespace Cascade

/-- Why a machine breaks down. -/
inductive Panic where
  /-- There is no token to take. -/
  | pastEnd
  deriving DecidableEq, Repr

/-- The wording of a breakdown. -/
def Panic.message : Panic → String
  | .pastEnd => "parser advanced past the end of input"

/-- The state of a parser at work. -/
structure Machine where
  /-- How deeply expressions may be nested. -/
  limit : Nat
  /-- The cursor behind the token in view. -/
  cursor : Cursor
  /-- The token in view; none when there are no more. -/
  current : Option Token
  /-- How deeply the expression at work is nested. -/
  depth : Nat
  /-- What has been reported. -/
  log : DiagnosticLog
  /-- What has been stored. -/
  ast : Ast

namespace Machine

/-- What a machine does: it changes its state and gives a value, unless it breaks down or goes on
for ever. -/
abbrev Run (α : Type) : Type := StateT Machine (ExceptT Panic Option) α

/-- Looks at the next token, and reports what is wrong with it. -/
def fetch (machine : Machine) : Machine :=
  match Lexer.next? machine.cursor with
  | none => { machine with cursor := Lexer.skipTrivia machine.cursor, current := none }
  | some (token, later) =>
    { machine with
      cursor := later
      current := some token
      log := machine.log.reportAll token.problem?.toList }

/-- A machine that looks at the first token of a source. -/
def start (source : Source) (limit : Nat) : Machine :=
  fetch ⟨limit, .start source, none, 0, .empty, .empty⟩

/-- Takes the token in view and looks at the next one. -/
def advance : Run Token := do
  match (← get).current with
  | some token =>
    modify fetch
    return token
  | none => throw .pastEnd

/-- What the token in view is accepted as. -/
def peek? {β : Type} (accept : TokenKind → Option β) : Run (Option β) := do
  return (← get).current.bind fun token => accept token.kind

/-- Takes the token in view if it is accepted. -/
def eat? {β : Type} (accept : TokenKind → Option β) : Run (Option (β × Token)) := do
  match ← peek? accept with
  | some value => return some (value, ← advance)
  | none => return none

/-- Reports the failure at the token in view and gives its error. -/
def fail {α : Type} (failure : ParseContext → List Token → Failure) :
    Run (Except SyntaxError α) := do
  let machine ← get
  let made := failure ⟨machine.limit, machine.cursor.position⟩ machine.current.toList
  set { machine with log := machine.log.reportAll made.reports }
  return .error made.error

/-- Stores a node. -/
def push (node : Node) (span : Span) : Run Handle :=
  modifyGet fun machine =>
    let (handle, ast) := machine.ast.push node span
    (handle, { machine with ast })

/-- Stores a text. -/
def intern (text : String) : Run Symbol :=
  modifyGet fun machine =>
    let (symbol, ast) := machine.ast.intern text
    (symbol, { machine with ast })

/-- Stores a list of arguments. -/
def pushList (handles : List Handle) : Run HandleRange :=
  modifyGet fun machine =>
    let (range, ast) := machine.ast.pushList handles
    (range, { machine with ast })

/-- Stores the handle of a root. -/
def pushRoot (handle : Handle) : Run Unit :=
  modify fun machine => { machine with ast := machine.ast.pushRoot handle }

/-- Goes one level deeper and says whether the limit allows it; if not, the level is left again. -/
def descend : Run Bool := do
  modify fun machine => { machine with depth := machine.depth + 1 }
  let machine ← get
  if machine.depth > machine.limit then
    set { machine with depth := machine.depth - 1 }
    return false
  else return true

/-- Leaves a level. -/
def ascend : Run Unit := modify fun machine => { machine with depth := machine.depth - 1 }

/-- Takes the mark that closes a bracket. -/
def expectClosing (close : Mark) (opener : Token) : Run (Except SyntaxError Unit) := do
  match ← eat? (acceptMark close) with
  | some _ => return .ok ()
  | none => fail fun context tokens => .unclosed context close opener tokens

/-- A selector after a target. -/
def selector (target : Handle) : Run (Except SyntaxError Handle) := do
  let dot ← advance
  match ← peek? acceptSelector with
  | none => fail .expectedSelector
  | some accepted =>
    let token ← advance
    match accepted with
    | .access access =>
      return .ok (← push (.primitive access target) (selectorSpan dot token))
    | .field =>
      let name ← intern token.text
      return .ok (← push (.field target name) (selectorSpan dot token))

/-- A token that is a node on its own. -/
def literal (node : Node) : Run (Except SyntaxError Handle) := do
  let token ← advance
  return .ok (← push node token.span)

/-- A token that is a node with a text. -/
def textual (text : String) (node : Symbol → Node) : Run (Except SyntaxError Handle) := do
  let token ← advance
  let symbol ← intern text
  return .ok (← push (node symbol) token.span)

/-- A number, which is taken before its value is known. -/
def integer (digits : String) : Run (Except SyntaxError Handle) := do
  let token ← advance
  match decimalLong? digits with
  | some value => return .ok (← push (.int value) token.span)
  | none => fail fun _ _ => .integerTooLarge token digits

/-! ## Expressions -/

/-- A part of the parser: it is handed something, and gives a value or a syntax error. -/
abbrev Job (ι α : Type) : Type := ReaderT ι Run (Except SyntaxError α)

mutual

/-- An expression that begins afresh, one level deeper. -/
def expression : Job Unit Handle := fun _ => do
  if ← descend then
    let result ← tier.run .lowest
    ascend
    return result
  else fail .tooDeep
partial_fixpoint

/-- An expression whose loosest operator is of the tier or tighter. -/
def tier : Job Tier Handle := fun loosest =>
  match loosest with
  | .logicalNot | .unary => prefixed.run loosest
  | .postfixChain => postfixed.run ()
  | _ => binary.run loosest
partial_fixpoint

/-- An expression at a tier of operators before an operand, which is one level deeper. -/
def prefixed : Job Tier Handle := fun loosest => do
  match ← eat? (acceptUnary loosest) with
  | none => tier.run loosest.tighter
  | some (op, token) =>
    if ← descend then
      let result ← prefixed.run loosest
      ascend
      match result with
      | .error error => return .error error
      | .ok operand => return .ok (← push (.unary op operand) token.span)
    else fail .tooDeep
partial_fixpoint

/-- An expression at a tier of operators between operands. -/
def binary : Job Tier Handle := fun common => do
  match ← tier.run common.tighter with
  | .error error => return .error error
  | .ok lhs => operators.run (common, lhs)
partial_fixpoint

/-- Any run of operators of the tier, with their operands, behind a first operand. -/
def operators : Job (Tier × Handle) Handle := fun (common, lhs) => do
  match ← eat? (acceptBinary common) with
  | none => return .ok lhs
  | some (op, token) =>
    match ← tier.run common.tighter with
    | .error error => return .error error
    | .ok rhs => operators.run (common, ← push (.binary op lhs rhs) token.span)
partial_fixpoint

/-- A primary with what continues it. -/
def postfixed : Job Unit Handle := fun _ => do
  match ← primary.run () with
  | .error error => return .error error
  | .ok target => links.run target
partial_fixpoint

/-- Any run of indices, calls and selectors after a target. -/
def links : Job Handle Handle := fun target => do
  match ← peek? acceptContinuation with
  | none => return .ok target
  | some continuation =>
    match ← link.run (target, continuation) with
    | .error error => return .error error
    | .ok next => links.run next
partial_fixpoint

/-- An index, a call or a selector after a target. -/
def link : Job (Handle × Continuation) Handle
  | (target, .index) => index.run target
  | (target, .call) => call.run target
  | (target, .selector) => selector target
partial_fixpoint

/-- An index after a target. -/
def index : Job Handle Handle := fun target => do
  let opener ← advance
  match ← expression.run () with
  | .error error => return .error error
  | .ok position =>
    match ← expectClosing .closeBracket opener with
    | .error error => return .error error
    | .ok () => return .ok (← push (.index target position) opener.span)
partial_fixpoint

/-- Arguments after a callee. They are stored as a list when all of them are complete. -/
def call : Job Handle Handle := fun callee => do
  let opener ← advance
  match ← given.run () with
  | .error error => return .error error
  | .ok handles =>
    match ← expectClosing .closeParen opener with
    | .error error => return .error error
    | .ok () =>
      let range ← pushList handles
      return .ok (← push (.call callee range) opener.span)
partial_fixpoint

/-- The arguments in front of a closing parenthesis, if there are any. -/
def given : Job Unit (List Handle) := fun _ => do
  match ← peek? (acceptMark .closeParen) with
  | some () => return .ok []
  | none => arguments.run []
partial_fixpoint

/-- One argument and those after it, behind the arguments before. -/
def arguments : Job (List Handle) (List Handle) := fun before => do
  match ← expression.run () with
  | .error error => return .error error
  | .ok argument =>
    match ← eat? (acceptMark .comma) with
    | none => return .ok (before ++ [argument])
    | some _ => arguments.run (before ++ [argument])
partial_fixpoint

/-- A literal, a name or an expression in parentheses. -/
def primary : Job Unit Handle := fun _ => do
  match (← get).current.map Token.lexeme with
  | some (.keyword .trueWord) => literal (.bool true)
  | some (.keyword .falseWord) => literal (.bool false)
  | some (.number digits) => integer digits
  | some (.string content) => textual content .str
  | some (.identifier name) => textual name .identifier
  | some (.mark .openParen) => group.run ()
  | _ => fail .expectedExpression
partial_fixpoint

/-- An expression in parentheses, which add no node. -/
def group : Job Unit Handle := fun _ => do
  let opener ← advance
  match ← expression.run () with
  | .error error => return .error error
  | .ok inner =>
    match ← expectClosing .closeParen opener with
    | .error error => return .error error
    | .ok () => return .ok inner
partial_fixpoint

end

/-- Expressions until there are no more tokens; each becomes a root. -/
def program : Job Unit Unit := fun _ => do
  match (← get).current with
  | none => return .ok ()
  | some _ =>
    match ← expression.run () with
    | .error error => return .error error
    | .ok root =>
      pushRoot root
      program.run ()
partial_fixpoint

/-- What a user of the parser asks for. -/
inductive Call where
  /-- One expression. -/
  | expression
  /-- All expressions up to the end. -/
  | program
  deriving DecidableEq, Repr

/-- Does what is asked for; one expression gives its handle. -/
def perform : Call → Run (Except SyntaxError (Option Handle))
  | .expression => return (← expression.run ()).map some
  | .program => return (← program ()).map fun _ => none

/-- Does one thing after the other, whether they succeed or not. -/
def performAll : List Call → Run (List (Except SyntaxError (Option Handle)))
  | [] => return []
  | call :: calls => return (← perform call) :: (← performAll calls)

end Machine

end Cascade
