import Cascade.Ast.Walk
import Cascade.Diagnostic.Log
import Cascade.Expr.Parser

/-!
# Parsing a source

A session is a parse under way: the tokens not yet used up, what has been reported so far and what
has been stored so far. The session looks one token ahead, and a malformed token is reported when
it comes into view. A failed step leaves the session where the parse stopped, with every expression
that was complete by then stored, so that a caller may look at them or go on.
-/
namespace Cascade

/-- A parse under way. -/
structure Session where
  /-- The nesting limit and the position at which the tokens end. -/
  context : ParseContext
  /-- The tokens not yet used up; the first of them is in view. -/
  ahead : List Token
  /-- What has been reported. -/
  log : DiagnosticLog
  /-- What has been stored. -/
  ast : Ast

namespace Session

/-- A session before the first token of a source, which is in view. -/
def start (source : Source) (limit : Nat) : Session :=
  let stream := source.tokenStream
  { context := ⟨limit, stream.stop⟩
    ahead := stream.tokens
    log := DiagnosticLog.empty.reportAll ((stream.tokens.take 1).filterMap Token.problem?)
    ast := .empty }

/-- The tokens that come into view while the tokens ahead are used up down to the rest. -/
def cameIntoView (ahead rest : List Token) : List Token :=
  (ahead.drop 1).take (ahead.length - rest.length)

/-- Moves on to the rest of the tokens and reports the malformed ones that come into view. -/
def moveOn (session : Session) (rest : List Token) : Session :=
  { session with
    ahead := rest
    log := session.log.reportAll ((cameIntoView session.ahead rest).filterMap Token.problem?) }

/-- Reports a failure and stores what was complete before it. -/
def fail (session : Session) (failure : Failure) (completed : List (Expr Span)) : Session :=
  { session with
    log := session.log.reportAll failure.reports
    ast := (session.ast.insertAll completed).2 }

/-- Parses one expression and stores it; it does not become a root. -/
def expression (session : Session) : Except SyntaxError Handle × Session :=
  match (parseExpression session.context session.context.limit session.ahead).1 with
  | .done expr rest =>
    let (handle, ast) := session.ast.insert expr
    (.ok handle, { session.moveOn rest with ast })
  | .stuck failure rest completed =>
    (.error failure.error, (session.moveOn rest).fail failure completed)

/-- Parses and stores expressions until the tokens are used up; each becomes a root. -/
def program (session : Session) : Except SyntaxError Unit × Session :=
  let outcome := parseProgram session.context session.ahead
  let parsed := { session.moveOn outcome.rest with ast := session.ast.insertRoots outcome.roots }
  match outcome.stop with
  | none => (.ok (), parsed)
  | some (failure, completed) => (.error failure.error, parsed.fail failure completed)

end Session

/-- The stored expressions of a source, or the error that stopped its parse. -/
def Source.parse (source : Source) (limit : Nat) : Except SyntaxError Ast :=
  match (Session.start source limit).program with
  | (.ok (), session) => .ok session.ast
  | (.error error, _) => .error error

end Cascade
