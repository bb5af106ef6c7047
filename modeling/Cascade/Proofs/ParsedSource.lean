import Cascade.Session
import Cascade.Proofs.ParserSize

/-!
# What parsing a source leaves behind

A session inserts the roots of its program one behind the other and, if the program stopped, what
was complete by then behind them. In a source whose bytes are numbered in 32 bits all of it fits,
and everything is found where it was put.
-/
namespace Cascade

open Cascade.Expr (sizeAll)

/-- The empty store takes as much as 32 bits number. -/
theorem Ast.Room.empty {spare : Nat} (few : spare < 2 ^ 32) : Ast.empty.Room spare where
  sound := ⟨[], .empty⟩
  nodes := by rw [Ast.Records.empty.nodeCount]; simpa using few
  symbols := by
    have none : Ast.empty.symbols.size = 0 := rfl
    rwa [none, Nat.zero_add]
  lists := by
    have none : Ast.empty.lists.size = 0 := rfl
    rwa [none, Nat.zero_add]

/-- The program that a session finds in the tokens it has left. -/
def Session.outcome (session : Session) : ProgramOutcome :=
  parseProgram session.context session.ahead

/-- A session succeeds exactly if its program uses up the tokens. -/
theorem Session.program_ok (session : Session) :
    session.program.1 = .ok () ↔ session.outcome.stop = none := by
  cases stop : (parseProgram session.context session.ahead).stop with
  | none => simp only [program, outcome, stop]
  | some found => simp only [program, outcome, stop, reduceCtorEq]

/-- A session fails with the error that stopped its program. -/
theorem Session.program_error {session : Session} {error : SyntaxError}
    (stopped : session.program.1 = .error error) :
    ∃ failure completed, session.outcome.stop = some (failure, completed) ∧
      failure.error = error := by
  cases stop : (parseProgram session.context session.ahead).stop with
  | none =>
    simp only [program, stop] at stopped
    cases stopped
  | some found =>
    simp only [program, stop] at stopped
    exact ⟨found.1, found.2, stop, Except.error.inj stopped⟩

/-- A session is left with the tokens that its program has left. -/
theorem Session.program_ahead (session : Session) :
    session.program.2.ahead = session.outcome.rest := by
  cases stop : (parseProgram session.context session.ahead).stop with
  | none => simp only [program, outcome, stop, moveOn]
  | some found => simp only [program, outcome, stop, moveOn, fail]

/-- A session stores the roots of its program and behind them what else was complete. -/
theorem Session.program_ast (session : Session) :
    session.program.2.ast =
      ((session.ast.insertRoots session.outcome.roots).insertAll session.outcome.completed).2 := by
  cases stop : (parseProgram session.context session.ahead).stop with
  | none => simp only [program, outcome, ProgramOutcome.completed, stop, moveOn, Ast.insertAll]
  | some found => simp only [program, outcome, ProgramOutcome.completed, stop, moveOn, fail]

/-- The program of a source. -/
def Source.outcome (source : Source) (limit : Nat) : ProgramOutcome :=
  (Session.start source limit).outcome

/-- The store that parsing a source leaves behind. -/
def Source.ast (source : Source) (limit : Nat) : Ast :=
  (Session.start source limit).program.2.ast

/-- The trees of a source have so few nodes that 32 bits number them. -/
theorem Source.size_lt (source : Source) (limit : Nat)
    (small : source.content.utf8ByteSize < 2 ^ 32) :
    sizeAll (source.outcome limit).roots + sizeAll (source.outcome limit).completed < 2 ^ 32 := by
  have sized : sizeAll (source.outcome limit).roots + sizeAll (source.outcome limit).completed ≤
      source.tokenStream.tokens.length :=
    Nat.le_trans (Nat.le_add_right ..) (parseProgram_size _ _)
  exact Nat.lt_of_le_of_lt (Nat.le_trans sized source.tokens_length) small

/-- The roots of a source are stored one behind the other at the start of the history, and nothing
else is but what was complete when the parse stopped. -/
theorem Source.ast_stored (source : Source) (limit : Nat)
    (small : source.content.utf8ByteSize < 2 ^ 32) :
    Ast.empty.Step (source.ast limit)
        (sizeAll (source.outcome limit).roots + sizeAll (source.outcome limit).completed) 0 ∧
      (source.ast limit).StoredAll (source.ast limit).roots.toList 0
        (source.outcome limit).roots := by
  have room := Ast.Room.empty (source.size_lt limit small)
  have ast : source.ast limit = ((Ast.empty.insertRoots (source.outcome limit).roots).insertAll
      (source.outcome limit).completed).2 := Session.program_ast _
  obtain ⟨first, handles, roots, stored⟩ :=
    Ast.insertRoots_stored _ (room.shrink (Nat.le_add_right ..))
  obtain ⟨others, _⟩ := Ast.insertAll_stored _ (first.room room)
  rw [ast]
  refine ⟨(first.trans others).spend (Nat.zero_le _), ?_⟩
  rw [Ast.insertAll_roots, roots]
  exact others.grows.storedAll stored

/-- The store of a source has a node for every node of its trees. -/
theorem Source.nodeCount (source : Source) (limit : Nat)
    (small : source.content.utf8ByteSize < 2 ^ 32) :
    (source.ast limit).nodeCount =
      sizeAll (source.outcome limit).roots + sizeAll (source.outcome limit).completed := by
  have none : Ast.empty.nodeCount = 0 := rfl
  rw [(source.ast_stored limit small).1.nodes, none, Nat.zero_add]

/-- A tree of a source has no more nodes than reading and walking its store go deep. -/
theorem Source.size_le_depthLimit {source : Source} {limit : Nat} {expr : Expr Span}
    (small : source.content.utf8ByteSize < 2 ^ 32)
    (member : expr ∈ (source.outcome limit).roots) :
    expr.size ≤ (source.ast limit).depthLimit := by
  have one := Expr.size_le_sizeAll member
  have many : (source.ast limit).nodeCount ≤
      NodeKind.all.length * (source.ast limit).nodeCount :=
    Nat.le_mul_of_pos_left _ (by decide)
  rw [source.nodeCount limit small] at many
  rw [Ast.depthLimit, source.nodeCount limit small]
  omega

end Cascade
