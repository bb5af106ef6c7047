import Cascade.Proofs.AppendOnly
import Cascade.Proofs.Completion
import Cascade.Proofs.CutSource
import Cascade.Proofs.Reports

/-!
# A failed parse keeps what was good

A parse that fails has parsed some roots before the expression in which it fails. The source cut
before that expression is parsed without a failure and gives the same roots, and whatever it stores
is what the failed parse begins its tables with: the parts of the last expression that were complete
stand behind it.
-/
namespace Cascade

variable {context : ParseContext} {tokens : List Token} {failure : Failure}
  {completed : List (Expr Span)}

namespace Session

/-- The session after so many expressions were asked for, one by one. -/
def afterExpressions (session : Session) : Nat → Session
  | 0 => session
  | count + 1 => session.expression.2.afterExpressions count

/-- An expression that is parsed leaves the session before the tokens behind it. -/
theorem expression_done {session : Session} {expr : Expr Span} {rest : List Token}
    (parsed : (parseExpression session.context session.context.limit session.ahead).1 =
      .done expr rest) :
    session.expression.2.context = session.context ∧ session.expression.2.ahead = rest := by
  simp only [expression, parsed, moveOn, and_self]

/-- An expression that cannot be parsed is an error. -/
theorem expression_stuck {session : Session} {rest : List Token}
    (stuck : (parseExpression session.context session.context.limit session.ahead).1 =
      .stuck failure rest completed) :
    session.expression.1 = .error failure.error := by
  simp only [expression, stuck]

/-- The tokens before the expression in which a program stops are the program of its roots. The
session that asks for as many expressions stands before that one, and then fails as the program
does. -/
theorem before_failure {session : Session}
    (stopped : session.outcome.stop = some (failure, completed)) :
    ∃ used, Program session.context.limit used session.outcome.roots ∧
      session.ahead = used ++ (session.afterExpressions session.outcome.roots.length).ahead ∧
      (session.afterExpressions session.outcome.roots.length).ahead ≠ [] ∧
      (session.afterExpressions session.outcome.roots.length).expression.1 =
        .error failure.error := by
  unfold outcome at stopped ⊢
  generalize there : session.context = context at stopped ⊢
  generalize ahead : session.ahead = tokens at stopped ⊢
  revert session
  fun_induction parseProgram context tokens with
  | case1 => cases stopped
  | case2 token tail failed rest others _ stuck =>
    intro session there ahead
    cases stopped
    have same : (parseExpression session.context session.context.limit session.ahead).1 =
        .stuck failure rest completed := by rw [there, ahead, stuck]
    have more : session.ahead ≠ [] := by rw [ahead]; exact List.cons_ne_nil token tail
    exact ⟨[], .nil, ahead.symm, more, expression_stuck same⟩
  | case3 token tail root rest shorter parsed later ih =>
    intro session there ahead
    have same : (parseExpression session.context session.context.limit session.ahead).1 =
        .done root rest := by rw [there, ahead, parsed]
    obtain ⟨kept, behind⟩ := expression_done same
    obtain ⟨used, program, split, more, fails⟩ := ih stopped (kept.trans there) behind
    have follows := parseExpression_follows context context.limit (token :: tail)
    rw [parsed] at follows
    obtain ⟨written, whole, writing, closed⟩ := Succeeds.sound follows
    -- What ends the root is the next root or, behind the last one, the end of the tokens.
    have ended : Closed .lowest used := by
      cases used with
      | nil => exact .nil _
      | cons next used =>
        rw [split] at closed
        exact closed.of_head? rfl
    refine ⟨written ++ used, .cons writing ended program, ?_, more, fails⟩
    rw [List.append_assoc, whole]
    exact congrArg (written ++ ·) split

end Session

/-- There is a root for every expression inserted as one. -/
theorem Ast.insertRoots_size (ast : Ast) (exprs : List (Expr Span)) :
    (ast.insertRoots exprs).roots.size = ast.roots.size + exprs.length := by
  induction exprs generalizing ast with
  | nil => rfl
  | cons expr exprs ih =>
    have rooted : ((ast.insert expr).2.pushRoot (ast.insert expr).1).roots.size =
        ast.roots.size + 1 := by
      simp only [pushRoot, Array.size_push, insert_roots]
    have others := ih ((ast.insert expr).2.pushRoot (ast.insert expr).1)
    rw [rooted] at others
    rw [List.length_cons, ← Nat.add_assoc, Nat.add_right_comm]
    exact others

namespace Source

/-- The session of a source before the expression that comes after those that became roots. -/
def afterRoots (source : Source) (limit : Nat) : Session :=
  (Session.start source limit).afterExpressions (source.ast limit).roots.size

/-- A source has a root for every root of its program. -/
theorem roots_size (source : Source) (limit : Nat) :
    (source.ast limit).roots.size = (source.outcome limit).roots.length := by
  have none : Ast.empty.roots.size = 0 := rfl
  have ast : source.ast limit = _ := Session.program_ast _
  rw [ast, Ast.insertAll_roots, Ast.insertRoots_size, outcome]
  exact (congrArg (· + _) none).trans (Nat.zero_add _)

/-- The store of a source that is parsed has its roots and nothing else. -/
theorem ast_of_ok {source : Source} {limit : Nat} {roots : List (Expr Span)}
    (program : Program limit source.tokenStream.tokens roots) :
    source.ast limit = Ast.empty.insertRoots roots := by
  obtain ⟨success, same⟩ := (source.program_iff limit roots).mp program
  have stop : (source.outcome limit).stop = none := (Session.program_ok _).mp success
  have ast : source.ast limit = _ := Session.program_ast _
  have nothing : (source.outcome limit).completed = [] := by
    rw [ProgramOutcome.completed, stop]
  have roots : (Session.start source limit).outcome.roots = roots := same
  have completed : (Session.start source limit).outcome.completed = [] := nothing
  rw [ast, roots, completed]
  rfl

end Source

/-- A parse that fails goes wrong in the expression after those that became roots. Cut before the
first token of that expression, the source is parsed without a report, its roots are the same
handles, and everything it stores is where the failed parse begins. -/
theorem failed_parse_extends_good_prefix (source : Source) (limit id : Nat) (error : SyntaxError)
    (failed : (Session.start source limit).program.1 = .error error) :
    ∃ token, (source.afterRoots limit).ahead.head? = some token ∧
      (source.afterRoots limit).expression.1 = .error error ∧
      (Session.start (source.upTo id token.start) limit).program.1 = .ok () ∧
      (Session.start (source.upTo id token.start) limit).program.2.log.entries = [] ∧
      ((source.upTo id token.start).ast limit).roots = (source.ast limit).roots ∧
      (∃ nodes, ((source.upTo id token.start).ast limit).arena.Holds nodes) ∧
      ((source.upTo id token.start).ast limit).ExtendedBy (source.ast limit) := by
  obtain ⟨failure, completed, stopped, rfl⟩ := Session.program_error failed
  obtain ⟨used, program, split, more, fails⟩ := Session.before_failure stopped
  have counted : (Session.start source limit).outcome.roots.length =
      (source.ast limit).roots.size := (source.roots_size limit).symm
  rw [counted] at split more fails
  obtain ⟨token, later, begun⟩ := List.exists_cons_of_ne_nil more
  rw [begun] at split
  have tokens : (source.upTo id token.start).tokenStream.tokens = used :=
    source.tokens_upTo id split
  have good : Program limit (source.upTo id token.start).tokenStream.tokens
      (Session.start source limit).outcome.roots := by
    rw [tokens]
    exact program
  have success := ((Source.program_iff _ limit _).mp good).1
  have ast : source.ast limit = ((Ast.empty.insertRoots (Session.start source limit).outcome.roots)
      |>.insertAll (Session.start source limit).outcome.completed).2 := Session.program_ast _
  have stored := Source.ast_of_ok good
  refine ⟨token, ?_, fails, success, Source.log_of_ok success, ?_, ?_, ?_⟩
  · rw [Source.afterRoots, begun, List.head?_cons]
  · rw [stored, ast, Ast.insertAll_roots]
  · rw [stored]
    exact (Ast.insertRoots_extends _ _).holds
  · rw [stored, ast]
    exact Ast.insertAll_extends _ _

/-- The call before an index that is not closed is kept. -/
theorem unclosed_index_keeps_call :
    (Session.start ⟨0, "open.sb", "f(x) // call\nf[x 2"⟩ 8).program.1 =
      .error (.unclosedDelimiter ⟨2, 2⟩ "[") ∧
    ∃ token, ((⟨0, "open.sb", "f(x) // call\nf[x 2"⟩ : Source).afterRoots 8).ahead.head? =
        some token ∧
      (Session.start ((⟨0, "open.sb", "f(x) // call\nf[x 2"⟩ : Source).upTo 1 token.start)
        8).program.1 = .ok () ∧
      (((⟨0, "open.sb", "f(x) // call\nf[x 2"⟩ : Source).upTo 1 token.start).ast 8).ExtendedBy
        ((⟨0, "open.sb", "f(x) // call\nf[x 2"⟩ : Source).ast 8) := by
  have failed : (Session.start ⟨0, "open.sb", "f(x) // call\nf[x 2"⟩ 8).program.1 =
      .error (.unclosedDelimiter ⟨2, 2⟩ "[") := by decide +kernel
  obtain ⟨token, first, _, success, _, _, _, extended⟩ :=
    failed_parse_extends_good_prefix ⟨0, "open.sb", "f(x) // call\nf[x 2"⟩ 8 1 _ failed
  exact ⟨failed, token, first, success, extended⟩

end Cascade
