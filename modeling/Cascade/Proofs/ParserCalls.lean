import Cascade.Proofs.AppendOnly
import Cascade.Proofs.MachineHalts
import Cascade.Proofs.SoundStore

/-!
# One call after the other

A parser may be asked for expressions and programs in any order, after errors too. Every call is
answered, at the level at which the parser began, and adds to the store at its ends only. The
invariant is that the store is sound and takes a node for every token that is left: no call stores
more nodes than it uses up tokens, so what a source may be asked for in all fits the store.
-/
namespace Cascade

open Machine (Does)
open Cascade.Expr (sizeAll)

namespace Session

/-- Parses what is asked for; one expression gives its handle. -/
def perform (session : Session) : Machine.Call → Except SyntaxError (Option Handle) × Session
  | .expression => (session.expression.1.map some, session.expression.2)
  | .program => (session.program.1.map fun _ => none, session.program.2)

/-- A program without tokens changes nothing. -/
theorem program_nil {session : Session} (empty : session.ahead = []) :
    session.program = (.ok (), session) := by
  have stays : session.moveOn [] = session := by
    rw [← empty]
    exact moveOn_self session
  rw [program, empty, parseProgram, stays]
  rfl

/-- What a program leaves of a session, told by where it got. -/
theorem program_eq (session : Session) :
    session.program =
      match (parseProgram session.context session.ahead).stop with
      | none => (.ok (), session.reach (parseProgram session.context session.ahead).rest
          (session.ast.insertRoots (parseProgram session.context session.ahead).roots))
      | some (failure, completed) => (.error failure.error,
          (session.reach (parseProgram session.context session.ahead).rest
            (session.ast.insertRoots (parseProgram session.context session.ahead).roots)).fail
              failure completed) := rfl

variable {session : Session} {rest : List Token}

/-- A program whose first expression is complete goes on behind it, once it is a root. -/
theorem program_of_done {root : Expr Span}
    (first : Succeeds .expression session.context.limit session.ahead [root] rest) :
    session.program = (session.reach rest
      ((session.ast.insert root).2.pushRoot (session.ast.insert root).1)).program := by
  have moved (one two : Ast) :
      (session.reach rest one).reach (parseProgram session.context rest).rest two =
        session.reach (parseProgram session.context rest).rest two :=
    reach_reach first.usesUp.suffix (parseProgram_usesUp session.context rest).suffix
  rw [program_eq, program_eq, parseProgram_done first]
  show _ = match (parseProgram session.context rest).stop with
    | none =>
      (Except.ok (), (session.reach rest _).reach (parseProgram session.context rest).rest _)
    | some (failure, completed) => (Except.error failure.error,
      ((session.reach rest _).reach (parseProgram session.context rest).rest _).fail failure
        completed)
  rw [moved]
  rfl

/-- A program whose first expression fails halts there. -/
theorem program_of_stuck {failure : Failure} {completed : List (Expr Span)}
    (more : session.ahead ≠ [])
    (fails : Fails session.context .expression session.context.limit session.ahead failure rest
      completed) :
    session.program = (.error failure.error,
      session.halt rest failure (session.ast.insertAll completed).2) := by
  rw [program, parseProgram_failed more fails]
  rfl

end Session

namespace Machine

/-- The machine parses an expression as a session does. -/
theorem does_expression (session : Session) :
    Does (expression.run ()) 0 session session.expression.1 session.expression.2 := by
  have follows := parseExpression_follows session.context session.context.limit session.ahead
  unfold Session.expression
  split
  · next expr rest parsed =>
    rw [parsed] at follows
    exact Succeeds.done follows 0 session rfl (Nat.zero_add _)
  · next failure rest completed stuck =>
    rw [stuck] at follows
    exact Fails.halts follows 0 session rfl rfl (Nat.zero_add _)

/-- The machine parses a program as a session does. -/
theorem does_program (session : Session) :
    Does (program ()) 0 session session.program.1 session.program.2 := by
  rw [program]
  refine Does.of_state fun machine here _ => ?_
  rw [current_eq_head?, here]
  cases there : session.ahead with
  | nil =>
    rw [Session.program_nil there]
    exact Does.pure _ 0 session
  | cons token tail =>
    have follows := parseExpression_follows session.context session.context.limit session.ahead
    have more : session.ahead ≠ [] := by rw [there]; exact List.cons_ne_nil token tail
    -- The recursion ends, as a root uses up at least one token.
    cases outcome : (parseExpression session.context session.context.limit session.ahead).1 with
    | done root rest =>
      rw [outcome] at follows
      have parsed := Succeeds.done follows 0 session rfl (Nat.zero_add _)
      obtain ⟨_, shorter, _, _⟩ := Succeeds.parses session.context follows
      have further : rest.length < session.ahead.length := shorter
      have later := does_program (session.reach rest
        ((session.ast.insert root).2.pushRoot (session.ast.insert root).1))
      rw [Session.program_of_done follows]
      exact Does.bind parsed ((Does.pushRoot _).bind later)
    | stuck failure rest completed =>
      rw [outcome] at follows
      have failed := Fails.halts follows 0 session rfl rfl (Nat.zero_add _)
      rw [Session.program_of_stuck more follows]
      exact Does.bind failed (Does.pure _ 0 _)
termination_by session.ahead.length

/-- The machine does what is asked for as a session does. -/
theorem does_perform (session : Session) (call : Call) :
    Does (perform call) 0 session (session.perform call).1 (session.perform call).2 := by
  cases call with
  | expression => exact (does_expression session).bind (Does.pure _ 0 _)
  | program => exact (does_program session).bind (Does.pure _ 0 _)

end Machine

namespace Session

/-- The store is sound and takes a node for every token that is left. -/
structure Sound (session : Session) : Prop where
  /-- What is stored refers only to what is there. -/
  store : session.ast.Sound
  /-- There is a place for every token. -/
  room : session.ast.Room session.ahead.length

/-- A session is sound before the first token of a source whose bytes are numbered in 32 bits. -/
theorem start_sound {source : Source} (limit : Nat) (small : source.content.utf8ByteSize < 2 ^ 32) :
    (start source limit).Sound where
  store := .empty
  room := .empty (Nat.lt_of_le_of_lt source.tokens_length small)

variable {session : Session}

/-- Parsing an expression keeps a session sound, and the handle that it gives was given out. -/
theorem Sound.expression (sound : session.Sound) :
    session.expression.2.Sound ∧ ∀ handle, session.expression.1 = .ok handle →
      ∃ place, session.expression.2.ast.ordinals[handle]? = some place := by
  have follows := parseExpression_follows session.context session.context.limit session.ahead
  unfold Session.expression
  split
  · next expr rest parsed =>
    rw [parsed] at follows
    have size : sizeAll [expr] + rest.length ≤ session.ahead.length := Succeeds.size follows
    have room := sound.room.shrink size
    obtain ⟨stored, left⟩ := sound.store.insertAll room
    refine ⟨⟨stored, left⟩, ?_⟩
    rintro _ ⟨⟩
    have enough : session.ast.Room expr.size := room.shrink (by simp only [sizeAll]; omega)
    obtain ⟨place, there, _⟩ := (Ast.insert_stored expr enough).2.before (Nat.le_refl _)
    exact ⟨place, there⟩
  · next failure rest completed stuck =>
    rw [stuck] at follows
    have size : sizeAll completed + rest.length ≤ session.ahead.length := Fails.size follows
    obtain ⟨stored, left⟩ := sound.store.insertAll (sound.room.shrink size)
    exact ⟨⟨stored, left⟩, nofun⟩

/-- Parsing a program keeps a session sound. -/
theorem Sound.program (sound : session.Sound) : session.program.2.Sound := by
  have size : sizeAll session.outcome.roots +
      (sizeAll session.outcome.completed + session.outcome.rest.length) ≤ session.ahead.length := by
    rw [← Nat.add_assoc]
    exact parseProgram_size session.context session.ahead
  obtain ⟨rooted, more⟩ := sound.store.insertRoots (sound.room.shrink size)
  obtain ⟨stored, left⟩ := rooted.insertAll more
  rw [← program_ast] at stored left
  rw [← program_ahead] at left
  exact ⟨stored, left⟩

/-- Parsing an expression adds to the store at its ends. -/
theorem expression_extends (session : Session) :
    session.ast.ExtendedBy session.expression.2.ast := by
  unfold Session.expression
  split
  · exact Ast.insert_extends _ _
  · exact Ast.insertAll_extends _ _

/-- Parsing a program adds to the store at its ends. -/
theorem program_extends (session : Session) : session.ast.ExtendedBy session.program.2.ast := by
  rw [program_ast]
  exact (Ast.insertRoots_extends _ _).trans (Ast.insertAll_extends _ _)

/-- Parsing an expression keeps the nesting limit. -/
theorem expression_limit (session : Session) :
    session.expression.2.context.limit = session.context.limit := by
  unfold Session.expression
  split <;> rfl

/-- Parsing a program keeps the nesting limit. -/
theorem program_limit (session : Session) :
    session.program.2.context.limit = session.context.limit := by
  rw [program_eq]
  split <;> rfl

/-- What a call leaves behind keeps the nesting limit and adds to the store at its ends. -/
theorem perform_extends (session : Session) (call : Machine.Call) :
    (session.perform call).2.context.limit = session.context.limit ∧
      session.ast.ExtendedBy (session.perform call).2.ast := by
  cases call with
  | expression => exact ⟨expression_limit session, expression_extends session⟩
  | program => exact ⟨program_limit session, program_extends session⟩

/-- A call keeps a session sound, and the handle that it gives was given out. -/
theorem Sound.perform (sound : session.Sound) (call : Machine.Call) :
    (session.perform call).2.Sound ∧ ∀ handle, (session.perform call).1 = .ok (some handle) →
      ∃ place, (session.perform call).2.ast.ordinals[handle]? = some place := by
  cases call with
  | expression =>
    obtain ⟨kept, given⟩ := sound.expression
    refine ⟨kept, fun handle answered => ?_⟩
    have reply : session.expression.1.map some = .ok (some handle) := answered
    cases result : session.expression.1 with
    | error error => rw [result] at reply; cases reply
    | ok found =>
      rw [result] at reply
      cases reply
      exact given handle result
  | program =>
    refine ⟨sound.program, fun handle answered => ?_⟩
    have reply : (session.program.1.map fun _ => none) = .ok (some handle) := answered
    cases result : session.program.1 with
    | error error => rw [result] at reply; cases reply
    | ok _ => rw [result] at reply; cases reply

/-- Does what is asked for, one call after the other. -/
def performAll (session : Session) :
    List Machine.Call → List (Except SyntaxError (Option Handle)) × Session
  | [] => ([], session)
  | call :: calls =>
    let (reply, later) := session.perform call
    let (replies, final) := later.performAll calls
    (reply :: replies, final)

/-- Calls keep the nesting limit. -/
theorem performAll_limit (session : Session) (calls : List Machine.Call) :
    (session.performAll calls).2.context.limit = session.context.limit := by
  induction calls generalizing session with
  | nil => rfl
  | cons call calls ih => exact (ih _).trans (session.perform_extends call).1

/-- Calls keep a session sound. -/
theorem Sound.performAll (sound : session.Sound) (calls : List Machine.Call) :
    (session.performAll calls).2.Sound := by
  induction calls generalizing session with
  | nil => exact sound
  | cons call calls ih => exact ih (sound.perform call).1

end Session

/-- The machine answers one call after the other as a session does. -/
theorem Machine.does_performAll (session : Session) (calls : List Call) :
    Does (performAll calls) 0 session (session.performAll calls).1
      (session.performAll calls).2 := by
  induction calls generalizing session with
  | nil => exact Does.pure _ 0 session
  | cons call calls ih => exact (does_perform session call).bind ((ih _).bind (Does.pure _ 0 _))

/-- Whatever a parser was asked for before, errors included, it answers the next call: it neither
breaks down nor goes on for ever, and it answers what a session answers. It is at the outermost
level before and after the call, and the store begins with what was stored before. In a source whose
bytes are numbered in 32 bits all that is stored refers only to what is there, so whatever is asked
of a handle is answered. -/
theorem parser_stays_sound (source : Source) (limit : Nat) (calls : List Machine.Call)
    (call : Machine.Call) :
    ∃ replies before reply after,
      ((Machine.performAll calls).run (.start source limit)).run = some (.ok (replies, before)) ∧
      (Session.start source limit).performAll calls = (replies, before.session) ∧
      ((Machine.perform call).run before).run = some (.ok (reply, after)) ∧
      before.session.perform call = (reply, after.session) ∧
      (before.depth = 0 ∧ before.limit = limit) ∧ (after.depth = 0 ∧ after.limit = limit) ∧
      before.ast.ExtendedBy after.ast ∧
      (source.content.utf8ByteSize < 2 ^ 32 → after.ast.Sound ∧
        (∀ handle, reply = .ok (some handle) → ∃ place, after.ast.ordinals[handle]? = some place) ∧
        ∀ handle place, after.ast.ordinals[handle]? = some place → after.ast.Usable handle) := by
  have first : (Machine.start source limit).session = Session.start source limit :=
    Machine.start_session source limit
  obtain ⟨before, answered, stands, level⟩ :=
    Machine.does_performAll (.start source limit) calls _ first (Machine.start_depth source limit)
  obtain ⟨after, done, there, same⟩ := Machine.does_perform before.session call before rfl level
  have kept : before.session.context.limit = limit := by
    rw [stands, Session.performAll_limit]
    rfl
  have added := before.session.perform_extends call
  rw [← there] at added
  refine ⟨_, before, _, after, answered, Prod.ext rfl stands.symm, done, Prod.ext rfl there.symm,
    ⟨level, kept⟩, ⟨same, added.1.trans kept⟩, added.2, ?_⟩
  intro small
  have early := (Session.start_sound limit small).performAll calls
  rw [← stands] at early
  obtain ⟨sound, given⟩ := early.perform call
  rw [← there] at sound given
  exact ⟨sound.store, given, fun handle place found => sound.store.usable found⟩

/-- An index that nothing closes is an error; the expression behind it is parsed all the same, and
then the rest as a program. -/
theorem parser_stays_sound_after_unclosed_index :
    ∃ replies before reply after,
      ((Machine.performAll [.expression, .expression]).run
        (.start ⟨0, "open.sb", "f(x, 1)[y z.w \"s\""⟩ 8)).run = some (.ok (replies, before)) ∧
      replies.map (·.toOption.isSome) = [false, true] ∧
      ((Machine.perform .program).run before).run = some (.ok (reply, after)) ∧
      after.depth = 0 ∧ after.ast.Sound := by
  obtain ⟨replies, before, reply, after, answered, parsed, done, _, _, level, _, sound⟩ :=
    parser_stays_sound ⟨0, "open.sb", "f(x, 1)[y z.w \"s\""⟩ 8 [.expression, .expression] .program
  have shown : ((Session.start ⟨0, "open.sb", "f(x, 1)[y z.w \"s\""⟩ 8).performAll
      [.expression, .expression]).1.map (·.toOption.isSome) = [false, true] := by decide +kernel
  rw [parsed] at shown
  have small : "f(x, 1)[y z.w \"s\"".utf8ByteSize < 2 ^ 32 := by decide
  exact ⟨replies, before, reply, after, answered, shown, done, level.1, (sound small).1⟩

end Cascade
