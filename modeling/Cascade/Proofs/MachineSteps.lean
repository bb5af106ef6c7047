import Cascade.Machine
import Cascade.Proofs.Lexer
import Cascade.Proofs.ParserRules

/-!
# Steps of the machine

A machine stands where a session stands: the session has the tokens that the machine has yet to see,
and otherwise the same log and store. What a step of the machine does is said about sessions
(`Machine.Does`), so steps are put together without looking at the machine again, and a step that is
said to do something neither breaks down nor goes on for ever. Every such step leaves the machine as
deeply nested as it was.
-/
namespace Cascade

variable {α β : Type}

namespace Session

/-- The session before the rest of its tokens, with another store. -/
def reach (session : Session) (rest : List Token) (ast : Ast) : Session :=
  { session.moveOn rest with ast }

/-- The session before the rest of its tokens, where the failure was reported, with another
store. -/
def halt (session : Session) (rest : List Token) (failure : Failure) (ast : Ast) : Session :=
  { session.moveOn rest with
    log := (session.moveOn rest).log.reportAll failure.reports
    ast }

/-- Reporting nothing leaves a log as it is. -/
theorem reportAll_nil (log : DiagnosticLog) : log.reportAll [] = log := by
  rw [DiagnosticLog.reportAll, List.append_nil]

/-- No token comes into view when none is used up. -/
theorem moveOn_self (session : Session) : session.moveOn session.ahead = session := by
  have none : cameIntoView session.ahead session.ahead = [] := by
    rw [cameIntoView, Nat.sub_self, List.take_zero]
  simp only [moveOn, none, List.filterMap_nil, reportAll_nil]

variable {session : Session} {middle rest : List Token} {one two : Ast} {failure : Failure}

/-- A session that does not move on stays. -/
theorem reach_self (session : Session) : session.reach session.ahead session.ast = session := by
  rw [reach, moveOn_self]

/-- What comes into view comes stretch by stretch. -/
theorem cameIntoView_trans {tokens : List Token} (early : middle <:+ tokens)
    (late : rest <:+ middle) :
    cameIntoView tokens middle ++ cameIntoView middle rest = cameIntoView tokens rest := by
  obtain ⟨behind, rfl⟩ := late
  obtain ⟨used, rfl⟩ := early
  have first : (used ++ (behind ++ rest)).length - (behind ++ rest).length = used.length := by
    rw [List.length_append, Nat.add_sub_cancel]
  have second : (behind ++ rest).length - rest.length = behind.length := by
    rw [List.length_append, Nat.add_sub_cancel]
  have whole : (used ++ (behind ++ rest)).length - rest.length = used.length + behind.length := by
    simp only [List.length_append]
    omega
  have dropped :
      (behind ++ rest).drop 1 = ((used ++ (behind ++ rest)).drop 1).drop used.length := by
    rw [List.drop_drop, Nat.add_comm, ← List.drop_drop, List.drop_left]
  rw [cameIntoView, cameIntoView, cameIntoView, first, second, whole, List.take_add, dropped]

/-- Moving on twice is moving on, whatever is stored in between. -/
theorem reach_reach (early : middle <:+ session.ahead) (late : rest <:+ middle) :
    (session.reach middle one).reach rest two = session.reach rest two := by
  have seen := cameIntoView_trans early late
  simp only [reach, moveOn, ← seen, List.filterMap_append, DiagnosticLog.reportAll,
    List.append_assoc]

/-- A session that moves on before it halts halts as it would have. -/
theorem reach_halt (early : middle <:+ session.ahead) (late : rest <:+ middle) :
    (session.reach middle one).halt rest failure two = session.halt rest failure two := by
  have seen := cameIntoView_trans early late
  simp only [reach, halt, moveOn, ← seen, List.filterMap_append, DiagnosticLog.reportAll,
    List.append_assoc]

end Session

namespace Machine

/-- The tokens from the one in view on. -/
def ahead (machine : Machine) : List Token :=
  match machine.current with
  | none => []
  | some token => token :: (Lexer.run machine.cursor).1

/-- The position at which the tokens end. -/
def stop (machine : Machine) : Position :=
  match machine.current with
  | none => machine.cursor.position
  | some _ => (Lexer.run machine.cursor).2.position

/-- The session that stands where the machine stands. -/
def session (machine : Machine) : Session :=
  ⟨⟨machine.limit, machine.stop⟩, machine.ahead, machine.log, machine.ast⟩

/-- The token in view is the first of those ahead. -/
theorem current_eq_head? (machine : Machine) : machine.current = machine.session.ahead.head? := by
  unfold session ahead
  cases machine.current <;> rfl

/-- What is in view is the lexeme of the first token ahead. -/
theorem lexeme_in_view {machine : Machine} {token : Token} {rest : List Token} {lexeme : Lexeme}
    (first : machine.session.ahead = token :: rest) (written : token.lexeme = lexeme) :
    machine.current.map Token.lexeme = some lexeme := by
  rw [current_eq_head?, first, List.head?_cons, Option.map_some, written]

/-- Where a machine is after it looked at the next token. -/
theorem fetch_session (machine : Machine) :
    machine.fetch.session =
      ⟨⟨machine.limit, (Lexer.run machine.cursor).2.position⟩, (Lexer.run machine.cursor).1,
        machine.log.reportAll (((Lexer.run machine.cursor).1.take 1).filterMap Token.problem?),
        machine.ast⟩ := by
  have run := Lexer.run_eq machine.cursor
  cases step : Lexer.next? machine.cursor with
  | none =>
    rw [step] at run
    have fetched : machine.fetch =
        { machine with cursor := Lexer.skipTrivia machine.cursor, current := none } := by
      rw [fetch, step]
    rw [fetched, run]
    simp only [session, stop, ahead, List.take_nil, List.filterMap_nil, Session.reportAll_nil]
  | some found =>
    obtain ⟨token, later⟩ := found
    rw [step] at run
    have fetched : machine.fetch =
        { machine with
          cursor := later
          current := some token
          log := machine.log.reportAll token.problem?.toList } := by
      rw [fetch, step]
    rw [fetched, run]
    have problem : (((token :: (Lexer.run later).1).take 1).filterMap Token.problem?) =
        token.problem?.toList := by
      rw [List.take_succ_cons, List.take_zero]
      cases found : token.problem? with
      | none => rw [List.filterMap_cons_none found]; rfl
      | some report => rw [List.filterMap_cons_some found]; rfl
    rw [problem]
    rfl

/-- A machine starts where a session starts. -/
theorem start_session (source : Source) (limit : Nat) :
    (start source limit).session = Session.start source limit := by
  rw [start, fetch_session]
  rfl

/-- A machine starts at the outermost level. -/
theorem start_depth (source : Source) (limit : Nat) : (start source limit).depth = 0 := by
  unfold start fetch
  split <;> rfl

/-- Looking at the next token changes no level. -/
theorem fetch_depth (machine : Machine) : machine.fetch.depth = machine.depth := by
  unfold fetch
  split <;> rfl

/-- On every machine that stands where the session stands, so deeply nested, the step gives the
value; the machine then stands where the later session stands, as deeply nested as before. -/
def Does (step : Run α) (depth : Nat) (before : Session) (value : α) (after : Session) : Prop :=
  ∀ machine : Machine, machine.session = before → machine.depth = depth →
    ∃ later, (step.run machine).run = some (.ok (value, later)) ∧ later.session = after ∧
      later.depth = depth

/-- Running a step and another that depends on its value. -/
theorem run_bind {step : Run α} {next : α → Run β} {machine later : Machine} {value : α}
    (ran : (step.run machine).run = some (.ok (value, later))) :
    ((step >>= next).run machine).run = ((next value).run later).run := by
  rw [StateT.run_bind, ExceptT.run_bind, ran]
  rfl

/-- A level deeper within the limit. -/
theorem descend_within {machine : Machine} (within : machine.depth < machine.limit) :
    (descend.run machine).run = some (.ok (true, { machine with depth := machine.depth + 1 })) := by
  have ran : (descend.run machine).run =
      ((if machine.depth + 1 > machine.limit then
        set { machine with depth := machine.depth + 1 - 1 } >>= fun _ => pure false
        else pure true : Run Bool).run { machine with depth := machine.depth + 1 }).run := rfl
  rw [ran, if_neg (Nat.not_lt.mpr within)]
  rfl

/-- The limit is reached, and the machine is as it was. -/
theorem descend_beyond {machine : Machine} (reached : machine.limit ≤ machine.depth) :
    (descend.run machine).run = some (.ok (false, machine)) := by
  have ran : (descend.run machine).run =
      ((if machine.depth + 1 > machine.limit then
        set { machine with depth := machine.depth + 1 - 1 } >>= fun _ => pure false
        else pure true : Run Bool).run { machine with depth := machine.depth + 1 }).run := rfl
  rw [ran, if_pos (Nat.lt_succ_of_le reached)]
  rfl

variable {step : Run α} {next : α → Run β} {depth : Nat} {session middle after : Session}
  {value : α} {result : β} {token : Token} {rest : List Token} {ast : Ast}

namespace Does

/-- A value is given without doing anything. -/
theorem pure (value : α) (depth : Nat) (session : Session) :
    Does (pure value) depth session value session :=
  fun machine here deep => ⟨machine, rfl, here, deep⟩

/-- Steps follow one another. -/
theorem bind (first : Does step depth session value middle)
    (second : Does (next value) depth middle result after) :
    Does (step >>= next) depth session result after := by
  intro machine here deep
  obtain ⟨later, ran, there, same⟩ := first machine here deep
  obtain ⟨final, done, stands, level⟩ := second later there same
  exact ⟨final, (run_bind ran).trans done, stands, level⟩

/-- What is done with the state itself may depend on what a session does not show. -/
theorem of_state {next : Machine → Run β}
    (each : ∀ machine : Machine, machine.session = session → machine.depth = depth →
      Does (next machine) depth session result after) :
    Does (get >>= next) depth session result after := by
  intro machine here deep
  have ran : ((get : Run Machine).run machine).run = some (.ok (machine, machine)) := rfl
  obtain ⟨later, done, there, level⟩ := each machine here deep machine here deep
  exact ⟨later, (run_bind ran).trans done, there, level⟩

/-- The store is changed and nothing else. -/
theorem store (change : Ast → α × Ast) (depth : Nat) (session : Session) :
    Does (modifyGet fun machine =>
      ((change machine.ast).1, { machine with ast := (change machine.ast).2 })) depth session
      (change session.ast).1 { session with ast := (change session.ast).2 } := by
  intro machine here deep
  subst here
  exact ⟨{ machine with ast := (change machine.ast).2 }, rfl, rfl, deep⟩

/-- A node is pushed. -/
theorem push (node : Node) (span : Span) :
    Does (Machine.push node span) depth (session.reach rest ast) (ast.push node span).1
      (session.reach rest (ast.push node span).2) :=
  store (·.push node span) depth (session.reach rest ast)

/-- A text is interned. -/
theorem intern (text : String) :
    Does (Machine.intern text) depth (session.reach rest ast) (ast.intern text).1
      (session.reach rest (ast.intern text).2) :=
  store (·.intern text) depth (session.reach rest ast)

/-- A list is pushed. -/
theorem pushList (handles : List Handle) :
    Does (Machine.pushList handles) depth (session.reach rest ast) (ast.pushList handles).1
      (session.reach rest (ast.pushList handles).2) :=
  store (·.pushList handles) depth (session.reach rest ast)

/-- A root is pushed. -/
theorem pushRoot (handle : Handle) :
    Does (Machine.pushRoot handle) depth (session.reach rest ast) ()
      (session.reach rest (ast.pushRoot handle)) :=
  store (fun ast => ((), ast.pushRoot handle)) depth (session.reach rest ast)

/-- The token in view is taken. -/
theorem advance (first : session.ahead = token :: rest) :
    Does Machine.advance depth session token (session.reach rest session.ast) := by
  intro machine here deep
  subst here
  have current : machine.current = some token := by
    rw [current_eq_head?, first, List.head?_cons]
  have behind : (Lexer.run machine.cursor).1 = rest := by
    have same : machine.session.ahead = token :: (Lexer.run machine.cursor).1 := by
      simp only [Machine.session, Machine.ahead, current]
    exact (List.cons.inj (same.symm.trans first)).2
  have stop : machine.stop = (Lexer.run machine.cursor).2.position := by
    simp only [Machine.stop, current]
  refine ⟨machine.fetch, ?_, ?_, (fetch_depth machine).trans deep⟩
  · have ran : ((get : Run Machine).run machine).run = some (.ok (machine, machine)) :=
      rfl
    rw [Machine.advance, run_bind ran]
    simp only [current]
    rfl
  · have view : Session.cameIntoView (token :: rest) rest = rest.take 1 := by
      have one : (token :: rest).length - rest.length = 1 := Nat.add_sub_cancel_left ..
      rw [Session.cameIntoView, one]
      rfl
    rw [fetch_session, behind, ← stop]
    simp only [Session.reach, Session.moveOn, first, view]
    rfl

/-- An accepted token is in view. -/
theorem peek {accept : TokenKind → Option β} {value : β} (first : session.ahead = token :: rest)
    (accepted : accept token.kind = some value) :
    Does (peek? accept) depth session (some value) session := by
  refine of_state fun machine here _ => ?_
  rw [current_eq_head?, here, first, List.head?_cons, Option.bind_some, accepted]
  exact pure _ depth session

/-- No accepted token is in view. -/
theorem peek_none {accept : TokenKind → Option β} (lacks : Lacks accept session.ahead) :
    Does (peek? accept) depth session none session := by
  refine of_state fun machine here _ => ?_
  rw [current_eq_head?, here]
  have nothing : (session.ahead.head?.bind fun token => accept token.kind) = none := by
    rw [Option.bind_eq_none_iff]
    exact lacks
  rw [nothing]
  exact pure _ depth session

/-- An accepted token is taken. -/
theorem eat {accept : TokenKind → Option β} {value : β} (first : session.ahead = token :: rest)
    (accepted : accept token.kind = some value) :
    Does (eat? accept) depth session (some (value, token)) (session.reach rest session.ast) :=
  bind (peek first accepted) (bind (advance first) (pure _ depth _))

/-- No token is taken that is not accepted. -/
theorem eat_none {accept : TokenKind → Option β} (lacks : Lacks accept session.ahead) :
    Does (eat? accept) depth session none session :=
  bind (peek_none lacks) (pure _ depth _)

/-- A failure is reported where it is found, if it depends on the token in view only. -/
theorem fail {failure : ParseContext → List Token → Failure}
    (inView : ∀ limit stop other token rest,
      failure ⟨limit, stop⟩ (token :: rest) = failure ⟨limit, other⟩ [token])
    (depth : Nat) (session : Session) :
    Does (Machine.fail failure : Run (Except SyntaxError β)) depth session
      (.error (failure session.context session.ahead).error)
      (session.halt session.ahead (failure session.context session.ahead) session.ast) := by
  intro machine here deep
  subst here
  have made : failure ⟨machine.limit, machine.cursor.position⟩ machine.current.toList =
      failure machine.session.context machine.session.ahead := by
    unfold Machine.session Machine.stop Machine.ahead
    cases machine.current with
    | none => rfl
    | some token => exact (inView ..).symm
  rw [Session.halt, Session.moveOn_self, ← made]
  exact ⟨_, rfl, rfl, deep⟩

/-- What is done one level deeper is done if the limit allows it. -/
theorem nested {other : Run β} (allowed : depth < session.context.limit)
    (inner : Does step (depth + 1) session value middle)
    (behind : Does (next value) depth middle result after) :
    Does (do
      if ← descend then
        let value ← step
        ascend
        next value
      else other) depth session result after := by
  intro machine here deep
  have within : machine.depth < machine.limit := by
    have limit : machine.session.context.limit = machine.limit := rfl
    rwa [← here, limit, ← deep] at allowed
  have level : machine.depth + 1 = depth + 1 := congrArg (· + 1) deep
  obtain ⟨later, ran, there, below⟩ := inner { machine with depth := machine.depth + 1 } here level
  have ascended : (ascend.run later).run =
      some (.ok ((), { later with depth := later.depth - 1 })) := rfl
  have back : later.depth - 1 = depth := by omega
  obtain ⟨final, done, stands, same⟩ := behind { later with depth := later.depth - 1 } there back
  refine ⟨final, ?_, stands, same⟩
  rw [run_bind (descend_within within)]
  exact (run_bind ran).trans ((run_bind ascended).trans done)

/-- Where the limit is reached nothing is done one level deeper. -/
theorem too_deep {inside other : Run β} (reached : session.context.limit ≤ depth)
    (instead : Does other depth session result after) :
    Does (do if ← descend then inside else other) depth session result after := by
  intro machine here deep
  have beyond : machine.limit ≤ machine.depth := by
    have limit : machine.session.context.limit = machine.limit := rfl
    rwa [← here, limit, ← deep] at reached
  obtain ⟨later, done, stands, same⟩ := instead machine here deep
  exact ⟨later, (run_bind (descend_beyond beyond)).trans done, stands, same⟩

/-- A closing mark is taken. -/
theorem closing {close : Mark} {opener : Token} (first : session.ahead = token :: rest)
    (closes : token.kind = .mark close) :
    Does (expectClosing close opener) depth session (.ok ()) (session.reach rest session.ast) := by
  have accepted : acceptMark close token.kind = some () := acceptMark_eq_some.mpr closes
  exact bind (eat first accepted) (pure _ depth _)

/-- Something else is found in place of a closing mark. -/
theorem unclosed {close : Mark} {opener : Token}
    (lacks : Lacks (acceptMark close) session.ahead) :
    Does (expectClosing close opener) depth session
      (.error (Failure.unclosed session.context close opener session.ahead).error)
      (session.halt session.ahead (.unclosed session.context close opener session.ahead)
        session.ast) :=
  bind (eat_none lacks) (fail (fun _ _ _ _ _ => rfl) depth session)

/-- A token that is a node on its own is stored. -/
theorem literal (node : Node) (first : session.ahead = token :: rest) :
    Does (Machine.literal node) depth session (.ok (session.ast.push node token.span).1)
      (session.reach rest (session.ast.push node token.span).2) :=
  bind (advance first) (bind (push node token.span) (pure _ depth _))

/-- A token that is a node with a text is stored. -/
theorem textual (text : String) (node : Symbol → Node) (first : session.ahead = token :: rest) :
    Does (Machine.textual text node) depth session
      (.ok ((session.ast.intern text).2.push (node (session.ast.intern text).1) token.span).1)
      (session.reach rest
        ((session.ast.intern text).2.push (node (session.ast.intern text).1) token.span).2) :=
  bind (advance first) (bind (intern text) (bind (push _ token.span) (pure _ depth _)))

/-- A number is stored. -/
theorem integer {digits : String} {number : UInt64} (first : session.ahead = token :: rest)
    (fits : decimalLong? digits = some number) :
    Does (Machine.integer digits) depth session
      (.ok (session.ast.push (.int number) token.span).1)
      (session.reach rest (session.ast.push (.int number) token.span).2) := by
  refine bind (advance first) ?_
  simp only [fits]
  exact bind (push (.int number) token.span) (pure _ depth _)

end Does

end Machine

end Cascade
