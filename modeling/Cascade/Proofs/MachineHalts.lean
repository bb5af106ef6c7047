import Cascade.Proofs.MachineRuns

/-!
# The machine halts where a session does

Where the parser fails, the machine has stored the trees that were complete by then, which are those
that the session stores, and reports the failure at the same token. Each rule of failure is a short
lemma (`Goal.HaltsFrom`) on what the functions of the machine do, and the induction on the rules puts
them together with the successes before the failure.
-/
namespace Cascade

open Machine (Does)

/-- A run of operators cannot fail at a tier without operators between operands. -/
theorem Fails.not_run {context : ParseContext} {common : Tier} {lhs : Expr Span} {room : Nat}
    {tokens rest : List Token} {failure : Failure} {completed : List (Expr Span)}
    (none : ∀ op : BinaryOp, op.tier ≠ common) :
    ¬ Fails context (.run common lhs) room tokens failure rest completed := by
  intro fails
  cases fails with
  | operand => exact none _ rfl
  | operator => exact none _ rfl

/-- The machine, asked for the goal, stores what was complete and halts at the rest of the tokens
with the failure. What the goal is given was stored last, in the base. -/
def Goal.Halts (goal : Goal) (depth : Nat) (session : Session) (failure : Failure)
    (rest : List Token) (completed : List (Expr Span)) : Prop :=
  match goal with
  | .expression => Does (Machine.expression.run ()) depth session (.error failure.error)
      (session.halt rest failure (session.ast.insertAll completed).2)
  | .tier loosest => Does (Machine.tier.run loosest) depth session (.error failure.error)
      (session.halt rest failure (session.ast.insertAll completed).2)
  | .primary => Does (Machine.primary.run ()) depth session (.error failure.error)
      (session.halt rest failure (session.ast.insertAll completed).2)
  | .run common lhs => ∀ base : Ast, session.ast = (base.insert lhs).2 →
      Does (Machine.operators.run (common, (base.insert lhs).1)) depth session (.error failure.error)
        (session.halt rest failure (base.insertAll completed).2)
  | .chain target => ∀ base : Ast, session.ast = (base.insert target).2 →
      Does (Machine.links.run (base.insert target).1) depth session (.error failure.error)
        (session.halt rest failure (base.insertAll completed).2)
  | .link target => ∃ token behind continuation, session.ahead = token :: behind ∧
      acceptContinuation token.kind = some continuation ∧
      ∀ base : Ast, session.ast = (base.insert target).2 →
        Does (Machine.link.run ((base.insert target).1, continuation)) depth session
          (.error failure.error) (session.halt rest failure (base.insertAll completed).2)
  | .arguments => ∀ before, Does (Machine.arguments.run before) depth session (.error failure.error)
      (session.halt rest failure (session.ast.insertAll completed).2)

/-- Trees behind one that was stored last are stored behind it. -/
theorem Ast.insertAll_behind {base ast : Ast} {first : Expr Span}
    (stored : ast = (base.insert first).2) (others : List (Expr Span)) :
    (base.insertAll (first :: others)).2 = (ast.insertAll others).2 := by
  rw [stored]
  rfl

/-- On every session of the context before the tokens, with so much room left, the machine stores
what was complete and halts. -/
def Goal.HaltsFrom (goal : Goal) (context : ParseContext) (room : Nat) (tokens : List Token)
    (failure : Failure) (rest : List Token) (completed : List (Expr Span)) : Prop :=
  ∀ (depth : Nat) (session : Session), session.context = context → session.ahead = tokens →
    depth + room = session.context.limit → goal.Halts depth session failure rest completed

section Failures

variable {context : ParseContext} {room : Nat} {tokens middle rest : List Token}
  {target lhs rhs : Expr Span} {token opener : Token} {failure : Failure}
  {completed : List (Expr Span)}

/-- Without room for an expression the machine halts before it. -/
theorem Goal.HaltsFrom.too_deep :
    Goal.expression.HaltsFrom context 0 tokens (.tooDeep context tokens) tokens [] := by
  intro depth session same ahead level
  subst same ahead
  have reached : session.context.limit ≤ depth := by omega
  show Does (Machine.expression.run ()) _ _ _ _
  rw [ReaderT.run, Machine.expression]
  exact Does.too_deep reached (.fail (fun _ _ _ _ _ => rfl) depth session)

/-- An expression halts where its loosest tier does. -/
theorem Goal.HaltsFrom.expression
    (inner : (Goal.tier .lowest).HaltsFrom context room tokens failure rest completed) :
    Goal.expression.HaltsFrom context (room + 1) tokens failure rest completed := by
  intro depth session same ahead level
  have within : depth < session.context.limit := by omega
  exact Machine.expression_within within (inner (depth + 1) session same ahead (by omega))

/-- An expression at the tightest tier halts where its primary does. -/
theorem Goal.HaltsFrom.primary
    (first : Goal.primary.HaltsFrom context room tokens failure rest completed) :
    (Goal.tier .postfixChain).HaltsFrom context room tokens failure rest completed := by
  intro depth session same ahead level
  have primary := first depth session same ahead level
  show Does (Machine.tier.run .postfixChain) _ _ _ _
  rw [ReaderT.run, Machine.tier, ReaderT.run, Machine.postfixed]
  exact Does.bind primary (.pure _ depth _)

/-- An expression at the tightest tier halts where the links behind its primary do. -/
theorem Goal.HaltsFrom.postfixed (first : Goal.primary.DoneFrom room tokens [target] middle)
    (chain : (Goal.chain target).HaltsFrom context room middle failure rest completed)
    (early : middle <:+ tokens) (late : rest <:+ middle) :
    (Goal.tier .postfixChain).HaltsFrom context room tokens failure rest completed := by
  intro depth session same ahead level
  subst ahead
  have links := (chain depth (session.reach middle (session.ast.insert target).2) same rfl level
    session.ast rfl).halting early late
  exact Machine.postfixed_links (first depth session rfl level) links

/-- Without room for an operand the machine halts behind its operator. -/
theorem Goal.HaltsFrom.prefixed_too_deep {op : UnaryOp} (found : token.kind.unaryOp? = some op) :
    (Goal.tier op.tier).HaltsFrom context 0 (token :: tokens) (.tooDeep context tokens)
      tokens [] := by
  intro depth session same ahead level
  subst same
  have reached : session.context.limit ≤ depth := by omega
  have failed : Does (Machine.fail .tooDeep : Machine.Run (Except SyntaxError Handle))
      depth _ _ _ :=
    .failing (fun _ _ _ _ _ => rfl) (Machine.suffix_behind ahead) depth session.ast
  show Does (Machine.tier.run op.tier) _ _ _ _
  rw [Machine.tier_unary, ReaderT.run, Machine.prefixed]
  exact (Does.eat_unary ahead found).bind (Does.too_deep reached failed)

/-- An operator before an operand halts where its operand does. -/
theorem Goal.HaltsFrom.prefixed {op : UnaryOp} (found : token.kind.unaryOp? = some op)
    (inner : (Goal.tier op.tier).HaltsFrom context room tokens failure rest completed)
    (late : rest <:+ tokens) :
    (Goal.tier op.tier).HaltsFrom context (room + 1) (token :: tokens) failure rest
      completed := by
  intro depth session same ahead level
  have within : depth < session.context.limit := by omega
  have deeper : depth + 1 + room = session.context.limit := by omega
  have nested := (inner (depth + 1) (session.reach tokens session.ast) same rfl deeper).halting
    (Machine.suffix_behind ahead) late
  rw [Machine.tier_unary] at nested
  show Does (Machine.tier.run op.tier) _ _ _ _
  rw [Machine.tier_unary, ReaderT.run, Machine.prefixed]
  exact (Does.eat_unary ahead found).bind (Does.nested within nested (.pure _ depth _))

/-- An expression at another tier halts where its first operand does. -/
theorem Goal.HaltsFrom.first_operand {loosest : Tier} (outer : loosest ≠ .postfixChain)
    (lacks : Lacks (acceptUnary loosest) tokens)
    (first : (Goal.tier loosest.tighter).HaltsFrom context room tokens failure rest completed) :
    (Goal.tier loosest).HaltsFrom context room tokens failure rest completed := by
  intro depth session same ahead level
  subst ahead
  have operand := first depth session same rfl level
  by_cases infixed : ∀ op : UnaryOp, op.tier ≠ loosest
  · show Does (Machine.tier.run loosest) _ _ _ _
    rw [Machine.tier_binary outer infixed, ReaderT.run, Machine.binary]
    exact Does.bind operand (.pure _ depth _)
  · obtain ⟨op, rfl⟩ : ∃ op : UnaryOp, op.tier = loosest := by simpa using infixed
    exact Machine.prefixed_operand lacks operand

/-- An expression at another tier halts where the operators behind its first operand do. -/
theorem Goal.HaltsFrom.binary {loosest : Tier} (outer : loosest ≠ .postfixChain)
    (first : (Goal.tier loosest.tighter).DoneFrom room tokens [lhs] middle)
    (run : (Goal.run loosest lhs).HaltsFrom context room middle failure rest completed)
    (early : middle <:+ tokens)
    (failed : Fails context (.run loosest lhs) room middle failure rest completed) :
    (Goal.tier loosest).HaltsFrom context room tokens failure rest completed := by
  intro depth session same ahead level
  subst ahead
  have operators := (run depth (session.reach middle (session.ast.insert lhs).2) same rfl level
    session.ast rfl).halting early failed.usesUp.suffix
  have infixed : ∀ op : UnaryOp, op.tier ≠ loosest := by
    rintro op rfl
    exact Fails.not_run op.tier_ne failed
  exact Machine.binary_operators outer infixed (first depth session rfl level) operators

/-- A run of operators halts where an operand does. -/
theorem Goal.HaltsFrom.operand {op : BinaryOp} (found : token.kind.binaryOp? = some op)
    (inner : (Goal.tier op.tier.tighter).HaltsFrom context room tokens failure rest completed)
    (late : rest <:+ tokens) :
    (Goal.run op.tier lhs).HaltsFrom context room (token :: tokens) failure rest
      (lhs :: completed) := by
  intro depth session same ahead level base stored
  have right := (inner depth (session.reach tokens session.ast) same rfl level).halting
    (Machine.suffix_behind ahead) late
  have whole := Ast.insertAll_behind stored completed
  rw [whole, ReaderT.run, Machine.operators]
  exact (Does.eat_binary ahead found).bind (Does.bind right (.pure _ depth _))

/-- A run of operators halts where the run behind an operand does. -/
theorem Goal.HaltsFrom.operators {op : BinaryOp} (found : token.kind.binaryOp? = some op)
    (operand : (Goal.tier op.tier.tighter).DoneFrom room tokens [rhs] middle)
    (run : (Goal.run op.tier (.binary token.span op lhs rhs)).HaltsFrom context room middle failure
      rest completed)
    (early : middle <:+ tokens) (late : rest <:+ middle) :
    (Goal.run op.tier lhs).HaltsFrom context room (token :: tokens) failure rest completed := by
  intro depth session same ahead level base stored
  have behind := Machine.suffix_behind ahead
  have right := (operand depth (session.reach tokens session.ast) rfl level).onward behind early
  have pushed := Does.operated stored op rhs token.span depth session middle
  have operators := (run depth (session.reach middle
    (base.insert (.binary token.span op lhs rhs)).2) same rfl level base rfl).halting
      (early.trans behind) late
  exact Machine.operators_operator ahead found right pushed operators

/-- A chain halts where a link does. -/
theorem Goal.HaltsFrom.link
    (inner : (Goal.link target).HaltsFrom context room tokens failure rest completed) :
    (Goal.chain target).HaltsFrom context room tokens failure rest completed := by
  intro depth session same ahead level base stored
  obtain ⟨token, behind, continuation, first, accepted, halted⟩ :=
    inner depth session same ahead level
  have seen : Does (Machine.peek? acceptContinuation) depth session (some continuation) session :=
    .peek first accepted
  rw [ReaderT.run, Machine.links]
  exact seen.bind ((halted base stored).bind (.pure _ depth _))

/-- A chain halts where the chain behind a link does. -/
theorem Goal.HaltsFrom.links {next : Expr Span}
    (link : (Goal.link target).DoneFrom room tokens [next] middle)
    (chain : (Goal.chain next).HaltsFrom context room middle failure rest completed)
    (early : middle <:+ tokens) (late : rest <:+ middle) :
    (Goal.chain target).HaltsFrom context room tokens failure rest completed := by
  intro depth session same ahead level base stored
  obtain ⟨token, behind, continuation, first, accepted, made⟩ := link depth session ahead level
  subst ahead
  have links := (chain depth (session.reach middle (base.insert next).2) same rfl level base
    rfl).halting early late
  exact Machine.links_link first accepted (made base stored) links

/-- An index halts where its position does. -/
theorem Goal.HaltsFrom.index (opens : opener.kind = .mark .openBracket)
    (inner : Goal.expression.HaltsFrom context room tokens failure rest completed)
    (late : rest <:+ tokens) :
    (Goal.link target).HaltsFrom context room (opener :: tokens) failure rest
      (target :: completed) := by
  intro depth session same ahead level
  refine ⟨opener, tokens, .index, ahead, acceptContinuation_eq_some.mpr opens, ?_⟩
  intro base stored
  have inside := (inner depth (session.reach tokens session.ast) same rfl level).halting
    (Machine.suffix_behind ahead) late
  have whole := Ast.insertAll_behind stored completed
  rw [whole, ReaderT.run, Machine.link, ReaderT.run, Machine.index]
  exact (Does.advance ahead).bind (Does.bind inside (.pure _ depth _))

/-- An index that is not closed halts behind its position. -/
theorem Goal.HaltsFrom.unclosed_index {position : Expr Span}
    (opens : opener.kind = .mark .openBracket)
    (inner : Goal.expression.DoneFrom room tokens [position] rest)
    (lacks : Lacks (acceptMark .closeBracket) rest) (late : rest <:+ tokens) :
    (Goal.link target).HaltsFrom context room (opener :: tokens)
      (.unclosed context .closeBracket opener rest) rest [target, position] := by
  intro depth session same ahead level
  subst same
  refine ⟨opener, tokens, .index, ahead, acceptContinuation_eq_some.mpr opens, ?_⟩
  intro base stored
  have behind := Machine.suffix_behind ahead
  have inside := (inner depth (session.reach tokens session.ast) rfl level).onward behind late
  have unclosed := Does.left_open lacks (late.trans behind) opener depth
    (session.ast.insert position).2
  have whole := Ast.insertAll_behind stored [position]
  rw [whole, ReaderT.run, Machine.link, ReaderT.run, Machine.index]
  exact (Does.advance ahead).bind (inside.bind (unclosed.bind (.pure _ depth _)))

/-- A call halts where its arguments do. -/
theorem Goal.HaltsFrom.call (opens : opener.kind = .mark .openParen)
    (more : Lacks (acceptMark .closeParen) tokens)
    (inner : Goal.arguments.HaltsFrom context room tokens failure rest completed)
    (late : rest <:+ tokens) :
    (Goal.link target).HaltsFrom context room (opener :: tokens) failure rest
      (target :: completed) := by
  intro depth session same ahead level
  refine ⟨opener, tokens, .call, ahead, acceptContinuation_eq_some.mpr opens, ?_⟩
  intro base stored
  have inside := (inner depth (session.reach tokens session.ast) same rfl level []).halting
    (Machine.suffix_behind ahead) late
  have given := Machine.given_arguments more inside
  have whole := Ast.insertAll_behind stored completed
  rw [whole, ReaderT.run, Machine.link, ReaderT.run, Machine.call]
  exact (Does.advance ahead).bind (Does.bind given (.pure _ depth _))

/-- A call that is not closed halts behind its arguments. -/
theorem Goal.HaltsFrom.unclosed_call {arguments : List (Expr Span)}
    (opens : opener.kind = .mark .openParen) (more : Lacks (acceptMark .closeParen) tokens)
    (inner : Goal.arguments.DoneFrom room tokens arguments rest)
    (lacks : Lacks (acceptMark .closeParen) rest) (late : rest <:+ tokens) :
    (Goal.link target).HaltsFrom context room (opener :: tokens)
      (.unclosed context .closeParen opener rest) rest (target :: arguments) := by
  intro depth session same ahead level
  subst same
  refine ⟨opener, tokens, .call, ahead, acceptContinuation_eq_some.mpr opens, ?_⟩
  intro base stored
  have behind := Machine.suffix_behind ahead
  have inside := (inner depth (session.reach tokens session.ast) rfl level []).onward behind late
  have given := Machine.given_arguments more inside
  have unclosed := Does.left_open lacks (late.trans behind) opener depth
    (session.ast.insertAll arguments).2
  have whole := Ast.insertAll_behind stored arguments
  rw [whole, ReaderT.run, Machine.link, ReaderT.run, Machine.call]
  exact (Does.advance ahead).bind (given.bind (unclosed.bind (.pure _ depth _)))

/-- Where nothing can be selected the machine halts behind the dot. -/
theorem Goal.HaltsFrom.selector {dot : Token} (dotted : dot.kind = .mark .dot)
    (lacks : Lacks acceptSelector tokens) :
    (Goal.link target).HaltsFrom context room (dot :: tokens) (.expectedSelector context tokens)
      tokens [target] := by
  intro depth session same ahead level
  subst same
  refine ⟨dot, tokens, .selector, ahead, acceptContinuation_eq_some.mpr dotted, ?_⟩
  intro base stored
  have absent : Does (Machine.peek? acceptSelector) depth (session.reach tokens session.ast) none
      (session.reach tokens session.ast) := .peek_none lacks
  have failed : Does (Machine.fail .expectedSelector : Machine.Run (Except SyntaxError Handle))
      depth _ _ _ :=
    .failing (fun _ _ _ _ _ => rfl) (Machine.suffix_behind ahead) depth session.ast
  have whole := Ast.insertAll_behind stored []
  rw [whole, ReaderT.run, Machine.link, Machine.selector]
  exact (Does.advance ahead).bind (absent.bind failed)

/-- Arguments halt where the first one does. -/
theorem Goal.HaltsFrom.argument
    (inner : Goal.expression.HaltsFrom context room tokens failure rest completed) :
    Goal.arguments.HaltsFrom context room tokens failure rest completed := by
  intro depth session same ahead level before
  have first := inner depth session same ahead level
  rw [ReaderT.run, Machine.arguments]
  exact Does.bind first (.pure _ depth _)

/-- Arguments halt where those behind a comma do. -/
theorem Goal.HaltsFrom.arguments {argument : Expr Span} {comma : Token}
    (inner : Goal.expression.DoneFrom room tokens [argument] (comma :: middle))
    (separates : comma.kind = .mark .comma)
    (later : Goal.arguments.HaltsFrom context room middle failure rest completed)
    (early : comma :: middle <:+ tokens) (late : rest <:+ middle) :
    Goal.arguments.HaltsFrom context room tokens failure rest (argument :: completed) := by
  intro depth session same ahead level before
  subst ahead
  have behind := (List.suffix_cons comma middle).trans early
  have separated := Does.eat_mark separates early depth (session.ast.insert argument).2
  have further := (later depth (session.reach middle (session.ast.insert argument).2) same rfl
    level (before ++ [(session.ast.insert argument).1])).halting behind late
  exact Machine.arguments_more (inner depth session rfl level) separated further

/-- Where no primary begins the machine halts before it. -/
theorem Goal.HaltsFrom.no_primary
    (unfit : ∀ token ∈ tokens.head?, ¬ token.kind.BeginsPrimary) :
    Goal.primary.HaltsFrom context room tokens (.expectedExpression context tokens) tokens [] := by
  intro depth session same ahead level
  subst same ahead
  have failed : Does (Machine.fail .expectedExpression : Machine.Run (Except SyntaxError Handle))
      depth session _ _ := .fail (fun _ _ _ _ _ => rfl) depth session
  show Does (Machine.primary.run ()) _ _ _ _
  rw [ReaderT.run, Machine.primary]
  refine Does.of_state fun machine here _ => ?_
  subst here
  have unfitting : ∀ lexeme, machine.current.map Token.lexeme = some lexeme →
      ¬ lexeme.kind.BeginsPrimary := by
    intro lexeme seen
    obtain ⟨token, there, rfl⟩ := Option.map_eq_some_iff.mp seen
    rw [Machine.current_eq_head?] at there
    exact unfit token there
  split
  · next seen => exact absurd (by decide) (unfitting _ seen)
  · next seen => exact absurd (by decide) (unfitting _ seen)
  · next seen => exact absurd (.inr (.tail _ (.head _))) (unfitting _ seen)
  · next seen => exact absurd (.inr (.tail _ (.tail _ (.head _)))) (unfitting _ seen)
  · next seen => exact absurd (.inr (.head _)) (unfitting _ seen)
  · next seen => exact absurd (.inl rfl) (unfitting _ seen)
  · exact failed

/-- Behind a number that is too large the machine halts. -/
theorem Goal.HaltsFrom.too_large {digits : String} (written : token.lexeme = .number digits)
    (large : decimalLong? digits = none) :
    Goal.primary.HaltsFrom context room (token :: rest) (.integerTooLarge token digits)
      rest [] := by
  intro depth session same ahead level
  show Does (Machine.primary.run ()) _ _ _ _
  rw [ReaderT.run, Machine.primary]
  refine Does.of_state fun machine here _ => ?_
  subst here
  rw [Machine.lexeme_in_view ahead written]
  have failed : Does (Machine.fail fun _ _ => .integerTooLarge token digits :
      Machine.Run (Except SyntaxError Handle)) depth _ _ _ :=
    .failing (fun _ _ _ _ _ => rfl) (Machine.suffix_behind ahead) depth machine.session.ast
  refine (Does.advance ahead).bind ?_
  simp only [large]
  exact failed

/-- A group halts where its expression does. -/
theorem Goal.HaltsFrom.group (opens : opener.kind = .mark .openParen)
    (inner : Goal.expression.HaltsFrom context room tokens failure rest completed)
    (late : rest <:+ tokens) :
    Goal.primary.HaltsFrom context room (opener :: tokens) failure rest completed := by
  intro depth session same ahead level
  have inside := (inner depth (session.reach tokens session.ast) same rfl level).halting
    (Machine.suffix_behind ahead) late
  refine Machine.primary_group ahead opens ?_
  rw [ReaderT.run, Machine.group]
  exact (Does.advance ahead).bind (Does.bind inside (.pure _ depth _))

/-- A group that is not closed halts behind its expression. -/
theorem Goal.HaltsFrom.unclosed_group {expr : Expr Span} (opens : opener.kind = .mark .openParen)
    (inner : Goal.expression.DoneFrom room tokens [expr] rest)
    (lacks : Lacks (acceptMark .closeParen) rest) (late : rest <:+ tokens) :
    Goal.primary.HaltsFrom context room (opener :: tokens)
      (.unclosed context .closeParen opener rest) rest [expr] := by
  intro depth session same ahead level
  subst same
  have behind := Machine.suffix_behind ahead
  have inside := (inner depth (session.reach tokens session.ast) rfl level).onward behind late
  have unclosed := Does.left_open lacks (late.trans behind) opener depth
    (session.ast.insert expr).2
  refine Machine.primary_group ahead opens ?_
  rw [ReaderT.run, Machine.group]
  exact (Does.advance ahead).bind (inside.bind (unclosed.bind (.pure _ depth _)))

end Failures

/-- What fails by the rules the machine halts at. -/
theorem Fails.halts {context : ParseContext} {goal : Goal} {room : Nat} {tokens rest : List Token}
    {failure : Failure} {completed : List (Expr Span)}
    (fails : Fails context goal room tokens failure rest completed) :
    goal.HaltsFrom context room tokens failure rest completed := by
  induction fails with
  | too_deep => exact .too_deep
  | expression _ inner => exact inner.expression
  | primary _ first => exact first.primary
  | chain parsed failed chain =>
    exact .postfixed parsed.done chain parsed.usesUp.suffix failed.usesUp.suffix
  | unary_too_deep found => exact .prefixed_too_deep found
  | unary found failed inner => exact inner.prefixed found failed.usesUp.suffix
  | descend outer lacks _ first => exact first.first_operand outer lacks
  | run outer _ parsed failed run => exact .binary outer parsed.done run parsed.usesUp.suffix failed
  | operand found failed inner => exact inner.operand found failed.usesUp.suffix
  | operator found parsed failed run =>
    exact .operators found parsed.done run parsed.usesUp.suffix failed.usesUp.suffix
  | link _ inner => exact inner.link
  | chain_link linked failed chain =>
    exact .links linked.done chain linked.usesUp.suffix failed.usesUp.suffix
  | index opens failed inner => exact inner.index opens failed.usesUp.suffix
  | unclosed_index opens parsed lacks =>
    exact .unclosed_index opens parsed.done lacks parsed.usesUp.suffix
  | call opens more failed inner => exact inner.call opens more failed.usesUp.suffix
  | unclosed_call opens more parsed lacks =>
    exact .unclosed_call opens more parsed.done lacks parsed.usesUp.suffix
  | selector dotted lacks => exact .selector dotted lacks
  | argument _ inner => exact inner.argument
  | later_argument parsed separates failed later =>
    exact .arguments parsed.done separates later parsed.usesUp.suffix failed.usesUp.suffix
  | no_primary unfit => exact .no_primary unfit
  | too_large written large => exact .too_large written large
  | group opens failed inner => exact inner.group opens failed.usesUp.suffix
  | unclosed_group opens parsed lacks =>
    exact .unclosed_group opens parsed.done lacks parsed.usesUp.suffix

end Cascade
