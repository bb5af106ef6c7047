import Cascade.Proofs.Lookahead
import Cascade.Proofs.MachineSteps
import Cascade.Proofs.Parser

/-!
# The machine does what a session does

The machine stores a node as soon as it is complete, and a session stores what the parser gives when
the parser is done. Both leave the same behind: what the machine has stored by then is the tree that
the session stores. What a function of the machine does with what the functions it calls do is said
once. Each rule of success is then a short lemma (`Goal.DoneFrom`), and the induction on the rules
puts them together; a part that is already stored when a rule begins is told by the store before it,
into which the session inserts the whole.
-/
namespace Cascade

open Machine (Does)

/-- What is used up leaves a part of the tokens. -/
theorem UsesUp.suffix {tokens rest : List Token} (uses : UsesUp tokens rest) : rest <:+ tokens := by
  obtain ⟨used, rfl, _⟩ := uses
  exact List.suffix_append used rest

namespace Machine

variable {α : Type} {step : Run α} {value : α} {depth : Nat} {session : Session}
  {middle rest : List Token} {one two : Ast} {failure : Failure}

/-- What leads on from where a session moved on to leads on from the session. -/
theorem Does.onward
    (does : Does step depth (session.reach middle one) value
      ((session.reach middle one).reach rest two))
    (early : middle <:+ session.ahead) (late : rest <:+ middle) :
    Does step depth (session.reach middle one) value (session.reach rest two) := by
  rwa [Session.reach_reach early late] at does

/-- What halts behind where a session moved on to halts behind the session. -/
theorem Does.halting
    (does : Does step depth (session.reach middle one) value
      ((session.reach middle one).halt rest failure two))
    (early : middle <:+ session.ahead) (late : rest <:+ middle) :
    Does step depth (session.reach middle one) value (session.halt rest failure two) := by
  rwa [Session.reach_halt early late] at does

/-- Behind a token that is in view is a part of what is ahead. -/
theorem suffix_behind {token : Token} (first : session.ahead = token :: rest) :
    rest <:+ session.ahead := by
  rw [first]
  exact List.suffix_cons token rest

/-- A node is stored and its handle given. -/
theorem Does.push_ok (node : Node) (span : Span) (depth : Nat) (session : Session)
    (rest : List Token) (ast : Ast) :
    Does (do return (.ok (← Machine.push node span) : Except SyntaxError Handle)) depth
      (session.reach rest ast) (.ok (ast.push node span).1)
      (session.reach rest (ast.push node span).2) :=
  (Does.push node span).bind (.pure _ depth _)

/-- A mark is taken where a session moved on to. -/
theorem Does.eat_mark {mark : Mark} {token : Token} (marked : token.kind = .mark mark)
    (early : token :: rest <:+ session.ahead) (depth : Nat) (ast : Ast) :
    Does (eat? (acceptMark mark)) depth (session.reach (token :: rest) ast) (some ((), token))
      (session.reach rest ast) :=
  (Does.eat rfl (acceptMark_eq_some.mpr marked)).onward early (List.suffix_cons token rest)

/-- A closing mark is taken where a session moved on to. -/
theorem Does.closed {close : Mark} {closer : Token} (closes : closer.kind = .mark close)
    (early : closer :: rest <:+ session.ahead) (opener : Token) (depth : Nat) (ast : Ast) :
    Does (expectClosing close opener) depth (session.reach (closer :: rest) ast) (.ok ())
      (session.reach rest ast) :=
  (Does.closing rfl closes).onward early (List.suffix_cons closer rest)

/-- An operator before an operand is taken at its own tier. -/
theorem Does.eat_unary {token : Token} {op : UnaryOp} (first : session.ahead = token :: rest)
    (found : token.kind.unaryOp? = some op) :
    Does (eat? (acceptUnary op.tier)) depth session (some (op, token))
      (session.reach rest session.ast) :=
  .eat first (acceptUnary_eq_some.mpr ⟨found, rfl⟩)

/-- An operator between operands is taken at its own tier. -/
theorem Does.eat_binary {token : Token} {op : BinaryOp} (first : session.ahead = token :: rest)
    (found : token.kind.binaryOp? = some op) :
    Does (eat? (acceptBinary op.tier)) depth session (some (op, token))
      (session.reach rest session.ast) :=
  .eat first (acceptBinary_eq_some.mpr ⟨found, rfl⟩)

/-- The node of an operator is stored when its operands are. -/
theorem Does.operated {base ast : Ast} {lhs : Expr Span} (stored : ast = (base.insert lhs).2)
    (op : BinaryOp) (rhs : Expr Span) (span : Span) (depth : Nat) (session : Session)
    (rest : List Token) :
    Does (Machine.push (.binary op (base.insert lhs).1 (ast.insert rhs).1) span) depth
      (session.reach rest (ast.insert rhs).2) (base.insert (.binary span op lhs rhs)).1
      (session.reach rest (base.insert (.binary span op lhs rhs)).2) := by
  subst stored
  exact .push _ span

/-- A failure is reported where a session moved on to, if it depends on the token in view only. -/
theorem Does.failing {β : Type} {failed : ParseContext → List Token → Failure}
    (inView : ∀ limit stop other token rest,
      failed ⟨limit, stop⟩ (token :: rest) = failed ⟨limit, other⟩ [token])
    (early : rest <:+ session.ahead) (depth : Nat) (ast : Ast) :
    Does (Machine.fail failed : Run (Except SyntaxError β)) depth (session.reach rest ast)
      (.error (failed session.context rest).error)
      (session.halt rest (failed session.context rest) ast) :=
  (Does.fail inView depth (session.reach rest ast)).halting early (List.suffix_refl rest)

/-- A bracket is found unclosed where a session moved on to. -/
theorem Does.left_open {close : Mark} (lacks : Lacks (acceptMark close) rest)
    (early : rest <:+ session.ahead) (opener : Token) (depth : Nat) (ast : Ast) :
    Does (expectClosing close opener) depth (session.reach rest ast)
      (.error (Failure.unclosed session.context close opener rest).error)
      (session.halt rest (.unclosed session.context close opener rest) ast) :=
  (Does.unclosed lacks).halting early (List.suffix_refl rest)

/-- Where no parenthesis closes there are arguments. -/
theorem given_arguments {result : Except SyntaxError (List Handle)} {after : Session}
    (more : Lacks (acceptMark .closeParen) session.ahead)
    (arguments : Does (Machine.arguments.run []) depth session result after) :
    Does (Machine.given.run ()) depth session result after := by
  rw [ReaderT.run, Machine.given]
  exact Does.bind (.peek_none more) arguments

/-- A primary that begins with a parenthesis is a group. -/
theorem primary_group {opener : Token} {result : Except SyntaxError Handle} {after : Session}
    (first : session.ahead = opener :: rest) (opens : opener.kind = .mark .openParen)
    (does : Does (Machine.group.run ()) depth session result after) :
    Does (Machine.primary.run ()) depth session result after := by
  rw [ReaderT.run, Machine.primary]
  refine Does.of_state fun machine here _ => ?_
  subst here
  rw [lexeme_in_view first (Token.lexeme_of_mark opens)]
  exact does

/-- Expressions at the tier of an operator before an operand begin with such operators. -/
theorem tier_unary (op : UnaryOp) : tier.run op.tier = prefixed.run op.tier := by
  rw [ReaderT.run, tier.eq_def]
  cases op <;> rfl

/-- Expressions at the other tiers are rows of operators, but for the tightest. -/
theorem tier_binary {common : Tier} (outer : common ≠ .postfixChain)
    (infixed : ∀ op : UnaryOp, op.tier ≠ common) : tier.run common = binary.run common := by
  rw [ReaderT.run, tier.eq_def]
  cases common with
  | logicalNot => exact absurd rfl (infixed .not)
  | unary => exact absurd rfl (infixed .negate)
  | postfixChain => exact absurd rfl outer
  | _ => rfl

section Functions

variable {target lhs : Handle} {token : Token} {before between after : Session}
  {result : Except SyntaxError Handle}

/-- An expression is what its loosest tier gives, a level deeper. -/
theorem expression_within (within : depth < before.context.limit)
    (inner : Does (tier.run .lowest) (depth + 1) before result after) :
    Does (expression.run ()) depth before result after := by
  rw [ReaderT.run, Machine.expression]
  exact Does.nested within inner (.pure _ depth _)

/-- A primary is continued by links. -/
theorem postfixed_links (primary : Does (Machine.primary.run ()) depth before (.ok target) between)
    (links : Does (Machine.links.run target) depth between result after) :
    Does (tier.run .postfixChain) depth before result after := by
  rw [ReaderT.run, Machine.tier, ReaderT.run, Machine.postfixed]
  exact Does.bind primary links

/-- Where no operator stands before it, an operand is what a tighter tier gives. -/
theorem prefixed_operand {op : UnaryOp} (lacks : Lacks (acceptUnary op.tier) before.ahead)
    (operand : Does (tier.run op.tier.tighter) depth before result after) :
    Does (tier.run op.tier) depth before result after := by
  rw [tier_unary, ReaderT.run, Machine.prefixed]
  exact Does.bind (.eat_none lacks) operand

/-- A first operand is continued by operators. -/
theorem binary_operators {common : Tier} (outer : common ≠ .postfixChain)
    (infixed : ∀ op : UnaryOp, op.tier ≠ common)
    (operand : Does (tier.run common.tighter) depth before (.ok lhs) between)
    (operators : Does (Machine.operators.run (common, lhs)) depth between result after) :
    Does (tier.run common) depth before result after := by
  rw [tier_binary outer infixed, ReaderT.run, Machine.binary]
  exact Does.bind operand operators

/-- A link is continued by links. -/
theorem links_link {continuation : Continuation} {next : Handle}
    (first : before.ahead = token :: rest)
    (accepted : acceptContinuation token.kind = some continuation)
    (link : Does (Machine.link.run (target, continuation)) depth before (.ok next) between)
    (links : Does (Machine.links.run next) depth between result after) :
    Does (Machine.links.run target) depth before result after := by
  rw [ReaderT.run, Machine.links]
  exact Does.bind (.peek first accepted) (link.bind links)

/-- An operator with its operand, whose node is stored, is continued by operators. -/
theorem operators_operator {op : BinaryOp} {rhs folded : Handle} {stored : Session}
    (first : before.ahead = token :: rest) (found : token.kind.binaryOp? = some op)
    (operand : Does (tier.run op.tier.tighter) depth (before.reach rest before.ast) (.ok rhs) between)
    (pushed : Does (Machine.push (.binary op lhs rhs) token.span) depth between folded stored)
    (operators : Does (Machine.operators.run (op.tier, folded)) depth stored result after) :
    Does (Machine.operators.run (op.tier, lhs)) depth before result after := by
  rw [ReaderT.run, Machine.operators]
  exact (Does.eat_binary first found).bind (operand.bind (pushed.bind operators))

/-- An argument is continued by a comma and further arguments. -/
theorem arguments_more {arguments : List Handle} {argument : Handle} {comma : Token}
    {behind : Session} {given : Except SyntaxError (List Handle)}
    (first : Does (Machine.expression.run ()) depth before (.ok argument) between)
    (separated : Does (eat? (acceptMark .comma)) depth between (some ((), comma)) behind)
    (further : Does (Machine.arguments.run (arguments ++ [argument])) depth behind given after) :
    Does (Machine.arguments.run arguments) depth before given after := by
  rw [ReaderT.run, Machine.arguments]
  exact first.bind (separated.bind further)

end Functions

end Machine

/-- The machine, asked for the goal, stores the values and moves on to the rest of the tokens. What
the goal is given was stored last, in the base, into which the values are inserted as a whole. -/
def Goal.Done (goal : Goal) (depth : Nat) (session : Session) (values : List (Expr Span))
    (rest : List Token) : Prop :=
  match goal, values with
  | .expression, [expr] => Does (Machine.expression.run ()) depth session
      (.ok (session.ast.insert expr).1) (session.reach rest (session.ast.insert expr).2)
  | .tier loosest, [expr] => Does (Machine.tier.run loosest) depth session
      (.ok (session.ast.insert expr).1) (session.reach rest (session.ast.insert expr).2)
  | .primary, [expr] => Does (Machine.primary.run ()) depth session
      (.ok (session.ast.insert expr).1) (session.reach rest (session.ast.insert expr).2)
  | .run common lhs, [expr] => ∀ base : Ast, session.ast = (base.insert lhs).2 →
      Does (Machine.operators.run (common, (base.insert lhs).1)) depth session
        (.ok (base.insert expr).1) (session.reach rest (base.insert expr).2)
  | .chain target, [expr] => ∀ base : Ast, session.ast = (base.insert target).2 →
      Does (Machine.links.run (base.insert target).1) depth session
        (.ok (base.insert expr).1) (session.reach rest (base.insert expr).2)
  | .link target, [expr] => ∃ token behind continuation, session.ahead = token :: behind ∧
      acceptContinuation token.kind = some continuation ∧
      ∀ base : Ast, session.ast = (base.insert target).2 →
        Does (Machine.link.run ((base.insert target).1, continuation)) depth session
          (.ok (base.insert expr).1) (session.reach rest (base.insert expr).2)
  | .arguments, values => ∀ before, Does (Machine.arguments.run before) depth session
      (.ok (before ++ (session.ast.insertAll values).1))
      (session.reach rest (session.ast.insertAll values).2)
  | _, _ => False

/-- On every session before the tokens, with so much room left, the machine stores the values and
moves on. -/
def Goal.DoneFrom (goal : Goal) (room : Nat) (tokens : List Token) (values : List (Expr Span))
    (rest : List Token) : Prop :=
  ∀ (depth : Nat) (session : Session), session.ahead = tokens →
    depth + room = session.context.limit → goal.Done depth session values rest

section Successes

variable {room : Nat} {tokens middle rest : List Token} {expr target lhs rhs operand : Expr Span}
  {token opener closer : Token}

/-- An expression is done when its loosest tier is. -/
theorem Goal.DoneFrom.expression (inner : (Goal.tier .lowest).DoneFrom room tokens [expr] rest) :
    Goal.expression.DoneFrom (room + 1) tokens [expr] rest := by
  intro depth session ahead level
  have within : depth < session.context.limit := by omega
  exact Machine.expression_within within (inner (depth + 1) session ahead (by omega))

/-- An expression at the tightest tier is done when its primary and the links are. -/
theorem Goal.DoneFrom.postfixed (first : Goal.primary.DoneFrom room tokens [target] middle)
    (chain : (Goal.chain target).DoneFrom room middle [expr] rest) (early : middle <:+ tokens)
    (late : rest <:+ middle) : (Goal.tier .postfixChain).DoneFrom room tokens [expr] rest := by
  intro depth session ahead level
  subst ahead
  have links := (chain depth (session.reach middle (session.ast.insert target).2) rfl level
    session.ast rfl).onward early late
  exact Machine.postfixed_links (first depth session rfl level) links

/-- An operator before an operand is done when its operand is, a level deeper. -/
theorem Goal.DoneFrom.prefixed {op : UnaryOp} (found : token.kind.unaryOp? = some op)
    (inner : (Goal.tier op.tier).DoneFrom room tokens [operand] rest) (late : rest <:+ tokens) :
    (Goal.tier op.tier).DoneFrom (room + 1) (token :: tokens)
      [.unary token.span op operand] rest := by
  intro depth session ahead level
  have within : depth < session.context.limit := by omega
  have deeper : depth + 1 + room = session.context.limit := by omega
  have nested := (inner (depth + 1) (session.reach tokens session.ast) rfl deeper).onward
    (Machine.suffix_behind ahead) late
  rw [Machine.tier_unary] at nested
  have made := Does.push_ok (.unary op (session.ast.insert operand).1) token.span depth session
    rest (session.ast.insert operand).2
  show Does (Machine.tier.run op.tier) _ _ _ _
  rw [Machine.tier_unary, ReaderT.run, Machine.prefixed]
  exact (Does.eat_unary ahead found).bind (Does.nested within nested made)

/-- An expression at another tier is done when its first operand and the operators are. -/
theorem Goal.DoneFrom.binary {loosest : Tier} (outer : loosest ≠ .postfixChain)
    (lacks : Lacks (acceptUnary loosest) tokens)
    (first : (Goal.tier loosest.tighter).DoneFrom room tokens [lhs] middle)
    (run : (Goal.run loosest lhs).DoneFrom room middle [expr] rest) (early : middle <:+ tokens)
    (folded : Succeeds (.run loosest lhs) room middle [expr] rest) :
    (Goal.tier loosest).DoneFrom room tokens [expr] rest := by
  intro depth session ahead level
  subst ahead
  have operand := first depth session rfl level
  have operators := (run depth (session.reach middle (session.ast.insert lhs).2) rfl level
    session.ast rfl).onward early folded.usesUp.suffix
  -- At a tier of operators before an operand the machine looks for no operators behind it, and the
  -- run that the rules have there is empty.
  by_cases infixed : ∀ op : UnaryOp, op.tier ≠ loosest
  · exact Machine.binary_operators outer infixed operand operators
  · obtain ⟨op, rfl⟩ : ∃ op : UnaryOp, op.tier = loosest := by simpa using infixed
    obtain ⟨rfl, rfl, _⟩ := folded.run_empty op.tier_ne
    exact Machine.prefixed_operand lacks operand

/-- Where no operator follows, a run of operators is done. -/
theorem Goal.DoneFrom.operators_end {common : Tier} (lacks : Lacks (acceptBinary common) tokens) :
    (Goal.run common lhs).DoneFrom room tokens [lhs] tokens := by
  intro depth session ahead level base stored
  subst ahead
  have absent : Does (Machine.eat? (acceptBinary common)) depth session none session :=
    .eat_none lacks
  rw [ReaderT.run, Machine.operators, ← stored, Session.reach_self]
  exact absent.bind (.pure _ depth session)

/-- A run of operators is done when an operand and the run behind its operator are. -/
theorem Goal.DoneFrom.operators {op : BinaryOp} (found : token.kind.binaryOp? = some op)
    (operand : (Goal.tier op.tier.tighter).DoneFrom room tokens [rhs] middle)
    (run : (Goal.run op.tier (.binary token.span op lhs rhs)).DoneFrom room middle [expr] rest)
    (early : middle <:+ tokens) (late : rest <:+ middle) :
    (Goal.run op.tier lhs).DoneFrom room (token :: tokens) [expr] rest := by
  intro depth session ahead level base stored
  have behind := Machine.suffix_behind ahead
  have right := (operand depth (session.reach tokens session.ast) rfl level).onward behind early
  have pushed := Does.operated stored op rhs token.span depth session middle
  have operators := (run depth (session.reach middle
    (base.insert (.binary token.span op lhs rhs)).2) rfl level base rfl).onward
      (early.trans behind) late
  exact Machine.operators_operator ahead found right pushed operators

/-- Where nothing continues a target, a chain is done. -/
theorem Goal.DoneFrom.links_end (lacks : Lacks acceptContinuation tokens) :
    (Goal.chain target).DoneFrom room tokens [target] tokens := by
  intro depth session ahead level base stored
  subst ahead
  have absent : Does (Machine.peek? acceptContinuation) depth session none session :=
    .peek_none lacks
  rw [ReaderT.run, Machine.links, ← stored, Session.reach_self]
  exact absent.bind (.pure _ depth session)

/-- A chain is done when a link and the chain behind it are. -/
theorem Goal.DoneFrom.links {next : Expr Span}
    (link : (Goal.link target).DoneFrom room tokens [next] middle)
    (chain : (Goal.chain next).DoneFrom room middle [expr] rest) (early : middle <:+ tokens)
    (late : rest <:+ middle) : (Goal.chain target).DoneFrom room tokens [expr] rest := by
  intro depth session ahead level base stored
  obtain ⟨token, behind, continuation, first, accepted, made⟩ := link depth session ahead level
  subst ahead
  have links := (chain depth (session.reach middle (base.insert next).2) rfl level base
    rfl).onward early late
  exact Machine.links_link first accepted (made base stored) links

/-- An index is done when its position is. -/
theorem Goal.DoneFrom.index {position : Expr Span} (opens : opener.kind = .mark .openBracket)
    (closes : closer.kind = .mark .closeBracket)
    (inner : Goal.expression.DoneFrom room tokens [position] (closer :: rest))
    (late : closer :: rest <:+ tokens) :
    (Goal.link target).DoneFrom room (opener :: tokens)
      [.index opener.span target position] rest := by
  intro depth session ahead level
  refine ⟨opener, tokens, .index, ahead, acceptContinuation_eq_some.mpr opens, ?_⟩
  intro base stored
  have behind := Machine.suffix_behind ahead
  have inside := (inner depth (session.reach tokens session.ast) rfl level).onward behind late
  have whole : base.insert (.index opener.span target position) =
      (session.ast.insert position).2.push
        (.index (base.insert target).1 (session.ast.insert position).1) opener.span := by
    rw [stored]; rfl
  have closed := Does.closed closes (late.trans behind) opener depth
    (session.ast.insert position).2
  rw [whole, ReaderT.run, Machine.link, ReaderT.run, Machine.index]
  exact (Does.advance ahead).bind (inside.bind (closed.bind (Does.push_ok _ _ depth session _ _)))

/-- A call without arguments is done. -/
theorem Goal.DoneFrom.call_empty (opens : opener.kind = .mark .openParen)
    (closes : closer.kind = .mark .closeParen) :
    (Goal.link target).DoneFrom room (opener :: closer :: rest)
      [.call opener.span target []] rest := by
  intro depth session ahead level
  refine ⟨opener, closer :: rest, .call, ahead, acceptContinuation_eq_some.mpr opens, ?_⟩
  intro base stored
  have behind := Machine.suffix_behind ahead
  have seen : Does (Machine.peek? (acceptMark .closeParen)) depth
      (session.reach (closer :: rest) session.ast) (some ())
      (session.reach (closer :: rest) session.ast) :=
    .peek rfl (acceptMark_eq_some.mpr closes)
  have given : Does (Machine.given.run ()) depth (session.reach (closer :: rest) session.ast)
      (.ok []) (session.reach (closer :: rest) session.ast) := by
    rw [ReaderT.run, Machine.given]
    exact seen.bind (.pure _ depth _)
  have closed := Does.closed closes behind opener depth session.ast
  have whole : base.insert (.call opener.span target []) =
      (session.ast.pushList []).2.push
        (.call (base.insert target).1 (session.ast.pushList []).1) opener.span := by
    rw [stored]; rfl
  rw [whole, ReaderT.run, Machine.link, ReaderT.run, Machine.call]
  exact (Does.advance ahead).bind (given.bind (closed.bind
    ((Does.pushList []).bind (Does.push_ok _ _ depth session _ _))))

/-- A call is done when its arguments are. -/
theorem Goal.DoneFrom.call {arguments : List (Expr Span)} (opens : opener.kind = .mark .openParen)
    (closes : closer.kind = .mark .closeParen) (more : Lacks (acceptMark .closeParen) tokens)
    (inner : Goal.arguments.DoneFrom room tokens arguments (closer :: rest))
    (late : closer :: rest <:+ tokens) :
    (Goal.link target).DoneFrom room (opener :: tokens)
      [.call opener.span target arguments] rest := by
  intro depth session ahead level
  refine ⟨opener, tokens, .call, ahead, acceptContinuation_eq_some.mpr opens, ?_⟩
  intro base stored
  have behind := Machine.suffix_behind ahead
  have inside := (inner depth (session.reach tokens session.ast) rfl level []).onward behind late
  have given := Machine.given_arguments more inside
  rw [List.nil_append] at given
  have closed := Does.closed closes (late.trans behind) opener depth
    (session.ast.insertAll arguments).2
  have whole : base.insert (.call opener.span target arguments) =
      ((session.ast.insertAll arguments).2.pushList
        (session.ast.insertAll arguments).1).2.push (.call (base.insert target).1
          ((session.ast.insertAll arguments).2.pushList
            (session.ast.insertAll arguments).1).1) opener.span := by
    rw [stored]; rfl
  rw [whole, ReaderT.run, Machine.link, ReaderT.run, Machine.call]
  exact (Does.advance ahead).bind (given.bind (closed.bind
    ((Does.pushList _).bind (Does.push_ok _ _ depth session _ _))))

/-- A selector is done. -/
theorem Goal.DoneFrom.selector {dot : Token} {chosen : Selector} (dotted : dot.kind = .mark .dot)
    (accepted : acceptSelector token.kind = some chosen) :
    (Goal.link target).DoneFrom room (dot :: token :: rest)
      [selected target dot token chosen] rest := by
  intro depth session ahead level
  refine ⟨dot, token :: rest, .selector, ahead, acceptContinuation_eq_some.mpr dotted, ?_⟩
  intro base stored
  have behind := Machine.suffix_behind ahead
  have seen : Does (Machine.peek? acceptSelector) depth
      (session.reach (token :: rest) session.ast) (some chosen)
      (session.reach (token :: rest) session.ast) := .peek rfl accepted
  have taken : Does Machine.advance depth (session.reach (token :: rest) session.ast) token
      (session.reach rest session.ast) :=
    Does.onward (Does.advance rfl) behind (List.suffix_cons token rest)
  rw [ReaderT.run, Machine.link, Machine.selector]
  refine (Does.advance ahead).bind (seen.bind (taken.bind ?_))
  cases chosen with
  | access access =>
    have whole : base.insert (selected target dot token (.access access)) =
        session.ast.push (.primitive access (base.insert target).1) (selectorSpan dot token) := by
      rw [stored]; rfl
    rw [whole]
    exact Does.push_ok _ _ depth session _ _
  | field =>
    have whole : base.insert (selected target dot token .field) =
        (session.ast.intern token.text).2.push
          (.field (base.insert target).1 (session.ast.intern token.text).1)
          (selectorSpan dot token) := by
      rw [stored]; rfl
    rw [whole]
    exact (Does.intern _).bind (Does.push_ok _ _ depth session _ _)

/-- The last argument is done when its expression is. -/
theorem Goal.DoneFrom.last_argument (inner : Goal.expression.DoneFrom room tokens [expr] rest)
    (lacks : Lacks (acceptMark .comma) rest) : Goal.arguments.DoneFrom room tokens [expr] rest := by
  intro depth session ahead level before
  subst ahead
  have first := inner depth session rfl level
  have absent : Does (Machine.eat? (acceptMark .comma)) depth
      (session.reach rest (session.ast.insert expr).2) none _ := .eat_none lacks
  rw [ReaderT.run, Machine.arguments]
  exact first.bind (absent.bind (.pure _ depth _))

/-- Arguments are done when the first one and those behind its comma are. -/
theorem Goal.DoneFrom.arguments {comma : Token} {others : List (Expr Span)}
    (inner : Goal.expression.DoneFrom room tokens [expr] (comma :: middle))
    (separates : comma.kind = .mark .comma)
    (later : Goal.arguments.DoneFrom room middle others rest) (early : comma :: middle <:+ tokens)
    (late : rest <:+ middle) : Goal.arguments.DoneFrom room tokens (expr :: others) rest := by
  intro depth session ahead level before
  subst ahead
  have behind := (List.suffix_cons comma middle).trans early
  have separated := Does.eat_mark separates early depth (session.ast.insert expr).2
  have further := (later depth (session.reach middle (session.ast.insert expr).2) rfl level
    (before ++ [(session.ast.insert expr).1])).onward behind late
  rw [List.append_assoc] at further
  exact Machine.arguments_more (inner depth session rfl level) separated further

/-- A token that is an expression on its own is done. -/
theorem Goal.DoneFrom.leaf (alone : token.leaf? = some expr) :
    Goal.primary.DoneFrom room (token :: rest) [expr] rest := by
  intro depth session ahead level
  show Does (Machine.primary.run ()) _ _ _ _
  rw [ReaderT.run, Machine.primary]
  refine Does.of_state fun machine here _ => ?_
  subst here
  unfold Token.leaf? at alone
  split at alone
  · next written =>
    cases alone
    rw [Machine.lexeme_in_view ahead written]
    exact .literal _ ahead
  · next written =>
    cases alone
    rw [Machine.lexeme_in_view ahead written]
    exact .literal _ ahead
  · next content written =>
    cases alone
    rw [Machine.lexeme_in_view ahead written]
    exact .textual content .str ahead
  · next name written =>
    cases alone
    rw [Machine.lexeme_in_view ahead written]
    exact .textual name .identifier ahead
  · next digits written =>
    obtain ⟨number, fits, rfl⟩ := Option.map_eq_some_iff.mp alone
    rw [Machine.lexeme_in_view ahead written]
    exact .integer ahead fits
  · cases alone

/-- A group is done when its expression is. -/
theorem Goal.DoneFrom.group (opens : opener.kind = .mark .openParen)
    (closes : closer.kind = .mark .closeParen)
    (inner : Goal.expression.DoneFrom room tokens [expr] (closer :: rest))
    (late : closer :: rest <:+ tokens) : Goal.primary.DoneFrom room (opener :: tokens) [expr] rest := by
  intro depth session ahead level
  have behind := Machine.suffix_behind ahead
  have inside := (inner depth (session.reach tokens session.ast) rfl level).onward behind late
  have closed := Does.closed closes (late.trans behind) opener depth (session.ast.insert expr).2
  refine Machine.primary_group ahead opens ?_
  rw [ReaderT.run, Machine.group]
  exact (Does.advance ahead).bind (inside.bind (closed.bind (.pure _ depth _)))

end Successes

/-- What succeeds by the rules the machine does. -/
theorem Succeeds.done {goal : Goal} {room : Nat} {tokens rest : List Token}
    {values : List (Expr Span)} (succeeds : Succeeds goal room tokens values rest) :
    goal.DoneFrom room tokens values rest := by
  induction succeeds with
  | expression _ inner => exact inner.expression
  | primary parsed continued first chain =>
    exact first.postfixed chain parsed.usesUp.suffix continued.usesUp.suffix
  | unary found parsed inner => exact inner.prefixed found parsed.usesUp.suffix
  | descend outer lacks parsed folded first run =>
    exact first.binary outer lacks run parsed.usesUp.suffix folded
  | run_end lacks => exact .operators_end lacks
  | operator found parsed folded operand run =>
    exact operand.operators found run parsed.usesUp.suffix folded.usesUp.suffix
  | chain_end lacks => exact .links_end lacks
  | chain_link linked continued link chain =>
    exact link.links chain linked.usesUp.suffix continued.usesUp.suffix
  | index opens closes parsed inner => exact inner.index opens closes parsed.usesUp.suffix
  | call_empty opens closes => exact .call_empty opens closes
  | call opens closes more parsed inner => exact inner.call opens closes more parsed.usesUp.suffix
  | selector dotted accepted => exact .selector dotted accepted
  | last_argument _ lacks inner => exact inner.last_argument lacks
  | argument parsed separates others inner later =>
    exact inner.arguments separates later parsed.usesUp.suffix others.usesUp.suffix
  | leaf alone => exact .leaf alone
  | group opens closes parsed inner => exact inner.group opens closes parsed.usesUp.suffix

end Cascade
