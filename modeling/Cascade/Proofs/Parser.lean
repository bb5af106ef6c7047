import Cascade.Proofs.Grammar

/-!
# The parser reads the grammar

What the rules of success give is a writing of what they give, and no token that could continue it
follows. Conversely every writing in front of such tokens is read back as what it is a writing of.
So the parser takes the longest writing there is, and takes it apart in the one way the grammar has.
-/
namespace Cascade

/-- No token that continues an expression at the tier comes first: no index, call or selector, and
no operator between operands of the tier or a tighter one. -/
structure Closed (tier : Tier) (tokens : List Token) : Prop where
  /-- No target is continued. -/
  target : Lacks acceptContinuation tokens
  /-- No operand is continued. -/
  operand : ∀ token ∈ tokens.head?, ∀ op, token.kind.binaryOp? = some op → op.tier.rank < tier.rank

/-- What continues no loose expression continues no tight one. -/
theorem Closed.tighten {loose tight : Tier} {tokens : List Token} (closed : Closed loose tokens)
    (tighter : loose.rank ≤ tight.rank) : Closed tight tokens where
  target := closed.target
  operand token first op found := Nat.lt_of_lt_of_le (closed.operand token first op found) tighter

/-- Nothing continues an expression at the end of the tokens. -/
theorem Closed.nil (tier : Tier) : Closed tier [] := ⟨nofun, nofun⟩

/-- Tokens without operators of a tier that are closed at the next are closed at the tier. -/
theorem Closed.loosen {tier : Tier} {tokens : List Token} (closed : Closed tier.tighter tokens)
    (lacks : Lacks (acceptBinary tier) tokens) : Closed tier tokens where
  target := closed.target
  operand token first op found := by
    have below := closed.operand token first op found
    have reach := tier.rank_tighter_le
    have other : op.tier.rank ≠ tier.rank := by
      intro same
      have accepted := acceptBinary_eq_some.mpr ⟨found, Tier.rank_injective same⟩
      rw [lacks token first] at accepted
      cases accepted
    omega

/-- Tokens that are closed at a tier have no operators of it. -/
theorem Closed.lacks {tier : Tier} {tokens : List Token} (closed : Closed tier tokens) :
    Lacks (acceptBinary tier) tokens := by
  intro token first
  cases accepted : acceptBinary tier token.kind with
  | none => rfl
  | some op =>
    obtain ⟨found, rfl⟩ := acceptBinary_eq_some.mp accepted
    exact absurd (closed.operand token first op found) (Nat.lt_irrefl _)

/-- With so much room the tokens down to the rest are a writing of the values for the goal, and
nothing continues it. For a run, a chain and a link it is a writing together with every writing of
what they continue. -/
def Goal.Sound (room : Nat) (tokens : List Token) (values : List (Expr Span)) (rest : List Token) :
    Goal → Prop
  | .expression => ∃ written, tokens = written ++ rest ∧ Writing .whole room values written ∧
      Closed .lowest rest
  | .tier loosest => ∃ written, tokens = written ++ rest ∧
      Writing (.tier loosest) room values written ∧ Closed loosest rest
  | .run common lhs => ∀ before, Writing (.tier common) room [lhs] before →
      Closed common.tighter tokens → ∃ written, tokens = written ++ rest ∧
        Writing (.tier common) room values (before ++ written) ∧ Closed common rest
  | .chain target => ∀ before, Writing (.tier .postfixChain) room [target] before →
      ∃ written, tokens = written ++ rest ∧
        Writing (.tier .postfixChain) room values (before ++ written) ∧ Closed .postfixChain rest
  | .link target => ∀ before, Writing (.tier .postfixChain) room [target] before →
      ∃ written, tokens = written ++ rest ∧
        Writing (.tier .postfixChain) room values (before ++ written)
  | .arguments => ∃ written, tokens = written ++ rest ∧ Writing .arguments room values written
  | .primary => ∃ written, tokens = written ++ rest ∧
      Writing (.tier .postfixChain) room values written

/-- What the rules of success give is written by the tokens they take up. -/
theorem Succeeds.sound {goal : Goal} {room : Nat} {tokens rest : List Token}
    {values : List (Expr Span)} (succeeds : Succeeds goal room tokens values rest) :
    goal.Sound room tokens values rest := by
  induction succeeds with
  | expression _ ih =>
    obtain ⟨written, same, writing, closed⟩ := ih
    exact ⟨written, same, .whole writing, closed⟩
  | primary _ _ first chain =>
    obtain ⟨before, rfl, target⟩ := first
    obtain ⟨written, rfl, writing, closed⟩ := chain before target
    exact ⟨before ++ written, (List.append_assoc ..).symm, writing, closed⟩
  | @unary room token op tokens rest operand found _ ih =>
    obtain ⟨written, rfl, writing, closed⟩ := ih
    exact ⟨token :: written, rfl, .unary found (Nat.le_refl _) writing, closed⟩
  | @descend tier room tokens middle rest lhs expr outer lacks _ _ first run =>
    obtain ⟨before, rfl, operand, closed⟩ := first
    have lhsWriting := operand.loosen tier.le_rank_tighter
    obtain ⟨written, rfl, writing, stopped⟩ := run before lhsWriting closed
    exact ⟨before ++ written, (List.append_assoc ..).symm, writing, stopped⟩
  | run_end lacks =>
    intro before writing closed
    refine ⟨[], rfl, ?_, closed.loosen lacks⟩
    rw [List.append_nil]
    exact writing
  | @operator room token op tokens middle rest lhs rhs expr found _ _ operand run =>
    intro before left _
    obtain ⟨right, rfl, writing, closed⟩ := operand
    have both := Writing.binary found (Nat.le_refl _) left writing
    obtain ⟨written, rfl, whole, stopped⟩ := run _ both closed
    refine ⟨token :: (right ++ written), ?_, ?_, stopped⟩
    · rw [List.cons_append, List.append_assoc]
    · rw [List.append_assoc, List.cons_append] at whole
      exact whole
  | chain_end lacks =>
    intro before writing
    refine ⟨[], rfl, ?_, lacks, fun _ _ op _ => ?_⟩
    · rw [List.append_nil]
      exact writing
    · cases op <;> decide
  | chain_link _ _ link chain =>
    intro before target
    obtain ⟨first, rfl, next⟩ := link before target
    obtain ⟨written, rfl, whole, stopped⟩ := chain _ next
    rw [List.append_assoc] at whole
    exact ⟨first ++ written, (List.append_assoc ..).symm, whole, stopped⟩
  | @index target position room opener closer tokens rest opens closes _ ih =>
    intro before writing
    obtain ⟨inside, rfl, position, _⟩ := ih
    refine ⟨opener :: (inside ++ [closer]), ?_, .index opens closes writing position⟩
    rw [List.cons_append, List.append_assoc, List.singleton_append]
  | @call_empty target room opener closer rest opens closes =>
    intro before writing
    exact ⟨[opener, closer], rfl, .call_empty opens closes writing⟩
  | @call target arguments room opener closer tokens rest opens closes _ _ ih =>
    intro before writing
    obtain ⟨inside, rfl, given⟩ := ih
    refine ⟨opener :: (inside ++ [closer]), ?_, .call opens closes writing given⟩
    rw [List.cons_append, List.append_assoc, List.singleton_append]
  | @selector target selector room dot token rest dotted accepted =>
    intro before writing
    exact ⟨[dot, token], rfl, .selector dotted accepted writing⟩
  | last_argument _ _ ih =>
    obtain ⟨written, same, writing, _⟩ := ih
    exact ⟨written, same, .last_argument writing⟩
  | @argument argument arguments room comma tokens middle rest _ separates _ first others =>
    obtain ⟨written, rfl, writing, _⟩ := first
    obtain ⟨later, rfl, given⟩ := others
    refine ⟨written ++ comma :: later, ?_, .argument separates writing given⟩
    rw [List.append_assoc, List.cons_append]
  | @leaf expr room token rest alone => exact ⟨[token], rfl, .leaf alone⟩
  | @group expr room opener closer tokens rest opens closes _ ih =>
    obtain ⟨inside, rfl, writing, _⟩ := ih
    refine ⟨opener :: (inside ++ [closer]), ?_, .group opens closes writing⟩
    rw [List.cons_append, List.append_assoc, List.singleton_append]

/-- A token that continues nothing closes every tier. -/
theorem Closed.cons {token : Token} (tier : Tier) (rest : List Token)
    (noTarget : acceptContinuation token.kind = none) (noOperand : token.kind.binaryOp? = none) :
    Closed tier (token :: rest) where
  target first found := by cases found; exact noTarget
  operand first found op there := by cases found; rw [noOperand] at there; cases there

/-- A mark that continues nothing closes every tier. -/
theorem Closed.mark {token : Token} {mark : Mark} (marked : token.kind = .mark mark)
    (plain : acceptContinuation (.mark mark) = none ∧ (TokenKind.mark mark).binaryOp? = none)
    {tier : Tier} (rest : List Token) : Closed tier (token :: rest) := by
  rw [← marked] at plain
  exact .cons tier rest plain.1 plain.2

/-- An operator between operands closes every tier that is tighter. -/
theorem Closed.operator {token : Token} {op : BinaryOp} {tier : Tier} (rest : List Token)
    (found : token.kind.binaryOp? = some op) (looser : op.tier.rank < tier.rank) :
    Closed tier (token :: rest) where
  target first same := by
    cases same
    cases accepted : acceptContinuation token.kind with
    | none => rfl
    | some continuation =>
      rw [acceptContinuation_eq_some.mp accepted] at found
      cases continuation <;> cases found
  operand first same other there := by
    cases same
    rw [found] at there
    cases there
    exact looser

/-- Behind the expression at the tier the tokens down to the rest make the final expression. -/
structure Resumes (tier : Tier) (room : Nat) (expr : Expr Span) (tokens : List Token)
    (final : Expr Span) (rest : List Token) : Prop where
  /-- At the tightest tier by a run of indices, calls and selectors. -/
  chain : tier = .postfixChain → Succeeds (.chain expr) room tokens [final] rest
  /-- At every other by a run of operators of the tier. -/
  run : tier ≠ .postfixChain → Closed tier.tighter tokens ∧
    Succeeds (.run tier expr) room tokens [final] rest

namespace Resumes

variable {tier tight : Tier} {tokens : List Token}

/-- Tokens that continue nothing leave the expression as it is. -/
theorem of_closed (expr : Expr Span) (room : Nat) (closed : Closed tier tokens) :
    Resumes tier room expr tokens expr tokens where
  chain _ := .chain_end closed.target
  run _ := ⟨closed.tighten tier.le_rank_tighter, .run_end closed.lacks⟩

/-- A tier with a tighter one is not the tightest. -/
theorem outer (looser : tier.rank < tight.rank) : tier ≠ .postfixChain := by
  rintro rfl
  exact absurd (Tier.rank_le tight) (Nat.not_le_of_lt looser)

end Resumes

/-- No operator that is looser than a writing stands before it. -/
theorem Writing.lacks_unary {tier tight : Tier} {room : Nat} {values : List (Expr Span)}
    {written : List Token} (writing : Writing (.tier tight) room values written)
    (looser : tier.rank < tight.rank) (rest : List Token) :
    Lacks (acceptUnary tier) (written ++ rest) := by
  obtain ⟨token, tail, rfl, begins⟩ := writing.begins
  intro first same
  cases same
  cases accepted : acceptUnary tier token.kind with
  | none => rfl
  | some op =>
    obtain ⟨found, rfl⟩ := acceptUnary_eq_some.mp accepted
    exact absurd (begins.tight op found) (Nat.not_le_of_lt looser)

/-- The writing is read at the tier whenever what follows is read behind it. -/
def ReadAt (tier : Tier) (room : Nat) (expr : Expr Span) (written : List Token) : Prop :=
  ∀ tokens final rest, Resumes tier room expr tokens final rest →
    Succeeds (.tier tier) room (written ++ tokens) [final] rest

/-- What is read at a tier is read at every looser one: no operator is found on the way down. -/
theorem ReadAt.loosen {loose tight : Tier} {room : Nat} {expr : Expr Span} {written : List Token}
    (read : ReadAt tight room expr written) (writing : Writing (.tier tight) room [expr] written)
    (looser : loose.rank ≤ tight.rank) : ReadAt loose room expr written := by
  intro tokens final rest resumes
  obtain strict | same := Nat.lt_or_eq_of_le looser
  · have outer := Resumes.outer strict
    obtain ⟨closed, run⟩ := resumes.run outer
    have next : loose.tighter.rank ≤ tight.rank := Nat.le_trans loose.rank_tighter_le strict
    have ranked := Tier.rank_tighter outer
    have first := read.loosen writing next tokens expr tokens (.of_closed expr room closed)
    exact .descend outer (writing.lacks_unary strict tokens) first run
  · obtain rfl := Tier.rank_injective same
    exact read tokens final rest resumes
termination_by tight.rank - loose.rank

/-- The writing is read as the phrase. -/
def Phrase.Read (room : Nat) (values : List (Expr Span)) (written : List Token) : Phrase → Prop
  | .whole => ∀ rest, Closed .lowest rest →
      Succeeds .expression room (written ++ rest) values rest
  | .tier loosest => ∃ expr, values = [expr] ∧ ReadAt loosest room expr written
  | .arguments => ∀ rest, Closed .lowest rest → Lacks (acceptMark .comma) rest →
      Succeeds .arguments room (written ++ rest) values rest

/-- A run at a tier without operators between operands is empty. -/
theorem Succeeds.run_empty {tier : Tier} {room : Nat} {lhs final : Expr Span}
    {tokens rest : List Token} (none : ∀ op : BinaryOp, op.tier ≠ tier)
    (succeeds : Succeeds (.run tier lhs) room tokens [final] rest) :
    final = lhs ∧ rest = tokens ∧ Lacks (acceptBinary tier) tokens := by
  cases succeeds with
  | run_end lacks => exact ⟨rfl, rfl, lacks⟩
  | operator _ _ _ => exact absurd rfl (none _)

/-- No operator stands both between operands and before one at the same tier. -/
theorem UnaryOp.tier_ne (op : UnaryOp) (other : BinaryOp) : other.tier ≠ op.tier := by
  cases op <;> cases other <;> decide

/-- A writing that a primary or a chain takes up is read at every tier. -/
theorem ReadAt.of_postfix {room : Nat} {expr : Expr Span} {written : List Token} (loosest : Tier)
    (writing : Writing (.tier .postfixChain) room [expr] written)
    (read : ∀ tokens final rest, Succeeds (.chain expr) room tokens [final] rest →
      Succeeds (.tier .postfixChain) room (written ++ tokens) [final] rest) :
    ReadAt loosest room expr written := by
  have tight : ReadAt .postfixChain room expr written := fun tokens final rest resumes =>
    read tokens final rest (resumes.chain rfl)
  exact tight.loosen writing (Tier.rank_le loosest)

/-- A link behind a target is read with the target. -/
theorem ReadAt.link {room : Nat} {target next : Expr Span} {before linking : List Token}
    (loosest : Tier) (read : ReadAt .postfixChain room target before)
    (writing : Writing (.tier .postfixChain) room [next] (before ++ linking))
    (link : ∀ tokens, Succeeds (.link target) room (linking ++ tokens) [next] tokens) :
    ReadAt loosest room next (before ++ linking) := by
  apply ReadAt.of_postfix loosest writing
  intro tokens final rest chain
  rw [List.append_assoc]
  apply read
  exact ⟨fun _ => .chain_link (link tokens) chain, fun outer => absurd rfl outer⟩

section Reading

variable {room : Nat} {token opener closer : Token} {expr lhs rhs operand target : Expr Span}
  {inside left right written : List Token}

/-- A group is read if what it encloses is. -/
theorem ReadAt.group (loosest : Tier) (opens : opener.kind = .mark .openParen)
    (closes : closer.kind = .mark .closeParen) (writing : Writing .whole room [expr] inside)
    (read : Phrase.whole.Read room [expr] inside) :
    ReadAt loosest room expr (opener :: (inside ++ [closer])) := by
  apply ReadAt.of_postfix loosest (.group opens closes writing)
  intro tokens final rest chain
  have closed : Closed .lowest (closer :: tokens) := .mark closes (by decide) tokens
  rw [List.cons_append, List.append_assoc, List.singleton_append]
  exact .primary (.group opens closes (read (closer :: tokens) closed)) chain

/-- An operation between operands is read at its own tier if they are. -/
theorem ReadAt.binary {op : BinaryOp} (found : token.kind.binaryOp? = some op)
    (leftRead : ReadAt op.tier room lhs left) (rightRead : ReadAt op.tier.tighter room rhs right) :
    ReadAt op.tier room (.binary token.span op lhs rhs) (left ++ token :: right) := by
  intro tokens final rest resumes
  have outer : op.tier ≠ .postfixChain := by cases op <;> decide
  have ranked := Tier.rank_tighter outer
  have looser : op.tier.rank < op.tier.tighter.rank := by omega
  obtain ⟨closed, run⟩ := resumes.run outer
  have operand := rightRead tokens rhs tokens (.of_closed rhs room closed)
  rw [List.append_assoc, List.cons_append]
  apply leftRead
  refine ⟨fun same => absurd same outer, fun _ => ⟨?_, .operator found operand run⟩⟩
  exact .operator (right ++ tokens) found looser

/-- An operation before an operand is read at its own tier if the operand is. -/
theorem ReadAt.unary {op : UnaryOp} (found : token.kind.unaryOp? = some op)
    (read : ReadAt op.tier room operand written) :
    ReadAt op.tier (room + 1) (.unary token.span op operand) (token :: written) := by
  intro tokens final rest resumes
  obtain ⟨closed, run⟩ := resumes.run op.tier_outer
  obtain ⟨rfl, rfl, lacks⟩ := run.run_empty (UnaryOp.tier_ne op)
  exact .unary found (read rest operand rest (.of_closed operand room (closed.loosen lacks)))

/-- An index is read if its position is. -/
theorem Phrase.Read.index {position : Expr Span} (read : Phrase.whole.Read room [position] inside)
    (opens : opener.kind = .mark .openBracket) (closes : closer.kind = .mark .closeBracket)
    (tokens : List Token) :
    Succeeds (.link target) room (opener :: (inside ++ [closer]) ++ tokens)
      [.index opener.span target position] tokens := by
  have closed : Closed .lowest (closer :: tokens) := .mark closes (by decide) tokens
  rw [List.cons_append, List.append_assoc, List.singleton_append]
  exact .index opens closes (read (closer :: tokens) closed)

/-- A call is read if its arguments are. -/
theorem Phrase.Read.call {arguments : List (Expr Span)}
    (read : Phrase.arguments.Read room arguments inside)
    (writing : Writing .arguments room arguments inside) (opens : opener.kind = .mark .openParen)
    (closes : closer.kind = .mark .closeParen) (tokens : List Token) :
    Succeeds (.link target) room (opener :: (inside ++ [closer]) ++ tokens)
      [.call opener.span target arguments] tokens := by
  have closed : Closed .lowest (closer :: tokens) := .mark closes (by decide) tokens
  have last : Lacks (acceptMark .comma) (closer :: tokens) := by
    intro first same
    cases same
    rw [closes]
    rfl
  have more : Lacks (acceptMark .closeParen) (inside ++ closer :: tokens) := by
    obtain ⟨token, tail, rfl, begins⟩ := writing.begins
    intro first same
    cases same
    exact if_neg begins.not_closing
  rw [List.cons_append, List.append_assoc, List.singleton_append]
  exact .call opens closes more (read (closer :: tokens) closed last)

end Reading

/-- Every writing is read as what it is a writing of. -/
theorem Writing.read {phrase : Phrase} {room : Nat} {values : List (Expr Span)}
    {written : List Token} (writing : Writing phrase room values written) :
    phrase.Read room values written := by
  induction writing with
  | whole _ ih =>
    obtain ⟨_, ⟨⟩, read⟩ := ih
    exact fun rest closed => .expression (read rest _ rest (.of_closed _ _ closed))
  | leaf alone =>
    refine ⟨_, rfl, ReadAt.of_postfix _ (.leaf alone) ?_⟩
    exact fun _ _ _ chain => .primary (.leaf alone) chain
  | group opens closes writing ih => exact ⟨_, rfl, .group _ opens closes writing ih⟩
  | binary found allowed leftWriting rightWriting leftRead rightRead =>
    obtain ⟨_, ⟨⟩, leftRead⟩ := leftRead
    obtain ⟨_, ⟨⟩, rightRead⟩ := rightRead
    have both := Writing.binary found (Nat.le_refl _) leftWriting rightWriting
    exact ⟨_, rfl, (ReadAt.binary found leftRead rightRead).loosen both allowed⟩
  | unary found allowed writing ih =>
    obtain ⟨_, ⟨⟩, read⟩ := ih
    have whole := Writing.unary found (Nat.le_refl _) writing
    exact ⟨_, rfl, (ReadAt.unary found read).loosen whole allowed⟩
  | index opens closes targetWriting insideWriting targetRead insideRead =>
    obtain ⟨_, ⟨⟩, read⟩ := targetRead
    refine ⟨_, rfl, read.link _ (.index opens closes targetWriting insideWriting) ?_⟩
    exact insideRead.index opens closes
  | call_empty opens closes writing ih =>
    obtain ⟨_, ⟨⟩, read⟩ := ih
    refine ⟨_, rfl, read.link _ (.call_empty opens closes writing) ?_⟩
    exact fun tokens => .call_empty opens closes
  | call opens closes calleeWriting insideWriting calleeRead insideRead =>
    obtain ⟨_, ⟨⟩, read⟩ := calleeRead
    refine ⟨_, rfl, read.link _ (.call opens closes calleeWriting insideWriting) ?_⟩
    exact insideRead.call insideWriting opens closes
  | selector dotted accepted writing ih =>
    obtain ⟨_, ⟨⟩, read⟩ := ih
    refine ⟨_, rfl, read.link _ (.selector dotted accepted writing) ?_⟩
    exact fun tokens => .selector dotted accepted
  | last_argument _ ih => exact fun rest closed lacks => .last_argument (ih rest closed) lacks
  | @argument room comma argument arguments written others separates _ _ first later =>
    intro rest closed lacks
    have stopped : Closed .lowest (comma :: (others ++ rest)) :=
      .mark separates (by decide) (others ++ rest)
    rw [List.append_assoc, List.cons_append]
    exact .argument (first _ stopped) separates (later rest closed lacks)

/-- An expression is parsed in one way only. -/
theorem Succeeds.expression_unique {room : Nat} {tokens rest other : List Token}
    {one two : List (Expr Span)} (first : Succeeds .expression room tokens one rest)
    (second : Succeeds .expression room tokens two other) : one = two ∧ rest = other := by
  obtain ⟨_, _, rfl, parsed⟩ := first.parses ⟨0, .first⟩
  obtain ⟨_, _, rfl, again⟩ := second.parses ⟨0, .first⟩
  rw [parsed] at again
  cases again
  exact ⟨rfl, rfl⟩

/-- A whole writing that nothing continues is the longest at its place. -/
theorem Writing.longest {room more : Nat} {values others : List (Expr Span)}
    {written rest other tail : List Token} (writing : Writing .whole room values written)
    (closed : Closed .lowest rest) (longer : Writing .whole more others other)
    (same : written ++ rest = other ++ tail) : other.length ≤ written.length := by
  obtain ⟨extra, rfl, rfl⟩ | ⟨extra, rfl, _⟩ := List.append_eq_append_iff.mp same
  · have alone : Closed .lowest extra := by
      cases extra with
      | nil => exact .nil _
      | cons first behind => exact ⟨closed.target, closed.operand⟩
    have short := (writing.widen (Nat.le_max_left room more)).read extra alone
    have long := (longer.widen (Nat.le_max_right room more)).read [] (.nil _)
    rw [List.append_nil] at long
    obtain ⟨_, nothing⟩ := short.expression_unique long
    exact Nat.le_of_eq (by rw [nothing, List.append_nil])
  · rw [List.length_append]
    exact Nat.le_add_right ..

end Cascade
