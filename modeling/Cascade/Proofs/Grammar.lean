import Cascade.Expr.Parser
import Cascade.Proofs.ParserRules

/-!
# The grammar of expressions

Which tokens write which expression, told by the shape of the expression alone: nothing here says
in what order tokens are looked at or where an expression stops. A writing at a tier is one whose
outermost operator is of the tier or tighter; parentheses and operands without operators are
writings at every tier. Nesting is counted by the room it takes: a writing that begins afresh and a
writing under an operator before it each take one level.
-/
namespace Cascade

/-- What is written. -/
inductive Phrase where
  /-- An expression that begins afresh. -/
  | whole
  /-- An expression whose outermost operator is of the tier or tighter. -/
  | tier (loosest : Tier)
  /-- One argument or more, with commas between them. -/
  | arguments
  deriving DecidableEq

/-- The tokens are a writing of the values as the phrase, with room for so many levels of nesting.
All phrases but arguments write one value. -/
inductive Writing : Phrase → Nat → List (Expr Span) → List Token → Prop where
  /-- A whole expression may have any operator outermost, and is one level of nesting. -/
  | whole {room : Nat} {expr : Expr Span} {written : List Token} :
    Writing (.tier .lowest) room [expr] written →
    Writing .whole (room + 1) [expr] written
  /-- A literal or a name is one token. -/
  | leaf {loosest : Tier} {room : Nat} {token : Token} {expr : Expr Span} :
    token.leaf? = some expr →
    Writing (.tier loosest) room [expr] [token]
  /-- Parentheses around a whole expression add no node. -/
  | group {loosest : Tier} {room : Nat} {opener closer : Token} {expr : Expr Span}
      {inside : List Token} :
    opener.kind = .mark .openParen → closer.kind = .mark .closeParen →
    Writing .whole room [expr] inside →
    Writing (.tier loosest) room [expr] (opener :: (inside ++ [closer]))
  /-- An operator stands between a left operand of its tier and a right operand that is tighter. -/
  | binary {loosest : Tier} {room : Nat} {op : BinaryOp} {token : Token} {lhs rhs : Expr Span}
      {left right : List Token} :
    token.kind.binaryOp? = some op → loosest.rank ≤ op.tier.rank →
    Writing (.tier op.tier) room [lhs] left →
    Writing (.tier op.tier.tighter) room [rhs] right →
    Writing (.tier loosest) room [.binary token.span op lhs rhs] (left ++ token :: right)
  /-- An operator stands before an operand of its tier, which is one level of nesting. -/
  | unary {loosest : Tier} {room : Nat} {op : UnaryOp} {token : Token} {operand : Expr Span}
      {written : List Token} :
    token.kind.unaryOp? = some op → loosest.rank ≤ op.tier.rank →
    Writing (.tier op.tier) room [operand] written →
    Writing (.tier loosest) (room + 1) [.unary token.span op operand] (token :: written)
  /-- An index stands in brackets behind its target. -/
  | index {loosest : Tier} {room : Nat} {opener closer : Token} {target position : Expr Span}
      {before inside : List Token} :
    opener.kind = .mark .openBracket → closer.kind = .mark .closeBracket →
    Writing (.tier .postfixChain) room [target] before →
    Writing .whole room [position] inside →
    Writing (.tier loosest) room [.index opener.span target position]
      (before ++ opener :: (inside ++ [closer]))
  /-- A call without arguments has empty parentheses. -/
  | call_empty {loosest : Tier} {room : Nat} {opener closer : Token} {callee : Expr Span}
      {before : List Token} :
    opener.kind = .mark .openParen → closer.kind = .mark .closeParen →
    Writing (.tier .postfixChain) room [callee] before →
    Writing (.tier loosest) room [.call opener.span callee []] (before ++ [opener, closer])
  /-- Arguments stand in parentheses behind what is called. -/
  | call {loosest : Tier} {room : Nat} {opener closer : Token} {callee : Expr Span}
      {arguments : List (Expr Span)} {before inside : List Token} :
    opener.kind = .mark .openParen → closer.kind = .mark .closeParen →
    Writing (.tier .postfixChain) room [callee] before →
    Writing .arguments room arguments inside →
    Writing (.tier loosest) room [.call opener.span callee arguments]
      (before ++ opener :: (inside ++ [closer]))
  /-- A selector stands behind a dot behind its target. -/
  | selector {loosest : Tier} {room : Nat} {dot token : Token} {selector : Selector}
      {target : Expr Span} {before : List Token} :
    dot.kind = .mark .dot → acceptSelector token.kind = some selector →
    Writing (.tier .postfixChain) room [target] before →
    Writing (.tier loosest) room [selected target dot token selector] (before ++ [dot, token])
  /-- The last argument has no comma behind it. -/
  | last_argument {room : Nat} {argument : Expr Span} {written : List Token} :
    Writing .whole room [argument] written →
    Writing .arguments room [argument] written
  /-- Every other argument has one. -/
  | argument {room : Nat} {comma : Token} {argument : Expr Span} {arguments : List (Expr Span)}
      {written others : List Token} :
    comma.kind = .mark .comma →
    Writing .whole room [argument] written → Writing .arguments room arguments others →
    Writing .arguments room (argument :: arguments) (written ++ comma :: others)

/-- The next tighter tier is at most one place further. -/
theorem Tier.rank_tighter_le (tier : Tier) : tier.tighter.rank ≤ tier.rank + 1 := by
  cases tier <;> decide

/-- A tier is looser than the next. -/
theorem Tier.le_rank_tighter (tier : Tier) : tier.rank ≤ tier.tighter.rank := by
  cases tier <;> decide

/-- Tiers are told apart by their places. -/
theorem Tier.rank_injective {one other : Tier} (same : one.rank = other.rank) : one = other := by
  revert same
  cases one <;> cases other <;> decide

namespace Writing

variable {room more : Nat} {loosest tighter : Tier} {values : List (Expr Span)}
  {written : List Token}

/-- A writing at a tier is one at every looser tier. -/
theorem loosen (writing : Writing (.tier tighter) room values written)
    (looser : loosest.rank ≤ tighter.rank) : Writing (.tier loosest) room values written := by
  cases writing with
  | leaf alone => exact .leaf alone
  | group opens closes inside => exact .group opens closes inside
  | binary found allowed left right => exact .binary found (Nat.le_trans looser allowed) left right
  | unary found allowed operand => exact .unary found (Nat.le_trans looser allowed) operand
  | index opens closes target inside => exact .index opens closes target inside
  | call_empty opens closes callee => exact .call_empty opens closes callee
  | call opens closes callee inside => exact .call opens closes callee inside
  | selector dotted accepted target => exact .selector dotted accepted target

/-- More room does no harm. -/
theorem widen {phrase : Phrase} (writing : Writing phrase room values written)
    (wider : room ≤ more) : Writing phrase more values written := by
  induction writing generalizing more with
  | whole _ ih =>
    cases more with
    | zero => exact absurd wider (Nat.not_succ_le_zero _)
    | succ more => exact .whole (ih (Nat.le_of_succ_le_succ wider))
  | leaf alone => exact .leaf alone
  | group opens closes _ ih => exact .group opens closes (ih wider)
  | binary found allowed _ _ left right => exact .binary found allowed (left wider) (right wider)
  | unary found allowed _ ih =>
    cases more with
    | zero => exact absurd wider (Nat.not_succ_le_zero _)
    | succ more => exact .unary found allowed (ih (Nat.le_of_succ_le_succ wider))
  | index opens closes _ _ target inside => exact .index opens closes (target wider) (inside wider)
  | call_empty opens closes _ callee => exact .call_empty opens closes (callee wider)
  | call opens closes _ _ callee inside => exact .call opens closes (callee wider) (inside wider)
  | selector dotted accepted _ target => exact .selector dotted accepted (target wider)
  | last_argument _ ih => exact .last_argument (ih wider)
  | argument separates _ _ first others => exact .argument separates (first wider) (others wider)

/-- A writing of anything but arguments has one value. -/
theorem single {phrase : Phrase} (writing : Writing phrase room values written)
    (one : phrase ≠ .arguments) : ∃ value, values = [value] := by
  cases writing with
  | last_argument _ | argument _ _ _ => exact absurd rfl one
  | _ => exact ⟨_, rfl⟩

end Writing

/-- The loosest tier that the outermost operator of a phrase may have. -/
def Phrase.loosest : Phrase → Tier
  | .tier loosest => loosest
  | _ => .lowest

/-- The token may come first in a writing of the phrase. -/
structure Token.Begins (token : Token) (phrase : Phrase) : Prop where
  /-- It begins a primary or is an operator before an operand. -/
  first : token.kind.unaryOp? = none → token.kind.BeginsPrimary
  /-- An operator that comes first is no looser than the phrase allows. -/
  tight : ∀ op, token.kind.unaryOp? = some op → phrase.loosest.rank ≤ op.tier.rank

/-- What begins a phrase begins every looser one. -/
theorem Token.Begins.loosen {token : Token} {phrase looser : Phrase} (begins : token.Begins phrase)
    (below : looser.loosest.rank ≤ phrase.loosest.rank) : token.Begins looser where
  first := begins.first
  tight op found := Nat.le_trans below (begins.tight op found)

/-- The kinds that may begin a primary are no operators before an operand. -/
theorem TokenKind.BeginsPrimary.unaryOp? {kind : TokenKind} (begins : kind.BeginsPrimary) :
    kind.unaryOp? = none := by
  obtain rfl | leaf := begins
  · rfl
  · revert kind
    decide

/-- What begins a primary begins every phrase. -/
theorem TokenKind.BeginsPrimary.begins {token : Token} (begins : token.kind.BeginsPrimary)
    (phrase : Phrase) : token.Begins phrase where
  first _ := begins
  tight op found := by rw [begins.unaryOp?] at found; cases found

/-- A token that opens a phrase does not close one. -/
theorem Token.Begins.not_closing {token : Token} {phrase : Phrase} (begins : token.Begins phrase) :
    token.kind ≠ .mark .closeParen := by
  intro closes
  have primary := begins.first (by rw [closes]; rfl)
  rw [closes] at primary
  exact absurd primary (by decide)

/-- A writing begins with a token that may come first in it. -/
theorem Writing.begins {phrase : Phrase} {room : Nat} {values : List (Expr Span)}
    {written : List Token} (writing : Writing phrase room values written) :
    ∃ token tail, written = token :: tail ∧ token.Begins phrase := by
  induction writing with
  | whole _ ih =>
    obtain ⟨token, tail, rfl, begins⟩ := ih
    exact ⟨token, tail, rfl, begins.loosen (Nat.zero_le _)⟩
  | leaf alone => exact ⟨_, [], rfl, TokenKind.BeginsPrimary.begins (.inr (leaf?_kind alone)) _⟩
  | group opens _ _ _ => exact ⟨_, _, rfl, TokenKind.BeginsPrimary.begins (.inl opens) _⟩
  | binary _ allowed _ _ left _ =>
    obtain ⟨token, tail, rfl, begins⟩ := left
    exact ⟨token, _, rfl, begins.loosen allowed⟩
  | @unary loosest room op token operand written found allowed _ _ =>
    refine ⟨token, written, rfl, ⟨fun absent => ?_, fun other same => ?_⟩⟩
    · rw [found] at absent; cases absent
    · rw [found] at same; cases same; exact allowed
  | index _ _ _ _ target _ =>
    obtain ⟨token, tail, rfl, begins⟩ := target
    exact ⟨token, _, rfl, begins.loosen (Tier.rank_le _)⟩
  | call_empty _ _ _ callee =>
    obtain ⟨token, tail, rfl, begins⟩ := callee
    exact ⟨token, _, rfl, begins.loosen (Tier.rank_le _)⟩
  | call _ _ _ _ callee _ =>
    obtain ⟨token, tail, rfl, begins⟩ := callee
    exact ⟨token, _, rfl, begins.loosen (Tier.rank_le _)⟩
  | selector _ _ _ target =>
    obtain ⟨token, tail, rfl, begins⟩ := target
    exact ⟨token, _, rfl, begins.loosen (Tier.rank_le _)⟩
  | last_argument _ ih =>
    obtain ⟨token, tail, rfl, begins⟩ := ih
    exact ⟨token, tail, rfl, begins.loosen (Nat.zero_le _)⟩
  | argument _ _ _ first _ =>
    obtain ⟨token, tail, rfl, begins⟩ := first
    exact ⟨token, _, rfl, begins.loosen (Nat.zero_le _)⟩

/-- How many more tokens than levels of nesting a writing of the phrase has at least. -/
def Phrase.slack : Phrase → Nat
  | .tier _ => 1
  | _ => 0

/-- A writing never needs more levels of nesting than it has tokens. -/
theorem Writing.room_of_length {phrase : Phrase} {room more : Nat} {values : List (Expr Span)}
    {written : List Token} (writing : Writing phrase room values written)
    (enough : written.length ≤ more + phrase.slack) : Writing phrase more values written := by
  induction writing generalizing more with
  | whole inner ih =>
    obtain ⟨token, tail, rfl, _⟩ := inner.begins
    cases more with
    | zero => exact absurd enough (Nat.not_succ_le_zero _)
    | succ more => exact .whole (ih enough)
  | leaf alone => exact .leaf alone
  | group opens closes _ ih =>
    simp only [List.length_cons, List.length_append, Phrase.slack] at enough ih
    exact .group opens closes (ih (by omega))
  | binary found allowed _ _ left right =>
    simp only [List.length_cons, List.length_append, Phrase.slack] at enough left right
    exact .binary found allowed (left (by omega)) (right (by omega))
  | unary found allowed inner ih =>
    obtain ⟨token, tail, rfl, _⟩ := inner.begins
    simp only [List.length_cons, Phrase.slack] at enough ih
    cases more with
    | zero => omega
    | succ more => exact .unary found allowed (ih (by omega))
  | index opens closes _ _ target inside =>
    simp only [List.length_cons, List.length_append, Phrase.slack] at enough target inside
    exact .index opens closes (target (by omega)) (inside (by omega))
  | call_empty opens closes _ callee =>
    simp only [List.length_cons, List.length_append, Phrase.slack] at enough callee
    exact .call_empty opens closes (callee (by omega))
  | call opens closes _ _ callee inside =>
    simp only [List.length_cons, List.length_append, Phrase.slack] at enough callee inside
    exact .call opens closes (callee (by omega)) (inside (by omega))
  | selector dotted accepted _ target =>
    simp only [List.length_cons, List.length_append, Phrase.slack] at enough target
    exact .selector dotted accepted (target (by omega))
  | last_argument _ ih => exact .last_argument (ih enough)
  | argument separates _ _ first others =>
    simp only [List.length_cons, List.length_append, Phrase.slack] at enough first others
    exact .argument separates (first (by omega)) (others (by omega))

/-- The tokens write some expression at the tier, however deeply nested. -/
def Written (tier : Tier) (tokens : List Token) : Prop :=
  ∃ room expr, Writing (.tier tier) room [expr] tokens

namespace Written

variable {loose tight : Tier} {tokens left right : List Token}

/-- What is written at a tier is written at every looser one. -/
theorem loosen (written : Written tight tokens) (looser : loose.rank ≤ tight.rank) :
    Written loose tokens := by
  obtain ⟨room, expr, writing⟩ := written
  exact ⟨room, expr, writing.loosen looser⟩

/-- An operator joins a left operand of its tier and a right operand that is tighter. -/
theorem binary {op : BinaryOp} {token : Token} (found : token.kind.binaryOp? = some op)
    (before : Written op.tier left) (behind : Written op.tier.tighter right) :
    Written op.tier (left ++ token :: right) := by
  obtain ⟨room, lhs, before⟩ := before
  obtain ⟨more, rhs, behind⟩ := behind
  have lhsRoom := before.widen (Nat.le_max_left room more)
  have rhsRoom := behind.widen (Nat.le_max_right room more)
  exact ⟨max room more, _, .binary found (Nat.le_refl _) lhsRoom rhsRoom⟩

/-- Brackets around a whole expression join a target. -/
theorem index {opener closer : Token} {room : Nat} {position : Expr Span} {inside : List Token}
    (opens : opener.kind = .mark .openBracket) (closes : closer.kind = .mark .closeBracket)
    (writing : Writing .whole room [position] inside) (target : Written .postfixChain left) :
    Written .postfixChain (left ++ opener :: (inside ++ [closer])) := by
  obtain ⟨more, expr, before⟩ := target
  have targetRoom := before.widen (Nat.le_max_right room more)
  exact ⟨_, _, .index opens closes targetRoom (writing.widen (Nat.le_max_left room more))⟩

/-- Empty parentheses join what is called. -/
theorem call_empty {opener closer : Token} (opens : opener.kind = .mark .openParen)
    (closes : closer.kind = .mark .closeParen) (callee : Written .postfixChain left) :
    Written .postfixChain (left ++ [opener, closer]) := by
  obtain ⟨room, expr, before⟩ := callee
  exact ⟨room, _, .call_empty opens closes before⟩

/-- Parentheses around arguments join what is called. -/
theorem call {opener closer : Token} {room : Nat} {arguments : List (Expr Span)}
    {inside : List Token} (opens : opener.kind = .mark .openParen)
    (closes : closer.kind = .mark .closeParen) (writing : Writing .arguments room arguments inside)
    (callee : Written .postfixChain left) :
    Written .postfixChain (left ++ opener :: (inside ++ [closer])) := by
  obtain ⟨more, expr, before⟩ := callee
  have calleeRoom := before.widen (Nat.le_max_right room more)
  exact ⟨_, _, .call opens closes calleeRoom (writing.widen (Nat.le_max_left room more))⟩

/-- A dot and a selector join a target. -/
theorem selector {dot token : Token} {selector : Selector} (dotted : dot.kind = .mark .dot)
    (accepted : acceptSelector token.kind = some selector) (target : Written .postfixChain left) :
    Written .postfixChain (left ++ [dot, token]) := by
  obtain ⟨room, expr, before⟩ := target
  exact ⟨room, _, .selector dotted accepted before⟩

end Written

/-- A piece that can be appended to every writing at a tier can be appended to every writing: it
joins the last operand that is of the tier. -/
theorem Writing.attach {tier : Tier} {piece : List Token}
    (attaches : ∀ tokens, Written tier tokens → Written tier (tokens ++ piece))
    {phrase : Phrase} {room : Nat} {values : List (Expr Span)} {written : List Token}
    (writing : Writing phrase room values written) {loosest : Tier}
    (placed : phrase = .tier loosest) {loose : Tier} (looser : loose.rank ≤ loosest.rank)
    (reach : loose.rank ≤ tier.rank) : Written loose (written ++ piece) := by
  induction writing generalizing loosest loose with
  | whole _ _ => cases placed
  | @leaf _ room token expr alone =>
    exact (attaches _ ⟨room, expr, .leaf alone⟩).loosen reach
  | @group _ room opener closer expr inside opens closes writing _ =>
    exact (attaches _ ⟨room, expr, .group opens closes writing⟩).loosen reach
  | @binary _ room op token lhs rhs left right found allowed before behind _ joined =>
    cases placed
    obtain below | above := Nat.lt_or_ge op.tier.rank tier.rank
    · have next := Nat.le_trans (op.tier.rank_tighter_le) below
      have operand := joined rfl (Nat.le_refl _) next
      rw [List.append_assoc, List.cons_append]
      exact (Written.binary found ⟨room, lhs, before⟩ operand).loosen (Nat.le_trans looser allowed)
    · exact (attaches _ ⟨room, _, .binary found above before behind⟩).loosen reach
  | @unary _ room op token operand written found allowed inner joined =>
    cases placed
    obtain below | above := Nat.lt_or_ge op.tier.rank tier.rank
    · obtain ⟨more, expr, writing⟩ := joined rfl (Nat.le_refl _) (Nat.le_of_lt below)
      exact ⟨more + 1, _, .unary found (Nat.le_trans looser allowed) writing⟩
    · exact (attaches _ ⟨room + 1, _, .unary found above inner⟩).loosen reach
  | @index _ room _ _ _ _ _ _ opens closes target inside _ _ =>
    exact (attaches _ ⟨room, _, .index opens closes target inside⟩).loosen reach
  | @call_empty _ room _ _ _ _ opens closes callee _ =>
    exact (attaches _ ⟨room, _, .call_empty opens closes callee⟩).loosen reach
  | @call _ room _ _ _ _ _ _ opens closes callee inside _ _ =>
    exact (attaches _ ⟨room, _, .call opens closes callee inside⟩).loosen reach
  | @selector _ room _ _ _ _ _ dotted accepted target _ =>
    exact (attaches _ ⟨room, _, .selector dotted accepted target⟩).loosen reach
  | last_argument _ _ => cases placed
  | argument _ _ _ _ _ => cases placed

/-- What is written at the loosest tier, with a piece behind it that joins the operands of a
tier. -/
theorem Written.attach {tier : Tier} {piece tokens : List Token} (written : Written .lowest tokens)
    (attaches : ∀ tokens, Written tier tokens → Written tier (tokens ++ piece)) :
    Written .lowest (tokens ++ piece) := by
  obtain ⟨room, expr, writing⟩ := written
  exact writing.attach attaches rfl (Nat.le_refl _) (Nat.zero_le _)

/-- The kinds of the tokens with which an expression may both begin and go on. -/
def TokenKind.Joins (kind : TokenKind) : Prop := kind = .mark .minus ∨ kind = .mark .openParen

/-- A token with which an expression goes on, and with which one may begin, is one of the two. -/
theorem TokenKind.joins_of_begins {token : Token} {phrase : Phrase} (begins : token.Begins phrase)
    (continues : ¬ (acceptContinuation token.kind = none ∧ token.kind.binaryOp? = none)) :
    token.kind.Joins := by
  by_cases before : token.kind.unaryOp? = none
  · obtain opens | leaf := begins.first before
    · exact .inr opens
    · have plain : ∀ kind ∈ leafKinds, acceptContinuation kind = none ∧ kind.binaryOp? = none := by
        decide
      exact absurd (plain _ leaf) continues
  · unfold TokenKind.unaryOp? at before
    split at before
    · next bang => rw [bang] at continues; exact absurd continues (by decide)
    · next minus => exact .inl minus
    · next tilde => rw [tilde] at continues; exact absurd continues (by decide)
    · exact absurd rfl before

/-- A minus or an opening parenthesis at the front of one writing joins it to every other. -/
theorem Writing.join {phrase : Phrase} {room : Nat} {values : List (Expr Span)}
    {written : List Token} (writing : Writing phrase room values written) {tier : Tier}
    (placed : phrase = .tier tier) (joins : ∃ token ∈ written.head?, token.kind.Joins)
    {tokens : List Token} (before : Written .lowest tokens) :
    Written .lowest (tokens ++ written) := by
  induction writing generalizing tier with
  | whole _ _ => cases placed
  | leaf alone =>
    obtain ⟨first, same, joins⟩ := joins
    cases same
    have leaf := leaf?_kind alone
    obtain minus | opens := joins
    · rw [minus] at leaf; exact absurd leaf (by decide)
    · rw [opens] at leaf; exact absurd leaf (by decide)
  | @group _ room opener closer expr inside opens closes writing _ =>
    exact before.attach fun _ callee => callee.call opens closes (.last_argument writing)
  | @binary _ room op token lhs rhs left right found allowed first behind joined _ =>
    obtain ⟨head, tail, rfl, _⟩ := first.begins
    have operand := joined rfl joins
    rw [← List.append_assoc]
    exact operand.attach fun _ lhs => lhs.binary found ⟨room, rhs, behind⟩
  | @unary _ room op token operand written found allowed inner _ =>
    obtain ⟨first, same, joins⟩ := joins
    cases same
    obtain minus | opens := joins
    · have subtracts : token.kind.binaryOp? = some .sub := by rw [minus]; rfl
      rw [minus] at found
      cases found
      have rhs : Written .multiplicative written := ⟨room, operand, inner.loosen (by decide)⟩
      exact before.attach fun _ (lhs : Written .additive _) => lhs.binary subtracts rhs
    · rw [opens] at found; cases found
  | @index _ room opener closer target position first inside opens closes targetWriting writing
      joined _ =>
    obtain ⟨head, tail, rfl, _⟩ := targetWriting.begins
    have target := joined rfl joins
    rw [← List.append_assoc]
    exact target.attach fun _ target => target.index opens closes writing
  | @call_empty _ room opener closer callee first opens closes calleeWriting joined =>
    obtain ⟨head, tail, rfl, _⟩ := calleeWriting.begins
    have callee := joined rfl joins
    rw [← List.append_assoc]
    exact callee.attach fun _ callee => callee.call_empty opens closes
  | @call _ room opener closer callee arguments first inside opens closes calleeWriting writing
      joined _ =>
    obtain ⟨head, tail, rfl, _⟩ := calleeWriting.begins
    have callee := joined rfl joins
    rw [← List.append_assoc]
    exact callee.attach fun _ callee => callee.call opens closes writing
  | @selector _ room dot token selector target first dotted accepted targetWriting joined =>
    obtain ⟨head, tail, rfl, _⟩ := targetWriting.begins
    have target := joined rfl joins
    rw [← List.append_assoc]
    exact target.attach fun _ target => target.selector dotted accepted
  | last_argument _ _ => cases placed
  | argument _ _ _ _ _ => cases placed

end Cascade
