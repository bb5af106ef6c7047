import Cascade.Proofs.LongestLexeme
import Cascade.Proofs.Lookahead
import Cascade.Proofs.Program

/-!
# Failures can be completed

The tokens before the one at which a parse stops begin a program: closing what is open, with a name
where an operand or a selector is missing, completes them. The completion needs no more room for
nesting than the parse had used by then.
-/
namespace Cascade

variable {room : Nat} {used before : List Token} {loosest : Tier}

/-- The mark that completes a bracket. -/
def Token.closing (sign : Mark) : Token := ⟨.mark sign, .first⟩

/-- A name where something is missing. -/
def Token.filler : Token := ⟨.identifier "x", .first⟩

/-- A mark is written as a lexeme. -/
theorem Token.closing_spelled (sign : Mark) : (Token.closing sign).Spelled := .mark sign

/-- The name is written as a lexeme. -/
theorem Token.filler_spelled : Token.filler.Spelled :=
  .identifier rfl (List.forall_mem_nil _) fun word => by cases word <;> decide

/-- Some tokens behind those used complete a writing of the phrase. -/
def Viable (phrase : Phrase) (room : Nat) (used : List Token) : Prop :=
  ∃ more values, (∀ token ∈ more, token.Spelled) ∧ Writing phrase room values (used ++ more)

namespace Viable

/-- A writing is complete. -/
theorem of_writing {phrase : Phrase} {values : List (Expr Span)}
    (writing : Writing phrase room values used) : Viable phrase room used :=
  ⟨[], values, nofun, by rwa [List.append_nil]⟩

/-- A name completes nothing at all. -/
theorem nil (loosest : Tier) (room : Nat) : Viable (.tier loosest) room [] :=
  ⟨[.filler], _, List.forall_mem_singleton.mpr Token.filler_spelled, .leaf rfl⟩

/-- What begins an expression begins a whole expression one level further out. -/
theorem whole (viable : Viable (.tier .lowest) room used) : Viable .whole (room + 1) used := by
  obtain ⟨more, values, spelled, writing⟩ := viable
  obtain ⟨value, rfl⟩ := writing.single nofun
  exact ⟨more, _, spelled, .whole writing⟩

/-- What begins a writing at a tier begins one at every looser tier. -/
theorem loosen {tighter : Tier} (viable : Viable (.tier tighter) room used)
    (looser : loosest.rank ≤ tighter.rank) : Viable (.tier loosest) room used := by
  obtain ⟨more, values, spelled, writing⟩ := viable
  exact ⟨more, values, spelled, writing.loosen looser⟩

/-- An operator stands before what begins its operand. -/
theorem unary {token : Token} {op : UnaryOp} (found : token.kind.unaryOp? = some op)
    (operand : Viable (.tier op.tier) room used) :
    Viable (.tier op.tier) (room + 1) (token :: used) := by
  obtain ⟨more, values, spelled, writing⟩ := operand
  obtain ⟨value, rfl⟩ := writing.single nofun
  exact ⟨more, _, spelled, .unary found (Nat.le_refl _) writing⟩

/-- An operator stands between its left operand and what begins its right one. -/
theorem binary {token : Token} {op : BinaryOp} {lhs : Expr Span}
    (found : token.kind.binaryOp? = some op) (left : Writing (.tier op.tier) room [lhs] before)
    (right : Viable (.tier op.tier.tighter) room used) :
    Viable (.tier op.tier) room (before ++ token :: used) := by
  obtain ⟨more, values, spelled, writing⟩ := right
  obtain ⟨value, rfl⟩ := writing.single nofun
  have both := Writing.binary found (Nat.le_refl _) left writing
  rw [← List.cons_append, ← List.append_assoc] at both
  exact ⟨more, _, spelled, both⟩

/-- The tokens that complete the inside of a bracket and the mark that closes it are spelled. -/
theorem spelled_closing {more : List Token} (sign : Mark)
    (spelled : ∀ token ∈ more, token.Spelled) :
    ∀ token ∈ more ++ [.closing sign], token.Spelled :=
  List.forall_mem_append.mpr ⟨spelled, List.forall_mem_singleton.mpr (Token.closing_spelled sign)⟩

/-- A bracket is open before what begins an index. -/
theorem index {opener : Token} {target : Expr Span} (opens : opener.kind = .mark .openBracket)
    (writing : Writing (.tier .postfixChain) room [target] before)
    (inside : Viable .whole room used) :
    Viable (.tier .postfixChain) room (before ++ opener :: used) := by
  obtain ⟨more, values, spelled, position⟩ := inside
  obtain ⟨value, rfl⟩ := position.single nofun
  have closes : (Token.closing .closeBracket).kind = .mark .closeBracket := rfl
  have both : Writing (.tier .postfixChain) _ _ _ := .index opens closes writing position
  rw [List.append_assoc, ← List.cons_append, ← List.append_assoc] at both
  exact ⟨_, _, spelled_closing _ spelled, both⟩

/-- A parenthesis is open before what begins arguments. -/
theorem call {opener : Token} {callee : Expr Span} (opens : opener.kind = .mark .openParen)
    (writing : Writing (.tier .postfixChain) room [callee] before)
    (inside : Viable .arguments room used) :
    Viable (.tier .postfixChain) room (before ++ opener :: used) := by
  obtain ⟨more, values, spelled, arguments⟩ := inside
  have closes : (Token.closing .closeParen).kind = .mark .closeParen := rfl
  have both : Writing (.tier .postfixChain) _ _ _ := .call opens closes writing arguments
  rw [List.append_assoc, ← List.cons_append, ← List.append_assoc] at both
  exact ⟨_, _, spelled_closing _ spelled, both⟩

/-- A name completes a selector. -/
theorem selector {dot : Token} {target : Expr Span} (dotted : dot.kind = .mark .dot)
    (writing : Writing (.tier .postfixChain) room [target] before) :
    Viable (.tier .postfixChain) room (before ++ [dot]) := by
  have accepted : acceptSelector Token.filler.kind = some .field := rfl
  have both : Writing (.tier .postfixChain) _ _ _ := .selector dotted accepted writing
  rw [List.append_cons] at both
  exact ⟨_, _, List.forall_mem_singleton.mpr Token.filler_spelled, both⟩

/-- What begins an argument may begin the last one. -/
theorem last_argument (viable : Viable .whole room used) : Viable .arguments room used := by
  obtain ⟨more, values, spelled, writing⟩ := viable
  obtain ⟨value, rfl⟩ := writing.single nofun
  exact ⟨more, _, spelled, .last_argument writing⟩

/-- An argument and a comma stand before what begins others. -/
theorem argument {comma : Token} {argument : Expr Span} (separates : comma.kind = .mark .comma)
    (first : Writing .whole room [argument] before) (others : Viable .arguments room used) :
    Viable .arguments room (before ++ comma :: used) := by
  obtain ⟨more, values, spelled, arguments⟩ := others
  have both := Writing.argument separates first arguments
  rw [← List.cons_append, ← List.append_assoc] at both
  exact ⟨more, _, spelled, both⟩

/-- A parenthesis is open before what begins a group. -/
theorem group {opener : Token} (opens : opener.kind = .mark .openParen)
    (inside : Viable .whole room used) : Viable (.tier loosest) room (opener :: used) := by
  obtain ⟨more, values, spelled, writing⟩ := inside
  obtain ⟨value, rfl⟩ := writing.single nofun
  have closes : (Token.closing .closeParen).kind = .mark .closeParen := rfl
  have both : Writing (.tier loosest) _ _ _ := .group opens closes writing
  rw [List.append_assoc, ← List.cons_append] at both
  exact ⟨_, _, spelled_closing _ spelled, both⟩

end Viable

/-- The tokens that the goal has used up begin a writing. For a run, a chain and a link they do so
behind every writing of what is continued. -/
def Goal.Viable (room : Nat) (used : List Token) : Goal → Prop
  | .expression => Cascade.Viable .whole room used
  | .tier loosest => Cascade.Viable (.tier loosest) room used
  | .run common lhs => ∀ before, Writing (.tier common) room [lhs] before →
      Cascade.Viable (.tier common) room (before ++ used)
  | .chain target | .link target => ∀ before, Writing (.tier .postfixChain) room [target] before →
      Cascade.Viable (.tier .postfixChain) room (before ++ used)
  | .arguments => Cascade.Viable .arguments room used
  | .primary => Cascade.Viable (.tier .postfixChain) room used

/-- A link is read behind a target in one way, whatever the target is written with. -/
theorem Succeeds.link_sound {target next : Expr Span} {tokens rest : List Token}
    (linked : Succeeds (.link target) room tokens [next] rest) :
    ∃ linking, tokens = linking ++ rest ∧ ∀ before,
      Writing (.tier .postfixChain) room [target] before →
        Writing (.tier .postfixChain) room [next] (before ++ linking) := by
  obtain ⟨linking, same, _⟩ := linked.elsewhere
  refine ⟨linking, same, fun before writing => ?_⟩
  obtain ⟨written, again, both⟩ := linked.sound before writing
  obtain rfl := List.append_cancel_right (same.symm.trans again)
  exact both

/-- What was used up before a failure at a token begins a writing. -/
theorem Fails.viable {context : ParseContext} {goal : Goal} {tokens rest : List Token}
    {failure : Failure} {completed : List (Expr Span)}
    (fails : Fails context goal room tokens failure rest completed)
    (atToken : failure.error.AtToken) :
    ∃ used, tokens = used ++ rest ∧ goal.Viable room used := by
  -- Each rule puts what it had read in front of the completion of its sub-goal. The room is the one
  -- of the rule, so no completion is nested more deeply than the parse was.
  induction fails with
  | too_deep => exact atToken.elim
  | expression _ ih =>
    obtain ⟨used, same, viable⟩ := ih atToken
    exact ⟨used, same, Viable.whole viable⟩
  | primary _ ih => exact ih atToken
  | chain parsed _ ih =>
    obtain ⟨before, rfl, writing⟩ := parsed.sound
    obtain ⟨used, rfl, viable⟩ := ih atToken
    exact ⟨before ++ used, (List.append_assoc ..).symm, viable before writing⟩
  | unary_too_deep => exact atToken.elim
  | @unary _ token _ _ _ _ _ found _ ih =>
    obtain ⟨used, rfl, viable⟩ := ih atToken
    exact ⟨token :: used, rfl, Viable.unary found viable⟩
  | @descend tier _ _ _ _ _ _ _ _ ih =>
    obtain ⟨used, same, viable⟩ := ih atToken
    exact ⟨used, same, Viable.loosen viable tier.le_rank_tighter⟩
  | @run tier _ _ _ _ _ _ _ _ _ parsed _ ih =>
    obtain ⟨before, rfl, operand, _⟩ := parsed.sound
    obtain ⟨used, rfl, viable⟩ := ih atToken
    exact ⟨before ++ used, (List.append_assoc ..).symm,
      viable before (operand.loosen tier.le_rank_tighter)⟩
  | @operand _ token _ _ _ _ _ _ found _ ih =>
    obtain ⟨used, rfl, viable⟩ := ih atToken
    exact ⟨token :: used, rfl, fun before left => .binary found left viable⟩
  | @operator _ token _ _ _ _ _ _ _ _ found parsed _ ih =>
    obtain ⟨right, rfl, operand, _⟩ := parsed.sound
    obtain ⟨used, rfl, viable⟩ := ih atToken
    refine ⟨token :: (right ++ used), ?_, fun before left => ?_⟩
    · rw [List.cons_append, List.append_assoc]
    · have both := viable _ (.binary found (Nat.le_refl _) left operand)
      rwa [List.append_assoc, List.cons_append] at both
  | link _ ih => exact ih atToken
  | chain_link linked _ ih =>
    obtain ⟨linking, rfl, writings⟩ := linked.link_sound
    obtain ⟨used, rfl, viable⟩ := ih atToken
    refine ⟨linking ++ used, (List.append_assoc ..).symm, fun before writing => ?_⟩
    have both := viable _ (writings before writing)
    rwa [List.append_assoc] at both
  | @index _ _ opener _ _ _ _ opens _ ih =>
    obtain ⟨used, rfl, viable⟩ := ih atToken
    exact ⟨opener :: used, rfl, fun before writing => .index opens writing viable⟩
  | @unclosed_index _ _ _ opener _ _ opens parsed _ =>
    obtain ⟨inside, rfl, position, _⟩ := parsed.sound
    exact ⟨opener :: inside, rfl, fun before writing => .index opens writing (.of_writing position)⟩
  | @call _ _ opener _ _ _ _ opens _ _ ih =>
    obtain ⟨used, rfl, viable⟩ := ih atToken
    exact ⟨opener :: used, rfl, fun before writing => .call opens writing viable⟩
  | @unclosed_call _ _ _ opener _ _ opens _ parsed _ =>
    obtain ⟨inside, rfl, arguments⟩ := parsed.sound
    exact ⟨opener :: inside, rfl, fun before writing => .call opens writing (.of_writing arguments)⟩
  | @selector _ _ dot _ dotted _ =>
    exact ⟨[dot], rfl, fun before writing => .selector dotted writing⟩
  | argument _ ih =>
    obtain ⟨used, same, viable⟩ := ih atToken
    exact ⟨used, same, Viable.last_argument viable⟩
  | @later_argument _ _ comma _ _ _ _ _ parsed separates _ ih =>
    obtain ⟨before, rfl, writing, _⟩ := parsed.sound
    obtain ⟨used, rfl, viable⟩ := ih atToken
    refine ⟨before ++ comma :: used, ?_, .argument separates writing viable⟩
    rw [List.append_assoc, List.cons_append]
  | no_primary _ => exact ⟨[], rfl, Viable.nil _ _⟩
  | too_large => exact atToken.elim
  | @group _ opener _ _ _ _ opens _ ih =>
    obtain ⟨used, rfl, viable⟩ := ih atToken
    exact ⟨opener :: used, rfl, Viable.group opens viable⟩
  | @unclosed_group _ _ opener _ _ opens parsed _ =>
    obtain ⟨inside, rfl, writing, _⟩ := parsed.sound
    exact ⟨opener :: inside, rfl, Viable.group opens (.of_writing writing)⟩

/-- What continues nothing is told by its first token. -/
theorem Closed.of_head? {tier : Tier} {one other : List Token} (closed : Closed tier one)
    (same : other.head? = one.head?) : Closed tier other where
  target := closed.target.of_head? same
  operand token first := closed.operand token (same ▸ first)

/-- The tokens before the one at which a program stops begin a program. If there are none, they are
one. -/
theorem parseProgram_viable {context : ParseContext} {tokens : List Token} {failure : Failure}
    {completed : List (Expr Span)}
    (stopped : (parseProgram context tokens).stop = some (failure, completed))
    (atToken : failure.error.AtToken) :
    ∃ used more roots, tokens = used ++ (parseProgram context tokens).rest ∧
      (used = [] → more = []) ∧ (∀ token ∈ more, token.Spelled) ∧
      Program context.limit (used ++ more) roots := by
  fun_induction parseProgram context tokens with
  | case1 => cases stopped
  | case2 token tail failed rest others _ stuck =>
    cases stopped
    have follows := parseExpression_follows context context.limit (token :: tail)
    rw [stuck] at follows
    obtain ⟨used, split, viable⟩ := Fails.viable follows atToken
    by_cases none : used = []
    · exact ⟨used, [], [], split, fun _ => rfl, List.forall_mem_nil _, by rw [none]; exact .nil⟩
    · -- A root that has begun is completed, and nothing follows it.
      obtain ⟨more, values, spelled, writing⟩ := viable
      obtain ⟨root, rfl⟩ := writing.single Phrase.noConfusion
      have program := Program.cons writing (.nil _) .nil
      rw [List.append_nil] at program
      exact ⟨used, more, _, split, fun empty => absurd empty none, spelled, program⟩
  | case3 token tail root middle shorter parsed later ih =>
    have follows := parseExpression_follows context context.limit (token :: tail)
    rw [parsed] at follows
    obtain ⟨written, split, writing, closed⟩ := Succeeds.sound follows
    obtain ⟨used, more, roots, rest, none, spelled, program⟩ := ih stopped
    -- If no later root has begun, an added name could go on with this one, so nothing is added.
    have goesOn : Closed .lowest (used ++ more) := by
      cases used with
      | nil => rw [none rfl]; exact .nil _
      | cons first behind =>
        rw [rest] at closed
        exact closed.of_head? rfl
    refine ⟨written ++ used, more, root :: roots, ?_, fun empty => ?_, spelled, ?_⟩
    · rw [split, List.append_assoc, ← rest]
    · exact none (List.append_eq_nil_iff.mp empty).2
    · rw [List.append_assoc]
      exact .cons writing goesOn program

end Cascade
