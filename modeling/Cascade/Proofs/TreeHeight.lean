import Cascade.Proofs.LineLexing
import Cascade.Proofs.ParserCalls
import Cascade.Proofs.Program

/-!
# How high the trees of a source are

A step down a tree leads to the first child of a node, its left operand or its target, or it turns to
a child that is parsed behind the token of the node. The parser goes back to a looser tier only where
it goes down a level of nesting, so a path down a tree turns no more often than there are tiers for
each level. First children are folded by loops without any nesting, so between two turns a path may
go on as long as the source does, whatever the nesting limit is.

Main definitions:

* `Expr.turns`, how often a path down a tree turns at most;
* `Expr.longestSpine`, how long a path down a tree goes on without a turn.
-/
namespace Cascade

namespace Expr

variable {α : Type}

mutual

/-- How often a path down a tree turns to a child that is parsed behind the token of its node. -/
def turns : Expr α → Nat
  | .bool .. | .int .. | .str .. | .identifier .. => 0
  | .binary _ _ lhs rhs => max lhs.turns (rhs.turns + 1)
  | .unary _ _ operand => operand.turns + 1
  | .index _ target position => max target.turns (position.turns + 1)
  | .call _ callee arguments => max callee.turns (turnsAll arguments)
  | .primitive _ _ target => target.turns
  | .field _ target _ => target.turns

/-- How often a path turns that turns to one of the trees at first. -/
def turnsAll : List (Expr α) → Nat
  | [] => 0
  | expr :: exprs => max (expr.turns + 1) (turnsAll exprs)

end

/-- How many nodes there are from a node on down its left operands and targets. -/
def spine : Expr α → Nat
  | .bool .. | .int .. | .str .. | .identifier .. | .unary .. => 1
  | .binary _ _ lhs _ => lhs.spine + 1
  | .index _ target _ => target.spine + 1
  | .call _ callee _ => callee.spine + 1
  | .primitive _ _ target => target.spine + 1
  | .field _ target _ => target.spine + 1

mutual

/-- How many nodes there are at most from some node on down its left operands and targets. -/
def longestSpine : Expr α → Nat
  | .bool .. | .int .. | .str .. | .identifier .. => 1
  | .binary _ _ lhs rhs => max (lhs.spine + 1) (max lhs.longestSpine rhs.longestSpine)
  | .unary _ _ operand => operand.longestSpine
  | .index _ target position =>
    max (target.spine + 1) (max target.longestSpine position.longestSpine)
  | .call _ callee arguments =>
    max (callee.spine + 1) (max callee.longestSpine (longestSpineAll arguments))
  | .primitive _ _ target => max (target.spine + 1) target.longestSpine
  | .field _ target _ => max (target.spine + 1) target.longestSpine

/-- How many nodes there are so at most in some of the trees. -/
def longestSpineAll : List (Expr α) → Nat
  | [] => 0
  | expr :: exprs => max expr.longestSpine (longestSpineAll exprs)

end

/-- Trees are no higher than a bound on the height of each. -/
theorem heightAll_le {exprs : List (Expr α)} {bound : Nat}
    (each : ∀ expr ∈ exprs, expr.height ≤ bound) : heightAll exprs ≤ bound := by
  induction exprs with
  | nil => exact Nat.zero_le bound
  | cons expr exprs ih =>
    obtain ⟨first, others⟩ := List.forall_mem_cons.mp each
    exact Nat.max_le.mpr ⟨first, ih others⟩

/-- A node is on its own spine. -/
theorem spine_pos (expr : Expr α) : 0 < expr.spine := by
  cases expr <;> simp [spine]

/-- The spine of a tree is no longer than the longest in it. -/
theorem spine_le_longestSpine : (expr : Expr α) → expr.spine ≤ expr.longestSpine
  | .bool .. | .int .. | .str .. | .identifier .. => Nat.le_refl 1
  | .unary _ _ operand => Nat.le_trans operand.spine_pos operand.spine_le_longestSpine
  | .binary .. | .index .. | .call .. | .primitive .. | .field .. => Nat.le_max_left ..

/-- What is below a turn is as high as its turns and one more allow. -/
theorem height_below_turn {expr : Expr α} {bound : Nat} (short : expr.longestSpine ≤ bound)
    (high : expr.height ≤ expr.spine + expr.turns * bound) :
    expr.height ≤ (expr.turns + 1) * bound := by
  have spine := Nat.le_trans expr.spine_le_longestSpine short
  calc
    expr.height ≤ expr.spine + expr.turns * bound := high
    _ ≤ bound + expr.turns * bound := Nat.add_le_add_right spine _
    _ = (expr.turns + 1) * bound := by rw [Nat.succ_mul, Nat.add_comm]

/-- A node is a step above its first child, which it shares its spine with, and above what stands
behind a turn. -/
theorem step_le_spines {first behind spine along turned bound : Nat}
    (low : first ≤ spine + along * bound) (deep : behind ≤ turned * bound) :
    max first behind + 1 ≤ spine + 1 + max along turned * bound := by
  have more := Nat.mul_le_mul_right bound (Nat.le_max_left along turned)
  have other := Nat.mul_le_mul_right bound (Nat.le_max_right along turned)
  omega

mutual

/-- A tree is no higher than its own spine and a longest spine behind each turn. -/
theorem height_le_spines {bound : Nat} : (expr : Expr α) → expr.longestSpine ≤ bound →
    expr.height ≤ expr.spine + expr.turns * bound
  | .bool .. | .int .. | .str .. | .identifier .. => fun _ => Nat.le_add_right ..
  | .binary _ _ lhs rhs => fun short => by
    obtain ⟨_, below⟩ := Nat.max_le.mp short
    obtain ⟨leftShort, rightShort⟩ := Nat.max_le.mp below
    have right := height_below_turn rightShort (rhs.height_le_spines rightShort)
    exact step_le_spines (lhs.height_le_spines leftShort) right
  | .unary _ _ operand => fun short => by
    have operandShort : operand.longestSpine ≤ bound := short
    have inner := height_below_turn operandShort (operand.height_le_spines operandShort)
    rw [height, spine, turns]
    omega
  | .index _ target position => fun short => by
    obtain ⟨_, below⟩ := Nat.max_le.mp short
    obtain ⟨outerShort, innerShort⟩ := Nat.max_le.mp below
    have inner := height_below_turn innerShort (position.height_le_spines innerShort)
    exact step_le_spines (target.height_le_spines outerShort) inner
  | .call _ callee arguments => fun short => by
    obtain ⟨_, below⟩ := Nat.max_le.mp short
    obtain ⟨calleeShort, givenShort⟩ := Nat.max_le.mp below
    have given := heightAll_le_spines arguments givenShort
    exact step_le_spines (callee.height_le_spines calleeShort) given
  | .primitive _ _ target => fun short => by
    have outer := target.height_le_spines (Nat.max_le.mp short).2
    rw [height, spine, turns]
    omega
  | .field _ target _ => fun short => by
    have outer := target.height_le_spines (Nat.max_le.mp short).2
    rw [height, spine, turns]
    omega

/-- Trees are no higher than a longest spine behind each turn, the turn to the tree included. -/
theorem heightAll_le_spines {bound : Nat} : (exprs : List (Expr α)) →
    longestSpineAll exprs ≤ bound → heightAll exprs ≤ turnsAll exprs * bound
  | [] => fun _ => Nat.zero_le _
  | expr :: exprs => fun short => by
    obtain ⟨firstShort, othersShort⟩ := Nat.max_le.mp short
    have first := height_below_turn firstShort (expr.height_le_spines firstShort)
    have others := heightAll_le_spines exprs othersShort
    have one := Nat.mul_le_mul_right bound (Nat.le_max_left (expr.turns + 1) (turnsAll exprs))
    have more := Nat.mul_le_mul_right bound (Nat.le_max_right (expr.turns + 1) (turnsAll exprs))
    rw [heightAll, turnsAll]
    omega

end

end Expr

/-- How many turns there may be in what is written with so much room, the turn to it included. -/
def Phrase.turns (room : Nat) : Phrase → Nat
  | .tier loosest => 12 * room + (12 - loosest.rank)
  | _ => 12 * room

/-- A selection turns as often as its target. -/
theorem selected_turns (target : Expr Span) (dot token : Token) (selector : Selector) :
    (selected target dot token selector).turns = target.turns := by
  cases selector <;> rfl

/-- A path down a leaf does not turn. -/
theorem leaf?_turns {token : Token} {expr : Expr Span} (alone : token.leaf? = some expr) :
    expr.turns = 0 := by
  unfold Token.leaf? at alone
  split at alone
  · cases alone; rfl
  · cases alone; rfl
  · cases alone; rfl
  · cases alone; rfl
  · obtain ⟨value, _, rfl⟩ := Option.map_eq_some_iff.mp alone
    rfl
  · cases alone

/-- Behind an operator between operands stands what is a tier tighter. -/
theorem BinaryOp.rank_tighter (op : BinaryOp) : op.tier.tighter.rank = op.tier.rank + 1 := by
  cases op <;> rfl

/-- At the tier of a phrase a path turns at most once to each tighter tier, and once to each of the
twelve tiers for each level of nesting that there is room for. -/
theorem Writing.turns_le {phrase : Phrase} {room : Nat} {values : List (Expr Span)}
    {written : List Token} (writing : Writing phrase room values written) :
    Expr.turnsAll values ≤ phrase.turns room := by
  induction writing with
  | whole _ ih =>
    have lowest : Tier.lowest.rank = 0 := rfl
    rw [Phrase.turns, lowest] at ih
    rw [Phrase.turns]
    · omega
    · nofun
  | @leaf loosest room token expr alone =>
    have tight := loosest.rank_le
    simp only [Expr.turnsAll, leaf?_turns alone, Phrase.turns]
    omega
  | group _ _ _ ih =>
    simp only [Expr.turnsAll, Phrase.turns] at ih ⊢
    omega
  | @binary loosest room op token lhs rhs left right _ allowed _ _ first second =>
    have tighter := op.rank_tighter
    have tight := op.tier.tighter.rank_le
    simp only [Expr.turnsAll, Expr.turns, Phrase.turns] at first second ⊢
    omega
  | unary _ allowed _ ih =>
    simp only [Expr.turnsAll, Expr.turns, Phrase.turns] at ih ⊢
    omega
  | @index loosest room opener closer target position before inside _ _ _ _ first second =>
    have tight := loosest.rank_le
    have last : Tier.postfixChain.rank = 11 := rfl
    simp only [Expr.turnsAll, Expr.turns, Phrase.turns, last] at first second ⊢
    omega
  | @call_empty loosest room opener closer callee before _ _ _ ih =>
    have tight := loosest.rank_le
    have last : Tier.postfixChain.rank = 11 := rfl
    simp only [Expr.turnsAll, Expr.turns, Phrase.turns, last] at ih ⊢
    omega
  | @call loosest room opener closer callee arguments before inside _ _ _ _ first second =>
    have tight := loosest.rank_le
    have last : Tier.postfixChain.rank = 11 := rfl
    simp only [Expr.turnsAll, Expr.turns, Phrase.turns, last] at first second ⊢
    omega
  | @selector loosest room dot token selector target before _ _ _ ih =>
    have tight := loosest.rank_le
    have last : Tier.postfixChain.rank = 11 := rfl
    simp only [Expr.turnsAll, selected_turns, Phrase.turns, last] at ih ⊢
    omega
  | last_argument _ ih => exact ih
  | argument _ _ _ first others =>
    simp only [Expr.turnsAll, Phrase.turns] at first others ⊢
    omega

/-- Each root of a source is written with room for as many levels as the nesting limit. -/
theorem Source.roots_written (source : Source) (limit : Nat) :
    ∀ root ∈ (source.outcome limit).roots, ∃ written, Writing .whole limit [root] written := by
  have each : ∀ tokens, ∀ root ∈ (parseProgram ⟨limit, source.tokenStream.stop⟩ tokens).roots,
      ∃ written, Writing .whole limit [root] written := by
    intro tokens
    induction tokens using program_induction ⟨limit, source.tokenStream.stop⟩ with
    | ended =>
      rw [parseProgram]
      exact List.forall_mem_nil _
    | failed tokens failure rest completed some fails =>
      rw [parseProgram_failed some fails]
      exact List.forall_mem_nil _
    | done tokens root rest succeeds ih =>
      obtain ⟨written, _, writing, _⟩ := Succeeds.sound succeeds
      rw [parseProgram_done succeeds]
      exact List.forall_mem_cons.mpr ⟨⟨written, writing⟩, ih⟩
  exact each source.tokenStream.tokens

/-- What is read within a depth is a tree no higher than the depth. -/
theorem Ast.readWithin_height {ast : Ast} {depth : Nat} {handle : Handle} {tree : Expr Handle}
    (read : ast.readWithin depth handle = .ok tree) : tree.height ≤ depth := by
  induction depth generalizing handle tree with
  | zero => cases read
  | succ depth ih =>
    obtain ⟨node, _, read⟩ := bind_ok read
    cases node with
    | bool value | int value =>
      cases read
      exact Nat.le_add_left 1 depth
    | str text | identifier text =>
      obtain ⟨_, _, read⟩ := bind_ok read
      cases read
      exact Nat.le_add_left 1 depth
    | binary op lhs rhs =>
      obtain ⟨left, readLeft, read⟩ := bind_ok read
      obtain ⟨right, readRight, read⟩ := bind_ok read
      cases read
      exact Nat.succ_le_succ (Nat.max_le.mpr ⟨ih readLeft, ih readRight⟩)
    | unary op operand =>
      obtain ⟨inner, readInner, read⟩ := bind_ok read
      cases read
      exact Nat.succ_le_succ (ih readInner)
    | index target position =>
      obtain ⟨outer, readOuter, read⟩ := bind_ok read
      obtain ⟨inner, readInner, read⟩ := bind_ok read
      cases read
      exact Nat.succ_le_succ (Nat.max_le.mpr ⟨ih readOuter, ih readInner⟩)
    | call callee range =>
      obtain ⟨called, readCalled, read⟩ := bind_ok read
      obtain ⟨handles, _, read⟩ := bind_ok read
      obtain ⟨trees, readAll, read⟩ := bind_ok read
      cases read
      have given := Expr.heightAll_le (mapM_all (fun _ _ _ found => ih found) readAll)
      exact Nat.succ_le_succ (Nat.max_le.mpr ⟨ih readCalled, given⟩)
    | primitive access target =>
      obtain ⟨inner, readInner, read⟩ := bind_ok read
      cases read
      exact Nat.succ_le_succ (ih readInner)
    | field target name =>
      obtain ⟨inner, readInner, read⟩ := bind_ok read
      obtain ⟨_, _, read⟩ := bind_ok read
      cases read
      exact Nat.succ_le_succ (ih readInner)

/-- A path down a root of a source turns fewer than twelve times for each level of nesting that the
limit allows, and between two turns it is on one spine, so a root is no higher than so many longest
spines. Reading the roots back goes exactly as deep as they are high, and walking them with any
visitor goes no deeper. -/
theorem height_within_limit_of_spines (source : Source) (limit : Nat) :
    (∀ root ∈ (source.outcome limit).roots,
      root.turns < 12 * limit ∧ root.height ≤ 12 * limit * root.longestSpine) ∧
    (source.content.utf8ByteSize < 2 ^ 32 → ∀ depth,
      (∀ root ∈ (source.outcome limit).roots, root.height ≤ depth) →
        (source.ast limit).Shows ((source.ast limit).readWithin depth)
          (source.ast limit).roots.toList (source.outcome limit).roots ∧
        ∀ {σ : Type} (visitor : Ast.Visitor σ), visitor.TakesAll (source.ast limit) →
          ∀ root ∈ (source.ast limit).roots.toList, ∀ state, ∃ final,
            Ast.visitWithin visitor (source.ast limit) depth root state = .ok final) ∧
    ∀ depth handle tree,
      (source.ast limit).readWithin depth handle = .ok tree → tree.height ≤ depth := by
  refine ⟨?_, ?_, fun _ _ _ read => Ast.readWithin_height read⟩
  · intro root member
    obtain ⟨written, writing⟩ := source.roots_written limit root member
    have turned : root.turns + 1 ≤ 12 * limit := by
      have allowed : max (root.turns + 1) 0 ≤ 12 * limit := writing.turns_le
      omega
    refine ⟨turned, ?_⟩
    calc
      root.height ≤ (root.turns + 1) * root.longestSpine :=
        Expr.height_below_turn (Nat.le_refl _) (root.height_le_spines (Nat.le_refl _))
      _ ≤ 12 * limit * root.longestSpine := Nat.mul_le_mul_right _ turned
  · intro small depth deep
    have sound : (source.ast limit).Sound := (Session.start_sound limit small).program.store
    have shows := (source.ast_stored limit small).2.shows fun expr member _ _ stored =>
      stored.read (deep expr member)
    refine ⟨shows, fun visitor takes root member state => ?_⟩
    obtain ⟨trees, read, _⟩ := shows
    obtain ⟨tree, found⟩ := Ast.mapM_each read root member
    obtain ⟨place, there⟩ := sound.roots root member
    exact sound.visit takes there found state

/-- A call of an index and what is subtracted from it are read back at the depth of four nodes. -/
theorem difference_is_read_within_four :
    (⟨0, "t.sb", "f[0](1) - -y"⟩ : Source).content.utf8ByteSize < 2 ^ 32 ∧
      (∀ root ∈ ((⟨0, "t.sb", "f[0](1) - -y"⟩ : Source).outcome 3).roots, root.height ≤ 4) ∧
      ((⟨0, "t.sb", "f[0](1) - -y"⟩ : Source).ast 3).Shows
        (((⟨0, "t.sb", "f[0](1) - -y"⟩ : Source).ast 3).readWithin 4)
        ((⟨0, "t.sb", "f[0](1) - -y"⟩ : Source).ast 3).roots.toList
        ((⟨0, "t.sb", "f[0](1) - -y"⟩ : Source).outcome 3).roots := by
  have small : (⟨0, "t.sb", "f[0](1) - -y"⟩ : Source).content.utf8ByteSize < 2 ^ 32 := by decide
  have deep : ∀ root ∈ ((⟨0, "t.sb", "f[0](1) - -y"⟩ : Source).outcome 3).roots,
      root.height ≤ 4 := by decide +kernel
  exact ⟨small, deep, ((height_within_limit_of_spines ⟨0, "t.sb", "f[0](1) - -y"⟩ 3).2.1
    small 4 deep).1⟩

/-- So many pairs of parentheses with nothing in them. -/
def emptyParens (count : Nat) : List Char := (List.replicate count ['(', ')']).flatten

/-- A name that is called, and what that gives is called, and so on. -/
def Source.calls (count : Nat) : Source := ⟨0, "calls.sb", String.ofList ('f' :: emptyParens count)⟩

/-- The tokens are so many pairs of parentheses. -/
def EmptyParens (count : Nat) (tokens : List Token) : Prop :=
  tokens.map Token.kind =
    (List.replicate count [TokenKind.mark .openParen, .mark .closeParen]).flatten

namespace Lexer

/-- What is no blank and no slash begins a token. -/
theorem next?_lexeme {first : Char} (notBlank : isBlank first = false) (noSlash : first ≠ '/')
    (rest : List Char) (place : Position) :
    next? ⟨first :: rest, place⟩ = some (⟨(Lexeme.scan first rest).1, place⟩,
      ⟨(Lexeme.scan first rest).2, place.shift (Lexeme.scan first rest).1.width⟩) :=
  next?_found (skipTrivia_lexeme notBlank fun comment => noSlash comment.1)

/-- Pairs of parentheses are lexed as such. -/
theorem run_emptyParens (count : Nat) (place : Position) :
    EmptyParens count (run ⟨emptyParens count, place⟩).1 := by
  induction count generalizing place with
  | zero =>
    have none : emptyParens 0 = [] := rfl
    rw [none, run_eq, next?_ended (skipTrivia_nil place)]
    rfl
  | succ count ih =>
    have text : emptyParens (count + 1) = '(' :: ')' :: emptyParens count := rfl
    have opens : Lexeme.scan '(' (')' :: emptyParens count) =
      (.mark .openParen, ')' :: emptyParens count) := rfl
    have closes : Lexeme.scan ')' (emptyParens count) = (.mark .closeParen, emptyParens count) := by
      cases count <;> rfl
    rw [text, run_eq, next?_lexeme rfl (by decide), opens]
    simp only
    rw [run_eq, next?_lexeme rfl (by decide), closes]
    exact congrArg (TokenKind.mark .openParen :: TokenKind.mark .closeParen :: ·) (ih _)

end Lexer

/-- Each pair of parentheses makes a call of what stands before it. -/
theorem EmptyParens.written {count : Nat} {tokens before : List Token} {target : Expr Span}
    (parens : EmptyParens count tokens) (writing : Writing (.tier .postfixChain) 0 [target] before) :
    ∃ expr, Writing (.tier .postfixChain) 0 [expr] (before ++ tokens) ∧
      expr.height = target.height + count := by
  induction count generalizing tokens before target with
  | zero =>
    obtain rfl := List.map_eq_nil_iff.mp parens
    exact ⟨target, by rwa [List.append_nil], rfl⟩
  | succ count ih =>
    obtain ⟨opener, behind, rfl, opens, more⟩ := List.map_eq_cons_iff.mp parens
    obtain ⟨closer, others, rfl, closes, rest⟩ := List.map_eq_cons_iff.mp more
    obtain ⟨expr, whole, height⟩ := ih rest (.call_empty opens closes writing)
    have higher : (Expr.call opener.span target []).height = target.height + 1 := by
      rw [Expr.height, Expr.heightAll, Nat.max_eq_left (Nat.zero_le _)]
    refine ⟨expr, ?_, by omega⟩
    rwa [List.append_assoc] at whole

/-- A name with calls behind it is one root, which is higher than it has calls. -/
theorem Source.calls_program (count : Nat) :
    ∃ root, Program 1 (calls count).tokenStream.tokens [root] ∧ root.height = count + 1 := by
  have name : Lexeme.scan 'f' (emptyParens count) = (.identifier "f", emptyParens count) := by
    cases count <;> rfl
  have cursor : Cursor.start (calls count) = ⟨'f' :: emptyParens count, .first⟩ := by
    rw [Cursor.start, chars, calls, String.toList_ofList]
    rfl
  have tokens : (calls count).tokenStream.tokens = ⟨.identifier "f", .first⟩ ::
      (Lexer.run ⟨emptyParens count, Position.first.shift 1⟩).1 := by
    rw [tokenStream, cursor, Lexer.run_eq, Lexer.next?_lexeme rfl (by decide), name]
    rfl
  have leaf : Writing (.tier .postfixChain) 0 [.identifier ⟨.first, 1⟩ "f"]
      [⟨.identifier "f", .first⟩] := .leaf rfl
  obtain ⟨root, writing, height⟩ := (Lexer.run_emptyParens count _).written leaf
  have program : Program 1 _ [root] := .cons (.whole (writing.loosen (Nat.zero_le _))) (.nil _) .nil
  rw [List.append_nil] at program
  rw [tokens]
  exact ⟨root, program, height.trans (Nat.add_comm ..)⟩

/-- With room for a single level of nesting a chain of calls is parsed, and its tree is as high as
half of its text is long. So no bound on the height can be made from the limit alone. -/
theorem calls_outgrow_nesting_limit :
    (∀ count, (Source.calls count).chars.length = 2 * count + 1 ∧
      (Session.start (Source.calls count) 1).program.1 = .ok () ∧
      ∃ root ∈ ((Source.calls count).outcome 1).roots, root.height = count + 1) ∧
    ¬ ∃ bound : Nat → Nat, ∀ (source : Source) (limit : Nat),
      (Session.start source limit).program.1 = .ok () →
        ∀ root ∈ (source.outcome limit).roots, root.height ≤ bound limit := by
  have parsed : ∀ count, (Session.start (Source.calls count) 1).program.1 = .ok () ∧
      ∃ root ∈ ((Source.calls count).outcome 1).roots, root.height = count + 1 := by
    intro count
    obtain ⟨root, program, height⟩ := Source.calls_program count
    obtain ⟨success, roots⟩ := (Source.program_iff _ 1 [root]).mp program
    exact ⟨success, root, by rw [roots]; exact .head _, height⟩
  constructor
  · intro count
    refine ⟨?_, parsed count⟩
    have text : (Source.calls count).chars = 'f' :: emptyParens count := String.toList_ofList
    have pairs : (emptyParens count).length = count * 2 := by simp [emptyParens]
    rw [text, List.length_cons, pairs, Nat.mul_comm]
  · rintro ⟨bound, bounded⟩
    obtain ⟨success, root, member, height⟩ := parsed (bound 1)
    have low := bounded _ 1 success root member
    omega

end Cascade
