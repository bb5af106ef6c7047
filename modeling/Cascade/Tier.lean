import Cascade.Operator
import Cascade.Token.Kind

/-!
# Precedence tiers

The tiers of the expression grammar, from the loosest binding to the tightest. Ten of them belong
to operators: eight to operators between operands, two to operators before an operand. Each is
read with operands of the next tighter tier.
-/
namespace Cascade

/-- How tightly an expression binds, loosest first. -/
inductive Tier where
  | logicalOr
  | logicalAnd
  /-- The operator `!` before an operand. -/
  | logicalNot
  | comparison
  | bitwiseOr
  | bitwiseXor
  | bitwiseAnd
  | shift
  | additive
  | multiplicative
  /-- The operators `-` and `~` before an operand. -/
  | unary
  /-- Indexing, calls and selectors after an operand. -/
  | postfixChain
  deriving DecidableEq, Repr

namespace Tier

/-- Every tier, the loosest first. -/
def all : List Tier :=
  [.logicalOr, .logicalAnd, .logicalNot, .comparison, .bitwiseOr, .bitwiseXor, .bitwiseAnd, .shift,
    .additive, .multiplicative, .unary, .postfixChain]

/-- The tier of a whole expression. -/
def lowest : Tier := .logicalOr

/-- The place of the tier, counted from zero at the loosest. -/
def rank : Tier → Nat
  | .logicalOr => 0
  | .logicalAnd => 1
  | .logicalNot => 2
  | .comparison => 3
  | .bitwiseOr => 4
  | .bitwiseXor => 5
  | .bitwiseAnd => 6
  | .shift => 7
  | .additive => 8
  | .multiplicative => 9
  | .unary => 10
  | .postfixChain => 11

/-- The next tighter tier; the tightest is its own. -/
def tighter : Tier → Tier
  | .logicalOr => .logicalAnd
  | .logicalAnd => .logicalNot
  | .logicalNot => .comparison
  | .comparison => .bitwiseOr
  | .bitwiseOr => .bitwiseXor
  | .bitwiseXor => .bitwiseAnd
  | .bitwiseAnd => .shift
  | .shift => .additive
  | .additive => .multiplicative
  | .multiplicative => .unary
  | .unary => .postfixChain
  | .postfixChain => .postfixChain

/-- No tier is tighter than the last. -/
theorem rank_le (tier : Tier) : tier.rank ≤ 11 := by cases tier <;> decide

/-- Every tier but the last is one place looser than the next. -/
theorem rank_tighter {tier : Tier} (inner : tier ≠ .postfixChain) :
    tier.tighter.rank = tier.rank + 1 := by
  cases tier <;> first | rfl | exact absurd rfl inner

end Tier

/-- The tier of an operator between operands. -/
def BinaryOp.tier : BinaryOp → Tier
  | .or => .logicalOr
  | .and => .logicalAnd
  | .equal | .notEqual | .less | .lessEqual | .greater | .greaterEqual => .comparison
  | .bitOr => .bitwiseOr
  | .bitXor => .bitwiseXor
  | .bitAnd => .bitwiseAnd
  | .shiftLeft | .shiftRight => .shift
  | .add | .sub | .concat => .additive
  | .mul | .div | .mod | .repetition => .multiplicative

/-- The tier of an operator before an operand. -/
def UnaryOp.tier : UnaryOp → Tier
  | .not => .logicalNot
  | .negate | .bitNot => .unary

/-- The operator a token kind stands for between operands. -/
def TokenKind.binaryOp? : TokenKind → Option BinaryOp
  | .keyword .orWord => some .or
  | .keyword .andWord => some .and
  | .mark .equalEqual => some .equal
  | .mark .bangEqual => some .notEqual
  | .mark .less => some .less
  | .mark .lessEqual => some .lessEqual
  | .mark .greater => some .greater
  | .mark .greaterEqual => some .greaterEqual
  | .mark .bar => some .bitOr
  | .mark .caret => some .bitXor
  | .mark .ampersand => some .bitAnd
  | .mark .lessLess => some .shiftLeft
  | .mark .greaterGreater => some .shiftRight
  | .mark .plus => some .add
  | .mark .minus => some .sub
  | .mark .plusPlus => some .concat
  | .mark .star => some .mul
  | .mark .slash => some .div
  | .mark .percent => some .mod
  | .mark .starStar => some .repetition
  | _ => none

/-- The operator a token kind stands for before an operand. -/
def TokenKind.unaryOp? : TokenKind → Option UnaryOp
  | .mark .bang => some .not
  | .mark .minus => some .negate
  | .mark .tilde => some .bitNot
  | _ => none

/-- The selector other than a field name that a token kind stands for after a dot. -/
def TokenKind.access? : TokenKind → Option Access
  | .mark .star => some .deref
  | .mark .ampersand => some .addressOf
  | .mark .question => some .checkedUnwrap
  | .mark .bang => some .uncheckedUnwrap
  | _ => none

end Cascade
