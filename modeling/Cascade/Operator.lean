/-!
# Operators and selectors

The operators of expressions with their spellings and the codes under which the store keeps them.
A code is the place of the operator in its list, so no two operators share one.
-/
namespace Cascade

/-- Operators between two operands, loosest first. -/
inductive BinaryOp where
  | or | and
  | equal | notEqual | less | lessEqual | greater | greaterEqual
  | bitOr | bitXor | bitAnd
  | shiftLeft | shiftRight
  | add | sub | concat
  | mul | div | mod | repetition
  deriving DecidableEq, Repr

namespace BinaryOp

/-- Every operator in the order of the codes. -/
def all : List BinaryOp :=
  [.or, .and, .equal, .notEqual, .less, .lessEqual, .greater, .greaterEqual, .bitOr, .bitXor,
    .bitAnd, .shiftLeft, .shiftRight, .add, .sub, .concat, .mul, .div, .mod, .repetition]

/-- The code that stands for the operator in stored bytes. -/
def code : BinaryOp → UInt8
  | .or => 0 | .and => 1
  | .equal => 2 | .notEqual => 3 | .less => 4 | .lessEqual => 5 | .greater => 6
  | .greaterEqual => 7
  | .bitOr => 8 | .bitXor => 9 | .bitAnd => 10
  | .shiftLeft => 11 | .shiftRight => 12
  | .add => 13 | .sub => 14 | .concat => 15
  | .mul => 16 | .div => 17 | .mod => 18 | .repetition => 19

/-- The operator of a code. -/
def ofCode? (code : UInt8) : Option BinaryOp := all[code.toNat]?

/-- How the operator is written. -/
def spelling : BinaryOp → String
  | .or => "or" | .and => "and"
  | .equal => "==" | .notEqual => "!=" | .less => "<" | .lessEqual => "<=" | .greater => ">"
  | .greaterEqual => ">="
  | .bitOr => "|" | .bitXor => "^" | .bitAnd => "&"
  | .shiftLeft => "<<" | .shiftRight => ">>"
  | .add => "+" | .sub => "-" | .concat => "++"
  | .mul => "*" | .div => "/" | .mod => "%" | .repetition => "**"

/-- Every operator is found under its code. -/
theorem ofCode?_code (op : BinaryOp) : ofCode? op.code = some op := by cases op <;> rfl

end BinaryOp

/-- Operators before one operand. -/
inductive UnaryOp where
  /-- Logical not, looser than comparison. -/
  | not
  /-- Arithmetic negation. -/
  | negate
  /-- Bitwise complement. -/
  | bitNot
  deriving DecidableEq, Repr

namespace UnaryOp

/-- Every operator in the order of the codes. -/
def all : List UnaryOp := [.not, .negate, .bitNot]

/-- The code that stands for the operator in stored bytes. -/
def code : UnaryOp → UInt8
  | .not => 0 | .negate => 1 | .bitNot => 2

/-- The operator of a code. -/
def ofCode? (code : UInt8) : Option UnaryOp := all[code.toNat]?

/-- How the operator is written. -/
def spelling : UnaryOp → String
  | .not => "!" | .negate => "-" | .bitNot => "~"

/-- Every operator is found under its code. -/
theorem ofCode?_code (op : UnaryOp) : ofCode? op.code = some op := by cases op <;> rfl

end UnaryOp

/-- The selectors after a dot that are no field names. -/
inductive Access where
  /-- What a pointer points to. -/
  | deref
  /-- The address of a place. -/
  | addressOf
  /-- The content of an option, checked. -/
  | checkedUnwrap
  /-- The content of an option, unchecked. -/
  | uncheckedUnwrap
  deriving DecidableEq, Repr

namespace Access

/-- Every selector in the order of the codes. -/
def all : List Access := [.deref, .addressOf, .checkedUnwrap, .uncheckedUnwrap]

/-- The code that stands for the selector in stored bytes. -/
def code : Access → UInt8
  | .deref => 0 | .addressOf => 1 | .checkedUnwrap => 2 | .uncheckedUnwrap => 3

/-- The selector of a code. -/
def ofCode? (code : UInt8) : Option Access := all[code.toNat]?

/-- How the selector is written after the dot. -/
def spelling : Access → String
  | .deref => "*" | .addressOf => "&" | .checkedUnwrap => "?" | .uncheckedUnwrap => "!"

/-- Every selector is found under its code. -/
theorem ofCode?_code (access : Access) : ofCode? access.code = some access := by
  cases access <;> rfl

end Access

end Cascade
