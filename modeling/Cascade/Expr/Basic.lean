import Cascade.Operator

/-!
# Expressions

The tree of an expression. Every node carries a note of any type: the span of the token that
introduced it, the handle under which it is stored, or nothing at all. Grouping adds no node.
-/
namespace Cascade

/-- An expression whose nodes carry notes. -/
inductive Expr (α : Type) where
  /-- A truth value. -/
  | bool (note : α) (value : Bool)
  /-- A number of 64 bits. -/
  | int (note : α) (value : UInt64)
  /-- The text between two quotes. -/
  | str (note : α) (text : String)
  /-- A name. -/
  | identifier (note : α) (name : String)
  /-- An operator between two operands. -/
  | binary (note : α) (op : BinaryOp) (lhs rhs : Expr α)
  /-- An operator before an operand. -/
  | unary (note : α) (op : UnaryOp) (operand : Expr α)
  /-- The element of a target at a position. -/
  | index (note : α) (target position : Expr α)
  /-- A call with its arguments in order. -/
  | call (note : α) (callee : Expr α) (arguments : List (Expr α))
  /-- A target under a selector that is no field name. -/
  | primitive (note : α) (access : Access) (target : Expr α)
  /-- A field of a target. -/
  | field (note : α) (target : Expr α) (name : String)

namespace Expr

variable {α β : Type}

/-- The note of the outermost node. -/
def note : Expr α → α
  | .bool note _ => note
  | .int note _ => note
  | .str note _ => note
  | .identifier note _ => note
  | .binary note _ _ _ => note
  | .unary note _ _ => note
  | .index note _ _ => note
  | .call note _ _ => note
  | .primitive note _ _ => note
  | .field note _ _ => note

mutual

/-- The same tree with other notes. -/
def map (f : α → β) : Expr α → Expr β
  | .bool note value => .bool (f note) value
  | .int note value => .int (f note) value
  | .str note text => .str (f note) text
  | .identifier note name => .identifier (f note) name
  | .binary note op lhs rhs => .binary (f note) op (lhs.map f) (rhs.map f)
  | .unary note op operand => .unary (f note) op (operand.map f)
  | .index note target position => .index (f note) (target.map f) (position.map f)
  | .call note callee arguments => .call (f note) (callee.map f) (mapAll f arguments)
  | .primitive note access target => .primitive (f note) access (target.map f)
  | .field note target name => .field (f note) (target.map f) name

/-- The same trees with other notes. -/
def mapAll (f : α → β) : List (Expr α) → List (Expr β)
  | [] => []
  | expr :: exprs => expr.map f :: mapAll f exprs

end

/-- Trees are given other notes one by one. -/
theorem mapAll_eq_map (f : α → β) (exprs : List (Expr α)) :
    mapAll f exprs = exprs.map (Expr.map f) := by
  induction exprs with
  | nil => rfl
  | cons expr exprs ih => rw [mapAll, ih, List.map_cons]

end Expr

end Cascade
