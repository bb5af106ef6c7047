import Cascade.Expr.Basic

/-!
# Expressions as text

An expression is written in full parentheses with its operator in front, whatever its precedence:
`true and 123 or false` is `(or (and true 123) false)`. Names and numbers stand for themselves, a
string stands between double quotes with its quotes and backslashes escaped, indexing has the head
`index`, a call the head `call`, and a selector the head that begins with its dot.
-/
namespace Cascade

/-- One character of a string between quotes. -/
def renderStringChar (c : Char) : List Char :=
  if c = '"' then ['\\', '"'] else if c = '\\' then ['\\', '\\'] else [c]

/-- A string between quotes. -/
def renderString (text : String) : String :=
  "\"" ++ String.ofList (text.toList.flatMap renderStringChar) ++ "\""

namespace Expr

variable {α : Type}

mutual

/-- The expression as text. -/
def render : Expr α → String
  | .bool _ value => if value then "true" else "false"
  | .int _ value => toString value.toNat
  | .str _ text => renderString text
  | .identifier _ name => name
  | .binary _ op lhs rhs => "(" ++ op.spelling ++ " " ++ lhs.render ++ " " ++ rhs.render ++ ")"
  | .unary _ op operand => "(" ++ op.spelling ++ " " ++ operand.render ++ ")"
  | .index _ target position => "(index " ++ target.render ++ " " ++ position.render ++ ")"
  | .call _ callee arguments => "(call " ++ callee.render ++ renderArguments arguments ++ ")"
  | .primitive _ access target => "(." ++ access.spelling ++ " " ++ target.render ++ ")"
  | .field _ target name => "(. " ++ target.render ++ " " ++ name ++ ")"

/-- Arguments as text, a blank before each. -/
def renderArguments : List (Expr α) → String
  | [] => ""
  | expr :: exprs => " " ++ expr.render ++ renderArguments exprs

end

end Expr

end Cascade
