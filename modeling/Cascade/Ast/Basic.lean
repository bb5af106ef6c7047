import Cascade.Ast.Node
import Cascade.Expr.Basic
import Cascade.Position

/-!
# Stored expressions

Everything one parse leaves behind: the nodes in their arena, their spans in the order in which the
nodes were pushed, the lists of call arguments, the interned texts and the handles of the complete
top-level expressions. A tree is stored children first, so every child has its handle before the
node that refers to it is pushed.
-/
namespace Cascade

/-- The nodes of a source with their spans, argument lists, texts and roots. -/
structure Ast where
  /-- The nodes. -/
  arena : Arena
  /-- The top-level expressions in source order. -/
  roots : Array Handle
  /-- The span of every node, in the order in which the nodes were pushed. -/
  spans : Array Span
  /-- The place of each handle in that order. -/
  ordinals : Std.HashMap Handle Nat
  /-- The lists of call arguments, one behind the other. -/
  lists : Array Handle
  /-- The texts of names and strings. -/
  symbols : Interner

namespace Ast

/-- The store without nodes. -/
def empty : Ast := ⟨.empty, #[], #[], ∅, #[], .empty⟩

/-- Interns a text. -/
def intern (ast : Ast) (text : String) : Symbol × Ast :=
  let (symbol, symbols) := ast.symbols.intern text
  (symbol, { ast with symbols })

/-- Pushes a node with its span. -/
def push (ast : Ast) (node : Node) (span : Span) : Handle × Ast :=
  let (handle, arena) := ast.arena.push node
  (handle,
    { ast with
      arena
      spans := ast.spans.push span
      ordinals := ast.ordinals.insert handle ast.spans.size })

/-- Records a complete top-level expression. -/
def pushRoot (ast : Ast) (handle : Handle) : Ast := { ast with roots := ast.roots.push handle }

/-- Appends handles to the argument lists; no handles take no room and are the empty range. -/
def pushList (ast : Ast) (handles : List Handle) : HandleRange × Ast :=
  if handles.isEmpty then (.empty, ast)
  else
    (⟨UInt32.ofNat ast.lists.size, UInt32.ofNat handles.length⟩,
      { ast with lists := ast.lists ++ handles.toArray })

/-- The node at a handle. -/
def get (ast : Ast) (handle : Handle) : Except Fault Node := ast.arena.get handle

/-- The handles of a range of the argument lists. -/
def list (ast : Ast) (range : HandleRange) : Except Fault (List Handle) :=
  let start := range.start.toNat
  let stop := start + range.length.toNat
  if stop ≤ ast.lists.size then .ok (ast.lists.extract start stop).toList
  else .error .rangePastEnd

/-- The text of a symbol. -/
def resolve (ast : Ast) (symbol : Symbol) : Except Fault String :=
  match ast.symbols.resolve? symbol with
  | some text => .ok text
  | none => .error .unknownSymbol

/-- The span of the node at a handle, if a node was pushed under it. -/
def span? (ast : Ast) (handle : Handle) : Option Span :=
  ast.ordinals[handle]?.bind fun ordinal => ast.spans[ordinal]?

/-- How many nodes have been pushed. -/
def nodeCount (ast : Ast) : Nat := ast.arena.length

/-- How many bytes the nodes use. -/
def footprint (ast : Ast) : Footprint := ast.arena.footprint

/-- The number of nodes, the roots and the number of symbols, on one line. -/
def summary (ast : Ast) : String :=
  let roots := ", ".intercalate (ast.roots.toList.map Handle.text)
  s!"Ast \x7b nodes: {ast.nodeCount}, roots: [{roots}], symbols: {ast.symbols.size} \x7d"

mutual

/-- Stores an expression, children first, and gives out the handle of its outermost node. -/
def insert (ast : Ast) : Expr Span → Handle × Ast
  | .bool span value => ast.push (.bool value) span
  | .int span value => ast.push (.int value) span
  | .str span text =>
    let (symbol, ast) := ast.intern text
    ast.push (.str symbol) span
  | .identifier span name =>
    let (symbol, ast) := ast.intern name
    ast.push (.identifier symbol) span
  | .binary span op lhs rhs =>
    let (left, ast) := ast.insert lhs
    let (right, ast) := ast.insert rhs
    ast.push (.binary op left right) span
  | .unary span op operand =>
    let (inner, ast) := ast.insert operand
    ast.push (.unary op inner) span
  | .index span target position =>
    let (outer, ast) := ast.insert target
    let (inner, ast) := ast.insert position
    ast.push (.index outer inner) span
  | .call span callee arguments =>
    let (called, ast) := ast.insert callee
    let (handles, ast) := ast.insertAll arguments
    let (range, ast) := ast.pushList handles
    ast.push (.call called range) span
  | .primitive span access target =>
    let (inner, ast) := ast.insert target
    ast.push (.primitive access inner) span
  | .field span target name =>
    let (inner, ast) := ast.insert target
    let (symbol, ast) := ast.intern name
    ast.push (.field inner symbol) span

/-- Stores expressions in order and gives out their handles. -/
def insertAll (ast : Ast) : List (Expr Span) → List Handle × Ast
  | [] => ([], ast)
  | expr :: exprs =>
    let (handle, ast) := ast.insert expr
    let (handles, ast) := ast.insertAll exprs
    (handle :: handles, ast)

end

/-- Stores expressions in order, each as a root. -/
def insertRoots (ast : Ast) (exprs : List (Expr Span)) : Ast :=
  exprs.foldl (fun ast expr => let (handle, ast) := ast.insert expr; ast.pushRoot handle) ast

end Ast

end Cascade
