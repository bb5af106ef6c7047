import Cascade.Ast.Basic
import Cascade.Expr.Render

/-!
# Reading stored expressions

Handles lead from node to node. A path of distinct handles is bounded by the number of handles the
store accepts, which is at most the number of variants times the number of nodes; a longer path
comes back to a handle it has passed, so the nodes lead round a cycle and no tree can be read.

There are two ways to walk: a visitor meets every node before its children, which it finds by the
variant of the node, and the generic walk asks each node for its children. Reading gives the tree
with the handle of every node; its text is the text of the stored expression.
-/
namespace Cascade.Ast

/-- The longest path that need not come back to a handle, with its end. -/
def depthLimit (ast : Ast) : Nat := NodeKind.all.length * ast.nodeCount + 1

/-- The children of the node at a handle in source order, the arguments of a call included. -/
def children (ast : Ast) (handle : Handle) : Except Fault (List Handle) := do
  let node ← ast.get handle
  match node with
  | .call callee arguments => return callee :: (← ast.list arguments)
  | other => return other.directChildren

/-- The handles of a tree no deeper than the bound, every node before its children. -/
def preorderWithin (ast : Ast) : Nat → Handle → Except Fault (List Handle)
  | 0, _ => .error .cyclic
  | depth + 1, handle => do
    let children ← ast.children handle
    let below ← children.mapM (ast.preorderWithin depth)
    return handle :: below.flatten

/-- The handles of the tree at a handle, every node before its children. -/
def preorder (ast : Ast) (handle : Handle) : Except Fault (List Handle) :=
  ast.preorderWithin ast.depthLimit handle

/-- The tree at a handle if it is no deeper than the bound. -/
def readWithin (ast : Ast) : Nat → Handle → Except Fault (Expr Handle)
  | 0, _ => .error .cyclic
  | depth + 1, handle => do
    let node ← ast.get handle
    match node with
    | .bool value => return .bool handle value
    | .int value => return .int handle value
    | .str text => return .str handle (← ast.resolve text)
    | .identifier name => return .identifier handle (← ast.resolve name)
    | .binary op lhs rhs =>
      let left ← ast.readWithin depth lhs
      let right ← ast.readWithin depth rhs
      return .binary handle op left right
    | .unary op operand => return .unary handle op (← ast.readWithin depth operand)
    | .index target position =>
      let outer ← ast.readWithin depth target
      let inner ← ast.readWithin depth position
      return .index handle outer inner
    | .call callee arguments =>
      let called ← ast.readWithin depth callee
      let handles ← ast.list arguments
      return .call handle called (← handles.mapM (ast.readWithin depth))
    | .primitive access target => return .primitive handle access (← ast.readWithin depth target)
    | .field target name =>
      let inner ← ast.readWithin depth target
      return .field handle inner (← ast.resolve name)

/-- The tree at a handle. -/
def read (ast : Ast) (handle : Handle) : Except Fault (Expr Handle) :=
  ast.readWithin ast.depthLimit handle

/-- The text of the expression at a handle. -/
def render (ast : Ast) (handle : Handle) : Except Fault String := do
  return (← ast.read handle).render

/-- The text of every root, each on a line of its own. -/
def renderRoots (ast : Ast) : Except Fault String := do
  let texts ← ast.roots.toList.mapM ast.render
  return String.join (texts.map (· ++ "\n"))

/-- What is done at each node of a walk, before its children are walked. -/
structure Visitor (σ : Type) where
  /-- Takes in the node at a handle. -/
  enter : Ast → Handle → Node → σ → Except Fault σ

/-- Walks the tree at a handle if it is no deeper than the bound. -/
def visitWithin {σ : Type} (visitor : Visitor σ) (ast : Ast) :
    Nat → Handle → σ → Except Fault σ
  | 0, _, _ => .error .cyclic
  | depth + 1, handle, state => do
    let node ← ast.get handle
    let state ← visitor.enter ast handle node state
    match node with
    | .bool _ | .int _ | .str _ | .identifier _ => return state
    | .binary _ lhs rhs =>
      let state ← visitWithin visitor ast depth lhs state
      visitWithin visitor ast depth rhs state
    | .unary _ operand => visitWithin visitor ast depth operand state
    | .index target position =>
      let state ← visitWithin visitor ast depth target state
      visitWithin visitor ast depth position state
    | .call callee arguments =>
      let state ← visitWithin visitor ast depth callee state
      let handles ← ast.list arguments
      handles.foldlM (fun state child => visitWithin visitor ast depth child state) state
    | .primitive _ target => visitWithin visitor ast depth target state
    | .field target _ => visitWithin visitor ast depth target state

/-- Walks the tree at a handle, every node before its children. -/
def visit {σ : Type} (visitor : Visitor σ) (ast : Ast) (handle : Handle) (state : σ) :
    Except Fault σ :=
  visitWithin visitor ast ast.depthLimit handle state

/-- Walks several trees one after the other. -/
def visitAll {σ : Type} (visitor : Visitor σ) (ast : Ast) (handles : List Handle) (state : σ) :
    Except Fault σ :=
  handles.foldlM (fun state handle => visit visitor ast handle state) state

/-- A node without children, its text resolved. -/
inductive Leaf where
  | bool (value : Bool)
  | int (value : UInt64)
  | str (text : String)
  | identifier (name : String)
  deriving DecidableEq, Repr

/-- Collects the leaves in the order in which the walk meets them. -/
def leafVisitor : Visitor (Array Leaf) where
  enter ast _ node leaves := do
    match node with
    | .bool value => return leaves.push (.bool value)
    | .int value => return leaves.push (.int value)
    | .str text => return leaves.push (.str (← ast.resolve text))
    | .identifier name => return leaves.push (.identifier (← ast.resolve name))
    | _ => return leaves

/-- Counts the operators between operands. -/
def binaryVisitor : Visitor Nat where
  enter _ _ node count :=
    match node with
    | .binary .. => .ok (count + 1)
    | _ => .ok count

/-- The leaves of the trees at the handles, in source order. -/
def leaves (ast : Ast) (handles : List Handle) : Except Fault (List Leaf) := do
  return (← visitAll leafVisitor ast handles #[]).toList

/-- How many operators between operands the trees at the handles hold. -/
def binaryCount (ast : Ast) (handles : List Handle) : Except Fault Nat :=
  visitAll binaryVisitor ast handles 0

end Cascade.Ast
