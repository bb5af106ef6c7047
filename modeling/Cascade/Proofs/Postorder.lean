import Cascade.Proofs.ParsedSource

/-!
# The order of insertion

A walk that meets every node after its children, and the children in source order, meets the nodes
of a stored tree in the order in which they were pushed: its places are a run without gaps. The
trees of a source are stored one behind the other, so a walk over all of them meets the places from
the first on.
-/
namespace Cascade

/-- The subtrees of a tree in source order, the arguments of a call included. -/
def Expr.children {α : Type} : Expr α → List (Expr α)
  | .bool .. | .int .. | .str .. | .identifier .. => []
  | .binary _ _ lhs rhs => [lhs, rhs]
  | .unary _ _ operand => [operand]
  | .index _ target position => [target, position]
  | .call _ callee arguments => callee :: arguments
  | .primitive _ _ target => [target]
  | .field _ target _ => [target]

/-- A tree has one node more than its subtrees. -/
theorem Expr.size_children {α : Type} (expr : Expr α) :
    expr.size = sizeAll expr.children + 1 := by
  cases expr <;> simp [size, children, sizeAll]

namespace Ast

open Cascade.Expr (sizeAll)

/-- The handles of a tree no deeper than the bound, every node after its children. -/
def postorderWithin (ast : Ast) : Nat → Handle → Except Fault (List Handle)
  | 0, _ => .error .cyclic
  | depth + 1, handle => do
    let children ← ast.children handle
    let below ← children.mapM (ast.postorderWithin depth)
    return below.flatten ++ [handle]

/-- The handles of the tree at a handle, every node after its children. -/
def postorder (ast : Ast) (handle : Handle) : Except Fault (List Handle) :=
  ast.postorderWithin ast.depthLimit handle

/-- The handles of all roots in order with what is below them, every node after its children. -/
def postorderRoots (ast : Ast) : Except Fault (List Handle) := do
  return (← ast.roots.toList.mapM ast.postorder).flatten

/-- The handles were given out at so many places from the start on, one at each. -/
def InOrder (ast : Ast) (walk : List Handle) (start count : Nat) : Prop :=
  walk.map (ast.ordinals[·]?) = (List.range' start count).map some

/-- Walks over neighbouring runs of places make a walk over both. -/
theorem InOrder.append {ast : Ast} {first second : List Handle} {start one two : Nat}
    (early : ast.InOrder first start one) (late : ast.InOrder second (start + one) two) :
    ast.InOrder (first ++ second) start (one + two) := by
  rw [InOrder, List.map_append, early, late, ← List.map_append, List.range'_append_1]

/-- The children of a node other than a call are the handles it has. -/
theorem At.children {ast : Ast} {handle : Handle} {node : Node} {span : Span} {place : Nat}
    (placed : ast.At handle node span place)
    (plain : ∀ callee arguments, node ≠ .call callee arguments) :
    ast.children handle = .ok node.directChildren := by
  rw [Ast.children, placed.get]
  cases node with
  | call callee arguments => exact absurd rfl (plain callee arguments)
  | _ => rfl

/-- The children of a stored tree are stored one behind the other, and its own node behind them. -/
theorem Stored.children {ast : Ast} {handle : Handle} {start : Nat} {expr : Expr Span}
    (stored : ast.Stored handle start expr) :
    ∃ handles, ast.children handle = .ok handles ∧ ast.StoredAll handles start expr.children ∧
      ast.ordinals[handle]? = some (start + sizeAll expr.children) := by
  cases expr with
  | bool span value =>
    have placed : ast.At handle (.bool value) span start := stored
    exact ⟨[], placed.children nofun, rfl, placed.ordinal⟩
  | int span value =>
    have placed : ast.At handle (.int value) span start := stored
    exact ⟨[], placed.children nofun, rfl, placed.ordinal⟩
  | str span text =>
    obtain ⟨symbol, _, placed⟩ := stored
    exact ⟨[], placed.children nofun, rfl, placed.ordinal⟩
  | identifier span name =>
    obtain ⟨symbol, _, placed⟩ := stored
    exact ⟨[], placed.children nofun, rfl, placed.ordinal⟩
  | binary span op lhs rhs =>
    obtain ⟨left, right, first, second, placed⟩ := stored
    exact ⟨[left, right], placed.children nofun,
      ⟨left, [right], rfl, first, right, [], rfl, second, rfl⟩, placed.ordinal⟩
  | unary span op operand =>
    obtain ⟨inner, first, placed⟩ := stored
    exact ⟨[inner], placed.children nofun, ⟨inner, [], rfl, first, rfl⟩, placed.ordinal⟩
  | index span target position =>
    obtain ⟨outer, inner, first, second, placed⟩ := stored
    exact ⟨[outer, inner], placed.children nofun,
      ⟨outer, [inner], rfl, first, inner, [], rfl, second, rfl⟩, placed.ordinal⟩
  | call span callee arguments =>
    obtain ⟨called, handles, range, first, given, listed, placed⟩ := stored
    refine ⟨called :: handles, ?_, ⟨called, handles, rfl, first, given⟩, placed.ordinal⟩
    simp only [Ast.children, placed.get, listed, bind, Except.bind, pure, Except.pure]
  | primitive span access target =>
    obtain ⟨inner, first, placed⟩ := stored
    exact ⟨[inner], placed.children nofun, ⟨inner, [], rfl, first, rfl⟩, placed.ordinal⟩
  | field span target name =>
    obtain ⟨inner, symbol, first, _, placed⟩ := stored
    exact ⟨[inner], placed.children nofun, ⟨inner, [], rfl, first, rfl⟩, placed.ordinal⟩

/-- Walks over stored trees make a walk over all of them. -/
theorem StoredAll.inOrder {ast : Ast} {walk : Handle → Except Fault (List Handle)}
    {handles : List Handle} {start : Nat} {exprs : List (Expr Span)}
    (stored : ast.StoredAll handles start exprs)
    (each : ∀ expr ∈ exprs, ∀ handle start, ast.Stored handle start expr →
      ∃ visited, walk handle = .ok visited ∧ ast.InOrder visited start expr.size) :
    ∃ walks, handles.mapM walk = .ok walks ∧
      ast.InOrder walks.flatten start (sizeAll exprs) := by
  induction exprs generalizing handles start with
  | nil =>
    rw [show handles = [] from stored]
    exact ⟨[], rfl, rfl⟩
  | cons expr exprs ih =>
    obtain ⟨first, others, rfl, head, tail⟩ := stored
    obtain ⟨one, each⟩ := List.forall_mem_cons.mp each
    obtain ⟨visited, found, early⟩ := one first start head
    obtain ⟨walks, rest, late⟩ := ih tail each
    refine ⟨visited :: walks, ?_, ?_⟩
    · rw [List.mapM_cons, found, rest]
      rfl
    · rw [List.flatten_cons, sizeAll]
      exact early.append late

/-- A walk over a stored tree that is deep enough meets its places in order. -/
theorem Stored.postorder {ast : Ast} {depth : Nat} {expr : Expr Span} (deep : expr.size ≤ depth)
    {handle : Handle} {start : Nat} (stored : ast.Stored handle start expr) :
    ∃ walk, ast.postorderWithin depth handle = .ok walk ∧ ast.InOrder walk start expr.size := by
  induction depth generalizing expr handle start with
  | zero => exact absurd expr.size_pos (Nat.not_lt_of_le deep)
  | succ depth ih =>
    rw [expr.size_children] at deep ⊢
    obtain ⟨handles, found, below, ordinal⟩ := stored.children
    have each : ∀ child ∈ expr.children, ∀ handle start, ast.Stored handle start child →
        ∃ walk, ast.postorderWithin depth handle = .ok walk ∧
          ast.InOrder walk start child.size := by
      intro child member handle start stored
      have small := Expr.size_le_sizeAll member
      exact ih (by omega) stored
    obtain ⟨walks, visited, order⟩ := below.inOrder each
    refine ⟨walks.flatten ++ [handle], ?_, order.append ?_⟩
    · simp only [postorderWithin, found, visited, bind, Except.bind, pure, Except.pure]
    · rw [InOrder, List.map_singleton, ordinal]
      rfl

/-- The handles are the first of those that pushing the nodes gave out, in the order of the pushes,
and each of them has the span that was pushed with it. -/
structure Unrolls (ast : Ast) (nodes : List Node) (walk : List Handle) : Prop where
  /-- The store keeps exactly these nodes, pushed in this order. -/
  recorded : ast.Records nodes
  /-- The handles are those of the first pushes. -/
  segment : walk <+: DenseList.handlesOf Node.union nodes
  /-- No handle comes twice. -/
  once : walk.Nodup
  /-- The span of a handle is the one at its place. -/
  spans : ∀ (place : Nat) (handle : Handle), walk[place]? = some handle →
    ∃ span, ast.span? handle = some span ∧ ast.spans[place]? = some span

/-- A walk in order has one handle for every place. -/
theorem InOrder.length {ast : Ast} {walk : List Handle} {start count : Nat}
    (order : ast.InOrder walk start count) : walk.length = count := by
  have same := congrArg List.length order
  rwa [List.length_map, List.length_map, List.length_range'] at same

/-- A handle in a walk from the first place on has the place where the walk meets it. -/
theorem InOrder.ordinal {ast : Ast} {walk : List Handle} {count place : Nat} {handle : Handle}
    (order : ast.InOrder walk 0 count) (found : walk[place]? = some handle) :
    ast.ordinals[handle]? = some place := by
  obtain ⟨inside, _⟩ := List.getElem?_eq_some_iff.mp found
  rw [order.length] at inside
  have same := congrArg (·[place]?) order
  simp only [List.getElem?_map, found, List.getElem?_range' inside, Option.map_some, Nat.zero_add,
    Nat.one_mul] at same
  exact Option.some.inj same

/-- A walk over the places from the first on gives the handles in the order of the pushes. -/
theorem InOrder.unrolls {ast : Ast} {nodes : List Node} {walk : List Handle} {count : Nat}
    (order : ast.InOrder walk 0 count) (records : ast.Records nodes)
    (few : nodes.length < 2 ^ 32) : ast.Unrolls nodes walk := by
  have segment : walk <+: DenseList.handlesOf Node.union nodes := by
    refine List.prefix_iff_getElem?.mpr fun place inside => ?_
    have placed := order.ordinal (List.getElem?_eq_getElem inside)
    obtain ⟨node, there, same⟩ := (records.ordinals _ _).mp placed
    rw [DenseList.handlesOf, List.getElem?_mapIdx, there, same]
    rfl
  refine ⟨records, segment, segment.sublist.nodup (DenseList.handlesOf_nodup few), ?_⟩
  intro place handle found
  have placed := order.ordinal found
  obtain ⟨node, there, _⟩ := (records.ordinals handle place).mp placed
  obtain ⟨inside, _⟩ := List.getElem?_eq_some_iff.mp there
  rw [← records.spans] at inside
  refine ⟨ast.spans[place], ?_, Array.getElem?_eq_getElem inside⟩
  rw [Ast.span?, placed, Option.bind_some, Array.getElem?_eq_getElem inside]

end Ast

/-- A walk over the roots of a source that meets every node after its children meets the nodes in
the order in which they were pushed; it meets all of them if the parse succeeded. Handles tell nodes
apart by 32 bits, as byte offsets do places in a source. -/
theorem insertion_order_is_postorder (source : Source) (limit : Nat)
    (small : source.content.utf8ByteSize < 2 ^ 32) :
    ∃ nodes walk, (source.ast limit).postorderRoots = .ok walk ∧
      (source.ast limit).Unrolls nodes walk ∧
      ((Session.start source limit).program.1 = .ok () →
        walk = DenseList.handlesOf Node.union nodes ∧
        walk.length = (source.ast limit).nodeCount) := by
  obtain ⟨step, stored⟩ := source.ast_stored limit small
  obtain ⟨nodes, records⟩ := step.sound
  have count := source.nodeCount limit small
  have few := source.size_lt limit small
  rw [← count, records.nodeCount] at few
  obtain ⟨walks, found, order⟩ := stored.inOrder fun expr member handle start stored =>
    stored.postorder (Source.size_le_depthLimit small member)
  have walked : (source.ast limit).roots.toList.mapM (source.ast limit).postorder = .ok walks :=
    found
  have unrolls := order.unrolls records few
  refine ⟨nodes, walks.flatten, ?_, unrolls, fun success => ?_⟩
  · simp only [Ast.postorderRoots, walked, bind, Except.bind, pure, Except.pure]
  · have stop := (Session.program_ok _).mp success
    have nothing : (source.outcome limit).completed = [] := by
      rw [ProgramOutcome.completed, Source.outcome, stop]
    have whole : walks.flatten.length = (source.ast limit).nodeCount := by
      rw [order.length, count, nothing, Expr.sizeAll, Nat.add_zero]
    refine ⟨unrolls.segment.eq_of_length ?_, whole⟩
    rw [whole, records.nodeCount, DenseList.handlesOf, List.length_mapIdx]

/-- Two roots, the first with a call among its operands, are walked in the order of the pushes. -/
theorem insertion_order_of_two_roots :
    ∃ nodes walk, ((⟨0, "two.sb", "f(1, x) - y z.w"⟩ : Source).ast 8).postorderRoots = .ok walk ∧
      walk = DenseList.handlesOf Node.union nodes ∧
      walk.length = ((⟨0, "two.sb", "f(1, x) - y z.w"⟩ : Source).ast 8).nodeCount := by
  obtain ⟨nodes, walk, found, _, all⟩ :=
    insertion_order_is_postorder ⟨0, "two.sb", "f(1, x) - y z.w"⟩ 8 (by decide)
  have success : (Session.start ⟨0, "two.sb", "f(1, x) - y z.w"⟩ 8).program.1 = .ok () :=
    (Session.program_ok _).mpr (Option.isNone_iff_eq_none.mp (by decide +kernel))
  exact ⟨nodes, walk, found, all success⟩

end Cascade
