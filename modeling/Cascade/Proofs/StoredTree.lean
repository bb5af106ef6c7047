import Cascade.Ast.Walk
import Cascade.Proofs.AstStore

/-!
# Trees in a store

A stored tree takes up a run of places in the history of its store: the places of its first child,
then those of the next, and its own place last. Inserting a tree puts it behind everything that was
stored, and from then on it is found under its handle: reading gives it back, and walking it with
the children first meets its places in order.
-/
namespace Cascade

namespace Expr

variable {α : Type}

mutual

/-- How many nodes a tree has. -/
def size : Expr α → Nat
  | .bool .. | .int .. | .str .. | .identifier .. => 1
  | .binary _ _ lhs rhs => lhs.size + rhs.size + 1
  | .unary _ _ operand => operand.size + 1
  | .index _ target position => target.size + position.size + 1
  | .call _ callee arguments => callee.size + sizeAll arguments + 1
  | .primitive _ _ target => target.size + 1
  | .field _ target _ => target.size + 1

/-- How many nodes trees have together. -/
def sizeAll : List (Expr α) → Nat
  | [] => 0
  | expr :: exprs => expr.size + sizeAll exprs

end

/-- A tree has at least one node. -/
theorem size_pos (expr : Expr α) : 0 < expr.size := by
  cases expr <;> simp [size]

/-- No tree is larger than all together. -/
theorem size_le_sizeAll {expr : Expr α} {exprs : List (Expr α)} (member : expr ∈ exprs) :
    expr.size ≤ sizeAll exprs := by
  induction exprs with
  | nil => cases member
  | cons first others ih =>
    rw [sizeAll]
    obtain rfl | later := List.mem_cons.mp member
    · exact Nat.le_add_right ..
    · exact Nat.le_trans (ih later) (Nat.le_add_left ..)

mutual

/-- How many nodes there are on the longest path down a tree. -/
def height : Expr α → Nat
  | .bool .. | .int .. | .str .. | .identifier .. => 1
  | .binary _ _ lhs rhs => max lhs.height rhs.height + 1
  | .unary _ _ operand => operand.height + 1
  | .index _ target position => max target.height position.height + 1
  | .call _ callee arguments => max callee.height (heightAll arguments) + 1
  | .primitive _ _ target => target.height + 1
  | .field _ target _ => target.height + 1

/-- How many nodes there are on the longest path down some tree. -/
def heightAll : List (Expr α) → Nat
  | [] => 0
  | expr :: exprs => max expr.height (heightAll exprs)

end

/-- The longest path down a tree has at least one node. -/
theorem height_pos (expr : Expr α) : 0 < expr.height := by
  cases expr <;> simp [height]

/-- No tree is higher than the highest. -/
theorem height_le_heightAll {expr : Expr α} {exprs : List (Expr α)} (member : expr ∈ exprs) :
    expr.height ≤ heightAll exprs := by
  induction exprs with
  | nil => cases member
  | cons first others ih =>
    rw [heightAll]
    obtain rfl | later := List.mem_cons.mp member
    · exact Nat.le_max_left ..
    · exact Nat.le_trans (ih later) (Nat.le_max_right ..)

mutual

/-- A tree is no higher than it has nodes. -/
theorem height_le_size : (expr : Expr α) → expr.height ≤ expr.size
  | .bool .. | .int .. | .str .. | .identifier .. => Nat.le_refl 1
  | .binary _ _ lhs rhs => by
    have left := lhs.height_le_size
    have right := rhs.height_le_size
    rw [height, size]
    omega
  | .unary _ _ operand => Nat.succ_le_succ operand.height_le_size
  | .index _ target position => by
    have outer := target.height_le_size
    have inner := position.height_le_size
    rw [height, size]
    omega
  | .call _ callee arguments => by
    have called := callee.height_le_size
    have given := heightAll_le_sizeAll arguments
    rw [height, size]
    omega
  | .primitive _ _ target => Nat.succ_le_succ target.height_le_size
  | .field _ target _ => Nat.succ_le_succ target.height_le_size

/-- No tree is higher than all together have nodes. -/
theorem heightAll_le_sizeAll : (exprs : List (Expr α)) → heightAll exprs ≤ sizeAll exprs
  | [] => Nat.le_refl 0
  | expr :: exprs => by
    have first := expr.height_le_size
    have others := heightAll_le_sizeAll exprs
    rw [heightAll, sizeAll]
    omega

end

end Expr

namespace Ast

open Cascade.Expr (sizeAll)

mutual

/-- The tree stands under the handle, and its nodes take up the places from the start on, children
before their parents. -/
def Stored (ast : Ast) (handle : Handle) (start : Nat) : Expr Span → Prop
  | .bool span value => ast.At handle (.bool value) span start
  | .int span value => ast.At handle (.int value) span start
  | .str span text => ∃ symbol, ast.resolve symbol = .ok text ∧
      ast.At handle (.str symbol) span start
  | .identifier span name => ∃ symbol, ast.resolve symbol = .ok name ∧
      ast.At handle (.identifier symbol) span start
  | .binary span op lhs rhs => ∃ left right, ast.Stored left start lhs ∧
      ast.Stored right (start + lhs.size) rhs ∧
      ast.At handle (.binary op left right) span (start + (lhs.size + rhs.size))
  | .unary span op operand => ∃ inner, ast.Stored inner start operand ∧
      ast.At handle (.unary op inner) span (start + operand.size)
  | .index span target position => ∃ outer inner, ast.Stored outer start target ∧
      ast.Stored inner (start + target.size) position ∧
      ast.At handle (.index outer inner) span (start + (target.size + position.size))
  | .call span callee arguments => ∃ called handles range, ast.Stored called start callee ∧
      ast.StoredAll handles (start + callee.size) arguments ∧ ast.list range = .ok handles ∧
      ast.At handle (.call called range) span (start + (callee.size + sizeAll arguments))
  | .primitive span access target => ∃ inner, ast.Stored inner start target ∧
      ast.At handle (.primitive access inner) span (start + target.size)
  | .field span target name => ∃ inner symbol, ast.Stored inner start target ∧
      ast.resolve symbol = .ok name ∧
      ast.At handle (.field inner symbol) span (start + target.size)

/-- The trees stand under the handles, each behind those before it. -/
def StoredAll (ast : Ast) (handles : List Handle) (start : Nat) : List (Expr Span) → Prop
  | [] => handles = []
  | expr :: exprs => ∃ first others, handles = first :: others ∧ ast.Stored first start expr ∧
      ast.StoredAll others (start + expr.size) exprs

end

mutual

/-- A stored tree stays stored. -/
theorem Grows.stored {before after : Ast} (grows : before.Grows after) {handle : Handle}
    {start : Nat} {expr : Expr Span} (stored : before.Stored handle start expr) :
    after.Stored handle start expr := by
  match expr, stored with
  | .bool _ _, stored => exact grows.node stored
  | .int _ _, stored => exact grows.node stored
  | .str _ _, ⟨symbol, resolved, placed⟩ => exact ⟨symbol, grows.text resolved, grows.node placed⟩
  | .identifier _ _, ⟨symbol, resolved, placed⟩ =>
    exact ⟨symbol, grows.text resolved, grows.node placed⟩
  | .binary _ _ lhs rhs, ⟨left, right, first, second, placed⟩ =>
    exact ⟨left, right, grows.stored first, grows.stored second, grows.node placed⟩
  | .unary _ _ operand, ⟨inner, first, placed⟩ =>
    exact ⟨inner, grows.stored first, grows.node placed⟩
  | .index _ target position, ⟨outer, inner, first, second, placed⟩ =>
    exact ⟨outer, inner, grows.stored first, grows.stored second, grows.node placed⟩
  | .call _ callee arguments, ⟨called, handles, range, first, others, listed, placed⟩ =>
    exact ⟨called, handles, range, grows.stored first, grows.storedAll others, grows.list listed,
      grows.node placed⟩
  | .primitive _ _ target, ⟨inner, first, placed⟩ =>
    exact ⟨inner, grows.stored first, grows.node placed⟩
  | .field _ target _, ⟨inner, symbol, first, resolved, placed⟩ =>
    exact ⟨inner, symbol, grows.stored first, grows.text resolved, grows.node placed⟩

/-- Stored trees stay stored. -/
theorem Grows.storedAll {before after : Ast} (grows : before.Grows after) {handles : List Handle}
    {start : Nat} {exprs : List (Expr Span)} (stored : before.StoredAll handles start exprs) :
    after.StoredAll handles start exprs := by
  match exprs, stored with
  | [], nothing => exact nothing
  | expr :: exprs, ⟨first, others, same, head, tail⟩ =>
    exact ⟨first, others, same, grows.stored head, grows.storedAll tail⟩

end

/-- As many trees as handles are stored. -/
theorem StoredAll.length {ast : Ast} {handles : List Handle} {start : Nat}
    {exprs : List (Expr Span)} (stored : ast.StoredAll handles start exprs) :
    handles.length = exprs.length := by
  induction exprs generalizing handles start with
  | nil => rw [show handles = [] from stored]; rfl
  | cons expr exprs ih =>
    obtain ⟨first, others, rfl, _, tail⟩ := stored
    exact congrArg Nat.succ (ih tail)

mutual

/-- Inserting a tree stores it behind everything else. -/
theorem insert_stored (expr : Expr Span) {ast : Ast} (room : ast.Room expr.size) :
    ast.Step (ast.insert expr).2 expr.size 1 ∧
      (ast.insert expr).2.Stored (ast.insert expr).1 ast.nodeCount expr := by
  match expr, room with
  | .bool span value, room =>
    obtain ⟨step, _, placed⟩ := push_step room (.refl room) (.bool value) span
    exact ⟨step, placed⟩
  | .int span value, room =>
    obtain ⟨step, _, placed⟩ := push_step room (.refl room) (.int value) span
    exact ⟨step, placed⟩
  | .str span text, room =>
    obtain ⟨step, _, placed, resolved⟩ := text_step room (.refl room) text .str span
    exact ⟨step, _, resolved, placed⟩
  | .identifier span name, room =>
    obtain ⟨step, _, placed, resolved⟩ := text_step room (.refl room) name .identifier span
    exact ⟨step, _, resolved, placed⟩
  | .binary span op lhs rhs, room =>
    have whole : ast.Room (lhs.size + (rhs.size + 1)) := room
    obtain ⟨first, left⟩ := insert_stored lhs (whole.shrink (Nat.le_add_right ..))
    have rest := first.room whole
    obtain ⟨second, right⟩ := insert_stored rhs (rest.shrink (Nat.le_succ _))
    rw [first.nodes] at right
    obtain ⟨step, grows, placed⟩ := push_step room (first.trans second) (.binary op _ _) span
    exact ⟨step, _, _, (second.grows.trans grows).stored left, grows.stored right, placed⟩
  | .unary span op operand, room =>
    obtain ⟨first, inner⟩ := insert_stored operand (room.shrink (Nat.le_succ _))
    obtain ⟨step, grows, placed⟩ := push_step room first (.unary op _) span
    exact ⟨step, _, grows.stored inner, placed⟩
  | .index span target position, room =>
    have whole : ast.Room (target.size + (position.size + 1)) := room
    obtain ⟨first, outer⟩ := insert_stored target (whole.shrink (Nat.le_add_right ..))
    have rest := first.room whole
    obtain ⟨second, inner⟩ := insert_stored position (rest.shrink (Nat.le_succ _))
    rw [first.nodes] at inner
    obtain ⟨step, grows, placed⟩ := push_step room (first.trans second) (.index _ _) span
    exact ⟨step, _, _, (second.grows.trans grows).stored outer, grows.stored inner, placed⟩
  | .call span callee arguments, room =>
    have whole : ast.Room (callee.size + (sizeAll arguments + 1)) := room
    obtain ⟨first, called⟩ := insert_stored callee (whole.shrink (Nat.le_add_right ..))
    have rest := first.room whole
    obtain ⟨others, given⟩ := insertAll_stored arguments (rest.shrink (Nat.le_succ _))
    have enough : ((ast.insert callee).2.insertAll arguments).1.length ≤ 1 + arguments.length := by
      rw [given.length]
      exact Nat.le_add_left ..
    obtain ⟨step, grows, placed, listed⟩ :=
      list_step room (first.trans others) enough (.call (ast.insert callee).1) span
    rw [first.nodes] at given
    exact ⟨step, _, _, _, (others.grows.trans grows).stored called, grows.storedAll given, listed,
      placed⟩
  | .primitive span access target, room =>
    obtain ⟨first, inner⟩ := insert_stored target (room.shrink (Nat.le_succ _))
    obtain ⟨step, grows, placed⟩ := push_step room first (.primitive access _) span
    exact ⟨step, _, grows.stored inner, placed⟩
  | .field span target name, room =>
    obtain ⟨first, inner⟩ := insert_stored target (room.shrink (Nat.le_succ _))
    obtain ⟨step, grows, placed, resolved⟩ :=
      text_step room first name (.field (ast.insert target).1) span
    exact ⟨step, _, _, grows.stored inner, resolved, placed⟩

/-- Inserting trees stores them one behind the other. -/
theorem insertAll_stored (exprs : List (Expr Span)) {ast : Ast} (room : ast.Room (sizeAll exprs)) :
    ast.Step (ast.insertAll exprs).2 (sizeAll exprs) exprs.length ∧
      (ast.insertAll exprs).2.StoredAll (ast.insertAll exprs).1 ast.nodeCount exprs := by
  match exprs, room with
  | [], room => exact ⟨.refl room, rfl⟩
  | expr :: exprs, room =>
    obtain ⟨first, head⟩ := insert_stored expr (room.shrink (Nat.le_add_right ..))
    obtain ⟨others, tail⟩ := insertAll_stored exprs (first.room room)
    rw [first.nodes] at tail
    have step := (first.trans others).spend (Nat.le_of_eq (Nat.add_comm ..))
    exact ⟨step, _, _, rfl, others.grows.stored head, tail⟩

end

mutual

/-- Inserting a tree makes no root. -/
theorem insert_roots (ast : Ast) (expr : Expr Span) : (ast.insert expr).2.roots = ast.roots := by
  match expr with
  | .bool _ _ => rfl
  | .int _ _ => rfl
  | .str _ _ => rfl
  | .identifier _ _ => rfl
  | .binary _ _ lhs rhs => exact (insert_roots _ rhs).trans (insert_roots ast lhs)
  | .unary _ _ operand => exact insert_roots ast operand
  | .index _ target position => exact (insert_roots _ position).trans (insert_roots ast target)
  | .call _ callee arguments =>
    have inside := (insertAll_roots _ arguments).trans (insert_roots ast callee)
    exact (congrArg Ast.roots (pushList_lists ((ast.insert callee).2.insertAll arguments).2
      ((ast.insert callee).2.insertAll arguments).1)).trans inside
  | .primitive _ _ target => exact insert_roots ast target
  | .field _ target _ => exact insert_roots ast target

/-- Inserting trees makes no roots. -/
theorem insertAll_roots (ast : Ast) (exprs : List (Expr Span)) :
    (ast.insertAll exprs).2.roots = ast.roots := by
  match exprs with
  | [] => rfl
  | expr :: exprs => exact (insertAll_roots _ exprs).trans (insert_roots ast expr)

end

/-- Recording a root changes nothing else. -/
theorem pushRoot_step {before ast : Ast} {count spare : Nat} (step : before.Step ast count spare)
    (handle : Handle) : before.Step (ast.pushRoot handle) count spare where
  sound := by
    obtain ⟨nodes, records⟩ := step.sound
    exact ⟨nodes, records.arena, records.spans, records.ordinals⟩
  grows := step.grows.trans ⟨fun found => ⟨found.get, found.ordinal, found.span⟩, id, id⟩
  nodes := step.nodes
  symbols := step.symbols
  lists := step.lists

/-- Inserting roots stores them one behind the other, and their handles are the new roots. -/
theorem insertRoots_stored (exprs : List (Expr Span)) {ast : Ast}
    (room : ast.Room (sizeAll exprs)) :
    ast.Step (ast.insertRoots exprs) (sizeAll exprs) 0 ∧ ∃ handles,
      (ast.insertRoots exprs).roots.toList = ast.roots.toList ++ handles ∧
      (ast.insertRoots exprs).StoredAll handles ast.nodeCount exprs := by
  induction exprs generalizing ast with
  | nil => exact ⟨.refl room, [], (List.append_nil _).symm, rfl⟩
  | cons expr exprs ih =>
    obtain ⟨inserted, head⟩ := insert_stored expr (room.shrink (Nat.le_add_right ..))
    have first := pushRoot_step inserted (ast.insert expr).1
    obtain ⟨others, handles, roots, tail⟩ := ih (first.room room)
    rw [first.nodes] at tail
    have kept : ((ast.insert expr).2.pushRoot (ast.insert expr).1).Stored (ast.insert expr).1
        ast.nodeCount expr := (pushRoot_step (.refl (inserted.room room)) _).grows.stored head
    refine ⟨(first.trans others).spend (Nat.zero_le _), (ast.insert expr).1 :: handles, ?_,
      _, handles, rfl, others.grows.stored kept, tail⟩
    have pushed : ((ast.insert expr).2.pushRoot (ast.insert expr).1).roots.toList =
        ast.roots.toList ++ [(ast.insert expr).1] := by
      simp only [pushRoot, insert_roots, Array.toList_push]
    rw [pushed, List.append_assoc] at roots
    exact roots

/-- A node has its span under its handle. -/
theorem At.span? {ast : Ast} {handle : Handle} {node : Node} {span : Span} {place : Nat}
    (placed : ast.At handle node span place) : ast.span? handle = some span := by
  rw [Ast.span?, placed.ordinal]
  exact placed.span

/-- The trees are read from the handles, with their spans. -/
def Shows (ast : Ast) (read : Handle → Except Fault (Expr Handle)) (handles : List Handle)
    (exprs : List (Expr Span)) : Prop :=
  ∃ trees, handles.mapM read = .ok trees ∧
    Expr.mapAll ast.span? trees = Expr.mapAll some exprs

/-- Stored trees are read one by one if each of them is. -/
theorem StoredAll.shows {ast : Ast} {read : Handle → Except Fault (Expr Handle)}
    {handles : List Handle} {start : Nat} {exprs : List (Expr Span)}
    (stored : ast.StoredAll handles start exprs)
    (each : ∀ expr ∈ exprs, ∀ handle start, ast.Stored handle start expr →
      ∃ tree, read handle = .ok tree ∧ tree.map ast.span? = expr.map some) :
    ast.Shows read handles exprs := by
  induction exprs generalizing handles start with
  | nil =>
    rw [show handles = [] from stored]
    exact ⟨[], rfl, rfl⟩
  | cons expr exprs ih =>
    obtain ⟨first, others, rfl, head, tail⟩ := stored
    obtain ⟨one, each⟩ := List.forall_mem_cons.mp each
    obtain ⟨tree, found, same⟩ := one first start head
    obtain ⟨trees, rest, alike⟩ := ih tail each
    refine ⟨tree :: trees, ?_, ?_⟩
    · rw [List.mapM_cons, found, rest]
      rfl
    · rw [Expr.mapAll, Expr.mapAll, same, alike]

/-- A stored tree is read back, with its spans, within a depth of its height. -/
theorem Stored.read {ast : Ast} {depth : Nat} {expr : Expr Span} (deep : expr.height ≤ depth)
    {handle : Handle} {start : Nat} (stored : ast.Stored handle start expr) :
    ∃ tree, ast.readWithin depth handle = .ok tree ∧ tree.map ast.span? = expr.map some := by
  induction depth generalizing expr handle start with
  | zero => exact absurd expr.height_pos (Nat.not_lt_of_le deep)
  | succ depth ih =>
    cases expr with
    | bool span value =>
      have placed : ast.At handle (.bool value) span start := stored
      refine ⟨.bool handle value, ?_, by rw [Expr.map, Expr.map, placed.span?]⟩
      simp only [readWithin, placed.get, bind, Except.bind, pure, Except.pure]
    | int span value =>
      have placed : ast.At handle (.int value) span start := stored
      refine ⟨.int handle value, ?_, by rw [Expr.map, Expr.map, placed.span?]⟩
      simp only [readWithin, placed.get, bind, Except.bind, pure, Except.pure]
    | str span text =>
      obtain ⟨symbol, resolved, placed⟩ := stored
      refine ⟨.str handle text, ?_, by rw [Expr.map, Expr.map, placed.span?]⟩
      simp only [readWithin, placed.get, resolved, bind, Except.bind, pure, Except.pure]
    | identifier span name =>
      obtain ⟨symbol, resolved, placed⟩ := stored
      refine ⟨.identifier handle name, ?_, by rw [Expr.map, Expr.map, placed.span?]⟩
      simp only [readWithin, placed.get, resolved, bind, Except.bind, pure, Except.pure]
    | binary span op lhs rhs =>
      obtain ⟨left, right, first, second, placed⟩ := stored
      rw [Expr.height] at deep
      obtain ⟨one, foundLeft, sameLeft⟩ := ih (by omega) first
      obtain ⟨two, foundRight, sameRight⟩ := ih (by omega) second
      refine ⟨.binary handle op one two, ?_, ?_⟩
      · simp only [readWithin, placed.get, foundLeft, foundRight, bind, Except.bind, pure,
          Except.pure]
      · rw [Expr.map, Expr.map, placed.span?, sameLeft, sameRight]
    | unary span op operand =>
      obtain ⟨inner, first, placed⟩ := stored
      obtain ⟨one, found, same⟩ := ih (Nat.le_of_succ_le_succ deep) first
      refine ⟨.unary handle op one, ?_, by rw [Expr.map, Expr.map, placed.span?, same]⟩
      simp only [readWithin, placed.get, found, bind, Except.bind, pure, Except.pure]
    | index span target position =>
      obtain ⟨outer, inner, first, second, placed⟩ := stored
      rw [Expr.height] at deep
      obtain ⟨one, foundOuter, sameOuter⟩ := ih (by omega) first
      obtain ⟨two, foundInner, sameInner⟩ := ih (by omega) second
      refine ⟨.index handle one two, ?_, ?_⟩
      · simp only [readWithin, placed.get, foundOuter, foundInner, bind, Except.bind, pure,
          Except.pure]
      · rw [Expr.map, Expr.map, placed.span?, sameOuter, sameInner]
    | call span callee arguments =>
      obtain ⟨called, handles, range, first, given, listed, placed⟩ := stored
      rw [Expr.height] at deep
      obtain ⟨one, found, same⟩ := ih (by omega) first
      have each : ∀ expr ∈ arguments, ∀ handle start, ast.Stored handle start expr →
          ∃ tree, ast.readWithin depth handle = .ok tree ∧ tree.map ast.span? = expr.map some := by
        intro expr member handle start stored
        have small := Expr.height_le_heightAll member
        exact ih (by omega) stored
      obtain ⟨trees, rest, alike⟩ := given.shows each
      refine ⟨.call handle one trees, ?_, ?_⟩
      · simp only [readWithin, placed.get, found, listed, rest, bind, Except.bind, pure,
          Except.pure]
      · rw [Expr.map, Expr.map, placed.span?, same, alike]
    | primitive span access target =>
      obtain ⟨inner, first, placed⟩ := stored
      obtain ⟨one, found, same⟩ := ih (Nat.le_of_succ_le_succ deep) first
      refine ⟨.primitive handle access one, ?_, by rw [Expr.map, Expr.map, placed.span?, same]⟩
      simp only [readWithin, placed.get, found, bind, Except.bind, pure, Except.pure]
    | field span target name =>
      obtain ⟨inner, symbol, first, resolved, placed⟩ := stored
      obtain ⟨one, found, same⟩ := ih (Nat.le_of_succ_le_succ deep) first
      refine ⟨.field handle one name, ?_, by rw [Expr.map, Expr.map, placed.span?, same]⟩
      simp only [readWithin, placed.get, found, resolved, bind, Except.bind, pure, Except.pure]

end Ast

end Cascade
