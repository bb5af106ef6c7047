import Cascade.Proofs.Postorder

/-!
# Sound stores

A store is sound if every node in it refers only to what is there: its children were pushed before
it, its arguments lie inside the lists and its symbols have texts. Inserting trees keeps a store
sound, since each place that is added belongs to a tree that was stored. In a sound store nothing
that a user asks of a handle goes wrong: a child has an earlier place than its parent, so reading
and walking come to an end, whatever the node.
-/
namespace Cascade

/-- The symbols in a node. -/
def Node.symbols : Node → List Symbol
  | .str text => [text]
  | .identifier name => [name]
  | .field _ name => [name]
  | _ => []

namespace Ast

open Cascade.Expr (sizeAll)

/-- The handle was given out before the place. -/
def Before (ast : Ast) (place : Nat) (handle : Handle) : Prop :=
  ∃ earlier, ast.ordinals[handle]? = some earlier ∧ earlier < place

/-- The node, which stands at the place, refers only to what is there. -/
structure Refers (ast : Ast) (place : Nat) (node : Node) : Prop where
  /-- The children that it names were pushed before it. -/
  children : ∀ child ∈ node.directChildren, ast.Before place child
  /-- The arguments of a call lie inside the lists and were pushed before it. -/
  arguments : ∀ callee range, node = .call callee range →
    ∃ handles, ast.list range = .ok handles ∧ ∀ child ∈ handles, ast.Before place child
  /-- Its symbols have texts. -/
  symbols : ∀ symbol ∈ node.symbols, ∃ text, ast.resolve symbol = .ok text

/-- Every node in the store refers only to what is there, and every root is there. -/
structure Sound (ast : Ast) : Prop where
  /-- The tables are in step. -/
  tables : ∃ nodes, ast.Records nodes
  /-- A handle that was given out gives a node, which refers only to what is there. -/
  nodes : ∀ (handle : Handle) (place : Nat), ast.ordinals[handle]? = some place →
    ∃ node, ast.get handle = .ok node ∧ ast.Refers place node
  /-- The handles of the roots were given out. -/
  roots : ∀ root ∈ ast.roots.toList, ∃ place, ast.ordinals[root]? = some place

variable {ast : Ast} {handle : Handle} {start place : Nat} {expr : Expr Span}

/-- A stored tree has its handle before every place behind it. -/
theorem Stored.before (stored : ast.Stored handle start expr) (behind : start + expr.size ≤ place) :
    ast.Before place handle := by
  obtain ⟨_, _, _, ordinal⟩ := stored.children
  rw [expr.size_children] at behind
  exact ⟨_, ordinal, by omega⟩

/-- Stored trees have their handles before every place behind them. -/
theorem StoredAll.before {handles : List Handle} {exprs : List (Expr Span)}
    (stored : ast.StoredAll handles start exprs) (behind : start + sizeAll exprs ≤ place) :
    ∀ handle ∈ handles, ast.Before place handle := by
  induction exprs generalizing handles start with
  | nil => rw [show handles = [] from stored]; nofun
  | cons expr exprs ih =>
    obtain ⟨first, others, rfl, head, tail⟩ := stored
    rw [sizeAll] at behind
    refine List.forall_mem_cons.mpr ⟨head.before (by omega), ih tail (by omega)⟩

/-- A node whose children were pushed before it and whose symbols have texts refers only to what is
there. -/
theorem Refers.of_children {node : Node} {handles : List Handle} (got : ast.get handle = .ok node)
    (found : ast.children handle = .ok handles)
    (earlier : ∀ child ∈ handles, ast.Before place child)
    (symbols : ∀ symbol ∈ node.symbols, ∃ text, ast.resolve symbol = .ok text) :
    ast.Refers place node := by
  rw [Ast.children, got] at found
  cases node with
  | call callee range =>
    cases listed : ast.list range with
    | error fault =>
      simp only [listed, bind, Except.bind, reduceCtorEq] at found
    | ok arguments =>
      simp only [listed, bind, Except.bind, pure, Except.pure, Except.ok.injEq] at found
      subst found
      obtain ⟨called, given⟩ := List.forall_mem_cons.mp earlier
      refine ⟨List.forall_mem_singleton.mpr called, ?_, symbols⟩
      intro _ _ same
      cases same
      exact ⟨arguments, listed, given⟩
  | _ =>
    cases found
    refine ⟨earlier, ?_, symbols⟩
    intro _ _ same
    cases same

/-- A stored tree has a node whose symbols have texts. -/
theorem Stored.node (stored : ast.Stored handle start expr) :
    ∃ node, ast.get handle = .ok node ∧
      ∀ symbol ∈ node.symbols, ∃ text, ast.resolve symbol = .ok text := by
  cases expr with
  | bool span value =>
    have placed : ast.At handle (.bool value) span start := stored
    exact ⟨_, placed.get, nofun⟩
  | int span value =>
    have placed : ast.At handle (.int value) span start := stored
    exact ⟨_, placed.get, nofun⟩
  | str span text =>
    obtain ⟨symbol, resolved, placed⟩ := stored
    exact ⟨_, placed.get, List.forall_mem_singleton.mpr ⟨text, resolved⟩⟩
  | identifier span name =>
    obtain ⟨symbol, resolved, placed⟩ := stored
    exact ⟨_, placed.get, List.forall_mem_singleton.mpr ⟨name, resolved⟩⟩
  | binary span op lhs rhs =>
    obtain ⟨left, right, _, _, placed⟩ := stored
    exact ⟨_, placed.get, nofun⟩
  | unary span op operand =>
    obtain ⟨inner, _, placed⟩ := stored
    exact ⟨_, placed.get, nofun⟩
  | index span target position =>
    obtain ⟨outer, inner, _, _, placed⟩ := stored
    exact ⟨_, placed.get, nofun⟩
  | call span callee arguments =>
    obtain ⟨called, handles, range, _, _, _, placed⟩ := stored
    exact ⟨_, placed.get, nofun⟩
  | primitive span access target =>
    obtain ⟨inner, _, placed⟩ := stored
    exact ⟨_, placed.get, nofun⟩
  | field span target name =>
    obtain ⟨inner, symbol, _, resolved, placed⟩ := stored
    exact ⟨_, placed.get, List.forall_mem_singleton.mpr ⟨name, resolved⟩⟩

/-- The place was given to a handle whose node refers only to what is there. -/
def Rests (ast : Ast) (place : Nat) : Prop :=
  ∃ handle node, ast.ordinals[handle]? = some place ∧ ast.get handle = .ok node ∧
    ast.Refers place node

/-- The last place of a stored tree is that of its own node. -/
theorem Stored.rests_last (stored : ast.Stored handle start expr) :
    ast.Rests (start + sizeAll expr.children) := by
  obtain ⟨node, got, symbols⟩ := stored.node
  obtain ⟨handles, found, below, ordinal⟩ := stored.children
  exact ⟨handle, node, ordinal, got, .of_children got found (below.before (Nat.le_refl _)) symbols⟩

/-- Each place that stored trees take up has a property if it has it in each of them. -/
theorem StoredAll.each_place {holds : Nat → Prop} {handles : List Handle}
    {exprs : List (Expr Span)} (stored : ast.StoredAll handles start exprs)
    (each : ∀ expr ∈ exprs, ∀ handle start, ast.Stored handle start expr →
      ∀ place, start ≤ place → place < start + expr.size → holds place) :
    ∀ place, start ≤ place → place < start + sizeAll exprs → holds place := by
  induction exprs generalizing handles start with
  | nil =>
    intro place above below
    rw [sizeAll] at below
    omega
  | cons expr exprs ih =>
    obtain ⟨first, others, rfl, head, tail⟩ := stored
    obtain ⟨one, each⟩ := List.forall_mem_cons.mp each
    intro place above below
    rw [sizeAll] at below
    by_cases inside : place < start + expr.size
    · exact one first start head place above inside
    · exact ih tail each place (Nat.le_of_not_lt inside) (by omega)

section

variable (kept : Expr Span → Prop) {holds : Nat → Prop}
  (children : ∀ expr, kept expr → ∀ child ∈ expr.children, kept child)
  (last : ∀ handle start expr, kept expr → ast.Stored handle start expr →
    holds (start + sizeAll expr.children))

include children last

/-- Each place that a stored tree takes up has a property if the last one has it, and that of every
tree below it. -/
theorem Stored.each_place {depth : Nat} (deep : expr.size ≤ depth) (keeps : kept expr)
    (stored : ast.Stored handle start expr) :
    ∀ place, start ≤ place → place < start + expr.size → holds place := by
  induction depth generalizing expr handle start with
  | zero => exact absurd expr.size_pos (Nat.not_lt_of_le deep)
  | succ depth ih =>
    obtain ⟨handles, found, below, ordinal⟩ := stored.children
    have own := last handle start expr keeps stored
    rw [expr.size_children] at deep ⊢
    have each : ∀ child ∈ expr.children, ∀ handle start, ast.Stored handle start child →
        ∀ place, start ≤ place → place < start + child.size → holds place := by
      intro child member handle start stored
      have small := Expr.size_le_sizeAll member
      exact ih (by omega) (children expr keeps child member) stored
    intro place above under
    by_cases top : place = start + sizeAll expr.children
    · rw [top]
      exact own
    · exact below.each_place each place above (by omega)

/-- Each place that stored trees take up has a property if the last one of every tree among them and
below them has it. -/
theorem StoredAll.places {handles : List Handle} {exprs : List (Expr Span)}
    (keeps : ∀ expr ∈ exprs, kept expr) (stored : ast.StoredAll handles start exprs) :
    ∀ place, start ≤ place → place < start + sizeAll exprs → holds place :=
  stored.each_place fun expr member _ _ stored =>
    stored.each_place kept children last (Nat.le_refl _) (keeps expr member)

end

/-- Each place that stored trees take up rests. -/
theorem StoredAll.rests {handles : List Handle} {exprs : List (Expr Span)}
    (stored : ast.StoredAll handles start exprs) :
    ∀ place, start ≤ place → place < start + sizeAll exprs → ast.Rests place :=
  stored.places (fun _ => True) (fun _ _ _ _ => trivial)
    (fun _ _ _ _ stored => stored.rests_last) fun _ _ => trivial

/-- A place is that of one handle only. -/
theorem Records.handle_unique {nodes : List Node} (records : ast.Records nodes) {other : Handle}
    (one : ast.ordinals[handle]? = some place) (two : ast.ordinals[other]? = some place) :
    handle = other := by
  obtain ⟨node, there, rfl⟩ := (records.ordinals handle place).mp one
  obtain ⟨found, again, rfl⟩ := (records.ordinals other place).mp two
  rw [Option.some.inj (there.symm.trans again)]

/-- A handle has a place among those of the nodes. -/
theorem Records.place_lt {nodes : List Node} (records : ast.Records nodes)
    (there : ast.ordinals[handle]? = some place) : place < ast.nodeCount := by
  obtain ⟨node, found, _⟩ := (records.ordinals handle place).mp there
  obtain ⟨inside, _⟩ := List.getElem?_eq_some_iff.mp found
  rwa [records.nodeCount]

namespace Sound

/-- The store without nodes is sound. -/
theorem empty : Ast.empty.Sound where
  tables := ⟨[], .empty⟩
  nodes handle place there := by
    obtain ⟨_, found, _⟩ := (Records.empty.ordinals handle place).mp there
    cases found
  roots := nofun

/-- A handle that was given out stands at its place with a node that refers only to what is
there. -/
theorem at_place (sound : ast.Sound) (there : ast.ordinals[handle]? = some place) :
    ∃ node span, ast.At handle node span place ∧ ast.Refers place node := by
  obtain ⟨node, got, refers⟩ := sound.nodes handle place there
  obtain ⟨nodes, records⟩ := sound.tables
  have inside := records.place_lt there
  rw [records.nodeCount, ← records.spans] at inside
  exact ⟨node, _, ⟨got, there, Array.getElem?_eq_getElem inside⟩, refers⟩

end Sound

variable {before after : Ast}

/-- A handle that was given out before a place was so in every later store. -/
theorem Grows.earlier (grows : before.Grows after) (sound : before.Sound)
    (earlier : before.Before place handle) : after.Before place handle := by
  obtain ⟨first, there, less⟩ := earlier
  obtain ⟨node, span, placed, _⟩ := sound.at_place there
  exact ⟨first, (grows.node placed).ordinal, less⟩

/-- A node that refers only to what is there does so in every later store. -/
theorem Grows.refers {node : Node} (grows : before.Grows after) (sound : before.Sound)
    (refers : before.Refers place node) : after.Refers place node where
  children child member := grows.earlier sound (refers.children child member)
  arguments callee range same := by
    obtain ⟨handles, listed, earlier⟩ := refers.arguments callee range same
    refine ⟨handles, grows.list listed, fun child member => ?_⟩
    exact grows.earlier sound (earlier child member)
  symbols symbol member := by
    obtain ⟨text, resolved⟩ := refers.symbols symbol member
    exact ⟨text, grows.text resolved⟩

namespace Sound

/-- A store stays sound if each place that is added rests and the roots that are added are there. -/
theorem step {count spare : Nat} (sound : before.Sound) (step : before.Step after count spare)
    (added : ∀ place, before.nodeCount ≤ place → place < before.nodeCount + count →
      after.Rests place)
    (roots : ∀ root ∈ after.roots.toList, root ∈ before.roots.toList ∨
      ∃ place, after.ordinals[root]? = some place) : after.Sound where
  tables := step.sound
  nodes handle place there := by
    obtain ⟨nodes, records⟩ := step.sound
    obtain ⟨old, recorded⟩ := sound.tables
    have inside := records.place_lt there
    rw [step.nodes] at inside
    have rests : after.Rests place := by
      by_cases new : before.nodeCount ≤ place
      · exact added place new inside
      · rw [recorded.nodeCount, Nat.not_le] at new
        have ordinal := (recorded.ordinals _ place).mpr
          ⟨old[place], List.getElem?_eq_getElem new, rfl⟩
        obtain ⟨node, span, placed, refers⟩ := sound.at_place ordinal
        have kept := step.grows.node placed
        exact ⟨_, node, kept.ordinal, kept.get, step.grows.refers sound refers⟩
    obtain ⟨other, node, ordinal, got, refers⟩ := rests
    rw [records.handle_unique there ordinal]
    exact ⟨node, got, refers⟩
  roots root member := by
    obtain old | new := roots root member
    · obtain ⟨place, there⟩ := sound.roots root old
      obtain ⟨node, span, placed, _⟩ := sound.at_place there
      exact ⟨place, (step.grows.node placed).ordinal⟩
    · exact new

/-- Inserting trees keeps a store sound and leaves the room that they do not take. -/
theorem insertAll {exprs : List (Expr Span)} {more : Nat} (sound : ast.Sound)
    (room : ast.Room (sizeAll exprs + more)) :
    (ast.insertAll exprs).2.Sound ∧ (ast.insertAll exprs).2.Room more := by
  obtain ⟨step, stored⟩ := insertAll_stored exprs (room.shrink (Nat.le_add_right ..))
  have rests := stored.rests
  refine ⟨sound.step step rests ?_, step.room room⟩
  rw [insertAll_roots]
  exact fun root member => .inl member

/-- Inserting roots keeps a store sound and leaves the room that they do not take. -/
theorem insertRoots {exprs : List (Expr Span)} {more : Nat} (sound : ast.Sound)
    (room : ast.Room (sizeAll exprs + more)) :
    (ast.insertRoots exprs).Sound ∧ (ast.insertRoots exprs).Room more := by
  obtain ⟨step, handles, roots, stored⟩ :=
    insertRoots_stored exprs (room.shrink (Nat.le_add_right ..))
  have rests := stored.rests
  refine ⟨sound.step step rests ?_, step.room room⟩
  rw [roots]
  intro root member
  obtain old | new := List.mem_append.mp member
  · exact .inl old
  · obtain ⟨place, there, _⟩ := stored.before (Nat.le_refl _) root new
    exact .inr ⟨place, there⟩

end Sound

/-- Each place of a store into which roots and further trees were put has a property if the last one
of every tree among them and below them has it. -/
theorem places_of_trees {roots completed : List (Expr Span)} (kept : Expr Span → Prop)
    {holds : Nat → Prop} (few : sizeAll roots + sizeAll completed < 2 ^ 32)
    (children : ∀ expr, kept expr → ∀ child ∈ expr.children, kept child)
    (last : ∀ handle start expr, kept expr →
      ((Ast.empty.insertRoots roots).insertAll completed).2.Stored handle start expr →
        holds (start + sizeAll expr.children))
    (first : ∀ root ∈ roots, kept root) (second : ∀ expr ∈ completed, kept expr) :
    ∀ place, place < ((Ast.empty.insertRoots roots).insertAll completed).2.nodeCount →
      holds place := by
  have room : Ast.empty.Room (sizeAll roots + (sizeAll completed + 0)) := .empty few
  obtain ⟨_, left⟩ := Sound.empty.insertRoots room
  obtain ⟨step, handles, _, stored⟩ :=
    Ast.insertRoots_stored roots (room.shrink (Nat.le_add_right ..))
  obtain ⟨further, behind⟩ := Ast.insertAll_stored completed left
  have none : Ast.empty.nodeCount = 0 := rfl
  have early := further.grows.storedAll stored
  have inside := further.nodes
  have before := step.nodes
  rw [none] at early before
  intro place within
  by_cases root : place < 0 + sizeAll roots
  · exact early.places kept children last first place (Nat.zero_le place) root
  · exact behind.places kept children last second place (by omega) (by omega)

/-- What follows an action that gives a result follows its value. -/
theorem bind_ok {ε σ τ : Type} {act : Except ε σ} {next : σ → Except ε τ} {result : τ}
    (done : act >>= next = .ok result) : ∃ value, act = .ok value ∧ next value = .ok result := by
  cases act with
  | error _ => cases done
  | ok value => exact ⟨value, rfl, done⟩

/-- A list is mapped if each of its items is. -/
theorem mapM_ok {α β ε : Type} {act : α → Except ε β} {items : List α}
    (each : ∀ item ∈ items, ∃ value, act item = .ok value) :
    ∃ values, items.mapM act = .ok values := by
  induction items with
  | nil => exact ⟨[], rfl⟩
  | cons item items ih =>
    obtain ⟨first, others⟩ := List.forall_mem_cons.mp each
    obtain ⟨value, found⟩ := first
    obtain ⟨values, rest⟩ := ih others
    refine ⟨value :: values, ?_⟩
    rw [List.mapM_cons, found, rest]
    rfl

/-- Each item of a list that is mapped is. -/
theorem mapM_each {α β ε : Type} {act : α → Except ε β} {items : List α} {values : List β}
    (done : items.mapM act = .ok values) : ∀ item ∈ items, ∃ value, act item = .ok value := by
  induction items generalizing values with
  | nil => exact List.forall_mem_nil _
  | cons item items ih =>
    rw [List.mapM_cons] at done
    obtain ⟨value, found, done⟩ := bind_ok done
    obtain ⟨others, further, _⟩ := bind_ok done
    exact List.forall_mem_cons.mpr ⟨⟨value, found⟩, ih further⟩

/-- What holds of whatever the items are mapped to holds of all that they are mapped to. -/
theorem mapM_all {ε σ τ : Type} {act : σ → Except ε τ} {holds : τ → Prop} {items : List σ}
    {values : List τ} (each : ∀ item ∈ items, ∀ value, act item = .ok value → holds value)
    (done : items.mapM act = .ok values) : ∀ value ∈ values, holds value := by
  induction items generalizing values with
  | nil =>
    cases done
    exact List.forall_mem_nil _
  | cons item items ih =>
    obtain ⟨first, each⟩ := List.forall_mem_cons.mp each
    rw [List.mapM_cons] at done
    obtain ⟨value, found, done⟩ := bind_ok done
    obtain ⟨others, further, done⟩ := bind_ok done
    cases done
    exact List.forall_mem_cons.mpr ⟨first value found, ih each further⟩

/-- A list is folded if each of its items is taken in whatever the state. -/
theorem foldlM_ok {α σ ε : Type} {act : σ → α → Except ε σ} {items : List α}
    (each : ∀ item ∈ items, ∀ state, ∃ next, act state item = .ok next) (state : σ) :
    ∃ final, items.foldlM act state = .ok final := by
  induction items generalizing state with
  | nil => exact ⟨state, rfl⟩
  | cons item items ih =>
    obtain ⟨first, others⟩ := List.forall_mem_cons.mp each
    obtain ⟨next, found⟩ := first state
    obtain ⟨final, rest⟩ := ih others next
    refine ⟨final, ?_⟩
    rw [List.foldlM_cons, found]
    exact rest

/-- The visitor takes in every node of the store. -/
def Visitor.TakesAll {σ : Type} (visitor : Visitor σ) (ast : Ast) : Prop :=
  ∀ (handle : Handle) (place : Nat) (node : Node) (state : σ),
    ast.ordinals[handle]? = some place → ast.get handle = .ok node →
      ∃ next, visitor.enter ast handle node state = .ok next

/-- Whatever a user asks of the handle is answered. -/
structure Usable (ast : Ast) (handle : Handle) : Prop where
  /-- It gives a node. -/
  get : ∃ node, ast.get handle = .ok node
  /-- It gives its children. -/
  children : ∃ handles, ast.children handle = .ok handles
  /-- It is written as a text. -/
  render : ∃ text, ast.render handle = .ok text
  /-- It is walked by every visitor that takes in the nodes. -/
  visit : ∀ {σ : Type} (visitor : Visitor σ), visitor.TakesAll ast → ∀ state,
    ∃ final, visit visitor ast handle state = .ok final

namespace Sound

/-- The children of a node are found. -/
theorem children (sound : ast.Sound) (there : ast.ordinals[handle]? = some place) :
    ∃ handles, ast.children handle = .ok handles := by
  obtain ⟨node, got, refers⟩ := sound.nodes handle place there
  rw [Ast.children, got]
  cases node with
  | call callee range =>
    obtain ⟨handles, listed, _⟩ := refers.arguments callee range rfl
    simp only [listed, bind, Except.bind, pure, Except.pure]
    exact ⟨_, rfl⟩
  | _ => exact ⟨_, rfl⟩

/-- A tree is read within a depth beyond the place of its node. -/
theorem read (sound : ast.Sound) {depth : Nat} (deep : place < depth)
    (there : ast.ordinals[handle]? = some place) :
    ∃ tree, ast.readWithin depth handle = .ok tree := by
  induction depth generalizing handle place with
  | zero => cases deep
  | succ depth ih =>
    obtain ⟨node, got, refers⟩ := sound.nodes handle place there
    have below : ∀ child, ast.Before place child →
        ∃ tree, ast.readWithin depth child = .ok tree := by
      rintro child ⟨earlier, ordinal, less⟩
      exact ih (by omega) ordinal
    have direct (child : Handle) (member : child ∈ node.directChildren) :=
      below child (refers.children child member)
    cases node with
    | bool value =>
      simp only [readWithin, got, bind, Except.bind, pure, Except.pure]
      exact ⟨_, rfl⟩
    | int value =>
      simp only [readWithin, got, bind, Except.bind, pure, Except.pure]
      exact ⟨_, rfl⟩
    | str text =>
      obtain ⟨content, resolved⟩ := refers.symbols text (.head _)
      simp only [readWithin, got, resolved, bind, Except.bind, pure, Except.pure]
      exact ⟨_, rfl⟩
    | identifier name =>
      obtain ⟨content, resolved⟩ := refers.symbols name (.head _)
      simp only [readWithin, got, resolved, bind, Except.bind, pure, Except.pure]
      exact ⟨_, rfl⟩
    | binary op lhs rhs =>
      obtain ⟨left, foundLeft⟩ := direct lhs (.head _)
      obtain ⟨right, foundRight⟩ := direct rhs (.tail _ (.head _))
      simp only [readWithin, got, foundLeft, foundRight, bind, Except.bind, pure, Except.pure]
      exact ⟨_, rfl⟩
    | unary op operand =>
      obtain ⟨inner, found⟩ := direct operand (.head _)
      simp only [readWithin, got, found, bind, Except.bind, pure, Except.pure]
      exact ⟨_, rfl⟩
    | index target position =>
      obtain ⟨outer, foundOuter⟩ := direct target (.head _)
      obtain ⟨inner, foundInner⟩ := direct position (.tail _ (.head _))
      simp only [readWithin, got, foundOuter, foundInner, bind, Except.bind, pure, Except.pure]
      exact ⟨_, rfl⟩
    | call callee range =>
      obtain ⟨called, found⟩ := direct callee (.head _)
      obtain ⟨handles, listed, earlier⟩ := refers.arguments callee range rfl
      obtain ⟨trees, read⟩ := mapM_ok fun child member => below child (earlier child member)
      simp only [readWithin, got, found, listed, read, bind, Except.bind, pure, Except.pure]
      exact ⟨_, rfl⟩
    | primitive access target =>
      obtain ⟨inner, found⟩ := direct target (.head _)
      simp only [readWithin, got, found, bind, Except.bind, pure, Except.pure]
      exact ⟨_, rfl⟩
    | field target name =>
      obtain ⟨inner, found⟩ := direct target (.head _)
      obtain ⟨content, resolved⟩ := refers.symbols name (.head _)
      simp only [readWithin, got, found, resolved, bind, Except.bind, pure, Except.pure]
      exact ⟨_, rfl⟩

/-- Where a tree is read within a depth it is walked within the same depth. -/
theorem visit (sound : ast.Sound) {σ : Type} {visitor : Visitor σ} (takes : visitor.TakesAll ast)
    {depth : Nat} (there : ast.ordinals[handle]? = some place) {tree : Expr Handle}
    (read : ast.readWithin depth handle = .ok tree) (state : σ) :
    ∃ final, visitWithin visitor ast depth handle state = .ok final := by
  induction depth generalizing handle place tree state with
  | zero => cases read
  | succ depth ih =>
    obtain ⟨node, got, refers⟩ := sound.nodes handle place there
    have below : ∀ child, ast.Before place child → ∀ tree, ast.readWithin depth child = .ok tree →
        ∀ state, ∃ final, visitWithin visitor ast depth child state = .ok final := by
      rintro child ⟨_, ordinal, _⟩ tree read state
      exact ih ordinal read state
    have direct (child : Handle) (member : child ∈ node.directChildren) :=
      below child (refers.children child member)
    obtain ⟨entered, taken⟩ := takes handle place node state there got
    obtain ⟨_, again, read⟩ := bind_ok read
    obtain rfl := Except.ok.inj (got.symm.trans again)
    rw [visitWithin]
    simp only [got, taken, bind, Except.bind]
    cases node with
    | bool | int | str | identifier => exact ⟨entered, rfl⟩
    | binary op lhs rhs =>
      obtain ⟨left, readLeft, read⟩ := bind_ok read
      obtain ⟨right, readRight, _⟩ := bind_ok read
      obtain ⟨next, first⟩ := direct lhs (.head _) left readLeft entered
      simp only [first]
      exact direct rhs (.tail _ (.head _)) right readRight next
    | unary op operand =>
      obtain ⟨inner, readInner, _⟩ := bind_ok read
      exact direct operand (.head _) inner readInner entered
    | index target position =>
      obtain ⟨outer, readOuter, read⟩ := bind_ok read
      obtain ⟨inner, readInner, _⟩ := bind_ok read
      obtain ⟨next, first⟩ := direct target (.head _) outer readOuter entered
      simp only [first]
      exact direct position (.tail _ (.head _)) inner readInner next
    | call callee range =>
      obtain ⟨called, readCalled, read⟩ := bind_ok read
      obtain ⟨handles, listed, read⟩ := bind_ok read
      obtain ⟨trees, readAll, _⟩ := bind_ok read
      obtain ⟨next, first⟩ := direct callee (.head _) called readCalled entered
      obtain ⟨_, same, earlier⟩ := refers.arguments callee range rfl
      obtain rfl := Except.ok.inj (listed.symm.trans same)
      simp only [first, listed]
      refine foldlM_ok (fun child member => ?_) next
      obtain ⟨tree, readChild⟩ := mapM_each readAll child member
      exact below child (earlier child member) tree readChild
    | primitive access target =>
      obtain ⟨inner, readInner, _⟩ := bind_ok read
      exact direct target (.head _) inner readInner entered
    | field target name =>
      obtain ⟨inner, readInner, _⟩ := bind_ok read
      exact direct target (.head _) inner readInner entered

/-- The limit of reading and walking is beyond every place. -/
theorem place_lt_depthLimit (sound : ast.Sound) (there : ast.ordinals[handle]? = some place) :
    place < ast.depthLimit := by
  obtain ⟨nodes, records⟩ := sound.tables
  have inside := records.place_lt there
  have many : ast.nodeCount ≤ NodeKind.all.length * ast.nodeCount :=
    Nat.le_mul_of_pos_left _ (by decide)
  rw [depthLimit]
  omega

/-- Every handle that was given out is usable. -/
theorem usable (sound : ast.Sound) (there : ast.ordinals[handle]? = some place) :
    ast.Usable handle where
  get := by
    obtain ⟨node, got, _⟩ := sound.nodes handle place there
    exact ⟨node, got⟩
  children := sound.children there
  render := by
    obtain ⟨tree, found⟩ := sound.read (sound.place_lt_depthLimit there) there
    have read : ast.read handle = .ok tree := found
    refine ⟨tree.render, ?_⟩
    simp only [Ast.render, read, bind, Except.bind, pure, Except.pure]
  visit visitor takes state := by
    obtain ⟨tree, found⟩ := sound.read (sound.place_lt_depthLimit there) there
    exact sound.visit takes there found state

/-- The visitor that collects leaves takes in every node. -/
theorem leafVisitor_takesAll (sound : ast.Sound) : leafVisitor.TakesAll ast := by
  intro handle place node leaves there got
  obtain ⟨found, same, refers⟩ := sound.nodes handle place there
  obtain rfl : found = node := Except.ok.inj (same.symm.trans got)
  cases found with
  | str text =>
    obtain ⟨content, resolved⟩ := refers.symbols text (.head _)
    simp only [leafVisitor, resolved, bind, Except.bind, pure, Except.pure]
    exact ⟨_, rfl⟩
  | identifier name =>
    obtain ⟨content, resolved⟩ := refers.symbols name (.head _)
    simp only [leafVisitor, resolved, bind, Except.bind, pure, Except.pure]
    exact ⟨_, rfl⟩
  | _ => exact ⟨_, rfl⟩

/-- The text of the roots is written. -/
theorem renderRoots (sound : ast.Sound) : ∃ text, ast.renderRoots = .ok text := by
  have each : ∀ root ∈ ast.roots.toList, ∃ text, ast.render root = .ok text := by
    intro root member
    obtain ⟨place, there⟩ := sound.roots root member
    exact (sound.usable there).render
  obtain ⟨texts, written⟩ := mapM_ok each
  rw [Ast.renderRoots, written]
  exact ⟨_, rfl⟩

/-- The leaves below the roots are collected. -/
theorem leaves (sound : ast.Sound) : ∃ leaves, ast.leaves ast.roots.toList = .ok leaves := by
  have each : ∀ root ∈ ast.roots.toList, ∀ state,
      ∃ final, Ast.visit leafVisitor ast root state = .ok final := by
    intro root member state
    obtain ⟨place, there⟩ := sound.roots root member
    exact (sound.usable there).visit leafVisitor sound.leafVisitor_takesAll state
  obtain ⟨leaves, collected⟩ := foldlM_ok each #[]
  rw [Ast.leaves, visitAll, collected]
  exact ⟨_, rfl⟩

end Sound

end Ast

end Cascade
