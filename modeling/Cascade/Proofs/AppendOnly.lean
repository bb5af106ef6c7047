import Cascade.Proofs.AstStore

/-!
# Stores are append-only

Whatever is done to a store, it adds at the ends of its tables and changes nothing before them. So
the nodes, spans, lists, texts and roots of an earlier store are those with which a later one
begins, and a handle that gave a node gives it for ever. Nothing here depends on how much is stored:
a number that no longer fits its word leaves what was stored before it alone.
-/
namespace Cascade

/-- A buffer that grows does not become shorter. -/
theorem ClassBuffer.size_le_grow (buffer : ClassBuffer) (payload : List UInt8) (values : Nat) :
    buffer.bytes.size ≤ (buffer.grow payload values).bytes.size := by
  rw [grow_bytes, Array.size_append]
  exact Nat.le_add_right ..

/-- A buffer that grows keeps its bytes where they were. -/
theorem ClassBuffer.extract_grow {buffer : ClassBuffer} {start stop : Nat}
    (inside : stop ≤ buffer.bytes.size) (payload : List UInt8) (values : Nat) :
    (buffer.grow payload values).bytes.extract start stop = buffer.bytes.extract start stop := by
  have outside : stop - buffer.bytes.size = 0 := Nat.sub_eq_zero_of_le inside
  rw [grow_bytes, Array.extract_append, outside]
  simp

/-- What a list gives it gives after a further append. -/
theorem DenseList.get_append {α : Type} {union : TaggedUnion α} {list : DenseList union}
    {handle : Handle} {found : α} (there : list.get handle = .ok found) (value : α) :
    (list.append value).2.get handle = .ok found := by
  cases declared : union.sizes[(union.tag value).toNat]? with
  | none => rwa [append_undeclared list declared]
  | some size =>
    obtain ⟨cls, _, appended⟩ := append_declared list declared
    rw [appended]
    generalize (union.fits value).toNat = counted
    unfold DenseList.get at there ⊢
    cases class? : list.layout.classOf? handle.tag with
    | none => simp only [class?, reduceCtorEq] at there
    | some other =>
      simp only [class?] at there ⊢
      by_cases same : cls = other
      · subst same
        have grown : (list.buffers.set cls
            ((list.buffers.get cls).grow (union.payload value) counted)).get cls =
            (list.buffers.get cls).grow (union.payload value) counted := Vector.getElem_set_self _
        rw [grown]
        split at there
        · next below =>
          split at there
          · next inside =>
            have more : handle.slot.toNat <
                ((list.buffers.get cls).grow (union.payload value) counted).count :=
              Nat.lt_add_right counted below
            have longer := Nat.le_trans inside
              (ClassBuffer.size_le_grow (list.buffers.get cls) (union.payload value) counted)
            simp only [if_pos more, if_pos longer, ClassBuffer.extract_grow inside]
            exact there
          · cases there
        · cases there
      · have kept : (list.buffers.set cls
            ((list.buffers.get cls).grow (union.payload value) counted)).get other =
            list.buffers.get other :=
          Vector.getElem_set_ne cls.isLt other.isLt fun equal => same (Fin.ext equal)
        rw [kept]
        exact there

/-- What an arena gives it gives after a further push. -/
theorem Arena.get_push {arena : Arena} {handle : Handle} {found : Node}
    (there : arena.get handle = .ok found) (node : Node) :
    (arena.push node).2.get handle = .ok found := by
  have kept := DenseList.get_append there node
  unfold Arena.push
  split
  · next result =>
    rw [result] at kept
    exact kept
  · next fault _ result =>
    obtain ⟨given, ok⟩ := append_ok arena node
    rw [result] at ok
    cases ok

/-- Interning a text adds at most this text, behind the others. -/
theorem Interner.intern_prefix (interner : Interner) (text : String) :
    interner.texts.toList <+: (interner.intern text).2.texts.toList := by
  unfold intern
  split
  · exact List.prefix_refl _
  · rw [Array.toList_push]
    exact List.prefix_append ..

namespace Ast

/-- The later store begins with what is in the earlier one: the nodes in the order of their pushes,
the spans, the lists, the texts and the roots. A handle gives in it what it gave. -/
structure ExtendedBy (before after : Ast) : Prop where
  /-- Whatever nodes were pushed, no others come before the nodes pushed since. -/
  nodes : ∃ more, ∀ nodes, before.arena.Holds nodes → after.arena.Holds (nodes ++ more)
  /-- A handle that gave a node gives it still. -/
  found : ∀ {handle : Handle} {node : Node}, before.get handle = .ok node →
    after.get handle = .ok node
  /-- The spans begin with the earlier ones. -/
  spans : before.spans.toList <+: after.spans.toList
  /-- The lists begin with the earlier ones. -/
  lists : before.lists.toList <+: after.lists.toList
  /-- The texts begin with the earlier ones. -/
  texts : before.symbols.texts.toList <+: after.symbols.texts.toList
  /-- The roots begin with the earlier ones. -/
  roots : before.roots.toList <+: after.roots.toList

namespace ExtendedBy

/-- Every store begins with itself. -/
theorem refl (ast : Ast) : ast.ExtendedBy ast where
  nodes := ⟨[], fun nodes holds => by rwa [List.append_nil]⟩
  found := id
  spans := List.prefix_refl _
  lists := List.prefix_refl _
  texts := List.prefix_refl _
  roots := List.prefix_refl _

/-- What a store begins with it begins with when it is extended. -/
theorem trans {first second third : Ast} (early : first.ExtendedBy second)
    (late : second.ExtendedBy third) : first.ExtendedBy third where
  nodes := by
    obtain ⟨more, early⟩ := early.nodes
    obtain ⟨further, late⟩ := late.nodes
    refine ⟨more ++ further, fun nodes holds => ?_⟩
    rw [← List.append_assoc]
    exact late _ (early _ holds)
  found there := late.found (early.found there)
  spans := early.spans.trans late.spans
  lists := early.lists.trans late.lists
  texts := early.texts.trans late.texts
  roots := early.roots.trans late.roots

end ExtendedBy

/-- A push adds a node and its span. -/
theorem push_extends (ast : Ast) (node : Node) (span : Span) :
    ast.ExtendedBy (ast.push node span).2 where
  nodes := ⟨[node], fun _ holds => (Arena.push_holds holds node).2⟩
  found there := Arena.get_push there node
  spans := by
    simp only [push, Array.toList_push]
    exact List.prefix_append ..
  lists := List.prefix_refl _
  texts := List.prefix_refl _
  roots := List.prefix_refl _

/-- Interning adds at most a text. -/
theorem intern_extends (ast : Ast) (text : String) : ast.ExtendedBy (ast.intern text).2 :=
  { ExtendedBy.refl ast with texts := ast.symbols.intern_prefix text }

/-- A list is added behind the others. -/
theorem pushList_extends (ast : Ast) (handles : List Handle) :
    ast.ExtendedBy (ast.pushList handles).2 := by
  rw [pushList_lists]
  refine { ExtendedBy.refl ast with lists := ?_ }
  simp only [Array.toList_append]
  exact List.prefix_append ..

/-- A root is added behind the others. -/
theorem pushRoot_extends (ast : Ast) (handle : Handle) : ast.ExtendedBy (ast.pushRoot handle) := by
  refine { ExtendedBy.refl ast with roots := ?_ }
  simp only [pushRoot, Array.toList_push]
  exact List.prefix_append ..

mutual

/-- Inserting a tree extends the store. -/
theorem insert_extends (ast : Ast) (expr : Expr Span) : ast.ExtendedBy (ast.insert expr).2 := by
  match expr with
  | .bool span value => exact push_extends ast (.bool value) span
  | .int span value => exact push_extends ast (.int value) span
  | .str span text => exact (intern_extends ast text).trans (push_extends _ _ span)
  | .identifier span name => exact (intern_extends ast name).trans (push_extends _ _ span)
  | .binary span op lhs rhs =>
    have operands := (insert_extends ast lhs).trans (insert_extends _ rhs)
    exact operands.trans (push_extends _ _ span)
  | .unary span op operand => exact (insert_extends ast operand).trans (push_extends _ _ span)
  | .index span target position =>
    have parts := (insert_extends ast target).trans (insert_extends _ position)
    exact parts.trans (push_extends _ _ span)
  | .call span callee arguments =>
    have parts := (insert_extends ast callee).trans (insertAll_extends _ arguments)
    exact (parts.trans (pushList_extends _ _)).trans (push_extends _ _ span)
  | .primitive span access target =>
    exact (insert_extends ast target).trans (push_extends _ _ span)
  | .field span target name =>
    have parts := (insert_extends ast target).trans (intern_extends _ name)
    exact parts.trans (push_extends _ _ span)

/-- Inserting trees extends the store. -/
theorem insertAll_extends (ast : Ast) (exprs : List (Expr Span)) :
    ast.ExtendedBy (ast.insertAll exprs).2 := by
  match exprs with
  | [] => exact .refl ast
  | expr :: exprs => exact (insert_extends ast expr).trans (insertAll_extends _ exprs)

end

/-- Inserting roots extends the store. -/
theorem insertRoots_extends (ast : Ast) (exprs : List (Expr Span)) :
    ast.ExtendedBy (ast.insertRoots exprs) := by
  induction exprs generalizing ast with
  | nil => exact .refl ast
  | cons expr exprs ih =>
    have rooted := (insert_extends ast expr).trans (pushRoot_extends _ (ast.insert expr).1)
    exact rooted.trans (ih _)

/-- A store made from the empty one holds the nodes that were pushed. -/
theorem ExtendedBy.holds {ast : Ast} (extended : empty.ExtendedBy ast) :
    ∃ nodes, ast.arena.Holds nodes := by
  obtain ⟨nodes, holds⟩ := extended.nodes
  exact ⟨_, holds [] Records.empty.arena⟩

end Ast

end Cascade
