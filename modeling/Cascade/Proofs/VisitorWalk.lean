import Cascade.Proofs.SoundStore
import Cascade.Proofs.StoreCalls

/-!
# Visitors follow the generic walk

A visitor finds the children of a node by its variant, the arguments of a call in the lists; the
generic walk asks the node for its direct children and adds the arguments. Where every child was
pushed before its parent (`Ast.ChildrenFirst`) both come to an end whatever the handle, and both
meet the same handles in the same order: every visitor takes in exactly the preorder of the generic
walk. One that does nothing at nodes with children takes in exactly the leaves among them.
-/
namespace Cascade

namespace Ast

/-- Items that are mapped by an action are mapped to the same by one that gives whatever it
gives. -/
theorem mapM_mono {ε σ τ : Type} {act more : σ → Except ε τ} {items : List σ} {values : List τ}
    (each : ∀ item ∈ items, ∀ value, act item = .ok value → more item = .ok value)
    (done : items.mapM act = .ok values) : items.mapM more = .ok values := by
  induction items generalizing values with
  | nil => exact done
  | cons item items ih =>
    obtain ⟨first, each⟩ := List.forall_mem_cons.mp each
    rw [List.mapM_cons] at done ⊢
    obtain ⟨value, found, done⟩ := bind_ok done
    obtain ⟨others, further, done⟩ := bind_ok done
    rw [first value found, ih each further]
    exact done

/-- Folding over items folds over all that they are mapped to, if it does so for each. -/
theorem foldlM_of_mapM {ε ρ σ τ : Type} {act : σ → Except ε (List τ)} {step : ρ → σ → Except ε ρ}
    {small : ρ → τ → Except ε ρ} {items : List σ} {values : List (List τ)}
    (each : ∀ item ∈ items, ∀ value, act item = .ok value → ∀ state,
      step state item = value.foldlM small state)
    (done : items.mapM act = .ok values) (state : ρ) :
    items.foldlM step state = values.flatten.foldlM small state := by
  induction items generalizing values state with
  | nil =>
    cases done
    rfl
  | cons item items ih =>
    obtain ⟨first, each⟩ := List.forall_mem_cons.mp each
    rw [List.mapM_cons] at done
    obtain ⟨value, found, done⟩ := bind_ok done
    obtain ⟨others, further, done⟩ := bind_ok done
    cases done
    rw [List.foldlM_cons, List.flatten_cons, List.foldlM_append, first value found]
    exact bind_congr fun next => ih each further next

/-- Two folds agree if they do so at each item. -/
theorem foldlM_congr {ε ρ σ : Type} {one other : ρ → σ → Except ε ρ} {items : List σ}
    (each : ∀ item ∈ items, ∀ state, one state item = other state item) (state : ρ) :
    items.foldlM one state = items.foldlM other state := by
  induction items generalizing state with
  | nil => rfl
  | cons item items ih =>
    obtain ⟨first, each⟩ := List.forall_mem_cons.mp each
    rw [List.foldlM_cons, List.foldlM_cons, first]
    exact bind_congr fun next => ih each next

/-- The children of a node in source order, the arguments of a call included. -/
def childrenOf (ast : Ast) : Node → Except Fault (List Handle)
  | .call callee arguments => do return callee :: (← ast.list arguments)
  | other => return other.directChildren

variable {ast : Ast} {handle : Handle} {node : Node} {place : Nat}

/-- The children at a handle are those of its node. -/
theorem children_of_get (got : ast.get handle = .ok node) :
    ast.children handle = ast.childrenOf node := by
  rw [children, got]
  cases node <;> rfl

/-- A node that refers only to what is there has children, which were given out before it. -/
theorem Refers.childrenOf (refers : ast.Refers place node) :
    ∃ handles, ast.childrenOf node = .ok handles ∧ ∀ child ∈ handles, ast.Before place child := by
  cases node with
  | call callee range =>
    obtain ⟨handles, listed, earlier⟩ := refers.arguments callee range rfl
    refine ⟨callee :: handles, ?_, ?_⟩
    · rw [Ast.childrenOf, listed]
      rfl
    · exact List.forall_mem_cons.mpr ⟨refers.children callee (.head _), earlier⟩
  | _ => exact ⟨_, rfl, refers.children⟩

/-- The children of every node, the arguments of a call included, were pushed before it. -/
structure ChildrenFirst (ast : Ast) : Prop where
  /-- The places of handles are those of nodes, as pushes number them. -/
  numbered : ∀ (handle : Handle) (place : Nat), ast.ordinals[handle]? = some place →
    place < ast.nodeCount
  /-- The children at a handle that was given out were given out before it. -/
  earlier : ∀ (handle : Handle) (place : Nat), ast.ordinals[handle]? = some place →
    ∃ handles, ast.children handle = .ok handles ∧ ∀ child ∈ handles, ast.Before place child

/-- In a sound store children come first. -/
theorem Sound.childrenFirst (sound : ast.Sound) : ast.ChildrenFirst where
  numbered handle place there := by
    obtain ⟨nodes, records⟩ := sound.tables
    exact records.place_lt there
  earlier handle place there := by
    obtain ⟨node, got, refers⟩ := sound.nodes handle place there
    rw [children_of_get got]
    exact refers.childrenOf

/-- Each push came after the pushes that gave out the handles in its node and in the list of its
arguments. The pushes and the lists are each numbered from zero. -/
structure Ordered (calls : List Call) (replies : List Reply) : Prop where
  /-- The children that a node names were given out before. -/
  direct : ∀ (place : Nat) (inside : place < (calls.filterMap Call.push?).length),
    ∀ child ∈ (calls.filterMap Call.push?)[place].1.directChildren,
      child ∈ (replies.filterMap Reply.handle?).take place
  /-- The range of a call was given out, for arguments that were given out before. -/
  arguments : ∀ (place : Nat) (callee : Handle) (range : HandleRange) (span : Span),
    (calls.filterMap Call.push?)[place]? = some (.call callee range, span) →
    ∃ number handles, (calls.filterMap Call.list?)[number]? = some handles ∧
      (replies.filterMap Reply.range?)[number]? = some range ∧
      ((calls.filterMap Call.list?).take (number + 1)).flatten.length < 2 ^ 32 ∧
      ∀ child ∈ handles, child ∈ (replies.filterMap Reply.handle?).take place

/-- In a store that was built in order children come first. -/
theorem Told.childrenFirst {calls : List Call} {replies : List Reply}
    (told : ast.Told calls replies) (few : (calls.filterMap Call.push?).length < 2 ^ 32)
    (ordered : Ordered calls replies) : ast.ChildrenFirst where
  numbered _ _ there := told.pushed.nodes.place_lt there
  earlier handle place there := by
    have before (child : Handle)
        (member : child ∈ (replies.filterMap Reply.handle?).take place) :
        ast.Before place child := by
      obtain ⟨earlier, given⟩ := List.getElem?_of_mem member
      have less : earlier < place := by
        obtain ⟨inside, _⟩ := List.getElem?_eq_some_iff.mp given
        rw [List.length_take] at inside
        omega
      rw [List.getElem?_take_of_lt less] at given
      exact ⟨earlier, (told.pushed.ordinal child earlier).mpr given, less⟩
    have inside := told.pushed.nodes.place_lt there
    rw [told.pushed.nodes.nodeCount, List.length_map] at inside
    have pushed := List.getElem?_eq_getElem inside
    have direct := ordered.direct place inside
    generalize (calls.filterMap Call.push?)[place] = push at pushed direct
    obtain ⟨node, span⟩ := push
    have given := (told.pushed.ordinal handle place).mp there
    rw [children_of_get (told.pushed.get few pushed given)]
    cases node with
    | call callee range =>
      obtain ⟨number, handles, copied, answered, small, earlier⟩ :=
        ordered.arguments place callee range span pushed
      have listed := list_of_listed told.listed copied answered fun _ => small
      refine ⟨callee :: handles, by rw [Ast.childrenOf, listed]; rfl, ?_⟩
      intro child member
      apply before
      rcases List.mem_cons.mp member with rfl | argument
      · exact direct child (.head _)
      · exact earlier child argument
    | _ => exact ⟨_, rfl, fun child member => before child (direct child member)⟩

/-- A walk that ends within a depth is the same within the next. -/
theorem preorderWithin_succ {depth : Nat} {walk : List Handle}
    (walked : ast.preorderWithin depth handle = .ok walk) :
    ast.preorderWithin (depth + 1) handle = .ok walk := by
  induction depth generalizing handle walk with
  | zero => cases walked
  | succ depth ih =>
    rw [preorderWithin] at walked ⊢
    obtain ⟨children, found, walked⟩ := bind_ok walked
    obtain ⟨below, further, walked⟩ := bind_ok walked
    rw [found]
    simp only [bind, Except.bind]
    rw [mapM_mono (fun child _ _ walked => ih walked) further]
    exact walked

/-- Every handle of a walk gives its children. -/
theorem children_of_preorderWithin {depth : Nat} {walk : List Handle}
    (walked : ast.preorderWithin depth handle = .ok walk) :
    ∀ met ∈ walk, ∃ children, ast.children met = .ok children := by
  induction depth generalizing handle walk with
  | zero => cases walked
  | succ depth ih =>
    rw [preorderWithin] at walked
    obtain ⟨children, found, walked⟩ := bind_ok walked
    obtain ⟨below, further, walked⟩ := bind_ok walked
    cases walked
    refine List.forall_mem_cons.mpr ⟨⟨children, found⟩, ?_⟩
    intro met member
    obtain ⟨walk, among, inside⟩ := List.mem_flatten.mp member
    exact mapM_all (fun child _ walk walked => ih walked) further walk among met inside

namespace ChildrenFirst

variable (first : ast.ChildrenFirst)
include first

/-- The generic walk ends within a depth beyond the place of its handle. -/
theorem preorderWithin {depth : Nat} (there : ast.ordinals[handle]? = some place)
    (deep : place < depth) : ∃ walk, ast.preorderWithin depth handle = .ok walk := by
  induction depth generalizing handle place with
  | zero => cases deep
  | succ depth ih =>
    obtain ⟨children, found, earlier⟩ := first.earlier handle place there
    have each : ∀ child ∈ children, ∃ walk, ast.preorderWithin depth child = .ok walk := by
      intro child member
      obtain ⟨before, ordinal, less⟩ := earlier child member
      apply ih ordinal
      omega
    obtain ⟨below, walked⟩ := mapM_ok each
    refine ⟨handle :: below.flatten, ?_⟩
    rw [Ast.preorderWithin, found]
    simp only [bind, Except.bind, walked]
    rfl

/-- The generic walk is the recursion over children: the handle itself, then the walks of its
children one behind the other. -/
theorem preorder (there : ast.ordinals[handle]? = some place) :
    ∃ children below, ast.children handle = .ok children ∧
      children.mapM ast.preorder = .ok below ∧
      ast.preorder handle = .ok (handle :: below.flatten) := by
  obtain ⟨children, found, earlier⟩ := first.earlier handle place there
  have inside := first.numbered handle place there
  have many : ast.nodeCount ≤ NodeKind.all.length * ast.nodeCount := by
    apply Nat.le_mul_of_pos_left
    decide
  -- A child comes before the handle, so one step less is still enough for it.
  have each : ∀ child ∈ children,
      ∃ walk, ast.preorderWithin (NodeKind.all.length * ast.nodeCount) child = .ok walk := by
    intro child member
    obtain ⟨before, ordinal, less⟩ := earlier child member
    apply first.preorderWithin ordinal
    omega
  obtain ⟨below, walked⟩ := mapM_ok each
  refine ⟨children, below, found, ?_, ?_⟩
  · exact mapM_mono (fun child _ _ walked => preorderWithin_succ walked) walked
  · rw [Ast.preorder, depthLimit, Ast.preorderWithin, found]
    simp only [bind, Except.bind, walked]
    rfl

end ChildrenFirst

variable {σ : Type} {visitor : Visitor σ}

/-- Takes in the node at a handle of a walk. -/
def Visitor.enterAt (visitor : Visitor σ) (ast : Ast) (state : σ) (handle : Handle) :
    Except Fault σ := do
  visitor.enter ast handle (← ast.get handle) state

/-- A visitor takes in the node, then walks its children in order, whatever its variant. -/
theorem visitWithin_succ (got : ast.get handle = .ok node) {children : List Handle}
    (found : ast.childrenOf node = .ok children) (depth : Nat) (state : σ) :
    visitWithin visitor ast (depth + 1) handle state =
      visitor.enter ast handle node state >>= fun entered =>
        children.foldlM (fun state child => visitWithin visitor ast depth child state) entered := by
  rw [visitWithin, got]
  show visitor.enter ast handle node state >>= _ = _
  refine bind_congr fun entered => ?_
  cases node with
  | call callee arguments =>
    obtain ⟨handles, listed, same⟩ := bind_ok found
    cases same
    simp only [listed]
    rfl
  | bool | int | str | identifier =>
    cases found
    rfl
  | _ =>
    cases found
    simp only [Node.directChildren, List.foldlM_cons, List.foldlM_nil, bind_pure]

/-- Wherever the generic walk ends, a visitor takes in what it gives, in order. -/
theorem visitWithin_eq_foldlM {depth : Nat} {walk : List Handle}
    (walked : ast.preorderWithin depth handle = .ok walk) (state : σ) :
    visitWithin visitor ast depth handle state = walk.foldlM (visitor.enterAt ast) state := by
  induction depth generalizing handle walk state with
  | zero => cases walked
  | succ depth ih =>
    rw [preorderWithin] at walked
    obtain ⟨children, found, walked⟩ := bind_ok walked
    obtain ⟨below, further, walked⟩ := bind_ok walked
    cases walked
    obtain ⟨node, got, _⟩ := bind_ok found
    rw [children_of_get got] at found
    have enter : visitor.enterAt ast state handle = visitor.enter ast handle node state := by
      rw [Visitor.enterAt, got]
      rfl
    rw [visitWithin_succ got found, List.foldlM_cons, enter]
    refine bind_congr fun entered => ?_
    exact foldlM_of_mapM (fun child _ walk walked state => ih walked state) further entered

/-- Nothing is done at nodes with children. -/
def Visitor.LeavesOnly (visitor : Visitor σ) : Prop :=
  ∀ (ast : Ast) (handle : Handle) (node : Node) (state : σ), node.directChildren ≠ [] →
    visitor.enter ast handle node state = .ok state

/-- The collector of leaves does nothing at nodes with children. -/
theorem leafVisitor_leavesOnly : leafVisitor.LeavesOnly := by
  intro ast handle node leaves parent
  cases node with
  | bool | int | str | identifier => exact absurd rfl parent
  | _ => rfl

/-- Whether there is a node without children at the handle. -/
def isLeaf (ast : Ast) (handle : Handle) : Bool :=
  match ast.children handle with
  | .ok children => children.isEmpty
  | .error _ => false

/-- Only leaves matter to a visitor that does nothing at nodes with children. -/
theorem enterAt_of_not_leaf (only : visitor.LeavesOnly) {children : List Handle}
    (found : ast.children handle = .ok children) (parent : ast.isLeaf handle = false) (state : σ) :
    visitor.enterAt ast state handle = .ok state := by
  obtain ⟨node, got, _⟩ := bind_ok found
  rw [isLeaf, found] at parent
  rw [children_of_get got] at found
  rw [Visitor.enterAt, got]
  apply only
  intro none
  cases node with
  | bool | int | str | identifier =>
    cases found
    cases parent
  | _ => cases none

/-- Keeps the handles at which it was, in order. -/
def tracer : Visitor (List Handle) where
  enter _ handle _ trace := .ok (trace ++ [handle])

/-- A tracer keeps the handles that it takes in. -/
theorem foldlM_tracer {handles : List Handle}
    (found : ∀ handle ∈ handles, ∃ children, ast.children handle = .ok children)
    (trace : List Handle) :
    handles.foldlM (tracer.enterAt ast) trace = .ok (trace ++ handles) := by
  induction handles generalizing trace with
  | nil => rw [List.append_nil]; rfl
  | cons handle handles ih =>
    obtain ⟨⟨children, own⟩, others⟩ := List.forall_mem_cons.mp found
    obtain ⟨node, got, _⟩ := bind_ok own
    have enter : tracer.enterAt ast trace handle = .ok (trace ++ [handle]) := by
      rw [Visitor.enterAt, got]
      rfl
    have rest := ih others (trace ++ [handle])
    rw [List.append_assoc] at rest
    rw [List.foldlM_cons, enter]
    exact rest

/-- The way of walking takes every visitor through the handles in their order. -/
structure GoesThrough (ast : Ast) (walk : (σ : Type) → Visitor σ → σ → Except Fault σ)
    (handles : List Handle) : Prop where
  /-- These handles are visited, and no others. -/
  visits : walk (List Handle) tracer [] = .ok handles
  /-- Whatever a visitor does, it does it at each of them. -/
  each : ∀ (σ : Type) (visitor : Visitor σ) (state : σ),
    walk σ visitor state = handles.foldlM (visitor.enterAt ast) state
  /-- What is done at leaves only is done at the leaves among them. -/
  leaves : ∀ (σ : Type) (visitor : Visitor σ) (state : σ), visitor.LeavesOnly →
    walk σ visitor state = (handles.filter ast.isLeaf).foldlM (visitor.enterAt ast) state

/-- A walk that takes in handles one after the other goes through them. -/
theorem GoesThrough.of_each {walk : (σ : Type) → Visitor σ → σ → Except Fault σ}
    {handles : List Handle}
    (found : ∀ handle ∈ handles, ∃ children, ast.children handle = .ok children)
    (each : ∀ (σ : Type) (visitor : Visitor σ) (state : σ),
      walk σ visitor state = handles.foldlM (visitor.enterAt ast) state) :
    ast.GoesThrough walk handles where
  visits := by rw [each, foldlM_tracer found, List.nil_append]
  each := each
  leaves σ visitor state only := by
    rw [each, List.foldlM_filter]
    apply foldlM_congr
    intro handle member state
    obtain ⟨children, own⟩ := found handle member
    cases leaf : ast.isLeaf handle with
    | true => exact (if_pos rfl).symm
    | false => exact enterAt_of_not_leaf only own leaf state

/-- A visit goes through the generic walk. -/
theorem visit_goesThrough {walk : List Handle} (walked : ast.preorder handle = .ok walk) :
    ast.GoesThrough (fun _ visitor => visit visitor ast handle) walk :=
  .of_each (children_of_preorderWithin walked) fun _ _ => visitWithin_eq_foldlM walked

/-- Visits one after the other go through the generic walks one behind the other. -/
theorem visitAll_goesThrough {handles : List Handle} {walks : List (List Handle)}
    (walked : handles.mapM ast.preorder = .ok walks) :
    ast.GoesThrough (fun _ visitor => visitAll visitor ast handles) walks.flatten := by
  apply GoesThrough.of_each
  · intro met member
    obtain ⟨walk, among, inside⟩ := List.mem_flatten.mp member
    exact mapM_all (fun _ _ walk walked => children_of_preorderWithin walked) walked walk among met
      inside
  · intro σ visitor state
    exact foldlM_of_mapM (fun _ _ _ walked => visitWithin_eq_foldlM walked) walked state

end Ast

/-- Where the children and arguments of every node were pushed before it, visitors agree with the
generic walk: at every handle the preorder that recursion over children gives is the sequence of
visits, so a visitor that acts at leaves acts at exactly the leaves of this preorder, and the visits
of the roots go through the preorders of the roots in order. -/
theorem visitors_follow_child_walk (ast : Ast) (first : ast.ChildrenFirst) :
    (∀ (handle : Handle) (place : Nat), ast.ordinals[handle]? = some place →
      ∃ children below, ast.children handle = .ok children ∧
        children.mapM ast.preorder = .ok below ∧
        ast.preorder handle = .ok (handle :: below.flatten) ∧
        ast.GoesThrough (fun _ visitor => Ast.visit visitor ast handle)
          (handle :: below.flatten)) ∧
      ((∀ root ∈ ast.roots.toList, ∃ place, ast.ordinals[root]? = some place) →
        ∃ walks, ast.roots.toList.mapM ast.preorder = .ok walks ∧
          ast.GoesThrough (fun _ visitor => Ast.visitAll visitor ast ast.roots.toList)
            walks.flatten) := by
  constructor
  · intro handle place there
    obtain ⟨children, below, found, walked, whole⟩ := first.preorder there
    exact ⟨children, below, found, walked, whole, Ast.visit_goesThrough whole⟩
  · intro given
    have each : ∀ root ∈ ast.roots.toList, ∃ walk, ast.preorder root = .ok walk := by
      intro root member
      obtain ⟨place, there⟩ := given root member
      obtain ⟨_, below, _, _, whole⟩ := first.preorder there
      exact ⟨root :: below.flatten, whole⟩
    obtain ⟨walks, walked⟩ := Ast.mapM_ok each
    exact ⟨walks, walked, Ast.visitAll_goesThrough walked⟩

/-- The calls that store `f(-a, b)`. -/
def Ast.callsOfNegation : List Ast.Call :=
  [.intern "f", .intern "a", .intern "b",
    .push (.identifier (.ofIndex 0)) ⟨⟨1, 1⟩, 1⟩, .push (.identifier (.ofIndex 1)) ⟨⟨1, 4⟩, 1⟩,
    .push (.unary .negate ⟨3, 1⟩) ⟨⟨1, 3⟩, 2⟩, .push (.identifier (.ofIndex 2)) ⟨⟨1, 7⟩, 1⟩,
    .pushList [⟨5, 0⟩, ⟨3, 2⟩], .push (.call ⟨3, 0⟩ ⟨0, 2⟩) ⟨⟨1, 1⟩, 8⟩, .pushRoot ⟨7, 0⟩]

/-- The store of `f(-a, b)` was built in order. -/
theorem Ast.callsOfNegation_ordered :
    Ast.Ordered Ast.callsOfNegation (Ast.empty.performAll Ast.callsOfNegation).1 where
  direct := by decide +kernel
  arguments place callee range span pushed := by
    match place with
    | 0 | 1 | 2 | 3 => cases pushed
    | 4 =>
      cases pushed
      exact ⟨0, [⟨5, 0⟩, ⟨3, 2⟩], rfl, rfl, by decide, by decide +kernel⟩
    | place + 5 => cases pushed

/-- A visit of `f(-a, b)` meets the call, its callee, the negation with its operand and the last
argument, and the leaves among them are the three names. -/
theorem negation_in_call_is_walked :
    let ast := (Ast.empty.performAll Ast.callsOfNegation).2
    Ast.visit Ast.tracer ast ⟨7, 0⟩ [] = .ok [⟨7, 0⟩, ⟨3, 0⟩, ⟨5, 0⟩, ⟨3, 1⟩, ⟨3, 2⟩] ∧
      ast.leaves ast.roots.toList = .ok [.identifier "f", .identifier "a", .identifier "b"] := by
  intro ast
  have few : (Ast.callsOfNegation.filterMap Ast.Call.push?).length < 2 ^ 32 := by decide
  have told : ast.Told Ast.callsOfNegation (Ast.empty.performAll Ast.callsOfNegation).1 :=
    Ast.Told.empty.performAll few
  have first := told.childrenFirst few Ast.callsOfNegation_ordered
  obtain ⟨at_handle, at_roots⟩ := visitors_follow_child_walk ast first
  have call : ast.ordinals[(⟨7, 0⟩ : Handle)]? = some 4 := (told.pushed.ordinal _ 4).mpr rfl
  have roots : ast.roots.toList = [⟨7, 0⟩] := told.roots
  have walk : ast.preorder ⟨7, 0⟩ = .ok [⟨7, 0⟩, ⟨3, 0⟩, ⟨5, 0⟩, ⟨3, 1⟩, ⟨3, 2⟩] := by
    decide +kernel
  constructor
  · obtain ⟨_, _, _, _, whole, through⟩ := at_handle ⟨7, 0⟩ 4 call
    rw [Except.ok.inj (whole.symm.trans walk)] at through
    exact through.visits
  · have given : ∀ root ∈ ast.roots.toList, ∃ place, ast.ordinals[root]? = some place := by
      rw [roots]
      exact List.forall_mem_singleton.mpr ⟨4, call⟩
    obtain ⟨walks, walked, through⟩ := at_roots given
    have one : ast.roots.toList.mapM ast.preorder =
        .ok [[⟨7, 0⟩, ⟨3, 0⟩, ⟨5, 0⟩, ⟨3, 1⟩, ⟨3, 2⟩]] := by
      rw [roots, List.mapM_cons, walk]
      rfl
    have leaves : [[⟨7, 0⟩, ⟨3, 0⟩, ⟨5, 0⟩, ⟨3, 1⟩, ⟨3, 2⟩]].flatten.filter ast.isLeaf =
        [⟨3, 0⟩, ⟨3, 1⟩, ⟨3, 2⟩] := by
      decide +kernel
    have collected := through.leaves _ Ast.leafVisitor #[] Ast.leafVisitor_leavesOnly
    rw [Except.ok.inj (walked.symm.trans one), leaves] at collected
    have enter (handle : Handle) (number : Nat) (name : String)
        (got : ast.get handle = .ok (.identifier (.ofIndex number)))
        (there : (Ast.callsOfNegation.filterMap Ast.Call.text?)[number]? = some name)
        (given : ((Ast.empty.performAll Ast.callsOfNegation).1.filterMap
          Ast.Reply.symbol?)[number]? = some (.ofIndex number)) (found : Array Ast.Leaf) :
        Ast.leafVisitor.enterAt ast found handle = .ok (found.push (.identifier name)) := by
      have resolved : ast.resolve (.ofIndex number) = .ok name := by
        rw [Ast.resolve, told.interned.resolve? (by decide) there given]
      rw [Ast.Visitor.enterAt, got]
      show Ast.leafVisitor.enter ast handle (.identifier (.ofIndex number)) found = _
      simp only [Ast.leafVisitor, resolved]
      rfl
    have symbols := told.interned.symbols
    have f := enter ⟨3, 0⟩ 0 "f" (by decide +kernel) rfl (by rw [symbols]; decide)
    have a := enter ⟨3, 1⟩ 1 "a" (by decide +kernel) rfl (by rw [symbols]; decide)
    have b := enter ⟨3, 2⟩ 2 "b" (by decide +kernel) rfl (by rw [symbols]; decide)
    rw [Ast.leaves, collected]
    simp only [List.foldlM_cons, f, a, b, bind, Except.bind]
    rfl

end Cascade
