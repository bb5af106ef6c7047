import Cascade.Ast.Basic
import Cascade.Proofs.Arena

/-!
# The tables of stored expressions stay in step

A store is described by the nodes pushed into it, in their order: every handle has its place in that
order, and the span at that place is its own. Nothing that is stored is lost: a later store has
every node, list and text of an earlier one under the same handle, range and symbol.
-/
namespace Cascade

/-- Pushing a node gives out the handle of its place in the history. -/
theorem Arena.push_holds {arena : Arena} {nodes : List Node} (holds : arena.Holds nodes)
    (node : Node) :
    (arena.push node).1 = Node.union.handleAfter nodes node ∧
      (arena.push node).2.Holds (nodes ++ [node]) := by
  have appended := holds.append Node.union_lawful node
  unfold Arena.push
  split
  · next result =>
    rw [result] at appended
    exact ⟨Except.ok.inj appended.1, appended.2⟩
  · next result =>
    rw [result] at appended
    cases appended.1

namespace Interner

/-- A text is found under the symbol it was interned as. -/
theorem intern_resolve (interner : Interner) (text : String)
    (few : interner.size < Symbol.limit) :
    (interner.intern text).2.resolve? (interner.intern text).1 = some text := by
  unfold intern
  split
  · next number known =>
    have there := (interner.consistent text number).mp known
    obtain ⟨inside, _⟩ := Array.getElem?_eq_some_iff.mp there
    simp only [resolve?, Symbol.index_ofIndex (Nat.lt_trans inside few)]
    exact there
  · have placed : (Symbol.ofIndex interner.texts.size).index = interner.texts.size :=
      Symbol.index_ofIndex few
    simp only [resolve?, placed]
    exact Array.getElem?_push_size

/-- Interning keeps every text under its symbol. -/
theorem intern_keeps (interner : Interner) (text : String) {symbol : Symbol} {old : String}
    (found : interner.resolve? symbol = some old) :
    (interner.intern text).2.resolve? symbol = some old := by
  unfold intern
  split
  · exact found
  · obtain ⟨inside, _⟩ := Array.getElem?_eq_some_iff.mp found
    simp only [resolve?, Array.getElem?_push_lt inside]
    rw [← Array.getElem?_eq_getElem inside]
    exact found

/-- Interning adds at most one text. -/
theorem intern_size (interner : Interner) (text : String) :
    (interner.intern text).2.size ≤ interner.size + 1 := by
  unfold intern
  split
  · exact Nat.le_succ _
  · simp only [size, Array.size_push]
    exact Nat.le_refl _

end Interner

namespace Ast

/-- The store keeps the nodes, which were pushed in this order. -/
structure Records (ast : Ast) (nodes : List Node) : Prop where
  /-- The arena holds the nodes. -/
  arena : ast.arena.Holds nodes
  /-- There is a span for every node. -/
  spans : ast.spans.size = nodes.length
  /-- A handle has a place exactly if the node at that place was given the handle. -/
  ordinals : ∀ (handle : Handle) (place : Nat), ast.ordinals[handle]? = some place ↔
    ∃ node, nodes[place]? = some node ∧
      handle = Node.union.handleAfter (nodes.take place) node

/-- The node stands under the handle at the place in the history, with the span. -/
structure At (ast : Ast) (handle : Handle) (node : Node) (span : Span) (place : Nat) : Prop where
  /-- The handle gives the node. -/
  get : ast.get handle = .ok node
  /-- The handle was given out at the place. -/
  ordinal : ast.ordinals[handle]? = some place
  /-- The span at the place belongs to the node. -/
  span : ast.spans[place]? = some span

/-- Whatever the first store gives, the second gives too. -/
structure Grows (before after : Ast) : Prop where
  /-- Nodes stay under their handles. -/
  node : ∀ {handle : Handle} {node : Node} {span : Span} {place : Nat},
    before.At handle node span place → after.At handle node span place
  /-- Lists stay in their ranges. -/
  list : ∀ {range : HandleRange} {handles : List Handle},
    before.list range = .ok handles → after.list range = .ok handles
  /-- Texts stay under their symbols. -/
  text : ∀ {symbol : Symbol} {text : String},
    before.resolve symbol = .ok text → after.resolve symbol = .ok text

namespace Grows

/-- A store gives what it gives. -/
theorem refl (ast : Ast) : ast.Grows ast := ⟨id, id, id⟩

/-- Growing twice is growing. -/
theorem trans {first second third : Ast} (early : first.Grows second) (late : second.Grows third) :
    first.Grows third where
  node found := late.node (early.node found)
  list found := late.list (early.list found)
  text found := late.text (early.text found)

end Grows

namespace Records

variable {ast : Ast} {nodes : List Node}

/-- The store without nodes records none. -/
theorem empty : Ast.empty.Records [] where
  arena := DenseList.holds_new Arena.new?_union
  spans := rfl
  ordinals handle place := by simp [Ast.empty]

/-- The nodes recorded are the nodes counted. -/
theorem nodeCount (records : ast.Records nodes) : ast.nodeCount = nodes.length :=
  records.arena.length

/-- The node at a place is found under the handle given out there. -/
theorem get (records : ast.Records nodes) {place : Nat} (few : place < 2 ^ 32) {node : Node}
    (there : nodes[place]? = some node) :
    ast.get (Node.union.handleAfter (nodes.take place) node) = .ok node := by
  have holds := records.arena
  rw [DenseList.take_cons_drop there] at holds
  apply holds.get Node.union_lawful
  exact Nat.lt_of_le_of_lt (List.length_take_le place nodes) few

/-- A pushed node gets a handle that no node before it has. -/
theorem fresh (few : nodes.length < 2 ^ 32) {place : Nat} {old : Node} (node : Node)
    (there : nodes[place]? = some old) :
    Node.union.handleAfter (nodes.take place) old ≠ Node.union.handleAfter nodes node := by
  have split := DenseList.take_cons_drop there
  have apart := few
  rw [split] at apart
  have different : Node.union.handleAfter (nodes.take place) old ≠
      Node.union.handleAfter (nodes.take place ++ old :: nodes.drop (place + 1)) node :=
    TaggedUnion.handleAfter_ne apart
  rw [← split] at different
  exact different

/-- A place in a longer history is an earlier place or the new one. -/
theorem place_cases {node found : Node} {place : Nat}
    (there : (nodes ++ [node])[place]? = some found) :
    nodes[place]? = some found ∨ place = nodes.length ∧ found = node := by
  rw [List.getElem?_append] at there
  split at there
  · exact .inl there
  · next beyond =>
    obtain ⟨inside, rfl⟩ := List.getElem?_eq_some_iff.mp there
    rw [List.length_singleton] at inside
    exact .inr ⟨by omega, List.getElem_singleton _⟩

/-- A place in the history is in every longer one, behind the same nodes. -/
theorem place_append {found : Node} {place : Nat} (there : nodes[place]? = some found)
    (further : List Node) :
    (nodes ++ further)[place]? = some found ∧
      (nodes ++ further).take place = nodes.take place := by
  obtain ⟨inside, _⟩ := List.getElem?_eq_some_iff.mp there
  exact ⟨by rw [List.getElem?_append_left inside, there],
    List.take_append_of_le_length (Nat.le_of_lt inside)⟩

/-- A push adds its node at the end of the history. -/
theorem push (records : ast.Records nodes) (few : nodes.length < 2 ^ 32) (node : Node)
    (span : Span) : (ast.push node span).2.Records (nodes ++ [node]) := by
  obtain ⟨given, holds⟩ := Arena.push_holds records.arena node
  refine ⟨holds, ?_, fun handle place => ?_⟩
  · simp only [Ast.push, Array.size_push, records.spans, List.length_append, List.length_singleton]
  · simp only [Ast.push, given, Std.HashMap.getElem?_insert, records.spans, beq_iff_eq]
    split
    · next same =>
      subst same
      constructor
      · intro last
        cases last
        exact ⟨node, by simp, by simp⟩
      · rintro ⟨found, there, again⟩
        obtain earlier | ⟨last, _⟩ := place_cases there
        · rw [(place_append earlier [node]).2] at again
          exact absurd again.symm (fresh few node earlier)
        · rw [last]
    · next other =>
      rw [records.ordinals]
      constructor
      · rintro ⟨found, there, same⟩
        obtain ⟨still, before⟩ := place_append there [node]
        exact ⟨found, still, by rw [before, same]⟩
      · rintro ⟨found, there, same⟩
        obtain earlier | ⟨rfl, rfl⟩ := place_cases there
        · rw [(place_append earlier [node]).2] at same
          exact ⟨found, earlier, same⟩
        · rw [List.take_left] at same
          exact absurd same.symm other

/-- A pushed node stands under its handle at the end of the history. -/
theorem push_at (records : ast.Records nodes) (few : nodes.length < 2 ^ 32) (node : Node)
    (span : Span) : (ast.push node span).2.At (ast.push node span).1 node span nodes.length := by
  obtain ⟨given, holds⟩ := Arena.push_holds records.arena node
  refine ⟨?_, ?_, ?_⟩
  · have found := holds.get Node.union_lawful few
    simp only [Ast.push, given]
    exact found
  · simp only [Ast.push, Std.HashMap.getElem?_insert_self, records.spans]
  · simp only [Ast.push, ← records.spans, Array.getElem?_push_size]

/-- A push keeps what was stored. -/
theorem push_grows (records : ast.Records nodes) (few : nodes.length < 2 ^ 32) (node : Node)
    (span : Span) : ast.Grows (ast.push node span).2 where
  node {handle old other place} found := by
    have later := records.push few node span
    obtain ⟨kept, there, rfl⟩ := (records.ordinals handle place).mp found.ordinal
    obtain ⟨inside, _⟩ := List.getElem?_eq_some_iff.mp there
    have small := Nat.lt_trans inside few
    obtain rfl : kept = old := Except.ok.inj ((records.get small there).symm.trans found.get)
    obtain ⟨still, before⟩ := place_append there [node]
    rw [← before]
    refine ⟨later.get small still, (later.ordinals _ _).mpr ⟨kept, still, rfl⟩, ?_⟩
    rw [← records.spans] at inside
    simp only [Ast.push, Array.getElem?_push_lt inside]
    rw [← Array.getElem?_eq_getElem inside]
    exact found.span
  list found := found
  text found := found

end Records

/-- The store can take so many more nodes, texts and handles in lists. -/
structure Room (ast : Ast) (spare : Nat) : Prop where
  /-- The tables are in step. -/
  sound : ∃ nodes, ast.Records nodes
  /-- Slots of nodes fit their word. -/
  nodes : ast.nodeCount + spare < 2 ^ 32
  /-- Symbols fit theirs. -/
  symbols : ast.symbols.size + spare < 2 ^ 32
  /-- So do ranges of lists. -/
  lists : ast.lists.size + spare < 2 ^ 32

/-- The later store has so many nodes more and at most as many texts, and of the handles in its
lists so many are spared. -/
structure Step (before after : Ast) (count spare : Nat) : Prop where
  /-- The tables are in step. -/
  sound : ∃ nodes, after.Records nodes
  /-- What was stored is kept. -/
  grows : before.Grows after
  /-- The nodes are counted. -/
  nodes : after.nodeCount = before.nodeCount + count
  /-- There is no more than a text for each node. -/
  symbols : after.symbols.size ≤ before.symbols.size + count
  /-- There is no more than a handle in a list for each node. -/
  lists : after.lists.size + spare ≤ before.lists.size + count

/-- A smaller room is there too. -/
theorem Room.shrink {ast : Ast} {more spare : Nat} (room : ast.Room more) (less : spare ≤ more) :
    ast.Room spare where
  sound := room.sound
  nodes := by have := room.nodes; omega
  symbols := by have := room.symbols; omega
  lists := by have := room.lists; omega

/-- A step leaves the room it does not use. -/
theorem Step.room {before after : Ast} {count spare more : Nat}
    (step : before.Step after count spare) (room : before.Room (count + more)) :
    after.Room more where
  sound := step.sound
  nodes := by have := room.nodes; have := step.nodes; omega
  symbols := by have := room.symbols; have := step.symbols; omega
  lists := by have := room.lists; have := step.lists; omega

/-- What was spared may be spent. -/
theorem Step.spend {before after : Ast} {count kept spare : Nat}
    (step : before.Step after count kept) (less : spare ≤ kept) :
    before.Step after count spare where
  sound := step.sound
  grows := step.grows
  nodes := step.nodes
  symbols := step.symbols
  lists := by have := step.lists; omega

/-- Steps follow one another. -/
theorem Step.trans {first second third : Ast} {one two kept spare : Nat}
    (early : first.Step second one kept) (late : second.Step third two spare) :
    first.Step third (one + two) (kept + spare) where
  sound := late.sound
  grows := early.grows.trans late.grows
  nodes := by have := early.nodes; have := late.nodes; omega
  symbols := by have := early.symbols; have := late.symbols; omega
  lists := by have := early.lists; have := late.lists; omega

/-- Nothing happens in no step. -/
theorem Step.refl {ast : Ast} {spare : Nat} (room : ast.Room spare) : ast.Step ast 0 0 where
  sound := room.sound
  grows := .refl ast
  nodes := rfl
  symbols := Nat.le_refl _
  lists := Nat.le_refl _

/-- A pushed node stands at the place after all others, and everything else is kept. -/
theorem push_last {ast : Ast} (sound : ∃ nodes, ast.Records nodes) (few : ast.nodeCount < 2 ^ 32)
    (node : Node) (span : Span) :
    ast.Step (ast.push node span).2 1 1 ∧
      (ast.push node span).2.At (ast.push node span).1 node span ast.nodeCount := by
  obtain ⟨nodes, records⟩ := sound
  have counted := records.nodeCount
  rw [counted] at few ⊢
  have later := records.push few node span
  refine ⟨⟨⟨_, later⟩, records.push_grows few node span, ?_, ?_, ?_⟩, records.push_at few node span⟩
  · rw [later.nodeCount, counted, List.length_append, List.length_singleton]
  · exact Nat.le_succ _
  · exact Nat.le_refl _

section

variable {before ast : Ast} {count spare : Nat}

/-- A node is pushed behind the nodes of a step. -/
theorem push_step (room : before.Room (count + 1)) (step : before.Step ast count spare)
    (node : Node) (span : Span) :
    let pushed := ast.push node span
    before.Step pushed.2 (count + 1) 1 ∧ ast.Grows pushed.2 ∧
      pushed.2.At pushed.1 node span (before.nodeCount + count) := by
  have few := (step.room room).nodes
  obtain ⟨pushed, placed⟩ := push_last step.sound (Nat.lt_of_succ_lt few) node span
  rw [step.nodes] at placed
  exact ⟨(step.trans pushed).spend (Nat.le_add_left ..), pushed.grows, placed⟩

/-- A node with a text is pushed behind the nodes of a step, once the text is interned. -/
theorem text_step (room : before.Room (count + 1)) (step : before.Step ast count spare)
    (text : String) (node : Symbol → Node) (span : Span) :
    let interned := ast.intern text
    let pushed := interned.2.push (node interned.1) span
    before.Step pushed.2 (count + 1) 1 ∧ ast.Grows pushed.2 ∧
      pushed.2.At pushed.1 (node interned.1) span (before.nodeCount + count) ∧
      pushed.2.resolve interned.1 = .ok text := by
  obtain ⟨nodes, records⟩ := step.sound
  have left := step.room room
  have same : (ast.intern text).2.Records nodes :=
    ⟨records.arena, records.spans, records.ordinals⟩
  have few : ast.symbols.size < Symbol.limit := Nat.lt_sub_of_add_lt left.symbols
  have grows : ast.Grows (ast.intern text).2 := by
    refine ⟨fun found => ⟨found.get, found.ordinal, found.span⟩, id, ?_⟩
    intro symbol old found
    unfold resolve at found ⊢
    split at found
    · next known =>
      cases found
      have kept := ast.symbols.intern_keeps text known
      simp only [intern, kept]
    · cases found
  have resolved : (ast.intern text).2.resolve (ast.intern text).1 = .ok text := by
    have known := ast.symbols.intern_resolve text few
    simp only [resolve, intern, known]
  obtain ⟨pushed, placed⟩ := push_last ⟨nodes, same⟩ (Nat.lt_of_succ_lt left.nodes)
    (node (ast.intern text).1) span
  have texts : (ast.intern text).2.symbols.size ≤ ast.symbols.size + 1 :=
    ast.symbols.intern_size text
  have whole : ast.Step ((ast.intern text).2.push (node (ast.intern text).1) span).2 1 1 :=
    ⟨pushed.sound, grows.trans pushed.grows, pushed.nodes, texts, pushed.lists⟩
  have stored : (ast.intern text).2.nodeCount = before.nodeCount + count := step.nodes
  rw [stored] at placed
  exact ⟨(step.trans whole).spend (Nat.le_add_left ..), whole.grows, placed,
    pushed.grows.text resolved⟩

end

/-- A list in its range is found in every longer table of lists. -/
theorem list_append {ast : Ast} {range : HandleRange} {found : List Handle}
    (there : ast.list range = .ok found) (handles : List Handle) :
    { ast with lists := ast.lists ++ handles.toArray }.list range = .ok found := by
  unfold list at there ⊢
  simp only at there ⊢
  split at there
  · next inside =>
    have outside : range.start.toNat + range.length.toNat - ast.lists.size = 0 :=
      Nat.sub_eq_zero_of_le inside
    rw [if_pos (by rw [Array.size_append]; omega), Array.extract_append, outside, ← there]
    simp
  · cases there

/-- Handles appended to the lists are found in their range. -/
theorem list_pushList {ast : Ast} (handles : List Handle)
    (few : ast.lists.size + handles.length < 2 ^ 32) :
    (ast.pushList handles).2.list (ast.pushList handles).1 = .ok handles := by
  unfold pushList
  split
  · next nothing =>
    rw [List.isEmpty_iff.mp nothing]
    simp [list, HandleRange.empty]
  · have start : (UInt32.ofNat ast.lists.size).toNat = ast.lists.size := by
      rw [UInt32.toNat_ofNat', Nat.mod_eq_of_lt (by omega)]
    have length : (UInt32.ofNat handles.length).toNat = handles.length := by
      rw [UInt32.toNat_ofNat', Nat.mod_eq_of_lt (by omega)]
    unfold list
    simp only [start, length]
    rw [if_pos (by simp), Array.extract_append_right]
    simp

/-- Appending handles to the lists changes only the lists, which grow by the handles. -/
theorem pushList_lists (ast : Ast) (handles : List Handle) :
    (ast.pushList handles).2 = { ast with lists := ast.lists ++ handles.toArray } := by
  unfold pushList
  split
  · next nothing =>
    rw [List.isEmpty_iff.mp nothing]
    simp
  · rfl

/-- A node with a list is pushed behind the nodes of a step, once the list is pushed; its handles
are taken out of what the step spared. -/
theorem list_step {before ast : Ast} {count spare : Nat} (room : before.Room (count + 1))
    (step : before.Step ast count spare) {handles : List Handle}
    (enough : handles.length ≤ spare) (node : HandleRange → Node) (span : Span) :
    let listed := ast.pushList handles
    let pushed := listed.2.push (node listed.1) span
    before.Step pushed.2 (count + 1) 1 ∧ ast.Grows pushed.2 ∧
      pushed.2.At pushed.1 (node listed.1) span (before.nodeCount + count) ∧
      pushed.2.list listed.1 = .ok handles := by
  obtain ⟨nodes, records⟩ := step.sound
  have next := pushList_lists ast handles
  have same : (ast.pushList handles).2.Records nodes := by
    rw [next]
    exact ⟨records.arena, records.spans, records.ordinals⟩
  have counted : (ast.pushList handles).2.nodeCount = before.nodeCount + count := by
    rw [next]
    exact step.nodes
  have listRoom := room.lists
  have nodeRoom := room.nodes
  have listed := step.lists
  have grows : ast.Grows (ast.pushList handles).2 := by
    rw [next]
    exact ⟨fun found => ⟨found.get, found.ordinal, found.span⟩,
      fun found => list_append found handles, id⟩
  have range : (ast.pushList handles).2.list (ast.pushList handles).1 = .ok handles :=
    list_pushList handles (by omega)
  obtain ⟨pushed, placed⟩ := push_last ⟨nodes, same⟩ (by omega) (node (ast.pushList handles).1) span
  rw [counted] at placed
  have whole := grows.trans pushed.grows
  refine ⟨⟨pushed.sound, step.grows.trans whole, ?_, ?_, ?_⟩, whole, placed,
    pushed.grows.list range⟩
  · rw [pushed.nodes, counted, Nat.add_assoc]
  · have kept : (ast.pushList handles).2.symbols = ast.symbols := by rw [next]
    have texts := step.symbols
    rw [← kept] at texts
    exact Nat.le_succ_of_le texts
  · have longer : (ast.pushList handles).2.lists.size = ast.lists.size + handles.length := by
      rw [next]
      simp only [Array.size_append, List.size_toArray]
    have last := pushed.lists
    omega

end Ast

end Cascade
