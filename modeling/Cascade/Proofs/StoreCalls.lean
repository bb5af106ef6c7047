import Cascade.Proofs.AstStore
import Mathlib.Data.List.Perm.Subperm

/-!
# Stores built by any calls

A store of expressions can be built by hand: texts are interned, nodes pushed with their spans,
handles recorded as roots and copied into lists, in any order. Each table then keeps the history of
its own calls and nothing else: the interner the distinct texts (`Interner.Interned`), the lists one
behind the other (`Listed`), the nodes with their spans (`Ast.Pushed`). What a call gave out is a
place in such a history, so at every later moment it means what was passed in (`Ast.InStep`).
-/
namespace Cascade

/-- No more texts are distinct than there are. -/
theorem length_eraseDups_le (texts : List String) : texts.eraseDups.length ≤ texts.length :=
  ((nodup_eraseDups texts).subperm fun _ => List.mem_eraseDups.mp).length_le

namespace Interner

/-- A text that was seen keeps its number, and another one gets the next. -/
theorem texts_intern (interner : Interner) (text : String) :
    (interner.intern text).2.texts.toList =
      if text ∈ interner.texts.toList then interner.texts.toList
      else interner.texts.toList ++ [text] := by
  have seen (number : Nat) : interner.numbers[text]? = some number ↔
      interner.texts.toList[number]? = some text := by
    rw [Array.getElem?_toList]
    exact interner.consistent text number
  unfold intern
  split
  · next number known =>
    rw [if_pos (List.mem_of_getElem? ((seen number).mp known))]
  · next unknown =>
    have new : text ∉ interner.texts.toList := by
      intro among
      obtain ⟨number, there⟩ := List.getElem?_of_mem among
      rw [(seen number).mpr there] at unknown
      cases unknown
    rw [if_neg new, Array.toList_push]

/-- The symbol of a text is its place among the texts. -/
theorem symbol_intern (interner : Interner) (text : String) :
    (interner.intern text).1 = .ofIndex ((interner.intern text).2.texts.toList.idxOf text) := by
  have texts := interner.texts_intern text
  have among : text ∈ (interner.intern text).2.texts.toList := by
    rw [texts]
    split
    · assumption
    · exact List.mem_append_right _ List.mem_cons_self
  have place := ((interner.intern text).2.consistent text _).mpr
    ((Array.getElem?_toList ..).symm.trans (List.getElem?_idxOf among))
  unfold intern at place ⊢
  split at place
  · next number known =>
    rw [known] at place
    exact congrArg Symbol.ofIndex (Option.some.inj place)
  · rw [Std.HashMap.getElem?_insert_self] at place
    exact congrArg Symbol.ofIndex (Option.some.inj place)

end Interner

/-- What is computed for each value from those before it is computed for one more value last. -/
theorem mapIdx_take_append_singleton {α β : Type} (result : List α → α → β) (values : List α)
    (value : α) :
    (values ++ [value]).mapIdx (fun place => result ((values ++ [value]).take place)) =
      values.mapIdx (fun place => result (values.take place)) ++ [result values value] := by
  rw [List.mapIdx_concat, List.take_left]
  congr 1
  apply List.ext_getElem
  · rw [List.length_mapIdx, List.length_mapIdx]
  · intro place inside _
    rw [List.length_mapIdx] at inside
    rw [List.getElem_mapIdx, List.getElem_mapIdx,
      List.take_append_of_le_length (Nat.le_of_lt inside)]

/-- The texts were interned in this order, which gave out these symbols: the interner has the
distinct texts by their first occurrence, and a symbol is the place of its text among them. -/
structure Interner.Interned (interner : Interner) (texts : List String) (symbols : List Symbol) :
    Prop where
  /-- The distinct texts stand in the order of their first occurrence. -/
  distinct : interner.texts.toList = texts.eraseDups
  /-- Each symbol is the place of its text. -/
  symbols : symbols = texts.map fun text => .ofIndex (texts.eraseDups.idxOf text)

namespace Interner.Interned

variable {interner : Interner} {texts : List String} {symbols : List Symbol}

/-- Interning a text keeps the order, and gives out its symbol. -/
theorem intern (interned : interner.Interned texts symbols) (text : String) :
    (interner.intern text).2.Interned (texts ++ [text])
      (symbols ++ [(interner.intern text).1]) := by
  have distinct : (interner.intern text).2.texts.toList = (texts ++ [text]).eraseDups := by
    rw [eraseDups_append_singleton, Interner.texts_intern, interned.distinct]
    simp only [List.mem_eraseDups]
  refine ⟨distinct, ?_⟩
  rw [Interner.symbol_intern, distinct, interned.symbols, List.map_append, List.map_singleton]
  congr 1
  apply List.map_congr_left
  intro old among
  have first : old ∈ texts.eraseDups := List.mem_eraseDups.mpr among
  rw [List.eraseDups_append, List.idxOf_append, if_pos first]

/-- As long as the texts are fewer than symbols, the index of a symbol is the place of its text. -/
theorem indices (interned : interner.Interned texts symbols) (few : texts.length < 2 ^ 32) :
    symbols.map Symbol.index = texts.map texts.eraseDups.idxOf := by
  rw [interned.symbols, List.map_map]
  apply List.map_congr_left
  intro text among
  have inside : texts.eraseDups.idxOf text < texts.eraseDups.length :=
    List.idxOf_lt_length_of_mem (List.mem_eraseDups.mpr among)
  have fit : texts.eraseDups.length < UInt32.size :=
    Nat.lt_of_le_of_lt (length_eraseDups_le texts) few
  exact Symbol.index_ofIndex (Nat.lt_of_lt_of_le inside (Nat.le_sub_one_of_lt fit))

/-- The symbol that was given out for a text gives the text. -/
theorem resolve? (interned : interner.Interned texts symbols) (few : texts.length < 2 ^ 32)
    {place : Nat} {text : String} {symbol : Symbol} (there : texts[place]? = some text)
    (given : symbols[place]? = some symbol) : interner.resolve? symbol = some text := by
  have index := congrArg (·[place]?) (interned.indices few)
  simp only [List.getElem?_map, there, given, Option.map_some, Option.some.injEq] at index
  have among : text ∈ texts.eraseDups := List.mem_eraseDups.mpr (List.mem_of_getElem? there)
  rw [Interner.resolve?, index, ← Array.getElem?_toList, interned.distinct,
    List.getElem?_idxOf among]

/-- Two symbols that were given out are equal exactly if their texts are. -/
theorem symbol_inj (interned : interner.Interned texts symbols) (few : texts.length < 2 ^ 32)
    {one other : Nat} {first second : String} {symbol symbol' : Symbol}
    (there : texts[one]? = some first) (here : texts[other]? = some second)
    (given : symbols[one]? = some symbol) (given' : symbols[other]? = some symbol') :
    symbol = symbol' ↔ first = second := by
  constructor
  · rintro rfl
    have same := (interned.resolve? few there given).symm.trans (interned.resolve? few here given')
    exact Option.some.inj same
  · rintro rfl
    rw [interned.symbols, List.getElem?_map] at given given'
    rw [there, Option.map_some, Option.some.injEq] at given
    rw [here, Option.map_some, Option.some.injEq] at given'
    exact given.symm.trans given'

end Interner.Interned

/-- The range of handles that are copied behind the lists. -/
def HandleRange.behind (lists : List (List Handle)) (handles : List Handle) : HandleRange :=
  if handles.isEmpty then .empty
  else ⟨UInt32.ofNat lists.flatten.length, UInt32.ofNat handles.length⟩

/-- The lists were copied in this order, which gave out these ranges. -/
structure Listed (stored : Array Handle) (lists : List (List Handle)) (ranges : List HandleRange) :
    Prop where
  /-- The lists stand one behind the other. -/
  stored : stored.toList = lists.flatten
  /-- Each range is behind the lists before it. -/
  ranges : ranges = lists.mapIdx fun place => .behind (lists.take place)

namespace Ast

/-- Copying handles keeps the order, and gives out their range. -/
theorem listed_pushList {ast : Ast} {lists : List (List Handle)} {ranges : List HandleRange}
    (listed : Listed ast.lists lists ranges) (handles : List Handle) :
    Listed (ast.pushList handles).2.lists (lists ++ [handles])
      (ranges ++ [(ast.pushList handles).1]) := by
  constructor
  · rw [pushList_lists, Array.toList_append, listed.stored, List.flatten_append,
      List.flatten_singleton]
  · have length : ast.lists.size = lists.flatten.length := by
      rw [← listed.stored, Array.length_toList]
    have range : (ast.pushList handles).1 = .behind lists handles := by
      unfold pushList HandleRange.behind
      split
      · rfl
      · rw [length]
    rw [mapIdx_take_append_singleton HandleRange.behind, ← listed.ranges, range]

/-- A range gives the handles that it was given out for, as long as their places fit its words. -/
theorem list_of_listed {ast : Ast} {lists : List (List Handle)} {ranges : List HandleRange}
    (listed : Listed ast.lists lists ranges) {place : Nat} {handles : List Handle}
    {range : HandleRange} (there : lists[place]? = some handles)
    (given : ranges[place]? = some range)
    (few : handles ≠ [] → (lists.take (place + 1)).flatten.length < 2 ^ 32) :
    ast.list range = .ok handles := by
  rw [listed.ranges, List.getElem?_mapIdx, there, Option.map_some, Option.some.injEq] at given
  subst given
  by_cases empty : handles = []
  · subst empty
    simp [HandleRange.behind, HandleRange.empty, list]
  · have parts : lists.flatten = (lists.take place).flatten ++
        (handles ++ (lists.drop (place + 1)).flatten) := by
      rw [← List.flatten_cons, ← List.flatten_append, ← DenseList.take_cons_drop there]
    have small := few empty
    rw [List.take_add_one, there, Option.toList_some, List.flatten_append, List.flatten_singleton,
      List.length_append] at small
    have start : (UInt32.ofNat (lists.take place).flatten.length).toNat =
        (lists.take place).flatten.length := by
      rw [UInt32.toNat_ofNat', Nat.mod_eq_of_lt (by omega)]
    have length : (UInt32.ofNat handles.length).toNat = handles.length := by
      rw [UInt32.toNat_ofNat', Nat.mod_eq_of_lt (by omega)]
    have size : ast.lists.size = lists.flatten.length := by
      rw [← listed.stored, Array.length_toList]
    rw [HandleRange.behind, if_neg (by simpa using empty), list]
    simp only [start, length]
    rw [if_pos (by rw [size, parts, List.length_append, List.length_append]; omega),
      Array.toList_extract, listed.stored, parts, List.extract_eq_take_drop,
      Nat.add_sub_cancel_left, List.drop_left, List.take_left]

/-- The nodes were pushed in this order with these spans, which gave out these handles. -/
structure Pushed (ast : Ast) (pushes : List (Node × Span)) (handles : List Handle) : Prop where
  /-- The arena and the ordinals are those of the nodes. -/
  nodes : ast.Records (pushes.map Prod.fst)
  /-- The spans stand in their order. -/
  spans : ast.spans.toList = pushes.map Prod.snd
  /-- The handles are those of the nodes. -/
  handles : handles = DenseList.handlesOf Node.union (pushes.map Prod.fst)

namespace Pushed

variable {ast other : Ast} {pushes : List (Node × Span)} {handles : List Handle}

/-- Roots, lists and texts do not matter to nodes. -/
theorem congr (pushed : ast.Pushed pushes handles) (arena : other.arena = ast.arena)
    (spans : other.spans = ast.spans) (ordinals : other.ordinals = ast.ordinals) :
    other.Pushed pushes handles where
  nodes := ⟨arena ▸ pushed.nodes.arena, spans ▸ pushed.nodes.spans,
    ordinals ▸ pushed.nodes.ordinals⟩
  spans := spans ▸ pushed.spans
  handles := pushed.handles

/-- A push keeps the order, and gives out the handle of its node. -/
theorem push (pushed : ast.Pushed pushes handles) (few : pushes.length < 2 ^ 32) (node : Node)
    (span : Span) :
    (ast.push node span).2.Pushed (pushes ++ [(node, span)])
      (handles ++ [(ast.push node span).1]) := by
  have small : (pushes.map Prod.fst).length < 2 ^ 32 := by rwa [List.length_map]
  refine ⟨?_, ?_, ?_⟩
  · rw [List.map_append]
    exact pushed.nodes.push small node span
  · rw [List.map_append, ← pushed.spans]
    exact Array.toList_push
  · have given : (ast.push node span).1 =
        Node.union.handleAfter (pushes.map Prod.fst) node :=
      (Arena.push_holds pushed.nodes.arena node).1
    have longer := mapIdx_take_append_singleton Node.union.handleAfter (pushes.map Prod.fst) node
    rw [List.map_append, pushed.handles, given]
    exact longer.symm

/-- The handle at a place gives the node that was pushed there. -/
theorem get (pushed : ast.Pushed pushes handles) (few : pushes.length < 2 ^ 32) {place : Nat}
    {node : Node} {span : Span} {handle : Handle} (there : pushes[place]? = some (node, span))
    (given : handles[place]? = some handle) : ast.get handle = .ok node := by
  have stands : (pushes.map Prod.fst)[place]? = some node := by
    rw [List.getElem?_map, there, Option.map_some]
  rw [pushed.handles] at given
  rw [DenseList.handlesOf_getElem? stands given]
  obtain ⟨inside, _⟩ := List.getElem?_eq_some_iff.mp there
  exact pushed.nodes.get (Nat.lt_trans inside few) stands

/-- A handle has the place at which it was given out, and no other handle has one. -/
theorem ordinal (pushed : ast.Pushed pushes handles) (handle : Handle) (place : Nat) :
    ast.ordinals[handle]? = some place ↔ handles[place]? = some handle := by
  rw [pushed.nodes.ordinals, pushed.handles, DenseList.handlesOf, List.getElem?_mapIdx,
    Option.map_eq_some_iff]
  simp only [eq_comm]

/-- The span under a handle is the one pushed at its place. -/
theorem span? (pushed : ast.Pushed pushes handles) (handle : Handle) (span : Span) :
    ast.span? handle = some span ↔ ∃ place : Nat, handles[place]? = some handle ∧
      (pushes.map Prod.snd)[place]? = some span := by
  rw [Ast.span?, Option.bind_eq_some_iff]
  simp only [pushed.ordinal, ← pushed.spans, Array.getElem?_toList]

/-- There are as many spans as nodes. -/
theorem nodeCount (pushed : ast.Pushed pushes handles) : ast.nodeCount = ast.spans.size := by
  rw [pushed.nodes.nodeCount, pushed.nodes.spans]

end Pushed

/-- What a store can be asked to do. -/
inductive Call where
  /-- Interns a text. -/
  | intern (text : String)
  /-- Pushes a node with its span. -/
  | push (node : Node) (span : Span)
  /-- Records a root. -/
  | pushRoot (handle : Handle)
  /-- Copies handles into the lists. -/
  | pushList (handles : List Handle)

/-- What a call gives out. -/
inductive Reply where
  /-- The symbol of an interned text. -/
  | symbol (symbol : Symbol)
  /-- The handle of a pushed node. -/
  | handle (handle : Handle)
  /-- Nothing, for a root. -/
  | done
  /-- The range of copied handles. -/
  | range (range : HandleRange)

/-- The text that a call interns. -/
def Call.text? : Call → Option String
  | .intern text => some text
  | _ => none

/-- The node that a call pushes, with its span. -/
def Call.push? : Call → Option (Node × Span)
  | .push node span => some (node, span)
  | _ => none

/-- The handle that a call records as a root. -/
def Call.root? : Call → Option Handle
  | .pushRoot handle => some handle
  | _ => none

/-- The handles that a call copies into the lists. -/
def Call.list? : Call → Option (List Handle)
  | .pushList handles => some handles
  | _ => none

/-- The symbol that was given out. -/
def Reply.symbol? : Reply → Option Symbol
  | .symbol given => some given
  | _ => none

/-- The handle that was given out. -/
def Reply.handle? : Reply → Option Handle
  | .handle given => some given
  | _ => none

/-- The range that was given out. -/
def Reply.range? : Reply → Option HandleRange
  | .range given => some given
  | _ => none

/-- Does what is asked for. -/
def perform (ast : Ast) : Call → Reply × Ast
  | .intern text => (.symbol (ast.intern text).1, (ast.intern text).2)
  | .push node span => (.handle (ast.push node span).1, (ast.push node span).2)
  | .pushRoot handle => (.done, ast.pushRoot handle)
  | .pushList handles => (.range (ast.pushList handles).1, (ast.pushList handles).2)

/-- Does what is asked for, one call after the other. -/
def performAll (ast : Ast) : List Call → List Reply × Ast
  | [] => ([], ast)
  | call :: calls =>
    let (reply, later) := ast.perform call
    let (replies, final) := later.performAll calls
    (reply :: replies, final)

/-- What is no matter to a table adds nothing behind its history. -/
theorem append_filterMap_singleton {α β : Type} {own? : α → Option β} {value : α}
    (none : own? value = none) (history : List β) :
    history ++ [value].filterMap own? = history := by
  rw [List.filterMap_cons_none none, List.filterMap_nil, List.append_nil]

/-- Every table keeps the calls that are its own, with what they gave out. -/
structure Told (ast : Ast) (calls : List Call) (replies : List Reply) : Prop where
  /-- The nodes and spans that were pushed. -/
  pushed : ast.Pushed (calls.filterMap Call.push?) (replies.filterMap Reply.handle?)
  /-- The roots that were recorded. -/
  roots : ast.roots.toList = calls.filterMap Call.root?
  /-- The lists that were copied. -/
  listed : Listed ast.lists (calls.filterMap Call.list?) (replies.filterMap Reply.range?)
  /-- The texts that were interned. -/
  interned : ast.symbols.Interned (calls.filterMap Call.text?) (replies.filterMap Reply.symbol?)

namespace Told

variable {ast : Ast} {calls : List Call} {replies : List Reply}

/-- Nothing was asked of an empty store. -/
theorem empty : Ast.empty.Told [] [] where
  pushed := ⟨.empty, rfl, rfl⟩
  roots := rfl
  listed := ⟨rfl, rfl⟩
  interned := ⟨rfl, rfl⟩

/-- A call is kept by the table that is its own, and is no matter to the others. -/
theorem perform (told : ast.Told calls replies)
    (few : (calls.filterMap Call.push?).length < 2 ^ 32) (call : Call) :
    (ast.perform call).2.Told (calls ++ [call]) (replies ++ [(ast.perform call).1]) := by
  constructor <;> simp only [List.filterMap_append]
  case pushed =>
    cases call with
    | push node span => exact told.pushed.push few node span
    | intern | pushRoot =>
      rw [append_filterMap_singleton rfl, append_filterMap_singleton rfl]
      exact told.pushed.congr rfl rfl rfl
    | pushList handles =>
      rw [append_filterMap_singleton rfl, append_filterMap_singleton rfl, Ast.perform, pushList_lists]
      exact told.pushed.congr rfl rfl rfl
  case roots =>
    rw [← told.roots]
    cases call with
    | pushRoot handle => exact Array.toList_push
    | intern | push => exact (List.append_nil _).symm
    | pushList handles =>
      rw [append_filterMap_singleton rfl, Ast.perform, pushList_lists]
  case listed =>
    cases call with
    | pushList handles => exact listed_pushList told.listed handles
    | intern | push | pushRoot =>
      rw [append_filterMap_singleton rfl, append_filterMap_singleton rfl]
      exact told.listed
  case interned =>
    cases call with
    | intern text => exact told.interned.intern text
    | push | pushRoot =>
      rw [append_filterMap_singleton rfl, append_filterMap_singleton rfl]
      exact told.interned
    | pushList handles =>
      rw [append_filterMap_singleton rfl, append_filterMap_singleton rfl, Ast.perform, pushList_lists]
      exact told.interned

/-- A run of calls is kept with its replies. -/
theorem performAll (told : ast.Told calls replies) {further : List Call}
    (few : ((calls ++ further).filterMap Call.push?).length < 2 ^ 32) :
    (ast.performAll further).2.Told (calls ++ further)
      (replies ++ (ast.performAll further).1) := by
  induction further generalizing ast calls replies with
  | nil => simpa [Ast.performAll] using told
  | cons call further ih =>
    have fewer : (calls.filterMap Call.push?).length < 2 ^ 32 := by
      rw [List.filterMap_append, List.length_append] at few
      omega
    have later := ih (told.perform fewer call) (by rwa [List.append_assoc])
    rwa [List.append_assoc, List.append_assoc] at later

end Told

/-- Calls made before do not change what they gave out when further ones are made. -/
theorem performAll_append (ast : Ast) (calls further : List Call) :
    (ast.performAll (calls ++ further)).1 = (ast.performAll calls).1 ++
      ((ast.performAll calls).2.performAll further).1 := by
  induction calls generalizing ast with
  | nil => rfl
  | cons call calls ih => exact congrArg _ (ih (ast.perform call).2)

/-- What calls on an empty store gave out means what was passed in. The pushes, the lists and the
texts are each numbered from zero. -/
structure InStep (ast : Ast) (calls : List Call) (replies : List Reply) : Prop where
  /-- There is a handle for every push. -/
  handles : (replies.filterMap Reply.handle?).length = (calls.filterMap Call.push?).length
  /-- No two pushes give out one handle. -/
  distinct : (replies.filterMap Reply.handle?).Nodup
  /-- A handle gives the node that was pushed. -/
  node : ∀ (place : Nat) (node : Node) (span : Span) (handle : Handle),
    (calls.filterMap Call.push?)[place]? = some (node, span) →
    (replies.filterMap Reply.handle?)[place]? = some handle → ast.get handle = .ok node
  /-- The spans are those that were pushed, in order. -/
  spans : ast.spans.toList = (calls.filterMap Call.push?).map Prod.snd
  /-- There are as many spans as nodes. -/
  nodeCount : ast.nodeCount = ast.spans.size
  /-- A handle has the span that was pushed at the place where it was given out. -/
  span : ∀ (handle : Handle) (span : Span), ast.span? handle = some span ↔
    ∃ place : Nat, (replies.filterMap Reply.handle?)[place]? = some handle ∧
      ((calls.filterMap Call.push?).map Prod.snd)[place]? = some span
  /-- A handle that was not given out has no span. -/
  stray : ∀ handle, handle ∉ replies.filterMap Reply.handle? → ast.span? handle = none
  /-- The roots are those that were recorded, in order. -/
  roots : ast.roots.toList = calls.filterMap Call.root?
  /-- There is a range for every list. -/
  ranges : (replies.filterMap Reply.range?).length = (calls.filterMap Call.list?).length
  /-- A range gives the handles that were copied, none for none, as long as it and the handles
  before it are numbered in 32 bits. -/
  list : ∀ (place : Nat) (handles : List Handle) (range : HandleRange),
    (calls.filterMap Call.list?)[place]? = some handles →
    (replies.filterMap Reply.range?)[place]? = some range →
    (handles ≠ [] → ((calls.filterMap Call.list?).take (place + 1)).flatten.length < 2 ^ 32) →
    ast.list range = .ok handles
  /-- The symbols are numbered by the first occurrences of their texts. -/
  symbols : (replies.filterMap Reply.symbol?).map Symbol.index =
    (calls.filterMap Call.text?).map (calls.filterMap Call.text?).eraseDups.idxOf
  /-- A symbol gives its text. -/
  text : ∀ (place : Nat) (text : String) (symbol : Symbol),
    (calls.filterMap Call.text?)[place]? = some text →
    (replies.filterMap Reply.symbol?)[place]? = some symbol → ast.resolve symbol = .ok text
  /-- Texts have one symbol exactly if they are equal. -/
  same : ∀ (one other : Nat) (first second : String) (symbol symbol' : Symbol),
    (calls.filterMap Call.text?)[one]? = some first →
    (calls.filterMap Call.text?)[other]? = some second →
    (replies.filterMap Reply.symbol?)[one]? = some symbol →
    (replies.filterMap Reply.symbol?)[other]? = some symbol' →
    (symbol = symbol' ↔ first = second)

/-- Tables that are told by the calls are in step with them. -/
theorem Told.inStep {ast : Ast} {calls : List Call} {replies : List Reply}
    (told : ast.Told calls replies) (nodes : (calls.filterMap Call.push?).length < 2 ^ 32)
    (texts : (calls.filterMap Call.text?).length < 2 ^ 32) : ast.InStep calls replies where
  handles := by rw [told.pushed.handles, DenseList.handlesOf, List.length_mapIdx, List.length_map]
  distinct := by
    rw [told.pushed.handles]
    exact DenseList.handlesOf_nodup (by rwa [List.length_map])
  node _ _ _ _ there given := told.pushed.get nodes there given
  spans := told.pushed.spans
  nodeCount := told.pushed.nodeCount
  span := told.pushed.span?
  stray handle unknown := by
    rw [Option.eq_none_iff_forall_not_mem]
    intro span found
    obtain ⟨place, given, _⟩ := (told.pushed.span? handle span).mp found
    exact unknown (List.mem_of_getElem? given)
  roots := told.roots
  ranges := by rw [told.listed.ranges, List.length_mapIdx]
  list _ _ _ there given few := list_of_listed told.listed there given few
  symbols := told.interned.indices texts
  text _ _ _ there given := by rw [resolve, told.interned.resolve? texts there given]
  same _ _ _ _ _ _ there here given given' :=
    told.interned.symbol_inj texts there here given given'

end Ast

/-- Whatever is asked of an empty store, in any order and as long as fewer than 2^32 nodes are
pushed, texts interned and handles copied, its tables are in step with the calls, and further calls
do not change what was given out. The bound on handles stands at each list, since only the ranges
past it go wrong. -/
theorem store_tables_stay_in_step (calls further : List Ast.Call)
    (nodes : ((calls ++ further).filterMap Ast.Call.push?).length < 2 ^ 32)
    (texts : ((calls ++ further).filterMap Ast.Call.text?).length < 2 ^ 32) :
    (Ast.empty.performAll calls).1 <+: (Ast.empty.performAll (calls ++ further)).1 ∧
      (Ast.empty.performAll (calls ++ further)).2.InStep (calls ++ further)
        (Ast.empty.performAll (calls ++ further)).1 := by
  constructor
  · rw [Ast.performAll_append]
    exact List.prefix_append ..
  · exact (Ast.Told.empty.performAll nodes).inStep nodes texts

/-- The calls that store a call of `f` with one string. -/
def Ast.callsOfCall : List Ast.Call :=
  [.intern "f", .push (.identifier (.ofIndex 0)) ⟨⟨1, 1⟩, 1⟩,
    .intern "x", .push (.str (.ofIndex 1)) ⟨⟨1, 3⟩, 3⟩,
    .pushList [⟨2, 1⟩], .push (.call ⟨3, 0⟩ ⟨0, 1⟩) ⟨⟨1, 1⟩, 6⟩, .pushRoot ⟨7, 0⟩]

/-- After more texts were interned, the nodes of a stored call are found under their handles with
their spans, argument and root, and `f` has its first symbol again. -/
theorem stored_call_stays_in_step :
    let run := Ast.empty.performAll (Ast.callsOfCall ++ [.intern "y", .intern "f"])
    [⟨3, 0⟩, ⟨2, 1⟩, ⟨7, 0⟩].map run.2.get =
        [.ok (.identifier (.ofIndex 0)), .ok (.str (.ofIndex 1)), .ok (.call ⟨3, 0⟩ ⟨0, 1⟩)] ∧
      [⟨3, 0⟩, ⟨2, 1⟩, ⟨7, 0⟩, ⟨3, 1⟩].map run.2.span? =
        [some ⟨⟨1, 1⟩, 1⟩, some ⟨⟨1, 3⟩, 3⟩, some ⟨⟨1, 1⟩, 6⟩, none] ∧
      run.2.list ⟨0, 1⟩ = .ok [⟨2, 1⟩] ∧ run.2.roots.toList = [⟨7, 0⟩] ∧
      (run.1.filterMap Ast.Reply.symbol?).map Symbol.index = [0, 1, 2, 0] := by
  obtain ⟨_, told⟩ := store_tables_stay_in_step Ast.callsOfCall [.intern "y", .intern "f"]
    (by decide) (by decide)
  refine ⟨?_, ?_, told.list 0 [⟨2, 1⟩] ⟨0, 1⟩ rfl rfl (fun _ => by decide), told.roots,
    told.symbols.trans (by decide)⟩
  · have name := told.node 0 (.identifier (.ofIndex 0)) ⟨⟨1, 1⟩, 1⟩ ⟨3, 0⟩ rfl rfl
    have argument := told.node 1 (.str (.ofIndex 1)) ⟨⟨1, 3⟩, 3⟩ ⟨2, 1⟩ rfl rfl
    have call := told.node 2 (.call ⟨3, 0⟩ ⟨0, 1⟩) ⟨⟨1, 1⟩, 6⟩ ⟨7, 0⟩ rfl rfl
    simp only [List.map_cons, List.map_nil, name, argument, call]
  · have name := (told.span ⟨3, 0⟩ ⟨⟨1, 1⟩, 1⟩).mpr ⟨0, rfl, rfl⟩
    have argument := (told.span ⟨2, 1⟩ ⟨⟨1, 3⟩, 3⟩).mpr ⟨1, rfl, rfl⟩
    have call := (told.span ⟨7, 0⟩ ⟨⟨1, 1⟩, 6⟩).mpr ⟨2, rfl, rfl⟩
    have stray := told.stray ⟨3, 1⟩ (by decide)
    simp only [List.map_cons, List.map_nil, name, argument, call, stray]

end Cascade
