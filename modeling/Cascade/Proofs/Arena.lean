import Cascade.Ast.Node
import Cascade.Proofs.DenseList
import Cascade.Proofs.Slot

/-!
# A dense list is a stable store

The payload of every node is the bytes of its fields and zeros up to its declared size, and reading
it under the tag of the node gives the node back, so nodes are a lawful union. A run of appends to a
new list of a lawful union is then described completely: which handle each append gives out, and
what that handle reads at every later moment.
-/
namespace Cascade

namespace Node

/-- The declared size of a node is the size of its variant. -/
theorem union_size (node : Node) : union.size node = node.kind.size := by
  cases node <;> rfl

/-- The fields of a node fit the size of its variant. -/
theorem fields_fit (node : Node) : (node.fields.flatMap Field.bytes).length ≤ node.kind.size := by
  cases node <;>
    simp [fields, Field.bytes_length, Field.type, FieldType.size, kind, NodeKind.size]

/-- The payload of a node is the bytes of its fields with zeros behind them. -/
theorem union_payload (node : Node) :
    union.payload node = node.fields.flatMap Field.bytes ++
      List.replicate (node.kind.size - (node.fields.flatMap Field.bytes).length) 0 := by
  have put := Field.putAll_zeros (fields_fit node)
  rw [← union_size] at put ⊢
  exact congrArg (fun result => result.2.bytes) put

/-- Reading the fields of a node under its variant gives the node back. -/
theorem reads_take (node : Node) :
    Reads (take node.kind) (node.fields.flatMap Field.bytes) node := by
  cases node with
  | bool value =>
    exact SlotAction.reads_bind (SlotAction.reads_takeFlag value) (SlotAction.reads_pure _)
  | int value =>
    exact SlotAction.reads_bind (SlotAction.reads_takeLong value) (SlotAction.reads_pure _)
  | str text =>
    exact SlotAction.reads_bind (SlotAction.reads_takeSymbol text) (SlotAction.reads_pure _)
  | identifier name =>
    exact SlotAction.reads_bind (SlotAction.reads_takeSymbol name) (SlotAction.reads_pure _)
  | binary op lhs rhs =>
    apply SlotAction.reads_bind (SlotAction.reads_takeCode (BinaryOp.ofCode?_code op))
    apply SlotAction.reads_bind (SlotAction.reads_takeHandle lhs)
    exact SlotAction.reads_bind (SlotAction.reads_takeHandle rhs) (SlotAction.reads_pure _)
  | unary op operand =>
    apply SlotAction.reads_bind (SlotAction.reads_takeCode (UnaryOp.ofCode?_code op))
    exact SlotAction.reads_bind (SlotAction.reads_takeHandle operand) (SlotAction.reads_pure _)
  | index target position =>
    apply SlotAction.reads_bind (SlotAction.reads_takeHandle target)
    exact SlotAction.reads_bind (SlotAction.reads_takeHandle position) (SlotAction.reads_pure _)
  | call callee arguments =>
    apply SlotAction.reads_bind (SlotAction.reads_takeHandle callee)
    apply SlotAction.reads_bind (SlotAction.reads_takeWord arguments.start)
    exact SlotAction.reads_bind (SlotAction.reads_takeWord arguments.length)
      (SlotAction.reads_pure _)
  | primitive access target =>
    apply SlotAction.reads_bind (SlotAction.reads_takeCode (Access.ofCode?_code access))
    exact SlotAction.reads_bind (SlotAction.reads_takeHandle target) (SlotAction.reads_pure _)
  | field target name =>
    apply SlotAction.reads_bind (SlotAction.reads_takeHandle target)
    exact SlotAction.reads_bind (SlotAction.reads_takeSymbol name) (SlotAction.reads_pure _)

/-- Nodes fit their declared sizes and are inverted by reading, whatever their fields are. -/
theorem union_lawful : union.Lawful where
  declared node := by
    change node.kind.tag.toNat < NodeKind.all.length
    cases node.kind <;> decide
  fits node := by
    rw [union_size]
    exact congrArg Prod.fst (Field.putAll_zeros (fields_fit node))
  exact_length node := by
    rw [union_payload, union_size, List.length_append, List.length_replicate,
      Nat.add_sub_cancel' (fields_fit node)]
  inverted node := by
    have decoded : union.decode (union.tag node) = take node.kind := by
      simp only [union, NodeKind.ofTag?_tag]
    have read := reads_take node []
      (List.replicate (node.kind.size - (node.fields.flatMap Field.bytes).length) 0)
    rw [decoded, union_payload]
    exact congrArg Prod.fst read

end Node

namespace DenseList

variable {α : Type} {union : TaggedUnion α}

/-- The list keeps the given appends: what they give out, and what it reads at every later moment.
The appends are numbered from zero. -/
structure Keeps (list : DenseList union) (values : List α) (handles : List Handle) : Prop where
  /-- Every append gives out a handle. -/
  given : ∀ (index : Nat) (value : α) (handle : Handle), values[index]? = some value →
    handles[index]? = some handle →
    ((list.after (values.take index)).append value).1 = .ok handle
  /-- There is a handle for every append. -/
  all_given : handles.length = values.length
  /-- After any number of further appends a handle reads its value. -/
  stable : ∀ (index moment : Nat) (value : α) (handle : Handle), index < moment →
    values[index]? = some value → handles[index]? = some handle →
    (list.after (values.take moment)).get handle = .ok value
  /-- No two appends give out one handle. -/
  distinct : handles.Nodup
  /-- A handle has the tag of its value. -/
  tag : ∀ (index : Nat) (value : α) (handle : Handle), values[index]? = some value →
    handles[index]? = some handle → handle.tag = union.tag value
  /-- A slot is the number of earlier appends of the same payload size. -/
  slot : ∀ (index : Nat) (value : α) (handle : Handle), values[index]? = some value →
    handles[index]? = some handle → handle.slot.toNat =
      (values.take index).countP fun earlier => union.size earlier == union.size value
  /-- The length of the list is the number of appends. -/
  length : ∀ moment : Nat, moment ≤ values.length →
    (list.after (values.take moment)).length = moment

/-- The handles that appending the values to an empty list gives out. -/
def handlesOf (union : TaggedUnion α) (values : List α) : List Handle :=
  values.mapIdx fun index value => union.handleAfter (values.take index) value

/-- Around an index a list is what comes before, the value there and what comes after. -/
theorem take_cons_drop {values : List α} {index : Nat} {value : α}
    (found : values[index]? = some value) :
    values = values.take index ++ value :: values.drop (index + 1) := by
  obtain ⟨inside, rfl⟩ := List.getElem?_eq_some_iff.mp found
  rw [← List.drop_eq_getElem_cons inside, List.take_append_drop]

/-- The handle at an index is the one after the values before it. -/
theorem handlesOf_getElem? {values : List α} {index : Nat} {value : α} {handle : Handle}
    (there : values[index]? = some value) (found : (handlesOf union values)[index]? = some handle) :
    handle = union.handleAfter (values.take index) value := by
  rw [handlesOf, List.getElem?_mapIdx, there] at found
  exact (Option.some.inj found).symm

/-- Handles of different appends differ. -/
theorem handlesOf_nodup {values : List α} (few : values.length < 2 ^ 32) :
    (handlesOf union values).Nodup := by
  rw [List.Nodup, List.pairwise_iff_getElem]
  intro first second inFirst inSecond before
  simp only [handlesOf, List.length_mapIdx] at inFirst inSecond
  simp only [handlesOf, List.getElem_mapIdx]
  have earlier : (values.take second)[first]? = some values[first] := by
    rw [List.getElem?_take_of_lt before, List.getElem?_eq_getElem inFirst]
  have parts := take_cons_drop earlier
  rw [List.take_take, Nat.min_eq_left (Nat.le_of_lt before)] at parts
  rw [parts]
  apply TaggedUnion.handleAfter_ne
  rw [← parts, List.length_take]
  omega

/-- A list that holds nothing keeps all appends of a lawful union. -/
theorem keeps_of_empty (lawful : union.Lawful) {list : DenseList union} (empty : list.Holds [])
    {values : List α} (few : values.length < 2 ^ 32) :
    list.Keeps values (handlesOf union values) := by
  have holds : ∀ moment, (list.after (values.take moment)).Holds (values.take moment) :=
    fun moment => empty.after lawful (values.take moment)
  have fewer : ∀ moment, (values.take moment).length < 2 ^ 32 := fun moment =>
    Nat.lt_of_le_of_lt (List.length_take_le' moment values) few
  constructor
  case given =>
    intro index value handle there found
    rw [handlesOf_getElem? there found]
    exact ((holds index).append lawful value).1
  case all_given => exact List.length_mapIdx
  case stable =>
    intro index moment value handle later there found
    have present : (values.take moment)[index]? = some value := by
      rw [List.getElem?_take_of_lt later, there]
    have parts := take_cons_drop present
    rw [List.take_take, Nat.min_eq_left (Nat.le_of_lt later)] at parts
    have held := holds moment
    rw [parts] at held ⊢
    rw [handlesOf_getElem? there found]
    exact held.get lawful (fewer index)
  case distinct => exact handlesOf_nodup few
  case tag =>
    intro index value handle there found
    rw [handlesOf_getElem? there found]
    rfl
  case slot =>
    intro index value handle there found
    rw [handlesOf_getElem? there found, TaggedUnion.handleAfter_slot (fewer index)]
    rfl
  case length =>
    intro moment inside
    rw [(holds moment).length, List.length_take, Nat.min_eq_left inside]

/-- A union with a layout has a new list. -/
theorem new?_of_layout {layout : Layout} (accepted : union.layout = .ok layout) :
    ∃ list, new? union = .ok list := by
  unfold new?
  split
  · exact ⟨_, rfl⟩
  · next error refused => rw [accepted] at refused; cases refused

end DenseList

namespace Arena

/-- The arena without nodes is the new list of nodes. -/
theorem new?_union : DenseList.new? Node.union = .ok Arena.empty := rfl

end Arena

/-- The dense list of every lawful union with a layout keeps all appends at distinct handles, and
nodes with any fields are such a union. -/
theorem store_keeps_appends :
    (∀ {α : Type} (union : TaggedUnion α) (layout : Layout), union.layout = .ok layout →
      union.Lawful → ∃ list, DenseList.new? union = .ok list ∧
        ∀ values : List α, values.length < 2 ^ 32 → ∃ handles, list.Keeps values handles) ∧
    (∀ nodes : List Node, nodes.length < 2 ^ 32 → ∃ handles, Arena.empty.Keeps nodes handles) := by
  constructor
  · intro α union layout accepted lawful
    obtain ⟨list, fresh⟩ := DenseList.new?_of_layout accepted
    refine ⟨list, fresh, fun values few => ⟨DenseList.handlesOf union values, ?_⟩⟩
    exact DenseList.keeps_of_empty lawful (DenseList.holds_new fresh) few
  · intro nodes few
    have empty := DenseList.holds_new Arena.new?_union
    exact ⟨DenseList.handlesOf Node.union nodes,
      DenseList.keeps_of_empty Node.union_lawful empty few⟩

/-- Names and strings share a payload size, so their slots are counted together. -/
theorem store_keeps_mixed_appends :
    (∃ list, DenseList.new? Node.union = .ok list ∧ ∃ handles, list.Keeps
      [.identifier (.ofIndex 0), .str (.ofIndex 1), .binary .add ⟨3, 0⟩ ⟨2, 1⟩, .int 7,
        .identifier (.ofIndex 2)] handles) ∧
      ∃ handles, Arena.empty.Keeps [.bool true, .unary .not ⟨0, 0⟩, .bool false] handles := by
  obtain ⟨lists, nodes⟩ := store_keeps_appends
  obtain ⟨list, fresh, keeps⟩ := lists Node.union Node.layout Node.layout_union Node.union_lawful
  exact ⟨⟨list, fresh, keeps _ (by decide)⟩, nodes _ (by decide)⟩

end Cascade
