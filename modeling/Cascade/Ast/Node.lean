import Cascade.Operator
import Cascade.Store.DenseList

/-!
# Stored nodes

A node is one step of an expression as the store keeps it: its children are handles, its texts are
symbols, and the arguments of a call are a range of a side list. Every payload has a fixed size,
which leaves room for its fields, so a node always fits.
-/
namespace Cascade

/-- A run of handles in a side list. -/
structure HandleRange where
  /-- Where the run starts. -/
  start : UInt32
  /-- How many handles it has. -/
  length : UInt32
  deriving DecidableEq, Repr

namespace HandleRange

/-- The run of no handles. -/
def empty : HandleRange := ⟨0, 0⟩

/-- Whether the run has no handles. -/
def isEmpty (range : HandleRange) : Bool := range.length == 0

end HandleRange

/-- One step of an expression, its children given by their handles. -/
inductive Node where
  | bool (value : Bool)
  | int (value : UInt64)
  | str (text : Symbol)
  | identifier (name : Symbol)
  | binary (op : BinaryOp) (lhs rhs : Handle)
  | unary (op : UnaryOp) (operand : Handle)
  | index (target position : Handle)
  | call (callee : Handle) (arguments : HandleRange)
  | primitive (access : Access) (target : Handle)
  | field (target : Handle) (name : Symbol)
  deriving DecidableEq, Repr

/-- The variants of nodes. -/
inductive NodeKind where
  | bool | int | str | identifier | binary | unary | index | call | primitive | field
  deriving DecidableEq, Repr

namespace NodeKind

/-- Every variant in the order of the tags. -/
def all : List NodeKind :=
  [.bool, .int, .str, .identifier, .binary, .unary, .index, .call, .primitive, .field]

/-- The tag of the variant. -/
def tag : NodeKind → UInt8
  | .bool => 0 | .int => 1 | .str => 2 | .identifier => 3 | .binary => 4
  | .unary => 5 | .index => 6 | .call => 7 | .primitive => 8 | .field => 9

/-- The variant of a tag. -/
def ofTag? (tag : UInt8) : Option NodeKind := all[tag.toNat]?

/-- How many bytes the payload of the variant takes. -/
def size : NodeKind → Nat
  | .bool => 1 | .int => 8 | .str => 4 | .identifier => 4 | .binary => 20
  | .unary => 12 | .index => 16 | .call => 16 | .primitive => 12 | .field => 12

/-- Every variant is found under its tag. -/
theorem ofTag?_tag (kind : NodeKind) : ofTag? kind.tag = some kind := by cases kind <;> rfl

end NodeKind

namespace Node

/-- The variant of the node. -/
def kind : Node → NodeKind
  | .bool _ => .bool
  | .int _ => .int
  | .str _ => .str
  | .identifier _ => .identifier
  | .binary .. => .binary
  | .unary .. => .unary
  | .index .. => .index
  | .call .. => .call
  | .primitive .. => .primitive
  | .field .. => .field

/-- The fields of the payload, in order. -/
def fields : Node → List Field
  | .bool value => [.flag value]
  | .int value => [.long value]
  | .str text => [.symbol text]
  | .identifier name => [.symbol name]
  | .binary op lhs rhs => [.byte op.code, .handle lhs, .handle rhs]
  | .unary op operand => [.byte op.code, .handle operand]
  | .index target position => [.handle target, .handle position]
  | .call callee arguments => [.handle callee, .word arguments.start, .word arguments.length]
  | .primitive access target => [.byte access.code, .handle target]
  | .field target name => [.handle target, .symbol name]

/-- Takes the payload of a variant from a slot. -/
def take : NodeKind → SlotAction Node
  | .bool => do return .bool (← .takeFlag)
  | .int => do return .int (← .takeLong)
  | .str => do return .str (← .takeSymbol)
  | .identifier => do return .identifier (← .takeSymbol)
  | .binary => do
    let op ← .takeCode "binary operator" BinaryOp.ofCode?
    let lhs ← .takeHandle
    let rhs ← .takeHandle
    return .binary op lhs rhs
  | .unary => do
    let op ← .takeCode "unary operator" UnaryOp.ofCode?
    let operand ← .takeHandle
    return .unary op operand
  | .index => do
    let target ← .takeHandle
    let position ← .takeHandle
    return .index target position
  | .call => do
    let callee ← .takeHandle
    let start ← .takeWord
    let length ← .takeWord
    return .call callee ⟨start, length⟩
  | .primitive => do
    let access ← .takeCode "primitive selector" Access.ofCode?
    let target ← .takeHandle
    return .primitive access target
  | .field => do
    let target ← .takeHandle
    let name ← .takeSymbol
    return .field target name

/-- The nodes as a union that can be kept as bytes. -/
def union : TaggedUnion Node where
  name := "AstItem"
  tags := NodeKind.all.map NodeKind.tag
  sizes := NodeKind.all.map NodeKind.size
  tag node := node.kind.tag
  encode node := Field.putAll node.fields
  decode tag :=
    match NodeKind.ofTag? tag with
    | some kind => take kind
    | none => .fail (.tagOutOfRange tag NodeKind.all.length)

/-- The size classes of nodes. -/
def layout : Layout := ⟨NodeKind.all.map NodeKind.size⟩

/-- The tables of nodes make a layout. -/
theorem layout_union : union.layout = .ok layout := rfl

/-- The children that the payload names, in source order; the arguments of a call are not. -/
def directChildren : Node → List Handle
  | .bool _ | .int _ | .str _ | .identifier _ => []
  | .binary _ lhs rhs => [lhs, rhs]
  | .unary _ operand => [operand]
  | .index target position => [target, position]
  | .call callee _ => [callee]
  | .primitive _ target => [target]
  | .field target _ => [target]

end Node

/-- A dense list of nodes. -/
abbrev Arena := DenseList Node.union

namespace Arena

/-- The arena without nodes. -/
def empty : Arena := ⟨Node.layout, Node.layout_union, Vector.replicate _ .empty, 0⟩

/-- Every node has a size class, and its fields fit the size of that class. -/
theorem encode_fits (node : Node) :
    ∃ cls, Node.layout.classOf? (Node.union.tag node) = some cls ∧
      (Node.union.encode node (.zeros (Node.layout.classSize cls))).1 = .ok () := by
  cases node <;> exact ⟨_, rfl, rfl⟩

/-- Appending a node never faults. -/
theorem append_ok (arena : Arena) (node : Node) : ∃ handle, (arena.append node).1 = .ok handle := by
  obtain ⟨layout, accepted, buffers, length⟩ := arena
  obtain rfl : layout = Node.layout := by
    rw [Node.layout_union] at accepted
    injection accepted with same
    exact same.symm
  obtain ⟨cls, found, fits⟩ := encode_fits node
  refine ⟨⟨Node.union.tag node, UInt32.ofNat (buffers.get cls).count⟩, ?_⟩
  unfold DenseList.append
  simp only [found]
  split
  · next fault stuck => rw [fits] at stuck; cases stuck
  · rfl

/-- Appends a node and gives out its handle. -/
def push (arena : Arena) (node : Node) : Handle × Arena :=
  match result : arena.append node with
  | (.ok handle, grown) => (handle, grown)
  | (.error fault, _) => absurd (append_ok arena node) (by simp [result])

end Arena

end Cascade
