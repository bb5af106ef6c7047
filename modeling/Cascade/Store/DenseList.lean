import Cascade.Store.Slot
import Cascade.Text.Quoted

/-!
# Dense lists of tagged unions

A dense list keeps values of a tagged union as bytes, one buffer for each size class, so a small
variant never takes the room of a large one. Appending puts the payload of the value at the end of
the buffer of its class and gives out a handle: the tag of the value and the number of values the
class held before. Nothing is ever removed, so a handle stays good.

A value whose payload does not fit its declared size is a fault. Its buffer has grown by then, and
what was written stays in it, but no value is counted and no handle is given out.

A handle has 32 bits for its number, so a list is meant for fewer than 2^32 values.
-/
namespace Cascade

/-- A union whose values can be kept as bytes. -/
structure TaggedUnion (α : Type) extends UnionTables where
  /-- The tag of a value. -/
  tag : α → UInt8
  /-- Puts the payload of a value into a slot. -/
  encode : α → SlotAction Unit
  /-- Takes the payload of the variant with the given tag from a slot. -/
  decode : UInt8 → SlotAction α

/-- How many bytes a list uses, and how many it would use if all values were equally large. -/
structure Footprint where
  /-- The bytes of all buffers. -/
  actual : Nat
  /-- The number of values times the largest payload size. -/
  naive : Nat
  deriving DecidableEq, Repr

/-- The values of one size class, one behind the other. -/
structure ClassBuffer where
  /-- The payloads. -/
  bytes : Array UInt8
  /-- How many values the buffer holds; a number of 32 bits while they are fewer than 2^32. -/
  count : Nat
  deriving DecidableEq, Repr

namespace ClassBuffer

/-- A buffer without values. -/
def empty : ClassBuffer := ⟨#[], 0⟩

/-- The buffer with more bytes behind the others and more values counted. -/
def grow (buffer : ClassBuffer) (payload : List UInt8) (values : Nat) : ClassBuffer :=
  ⟨buffer.bytes ++ payload, buffer.count + values⟩

/-- The buffers with one of them grown, which is taken out of its place for as long as it grows. -/
def growAt {n : Nat} (buffers : Vector ClassBuffer n) (cls : Fin n) (payload : List UInt8)
    (values : Nat) : Vector ClassBuffer n :=
  let (buffer, others) := buffers.swapAt cls empty
  others.set cls (buffer.grow payload values)

/-- Growing one buffer puts the grown one in its place. -/
theorem growAt_eq_set {n : Nat} (buffers : Vector ClassBuffer n) (cls : Fin n)
    (payload : List UInt8) (values : Nat) :
    growAt buffers cls payload values = buffers.set cls ((buffers.get cls).grow payload values) := by
  simp [growAt, Vector.swapAt, Vector.get, Vector.set]

end ClassBuffer

/-- A list of values of a union, kept as bytes. -/
structure DenseList {α : Type} (union : TaggedUnion α) where
  /-- The size classes of the union. -/
  layout : Layout
  /-- The layout is the one the union declares. -/
  accepted : union.layout = .ok layout
  /-- A buffer for each size class. -/
  buffers : Vector ClassBuffer layout.classCount
  /-- How many values have been appended. -/
  length : Nat

namespace DenseList

variable {α : Type} {union : TaggedUnion α}

/-- The list without values, if the union has a layout. -/
def new? (union : TaggedUnion α) : Except LayoutError (DenseList union) :=
  match accepted : union.layout with
  | .ok layout => .ok ⟨layout, accepted, Vector.replicate _ .empty, 0⟩
  | .error error => .error error

/-- Appends a value and gives out its handle. -/
def append (list : DenseList union) (value : α) : Except Fault Handle × DenseList union :=
  let tag := union.tag value
  match list.layout.classOf? tag with
  | none => (.error (.tagOutOfRange tag list.layout.variantCount), list)
  | some cls =>
    let (written, slot) := union.encode value (.zeros (list.layout.classSize cls))
    match written with
    | .error fault =>
      (.error fault, { list with buffers := ClassBuffer.growAt list.buffers cls slot.bytes 0 })
    | .ok () =>
      (.ok ⟨tag, UInt32.ofNat (list.buffers.get cls).count⟩,
        { list with
          buffers := ClassBuffer.growAt list.buffers cls slot.bytes 1
          length := list.length + 1 })

/-- The value at a handle. -/
def get (list : DenseList union) (handle : Handle) : Except Fault α :=
  match list.layout.classOf? handle.tag with
  | none => .error (.tagOutOfRange handle.tag list.layout.variantCount)
  | some cls =>
    let buffer := list.buffers.get cls
    if handle.slot.toNat < buffer.count then
      let size := list.layout.classSize cls
      let start := handle.slot.toNat * size
      if start + size ≤ buffer.bytes.size then
        (union.decode handle.tag (.ofBytes (buffer.bytes.extract start (start + size)).toList)).1
      else .error .rangePastEnd
    else .error (.slotOutOfRange handle union.name buffer.count)

/-- Whether no value has been appended. -/
def isEmpty (list : DenseList union) : Bool := list.length == 0

/-- How many bytes the list uses. -/
def footprint (list : DenseList union) : Footprint where
  actual := list.buffers.toList.foldl (fun total buffer => total + buffer.bytes.size) 0
  naive := list.length * list.layout.maxSize

/-- The union, the number of values and the number of size classes, on one line. -/
def summary (list : DenseList union) : String :=
  s!"DenseList \x7b union: {Text.quote union.name}, len: {list.length}, classes: {list.layout.classCount} \x7d"

end DenseList

end Cascade
