import Cascade.Store.Fault
import Cascade.Symbol

/-!
# Fields in a slot of bytes

A slot is a stretch of bytes of fixed length with a position. Fields are put into it and taken out
of it one after the other, numbers with their lowest byte first. A field that does not fit is a
fault and leaves the slot as it was; a handle is two fields, so its tag may have been transferred
when its slot number does not fit.
-/
namespace Cascade

/-- The lowest `count` bytes of a number, the lowest first. -/
def littleEndian : Nat → Nat → List UInt8
  | 0, _ => []
  | count + 1, value => UInt8.ofNat (value % 256) :: littleEndian count (value / 256)

/-- The number whose bytes are given, the lowest first. -/
def ofLittleEndian : List UInt8 → Nat
  | [] => 0
  | byte :: rest => byte.toNat + 256 * ofLittleEndian rest

/-- A number has as many bytes as are asked for. -/
theorem littleEndian_length (count value : Nat) : (littleEndian count value).length = count := by
  induction count generalizing value with
  | zero => rfl
  | succ count ih => simp [littleEndian, ih]

/-- A stretch of bytes with a position. -/
structure Slot where
  /-- The bytes. -/
  bytes : List UInt8
  /-- Where the next field begins. -/
  position : Nat
  deriving DecidableEq, Repr

namespace Slot

/-- A slot at the start of the given bytes. -/
def ofBytes (bytes : List UInt8) : Slot := ⟨bytes, 0⟩

/-- A slot at the start of zero bytes. -/
def zeros (size : Nat) : Slot := ofBytes (List.replicate size 0)

end Slot

/-- Something done to a slot: it may fault, and it leaves the slot changed either way. -/
def SlotAction (α : Type) : Type := Slot → Except Fault α × Slot

namespace SlotAction

/-- Actions follow one another until one faults; what was done before it stays done. -/
instance : Monad SlotAction where
  pure value := fun slot => (.ok value, slot)
  bind action next := fun slot =>
    match action slot with
    | (.ok value, later) => next value later
    | (.error fault, later) => (.error fault, later)

/-- Faults, and leaves the slot alone. -/
def fail {α : Type} (fault : Fault) : SlotAction α := fun slot => (.error fault, slot)

/-- Puts bytes at the position. -/
def putBytes (data : List UInt8) : SlotAction Unit := fun slot =>
  let stop := slot.position + data.length
  if stop ≤ slot.bytes.length then
    (.ok (), ⟨slot.bytes.take slot.position ++ data ++ slot.bytes.drop stop, stop⟩)
  else (.error .rangePastEnd, slot)

/-- Takes bytes from the position. -/
def takeBytes (count : Nat) : SlotAction (List UInt8) := fun slot =>
  let stop := slot.position + count
  if stop ≤ slot.bytes.length then
    (.ok ((slot.bytes.drop slot.position).take count), ⟨slot.bytes, stop⟩)
  else (.error .rangePastEnd, slot)

/-- Puts one byte. -/
def putByte (value : UInt8) : SlotAction Unit := putBytes [value]

/-- Puts a truth value as one byte. -/
def putFlag (value : Bool) : SlotAction Unit := putByte (if value then 1 else 0)

/-- Puts a number of four bytes. -/
def putWord (value : UInt32) : SlotAction Unit := putBytes (littleEndian 4 value.toNat)

/-- Puts a number of eight bytes. -/
def putLong (value : UInt64) : SlotAction Unit := putBytes (littleEndian 8 value.toNat)

/-- Puts a handle as its tag and its slot. -/
def putHandle (value : Handle) : SlotAction Unit := do
  putByte value.tag
  putWord value.slot

/-- Puts a symbol as its number. -/
def putSymbol (value : Symbol) : SlotAction Unit := putWord value.raw

/-- Takes one byte. -/
def takeByte : SlotAction UInt8 := do
  let bytes ← takeBytes 1
  pure (UInt8.ofNat (ofLittleEndian bytes))

/-- Takes a truth value; every byte but zero is true. -/
def takeFlag : SlotAction Bool := do
  let byte ← takeByte
  pure (byte != 0)

/-- Takes a number of four bytes. -/
def takeWord : SlotAction UInt32 := do
  let bytes ← takeBytes 4
  pure (UInt32.ofNat (ofLittleEndian bytes))

/-- Takes a number of eight bytes. -/
def takeLong : SlotAction UInt64 := do
  let bytes ← takeBytes 8
  pure (UInt64.ofNat (ofLittleEndian bytes))

/-- Takes a handle. -/
def takeHandle : SlotAction Handle := do
  let tag ← takeByte
  let slot ← takeWord
  pure ⟨tag, slot⟩

/-- Takes a symbol, which the number of no symbol is not. -/
def takeSymbol : SlotAction Symbol := do
  let raw ← takeWord
  match Symbol.ofRaw? raw with
  | some symbol => pure symbol
  | none => fail (.corruptSymbol raw)

/-- Takes a byte that is the code of an operator or a selector. -/
def takeCode {α : Type} (what : String) (ofCode? : UInt8 → Option α) : SlotAction α := do
  let code ← takeByte
  match ofCode? code with
  | some value => pure value
  | none => fail (.corruptCode what code)

end SlotAction

/-- The types of fields. -/
inductive FieldType where
  | byte | flag | word | long | handle | symbol
  deriving DecidableEq, Repr

/-- A field with its value. -/
inductive Field where
  | byte (value : UInt8)
  | flag (value : Bool)
  | word (value : UInt32)
  | long (value : UInt64)
  | handle (value : Handle)
  | symbol (value : Symbol)
  deriving DecidableEq, Repr

/-- The type of a field. -/
def Field.type : Field → FieldType
  | .byte _ => .byte
  | .flag _ => .flag
  | .word _ => .word
  | .long _ => .long
  | .handle _ => .handle
  | .symbol _ => .symbol

/-- How many bytes a field of the type takes. -/
def FieldType.size : FieldType → Nat
  | .byte => 1
  | .flag => 1
  | .word => 4
  | .long => 8
  | .handle => 5
  | .symbol => 4

/-- Puts a field into a slot. -/
def Field.put : Field → SlotAction Unit
  | .byte value => .putByte value
  | .flag value => .putFlag value
  | .word value => .putWord value
  | .long value => .putLong value
  | .handle value => .putHandle value
  | .symbol value => .putSymbol value

/-- Puts fields into a slot, one after the other. -/
def Field.putAll : List Field → SlotAction Unit
  | [] => pure ()
  | field :: fields => do
    field.put
    putAll fields

/-- Takes a field of the type from a slot. -/
def FieldType.take : FieldType → SlotAction Field
  | .byte => do return .byte (← .takeByte)
  | .flag => do return .flag (← .takeFlag)
  | .word => do return .word (← .takeWord)
  | .long => do return .long (← .takeLong)
  | .handle => do return .handle (← .takeHandle)
  | .symbol => do return .symbol (← .takeSymbol)

end Cascade
