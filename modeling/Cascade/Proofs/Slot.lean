import Cascade.Store.Slot
import Mathlib.Algebra.Group.Nat.Defs

/-!
# Fields come back from their slots

What a field puts into a slot and what a reader takes out of it are two predicates on slot actions:
`Writes` fixes the bytes that replace as many bytes at the position, `Reads` the bytes from which a
value is taken. Both hold before any bytes and after any bytes, so the fields of a payload compose
without regard to where the payload stands. A field that does not fit writes nothing, or only its
tag, and no field changes how long the slot is (`SlotAction.KeepsLength`).
-/
namespace Cascade

/-- The bytes of a number give it back up to its higher bytes. -/
theorem ofLittleEndian_littleEndian (count value : Nat) :
    ofLittleEndian (littleEndian count value) = value % 256 ^ count := by
  induction count generalizing value with
  | zero => simp [littleEndian, ofLittleEndian, Nat.mod_one]
  | succ count ih =>
    have small : value % 256 < 256 := Nat.mod_lt _ (by decide)
    rw [littleEndian, ofLittleEndian, ih, UInt8.toNat_ofNat', Nat.mod_eq_of_lt small,
      Nat.pow_succ', Nat.mod_mul]

/-- The action replaces bytes at the position by the given ones, and stands behind them. -/
def Writes (action : SlotAction Unit) (data : List UInt8) : Prop :=
  ∀ front room rest : List UInt8, room.length = data.length →
    action ⟨front ++ (room ++ rest), front.length⟩ =
      (.ok (), ⟨front ++ (data ++ rest), (front ++ data).length⟩)

/-- The action takes the value from the given bytes, and stands behind them. -/
def Reads {α : Type} (action : SlotAction α) (data : List UInt8) (value : α) : Prop :=
  ∀ front rest : List UInt8, action ⟨front ++ (data ++ rest), front.length⟩ =
    (.ok value, ⟨front ++ (data ++ rest), (front ++ data).length⟩)

namespace SlotAction

variable {α β : Type}

/-- An action that succeeds hands its value and its slot to the next one. -/
theorem bind_of_ok {action : SlotAction α} {slot later : Slot} {value : α}
    (next : α → SlotAction β) (ran : action slot = (.ok value, later)) :
    (action >>= next) slot = next value later := by
  simp only [bind, ran]

/-- Doing nothing writes no bytes. -/
theorem writes_pure : Writes (pure ()) [] := by
  intro front room rest same
  obtain rfl := List.length_eq_zero_iff.mp same
  rw [List.append_nil]
  rfl

/-- What two actions write stands one behind the other. -/
theorem writes_bind {first second : SlotAction Unit} {data later : List UInt8}
    (head : Writes first data) (tail : Writes second later) :
    Writes (first >>= fun _ => second) (data ++ later) := by
  intro front room rest same
  rw [List.length_append] at same
  have parts : room = room.take data.length ++ room.drop data.length :=
    (List.take_append_drop _ _).symm
  have near : (room.take data.length).length = data.length := by
    rw [List.length_take]
    omega
  have far : (room.drop data.length).length = later.length := by
    rw [List.length_drop]
    omega
  rw [parts, List.append_assoc, bind_of_ok _ (head front _ _ near), ← List.append_assoc,
    tail (front ++ data) _ rest far]
  simp only [List.append_assoc]

/-- Bytes that fit are put where they belong. -/
theorem writes_putBytes (data : List UInt8) : Writes (putBytes data) data := by
  intro front room rest same
  have fits : front.length + data.length ≤ (front ++ (room ++ rest)).length := by
    simp only [List.length_append]
    omega
  have behind : (front ++ (room ++ rest)).drop (front.length + data.length) = rest := by
    rw [← same, ← List.append_assoc, ← List.length_append, List.drop_left]
  simp only [putBytes]
  rw [if_pos fits, List.take_left, behind, List.append_assoc, List.length_append]

/-- Giving a value out takes no bytes. -/
theorem reads_pure (value : α) : Reads (pure value) [] value := by
  intro front rest
  rw [List.append_nil]
  rfl

/-- Two readers take their bytes one behind the other. -/
theorem reads_bind {action : SlotAction α} {next : α → SlotAction β} {data later : List UInt8}
    {value : α} {result : β} (head : Reads action data value)
    (tail : Reads (next value) later result) : Reads (action >>= next) (data ++ later) result := by
  intro front rest
  rw [List.append_assoc, bind_of_ok _ (head front (later ++ rest)), ← List.append_assoc,
    tail (front ++ data) rest]
  simp only [List.append_assoc]

/-- A value computed from what was read is read from the same bytes. -/
theorem reads_map {action : SlotAction α} {next : α → SlotAction β} {data : List UInt8} {value : α}
    {result : β} (head : Reads action data value) (tail : Reads (next value) [] result) :
    Reads (action >>= next) data result := by
  have both := reads_bind head tail
  rwa [List.append_nil] at both

/-- As many bytes as there are in the data are taken whole. -/
theorem reads_takeBytes (data : List UInt8) : Reads (takeBytes data.length) data data := by
  intro front rest
  have fits : front.length + data.length ≤ (front ++ (data ++ rest)).length := by
    simp only [List.length_append]
    omega
  simp only [takeBytes]
  rw [if_pos fits, List.drop_left, List.take_left, List.length_append]

/-- The bytes of a number that fits its width are read as that number. -/
theorem reads_littleEndian {count value : Nat} (fits : value < 256 ^ count)
    {next : List UInt8 → SlotAction α} {result : α}
    (made : ∀ bytes, ofLittleEndian bytes = value → Reads (next bytes) [] result) :
    Reads (takeBytes count >>= next) (littleEndian count value) result := by
  have taken := reads_takeBytes (littleEndian count value)
  rw [littleEndian_length] at taken
  apply reads_map taken
  apply made
  rw [ofLittleEndian_littleEndian, Nat.mod_eq_of_lt fits]

/-- A byte is read back. -/
theorem reads_takeByte (value : UInt8) : Reads takeByte [value] value := by
  apply reads_map (reads_takeBytes [value])
  have same : UInt8.ofNat (ofLittleEndian [value]) = value := by
    simp [ofLittleEndian]
  rw [same]
  exact reads_pure value

/-- A truth value is read back. -/
theorem reads_takeFlag (value : Bool) : Reads takeFlag [if value then 1 else 0] value := by
  apply reads_map (reads_takeByte _)
  cases value <;> exact reads_pure _

/-- A number of four bytes is read back. -/
theorem reads_takeWord (value : UInt32) : Reads takeWord (littleEndian 4 value.toNat) value := by
  apply reads_littleEndian value.toNat_lt
  intro bytes same
  rw [same, UInt32.ofNat_toNat]
  exact reads_pure value

/-- A number of eight bytes is read back. -/
theorem reads_takeLong (value : UInt64) : Reads takeLong (littleEndian 8 value.toNat) value := by
  apply reads_littleEndian value.toNat_lt
  intro bytes same
  rw [same, UInt64.ofNat_toNat]
  exact reads_pure value

/-- A handle is read back. -/
theorem reads_takeHandle (value : Handle) :
    Reads takeHandle ([value.tag] ++ littleEndian 4 value.slot.toNat) value := by
  apply reads_bind (reads_takeByte value.tag)
  apply reads_map (reads_takeWord value.slot)
  exact reads_pure value

/-- A symbol is read back, since its number is not the one that is no symbol. -/
theorem reads_takeSymbol (value : Symbol) :
    Reads takeSymbol (littleEndian 4 value.raw.toNat) value := by
  apply reads_map (reads_takeWord value.raw)
  have known : Symbol.ofRaw? value.raw = some value := by
    rw [Symbol.ofRaw?, dif_pos value.valid]
  simp only [known]
  exact reads_pure value

/-- The value of a code is read from the code. -/
theorem reads_takeCode {what : String} {ofCode? : UInt8 → Option α} {code : UInt8} {value : α}
    (known : ofCode? code = some value) : Reads (takeCode what ofCode?) [code] value := by
  apply reads_map (reads_takeByte code)
  simp only [known]
  exact reads_pure value

/-- The action leaves the slot as long as it was, whether it faults or not. -/
def KeepsLength (action : SlotAction α) : Prop :=
  ∀ slot, (action slot).2.bytes.length = slot.bytes.length

/-- Putting bytes keeps the length, whether they fit or not. -/
theorem keepsLength_putBytes (data : List UInt8) : KeepsLength (putBytes data) := by
  intro slot
  simp only [putBytes]
  split
  · simp only [List.length_append, List.length_take, List.length_drop]
    omega
  · rfl

/-- Two actions that keep the length keep it together. -/
theorem keepsLength_bind {action : SlotAction α} {next : α → SlotAction β}
    (head : KeepsLength action) (tail : ∀ value, KeepsLength (next value)) :
    KeepsLength (action >>= next) := by
  intro slot
  have first := head slot
  simp only [bind]
  split
  · next value later ran =>
    rw [ran] at first
    exact (tail value later).trans first
  · next fault later ran =>
    rw [ran] at first
    exact first

end SlotAction

namespace Field

/-- Putting a field keeps the length of the slot. -/
theorem keepsLength_put (field : Field) : SlotAction.KeepsLength field.put := by
  cases field with
  | handle value =>
    exact SlotAction.keepsLength_bind (SlotAction.keepsLength_putBytes _)
      fun _ => SlotAction.keepsLength_putBytes _
  | byte | flag | word | long | symbol => exact SlotAction.keepsLength_putBytes _

/-- Putting fields keeps the length of the slot. -/
theorem keepsLength_putAll (fields : List Field) : SlotAction.KeepsLength (putAll fields) := by
  induction fields with
  | nil => exact fun _ => rfl
  | cons field fields ih => exact SlotAction.keepsLength_bind field.keepsLength_put fun _ => ih

/-- The bytes of a field in a payload. -/
def bytes : Field → List UInt8
  | .byte value => [value]
  | .flag value => [if value then 1 else 0]
  | .word value => littleEndian 4 value.toNat
  | .long value => littleEndian 8 value.toNat
  | .handle value => [value.tag] ++ littleEndian 4 value.slot.toNat
  | .symbol value => littleEndian 4 value.raw.toNat

/-- A field has as many bytes as its type says. -/
theorem bytes_length (field : Field) : field.bytes.length = field.type.size := by
  cases field <;> simp [bytes, type, FieldType.size, littleEndian_length]

/-- Putting a field writes its bytes. -/
theorem writes_put (field : Field) : Writes field.put field.bytes := by
  cases field with
  | handle value =>
    exact SlotAction.writes_bind (SlotAction.writes_putBytes _) (SlotAction.writes_putBytes _)
  | byte | flag | word | long | symbol => exact SlotAction.writes_putBytes _

/-- Putting fields writes their bytes in order. -/
theorem writes_putAll (fields : List Field) : Writes (putAll fields) (fields.flatMap bytes) := by
  induction fields with
  | nil => exact SlotAction.writes_pure
  | cons field fields ih => exact SlotAction.writes_bind field.writes_put ih

/-- Fields put into zero bytes stand at the front, and the bytes behind them stay zero. -/
theorem putAll_zeros {fields : List Field} {size : Nat}
    (fits : (fields.flatMap bytes).length ≤ size) :
    putAll fields (.zeros size) =
      (.ok (), ⟨fields.flatMap bytes ++ List.replicate (size - (fields.flatMap bytes).length) 0,
        (fields.flatMap bytes).length⟩) := by
  have room : List.replicate size (0 : UInt8) =
      List.replicate (fields.flatMap bytes).length 0 ++
        List.replicate (size - (fields.flatMap bytes).length) 0 := by
    rw [List.replicate_append_replicate, Nat.add_sub_cancel' fits]
  have written := writes_putAll fields [] (List.replicate (fields.flatMap bytes).length 0)
    (List.replicate (size - (fields.flatMap bytes).length) 0) List.length_replicate
  rw [← room] at written
  exact written

end Field

end Cascade
