import Cascade.Proofs.Slot
import Mathlib.Algebra.GroupWithZero.Nat

/-!
# Runs of fields

Fields that are put into a slot one after the other are read back in the same order by their types,
and the bytes behind them stay as they were. A field that does not fit is a fault, and nothing of it
is put but the tag of a handle, so whoever goes on after a fault still finds all that was put before
(`Slot.Holds`): what a field leaves behind (`Field.landed`) is known from the slot alone.
-/
namespace Cascade

/-- Takes fields of the types from a slot, one after the other. -/
def FieldType.takeAll : List FieldType → SlotAction (List Field)
  | [] => pure []
  | type :: types => do
    let field ← type.take
    let fields ← takeAll types
    return field :: fields

/-- Takes fields of the types from a slot, and goes on when one cannot be taken. -/
def FieldType.takeEach (slot : Slot) : List FieldType → List (Except Fault Field) × Slot
  | [] => ([], slot)
  | type :: types =>
    let (result, later) := type.take slot
    let (results, last) := takeEach later types
    (result :: results, last)

/-- Puts fields into a slot, and goes on when one does not fit. -/
def Field.putEach (slot : Slot) : List Field → List (Except Fault Unit) × Slot
  | [] => ([], slot)
  | field :: fields =>
    let (result, later) := field.put slot
    let (results, last) := putEach later fields
    (result :: results, last)

/-- A field is read back by its type. -/
theorem Field.reads_take (field : Field) : Reads field.type.take field.bytes field := by
  cases field with
  | byte value =>
    exact SlotAction.reads_map (SlotAction.reads_takeByte value) (SlotAction.reads_pure _)
  | flag value =>
    exact SlotAction.reads_map (SlotAction.reads_takeFlag value) (SlotAction.reads_pure _)
  | word value =>
    exact SlotAction.reads_map (SlotAction.reads_takeWord value) (SlotAction.reads_pure _)
  | long value =>
    exact SlotAction.reads_map (SlotAction.reads_takeLong value) (SlotAction.reads_pure _)
  | handle value =>
    exact SlotAction.reads_map (SlotAction.reads_takeHandle value) (SlotAction.reads_pure _)
  | symbol value =>
    exact SlotAction.reads_map (SlotAction.reads_takeSymbol value) (SlotAction.reads_pure _)

/-- Fields are read back by their types. -/
theorem Field.reads_takeAll (fields : List Field) :
    Reads (FieldType.takeAll (fields.map Field.type)) (fields.flatMap bytes) fields := by
  induction fields with
  | nil => exact SlotAction.reads_pure []
  | cons field fields ih =>
    exact SlotAction.reads_bind field.reads_take
      (SlotAction.reads_map ih (SlotAction.reads_pure _))

/-- Fields have as many bytes as their types say together. -/
theorem Field.flatMap_bytes_length (fields : List Field) :
    (fields.flatMap bytes).length = (fields.map fun field => field.type.size).sum := by
  simp only [List.length_flatMap, bytes_length]

namespace Slot

/-- So many bytes are left at the position. -/
def Fits (slot : Slot) (size : Nat) : Prop := slot.position + size ≤ slot.bytes.length

instance (slot : Slot) (size : Nat) : Decidable (slot.Fits size) :=
  inferInstanceAs (Decidable (_ ≤ _))

end Slot

/-- Where so many bytes are not left the action faults, and leaves the slot as it was. -/
def SlotAction.Needs {α : Type} (action : SlotAction α) (size : Nat) : Prop :=
  ∀ slot : Slot, ¬ slot.Fits size → action slot = (.error .rangePastEnd, slot)

namespace SlotAction

variable {α β : Type} {slot : Slot}

/-- An action that faults keeps the next one from being done. -/
theorem bind_of_error {action : SlotAction α} {later : Slot} {fault : Fault}
    (next : α → SlotAction β) (ran : action slot = (.error fault, later)) :
    (action >>= next) slot = (.error fault, later) := by
  simp only [bind, ran]

/-- Where two actions succeed one after the other, the second one does on the value of the first. -/
theorem ok_of_bind {action : SlotAction α} {next : α → SlotAction β} {later : Slot} {result : β}
    (ran : (action >>= next) slot = (.ok result, later)) :
    ∃ value middle, action slot = (.ok value, middle) ∧
      next value middle = (.ok result, later) := by
  match first : action slot with
  | (.ok value, middle) => exact ⟨value, middle, rfl, (bind_of_ok next first).symm.trans ran⟩
  | (.error fault, middle) =>
    have stopped := (bind_of_error next first).symm.trans ran
    cases stopped

/-- What an action needs is needed by whatever begins with it. -/
theorem Needs.bind {action : SlotAction α} {next : α → SlotAction β} {size : Nat}
    (needs : action.Needs size) : (action >>= next).Needs size :=
  fun slot past => bind_of_error next (needs slot past)

/-- Bytes need room. -/
theorem needs_putBytes (data : List UInt8) : (putBytes data).Needs data.length :=
  fun _ past => if_neg past

/-- The bytes of a number need room. -/
theorem needs_putNumber (count value : Nat) :
    (putBytes (littleEndian count value)).Needs count := by
  have needs := needs_putBytes (littleEndian count value)
  rwa [littleEndian_length] at needs

/-- Bytes that are taken must be there. -/
theorem needs_takeBytes (count : Nat) : (takeBytes count).Needs count :=
  fun _ past => if_neg past

/-- A byte that fits takes the place of the one at the position. -/
theorem putByte_fits (value : UInt8) (fits : slot.Fits 1) :
    putByte value slot = (.ok (), ⟨slot.bytes.set slot.position value, slot.position + 1⟩) := by
  have inside : slot.position < slot.bytes.length := fits
  rw [putByte, putBytes]
  simp only [List.length_singleton, List.set_eq_take_append_cons_drop, if_pos inside]
  rw [if_pos (show slot.position + 1 ≤ slot.bytes.length from fits), List.append_assoc,
    List.singleton_append]

/-- Taking a byte that is there leaves the slot behind it. -/
theorem takeByte_fits (fits : slot.Fits 1) :
    ∃ value, takeByte slot = (.ok value, ⟨slot.bytes, slot.position + 1⟩) := by
  have taken : takeBytes 1 slot = (.ok _, ⟨slot.bytes, slot.position + 1⟩) := if_pos fits
  exact ⟨_, bind_of_ok _ taken⟩

end SlotAction

/-- Only handles have the type of handles. -/
theorem Field.eq_handle {field : Field} (single : field.type = .handle) :
    ∃ value, field = .handle value := by
  cases field with
  | handle value => exact ⟨value, rfl⟩
  | byte | flag | word | long | symbol => cases single

/-- Putting a field other than a handle needs its bytes. -/
theorem Field.needs_put {field : Field} (single : field.type ≠ .handle) :
    field.put.Needs field.type.size := by
  cases field with
  | handle value => exact absurd rfl single
  | byte value => exact SlotAction.needs_putBytes [value]
  | flag value => exact SlotAction.needs_putBytes [if value then 1 else 0]
  | word value => exact SlotAction.needs_putNumber 4 value.toNat
  | long value => exact SlotAction.needs_putNumber 8 value.toNat
  | symbol value => exact SlotAction.needs_putNumber 4 value.raw.toNat

/-- Taking a field other than a handle needs its bytes. -/
theorem FieldType.needs_take {type : FieldType} (single : type ≠ .handle) :
    type.take.Needs type.size := by
  cases type with
  | handle => exact absurd rfl single
  | byte => exact (SlotAction.needs_takeBytes 1).bind.bind
  | flag => exact (SlotAction.needs_takeBytes 1).bind.bind.bind
  | word => exact (SlotAction.needs_takeBytes 4).bind.bind
  | long => exact (SlotAction.needs_takeBytes 8).bind.bind
  | symbol => exact (SlotAction.needs_takeBytes 4).bind.bind.bind

/-- A handle that does not fit is a fault, and its tag is put all the same if there is a byte for
it. -/
theorem Field.put_handle_past_end {slot : Slot} (value : Handle)
    (past : ¬ slot.Fits FieldType.handle.size) :
    (Field.handle value).put slot = (.error .rangePastEnd,
      if slot.Fits 1 then ⟨slot.bytes.set slot.position value.tag, slot.position + 1⟩
      else slot) := by
  split
  · next fits =>
    refine (SlotAction.bind_of_ok _ (SlotAction.putByte_fits value.tag fits)).trans ?_
    refine SlotAction.needs_putNumber 4 value.slot.toNat _ fun more => past ?_
    have within : slot.position + 1 + 4 ≤ slot.bytes.length := by
      simpa only [Slot.Fits, List.length_set] using more
    exact within
  · next none => exact (SlotAction.needs_putBytes [value.tag]).bind slot none

/-- A handle that is not there is a fault, and its tag is taken all the same if there is a byte. -/
theorem FieldType.take_handle_past_end {slot : Slot} (past : ¬ slot.Fits FieldType.handle.size) :
    FieldType.handle.take slot = (.error .rangePastEnd,
      if slot.Fits 1 then ⟨slot.bytes, slot.position + 1⟩ else slot) := by
  refine SlotAction.bind_of_error _ ?_
  split
  · next fits =>
    obtain ⟨tag, taken⟩ := SlotAction.takeByte_fits fits
    refine (SlotAction.bind_of_ok _ taken).trans ?_
    exact (SlotAction.needs_takeBytes 4).bind.bind ⟨slot.bytes, slot.position + 1⟩ past
  · next none => exact (SlotAction.needs_takeBytes 1).bind.bind slot none

/-- What putting a field leaves in a slot: the field if it fits, otherwise the tag of a handle if
there is a byte for it. -/
def Field.landed (slot : Slot) (field : Field) : List Field :=
  if slot.Fits field.type.size then [field]
  else
    match field with
    | .handle value => if slot.Fits 1 then [.byte value.tag] else []
    | _ => []

/-- A field that fits is left whole. -/
theorem Field.landed_fits {slot : Slot} {field : Field} (fits : slot.Fits field.type.size) :
    field.landed slot = [field] :=
  if_pos fits

/-- A field other than a handle that does not fit leaves nothing. -/
theorem Field.landed_past_end {slot : Slot} {field : Field} (single : field.type ≠ .handle)
    (past : ¬ slot.Fits field.type.size) : field.landed slot = [] := by
  cases field with
  | handle value => exact absurd rfl single
  | byte | flag | word | long | symbol => exact if_neg past

/-- A handle that does not fit leaves its tag if there is a byte for it. -/
theorem Field.landed_handle_past_end {slot : Slot} (value : Handle)
    (past : ¬ slot.Fits FieldType.handle.size) :
    (Field.handle value).landed slot = if slot.Fits 1 then [.byte value.tag] else [] :=
  if_neg past

/-- What putting fields leaves in a slot when faults do not end it. -/
def Field.landedAll (slot : Slot) : List Field → List Field
  | [] => []
  | field :: fields => field.landed slot ++ landedAll (field.put slot).2 fields

/-- The fields that were put without a fault. -/
def Field.accepted (slot : Slot) (fields : List Field) : List Field :=
  (fields.zip (putEach slot fields).1).filterMap fun (field, result) =>
    if result.isOk then some field else none

/-- The slot holds the fields from its start to its position, and behind it the bytes that a buffer
has there. -/
structure Slot.Holds (slot : Slot) (buffer : List UInt8) (fields : List Field) : Prop where
  /-- The slot stands behind the fields. -/
  position : slot.position = (fields.flatMap Field.bytes).length
  /-- The fields are followed by what was there. -/
  bytes : slot.bytes = fields.flatMap Field.bytes ++ buffer.drop slot.position
  /-- The slot is as long as the buffer. -/
  length : slot.bytes.length = buffer.length

namespace Slot.Holds

variable {slot : Slot} {buffer : List UInt8} {fields : List Field}

/-- At its start a buffer holds nothing. -/
theorem start (buffer : List UInt8) : (ofBytes buffer).Holds buffer [] := ⟨rfl, rfl, rfl⟩

/-- What is held is read back, and then the slot stands where it did. -/
theorem takeAll (holds : slot.Holds buffer fields) :
    FieldType.takeAll (fields.map Field.type) (.ofBytes slot.bytes) = (.ok fields, slot) := by
  have read := Field.reads_takeAll fields [] (buffer.drop slot.position)
  rw [List.nil_append, ← holds.bytes, List.nil_append, ← holds.position] at read
  exact read

/-- Behind what is held the bytes are those of the buffer. -/
theorem behind (holds : slot.Holds buffer fields) :
    slot.bytes.drop slot.position = buffer.drop slot.position := by
  rw [holds.bytes, holds.position, List.drop_left]

/-- What puts fields that fit succeeds, and then they are held behind the others. -/
theorem writes (holds : slot.Holds buffer fields) {action : SlotAction Unit} {more : List Field}
    (writes : Writes action (more.flatMap Field.bytes))
    (fits : slot.Fits (more.flatMap Field.bytes).length) :
    (action slot).1 = .ok () ∧ (action slot).2.Holds buffer (fields ++ more) := by
  have inside : slot.position + (more.flatMap Field.bytes).length ≤ buffer.length := by
    rw [← holds.length]
    exact fits
  have behind : (more.flatMap Field.bytes).length ≤ (buffer.drop slot.position).length := by
    rw [List.length_drop]
    exact Nat.le_sub_of_add_le' inside
  have room : (buffer.drop slot.position).take (more.flatMap Field.bytes).length ++
      buffer.drop (slot.position + (more.flatMap Field.bytes).length) =
        buffer.drop slot.position := by
    rw [← List.drop_drop, List.take_append_drop]
  have put := writes (fields.flatMap Field.bytes)
    ((buffer.drop slot.position).take (more.flatMap Field.bytes).length)
    (buffer.drop (slot.position + (more.flatMap Field.bytes).length))
    (List.length_take_of_le behind)
  rw [room, ← holds.bytes, ← holds.position, ← List.append_assoc, ← List.flatMap_append] at put
  have position : ((fields ++ more).flatMap Field.bytes).length =
      slot.position + (more.flatMap Field.bytes).length := by
    rw [List.flatMap_append, List.length_append, ← holds.position]
  rw [put]
  refine ⟨rfl, rfl, by rw [position], ?_⟩
  rw [List.length_append, List.length_drop, position]
  exact Nat.add_sub_cancel' inside

/-- A field that fits is put, and then it is held behind the others. -/
theorem put (holds : slot.Holds buffer fields) {field : Field} (fits : slot.Fits field.type.size) :
    (field.put slot).2.Holds buffer (fields ++ [field]) := by
  have alone : [field].flatMap Field.bytes = field.bytes := List.flatMap_singleton _ _
  have written := field.writes_put
  rw [← field.bytes_length] at fits
  rw [← alone] at written fits
  exact (holds.writes written fits).2

/-- Whether a field fits or not, what it leaves is held behind the others. -/
theorem attempt (holds : slot.Holds buffer fields) (field : Field) :
    (field.put slot).2.Holds buffer (fields ++ field.landed slot) := by
  by_cases fits : slot.Fits field.type.size
  · rw [Field.landed_fits fits]
    exact holds.put fits
  by_cases single : field.type = .handle
  · obtain ⟨value, rfl⟩ := Field.eq_handle single
    rw [Field.landed_handle_past_end value fits, Field.put_handle_past_end value fits]
    -- the tag stands there as a byte does
    by_cases room : slot.Fits 1
    · have alone : Field.put (.byte value.tag) slot = _ :=
        SlotAction.putByte_fits value.tag room
      have tag : (Field.put (.byte value.tag) slot).2.Holds buffer (fields ++ [.byte value.tag]) :=
        holds.put room
      rw [alone] at tag
      simpa only [if_pos room] using tag
    · simpa only [if_neg room, List.append_nil] using holds
  · rw [Field.landed_past_end single fits, Field.needs_put single slot fits, List.append_nil]
    exact holds

/-- After a run of fields all that they left is held. -/
theorem attempts (holds : slot.Holds buffer fields) (more : List Field) :
    (Field.putEach slot more).2.Holds buffer (fields ++ Field.landedAll slot more) := by
  induction more generalizing slot fields with
  | nil => rwa [Field.landedAll, List.append_nil]
  | cons field more ih =>
    have rest := ih (holds.attempt field)
    rwa [List.append_assoc] at rest

end Slot.Holds

/-- A field that was put without a fault did fit. -/
theorem Field.fits_of_put {slot : Slot} {field : Field} (put : (field.put slot).1.isOk) :
    slot.Fits field.type.size := by
  refine Decidable.byContradiction fun past => ?_
  by_cases single : field.type = .handle
  · obtain ⟨value, rfl⟩ := eq_handle single
    rw [put_handle_past_end value past] at put
    cases put
  · rw [needs_put single slot past] at put
    cases put

/-- Fields that were put without a fault are among what the run left, in their order. -/
theorem Field.accepted_sublist (slot : Slot) (fields : List Field) :
    (accepted slot fields).Sublist (landedAll slot fields) := by
  induction fields generalizing slot with
  | nil => exact .slnil
  | cons field fields ih =>
    have rest := ih (field.put slot).2
    rw [landedAll]
    cases put : (field.put slot).1.isOk with
    | false =>
      have none : accepted slot (field :: fields) = accepted (field.put slot).2 fields :=
        List.filterMap_cons_none (if_neg (Bool.eq_false_iff.mp put))
      rw [none]
      exact rest.trans (List.sublist_append_right _ _)
    | true =>
      have some : accepted slot (field :: fields) = field :: accepted (field.put slot).2 fields :=
        List.filterMap_cons_some (if_pos put)
      rw [some, landed_fits (fits_of_put put)]
      exact rest.cons_cons field

/-- Fields that can be taken one after the other can be taken without regard to faults, and then
more can be tried. -/
theorem FieldType.takeEach_append {slot later : Slot} {types : List FieldType} {fields : List Field}
    (taken : takeAll types slot = (.ok fields, later)) (more : List FieldType) :
    takeEach slot (types ++ more) =
      (fields.map .ok ++ (takeEach later more).1, (takeEach later more).2) := by
  induction types generalizing slot fields with
  | nil =>
    cases taken
    rfl
  | cons type types ih =>
    obtain ⟨field, middle, first, rest⟩ := SlotAction.ok_of_bind taken
    obtain ⟨others, last, following, whole⟩ := SlotAction.ok_of_bind rest
    cases whole
    simp only [List.cons_append, takeEach, first, ih following, List.map_cons]

/-- Fields whose sizes together fit into a buffer are put one after the other without a fault, they
are read back by their types, and the bytes behind them stay as they were. A field that does not fit
is a fault, and so is reading one that is not there; the slot stays as it was, except that the tag
of a handle is transferred if there is a byte for it. So whatever run of fields is tried, those that
were put without a fault are read back among what the run left, in their order, the bytes behind are
those of the buffer, and further reads, faulting or not, do not take away what was read. -/
theorem fields_come_back (buffer : List UInt8) (fields : List Field) :
    ((fields.map fun field => field.type.size).sum ≤ buffer.length →
      ∃ filled, Field.putAll fields (.ofBytes buffer) = (.ok (), filled) ∧
        filled.position = (fields.map fun field => field.type.size).sum ∧
        filled.bytes.length = buffer.length ∧
        filled.bytes.drop filled.position = buffer.drop filled.position ∧
        FieldType.takeAll (fields.map Field.type) (.ofBytes filled.bytes) = (.ok fields, filled)) ∧
    (∀ (slot : Slot) (field : Field), field.type ≠ .handle → ¬ slot.Fits field.type.size →
      field.put slot = (.error .rangePastEnd, slot) ∧
        field.type.take slot = (.error .rangePastEnd, slot)) ∧
    (∀ (slot : Slot) (value : Handle), ¬ slot.Fits FieldType.handle.size →
      (Field.handle value).put slot = (.error .rangePastEnd,
          if slot.Fits 1 then ⟨slot.bytes.set slot.position value.tag, slot.position + 1⟩
          else slot) ∧
        FieldType.handle.take slot = (.error .rangePastEnd,
          if slot.Fits 1 then ⟨slot.bytes, slot.position + 1⟩ else slot)) ∧
    let last := (Field.putEach (.ofBytes buffer) fields).2
    let landed := Field.landedAll (.ofBytes buffer) fields
    last.bytes.length = buffer.length ∧
      last.bytes.drop last.position = buffer.drop last.position ∧
      (Field.accepted (.ofBytes buffer) fields).Sublist landed ∧
      ∀ more, FieldType.takeEach (.ofBytes last.bytes) (landed.map Field.type ++ more) =
        (landed.map .ok ++ (FieldType.takeEach last more).1, (FieldType.takeEach last more).2) := by
  have start := Slot.Holds.start buffer
  have run := start.attempts fields
  rw [List.nil_append] at run
  refine ⟨fun fits => ?_, fun slot field single past => ?_, fun slot value past => ?_, run.length,
    run.behind, Field.accepted_sublist _ fields, FieldType.takeEach_append run.takeAll⟩
  · have room : (Slot.ofBytes buffer).Fits (fields.flatMap Field.bytes).length := by
      rw [Field.flatMap_bytes_length]
      exact Nat.le_trans (Nat.le_of_eq (Nat.zero_add _)) fits
    obtain ⟨put, holds⟩ := start.writes (Field.writes_putAll fields) room
    rw [List.nil_append] at holds
    refine ⟨_, Prod.ext put rfl, ?_, holds.length, holds.behind, holds.takeAll⟩
    rw [holds.position, Field.flatMap_bytes_length]
  · exact ⟨Field.needs_put single slot past, FieldType.needs_take single slot past⟩
  · exact ⟨Field.put_handle_past_end value past, FieldType.take_handle_past_end past⟩

/-- One field of each type comes back from a buffer that has one byte more, and that byte stays. A
handle for which three bytes are left is a fault, and leaves its tag. -/
theorem fields_of_each_type_come_back :
    (∃ filled, Field.putAll [.byte 7, .flag true, .word 0xDEADBEEF, .long 0x0123456789ABCDEF,
          .handle ⟨2, 513⟩, .symbol (.ofIndex 300)] (.ofBytes (.replicate 24 255)) =
        (.ok (), filled) ∧ filled.position = 23 ∧ filled.bytes.drop filled.position = [255]) ∧
    (Field.handle ⟨2, 513⟩).put ⟨[1, 2, 3, 4], 1⟩ = (.error .rangePastEnd, ⟨[1, 2, 3, 4], 2⟩) := by
  have whole := (fields_come_back (.replicate 24 255) [.byte 7, .flag true, .word 0xDEADBEEF,
    .long 0x0123456789ABCDEF, .handle ⟨2, 513⟩, .symbol (.ofIndex 300)]).1 (by decide)
  have partly := (fields_come_back [] []).2.2.1 ⟨[1, 2, 3, 4], 1⟩ ⟨2, 513⟩ (by decide)
  obtain ⟨filled, put, position, _, behind, _⟩ := whole
  refine ⟨⟨filled, put, position, behind.trans ?_⟩, partly.1⟩
  rw [position]
  rfl

end Cascade
