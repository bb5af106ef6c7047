import Cascade.Proofs.Attempts

/-!
# Dense lists and their histories

A union is lawful when every payload fits its declared size and reading it gives the value back.
Then no append fails, and a list is determined by the values that were appended to it. Each buffer
holds the payloads of the values of its size, one behind the other in the order of the appends,
whatever was appended to other buffers in between (`DenseList.Holds`). The handle of a value is its
tag with the number of earlier values of its size (`TaggedUnion.handleAfter`), and the bytes at that
place are its payload.
-/
namespace Cascade

namespace TaggedUnion

variable {α : Type}

/-- Every payload fits its declared size and is inverted by reading it. -/
structure Lawful (union : TaggedUnion α) : Prop where
  /-- Every value has a declared tag. -/
  declared : ∀ value, (union.tag value).toNat < union.sizes.length
  /-- Putting the payload into a slot of the declared size succeeds. -/
  fits : ∀ value, (union.encode value (.zeros (union.size value))).1 = .ok ()
  /-- The slot keeps its length. -/
  exact_length : ∀ value, (union.payload value).length = union.size value
  /-- Reading the payload under the tag of the value gives the value. -/
  inverted : ∀ value,
    (union.decode (union.tag value) (.ofBytes (union.payload value))).1 = .ok value

/-- Whether a value has the given payload size. -/
def hasSize (union : TaggedUnion α) (size : Nat) (value : α) : Bool := union.size value == size

/-- The number of values of the same payload size as the given one. -/
def rank (union : TaggedUnion α) (earlier : List α) (value : α) : Nat :=
  earlier.countP (union.hasSize (union.size value))

/-- The handle a value gets when the given ones were appended before it. -/
def handleAfter (union : TaggedUnion α) (earlier : List α) (value : α) : Handle :=
  ⟨union.tag value, UInt32.ofNat (union.rank earlier value)⟩

/-- The buffer of one size after the given values were appended. -/
def bufferOf (union : TaggedUnion α) (values : List α) (size : Nat) : ClassBuffer :=
  let held := values.filter (union.hasSize size)
  ⟨(held.flatMap union.payload).toArray, held.length⟩

variable {union : TaggedUnion α}

/-- Values of one tag have one size. -/
theorem size_congr {one other : α} (same : union.tag one = union.tag other) :
    union.size one = union.size other := by
  rw [size, size, same]

/-- No more values are counted than there are. -/
theorem rank_le (earlier : List α) (value : α) : union.rank earlier value ≤ earlier.length :=
  List.countP_le_length

/-- The slot number of a handle is the rank as long as ranks fit their word. -/
theorem handleAfter_slot {earlier : List α} (few : earlier.length < 2 ^ 32) (value : α) :
    (union.handleAfter earlier value).slot.toNat = union.rank earlier value := by
  have small : union.rank earlier value < 2 ^ 32 := Nat.lt_of_le_of_lt (rank_le _ _) few
  rw [handleAfter, UInt32.toNat_ofNat', Nat.mod_eq_of_lt small]

/-- Later values of one size have larger ranks. -/
theorem rank_lt {earlier between : List α} {one other : α}
    (same : union.size one = union.size other) :
    union.rank earlier one < union.rank (earlier ++ one :: between) other := by
  have counted : union.hasSize (union.size other) one = true := by
    rw [hasSize, same]
    exact beq_self_eq_true _
  rw [rank, rank, List.countP_append, List.countP_cons_of_pos counted, same]
  omega

/-- Different appends get different handles. -/
theorem handleAfter_ne {earlier between : List α} {one other : α}
    (few : (earlier ++ one :: between).length < 2 ^ 32) :
    union.handleAfter earlier one ≠ union.handleAfter (earlier ++ one :: between) other := by
  intro same
  have slots := congrArg (fun handle : Handle => handle.slot.toNat) same
  have fewer : earlier.length < 2 ^ 32 := by
    rw [List.length_append] at few
    omega
  change (union.handleAfter _ _).slot.toNat = (union.handleAfter _ _).slot.toNat at slots
  rw [handleAfter_slot fewer, handleAfter_slot few] at slots
  have sizes : union.size one = union.size other := size_congr (congrArg Handle.tag same)
  have below : union.rank earlier one < union.rank (earlier ++ one :: between) other :=
    rank_lt sizes
  omega

namespace Lawful

/-- The size of a value is the one that is declared for its tag. -/
theorem declared_size (lawful : union.Lawful) (value : α) :
    union.sizes[(union.tag value).toNat]? = some (union.size value) := by
  rw [size, List.getD_eq_getElem?_getD, List.getElem?_eq_getElem (lawful.declared value),
    Option.getD_some]

/-- Every payload fits. -/
theorem fits_eq (lawful : union.Lawful) (value : α) : union.fits value = true := by
  rw [TaggedUnion.fits, lawful.fits]
  rfl

/-- Every value is accepted. -/
theorem accepts_eq (lawful : union.Lawful) (value : α) : union.accepts value = true := by
  rw [accepts, lawful.declared_size, lawful.fits_eq]
  rfl

/-- A value grows the buffer of its size. -/
theorem touches_eq (lawful : union.Lawful) (size : Nat) :
    union.touches size = union.hasSize size := by
  funext value
  rw [touches, lawful.declared_size]
  rfl

/-- A value is counted in the buffer of its size. -/
theorem counts_eq (lawful : union.Lawful) (size : Nat) :
    union.counts size = union.hasSize size := by
  funext value
  rw [counts, lawful.fits_eq, Bool.and_true, lawful.touches_eq]

/-- The buffer of a size holds the values of that size. -/
theorem bufferAfter_eq (lawful : union.Lawful) (values : List α) (size : Nat) :
    union.bufferAfter values size = union.bufferOf values size := by
  rw [bufferAfter, bufferOf, lawful.touches_eq, lawful.counts_eq, List.countP_eq_length_filter]

/-- An append answers with the handle of its place. -/
theorem answerAfter_eq (lawful : union.Lawful) (values : List α) (value : α) :
    union.answerAfter values value = .ok (union.handleAfter values value) := by
  simp only [answerAfter, lawful.declared_size, lawful.fits, lawful.counts_eq]
  rfl

/-- A handle reads the value at its place. -/
theorem readAfter_eq (lawful : union.Lawful) {earlier later : List α} {value : α}
    (few : earlier.length < 2 ^ 32) :
    union.readAfter (earlier ++ value :: later) (union.handleAfter earlier value) = .ok value := by
  have slot : (union.handleAfter earlier value).slot.toNat =
      (earlier.filter (union.hasSize (union.size value))).length :=
    (handleAfter_slot few value).trans List.countP_eq_length_filter
  have held : union.hasSize (union.size value) value = true := beq_self_eq_true _
  have tag : (union.handleAfter earlier value).tag = union.tag value := rfl
  have values : (earlier ++ value :: later).filter (union.hasSize (union.size value)) =
      earlier.filter (union.hasSize (union.size value)) ++
        value :: later.filter (union.hasSize (union.size value)) := by
    rw [List.filter_append, List.filter_cons_of_pos held]
  have counted : (earlier.filter (union.hasSize (union.size value))).length <
      (earlier ++ value :: later).countP (union.hasSize (union.size value)) := by
    rw [List.countP_eq_length_filter, values, List.length_append, List.length_cons]
    omega
  simp only [readAfter, tag, lawful.declared_size, lawful.touches_eq, lawful.counts_eq, slot,
    if_pos counted, values, List.getElem?_append_right (Nat.le_refl _), Nat.sub_self,
    List.getElem?_cons_zero, lawful.inverted]

end Lawful

end TaggedUnion

namespace DenseList

variable {α : Type} {union : TaggedUnion α}

/-- The list holds exactly the given values, appended in their order. -/
structure Holds (list : DenseList union) (values : List α) : Prop where
  /-- Every buffer holds the payloads of its size. -/
  buffers : ∀ cls, list.buffers.get cls = union.bufferOf values (list.layout.classSize cls)
  /-- Every value is counted. -/
  length : list.length = values.length

/-- A list of a lawful union holds what was attempted on it. -/
theorem holds_iff_attempted (lawful : union.Lawful) {list : DenseList union} {values : List α} :
    list.Holds values ↔ list.Attempted values := by
  have accepted : values.countP union.accepts = values.length :=
    List.countP_eq_length.mpr fun value _ => lawful.accepts_eq value
  constructor
  · rintro ⟨buffers, length⟩
    exact ⟨fun cls => (buffers cls).trans (lawful.bufferAfter_eq ..).symm,
      length.trans accepted.symm⟩
  · rintro ⟨buffers, length⟩
    exact ⟨fun cls => (buffers cls).trans (lawful.bufferAfter_eq ..), length.trans accepted⟩

/-- A new list holds nothing. -/
theorem holds_new {list : DenseList union} (fresh : DenseList.new? union = .ok list) :
    list.Holds [] := by
  obtain ⟨buffers, length⟩ := attempted_new fresh
  exact ⟨buffers, length⟩

/-- An append succeeds with the handle of its place in the history, and the list then holds one
value more. -/
theorem Holds.append (lawful : union.Lawful) {list : DenseList union} {values : List α}
    (holds : list.Holds values) (value : α) :
    (list.append value).1 = .ok (union.handleAfter values value) ∧
      (list.append value).2.Holds (values ++ [value]) := by
  obtain ⟨answered, attempted⟩ := ((holds_iff_attempted lawful).mp holds).append value
  exact ⟨answered.trans (lawful.answerAfter_eq values value),
    (holds_iff_attempted lawful).mpr attempted⟩

/-- Every value is read back under its handle, whatever was appended after it. -/
theorem Holds.get (lawful : union.Lawful) {list : DenseList union} {earlier later : List α}
    {value : α} (holds : list.Holds (earlier ++ value :: later)) (few : earlier.length < 2 ^ 32) :
    list.get (union.handleAfter earlier value) = .ok value := by
  rw [((holds_iff_attempted lawful).mp holds).get lawful.exact_length, lawful.readAfter_eq few]

/-- After further appends the list holds the further values too. -/
theorem Holds.after (lawful : union.Lawful) {list : DenseList union} {values : List α}
    (holds : list.Holds values) (further : List α) :
    (list.after further).Holds (values ++ further) :=
  (holds_iff_attempted lawful).mpr (((holds_iff_attempted lawful).mp holds).after further)

end DenseList

end Cascade
