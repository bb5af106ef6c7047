import Cascade.Proofs.Arena

/-!
# Handles that no append gave out

A list looks a handle up by the size class of its tag and by its slot, and by nothing else. So a
handle that was not given out is refused as long as no given handle has its slot in its size class.
If one has, the bytes at that slot are read as a value of the other variant: nothing in the list
tells the two handles apart.
-/
namespace Cascade

/-- The value that is counted at a rank stands somewhere, with as many counted before it. -/
theorem exists_at_rank {α : Type} {counted : α → Bool} {values : List α} {rank : Nat}
    (below : rank < values.countP counted) :
    ∃ earlier value later, values = earlier ++ value :: later ∧ counted value = true ∧
      earlier.countP counted = rank := by
  induction values generalizing rank with
  | nil => cases below
  | cons first values ih =>
    cases met : counted first with
    | false =>
      rw [List.countP_cons_of_neg (by simp [met])] at below
      obtain ⟨earlier, value, later, split, found, before⟩ := ih below
      refine ⟨first :: earlier, value, later, by rw [split, List.cons_append], found, ?_⟩
      rw [List.countP_cons_of_neg (by simp [met]), before]
    | true =>
      rw [List.countP_cons_of_pos met] at below
      cases rank with
      | zero => exact ⟨[], first, values, rfl, met, rfl⟩
      | succ rank =>
        obtain ⟨earlier, value, later, split, found, before⟩ := ih (Nat.lt_of_succ_lt_succ below)
        refine ⟨first :: earlier, value, later, by rw [split, List.cons_append], found, ?_⟩
        rw [List.countP_cons_of_pos met, before]

namespace DenseList

variable {α : Type} {union : TaggedUnion α}

/-- One of the answers is a handle with this slot, whose tag is of the same size class. -/
def SharesSlot (layout : Layout) (answers : List (Except Fault Handle)) (handle : Handle) : Prop :=
  ∃ other, .ok other ∈ answers ∧ other.slot = handle.slot ∧
    layout.classOf? other.tag = layout.classOf? handle.tag

variable {list : DenseList union}

/-- Below the number of values that are counted for its tag, a handle has the slot of an answer. -/
theorem sharesSlot_of_counted (empty : list.Attempted []) {values : List α} {handle : Handle}
    {size : Nat} (declared : union.sizes[handle.tag.toNat]? = some size)
    (counted : handle.slot.toNat < values.countP (union.counts size)) :
    SharesSlot list.layout (list.answers values) handle := by
  obtain ⟨earlier, value, later, split, met, rank⟩ := exists_at_rank counted
  refine ⟨⟨union.tag value, UInt32.ofNat (earlier.countP (union.counts size))⟩, ?_, ?_, ?_⟩
  · refine empty.mem_answers.mpr ⟨earlier, value, later, split, ?_⟩
    exact TaggedUnion.answerAfter_eq_ok.mpr ⟨size, met, rfl⟩
  · rw [rank, UInt32.ofNat_toNat]
  · have touched := TaggedUnion.touches_iff.mp (Bool.and_eq_true_iff.mp met).1
    rw [Layout.classOf?_eq_iff, list.layout_sizes, touched, declared]

/-- A handle whose slot no given handle of its size class has is refused. -/
theorem get_of_free_slot (inPlace : union.InPlace) (empty : list.Attempted []) {values : List α}
    {handle : Handle} (free : ¬ SharesSlot list.layout (list.answers values) handle) :
    (list.after values).get handle = .error (.tagOutOfRange handle.tag list.layout.variantCount) ∨
      ∃ held, held ≤ handle.slot.toNat ∧
        (list.after values).get handle = .error (.slotOutOfRange handle union.name held) := by
  have attempted := empty.after values
  rw [List.nil_append] at attempted
  rw [attempted.get inPlace, TaggedUnion.readAfter]
  cases declared : union.sizes[handle.tag.toNat]? with
  | none =>
    refine .inl ?_
    rw [Layout.variantCount, list.layout_sizes]
  | some size =>
    have beyond : ¬ handle.slot.toNat < values.countP (union.counts size) := fun counted =>
      free (sharesSlot_of_counted empty declared counted)
    exact .inr ⟨_, Nat.le_of_not_lt beyond, if_neg beyond⟩

/-- At the slot of a given handle stands the payload of one value of its size class, and every
handle with that slot in that class reads it as a value of its own tag. -/
theorem get_of_given_slot (inPlace : union.InPlace) (empty : list.Attempted []) {values : List α}
    {other : Handle} (given : .ok other ∈ list.answers values) :
    ∃ value ∈ values, list.layout.classOf? (union.tag value) = list.layout.classOf? other.tag ∧
      ∀ handle : Handle, handle.slot = other.slot →
        list.layout.classOf? handle.tag = list.layout.classOf? other.tag →
        (list.after values).get handle =
          (union.decode handle.tag (.ofBytes (union.payload value))).1 := by
  obtain ⟨earlier, first, later, split, answered⟩ := empty.mem_answers.mp given
  rw [List.nil_append] at answered
  obtain ⟨size, met, rfl⟩ := TaggedUnion.answerAfter_eq_ok.mp answered
  have declared := TaggedUnion.touches_iff.mp (Bool.and_eq_true_iff.mp met).1
  -- A slot number that has been cut to its word is still below the number of values counted.
  have counted : (UInt32.ofNat (earlier.countP (union.counts size))).toNat <
      values.countP (union.counts size) := by
    rw [UInt32.toNat_ofNat', split, List.countP_append, List.countP_cons_of_pos met]
    have cut := Nat.mod_le (earlier.countP (union.counts size)) (2 ^ 32)
    omega
  have long := Nat.lt_of_lt_of_le counted (TaggedUnion.countP_counts_le values size)
  have there := List.getElem?_eq_getElem long
  obtain ⟨among, touched⟩ := List.mem_filter.mp (List.mem_of_getElem? there)
  refine ⟨_, among, ?_, fun handle slot same => ?_⟩
  · rw [Layout.classOf?_eq_iff, list.layout_sizes, TaggedUnion.touches_iff.mp touched, declared]
  · have attempted := empty.after values
    rw [List.nil_append] at attempted
    have sized : union.sizes[handle.tag.toNat]? = some size := by
      rw [Layout.classOf?_eq_iff, list.layout_sizes] at same
      exact same.trans declared
    rw [attempted.get inPlace, TaggedUnion.readAfter]
    simp only [sized, slot, if_pos counted, there]

end DenseList

/-- A handle that no append gave out is refused, unless a given handle of another tag has its slot
in its size class. What stands there is then read twice: under the given handle as a value of its
own variant, and under the foreign one as a value of the variant that the foreign one names. As long
as fewer than 2^32 values were appended, the counts that handles are checked against are numbers of
32 bits. -/
theorem foreign_handles_are_refused_off_shared_slots {α : Type} (union : TaggedUnion α)
    (layout : Layout) (accepted : union.layout = .ok layout) (inPlace : union.InPlace) :
    ∃ list, DenseList.new? union = .ok list ∧
      (∀ values : List α, values.length < 2 ^ 32 → (list.after values).CountsFit) ∧
      ∀ (values : List α) (handle : Handle), .ok handle ∉ list.answers values →
        (¬ DenseList.SharesSlot layout (list.answers values) handle →
          (list.after values).get handle =
            .error (.tagOutOfRange handle.tag layout.variantCount) ∨
          ∃ held, held ≤ handle.slot.toNat ∧
            (list.after values).get handle = .error (.slotOutOfRange handle union.name held)) ∧
        ∀ other, .ok other ∈ list.answers values → other.slot = handle.slot →
          layout.classOf? other.tag = layout.classOf? handle.tag →
          other.tag ≠ handle.tag ∧
            ∃ value ∈ values, layout.classOf? (union.tag value) = layout.classOf? handle.tag ∧
              (list.after values).get other =
                (union.decode other.tag (.ofBytes (union.payload value))).1 ∧
              (list.after values).get handle =
                (union.decode handle.tag (.ofBytes (union.payload value))).1 := by
  obtain ⟨list, fresh⟩ := DenseList.new?_of_layout accepted
  have empty := DenseList.attempted_new fresh
  obtain rfl : list.layout = layout := Except.ok.inj (list.accepted.symm.trans accepted)
  refine ⟨list, fresh, fun values few => (empty.after values).countsFit few,
    fun values handle foreign =>
      ⟨DenseList.get_of_free_slot inPlace empty, fun other given slot shared => ⟨?_, ?_⟩⟩⟩
  · intro tag
    have same : other = handle := by
      cases other
      cases handle
      cases slot
      cases tag
      rfl
    exact foreign (same ▸ given)
  · obtain ⟨value, among, placed, read⟩ := DenseList.get_of_given_slot inPlace empty given
    exact ⟨value, among, placed.trans shared, read other rfl rfl, read handle slot.symm shared.symm⟩

/-- Names and strings share a size class: behind a name and a flag the handle of a string reads the
bytes of the name, and the slot that only the class of flags could have is refused. -/
theorem string_handle_shares_slot_of_name :
    (∃ fault, (Arena.empty.after [.identifier (.ofIndex 7), .bool true]).get ⟨0, 1⟩ =
        .error fault) ∧
      ∃ value ∈ [Node.identifier (.ofIndex 7), .bool true],
        (Arena.empty.after [.identifier (.ofIndex 7), .bool true]).get ⟨3, 0⟩ =
          (Node.union.decode 3 (.ofBytes (Node.union.payload value))).1 ∧
        (Arena.empty.after [.identifier (.ofIndex 7), .bool true]).get ⟨2, 0⟩ =
          (Node.union.decode 2 (.ofBytes (Node.union.payload value))).1 := by
  obtain ⟨list, fresh, _, told⟩ := foreign_handles_are_refused_off_shared_slots Node.union Node.layout
    Node.layout_union Node.union_lawful.exact_length
  obtain rfl : Arena.empty = list := Except.ok.inj (Arena.new?_union.symm.trans fresh)
  have given : Arena.empty.answers [.identifier (.ofIndex 7), .bool true] =
      [.ok ⟨3, 0⟩, .ok ⟨0, 0⟩] := by rfl
  have refused := (told [.identifier (.ofIndex 7), .bool true] ⟨0, 1⟩ (by simp [given])).1
  have shared := (told [.identifier (.ofIndex 7), .bool true] ⟨2, 0⟩ (by simp [given])).2 ⟨3, 0⟩
    (by simp [given]) rfl rfl
  obtain ⟨_, value, among, _, own, foreign⟩ := shared
  refine ⟨?_, value, among, own, foreign⟩
  obtain beyond | ⟨_, _, beyond⟩ := refused (by simp [DenseList.SharesSlot, given])
  · exact ⟨_, beyond⟩
  · exact ⟨_, beyond⟩

/-- After one name was appended, a handle that was not given out reads a string. -/
theorem name_is_read_under_string_handle :
    DenseList.new? Node.union = .ok Arena.empty ∧
      .ok ⟨2, 0⟩ ∉ Arena.empty.answers [.identifier (.ofIndex 0)] ∧
      (Arena.empty.after [.identifier (.ofIndex 0)]).get ⟨2, 0⟩ = .ok (.str (.ofIndex 0)) := by
  have given : Arena.empty.answers [.identifier (.ofIndex 0)] = [.ok ⟨3, 0⟩] := by rfl
  exact ⟨Arena.new?_union, by simp [given], by rfl⟩

end Cascade
