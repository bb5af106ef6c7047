import Cascade.Proofs.Arena
import Mathlib.Algebra.Order.BigOperators.Group.List
import Mathlib.Algebra.Order.Group.Nat

/-!
# The footprint of a dense list

Every append grows one buffer by the declared size of its value, so the bytes of all buffers
together are the declared sizes of the values. A list of equally large slots would take the largest
declared size for each of them, which is as much only if every value is of a largest variant.
-/
namespace Cascade

/-- A number that is raised in its place raises the sum by as much. -/
theorem sum_set_raised {numbers : List Nat} {place : Nat} (inside : place < numbers.length)
    (more : Nat) : (numbers.set place (numbers[place] + more)).sum = numbers.sum + more := by
  induction numbers generalizing place with
  | nil => cases inside
  | cons first numbers ih =>
    cases place with
    | zero =>
      simp only [List.set_cons_zero, List.getElem_cons_zero, List.sum_cons]
      omega
    | succ place =>
      simp only [List.set_cons_succ, List.getElem_cons_succ, List.sum_cons,
        ih (Nat.lt_of_succ_lt_succ inside), Nat.add_assoc]

/-- Numbers up to a bound have the sum of as many bounds only if each is the bound. -/
theorem sum_eq_length_mul_iff {numbers : List Nat} {bound : Nat}
    (bounded : ∀ number ∈ numbers, number ≤ bound) :
    numbers.sum = numbers.length * bound ↔ ∀ number ∈ numbers, number = bound := by
  constructor
  · intro full
    induction numbers with
    | nil => exact fun _ among => absurd among List.not_mem_nil
    | cons first numbers ih =>
      obtain ⟨head, tail⟩ := List.forall_mem_cons.mp bounded
      have rest := List.sum_le_card_nsmul numbers bound tail
      rw [Nat.nsmul_eq_mul] at rest
      rw [List.sum_cons, List.length_cons, Nat.succ_mul] at full
      exact List.forall_mem_cons.mpr ⟨by omega, ih tail (by omega)⟩
  · intro equal
    rw [List.sum_eq_card_nsmul numbers bound equal, Nat.nsmul_eq_mul]

/-- A layout has variants. -/
theorem UnionTables.sizes_ne_nil {tables : UnionTables} {layout : Layout}
    (accepted : tables.layout = .ok layout) : tables.sizes ≠ [] := by
  intro none
  unfold UnionTables.layout at accepted
  split at accepted
  · cases accepted
  · next some =>
    split at accepted
    · cases accepted
    · next matched =>
      rw [none, List.length_nil, ne_eq, Decidable.not_not, List.length_eq_zero_iff] at matched
      rw [matched] at some
      exact some rfl

/-- The maximum of a layout is the largest of its sizes. -/
theorem Layout.max?_sizes {layout : Layout} (variants : layout.sizes ≠ []) :
    layout.sizes.max? = some layout.maxSize := by
  unfold maxSize
  cases sizes : layout.sizes with
  | nil => exact absurd sizes variants
  | cons size sizes => rw [List.max?_cons', List.foldl_cons, Nat.zero_max]

/-- The size of an accepted value is a declared one. -/
theorem TaggedUnion.size_mem_of_accepts {α : Type} {union : TaggedUnion α} {value : α}
    (accepted : union.accepts value = true) : union.size value ∈ union.sizes := by
  obtain ⟨size, declared⟩ := Option.isSome_iff_exists.mp (Bool.and_eq_true_iff.mp accepted).1
  rw [size_of_declared declared]
  exact List.mem_of_getElem? declared

namespace DenseList

variable {α : Type} {union : TaggedUnion α}

/-- The bytes in use are those of the buffers. -/
theorem footprint_actual (list : DenseList union) :
    list.footprint.actual = (list.buffers.toList.map fun buffer => buffer.bytes.size).sum := by
  rw [List.sum_eq_foldl, List.foldl_map]
  rfl

/-- A new list uses no bytes. -/
theorem footprint_new {list : DenseList union} (fresh : new? union = .ok list) :
    list.footprint.actual = 0 := by
  unfold new? at fresh
  split at fresh
  · cases fresh
    rw [footprint_actual, Vector.toList_replicate, List.map_replicate, List.sum_replicate]
    exact Nat.mul_zero _
  · cases fresh

/-- An append uses as many bytes more as are declared for its value, whether it succeeds or not. -/
theorem footprint_append (inPlace : union.InPlace) (list : DenseList union) (value : α) :
    (list.append value).2.footprint.actual = list.footprint.actual + union.size value := by
  cases declared : union.sizes[(union.tag value).toNat]? with
  | none =>
    have nothing : union.size value = 0 := by
      rw [TaggedUnion.size, List.getD_eq_getElem?_getD, declared, Option.getD_none]
    rw [append_undeclared list declared, nothing, Nat.add_zero]
  | some size =>
    obtain ⟨cls, _, appended⟩ := append_declared list declared
    have inside : cls.val < (list.buffers.toList.map fun buffer => buffer.bytes.size).length := by
      rw [List.length_map, Vector.length_toList]
      exact cls.isLt
    have grown : ((list.buffers.get cls).grow (union.payload value)
          (union.fits value).toNat).bytes.size =
        (list.buffers.toList.map fun buffer => buffer.bytes.size)[cls.val] + union.size value := by
      rw [← inPlace value, List.getElem_map, Vector.getElem_toList]
      rw [ClassBuffer.grow_bytes, Array.size_append, List.size_toArray]
      rfl
    rw [footprint_actual, footprint_actual, appended, ← sum_set_raised inside, ← grown]
    simp only [Vector.toList_set, List.map_set]

/-- A run of appends uses as many bytes more as are declared for its values. -/
theorem footprint_after (inPlace : union.InPlace) (list : DenseList union) (values : List α) :
    (list.after values).footprint.actual =
      list.footprint.actual + (values.map union.size).sum := by
  induction values generalizing list with
  | nil => rfl
  | cons value values ih =>
    rw [List.map_cons, List.sum_cons, ← Nat.add_assoc, ← footprint_append inPlace]
    exact ih (list.append value).2

/-- Values whose appends all give out a handle are all accepted. -/
theorem accepts_of_answers {list : DenseList union} (empty : list.Attempted []) {values : List α}
    {handles : List Handle} (given : list.answers values = handles.map .ok) :
    ∀ value ∈ values, union.accepts value = true := by
  intro value among
  obtain ⟨earlier, later, split⟩ := List.append_of_mem among
  have answered : union.answerAfter ([] ++ earlier) value ∈ list.answers values :=
    empty.mem_answers.mpr ⟨earlier, value, later, split, rfl⟩
  rw [given, List.mem_map] at answered
  obtain ⟨handle, _, ok⟩ := answered
  rw [← TaggedUnion.answerAfter_isOk ([] ++ earlier), ← ok]
  rfl

end DenseList

/-- After any run of successful appends to a new list the bytes in use are the declared sizes of the
values, and a naive list would use the largest declared size for each. That is never less, and it is
equally much exactly if every value is of a variant of the largest size. -/
theorem footprint_is_declared_sizes {α : Type} (union : TaggedUnion α) (layout : Layout)
    (accepted : union.layout = .ok layout) (inPlace : union.InPlace) :
    ∃ list largest, DenseList.new? union = .ok list ∧ union.sizes.max? = some largest ∧
      ∀ (values : List α) (handles : List Handle), list.answers values = handles.map .ok →
        (list.after values).footprint.actual = (values.map union.size).sum ∧
        (list.after values).footprint.naive = values.length * largest ∧
        (list.after values).footprint.actual ≤ (list.after values).footprint.naive ∧
        ((list.after values).footprint.actual = (list.after values).footprint.naive ↔
          ∀ value ∈ values, union.size value = largest) := by
  obtain ⟨list, fresh⟩ := DenseList.new?_of_layout accepted
  have empty := DenseList.attempted_new fresh
  have largest : union.sizes.max? = some layout.maxSize := by
    have variants := UnionTables.sizes_ne_nil accepted
    rw [← UnionTables.sizes_of_layout accepted] at variants ⊢
    exact Layout.max?_sizes variants
  refine ⟨list, layout.maxSize, fresh, largest, fun values handles given => ?_⟩
  have all := DenseList.accepts_of_answers empty given
  have actual : (list.after values).footprint.actual = (values.map union.size).sum := by
    rw [DenseList.footprint_after inPlace, DenseList.footprint_new fresh, Nat.zero_add]
  have naive : (list.after values).footprint.naive = values.length * layout.maxSize := by
    have kept : (list.after values).layout = layout :=
      Except.ok.inj ((list.after values).accepted.symm.trans accepted)
    have counted := (empty.after values).length
    rw [List.nil_append, List.countP_eq_length.mpr all] at counted
    rw [← kept, ← counted]
    rfl
  have bounded : ∀ size ∈ values.map union.size, size ≤ layout.maxSize := by
    intro size among
    obtain ⟨value, there, rfl⟩ := List.mem_map.mp among
    exact (List.max?_eq_some_iff.mp largest).2 _ (TaggedUnion.size_mem_of_accepts (all value there))
  refine ⟨actual, naive, ?_, ?_⟩
  · have most := List.sum_le_card_nsmul _ _ bounded
    rwa [List.length_map, Nat.nsmul_eq_mul, ← actual, ← naive] at most
  · have equal := sum_eq_length_mul_iff bounded
    rw [List.length_map, List.forall_mem_map] at equal
    rw [actual, naive, equal]

/-- Two strings and an operation use 28 bytes, and three equally large slots would use 60; two
operations alone would use all of theirs. -/
theorem footprint_of_strings_and_operations :
    let mixed := Arena.empty.after
      [.str (.ofIndex 0), .binary .add ⟨2, 0⟩ ⟨2, 0⟩, .str (.ofIndex 1)]
    let large := Arena.empty.after [.binary .add ⟨4, 0⟩ ⟨4, 1⟩, .binary .sub ⟨4, 2⟩ ⟨4, 0⟩]
    mixed.footprint = ⟨28, 60⟩ ∧ large.footprint.actual = large.footprint.naive := by
  obtain ⟨list, largest, fresh, most, law⟩ := footprint_is_declared_sizes Node.union Node.layout
    Node.layout_union Node.union_lawful.exact_length
  obtain rfl : Arena.empty = list := Except.ok.inj (Arena.new?_union.symm.trans fresh)
  obtain rfl : 20 = largest := Option.some.inj (.trans (by decide) most)
  obtain ⟨actual, naive, _, _⟩ := law
    [.str (.ofIndex 0), .binary .add ⟨2, 0⟩ ⟨2, 0⟩, .str (.ofIndex 1)]
    [⟨2, 0⟩, ⟨4, 0⟩, ⟨2, 1⟩] (by rfl)
  obtain ⟨_, _, _, equal⟩ := law [.binary .add ⟨4, 0⟩ ⟨4, 1⟩, .binary .sub ⟨4, 2⟩ ⟨4, 0⟩]
    [⟨4, 0⟩, ⟨4, 1⟩] (by rfl)
  exact ⟨by rw [Footprint.mk.injEq]; exact ⟨actual, naive⟩, equal.mpr (by decide)⟩

end Cascade
