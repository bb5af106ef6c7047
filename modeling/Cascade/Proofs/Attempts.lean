import Cascade.Store.DenseList
import Mathlib.Algebra.BigOperators.Group.List.Basic
import Mathlib.Algebra.GroupWithZero.Nat
import Mathlib.Data.List.Induction
import Mathlib.Data.List.Nodup

/-!
# Dense lists after appends that may fail

The size class of a tag is found by the declared sizes alone (`Layout.classOf?_eq_iff`), so all that
is said here speaks of sizes. An append whose payload does not fit its declared size has grown its
buffer by then, and the bytes stay there uncounted. From then on the number of values in a buffer no
longer tells how long it is, so what a list holds is told by the attempts made on it: each one with
a declared tag leaves its payload behind the others of its size, and those that fitted are counted
(`DenseList.Attempted`).

All that a list answers follows from that history: what the next append gives out
(`TaggedUnion.answerAfter`) and what a handle reads (`TaggedUnion.readAfter`).
-/
namespace Cascade

/-- Among parts of one length, each stands at its place times that length. -/
theorem take_drop_flatMap {α β : Type} {part : α → List β} {size : Nat} {values : List α}
    (uniform : ∀ value ∈ values, (part value).length = size) {place : Nat} {value : α}
    (there : values[place]? = some value) :
    ((values.flatMap part).drop (place * size)).take size = part value := by
  induction values generalizing place with
  | nil => cases there
  | cons first values ih =>
    have head : (part first).length = size := uniform first List.mem_cons_self
    have others : ∀ value ∈ values, (part value).length = size := fun value among =>
      uniform value (List.mem_cons_of_mem first among)
    rw [List.flatMap_cons]
    cases place with
    | zero =>
      cases there
      rw [Nat.zero_mul, List.drop_zero, List.take_left' head]
    | succ place =>
      rw [Nat.succ_mul, Nat.add_comm, ← List.drop_drop, List.drop_left' head]
      exact ih others there

/-- One more value is a further distinct value if it is new. -/
theorem eraseDups_append_singleton {α : Type} [DecidableEq α] (values : List α) (value : α) :
    (values ++ [value]).eraseDups =
      if value ∈ values then values.eraseDups else values.eraseDups ++ [value] := by
  rw [List.eraseDups_append]
  split
  · next known => simp [List.removeAll, known]
  · next new =>
    have single : [value].removeAll values = [value] := by simp [List.removeAll, new]
    rw [single]
    rfl

/-- Erasing later repetitions leaves every value once. -/
theorem nodup_eraseDups {α : Type} [DecidableEq α] (values : List α) : values.eraseDups.Nodup := by
  induction values using List.reverseRecOn with
  | nil => exact List.nodup_nil
  | append_singleton values value ih =>
    rw [eraseDups_append_singleton]
    split
    · exact ih
    · next new =>
      rw [← List.mem_eraseDups] at new
      rw [← List.concat_eq_append]
      exact ih.concat new

/-- A buffer grows by its payload. -/
theorem ClassBuffer.grow_bytes (buffer : ClassBuffer) (payload : List UInt8) (values : Nat) :
    (buffer.grow payload values).bytes = buffer.bytes ++ payload.toArray :=
  Array.ext' (Array.toList_appendList.trans Array.toList_append.symm)

namespace Layout

/-- The class of a tag has the size that is declared for the tag. -/
theorem size_of_classOf? {layout : Layout} {tag : UInt8} {cls : Fin layout.classCount}
    (found : layout.classOf? tag = some cls) :
    layout.sizes[tag.toNat]? = some (layout.classSize cls) := by
  unfold classOf? at found
  split at found
  · cases found
  · next size declared =>
    obtain rfl := Option.some.inj found
    exact declared.trans (congrArg some (List.getElem_idxOf _).symm)

/-- A tag with a declared size has a class. -/
theorem classOf?_of_size {layout : Layout} {tag : UInt8} {size : Nat}
    (declared : layout.sizes[tag.toNat]? = some size) :
    ∃ cls, layout.classOf? tag = some cls ∧ layout.classSize cls = size := by
  cases found : layout.classOf? tag with
  | none =>
    unfold classOf? at found
    split at found
    · next missing => rw [declared] at missing; cases missing
    · cases found
  | some cls =>
    have sized := size_of_classOf? found
    rw [declared] at sized
    exact ⟨cls, rfl, (Option.some.inj sized).symm⟩

/-- Two classes of one size are one class. -/
theorem classSize_injective {layout : Layout} {one other : Fin layout.classCount}
    (same : layout.classSize one = layout.classSize other) : one = other :=
  (nodup_eraseDups layout.sizes).injective_get same

/-- A tag has no class exactly if no size is declared for it. -/
theorem classOf?_eq_none_iff {layout : Layout} {tag : UInt8} :
    layout.classOf? tag = none ↔ layout.sizes[tag.toNat]? = none := by
  constructor
  · intro none
    cases declared : layout.sizes[tag.toNat]? with
    | none => rfl
    | some size =>
      obtain ⟨cls, found, _⟩ := classOf?_of_size declared
      rw [none] at found
      cases found
  · intro missing
    cases found : layout.classOf? tag with
    | none => rfl
    | some cls =>
      rw [size_of_classOf? found] at missing
      cases missing

/-- Two tags share a class exactly if one size is declared for both. -/
theorem classOf?_eq_iff {layout : Layout} {one other : UInt8} :
    layout.classOf? one = layout.classOf? other ↔
      layout.sizes[one.toNat]? = layout.sizes[other.toNat]? := by
  constructor
  · intro same
    cases found : layout.classOf? other with
    | none =>
      rw [classOf?_eq_none_iff.mp found, classOf?_eq_none_iff.mp (same.trans found)]
    | some cls => rw [size_of_classOf? found, size_of_classOf? (same.trans found)]
  · intro same
    cases declared : layout.sizes[other.toNat]? with
    | none =>
      rw [classOf?_eq_none_iff.mpr declared, classOf?_eq_none_iff.mpr (same.trans declared)]
    | some size =>
      obtain ⟨first, placed, sized⟩ := classOf?_of_size (same.trans declared)
      obtain ⟨second, there, also⟩ := classOf?_of_size declared
      rw [placed, there, classSize_injective (sized.trans also.symm)]

end Layout

/-- A layout has the declared sizes. -/
theorem UnionTables.sizes_of_layout {tables : UnionTables} {layout : Layout}
    (accepted : tables.layout = .ok layout) : layout.sizes = tables.sizes := by
  unfold UnionTables.layout at accepted
  split at accepted
  · cases accepted
  · split at accepted
    · cases accepted
    · split at accepted
      · cases accepted
      · cases accepted
        rfl

namespace TaggedUnion

variable {α : Type}

/-- The declared payload size of a value; zero for a tag that is not declared. -/
def size (union : TaggedUnion α) (value : α) : Nat := union.sizes.getD (union.tag value).toNat 0

/-- The bytes of a value in a slot of its declared size. -/
def payload (union : TaggedUnion α) (value : α) : List UInt8 :=
  (union.encode value (.zeros (union.size value))).2.bytes

/-- A payload leaves a slot of its declared size as long as it was, whether it fitted or not. -/
def InPlace (union : TaggedUnion α) : Prop :=
  ∀ value, (union.payload value).length = union.size value

/-- Whether an append of the value grows the buffer of the size. -/
def touches (union : TaggedUnion α) (size : Nat) (value : α) : Bool :=
  union.sizes[(union.tag value).toNat]? == some size

/-- Whether the payload of the value fits its declared size. -/
def fits (union : TaggedUnion α) (value : α) : Bool :=
  (union.encode value (.zeros (union.size value))).1.isOk

/-- Whether an append of the value gives out a handle. -/
def accepts (union : TaggedUnion α) (value : α) : Bool :=
  union.sizes[(union.tag value).toNat]?.isSome && union.fits value

/-- Whether an append of the value is counted in the buffer of the size. -/
def counts (union : TaggedUnion α) (size : Nat) (value : α) : Bool :=
  union.touches size value && union.fits value

/-- The buffer of a size after the attempts: it has the payloads of all, and counts those that
fitted. -/
def bufferAfter (union : TaggedUnion α) (attempts : List α) (size : Nat) : ClassBuffer :=
  ⟨((attempts.filter (union.touches size)).flatMap union.payload).toArray,
    attempts.countP (union.counts size)⟩

/-- What an append answers behind the attempts. -/
def answerAfter (union : TaggedUnion α) (attempts : List α) (value : α) : Except Fault Handle :=
  match union.sizes[(union.tag value).toNat]? with
  | none => .error (.tagOutOfRange (union.tag value) union.sizes.length)
  | some size =>
    (union.encode value (.zeros size)).1.map fun _ =>
      ⟨union.tag value, UInt32.ofNat (attempts.countP (union.counts size))⟩

/-- What a handle reads behind the attempts: as a value of its own tag, the payload that stands at
its slot among those of the size of its tag. -/
def readAfter (union : TaggedUnion α) (attempts : List α) (handle : Handle) : Except Fault α :=
  match union.sizes[handle.tag.toNat]? with
  | none => .error (.tagOutOfRange handle.tag union.sizes.length)
  | some size =>
    let held := attempts.countP (union.counts size)
    if handle.slot.toNat < held then
      match (attempts.filter (union.touches size))[handle.slot.toNat]? with
      | some value => (union.decode handle.tag (.ofBytes (union.payload value))).1
      | none => .error .rangePastEnd
    else .error (.slotOutOfRange handle union.name held)

variable {union : TaggedUnion α}

/-- The value grows the buffer of the size that is declared for its tag. -/
theorem touches_iff {size : Nat} {value : α} :
    union.touches size value = true ↔ union.sizes[(union.tag value).toNat]? = some size :=
  beq_iff_eq

/-- A declared size is the size of the value. -/
theorem size_of_declared {size : Nat} {value : α}
    (declared : union.sizes[(union.tag value).toNat]? = some size) : union.size value = size := by
  rw [TaggedUnion.size, List.getD_eq_getElem?_getD, declared, Option.getD_some]

/-- What is counted in some buffer was accepted, and what was not accepted is counted in none. -/
theorem counts_of_refused {value : α} (refused : union.accepts value = false) (size : Nat) :
    union.counts size value = false := by
  cases touched : union.touches size value with
  | false => rw [counts, touched, Bool.false_and]
  | true =>
    rw [accepts, touches_iff.mp touched, Option.isSome_some, Bool.true_and] at refused
    rw [counts, refused, Bool.and_false]

/-- An append gives out a handle exactly if the value is accepted. -/
theorem answerAfter_isOk (attempts : List α) (value : α) :
    (union.answerAfter attempts value).isOk = union.accepts value := by
  cases declared : union.sizes[(union.tag value).toNat]? with
  | none => simp only [answerAfter, accepts, declared, Option.isSome_none, Bool.false_and]; rfl
  | some size =>
    simp only [answerAfter, accepts, fits, declared, Option.isSome_some, Bool.true_and,
      size_of_declared declared]
    cases (union.encode value (.zeros size)).1 <;> rfl

/-- An append that gives out a handle is counted, and the handle has the tag of the value with the
number of values that its buffer counted before. -/
theorem answerAfter_eq_ok {attempts : List α} {value : α} {handle : Handle} :
    union.answerAfter attempts value = .ok handle ↔
      ∃ size, union.counts size value = true ∧
        handle = ⟨union.tag value, UInt32.ofNat (attempts.countP (union.counts size))⟩ := by
  cases declared : union.sizes[(union.tag value).toNat]? with
  | none => simp [answerAfter, counts, touches, declared]
  | some size =>
    simp only [answerAfter, counts, touches, fits, declared, size_of_declared declared]
    cases (union.encode value (.zeros size)).1 with
    | error fault => simp [Except.map, Except.isOk, Except.toBool]
    | ok _ => simpa [Except.map, Except.isOk, Except.toBool] using eq_comm

/-- No more values are counted than have left their payload. -/
theorem countP_counts_le (attempts : List α) (size : Nat) :
    attempts.countP (union.counts size) ≤ (attempts.filter (union.touches size)).length := by
  rw [← List.countP_eq_length_filter]
  exact List.countP_mono_left fun value _ counted => (Bool.and_eq_true_iff.mp counted).1

/-- An attempt that grows the buffer adds its payload, and counts if it fitted. -/
theorem bufferAfter_touched {attempts : List α} {value : α} {size : Nat}
    (touched : union.touches size value = true) :
    union.bufferAfter (attempts ++ [value]) size =
      (union.bufferAfter attempts size).grow (union.payload value) (union.fits value).toNat := by
  have held : [value].filter (union.touches size) = [value] := List.filter_cons_of_pos touched
  have counted : [value].countP (union.counts size) = (union.fits value).toNat := by
    cases fitted : union.fits value <;> simp [counts, touched, fitted]
  simp only [bufferAfter, List.filter_append, held, List.flatMap_append, List.flatMap_cons,
    List.flatMap_nil, List.append_nil, List.countP_append, counted, ClassBuffer.grow,
    List.toArray_appendList]

/-- An attempt leaves the other buffers alone. -/
theorem bufferAfter_untouched {attempts : List α} {value : α} {size : Nat}
    (untouched : union.touches size value = false) :
    union.bufferAfter (attempts ++ [value]) size = union.bufferAfter attempts size := by
  have skipped : [value].filter (union.touches size) = [] := by simp [untouched]
  have uncounted : [value].countP (union.counts size) = 0 := by simp [counts, untouched]
  simp only [bufferAfter, List.filter_append, skipped, List.append_nil, List.countP_append,
    uncounted, Nat.add_zero]

end TaggedUnion

namespace DenseList

variable {α : Type} {union : TaggedUnion α}

/-- The layout of a list has the declared sizes. -/
theorem layout_sizes (list : DenseList union) : list.layout.sizes = union.sizes :=
  UnionTables.sizes_of_layout list.accepted

/-- An append under a tag that is not declared changes nothing. -/
theorem append_undeclared (list : DenseList union) {value : α}
    (missing : union.sizes[(union.tag value).toNat]? = none) :
    list.append value =
      (.error (.tagOutOfRange (union.tag value) union.sizes.length), list) := by
  rw [← list.layout_sizes] at missing
  simp only [append, Layout.classOf?_eq_none_iff.mpr missing, Layout.variantCount,
    list.layout_sizes]

/-- An append under a declared tag grows the buffer of its size by the payload. It counts the value
and gives out a handle if the payload fitted. -/
theorem append_declared (list : DenseList union) {value : α} {size : Nat}
    (declared : union.sizes[(union.tag value).toNat]? = some size) :
    ∃ cls, list.layout.classSize cls = size ∧
      list.append value =
        ((union.encode value (.zeros size)).1.map fun _ =>
          ⟨union.tag value, UInt32.ofNat (list.buffers.get cls).count⟩,
          { list with
            buffers := list.buffers.set cls
              ((list.buffers.get cls).grow (union.payload value) (union.fits value).toNat)
            length := list.length + (union.fits value).toNat }) := by
  have there := declared
  rw [← list.layout_sizes] at there
  obtain ⟨cls, found, sized⟩ := Layout.classOf?_of_size there
  refine ⟨cls, sized, ?_⟩
  have known : union.size value = size := TaggedUnion.size_of_declared declared
  obtain ⟨⟨written, slot⟩, put⟩ : ∃ result, union.encode value (.zeros size) = result := ⟨_, rfl⟩
  simp only [append, found, sized, TaggedUnion.payload, TaggedUnion.fits, known, put,
    ClassBuffer.growAt_eq_set]
  cases written <;> rfl

/-- The list after the given values were appended in order. -/
def after (list : DenseList union) (values : List α) : DenseList union :=
  values.foldl (fun list value => (list.append value).2) list

/-- What appending the values gives out, one after the other. -/
def answers (list : DenseList union) : List α → List (Except Fault Handle)
  | [] => []
  | value :: values => (list.append value).1 :: (list.append value).2.answers values

/-- The answers are those of the appends, each behind the ones before it. -/
theorem mem_answers {list : DenseList union} {values : List α} {answer : Except Fault Handle} :
    answer ∈ list.answers values ↔ ∃ earlier value later, values = earlier ++ value :: later ∧
      ((list.after earlier).append value).1 = answer := by
  induction values generalizing list with
  | nil => simp [answers]
  | cons first values ih =>
    rw [answers, List.mem_cons, ih]
    constructor
    · rintro (rfl | ⟨earlier, value, later, rfl, given⟩)
      · exact ⟨[], first, values, rfl, rfl⟩
      · exact ⟨first :: earlier, value, later, rfl, given⟩
    · rintro ⟨earlier, value, later, split, given⟩
      cases earlier with
      | nil =>
        cases split
        exact .inl given.symm
      | cons _ earlier =>
        cases split
        exact .inr ⟨earlier, value, later, rfl, given⟩

/-- What was attempted on the list, from the first append on. -/
structure Attempted (list : DenseList union) (attempts : List α) : Prop where
  /-- Every buffer holds the payloads of its size. -/
  buffers : ∀ cls, list.buffers.get cls = union.bufferAfter attempts (list.layout.classSize cls)
  /-- Every value that was accepted is counted. -/
  length : list.length = attempts.countP union.accepts

/-- Nothing was attempted on a new list. -/
theorem attempted_new {list : DenseList union} (fresh : new? union = .ok list) :
    list.Attempted [] := by
  unfold new? at fresh
  split at fresh
  · cases fresh
    exact ⟨fun cls => Vector.getElem_replicate _, rfl⟩
  · cases fresh

/-- Every buffer counts its values in 32 bits. -/
def CountsFit (list : DenseList union) : Prop := ∀ cls, (list.buffers.get cls).count < 2 ^ 32

namespace Attempted

variable {list : DenseList union} {attempts : List α}

/-- After fewer than 2^32 attempts the counts are numbers of 32 bits. -/
theorem countsFit (attempted : list.Attempted attempts) (few : attempts.length < 2 ^ 32) :
    list.CountsFit := by
  intro cls
  rw [attempted.buffers cls]
  exact Nat.lt_of_le_of_lt List.countP_le_length few

/-- An append answers what its history says, and is then part of the history. -/
theorem append (attempted : list.Attempted attempts) (value : α) :
    (list.append value).1 = union.answerAfter attempts value ∧
      (list.append value).2.Attempted (attempts ++ [value]) := by
  cases declared : union.sizes[(union.tag value).toNat]? with
  | none =>
    rw [append_undeclared list declared]
    refine ⟨by simp only [TaggedUnion.answerAfter, declared], fun cls => ?_, ?_⟩
    · rw [attempted.buffers, TaggedUnion.bufferAfter_untouched]
      simp only [TaggedUnion.touches, declared]
      rfl
    · rw [attempted.length, List.countP_append]
      simp [TaggedUnion.accepts, declared]
  | some size =>
    obtain ⟨cls, sized, appended⟩ := append_declared list declared
    rw [appended]
    refine ⟨?_, fun other => ?_, ?_⟩
    · simp only [TaggedUnion.answerAfter, declared, attempted.buffers, sized,
        TaggedUnion.bufferAfter]
    · by_cases same : cls = other
      · subst same
        have touched : union.touches (list.layout.classSize cls) value = true :=
          TaggedUnion.touches_iff.mpr (declared.trans (congrArg some sized.symm))
        rw [TaggedUnion.bufferAfter_touched touched, ← attempted.buffers]
        exact Vector.getElem_set_self _
      · have apart : union.touches (list.layout.classSize other) value = false := by
          rw [Bool.eq_false_iff]
          intro touched
          have also := TaggedUnion.touches_iff.mp touched
          rw [declared, Option.some.injEq] at also
          exact same (Layout.classSize_injective (sized.trans also))
        rw [TaggedUnion.bufferAfter_untouched apart, ← attempted.buffers]
        exact Vector.getElem_set_ne cls.isLt other.isLt fun equal => same (Fin.ext equal)
    · simp only [attempted.length, List.countP_append]
      cases fitted : union.fits value <;> simp [TaggedUnion.accepts, declared, fitted]

/-- A run of appends is added to the history. -/
theorem after (attempted : list.Attempted attempts) (further : List α) :
    (list.after further).Attempted (attempts ++ further) := by
  induction further generalizing list attempts with
  | nil => simpa [DenseList.after] using attempted
  | cons value further ih =>
    have grown := ih (attempted.append value).2
    rwa [List.append_assoc, List.singleton_append] at grown

/-- What the appends answer, each behind the history before it. -/
theorem mem_answers (attempted : list.Attempted attempts) {values : List α}
    {answer : Except Fault Handle} :
    answer ∈ list.answers values ↔ ∃ earlier value later, values = earlier ++ value :: later ∧
      union.answerAfter (attempts ++ earlier) value = answer := by
  have same (earlier : List α) (value : α) :
      ((list.after earlier).append value).1 = union.answerAfter (attempts ++ earlier) value :=
    ((attempted.after earlier).append value).1
  simp only [DenseList.mem_answers, same]

/-- A handle reads what the history of the list says. -/
theorem get (inPlace : union.InPlace) (attempted : list.Attempted attempts) (handle : Handle) :
    list.get handle = union.readAfter attempts handle := by
  cases declared : union.sizes[handle.tag.toNat]? with
  | none =>
    have missing := declared
    rw [← list.layout_sizes] at missing
    simp only [DenseList.get, TaggedUnion.readAfter, Layout.classOf?_eq_none_iff.mpr missing,
      declared, Layout.variantCount, list.layout_sizes]
  | some size =>
    have there := declared
    rw [← list.layout_sizes] at there
    obtain ⟨cls, found, sized⟩ := Layout.classOf?_of_size there
    simp only [DenseList.get, TaggedUnion.readAfter, found, declared, attempted.buffers, sized,
      TaggedUnion.bufferAfter]
    split
    · next counted =>
      have long := Nat.lt_of_lt_of_le counted (TaggedUnion.countP_counts_le attempts size)
      have uniform : ∀ value ∈ attempts.filter (union.touches size),
          (union.payload value).length = size := by
        intro value among
        rw [inPlace value]
        exact TaggedUnion.size_of_declared
          (TaggedUnion.touches_iff.mp (List.mem_filter.mp among).2)
      have filled : ((attempts.filter (union.touches size)).flatMap union.payload).length =
          (attempts.filter (union.touches size)).length * size := by
        rw [List.length_flatMap, List.sum_eq_card_nsmul _ size (List.forall_mem_map.mpr uniform),
          List.length_map, Nat.nsmul_eq_mul]
      have inside : handle.slot.toNat * size + size ≤
          ((attempts.filter (union.touches size)).flatMap union.payload).toArray.size := by
        rw [List.size_toArray, filled, ← Nat.succ_mul]
        exact Nat.mul_le_mul_right size long
      have slice := take_drop_flatMap uniform (List.getElem?_eq_getElem long)
      simp only [if_pos inside, List.getElem?_eq_getElem long, Array.toList_extract,
        List.extract_eq_take_drop, Nat.add_sub_cancel_left, slice]
    · rfl

end Attempted

end DenseList

end Cascade
