import Cascade.Proofs.Arena

/-!
# A failed append spares what is stored

An append that faults is an attempt that is not accepted. Such an attempt leaves at most its bytes
behind those of its size class, where no handle that reads within the counted values meets them. So
every handle reads what it read before, and everything that is done to other size classes goes on
as if the attempt had not been made. Later values of its own class do not share that luck: they are
appended behind the stray bytes, while their slots are counted without them.
-/
namespace Cascade

namespace TaggedUnion

variable {α : Type} {union : TaggedUnion α}

/-- Payloads written field by field stay within their slots. -/
theorem inPlace_of_keepsLength (keeps : ∀ value, SlotAction.KeepsLength (union.encode value)) :
    union.InPlace := fun value =>
  (keeps value (.zeros (union.size value))).trans List.length_replicate

/-- An attempt that was not accepted is not read by any handle. -/
theorem readAfter_refused {attempts : List α} {value : α} (refused : union.accepts value = false)
    (handle : Handle) :
    union.readAfter (attempts ++ [value]) handle = union.readAfter attempts handle := by
  unfold readAfter
  cases union.sizes[handle.tag.toNat]? with
  | none => rfl
  | some size =>
    have uncounted : [value].countP (union.counts size) = 0 :=
      List.countP_eq_zero.mpr (by simp [counts_of_refused refused])
    simp only [List.countP_append, uncounted, Nat.add_zero]
    split
    · next counted =>
      have long := Nat.lt_of_lt_of_le counted (countP_counts_le attempts size)
      rw [List.filter_append, List.getElem?_append_left long]
    · rfl

/-- The attempt is told neither by the payloads of another size nor by their number. -/
theorem others_without (earlier further : List α) {value : α} {size : Nat}
    (untouched : union.touches size value = false) :
    (earlier ++ value :: further).filter (union.touches size) =
        (earlier ++ further).filter (union.touches size) ∧
      (earlier ++ value :: further).countP (union.counts size) =
        (earlier ++ further).countP (union.counts size) := by
  have uncounted : ¬ union.counts size value = true := by simp [counts, untouched]
  have skipped : ¬ union.touches size value = true := by simp [untouched]
  constructor
  · rw [List.filter_append, List.filter_cons_of_neg skipped, List.filter_append]
  · rw [List.countP_append, List.countP_cons_of_neg uncounted, List.countP_append]

/-- Whatever an attempt does is not read by handles of other sizes. -/
theorem readAfter_without {earlier further : List α} {value : α} {handle : Handle}
    (apart : union.sizes[handle.tag.toNat]? ≠ union.sizes[(union.tag value).toNat]?) :
    union.readAfter (earlier ++ value :: further) handle =
      union.readAfter (earlier ++ further) handle := by
  unfold readAfter
  cases declared : union.sizes[handle.tag.toNat]? with
  | none => rfl
  | some size =>
    rw [declared] at apart
    obtain ⟨payloads, number⟩ := others_without earlier further
      (beq_eq_false_iff_ne.mpr apart.symm)
    simp only [payloads, number]

/-- Whatever an attempt does is not told by the answers to appends of other sizes. -/
theorem answerAfter_without {earlier further : List α} {value other : α}
    (apart : union.sizes[(union.tag other).toNat]? ≠ union.sizes[(union.tag value).toNat]?) :
    union.answerAfter (earlier ++ value :: further) other =
      union.answerAfter (earlier ++ further) other := by
  unfold answerAfter
  cases declared : union.sizes[(union.tag other).toNat]? with
  | none => rfl
  | some size =>
    rw [declared] at apart
    obtain ⟨_, number⟩ := others_without earlier further
      (beq_eq_false_iff_ne.mpr apart.symm)
    simp only [number]

end TaggedUnion

/-- A failed append, whatever was appended or failed before it, changes neither how many values the
list has nor what any handle reads; under a tag that is not declared it changes nothing at all.
Whatever is appended or fails after it, appends to other size classes give out the same handles, and
handles of other size classes read the same, as if the failed append had not been made. As long as
fewer than 2^32 values were tried, the counts are numbers of 32 bits. -/
theorem failed_append_spares_stored_values {α : Type} (union : TaggedUnion α) (layout : Layout)
    (accepted : union.layout = .ok layout) (inPlace : union.InPlace) :
    ∃ list, DenseList.new? union = .ok list ∧
      ∀ (earlier : List α) (value : α) (fault : Fault) (before after : DenseList union),
        before = list.after earlier → before.append value = (.error fault, after) →
        (after.length = before.length ∧ after.isEmpty = before.isEmpty ∧
          ∀ handle, after.get handle = before.get handle) ∧
        (layout.classOf? (union.tag value) = none → after = before) ∧
        ∀ further : List α,
          ((earlier ++ [value] ++ further).length < 2 ^ 32 → (after.after further).CountsFit) ∧
          (∀ other, layout.classOf? (union.tag other) ≠ layout.classOf? (union.tag value) →
            ((after.after further).append other).1 = ((before.after further).append other).1) ∧
          ∀ handle, layout.classOf? handle.tag ≠ layout.classOf? (union.tag value) →
            (after.after further).get handle = (before.after further).get handle := by
  obtain ⟨list, fresh⟩ := DenseList.new?_of_layout accepted
  have sizes : layout.sizes = union.sizes := UnionTables.sizes_of_layout accepted
  simp only [ne_eq, Layout.classOf?_eq_iff, Layout.classOf?_eq_none_iff, sizes]
  refine ⟨list, fresh, ?_⟩
  rintro earlier value fault before after rfl failed
  have known := (DenseList.attempted_new fresh).after earlier
  rw [List.nil_append] at known
  obtain ⟨answered, tried⟩ := known.append value
  rw [failed] at answered tried
  have refused : union.accepts value = false := by
    rw [← TaggedUnion.answerAfter_isOk earlier value, ← answered]
    rfl
  have counted : after.length = (list.after earlier).length := by
    rw [tried.length, known.length, List.countP_append, List.countP_singleton, refused]
    rfl
  refine ⟨⟨counted, by rw [DenseList.isEmpty, counted, DenseList.isEmpty], fun handle => ?_⟩,
    fun missing => ?_, fun further => ?_⟩
  · rw [tried.get inPlace, known.get inPlace, TaggedUnion.readAfter_refused refused]
  · rw [DenseList.append_undeclared _ missing] at failed
    exact (Prod.mk.inj failed).2.symm
  · have stained := tried.after further
    rw [List.append_assoc, List.singleton_append] at stained
    have clean := known.after further
    rw [List.append_assoc, List.singleton_append]
    refine ⟨stained.countsFit, fun other apart => ?_, fun handle apart => ?_⟩
    · rw [(stained.append other).1, (clean.append other).1, TaggedUnion.answerAfter_without apart]
    · rw [stained.get inPlace, clean.get inPlace, TaggedUnion.readAfter_without apart]

/-- Words of four bytes under a tag of their own choice; the second variant declares two bytes. -/
def taggedWords : TaggedUnion (UInt8 × UInt32) where
  name := "Words"
  tags := [0, 1, 2]
  sizes := [4, 2, 4]
  tag := Prod.fst
  encode value := Field.putAll [.word value.2]
  decode tag := do return (tag, ← .takeWord)

/-- A word that does not fit its two bytes spares the word before it, and the next word of another
size is read back. -/
theorem narrow_word_spares_wide_words :
    ∃ list after, DenseList.new? taggedWords = .ok list ∧
      (list.after [(0, 7)]).append (1, 5) = (.error .rangePastEnd, after) ∧
      after.length = 1 ∧ after.get ⟨0, 0⟩ = .ok (0, 7) ∧
      ((after.after [(1, 6)]).append (2, 8)).1 = .ok ⟨2, 1⟩ ∧
      (after.after [(1, 6), (2, 8)]).get ⟨2, 1⟩ = .ok (2, 8) := by
  obtain ⟨list, fresh, spares⟩ := failed_append_spares_stored_values taggedWords ⟨[4, 2, 4]⟩ rfl
    (TaggedUnion.inPlace_of_keepsLength fun value => Field.keepsLength_putAll _)
  have new : DenseList.new? taggedWords =
      .ok ⟨⟨[4, 2, 4]⟩, rfl, Vector.replicate _ .empty, 0⟩ := rfl
  obtain rfl := Except.ok.inj (new.symm.trans fresh)
  obtain ⟨⟨counted, _, kept⟩, _, later⟩ := spares [(0, 7)] (1, 5) .rangePastEnd _ _ rfl rfl
  refine ⟨_, _, fresh, rfl, counted, (kept _).trans (by rfl), ?_, ?_⟩
  · exact ((later [(1, 6)]).2.1 (2, 8) (by decide)).trans (by rfl)
  · exact ((later [(1, 6), (2, 8)]).2.2 ⟨2, 1⟩ (by decide)).trans (by rfl)

end Cascade
