import Std.Data.HashMap

/-!
# Symbols

An interner numbers texts by their first occurrence, so that a fixed-width symbol can stand for a
text in stored bytes. The number of a text never changes, and interning a text again gives the
symbol it already has. The largest 32-bit number is no symbol.
-/
namespace Cascade

/-- The number of an interned text. -/
structure Symbol where
  /-- The number itself. -/
  raw : UInt32
  /-- The largest number stands for no text. -/
  valid : raw ≠ 0xFFFFFFFF
  deriving DecidableEq, Repr

namespace Symbol

/-- How many symbols there are. -/
def limit : Nat := UInt32.size - 1

/-- The symbol of a raw number. -/
def ofRaw? (raw : UInt32) : Option Symbol := if h : raw ≠ 0xFFFFFFFF then some ⟨raw, h⟩ else none

/-- The symbol of an index; indices are told apart below `limit`. -/
def ofIndex (index : Nat) : Symbol where
  raw := UInt32.ofNat (index % limit)
  valid same := by
    have below : index % limit < limit := Nat.mod_lt _ (by decide)
    have value := congrArg UInt32.toNat same
    rw [UInt32.toNat_ofNat', Nat.mod_eq_of_lt (Nat.lt_trans below (by decide))] at value
    exact absurd value (Nat.ne_of_lt below)

/-- The index a symbol stands for. -/
def index (symbol : Symbol) : Nat := symbol.raw.toNat

/-- An index below the limit is recovered from its symbol. -/
theorem index_ofIndex {index : Nat} (below : index < limit) : (ofIndex index).index = index := by
  have small : index < UInt32.size := Nat.lt_trans below (by decide)
  simp only [Symbol.index, ofIndex, Nat.mod_eq_of_lt below]
  rw [UInt32.toNat_ofNat', Nat.mod_eq_of_lt small]

end Symbol

/-- Texts numbered in the order of their first occurrence. -/
structure Interner where
  /-- The texts, each at its number. -/
  texts : Array String
  /-- The number of each text. -/
  numbers : Std.HashMap String Nat
  /-- The two directions agree. -/
  consistent : ∀ (text : String) (number : Nat), numbers[text]? = some number ↔ texts[number]? = some text

namespace Interner

/-- An interner that has seen no text. -/
def empty : Interner := ⟨#[], ∅, by simp⟩

/-- How many texts have been seen. -/
def size (interner : Interner) : Nat := interner.texts.size

/-- Whether no text has been seen. -/
def isEmpty (interner : Interner) : Bool := interner.texts.isEmpty

/-- The symbol of a text, which is a new one when the text has not been seen. -/
def intern (interner : Interner) (text : String) : Symbol × Interner :=
  match known : interner.numbers[text]? with
  | some number => (.ofIndex number, interner)
  | none =>
    (.ofIndex interner.texts.size,
      { texts := interner.texts.push text
        numbers := interner.numbers.insert text interner.texts.size
        consistent := by
          intro other number
          have old := interner.consistent
          rw [Std.HashMap.getElem?_insert, Array.getElem?_push]
          by_cases same : text = other
          · subst same
            have absent : ¬ interner.texts[number]? = some text := by
              rw [← old, known]; simp
            by_cases last : number = interner.texts.size
            · simp [last]
            · simp [last, absent, Ne.symm last]
          · by_cases last : number = interner.texts.size
            · subst last
              have none : ¬ interner.numbers[other]? = some interner.texts.size := by
                rw [old]; simp
              simp [same, none]
            · simp [same, last, old] })

/-- The symbol of a text that has been seen. -/
def find? (interner : Interner) (text : String) : Option Symbol :=
  interner.numbers[text]?.map .ofIndex

/-- The text of a symbol, if the interner has given it out. -/
def resolve? (interner : Interner) (symbol : Symbol) : Option String :=
  interner.texts[symbol.index]?

/-- The number of texts seen, on one line. -/
def summary (interner : Interner) : String := s!"StringInterner \x7b len: {interner.size} \x7d"

end Interner

end Cascade
