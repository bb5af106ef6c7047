/-!
# Layouts of tagged unions

A union declares a tag and a payload size for each of its variants. Variants of one size share a
size class, and the classes are numbered in the order in which their sizes first appear. A layout
exists exactly when the tags count up from zero and every tag has a size.
-/
namespace Cascade

/-- What a union declares: its name, and a tag and a payload size for each variant. -/
structure UnionTables where
  /-- The name shown in errors. -/
  name : String
  /-- The tag of each variant. -/
  tags : List UInt8
  /-- The payload size of each variant, in bytes. -/
  sizes : List Nat
  deriving DecidableEq, Repr

/-- Why the tables of a union make no layout. -/
inductive LayoutError where
  /-- There are no variants. -/
  | empty (union : String)
  /-- There are more tags than sizes or more sizes than tags. -/
  | mismatchedTables (union : String) (tags sizes : Nat)
  /-- The tag at `index` is not `index`. -/
  | nonSequentialTags (union : String) (index : Nat) (found : UInt8)
  deriving DecidableEq, Repr

/-- The wording of a layout error. -/
def LayoutError.message : LayoutError → String
  | .empty union => s!"{union} declares no variants"
  | .mismatchedTables union tags sizes => s!"{union} lists {tags} tags but {sizes} payload sizes"
  | .nonSequentialTags union index found =>
    s!"{union} variant {index} has tag {found}; tags must be the sequence 0..N-1"

/-- The payload size of every tag, in the order of the tags. -/
structure Layout where
  /-- The size of each variant's payload. -/
  sizes : List Nat
  deriving DecidableEq, Repr

namespace Layout

/-- The distinct sizes in the order of their first appearance; each is a size class. -/
def classSizes (layout : Layout) : List Nat := layout.sizes.eraseDups

/-- How many variants there are. -/
def variantCount (layout : Layout) : Nat := layout.sizes.length

/-- How many size classes there are. -/
def classCount (layout : Layout) : Nat := layout.classSizes.length

/-- The largest payload size. -/
def maxSize (layout : Layout) : Nat := layout.sizes.foldl max 0

/-- The size class of a tag; none for a tag beyond the declared ones. -/
def classOf? (layout : Layout) (tag : UInt8) : Option (Fin layout.classCount) :=
  match declared : layout.sizes[tag.toNat]? with
  | none => none
  | some size =>
    some ⟨layout.classSizes.idxOf size,
      List.idxOf_lt_length_of_mem (List.mem_eraseDups.mpr (List.mem_of_getElem? declared))⟩

/-- The payload size of a class. -/
def classSize (layout : Layout) (cls : Fin layout.classCount) : Nat := layout.classSizes.get cls

end Layout

/-- The first index from `start` on whose tag is another number. -/
def firstStrayTag? (start : Nat) : List UInt8 → Option (Nat × UInt8)
  | [] => none
  | tag :: rest => if tag.toNat = start then firstStrayTag? (start + 1) rest else some (start, tag)

/-- The layout of the tables, or the first thing that is wrong with them. -/
def UnionTables.layout (tables : UnionTables) : Except LayoutError Layout :=
  if tables.tags.isEmpty then .error (.empty tables.name)
  else if tables.tags.length ≠ tables.sizes.length then
    .error (.mismatchedTables tables.name tables.tags.length tables.sizes.length)
  else
    match firstStrayTag? 0 tables.tags with
    | some (index, found) => .error (.nonSequentialTags tables.name index found)
    | none => .ok ⟨tables.sizes⟩

end Cascade
