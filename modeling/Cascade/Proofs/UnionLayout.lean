import Cascade.Proofs.Footprint
import Cascade.Proofs.Attempts

/-!
# Union layouts

A layout exists exactly for tables whose tags count up from zero, and the first thing that is wrong
with other tables is what is reported (`UnionTables.layout_eq_error_iff`). The size classes of a
layout are the distinct sizes, numbered as they first appear. A single pass over the tables that
looks every size up among the classes seen so far, and stops at the first stray tag, builds the same
classes (`UnionTables.scan`).
-/
namespace Cascade

/-- The first tag that is not its own index. -/
structure UnionTables.Strays (tables : UnionTables) (index : Nat) (found : UInt8) : Prop where
  /-- The tag stands at the index. -/
  tag : tables.tags[index]? = some found
  /-- It is another number. -/
  stray : found.toNat ≠ index
  /-- Every tag before it is its own index. -/
  first : ∀ (earlier : Nat) (tag : UInt8), earlier < index → tables.tags[earlier]? = some tag →
    tag.toNat = earlier

/-- There are variants, each has a size, and every tag is its own index. -/
structure UnionTables.Sequential (tables : UnionTables) : Prop where
  /-- There are variants. -/
  variants : tables.tags ≠ []
  /-- Every variant has a size. -/
  matched : tables.tags.length = tables.sizes.length
  /-- Every tag is its own index. -/
  counted : ∀ (index : Nat) (tag : UInt8), tables.tags[index]? = some tag → tag.toNat = index

/-- There is no stray tag if the tags count up from the start. -/
theorem firstStrayTag?_eq_none_iff {start : Nat} {tags : List UInt8} :
    firstStrayTag? start tags = none ↔
      ∀ index tag, tags[index]? = some tag → tag.toNat = start + index := by
  induction tags generalizing start with
  | nil => simp [firstStrayTag?]
  | cons tag tags ih =>
    rw [firstStrayTag?]
    constructor
    · intro none index other there
      split at none
      · next counted =>
        cases index with
        | zero =>
          cases there
          exact counted
        | succ index =>
          have later := ih.mp none index other there
          omega
      · cases none
    · intro counted
      have here : tag.toNat = start := counted 0 tag rfl
      rw [if_pos here, ih]
      intro index other there
      have later := counted (index + 1) other there
      omega

/-- The first stray tag is stray, and those before it count up from the start. -/
theorem firstStrayTag?_eq_some {start index : Nat} {found : UInt8} {tags : List UInt8}
    (strays : firstStrayTag? start tags = some (index, found)) :
    ∃ place, index = start + place ∧ tags[place]? = some found ∧ found.toNat ≠ index ∧
      ∀ earlier tag, earlier < place → tags[earlier]? = some tag → tag.toNat = start + earlier := by
  induction tags generalizing start with
  | nil => cases strays
  | cons tag tags ih =>
    rw [firstStrayTag?] at strays
    split at strays
    · next counted =>
      obtain ⟨place, same, there, stray, first⟩ := ih strays
      refine ⟨place + 1, by omega, there, stray, fun earlier other before found => ?_⟩
      cases earlier with
      | zero =>
        cases found
        exact counted
      | succ earlier =>
        have later := first earlier other (by omega) found
        omega
    · next stray =>
      cases strays
      exact ⟨0, rfl, rfl, stray, fun _ _ before => absurd before (Nat.not_lt_zero _)⟩

namespace UnionTables

variable {tables : UnionTables} {index : Nat} {found : UInt8}

/-- Only one tag is the first stray one. -/
theorem Strays.unique {other : Nat} {tag : UInt8} (strays : tables.Strays index found)
    (also : tables.Strays other tag) : index = other ∧ found = tag := by
  have same : index = other := by
    rcases Nat.lt_trichotomy index other with before | same | behind
    · exact absurd (also.first index found before strays.tag) strays.stray
    · exact same
    · exact absurd (strays.first other tag behind also.tag) also.stray
  subst same
  exact ⟨rfl, Option.some.inj (strays.tag.symm.trans also.tag)⟩

/-- The search finds the first stray tag. -/
theorem firstStrayTag?_iff : firstStrayTag? 0 tables.tags = some (index, found) ↔
    tables.Strays index found := by
  have strays_of {place : Nat} {tag : UInt8}
      (there : firstStrayTag? 0 tables.tags = some (place, tag)) : tables.Strays place tag := by
    obtain ⟨_, same, held, stray, first⟩ := firstStrayTag?_eq_some there
    rw [Nat.zero_add] at same
    subst same
    exact ⟨held, stray, fun earlier tag before held => by
      rw [first earlier tag before held, Nat.zero_add]⟩
  refine ⟨strays_of, fun strays => ?_⟩
  cases there : firstStrayTag? 0 tables.tags with
  | none =>
    have counted := firstStrayTag?_eq_none_iff.mp there index found strays.tag
    exact absurd (counted.trans (Nat.zero_add _)) strays.stray
  | some other =>
    obtain ⟨same, tag⟩ := (strays_of there).unique strays
    rw [← same, ← tag]

/-- Tables have a layout exactly if their tags are sequential, and it has the declared sizes. -/
theorem layout_eq_ok_iff {layout : Layout} :
    tables.layout = .ok layout ↔ tables.Sequential ∧ layout = ⟨tables.sizes⟩ := by
  constructor
  · intro accepted
    unfold UnionTables.layout at accepted
    split at accepted
    · cases accepted
    next variants =>
    split at accepted
    · cases accepted
    next matched =>
    split at accepted
    · cases accepted
    next counted =>
    cases accepted
    refine ⟨⟨fun none => variants (List.isEmpty_iff.mpr none), Decidable.not_not.mp matched, ?_⟩,
      rfl⟩
    intro index tag there
    rw [firstStrayTag?_eq_none_iff.mp counted index tag there, Nat.zero_add]
  · rintro ⟨sequential, rfl⟩
    have counted : firstStrayTag? 0 tables.tags = none :=
      firstStrayTag?_eq_none_iff.mpr fun index tag there => by
        rw [sequential.counted index tag there, Nat.zero_add]
    unfold UnionTables.layout
    rw [if_neg (fun none => sequential.variants (List.isEmpty_iff.mp none)),
      if_neg (Decidable.not_not.mpr sequential.matched), counted]

/-- What is reported of tables is the first thing that is wrong with them: that there are no
variants, that the tables are of different lengths, or the first stray tag. -/
theorem layout_eq_error_iff {error : LayoutError} : tables.layout = .error error ↔
    (tables.tags = [] ∧ error = .empty tables.name) ∨
    (tables.tags ≠ [] ∧ tables.tags.length ≠ tables.sizes.length ∧
      error = .mismatchedTables tables.name tables.tags.length tables.sizes.length) ∨
    (tables.tags ≠ [] ∧ tables.tags.length = tables.sizes.length ∧
      ∃ index found, tables.Strays index found ∧
        error = .nonSequentialTags tables.name index found) := by
  unfold UnionTables.layout
  by_cases none : tables.tags = []
  · rw [if_pos (List.isEmpty_iff.mpr none)]
    simp [none, eq_comm]
  rw [if_neg (fun empty => none (List.isEmpty_iff.mp empty))]
  by_cases matched : tables.tags.length = tables.sizes.length
  · rw [if_neg (Decidable.not_not.mpr matched)]
    cases there : firstStrayTag? 0 tables.tags with
    | none =>
      have straight (index : Nat) (found : UInt8) : ¬ tables.Strays index found := by
        rw [← firstStrayTag?_iff, there]
        exact nofun
      simp [none, matched, straight]
    | some stray =>
      obtain ⟨place, tag⟩ := stray
      have strays := firstStrayTag?_iff.mp there
      constructor
      · intro reported
        cases reported
        exact .inr (.inr ⟨none, matched, place, tag, strays, rfl⟩)
      · rintro (⟨empty, _⟩ | ⟨_, unmatched, _⟩ | ⟨_, _, index, found, also, rfl⟩)
        · exact absurd empty none
        · exact absurd matched unmatched
        · obtain ⟨rfl, rfl⟩ := strays.unique also
          rfl
  · rw [if_pos matched]
    simp [none, matched, eq_comm]

/-- An index below the number of sizes is a tag. -/
theorem Sequential.tag (sequential : tables.Sequential) (declared : index < tables.sizes.length) :
    ∃ tag : UInt8, tag.toNat = index := by
  rw [← sequential.matched] at declared
  exact ⟨tables.tags[index], sequential.counted index _ (List.getElem?_eq_getElem declared)⟩

end UnionTables

/-- Distinct values stand in the order in which they first appear. -/
theorem idxOf_eraseDups_lt_iff {values : List Nat} {one other : Nat} (first : one ∈ values)
    (second : other ∈ values) :
    values.eraseDups.idxOf one < values.eraseDups.idxOf other ↔
      values.idxOf one < values.idxOf other := by
  induction values using List.reverseRecOn with
  | nil => cases first
  | append_singleton values value ih =>
    have place {among : List Nat} (new : value ∉ among) :
        (among ++ [value]).idxOf value = among.length := by
      rw [List.idxOf_append_of_notMem new, List.idxOf_cons_self, Nat.add_zero]
    have split {size : Nat} (held : size ∈ values ++ [value]) : size ∈ values ∨ size = value := by
      simpa using held
    rw [eraseDups_append_singleton]
    by_cases known : value ∈ values
    · have within {size : Nat} (held : size ∈ values ++ [value]) : size ∈ values :=
        (split held).elim id fun same => same ▸ known
      rw [if_pos known, List.idxOf_append_of_mem (within first),
        List.idxOf_append_of_mem (within second), ih (within first) (within second)]
    · have new : value ∉ values.eraseDups := fun held => known (List.mem_eraseDups.mp held)
      have same {size : Nat} (held : size ∈ values) :
          (values.eraseDups ++ [value]).idxOf size = values.eraseDups.idxOf size :=
        List.idxOf_append_of_mem (List.mem_eraseDups.mpr held)
      have bound {size : Nat} (held : size ∈ values) :
          values.eraseDups.idxOf size < values.eraseDups.length :=
        List.idxOf_lt_length_of_mem (List.mem_eraseDups.mpr held)
      rw [if_neg known]
      rcases split first with early | rfl <;> rcases split second with later | rfl
      · rw [same early, same later, List.idxOf_append_of_mem early,
          List.idxOf_append_of_mem later, ih early later]
      · rw [same early, place new, place known, List.idxOf_append_of_mem early]
        exact iff_of_true (bound early) (List.idxOf_lt_length_of_mem early)
      · rw [same later, place new, place known, List.idxOf_append_of_mem later]
        exact iff_of_false (Nat.not_lt.mpr (Nat.le_of_lt (bound later)))
          (Nat.not_lt.mpr (Nat.le_of_lt (List.idxOf_lt_length_of_mem later)))
      · exact iff_of_false (Nat.lt_irrefl _) (Nat.lt_irrefl _)

namespace Layout

variable {layout : Layout}

/-- The class of a tag, if it has one, has the size that is declared for the tag, if one is. -/
theorem map_classSize_classOf? (layout : Layout) (tag : UInt8) :
    (layout.classOf? tag).map layout.classSize = layout.sizes[tag.toNat]? := by
  cases found : layout.classOf? tag with
  | none => rw [Option.map_none, classOf?_eq_none_iff.mp found]
  | some cls => rw [Option.map_some, size_of_classOf? found]

/-- Every class has the size of some variant. -/
theorem classSize_mem (cls : Fin layout.classCount) : layout.classSize cls ∈ layout.sizes :=
  List.mem_eraseDups.mp (List.get_mem _ _)

/-- A class is the place of its size among the distinct sizes. -/
theorem idxOf_classSize (cls : Fin layout.classCount) :
    layout.classSizes.idxOf (layout.classSize cls) = cls.val :=
  (nodup_eraseDups layout.sizes).idxOf_getElem cls.val cls.isLt

/-- Classes are numbered as their sizes first appear. -/
theorem class_lt_iff {one other : Fin layout.classCount} : one < other ↔
    layout.sizes.idxOf (layout.classSize one) < layout.sizes.idxOf (layout.classSize other) := by
  rw [← idxOf_eraseDups_lt_iff (classSize_mem one) (classSize_mem other), Fin.lt_def,
    ← idxOf_classSize one, ← idxOf_classSize other]
  rfl

end Layout

/-- The size classes that are known after some variants: the class of each variant, and the size of
each class. -/
structure ClassTable where
  /-- The class of each variant, in the order of the tags. -/
  classes : List Nat
  /-- The size of each class. -/
  sizes : List Nat
  deriving DecidableEq, Repr

/-- The size classes of a layout. -/
def Layout.table (layout : Layout) : ClassTable :=
  ⟨layout.sizes.map layout.classSizes.idxOf, layout.classSizes⟩

namespace ClassTable

/-- One more variant has the class of its size if that size is known, and a new class otherwise. -/
def add (table : ClassTable) (size : Nat) : ClassTable :=
  match table.sizes.idxOf? size with
  | some known => ⟨table.classes ++ [known], table.sizes⟩
  | none => ⟨table.classes ++ [table.sizes.length], table.sizes ++ [size]⟩

/-- One more variant is one more size of the layout. -/
theorem add_table (sizes : List Nat) (size : Nat) :
    (Layout.table ⟨sizes⟩).add size = Layout.table ⟨sizes ++ [size]⟩ := by
  have grown := eraseDups_append_singleton sizes size
  by_cases known : size ∈ sizes
  · have found : sizes.eraseDups.idxOf? size = some (sizes.eraseDups.idxOf size) := by
      obtain ⟨place, there⟩ := Option.isSome_iff_exists.mp
        (List.isSome_idxOf?.mpr (List.mem_eraseDups.mpr known))
      rw [List.idxOf_eq_getD_idxOf?, there]
      rfl
    rw [if_pos known] at grown
    simp only [add, Layout.table, Layout.classSizes, found, grown, List.map_append, List.map_cons,
      List.map_nil]
  · have new : size ∉ sizes.eraseDups := fun held => known (List.mem_eraseDups.mp held)
    have missing : sizes.eraseDups.idxOf? size = none := List.idxOf?_eq_none_iff.mpr new
    have same : sizes.map (sizes.eraseDups ++ [size]).idxOf = sizes.map sizes.eraseDups.idxOf :=
      List.map_congr_left fun held among =>
        List.idxOf_append_of_mem (List.mem_eraseDups.mpr among)
    have last : (sizes.eraseDups ++ [size]).idxOf size = sizes.eraseDups.length := by
      rw [List.idxOf_append_of_notMem new, List.idxOf_cons_self, Nat.add_zero]
    rw [if_neg known] at grown
    simp only [add, Layout.table, Layout.classSizes, missing, grown, List.map_append, List.map_cons,
      List.map_nil, same, last]

end ClassTable

namespace UnionTables

/-- The size classes of variants behind others, or the first stray tag. -/
def scanFrom (name : String) (index : Nat) (table : ClassTable) :
    List (UInt8 × Nat) → Except LayoutError ClassTable
  | [] => .ok table
  | (tag, size) :: rest =>
    if tag.toNat ≠ index then .error (.nonSequentialTags name index tag)
    else scanFrom name (index + 1) (table.add size) rest

/-- The size classes of the tables in one pass, or the first thing that is wrong with them. -/
def scan (tables : UnionTables) : Except LayoutError ClassTable :=
  if tables.tags.isEmpty then .error (.empty tables.name)
  else if tables.tags.length ≠ tables.sizes.length then
    .error (.mismatchedTables tables.name tables.tags.length tables.sizes.length)
  else scanFrom tables.name 0 ⟨[], []⟩ (tables.tags.zip tables.sizes)

/-- From the classes of the variants before, the pass finds the first stray tag or the classes of
all variants. -/
theorem scanFrom_eq (name : String) (index : Nat) (seen : List Nat) (pairs : List (UInt8 × Nat)) :
    scanFrom name index (Layout.table ⟨seen⟩) pairs =
      match firstStrayTag? index (pairs.map Prod.fst) with
      | some (stray, found) => .error (.nonSequentialTags name stray found)
      | none => .ok (Layout.table ⟨seen ++ pairs.map Prod.snd⟩) := by
  induction pairs generalizing index seen with
  | nil => rw [List.map_nil, firstStrayTag?, List.map_nil, List.append_nil, scanFrom]
  | cons pair pairs ih =>
    obtain ⟨tag, size⟩ := pair
    rw [scanFrom, List.map_cons, firstStrayTag?]
    by_cases counted : tag.toNat = index
    · rw [if_neg (Decidable.not_not.mpr counted), if_pos counted, ClassTable.add_table, ih,
        List.map_cons, List.append_assoc]
      rfl
    · rw [if_pos counted, if_neg counted]

/-- A single pass gives the size classes of the layout, and reports what is reported of the
tables. -/
theorem scan_eq_layout (tables : UnionTables) : tables.scan = tables.layout.map Layout.table := by
  unfold scan UnionTables.layout
  by_cases none : tables.tags.isEmpty = true
  · rw [if_pos none, if_pos none]
    rfl
  by_cases matched : tables.tags.length = tables.sizes.length
  · have tags : (tables.tags.zip tables.sizes).map Prod.fst = tables.tags :=
      List.map_fst_zip (Nat.le_of_eq matched)
    have sizes : (tables.tags.zip tables.sizes).map Prod.snd = tables.sizes :=
      List.map_snd_zip (Nat.le_of_eq matched.symm)
    have run := scanFrom_eq tables.name 0 [] (tables.tags.zip tables.sizes)
    rw [tags, sizes, List.nil_append] at run
    rw [if_neg none, if_neg none, if_neg (Decidable.not_not.mpr matched),
      if_neg (Decidable.not_not.mpr matched)]
    refine run.trans ?_
    cases firstStrayTag? 0 tables.tags <;> rfl
  · rw [if_neg none, if_neg none, if_pos matched, if_pos matched]
    rfl

end UnionTables

/-- The layout groups the tags of the tables by their sizes. -/
structure Layout.Groups (layout : Layout) (tables : UnionTables) : Prop where
  /-- Every tag is a variant. -/
  variants : layout.variantCount = tables.tags.length
  /-- The class of a tag has the size of the tag. -/
  size : ∀ tag, (layout.classOf? tag).map layout.classSize = tables.sizes[tag.toNat]?
  /-- Tags share a class exactly if they are of one size. -/
  shared : ∀ one other, layout.classOf? one = layout.classOf? other ↔
    tables.sizes[one.toNat]? = tables.sizes[other.toNat]?
  /-- No number is left out: every class is that of some tag. -/
  dense : ∀ cls, ∃ tag, layout.classOf? tag = some cls
  /-- Classes are numbered as their sizes first appear. -/
  numbered : ∀ one other : Fin layout.classCount, one < other ↔
    tables.sizes.idxOf (layout.classSize one) < tables.sizes.idxOf (layout.classSize other)
  /-- Different classes are of different sizes. -/
  distinct : ∀ one other, layout.classSize one = layout.classSize other → one = other
  /-- The maximum is the size of some variant. -/
  attained : layout.maxSize ∈ tables.sizes
  /-- No variant is larger than the maximum. -/
  largest : ∀ size ∈ tables.sizes, size ≤ layout.maxSize
  /-- The maximum is also that of the classes. -/
  classes : layout.classSizes.max? = some layout.maxSize
  /-- Only tags beyond the variants have no class. -/
  beyond : ∀ tag, layout.classOf? tag = none ↔ layout.variantCount ≤ tag.toNat

/-- The maximum of sequential tables is the largest of their sizes. -/
theorem UnionTables.Sequential.maxSize {tables : UnionTables} (sequential : tables.Sequential) :
    Layout.maxSize ⟨tables.sizes⟩ ∈ tables.sizes ∧
      ∀ size ∈ tables.sizes, size ≤ Layout.maxSize ⟨tables.sizes⟩ := by
  have variants := UnionTables.sizes_ne_nil (UnionTables.layout_eq_ok_iff.mpr ⟨sequential, rfl⟩)
  have largest : tables.sizes.max? = some (Layout.maxSize ⟨tables.sizes⟩) :=
    @Layout.max?_sizes ⟨tables.sizes⟩ variants
  exact List.max?_eq_some_iff.mp largest

/-- The layout of sequential tables groups their tags by size. -/
theorem UnionTables.Sequential.groups {tables : UnionTables} (sequential : tables.Sequential) :
    Layout.Groups ⟨tables.sizes⟩ tables where
  variants := sequential.matched.symm
  size := Layout.map_classSize_classOf? _
  shared _ _ := Layout.classOf?_eq_iff
  dense cls := by
    obtain ⟨index, declared, there⟩ := List.getElem_of_mem (Layout.classSize_mem cls)
    obtain ⟨tag, rfl⟩ := sequential.tag declared
    obtain ⟨other, found, same⟩ := Layout.classOf?_of_size (List.getElem?_eq_some_iff.mpr
      ⟨declared, there⟩)
    exact ⟨tag, by rw [found, Layout.classSize_injective same]⟩
  numbered _ _ := Layout.class_lt_iff
  distinct _ _ := Layout.classSize_injective
  attained := sequential.maxSize.1
  largest := sequential.maxSize.2
  classes := by
    rw [List.max?_eq_some_iff]
    refine ⟨List.mem_eraseDups.mpr sequential.maxSize.1, fun size held => ?_⟩
    exact sequential.maxSize.2 size (List.mem_eraseDups.mp held)
  beyond tag := by
    rw [Layout.classOf?_eq_none_iff, List.getElem?_eq_none_iff]
    rfl

/-- Tables have a layout exactly if there are variants, each with a size, and the tags count up from
zero, and what is reported of other tables is the first thing that is wrong with them. A single pass
over the tables builds the classes of the layout. The layout groups the tags by their sizes: the
class of a tag has its size, tags of one size share a class, the classes are numbered without gaps
as their sizes first appear, the maximum is the largest size, and only tags beyond the variants have
no class. A list of a union is new exactly under its layout, and a handle with such a tag is a fault
there. -/
theorem layout_groups_tags_by_size (tables : UnionTables) :
    ((∃ layout, tables.layout = .ok layout) ↔ tables.Sequential) ∧
    (∀ error, tables.layout = .error error ↔
      (tables.tags = [] ∧ error = .empty tables.name) ∨
      (tables.tags ≠ [] ∧ tables.tags.length ≠ tables.sizes.length ∧
        error = .mismatchedTables tables.name tables.tags.length tables.sizes.length) ∨
      (tables.tags ≠ [] ∧ tables.tags.length = tables.sizes.length ∧
        ∃ index found, tables.Strays index found ∧
          error = .nonSequentialTags tables.name index found)) ∧
    (∀ layout, tables.layout = .ok layout → layout.Groups tables) ∧
    tables.scan = tables.layout.map Layout.table ∧
    ∀ {α : Type} (union : TaggedUnion α), union.toUnionTables = tables →
      (DenseList.new? union).map DenseList.layout = tables.layout ∧
      ∀ (list : DenseList union) (handle : Handle),
        list.layout.variantCount ≤ handle.tag.toNat →
          list.get handle = .error (.tagOutOfRange handle.tag list.layout.variantCount) := by
  refine ⟨⟨?_, fun sequential => ⟨_, UnionTables.layout_eq_ok_iff.mpr ⟨sequential, rfl⟩⟩⟩,
    fun error => UnionTables.layout_eq_error_iff, ?_, tables.scan_eq_layout, ?_⟩
  · rintro ⟨layout, accepted⟩
    exact (UnionTables.layout_eq_ok_iff.mp accepted).1
  · intro layout accepted
    obtain ⟨sequential, rfl⟩ := UnionTables.layout_eq_ok_iff.mp accepted
    exact sequential.groups
  · rintro α union rfl
    refine ⟨?_, fun list handle beyond => ?_⟩
    · unfold DenseList.new?
      split
      · next layout accepted => exact accepted.symm
      · next error refused => exact refused.symm
    · have none : list.layout.classOf? handle.tag = none := by
        rw [Layout.classOf?_eq_none_iff, List.getElem?_eq_none_iff]
        exact beyond
      unfold DenseList.get
      split
      · rfl
      · next cls found => rw [none] at found; cases found

/-- Two of four variants are of one size and share a class, and tags out of order are reported at
the first one that is not its own index. -/
theorem layout_of_shapes_groups_two :
    (∃ layout, UnionTables.layout ⟨"Shape", [0, 1, 2, 3], [5, 1, 5, 9]⟩ = .ok layout ∧
      layout.Groups ⟨"Shape", [0, 1, 2, 3], [5, 1, 5, 9]⟩ ∧
      layout.classOf? 0 = layout.classOf? 2) ∧
    UnionTables.layout ⟨"Shape", [0, 2, 1], [5, 1, 5]⟩ =
      .error (.nonSequentialTags "Shape" 1 2) := by
  have groups := (layout_groups_tags_by_size ⟨"Shape", [0, 1, 2, 3], [5, 1, 5, 9]⟩).2.2.1 _ rfl
  have reports := (layout_groups_tags_by_size ⟨"Shape", [0, 2, 1], [5, 1, 5]⟩).2.1
  refine ⟨⟨_, rfl, groups, (groups.shared 0 2).mpr rfl⟩, ?_⟩
  have strays : UnionTables.Strays ⟨"Shape", [0, 2, 1], [5, 1, 5]⟩ 1 2 := by
    refine ⟨rfl, by decide, fun earlier tag before there => ?_⟩
    obtain rfl := Nat.lt_one_iff.mp before
    cases there
    rfl
  exact (reports _).mpr (.inr (.inr ⟨List.cons_ne_nil _ _, rfl, 1, 2, strays, rfl⟩))

end Cascade
