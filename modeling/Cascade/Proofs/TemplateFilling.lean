import Mathlib.Data.List.Infix
import Cascade.Diagnostic.Template
import Cascade.Proofs.PrintedTree

/-!
# Filling templates

Arguments are put into a template one after the other, each into the whole text that the ones before
it left. That is the same as putting them in all at once as long as no argument brings in text that,
on its own or with the text around it, makes the placeholder of a later argument. When the turn of
an argument comes its placeholder then stands as often as in the template, and this count is what
decides.

Main definitions:

* `Template.Substituted`, replacing placeholders all at once;
* `Template.occurrences`, how often a placeholder stands in a text.
-/
namespace Cascade.Template

/-- The placeholder of an argument: its index between braces. -/
def placeholder (index : Nat) : List Char := '\x7b' :: placeholderTail index

/-- Between the braces stand digits. -/
theorem isNamePart_of_mem_toString {index : Nat} {c : Char} (member : c ∈ (toString index).toList) :
    isNamePart c = true :=
  (Lexeme.isWord_number index).parts c member

/-- Behind the opening brace of a placeholder stands no other. -/
theorem openBrace_not_mem_placeholderTail (index : Nat) : '\x7b' ∉ placeholderTail index := by
  intro member
  rw [placeholderTail, List.mem_append, List.mem_singleton] at member
  rcases member with digit | brace
  · have part := isNamePart_of_mem_toString digit
    exact absurd part (by decide)
  · exact absurd brace (by decide)

/-- A placeholder begins with an opening brace. -/
theorem not_placeholder_of_ne {index : Nat} {c : Char} (other : c ≠ '\x7b') (text : List Char) :
    ¬ placeholder index <+: c :: text := by
  intro front
  exact other (List.cons_prefix_cons.mp front).1.symm

/-- A text begins with one placeholder only. -/
theorem placeholder_prefix_iff {index other : Nat} {text : List Char} :
    placeholder index <+: placeholder other ++ text ↔ index = other := by
  constructor
  · rintro ⟨rest, same⟩
    have closed : ∀ rest : List Char, ∀ c ∈ ('\x7d' :: rest).head?, isNamePart c = false := by
      intro rest c first
      cases first
      rfl
    have digits (index : Nat) (rest : List Char) :
        ((toString index).toList ++ '\x7d' :: rest).takeWhile isNamePart =
          (toString index).toList :=
      (run_ends (fun _ => isNamePart_of_mem_toString) (closed rest)).1
    simp only [placeholder, placeholderTail, List.cons_append, List.append_assoc,
      List.nil_append, List.cons.injEq, true_and] at same
    have alike := congrArg (List.takeWhile isNamePart) same
    rw [digits, digits] at alike
    exact toString_injective (String.toList_injective alike)
  · rintro rfl
    exact List.prefix_append _ _

/-- The text with placeholders replaced all at once: the placeholder of an index that has a value is
replaced by the value, and every character that begins no such placeholder stays. What is put in is
not looked at. -/
inductive Substituted (value? : Nat → Option (List Char)) : List Char → List Char → Prop where
  /-- Nothing stays nothing. -/
  | nil : Substituted value? [] []
  /-- A placeholder is replaced by the value of its index. -/
  | hole {index : Nat} {value text filled : List Char} : value? index = some value →
    Substituted value? text filled →
    Substituted value? (placeholder index ++ text) (value ++ filled)
  /-- A character that begins no placeholder of a value stays. -/
  | keep {c : Char} {text filled : List Char} :
    (∀ index value, value? index = some value → ¬ placeholder index <+: c :: text) →
    Substituted value? text filled → Substituted value? (c :: text) (c :: filled)

/-- The values of the placeholders: the arguments in order. -/
def values (arguments : List String) (index : Nat) : Option (List Char) :=
  arguments[index]?.map String.toList

namespace Substituted

variable {value? : Nat → Option (List Char)} {text filled other : List Char} {index : Nat}

/-- Where a placeholder with a value stands its value is put in. -/
theorem hole_inv {value : List Char} (known : value? index = some value)
    (made : Substituted value? (placeholder index ++ text) filled) :
    ∃ later, filled = value ++ later ∧ Substituted value? text later := by
  generalize same : placeholder index ++ text = whole at made
  cases made with
  | nil => cases same
  | @hole found put rest later given made =>
    have front : placeholder found <+: placeholder index ++ text := ⟨rest, same.symm⟩
    obtain rfl := placeholder_prefix_iff.mp front
    obtain rfl := List.append_cancel_left same
    rw [known] at given
    cases given
    exact ⟨later, rfl, made⟩
  | keep none _ => exact absurd ⟨text, same⟩ (none index value known)

/-- Where no placeholder with a value stands the character stays. -/
theorem keep_inv {c : Char} (none : ∀ index value, value? index = some value →
      ¬ placeholder index <+: c :: text)
    (made : Substituted value? (c :: text) filled) :
    ∃ later, filled = c :: later ∧ Substituted value? text later := by
  generalize same : c :: text = whole at made
  cases made with
  | nil => cases same
  | @hole found put rest later given made =>
    exact absurd ⟨rest, same.symm⟩ (none found put given)
  | keep _ made =>
    cases same
    exact ⟨_, rfl, made⟩

/-- There is only one way to replace all at once. -/
theorem unique (made : Substituted value? text filled) (again : Substituted value? text other) :
    other = filled := by
  induction made generalizing other with
  | nil =>
    generalize same : ([] : List Char) = whole at again
    cases again with
    | nil => rfl
    | hole _ _ => cases same
    | keep _ _ => cases same
  | hole known _ ih =>
    obtain ⟨later, rfl, made⟩ := hole_inv known again
    rw [ih made]
  | keep none _ ih =>
    obtain ⟨later, rfl, made⟩ := keep_inv none again
    rw [ih made]

/-- Without values nothing changes. -/
theorem of_none (none : ∀ index, value? index = none) (text : List Char) :
    Substituted value? text text := by
  induction text with
  | nil => exact .nil
  | cons c text ih =>
    refine .keep (fun index value known => ?_) ih
    rw [none index] at known
    cases known

/-- Text without an opening brace stays. -/
theorem plain_inv {plain : List Char} (noBrace : '\x7b' ∉ plain)
    (made : Substituted value? (plain ++ text) filled) :
    ∃ later, filled = plain ++ later ∧ Substituted value? text later := by
  induction plain generalizing filled with
  | nil => exact ⟨filled, rfl, made⟩
  | cons c plain ih =>
    obtain ⟨notBrace, others⟩ := not_or.mp (mt List.mem_cons.mpr noBrace)
    obtain ⟨middle, rfl, further⟩ := made.keep_inv fun _ _ _ =>
      not_placeholder_of_ne (Ne.symm notBrace) _
    obtain ⟨later, rfl, rest⟩ := ih others further
    exact ⟨later, rfl, rest⟩

/-- A placeholder without a value stays. -/
theorem placeholder_inv (unknown : value? index = none)
    (made : Substituted value? (placeholder index ++ text) filled) :
    ∃ later, filled = placeholder index ++ later ∧ Substituted value? text later := by
  have none : ∀ other value, value? other = some value →
      ¬ placeholder other <+: placeholder index ++ text := by
    intro other value known front
    obtain rfl := placeholder_prefix_iff.mp front
    rw [unknown] at known
    cases known
  obtain ⟨middle, rfl, further⟩ := made.keep_inv none
  obtain ⟨later, rfl, rest⟩ := further.plain_inv (openBrace_not_mem_placeholderTail index)
  exact ⟨later, rfl, rest⟩

end Substituted

/-- How often the placeholder of the index stands in the text. -/
def occurrences (index : Nat) (text : List Char) : Nat :=
  text.tails.countP (placeholder index).isPrefixOf

/-- A placeholder stands where the text begins with it, and where it stands behind. -/
theorem occurrences_cons (index : Nat) (c : Char) (text : List Char) :
    occurrences index (c :: text) =
      occurrences index text + if placeholder index <+: c :: text then 1 else 0 := by
  simp only [occurrences, List.tails_cons, List.countP_cons, List.isPrefixOf_iff_prefix]

/-- What stands in a text stands behind other text as well. -/
theorem occurrences_le_append (index : Nat) (before text : List Char) :
    occurrences index text ≤ occurrences index (before ++ text) := by
  induction before with
  | nil => exact Nat.le_refl _
  | cons c before ih =>
    rw [List.cons_append, occurrences_cons]
    omega

/-- No placeholder begins in a text without an opening brace. -/
theorem occurrences_plain {plain : List Char} (noBrace : '\x7b' ∉ plain) (index : Nat)
    (text : List Char) : occurrences index (plain ++ text) = occurrences index text := by
  induction plain with
  | nil => rfl
  | cons c plain ih =>
    obtain ⟨notBrace, others⟩ := not_or.mp (mt List.mem_cons.mpr noBrace)
    rw [List.cons_append, occurrences_cons, ih others,
      if_neg (not_placeholder_of_ne (Ne.symm notBrace) _)]
    rfl

/-- A placeholder in front of a text is one more. -/
theorem occurrences_placeholder (index other : Nat) (text : List Char) :
    occurrences index (placeholder other ++ text) =
      occurrences index text + if index = other then 1 else 0 := by
  have front : placeholder other ++ text = '\x7b' :: (placeholderTail other ++ text) := rfl
  rw [front, occurrences_cons, occurrences_plain (openBrace_not_mem_placeholderTail other),
    ← front]
  simp only [placeholder_prefix_iff]

variable {index : Nat} {value : List Char}

/-- A placeholder in front is replaced. -/
theorem replaceAll_placeholder (text : List Char) :
    replaceAll '\x7b' (placeholderTail index) value (placeholder index ++ text) =
      value ++ replaceAll '\x7b' (placeholderTail index) value text := by
  have front : (placeholderTail index).isPrefixOf (placeholderTail index ++ text) = true :=
    List.isPrefixOf_iff_prefix.mpr (List.prefix_append _ _)
  rw [placeholder, List.cons_append, replaceAll, if_pos ⟨rfl, front⟩, List.drop_left]

/-- A character that does not begin the placeholder stays. -/
theorem replaceAll_keep {c : Char} {text : List Char} (none : ¬ placeholder index <+: c :: text) :
    replaceAll '\x7b' (placeholderTail index) value (c :: text) =
      c :: replaceAll '\x7b' (placeholderTail index) value text := by
  rw [replaceAll, if_neg]
  rintro ⟨rfl, front⟩
  apply none
  exact List.cons_prefix_cons.mpr ⟨rfl, List.isPrefixOf_iff_prefix.mp front⟩

/-- Text in which the placeholder does not begin stays. -/
theorem replaceAll_append {before text : List Char}
    (none : occurrences index (before ++ text) = occurrences index text) :
    replaceAll '\x7b' (placeholderTail index) value (before ++ text) =
      before ++ replaceAll '\x7b' (placeholderTail index) value text := by
  induction before with
  | nil => rfl
  | cons c before ih =>
    have behind := occurrences_le_append index before text
    rw [List.cons_append, occurrences_cons] at none
    by_cases front : placeholder index <+: c :: (before ++ text)
    · rw [if_pos front] at none
      omega
    · rw [if_neg front] at none
      rw [List.cons_append, replaceAll_keep front, ih (by omega)]
      rfl

namespace Substituted

variable {value? : Nat → Option (List Char)} {text filled : List Char}

/-- No placeholder without a value is lost. -/
theorem occurrences_le (made : Substituted value? text filled) (unknown : value? index = none) :
    occurrences index text ≤ occurrences index filled := by
  induction made with
  | nil => exact Nat.le_refl _
  | @hole found put text filled known made ih =>
    have other : index ≠ found := by
      rintro rfl
      rw [unknown] at known
      cases known
    have behind := occurrences_le_append index put filled
    rw [occurrences_placeholder, if_neg other]
    omega
  | @keep c text filled none made ih =>
    rw [occurrences_cons, occurrences_cons]
    by_cases front : placeholder index <+: c :: text
    · obtain ⟨rest, same⟩ := front
      have whole : Substituted value? (placeholder index ++ rest) (c :: filled) := by
        rw [same]
        exact .keep none made
      obtain ⟨later, stays, _⟩ := whole.placeholder_inv unknown
      rw [if_pos ⟨rest, same⟩, if_pos ⟨later, stays.symm⟩]
      omega
    · rw [if_neg front]
      omega

/-- One more value is put in by replacing its placeholder in what the others left, if the
placeholder stands there only where it stood before. -/
theorem next (made : Substituted value? text filled) (unknown : value? index = none)
    (counted : occurrences index filled = occurrences index text) (value : List Char) :
    Substituted (fun other => if other = index then some value else value? other) text
      (replaceAll '\x7b' (placeholderTail index) value filled) := by
  induction size : text.length using Nat.strongRecOn generalizing text filled with
  | _ bound ih =>
    by_cases front : placeholder index <+: text
    · obtain ⟨rest, rfl⟩ := front
      obtain ⟨later, rfl, further⟩ := made.placeholder_inv unknown
      have shorter : rest.length < bound := by
        rw [← size, placeholder, List.cons_append, List.length_cons, List.length_append]
        omega
      rw [occurrences_placeholder, occurrences_placeholder] at counted
      rw [replaceAll_placeholder]
      exact .hole (if_pos rfl) (ih _ shorter further (by omega) rfl)
    · cases made with
      | nil =>
        rw [replaceAll]
        exact .nil
      | @hole found put text filled known made =>
        have other : found ≠ index := by
          rintro rfl
          rw [unknown] at known
          cases known
        have shorter : text.length < bound := by
          rw [← size, placeholder, List.cons_append, List.length_cons, List.length_append]
          omega
        have kept := made.occurrences_le unknown
        have behind := occurrences_le_append index put filled
        rw [occurrences_placeholder, if_neg (Ne.symm other)] at counted
        rw [replaceAll_append (by omega)]
        exact .hole ((if_neg other).trans known) (ih _ shorter made (by omega) rfl)
      | @keep c text filled none made =>
        have shorter : text.length < bound := by
          rw [← size]
          exact Nat.lt_succ_self _
        have kept := made.occurrences_le unknown
        rw [occurrences_cons, occurrences_cons, if_neg front] at counted
        by_cases arises : placeholder index <+: c :: filled
        · rw [if_pos arises] at counted
          omega
        · rw [if_neg arises] at counted
          rw [replaceAll_keep arises]
          refine .keep (fun other given known => ?_) (ih _ shorter made (by omega) rfl)
          by_cases same : other = index
          · rw [same]
            exact front
          · exact none other given ((if_neg same).symm.trans known)

/-- Values without an opening brace make no placeholder in a text in which every opening brace opens
one. -/
theorem occurrences_eq (made : Substituted value? text filled) (unknown : value? index = none)
    (opens : ∀ rest, '\x7b' :: rest <:+ text → ∃ other, placeholder other <+: '\x7b' :: rest)
    (noBrace : ∀ other value, value? other = some value → '\x7b' ∉ value) :
    occurrences index filled = occurrences index text := by
  induction made with
  | nil => rfl
  | @hole found put text filled known made ih =>
    have other : index ≠ found := by
      rintro rfl
      rw [unknown] at known
      cases known
    rw [occurrences_plain (noBrace found put known), occurrences_placeholder, if_neg other]
    exact ih fun rest behind => opens rest (behind.trans (List.suffix_append _ _))
  | @keep c text filled none made ih =>
    have behind := ih fun rest behind => opens rest (behind.trans (List.suffix_cons _ _))
    rw [occurrences_cons, occurrences_cons, behind]
    by_cases brace : c = '\x7b'
    · subst brace
      -- Both texts begin with the placeholder that the brace opens, since it has no value.
      obtain ⟨other, rest, same⟩ := opens text (List.suffix_refl _)
      have missing : value? other = Option.none := by
        rw [Option.eq_none_iff_forall_ne_some]
        intro value known
        exact none other value known ⟨rest, same⟩
      have whole : Substituted value? (placeholder other ++ rest) ('\x7b' :: filled) := by
        rw [same]
        exact .keep none made
      obtain ⟨later, stays, _⟩ := whole.placeholder_inv missing
      rw [stays, ← same]
      simp only [placeholder_prefix_iff]
    · rw [if_neg (not_placeholder_of_ne brace _), if_neg (not_placeholder_of_ne brace _)]

end Substituted

/-- Arguments behind others are put into the text that those left. -/
theorem fillFrom_append (index : Nat) (text : List Char) (first second : List String) :
    fillFrom index text (first ++ second) =
      fillFrom (index + first.length) (fillFrom index text first) second := by
  induction first generalizing index text with
  | nil => rfl
  | cons argument first ih =>
    rw [List.cons_append, fillFrom, fillFrom, ih, List.length_cons, Nat.add_assoc,
      Nat.add_comm 1]

/-- What the first arguments leave of a template. -/
def afterFirst (template : String) (arguments : List String) (count : Nat) : List Char :=
  (fill template (arguments.take count)).toList

/-- The next argument replaces its placeholder in what those before it left. -/
theorem afterFirst_succ (template : String) {arguments : List String} {count : Nat}
    {argument : String} (next : arguments[count]? = some argument) :
    afterFirst template arguments (count + 1) = replaceAll '\x7b' (placeholderTail count)
      argument.toList (afterFirst template arguments count) := by
  obtain ⟨inside, _⟩ := List.getElem?_eq_some_iff.mp next
  have length : (arguments.take count).length = count := by
    rw [List.length_take]
    omega
  simp only [afterFirst, fill, String.toList_ofList]
  rw [List.take_add_one, next, Option.toList_some, fillFrom_append, length, Nat.zero_add]
  rfl

/-- The first arguments and one more have the values of the first and one more. -/
theorem values_take_succ {arguments : List String} {count : Nat} {argument : String}
    (next : arguments[count]? = some argument) :
    values (arguments.take (count + 1)) = fun index =>
      if index = count then some argument.toList else values (arguments.take count) index := by
  funext index
  simp only [values, List.getElem?_take]
  by_cases same : index = count
  · rw [same, if_pos (Nat.lt_succ_self count), if_pos rfl, next]
    rfl
  · rw [if_neg same]
    by_cases before : index < count
    · rw [if_pos before, if_pos (Nat.lt_succ_of_lt before)]
    · rw [if_neg before, if_neg (by omega)]

/-- Arguments are put in all at once if at the turn of each its placeholder stands as often as in the
template, whatever was put in before. -/
theorem substituted_afterFirst {template : String} {arguments : List String}
    (turn : ∀ count, count < arguments.length →
      Substituted (values (arguments.take count)) template.toList
        (afterFirst template arguments count) →
      occurrences count (afterFirst template arguments count) =
        occurrences count template.toList) (count : Nat) (few : count ≤ arguments.length) :
    Substituted (values (arguments.take count)) template.toList
      (afterFirst template arguments count) := by
  induction count with
  | zero =>
    have whole : afterFirst template arguments 0 = template.toList := by
      rw [afterFirst, List.take_zero, fill, fillFrom, String.toList_ofList]
    rw [whole]
    exact .of_none (fun _ => rfl) _
  | succ count ih =>
    have made := ih (Nat.le_of_succ_le few)
    have next : arguments[count]? = some arguments[count] := List.getElem?_eq_getElem few
    have unknown : values (arguments.take count) count = none := by
      simp only [values, List.getElem?_take, Nat.lt_irrefl, if_false, Option.map_none]
    rw [values_take_succ next, afterFirst_succ template next]
    exact made.next unknown (turn count few made) _

/-- All arguments are put in at once under the same condition. -/
theorem substituted_fill {template : String} {arguments : List String}
    (turn : ∀ count, count < arguments.length →
      Substituted (values (arguments.take count)) template.toList
        (afterFirst template arguments count) →
      occurrences count (afterFirst template arguments count) =
        occurrences count template.toList) :
    Substituted (values arguments) template.toList (fill template arguments).toList := by
  have all := substituted_afterFirst turn arguments.length (Nat.le_refl _)
  rwa [afterFirst, List.take_length] at all

/-- One argument alone is put in at once. -/
theorem substituted_last (template : String) (first : List String) (last : String) :
    Substituted (fun index => if index = first.length then some last.toList else none)
      (fill template first).toList (fill template (first ++ [last])).toList := by
  have unchanged : Substituted (fun _ => none) (fill template first).toList
      (fill template first).toList := .of_none (fun _ => rfl) _
  have filled : (fill template (first ++ [last])).toList =
      replaceAll '\x7b' (placeholderTail first.length) last.toList
        (fill template first).toList := by
    simp only [fill, String.toList_ofList]
    rw [fillFrom_append, Nat.zero_add]
    rfl
  rw [filled]
  exact unchanged.next rfl rfl last.toList

/-- A single argument is put in at once. -/
theorem substituted_singleton (template argument : String) :
    Substituted (values [argument]) template.toList (fill template [argument]).toList := by
  have one := substituted_last template [] argument
  have same : (fun index => if index = 0 then some argument.toList else none) =
      values [argument] := by
    funext index
    cases index <;> rfl
  have unfilled : fill template [] = template := String.ofList_toList
  rw [List.nil_append, List.length_nil, same, unfilled] at one
  exact one

/-- A character of a text in which a placeholder was replaced stood in the text or in the value. -/
theorem mem_replaceAll {first c : Char} {others value text : List Char}
    (member : c ∈ replaceAll first others value text) : c ∈ text ∨ c ∈ value := by
  fun_induction replaceAll first others value text with
  | case1 => exact absurd member List.not_mem_nil
  | case2 d rest _ ih =>
    obtain put | later := List.mem_append.mp member
    · exact .inr put
    · rcases ih later with kept | put
      · exact .inl (List.mem_cons_of_mem _ (List.mem_of_mem_drop kept))
      · exact .inr put
  | case3 d rest _ ih =>
    obtain rfl | later := List.mem_cons.mp member
    · exact .inl List.mem_cons_self
    · rcases ih later with kept | put
      · exact .inl (List.mem_cons_of_mem _ kept)
      · exact .inr put

/-- A character of a filled template comes from the template or from an argument. -/
theorem mem_fillFrom {c : Char} {index : Nat} {text : List Char} {arguments : List String}
    (member : c ∈ fillFrom index text arguments) :
    c ∈ text ∨ ∃ argument ∈ arguments, c ∈ argument.toList := by
  induction arguments generalizing index text with
  | nil => exact .inl member
  | cons argument arguments ih =>
    rcases ih member with replaced | ⟨other, listed, inside⟩
    · rcases mem_replaceAll replaced with kept | put
      · exact .inl kept
      · exact .inr ⟨argument, List.mem_cons_self, put⟩
    · exact .inr ⟨other, List.mem_cons_of_mem _ listed, inside⟩

/-- A value of the first arguments is one of those before the last. -/
theorem mem_dropLast_of_values {arguments : List String} {count index : Nat} {value : List Char}
    (inside : count < arguments.length) (known : values (arguments.take count) index = some value) :
    ∃ argument ∈ arguments.dropLast, argument.toList = value := by
  obtain ⟨argument, found, rfl⟩ := Option.map_eq_some_iff.mp known
  refine ⟨argument, ?_, rfl⟩
  have member := List.mem_of_getElem? found
  rw [List.dropLast_eq_take]
  exact List.take_subset_take_left arguments (by omega) member

/-- Arguments are put in one after the other, each alone into what those before it left. They are
put in all at once if at the turn of each its placeholder stands as often as in the template. That
is so if every opening brace of the template opens a placeholder and no argument but the last has
one. -/
theorem arguments_are_put_in (template : String) (arguments : List String) :
    fill template [] = template ∧
    (∀ first last, Substituted
      (fun index => if index = first.length then some last.toList else none)
      (fill template first).toList (fill template (first ++ [last])).toList) ∧
    ((∀ index, index < arguments.length →
        occurrences index (fill template (arguments.take index)).toList =
          occurrences index template.toList) →
      Substituted (values arguments) template.toList (fill template arguments).toList) ∧
    ((∀ rest, '\x7b' :: rest <:+ template.toList →
        ∃ index, placeholder index <+: '\x7b' :: rest) →
      (∀ argument ∈ arguments.dropLast, '\x7b' ∉ argument.toList) →
      Substituted (values arguments) template.toList (fill template arguments).toList) := by
  refine ⟨String.ofList_toList, substituted_last template, fun counted => ?_, fun opens plain => ?_⟩
  · exact substituted_fill fun index inside _ => counted index inside
  · apply substituted_fill
    intro count inside made
    have unknown : values (arguments.take count) count = none := by
      simp only [values, List.getElem?_take, Nat.lt_irrefl, if_false, Option.map_none]
    apply made.occurrences_eq unknown opens
    intro index value known
    obtain ⟨argument, member, rfl⟩ := mem_dropLast_of_values inside known
    exact plain argument member

/-- A bracket and a name that reads like a placeholder are put in at once: the name comes last. -/
theorem bracket_and_name_are_put_in :
    Substituted (values [")", "identifier '\x7b0\x7d'"])
      "expected '\x7b0\x7d', found \x7b1\x7d".toList
      "expected ')', found identifier '\x7b0\x7d'".toList := by
  obtain ⟨_, _, counted, _⟩ := arguments_are_put_in "expected '\x7b0\x7d', found \x7b1\x7d"
    [")", "identifier '\x7b0\x7d'"]
  have made := counted (by decide +kernel)
  have filled : fill "expected '\x7b0\x7d', found \x7b1\x7d" [")", "identifier '\x7b0\x7d'"] =
      "expected ')', found identifier '\x7b0\x7d'" := by decide +kernel
  rwa [filled] at made

/-- The placeholder that the first argument brings in is replaced by the second, though putting both
in at once leaves it. -/
theorem placeholder_of_argument_is_replaced :
    Substituted (values ["\x7b1\x7d", "x"]) "\x7b0\x7d\x7b1\x7d".toList "\x7b1\x7dx".toList ∧
    fill "\x7b0\x7d\x7b1\x7d" ["\x7b1\x7d", "x"] = "xx" ∧
    ¬ Substituted (values ["\x7b1\x7d", "x"]) "\x7b0\x7d\x7b1\x7d".toList
      (fill "\x7b0\x7d\x7b1\x7d" ["\x7b1\x7d", "x"]).toList := by
  have both : Substituted (values ["\x7b1\x7d", "x"]) "\x7b0\x7d\x7b1\x7d".toList
      "\x7b1\x7dx".toList := by
    have second : Substituted (values ["\x7b1\x7d", "x"]) (placeholder 1 ++ []) ("x".toList ++ []) :=
      .hole rfl .nil
    have first : values ["\x7b1\x7d", "x"] 0 = some "\x7b1\x7d".toList := rfl
    exact .hole first second
  have filled : fill "\x7b0\x7d\x7b1\x7d" ["\x7b1\x7d", "x"] = "xx" := by decide +kernel
  refine ⟨both, filled, fun again => ?_⟩
  have same := both.unique again
  rw [filled] at same
  exact absurd same (by decide)

end Cascade.Template
