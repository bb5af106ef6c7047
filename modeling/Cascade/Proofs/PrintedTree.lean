import Cascade.Expr.Render
import Cascade.Proofs.SpelledText

/-!
# Trees are told apart by their texts

A text in full parentheses can be read in one way only. A word runs up to the first character that
continues no word, a text between quotes up to the first quote that is not escaped, and a group up
to its parenthesis; its head says, with the number of its items, what the group is. So trees whose
names are names are told apart by their texts, whatever stands behind them.

Main definitions:

* `Outline`, how the text of an expression is laid out;
* `Expr.shape`, a tree without its notes;
* `Expr.Named`, the trees whose names are names.
-/
namespace Cascade

/-- Before characters outside a class there is one run of the class. -/
theorem run_unique {p : Char → Bool} {one other rest behind : List Char}
    (first : ∀ c ∈ one, p c = true) (second : ∀ c ∈ other, p c = true)
    (stops : ∀ c ∈ rest.head?, p c = false) (ends : ∀ c ∈ behind.head?, p c = false)
    (same : one ++ rest = other ++ behind) : one = other ∧ rest = behind := by
  obtain ⟨taken, left⟩ := run_ends first stops
  obtain ⟨found, later⟩ := run_ends second ends
  rw [same, found] at taken
  rw [same, later] at left
  exact ⟨taken.symm, left.symm⟩

/-- No character of a string is written as the beginning of another one or as the closing quote. -/
theorem renderStringChar_cases (c : Char) :
    renderStringChar c = ['\\', c] ∧ (c = '"' ∨ c = '\\') ∨
      renderStringChar c = [c] ∧ c ≠ '"' ∧ c ≠ '\\' := by
  unfold renderStringChar
  by_cases quote : c = '"'
  · rw [if_pos quote, quote]
    exact .inl ⟨rfl, .inl rfl⟩
  · rw [if_neg quote]
    by_cases slash : c = '\\'
    · rw [if_pos slash, slash]
      exact .inl ⟨rfl, .inr rfl⟩
    · rw [if_neg slash]
      exact .inr ⟨rfl, quote, slash⟩

/-- The characters of a string end at the quote that closes it. -/
theorem renderStringChar_unique {one other rest behind : List Char}
    (same : one.flatMap renderStringChar ++ '"' :: rest =
      other.flatMap renderStringChar ++ '"' :: behind) : one = other ∧ rest = behind := by
  induction one generalizing other with
  | nil =>
    cases other with
    | nil => exact ⟨rfl, (List.cons.inj same).2⟩
    | cons c other =>
      rw [List.flatMap_cons] at same
      rcases renderStringChar_cases c with ⟨written, _⟩ | ⟨written, noQuote, _⟩
      · rw [written] at same
        exact absurd (List.cons.inj same).1 (by decide)
      · rw [written] at same
        exact absurd (List.cons.inj same).1.symm noQuote
  | cons c one ih =>
    cases other with
    | nil =>
      rw [List.flatMap_cons] at same
      rcases renderStringChar_cases c with ⟨written, _⟩ | ⟨written, noQuote, _⟩
      · rw [written] at same
        exact absurd (List.cons.inj same).1 (by decide)
      · rw [written] at same
        exact absurd (List.cons.inj same).1 noQuote
    | cons d other =>
      rw [List.flatMap_cons, List.flatMap_cons] at same
      rcases renderStringChar_cases c with ⟨written, _⟩ | ⟨written, _, noSlash⟩ <;>
        rcases renderStringChar_cases d with ⟨found, _⟩ | ⟨found, _, plain⟩ <;>
        rw [written, found] at same
      · obtain ⟨_, later⟩ := List.cons.inj same
        obtain ⟨rfl, others⟩ := List.cons.inj later
        obtain ⟨rfl, further⟩ := ih others
        exact ⟨rfl, further⟩
      · exact absurd (List.cons.inj same).1.symm plain
      · exact absurd (List.cons.inj same).1 noSlash
      · obtain ⟨rfl, others⟩ := List.cons.inj same
        obtain ⟨rfl, further⟩ := ih others
        exact ⟨rfl, further⟩

/-- A text between quotes as codepoints. -/
theorem renderString_toList (text : String) :
    (renderString text).toList = '"' :: (text.toList.flatMap renderStringChar ++ ['"']) := by
  have content : (String.ofList (text.toList.flatMap renderStringChar)).toList =
      text.toList.flatMap renderStringChar := String.toList_ofList
  rw [renderString, String.toList_append, String.toList_append, content]
  rfl

/-- A text between quotes ends at the quote that closes it. -/
theorem renderString_unique {one other : String} {rest behind : List Char}
    (same : (renderString one).toList ++ rest = (renderString other).toList ++ behind) :
    one = other ∧ rest = behind := by
  rw [renderString_toList, renderString_toList, List.cons_append, List.cons_append,
    List.append_assoc, List.append_assoc] at same
  obtain ⟨texts, later⟩ := renderStringChar_unique (List.cons.inj same).2
  exact ⟨String.toList_inj.mp texts, later⟩

/-- The lexeme is a keyword, a number or a name. -/
structure Lexeme.IsWord (lexeme : Lexeme) : Prop where
  /-- It is written as lexemes of its kind are. -/
  spelled : IsLexeme lexeme.written lexeme.kind
  /-- It is written with letters, digits and underscores. -/
  parts : ∀ c ∈ lexeme.written, isNamePart c = true

/-- A number is written in decimal digits. -/
theorem toList_toString (value : Nat) : (toString value).toList = Nat.toDigits 10 value :=
  Nat.toList_repr

/-- Numbers that are written alike are one number. -/
theorem toString_injective {one other : Nat} (same : toString one = toString other) :
    one = other := by
  have read (value : Nat) : Nat.ofDigitChars 10 (toString value).toList 0 = value := by
    rw [toList_toString, Nat.ofDigitChars_ten_toDigits]
  rw [← read one, same, read]

namespace Lexeme

/-- A keyword is a word. -/
theorem isWord_keyword (word : Keyword) : IsWord (.keyword word) where
  spelled := .keyword word
  parts := by cases word <;> exact List.all_eq_true.mp rfl

/-- A name is a word. -/
theorem isWord_identifier {name : String} (spelled : IsLexeme name.toList .identifier) :
    IsWord (.identifier name) where
  spelled := spelled
  parts := by
    obtain ⟨first, others, same, start, parts, _⟩ := spelled.eq_identifier
    show ∀ c ∈ name.toList, isNamePart c = true
    rw [same]
    exact List.forall_mem_cons.mpr ⟨isNamePart_of_nameStart start, parts⟩

/-- The digits of a number are a word. -/
theorem isWord_number (value : Nat) : IsWord (.number (toString value)) := by
  have written := toList_toString value
  have digits : ∀ c ∈ (toString value).toList, isDigit c = true := by
    intro c member
    rw [written] at member
    have digit := Nat.isDigit_of_mem_toDigits (by decide) (by decide) member
    simpa only [Char.isDigit, isDigit, Char.le_def] using digit
  have some : (toString value).toList ≠ [] := by
    rw [written]
    exact Nat.toDigits_ne_nil
  refine ⟨.number some digits, fun c member => ?_⟩
  show (isNameStart c || isDigit c) = true
  rw [digits c member, Bool.or_true]

/-- Lexemes that are written alike are one lexeme. -/
theorem eq_of_written {one other : Lexeme} (first : IsLexeme one.written one.kind)
    (second : IsLexeme other.written other.kind) (same : one.written = other.written) :
    one = other := by
  obtain ⟨c, others, written, _, _, scanned⟩ := readBefore first BlankFirst.nil
  obtain ⟨d, behind, also, _, _, again⟩ := readBefore second BlankFirst.nil
  rw [written, also] at same
  obtain ⟨rfl, rfl⟩ := List.cons.inj same
  exact congrArg Prod.fst (scanned.symm.trans again)

/-- A word ends before a character that continues no word. -/
theorem IsWord.unique {one other : Lexeme} {rest behind : List Char} (first : one.IsWord)
    (second : other.IsWord) (stops : ∀ c ∈ rest.head?, isNamePart c = false)
    (ends : ∀ c ∈ behind.head?, isNamePart c = false)
    (same : one.written ++ rest = other.written ++ behind) : one = other ∧ rest = behind := by
  obtain ⟨written, later⟩ := run_unique first.parts second.parts stops ends same
  exact ⟨eq_of_written first.spelled second.spelled written, later⟩

/-- A word begins with a character of a word. -/
theorem IsWord.begins {lexeme : Lexeme} (word : lexeme.IsWord) (rest : List Char) :
    ∃ first others, lexeme.written ++ rest = first :: others ∧ isNamePart first = true := by
  obtain ⟨first, others, written, _⟩ := word.spelled.begins
  refine ⟨first, others ++ rest, by rw [written]; rfl, word.parts first ?_⟩
  rw [written]
  exact List.mem_cons_self

end Lexeme

/-- How the text of an expression is laid out. -/
inductive Outline (α : Type) where
  /-- A word by itself. -/
  | word (lexeme : Lexeme)
  /-- A text between quotes. -/
  | quoted (text : String)
  /-- Items in parentheses behind a head, a blank before each. -/
  | group (head : String) (items : List (Expr α))

variable {α : Type}

/-- The outline as text. -/
def Outline.text : Outline α → List Char
  | .word lexeme => lexeme.written
  | .quoted text => (renderString text).toList
  | .group head items =>
    '(' :: (head.toList ++ ((Expr.renderArguments items).toList ++ [')']))

namespace Expr

/-- The outline of an expression; the name of a field is an item like any other name. -/
def outline : Expr α → Outline α
  | .bool _ value => .word (.keyword (if value then .trueWord else .falseWord))
  | .int _ value => .word (.number (toString value.toNat))
  | .str _ text => .quoted text
  | .identifier _ name => .word (.identifier name)
  | .binary _ op lhs rhs => .group op.spelling [lhs, rhs]
  | .unary _ op operand => .group op.spelling [operand]
  | .index _ target position => .group "index" [target, position]
  | .call _ callee arguments => .group "call" (callee :: arguments)
  | .primitive _ access target => .group ("." ++ access.spelling) [target]
  | .field note target name => .group "." [target, .identifier note name]

/-- The text of an expression is that of its outline. -/
theorem render_outline (expr : Expr α) : expr.render.toList = expr.outline.text := by
  cases expr with
  | bool _ value => cases value <;> rfl
  | int | str | identifier => rfl
  | binary | unary | index | call | primitive | field =>
    simp [render, renderArguments, outline, Outline.text]

/-- Items behind a head as codepoints. -/
theorem renderArguments_cons (item : Expr α) (later : List (Expr α)) :
    (renderArguments (item :: later)).toList =
      ' ' :: (item.outline.text ++ (renderArguments later).toList) := by
  rw [renderArguments, String.toList_append, String.toList_append, render_outline]
  rfl

/-- The tree without its notes. -/
def shape (expr : Expr α) : Expr Unit := expr.map fun _ => ()

/-- The expression that a group stands for. -/
def assemble? (head : String) (items : List (Expr Unit)) : Option (Expr Unit) :=
  if head = "call" then
    match items with
    | callee :: arguments => some (.call () callee arguments)
    | [] => none
  else
    match items with
    | [operand] =>
      match UnaryOp.all.find? (·.spelling = head), Access.all.find? ("." ++ ·.spelling = head) with
      | some op, _ => some (.unary () op operand)
      | none, some access => some (.primitive () access operand)
      | none, none => none
    | [first, second] =>
      match head, second with
      | "index", _ => some (.index () first second)
      | ".", .identifier _ name => some (.field () first name)
      | _, _ => (BinaryOp.all.find? (·.spelling = head)).map (.binary () · first second)
    | _ => none

/-- Every expression with a head is assembled from its head and its items. -/
theorem assemble?_outline {expr : Expr α} {head : String} {items : List (Expr α)}
    (group : expr.outline = .group head items) :
    assemble? head (items.map shape) = some expr.shape := by
  cases expr with
  | bool | int | str | identifier => cases group
  | binary _ op lhs rhs =>
    cases group
    cases op <;> rfl
  | unary _ op operand =>
    cases group
    cases op <;> rfl
  | index _ target position =>
    cases group
    rfl
  | call _ callee arguments =>
    cases group
    rw [shape, map, mapAll_eq_map]
    rfl
  | primitive _ access target =>
    cases group
    cases access <;> rfl
  | field note target name =>
    cases group
    rfl

/-- One word belongs to one expression. -/
theorem shape_of_word {one other : Expr α} {lexeme : Lexeme} (first : one.outline = .word lexeme)
    (second : other.outline = .word lexeme) : one.shape = other.shape := by
  have same : one.outline = other.outline := first.trans second.symm
  cases one with
  | bool _ value =>
    cases other with
    | bool _ again =>
      have values : value = again := by
        cases value <;> cases again <;> first | rfl | cases same
      rw [values]
      rfl
    | _ => cases same
  | int _ value =>
    cases other with
    | int _ again =>
      have digits : toString value.toNat = toString again.toNat := by
        injection same with lexemes
        injection lexemes
      have values : value = again := UInt64.toNat_inj.mp (toString_injective digits)
      rw [values]
      rfl
    | _ => cases same
  | identifier _ name =>
    cases other with
    | identifier _ again =>
      cases same
      rfl
    | _ => cases same
  | _ => cases first

/-- A text between quotes belongs to one expression. -/
theorem shape_of_quoted {one other : Expr α} {text : String} (first : one.outline = .quoted text)
    (second : other.outline = .quoted text) : one.shape = other.shape := by
  cases one with
  | str =>
    cases first
    cases other with
    | str =>
      cases second
      rfl
    | _ => cases second
  | _ => cases first

/-- A head has no blank in it, and there are items behind it. -/
theorem outline_group {expr : Expr α} {head : String} {items : List (Expr α)}
    (group : expr.outline = .group head items) :
    (∀ c ∈ head.toList, (c != ' ') = true) ∧ ∃ item later, items = item :: later := by
  cases expr with
  | bool | int | str | identifier => cases group
  | binary _ op lhs rhs =>
    cases group
    exact ⟨List.all_eq_true.mp (by cases op <;> rfl), _, _, rfl⟩
  | unary _ op operand =>
    cases group
    exact ⟨List.all_eq_true.mp (by cases op <;> rfl), _, _, rfl⟩
  | primitive _ access target =>
    cases group
    exact ⟨List.all_eq_true.mp (by cases access <;> rfl), _, _, rfl⟩
  | index | call | field =>
    cases group
    exact ⟨List.all_eq_true.mp rfl, _, _, rfl⟩

/-- Every name in the tree is a name. -/
inductive Named : Expr α → Prop where
  /-- A word is well-formed. -/
  | word {expr : Expr α} {lexeme : Lexeme} : expr.outline = .word lexeme → lexeme.IsWord →
    Named expr
  /-- A text between quotes may be any text. -/
  | quoted {expr : Expr α} {text : String} : expr.outline = .quoted text → Named expr
  /-- The items of a group satisfy this. -/
  | group {expr : Expr α} {head : String} {items : List (Expr α)} :
    expr.outline = .group head items → (∀ item ∈ items, Named item) → Named expr

/-- No other expression has a text that begins with the text of this one and goes on, as it does,
with a character that continues no word. -/
def Unique (one : Expr α) : Prop :=
  ∀ (other : Expr α) (rest behind : List Char), other.Named →
    (∀ c ∈ rest.head?, isNamePart c = false) → (∀ c ∈ behind.head?, isNamePart c = false) →
    one.outline.text ++ rest = other.outline.text ++ behind →
      one.shape = other.shape ∧ rest = behind

/-- Items go on with a blank, or with what stands behind them. -/
theorem renderArguments_stops (items : List (Expr α)) {rest : List Char}
    (stops : ∀ c ∈ rest.head?, isNamePart c = false) :
    ∀ c ∈ ((renderArguments items).toList ++ rest).head?, isNamePart c = false := by
  cases items with
  | nil => exact stops
  | cons item later =>
    rw [renderArguments_cons]
    intro c first
    cases first
    rfl

/-- Items end at the parenthesis behind them. -/
theorem renderArguments_unique {items others : List (Expr α)} {rest behind : List Char}
    (unique : ∀ item ∈ items, item.Unique) (named : ∀ item ∈ others, item.Named)
    (same : (renderArguments items).toList ++ ')' :: rest =
      (renderArguments others).toList ++ ')' :: behind) :
    items.map shape = others.map shape ∧ rest = behind := by
  have stops : ∀ (text : List Char), ∀ c ∈ (')' :: text).head?, isNamePart c = false := by
    intro text c first
    cases first
    rfl
  induction items generalizing others with
  | nil =>
    cases others with
    | nil => exact ⟨rfl, (List.cons.inj same).2⟩
    | cons other later =>
      rw [renderArguments_cons] at same
      exact absurd (List.cons.inj same).1 (by decide)
  | cons item items ih =>
    cases others with
    | nil =>
      rw [renderArguments_cons] at same
      exact absurd (List.cons.inj same).1 (by decide)
    | cons other others =>
      obtain ⟨first, unique⟩ := List.forall_mem_cons.mp unique
      obtain ⟨second, named⟩ := List.forall_mem_cons.mp named
      rw [renderArguments_cons, renderArguments_cons, List.cons_append, List.cons_append,
        List.append_assoc, List.append_assoc] at same
      obtain ⟨shapes, later⟩ := first other _ _ second (renderArguments_stops items (stops rest))
        (renderArguments_stops others (stops behind)) (List.cons.inj same).2
      obtain ⟨further, ends⟩ := ih unique named later
      rw [List.map_cons, List.map_cons, shapes, further]
      exact ⟨rfl, ends⟩

/-- A head ends at the blank before the first item. -/
theorem renderArguments_blank (item : Expr α) (later : List (Expr α)) (behind : List Char) :
    ∀ c ∈ ((renderArguments (item :: later)).toList ++ behind).head?, (c != ' ') = false := by
  rw [renderArguments_cons]
  intro c first
  cases first
  rfl

/-- A group is read in one way only if its items are: the blank ends the head, and head and items
make the expression. -/
theorem group_unique {one other : Expr α} {head title : String} {items found : List (Expr α)}
    {rest behind : List Char} (outline : one.outline = .group head items)
    (layout : other.outline = .group title found) (unique : ∀ item ∈ items, item.Unique)
    (named : ∀ item ∈ found, item.Named)
    (same : (Outline.group head items).text ++ rest = (Outline.group title found).text ++ behind) :
    one.shape = other.shape ∧ rest = behind := by
  obtain ⟨plain, item, later, rfl⟩ := outline_group outline
  obtain ⟨clean, next, further, rfl⟩ := outline_group layout
  rw [Outline.text, Outline.text, List.cons_append, List.cons_append, List.append_assoc,
    List.append_assoc, List.append_assoc, List.append_assoc] at same
  obtain ⟨heads, behindHead⟩ := run_unique plain clean (renderArguments_blank item later _)
    (renderArguments_blank next further _) (List.cons.inj same).2
  obtain rfl := String.toList_inj.mp heads
  obtain ⟨shapes, ended⟩ := renderArguments_unique unique named behindHead
  have first := assemble?_outline outline
  rw [shapes, assemble?_outline layout] at first
  exact ⟨(Option.some.inj first).symm, ended⟩

/-- What begins as a word begins neither as a text between quotes nor as a group. -/
theorem word_begins {lexeme : Lexeme} {c : Char} {rest behind : List Char} (word : lexeme.IsWord)
    (other : isNamePart c = false) : lexeme.written ++ rest ≠ c :: behind := by
  intro same
  obtain ⟨first, others, written, part⟩ := word.begins rest
  rw [written] at same
  rw [(List.cons.inj same).1, other] at part
  cases part

/-- The text of an expression whose names are names is read in one way only. -/
theorem Named.unique {one : Expr α} (named : one.Named) : one.Unique := by
  intro other rest behind others stops ends same
  induction named generalizing other rest behind with
  | @word one lexeme outline word =>
    rw [outline] at same
    cases others with
    | @word _ again layout second =>
      rw [layout] at same
      obtain ⟨rfl, later⟩ := word.unique second stops ends same
      exact ⟨shape_of_word outline layout, later⟩
    | @quoted _ text layout =>
      rw [layout, Outline.text, Outline.text, renderString_toList] at same
      exact absurd same (word_begins word rfl)
    | group layout _ =>
      rw [layout] at same
      exact absurd same (word_begins word rfl)
  | @quoted one text outline =>
    rw [outline] at same
    cases others with
    | word layout second =>
      rw [layout, Outline.text, Outline.text, renderString_toList] at same
      exact absurd same.symm (word_begins second rfl)
    | quoted layout =>
      rw [layout] at same
      obtain ⟨rfl, later⟩ := renderString_unique same
      exact ⟨shape_of_quoted outline layout, later⟩
    | group layout _ =>
      rw [layout, Outline.text, Outline.text, renderString_toList] at same
      exact absurd (List.cons.inj same).1 (by decide)
  | @group one head items outline _ ih =>
    rw [outline] at same
    cases others with
    | word layout second =>
      rw [layout] at same
      exact absurd same.symm (word_begins second rfl)
    | quoted layout =>
      rw [layout, Outline.text, Outline.text, renderString_toList] at same
      exact absurd (List.cons.inj same).1 (by decide)
    | @group _ title found layout named =>
      rw [layout] at same
      have unique : ∀ item ∈ items, item.Unique :=
        fun item member other rest behind named stops ends same =>
          ih item member other rest behind named stops ends same
      exact group_unique outline layout unique named same

/-- Texts of expressions, each with a line feed behind it, are read in one way only. -/
theorem lines_unique {trees others : List (Expr α)} (first : ∀ tree ∈ trees, tree.Named)
    (second : ∀ tree ∈ others, tree.Named)
    (same : trees.flatMap (fun tree => tree.outline.text ++ ['\n']) =
      others.flatMap fun tree => tree.outline.text ++ ['\n']) :
    trees.map shape = others.map shape := by
  have stops : ∀ (text : List Char), ∀ c ∈ ('\n' :: text).head?, isNamePart c = false := by
    intro text c first
    cases first
    rfl
  induction trees generalizing others with
  | nil =>
    cases others with
    | nil => rfl
    | cons other others => simp at same
  | cons tree trees ih =>
    cases others with
    | nil => simp at same
    | cons other others =>
      obtain ⟨named, first⟩ := List.forall_mem_cons.mp first
      obtain ⟨also, second⟩ := List.forall_mem_cons.mp second
      rw [List.flatMap_cons, List.flatMap_cons, List.append_assoc, List.append_assoc,
        List.singleton_append, List.singleton_append] at same
      obtain ⟨shapes, later⟩ := named.unique other _ _ also (stops _) (stops _) same
      have further := ih first second (List.cons.inj later).2
      rw [List.map_cons, List.map_cons, shapes, further]

end Expr

end Cascade
