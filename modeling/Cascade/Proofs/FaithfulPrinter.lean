import Cascade.Proofs.PrintedTree
import Cascade.Proofs.Lookahead
import Cascade.Proofs.SoundStore

/-!
# The printer is faithful

Reading a store gives trees whose names are names if the names in its nodes are. The texts of such
trees can be read in one way only, so handles that are printed alike stand for the same tree, and
stores whose roots are printed alike have the same root trees. The store of every source is of this
kind, also where the parse stopped.

Main definitions:

* `Ast.Printable`, the stores that hold expressions with names for names, children first.
-/
namespace Cascade

namespace Expr

variable {α : Type} {note : α} {lhs rhs target : Expr α} {arguments : List (Expr α)}

/-- The names in a group are those in its items. -/
theorem named_group (expr : Expr α) {head : String} {items : List (Expr α)}
    (outline : expr.outline = .group head items) : expr.Named ↔ ∀ item ∈ items, item.Named := by
  constructor
  · rintro (⟨layout, _⟩ | layout | ⟨layout, named⟩) <;> rw [outline] at layout <;> cases layout
    exact named
  · exact .group outline

/-- A name is a name. -/
@[simp]
theorem named_identifier {name : String} :
    Named (.identifier note name) ↔ IsLexeme name.toList .identifier := by
  constructor
  · rintro (⟨outline, word⟩ | outline | ⟨outline, _⟩) <;> cases outline
    exact word.spelled
  · intro spelled
    exact .word rfl (Lexeme.isWord_identifier spelled)

/-- The names in an operation are those in its operands. -/
@[simp]
theorem named_binary {op : BinaryOp} :
    Named (.binary note op lhs rhs) ↔ lhs.Named ∧ rhs.Named := by
  rw [named_group (.binary note op lhs rhs) rfl]
  simp

/-- The names behind an operator are those in its operand. -/
@[simp]
theorem named_unary {op : UnaryOp} : Named (.unary note op target) ↔ target.Named := by
  rw [named_group (.unary note op target) rfl]
  simp

/-- The names in an index are those in its target and its position. -/
@[simp]
theorem named_index : Named (.index note lhs rhs) ↔ lhs.Named ∧ rhs.Named := by
  rw [named_group (.index note lhs rhs) rfl]
  simp

/-- The names in a call are those in what is called and in the arguments. -/
@[simp]
theorem named_call :
    Named (.call note target arguments) ↔ target.Named ∧ ∀ item ∈ arguments, item.Named := by
  rw [named_group (.call note target arguments) rfl]
  simp

/-- The names below a selector are those in its target. -/
@[simp]
theorem named_primitive {access : Access} :
    Named (.primitive note access target) ↔ target.Named := by
  rw [named_group (.primitive note access target) rfl]
  simp

/-- The name of a field is one of its names. -/
@[simp]
theorem named_field {name : String} :
    Named (.field note target name) ↔ target.Named ∧ IsLexeme name.toList .identifier := by
  rw [named_group (.field note target name) rfl]
  simp

/-- The names in the trees below a tree are among its own. -/
theorem Named.children {expr : Expr α} (named : expr.Named) :
    ∀ child ∈ expr.children, child.Named := by
  cases expr <;> simp_all [Expr.children]

end Expr

/-- What the results of all items are made into is made of the result of each. -/
theorem mapM_map {ε σ τ ρ : Type} (act : σ → Except ε τ) (made : τ → ρ) (items : List σ) :
    items.mapM (fun item => (act item).map made) = (items.mapM act).map (List.map made) := by
  induction items with
  | nil => rfl
  | cons item items ih =>
    rw [List.mapM_cons, List.mapM_cons, ih]
    cases act item with
    | error _ => rfl
    | ok value => cases items.mapM act <;> rfl

/-- The symbols of names in a node. -/
def Node.names : Node → List Symbol
  | .identifier name => [name]
  | .field _ name => [name]
  | _ => []

namespace Ast

/-- The handle was given out for a node. -/
def Given (ast : Ast) (handle : Handle) : Prop := ∃ place, ast.ordinals[handle]? = some place

/-- The store holds expressions, children first, and every name in them is a name. -/
structure Printable (ast : Ast) : Prop where
  /-- The children of a node were pushed before it. -/
  childrenFirst : ∀ (handle : Handle) (place : Nat) (handles : List Handle),
    ast.ordinals[handle]? = some place → ast.children handle = .ok handles →
      ∀ child ∈ handles, ast.Before place child
  /-- The names of variables and of fields are names. -/
  names : ∀ (handle : Handle) (node : Node), ast.Given handle → ast.get handle = .ok node →
    ∀ symbol ∈ node.names, ∀ text, ast.resolve symbol = .ok text →
      IsLexeme text.toList .identifier
  /-- The handles of the roots were given out. -/
  roots : ∀ root ∈ ast.roots.toList, ast.Given root

/-- What is printed at handles are the texts of the trees that are read there. -/
theorem mapM_render (ast : Ast) (handles : List Handle) :
    handles.mapM ast.render = (handles.mapM ast.read).map (List.map Expr.render) := by
  rw [← mapM_map]
  refine congrArg (List.mapM · handles) (funext fun handle => ?_)
  rw [render]
  cases ast.read handle <;> rfl

namespace Printable

variable {ast : Ast} {handle : Handle}

/-- The children of a node were given out. -/
theorem given (printable : ast.Printable) (given : ast.Given handle) {handles : List Handle}
    (found : ast.children handle = .ok handles) : ∀ child ∈ handles, ast.Given child := by
  obtain ⟨place, there⟩ := given
  intro child member
  obtain ⟨earlier, ordinal, _⟩ := printable.childrenFirst handle place handles there found child
    member
  exact ⟨earlier, ordinal⟩

/-- Every name in a tree that is read is a name. -/
theorem named (printable : ast.Printable) {depth : Nat} {tree : Expr Handle}
    (given : ast.Given handle) (read : ast.readWithin depth handle = .ok tree) : tree.Named := by
  induction depth generalizing handle tree with
  | zero => cases read
  | succ depth ih =>
    rw [readWithin] at read
    obtain ⟨node, got, read⟩ := bind_ok read
    have names := printable.names handle node given got
    have direct (plain : ∀ callee arguments, node ≠ .call callee arguments) :
        ∀ child ∈ node.directChildren, ast.Given child := by
      refine printable.given given ?_
      rw [Ast.children, got]
      cases node with
      | call callee arguments => exact absurd rfl (plain callee arguments)
      | _ => rfl
    cases node with
    | bool value =>
      cases read
      exact .word rfl (Lexeme.isWord_keyword _)
    | int value =>
      cases read
      exact .word rfl (Lexeme.isWord_number _)
    | str text =>
      obtain ⟨content, _, read⟩ := bind_ok read
      cases read
      exact .quoted rfl
    | identifier name =>
      obtain ⟨content, resolved, read⟩ := bind_ok read
      cases read
      exact Expr.named_identifier.mpr (names name (.head _) content resolved)
    | binary op lhs rhs =>
      obtain ⟨left, first, read⟩ := bind_ok read
      obtain ⟨right, second, read⟩ := bind_ok read
      cases read
      have leftNamed := ih (direct (by simp) lhs (.head _)) first
      have rightNamed := ih (direct (by simp) rhs (.tail _ (.head _))) second
      exact Expr.named_binary.mpr ⟨leftNamed, rightNamed⟩
    | unary op operand =>
      obtain ⟨inner, found, read⟩ := bind_ok read
      cases read
      exact Expr.named_unary.mpr (ih (direct (by simp) operand (.head _)) found)
    | index target position =>
      obtain ⟨outer, first, read⟩ := bind_ok read
      obtain ⟨inner, second, read⟩ := bind_ok read
      cases read
      have outerNamed := ih (direct (by simp) target (.head _)) first
      have innerNamed := ih (direct (by simp) position (.tail _ (.head _))) second
      exact Expr.named_index.mpr ⟨outerNamed, innerNamed⟩
    | call callee arguments =>
      obtain ⟨called, first, read⟩ := bind_ok read
      obtain ⟨handles, listed, read⟩ := bind_ok read
      obtain ⟨trees, second, read⟩ := bind_ok read
      cases read
      have children : ast.children handle = .ok (callee :: handles) := by
        simp only [Ast.children, got, listed, bind, Except.bind, pure, Except.pure]
      obtain ⟨calleeGiven, others⟩ := List.forall_mem_cons.mp (printable.given given children)
      have calledNamed := ih calleeGiven first
      have treesNamed := mapM_all (fun child member tree found => ih (others child member) found)
        second
      exact Expr.named_call.mpr ⟨calledNamed, treesNamed⟩
    | primitive access target =>
      obtain ⟨inner, found, read⟩ := bind_ok read
      cases read
      exact Expr.named_primitive.mpr (ih (direct (by simp) target (.head _)) found)
    | field target name =>
      obtain ⟨inner, found, read⟩ := bind_ok read
      obtain ⟨content, resolved, read⟩ := bind_ok read
      cases read
      have innerNamed := ih (direct (by simp) target (.head _)) found
      exact Expr.named_field.mpr ⟨innerNamed, names name (.head _) content resolved⟩

/-- What is printed at a handle is the text of a tree whose names are names. -/
theorem rendered (printable : ast.Printable) (given : ast.Given handle) {text : String}
    (printed : ast.render handle = .ok text) :
    ∃ tree, ast.read handle = .ok tree ∧ tree.Named ∧ text.toList = tree.outline.text := by
  obtain ⟨tree, read, printed⟩ := bind_ok printed
  cases printed
  exact ⟨tree, read, printable.named given read, tree.render_outline⟩

/-- The text of the roots is made of the texts of trees whose names are names. -/
theorem rendered_roots (printable : ast.Printable) {text : String}
    (printed : ast.renderRoots = .ok text) :
    ∃ trees, ast.roots.toList.mapM ast.read = .ok trees ∧ (∀ tree ∈ trees, tree.Named) ∧
      text.toList = trees.flatMap fun tree => tree.outline.text ++ ['\n'] := by
  obtain ⟨texts, lines, joined⟩ := bind_ok printed
  cases joined
  rw [ast.mapM_render] at lines
  cases read : ast.roots.toList.mapM ast.read with
  | error fault => rw [read] at lines; cases lines
  | ok trees =>
    rw [read] at lines
    cases lines
    have named := mapM_all
      (fun root member tree found => printable.named (printable.roots root member) found) read
    refine ⟨trees, rfl, named, ?_⟩
    rw [String.toList_join, List.map_map, List.flatMap_map]
    refine List.flatMap_congr fun tree _ => ?_
    rw [Function.comp_apply, String.toList_append, tree.render_outline]
    rfl

end Printable

end Ast

/-- If the token is a name it is well-formed. -/
def Token.NamesWell (token : Token) : Prop :=
  ∀ name, token.lexeme = .identifier name → IsLexeme name.toList .identifier

/-- A token that is an expression by itself is one whose names are names. -/
theorem leaf?_named {token : Token} {expr : Expr Span} (well : token.NamesWell)
    (alone : token.leaf? = some expr) : expr.Named := by
  unfold Token.leaf? at alone
  split at alone
  · cases alone
    exact .word rfl (Lexeme.isWord_keyword _)
  · cases alone
    exact .word rfl (Lexeme.isWord_keyword _)
  · cases alone
    exact .quoted rfl
  · next name written =>
    cases alone
    exact Expr.named_identifier.mpr (well name written)
  · obtain ⟨value, _, rfl⟩ := Option.map_eq_some_iff.mp alone
    exact .word rfl (Lexeme.isWord_number _)
  · cases alone

/-- A field that is selected has a name. -/
theorem selected_named {target : Expr Span} {dot token : Token} {selector : Selector}
    (named : target.Named) (well : token.NamesWell)
    (accepted : acceptSelector token.kind = some selector) :
    (selected target dot token selector).Named := by
  cases selector with
  | access access => exact Expr.named_primitive.mpr named
  | field =>
    refine Expr.named_field.mpr ⟨named, ?_⟩
    have kind : token.kind = .identifier := by
      unfold acceptSelector at accepted
      split at accepted
      · assumption
      · obtain ⟨_, _, other⟩ := Option.map_eq_some_iff.mp accepted
        cases other
    obtain ⟨lexeme, start⟩ := token
    cases lexeme <;> cases kind
    exact well _ rfl

/-- The names in what the goal has been given are names. -/
def Goal.Named : Goal → Prop
  | .run _ lhs => lhs.Named
  | .chain target => target.Named
  | .link target => target.Named
  | _ => True

section

variable {goal : Goal} {room : Nat} {tokens rest : List Token}

/-- The names in what is parsed are names, if those of the tokens are. -/
theorem Succeeds.named {values : List (Expr Span)}
    (succeeds : Succeeds goal room tokens values rest) (well : ∀ token ∈ tokens, token.NamesWell)
    (given : goal.Named) :
    (∀ value ∈ values, value.Named) ∧ ∀ token ∈ rest, token.NamesWell := by
  induction succeeds with
  | leaf alone =>
    obtain ⟨first, others⟩ := List.forall_mem_cons.mp well
    exact ⟨List.forall_mem_singleton.mpr (leaf?_named first alone), others⟩
  | selector _ accepted =>
    obtain ⟨_, well⟩ := List.forall_mem_cons.mp well
    obtain ⟨token, others⟩ := List.forall_mem_cons.mp well
    exact ⟨List.forall_mem_singleton.mpr (selected_named given token accepted), others⟩
  | _ => simp_all [Goal.Named]

/-- So are those in what a failed parse hands out. -/
theorem Fails.named {context : ParseContext} {failure : Failure} {completed : List (Expr Span)}
    (fails : Fails context goal room tokens failure rest completed)
    (well : ∀ token ∈ tokens, token.NamesWell) (given : goal.Named) :
    ∀ value ∈ completed, value.Named := by
  induction fails with
  | chain parsed _ ih | run _ _ parsed _ ih | chain_link parsed _ ih =>
    have before := parsed.named well given
    simp_all [Goal.Named]
  | operator _ parsed _ ih =>
    have before := parsed.named (List.forall_mem_cons.mp well).2 trivial
    simp_all [Goal.Named]
  | unclosed_index _ parsed _ | unclosed_call _ _ parsed _ | unclosed_group _ parsed _ =>
    have before := parsed.named (List.forall_mem_cons.mp well).2 trivial
    simp_all [Goal.Named]
  | later_argument parsed _ _ ih =>
    have before := parsed.named well trivial
    simp_all [Goal.Named]
  | _ => simp_all [Goal.Named]

end

/-- The names in the trees of a program are names, if those of its tokens are. -/
theorem parseProgram_named (context : ParseContext) {tokens : List Token}
    (well : ∀ token ∈ tokens, token.NamesWell) :
    (∀ root ∈ (parseProgram context tokens).roots, root.Named) ∧
      ∀ expr ∈ (parseProgram context tokens).completed, expr.Named := by
  induction tokens using program_induction context with
  | ended =>
    rw [parseProgram]
    exact ⟨List.forall_mem_nil _, List.forall_mem_nil _⟩
  | failed tokens failure rest completed some fails =>
    rw [parseProgram_failed some fails]
    exact ⟨List.forall_mem_nil _, fails.named well trivial⟩
  | done tokens root rest succeeds ih =>
    obtain ⟨named, behind⟩ := succeeds.named well trivial
    obtain ⟨roots, completed⟩ := ih behind
    rw [parseProgram_done succeeds]
    exact ⟨List.forall_mem_cons.mpr ⟨named root (.head _), roots⟩, completed⟩

namespace Ast

open Cascade.Expr (sizeAll)

/-- The place was given to a handle, and the names in its node are names. -/
def NamesWell (ast : Ast) (place : Nat) : Prop :=
  ∃ handle node, ast.ordinals[handle]? = some place ∧ ast.get handle = .ok node ∧
    ∀ symbol ∈ node.names, ∃ text, ast.resolve symbol = .ok text ∧
      IsLexeme text.toList .identifier

/-- The last place of a stored tree whose names are names. -/
theorem Stored.namesWell {ast : Ast} {handle : Handle} {start : Nat} {expr : Expr Span}
    (named : expr.Named) (stored : ast.Stored handle start expr) :
    ast.NamesWell (start + sizeAll expr.children) := by
  obtain ⟨_, _, _, ordinal⟩ := stored.children
  cases expr with
  | bool span value =>
    have placed : ast.At handle (.bool value) span start := stored
    exact ⟨handle, _, ordinal, placed.get, nofun⟩
  | int span value =>
    have placed : ast.At handle (.int value) span start := stored
    exact ⟨handle, _, ordinal, placed.get, nofun⟩
  | str span text =>
    obtain ⟨symbol, _, placed⟩ := stored
    exact ⟨handle, _, ordinal, placed.get, nofun⟩
  | identifier span name =>
    obtain ⟨symbol, resolved, placed⟩ := stored
    have well := Expr.named_identifier.mp named
    exact ⟨handle, _, ordinal, placed.get, List.forall_mem_singleton.mpr ⟨name, resolved, well⟩⟩
  | binary span op lhs rhs =>
    obtain ⟨left, right, _, _, placed⟩ := stored
    exact ⟨handle, _, ordinal, placed.get, nofun⟩
  | unary span op operand =>
    obtain ⟨inner, _, placed⟩ := stored
    exact ⟨handle, _, ordinal, placed.get, nofun⟩
  | index span target position =>
    obtain ⟨outer, inner, _, _, placed⟩ := stored
    exact ⟨handle, _, ordinal, placed.get, nofun⟩
  | call span callee arguments =>
    obtain ⟨called, handles, range, _, _, _, placed⟩ := stored
    exact ⟨handle, _, ordinal, placed.get, nofun⟩
  | primitive span access target =>
    obtain ⟨inner, _, placed⟩ := stored
    exact ⟨handle, _, ordinal, placed.get, nofun⟩
  | field span target name =>
    obtain ⟨inner, symbol, _, resolved, placed⟩ := stored
    obtain ⟨_, well⟩ := Expr.named_field.mp named
    exact ⟨handle, _, ordinal, placed.get, List.forall_mem_singleton.mpr ⟨name, resolved, well⟩⟩

/-- A sound store is printable if the names at each of its places are names. -/
theorem Sound.printable {ast : Ast} (sound : ast.Sound)
    (well : ∀ place, place < ast.nodeCount → ast.NamesWell place) : ast.Printable where
  childrenFirst handle place handles there found := by
    obtain ⟨node, got, refers⟩ := sound.nodes handle place there
    rw [Ast.children, got] at found
    cases node with
    | call callee range =>
      obtain ⟨arguments, listed, earlier⟩ := refers.arguments callee range rfl
      simp only [listed, bind, Except.bind, pure, Except.pure, Except.ok.injEq] at found
      subst found
      exact List.forall_mem_cons.mpr ⟨refers.children callee (.head _), earlier⟩
    | _ =>
      cases found
      exact refers.children
  names handle node given got symbol member text resolved := by
    obtain ⟨place, there⟩ := given
    obtain ⟨nodes, records⟩ := sound.tables
    obtain ⟨other, found, ordinal, again, names⟩ := well place (records.place_lt there)
    rw [← records.handle_unique there ordinal, got] at again
    obtain rfl := Except.ok.inj again
    obtain ⟨name, known, spelled⟩ := names symbol member
    rw [resolved] at known
    rwa [Except.ok.inj known]
  roots := sound.roots

/-- A store into which roots and further trees were put is printable if their names are names. -/
theorem printable_of_trees {roots completed : List (Expr Span)}
    (few : sizeAll roots + sizeAll completed < 2 ^ 32) (first : ∀ root ∈ roots, root.Named)
    (second : ∀ expr ∈ completed, expr.Named) :
    ((Ast.empty.insertRoots roots).insertAll completed).2.Printable := by
  have room : Ast.empty.Room (sizeAll roots + (sizeAll completed + 0)) := .empty few
  obtain ⟨early, left⟩ := Sound.empty.insertRoots room
  obtain ⟨sound, _⟩ := early.insertAll left
  exact sound.printable (places_of_trees Expr.Named few (fun _ named => named.children)
    (fun _ _ _ named stored => stored.namesWell named) first second)

end Ast

/-- The names of a source are names. -/
theorem Source.namesWell (source : Source) :
    ∀ token ∈ source.tokenStream.tokens, token.NamesWell := by
  intro token member name written
  have kind : token.kind = .identifier := congrArg Lexeme.kind written
  have spelled := source.token_spelled member (by rw [kind]; nofun)
  rw [Token.Spelled, kind, written] at spelled
  exact spelled

/-- The store of a source is printable, also where the parse stopped. -/
theorem Source.ast_printable (source : Source) (limit : Nat)
    (small : source.content.utf8ByteSize < 2 ^ 32) : (source.ast limit).Printable := by
  obtain ⟨roots, completed⟩ :=
    parseProgram_named (Session.start source limit).context source.namesWell
  have printable := Ast.printable_of_trees (source.size_lt limit small) roots completed
  have same : source.ast limit = ((Ast.empty.insertRoots (source.outcome limit).roots).insertAll
      (source.outcome limit).completed).2 := Session.program_ast _
  rw [same]
  exact printable

mutual

/-- The text of a tree does not depend on its notes. -/
theorem Expr.render_map {α β : Type} (f : α → β) : (expr : Expr α) →
    (expr.map f).render = expr.render
  | .bool .. | .int .. | .str .. | .identifier .. => rfl
  | .binary _ _ lhs rhs => by rw [map, render, render, lhs.render_map f, rhs.render_map f]
  | .unary _ _ operand => by rw [map, render, render, operand.render_map f]
  | .index _ target position => by
    rw [map, render, render, target.render_map f, position.render_map f]
  | .call _ callee arguments => by
    rw [map, render, render, callee.render_map f, renderArguments_mapAll f arguments]
  | .primitive _ _ target => by rw [map, render, render, target.render_map f]
  | .field _ target _ => by rw [map, render, render, target.render_map f]

/-- The text of arguments does not depend on their notes. -/
theorem Expr.renderArguments_mapAll {α β : Type} (f : α → β) : (exprs : List (Expr α)) →
    renderArguments (mapAll f exprs) = renderArguments exprs
  | [] => rfl
  | expr :: exprs => by
    rw [mapAll, renderArguments, renderArguments, expr.render_map f,
      renderArguments_mapAll f exprs]

end

/-- Trees that differ in their notes have the same texts. -/
theorem Expr.render_of_mapAll {α β γ : Type} {f : α → γ} {g : β → γ} {trees : List (Expr α)}
    {exprs : List (Expr β)} (same : mapAll f trees = mapAll g exprs) :
    trees.map render = exprs.map render := by
  have texts := congrArg (List.map render) same
  rw [mapAll_eq_map, mapAll_eq_map, List.map_map, List.map_map] at texts
  simpa only [Function.comp_def, render_map] using texts

/-- What is printed of a source are the texts of its roots. -/
theorem Source.renderRoots_eq (source : Source) (limit : Nat)
    (small : source.content.utf8ByteSize < 2 ^ 32) :
    (source.ast limit).renderRoots =
      .ok (String.join ((source.outcome limit).roots.map fun root => root.render ++ "\n")) := by
  obtain ⟨trees, read, same⟩ := source.ast_shows limit small
  rw [Ast.renderRoots, Ast.mapM_render, read, Except.map, Expr.render_of_mapAll same]
  simp only [bind, Except.bind, pure, Except.pure, List.map_map, Function.comp_def]

/-- The printer is faithful: in stores that hold expressions with names for names, children first,
two handles that are printed alike stand for the same tree, whatever the handles in it are, and
stores whose roots are printed alike have the same root trees. -/
theorem printer_is_faithful (one other : Ast) (first : one.Printable) (second : other.Printable) :
    (∀ (handle again : Handle) (text : String), one.Given handle → other.Given again →
      one.render handle = .ok text → other.render again = .ok text →
        ∃ tree same, one.read handle = .ok tree ∧ other.read again = .ok same ∧
          tree.shape = same.shape) ∧
    ∀ text, one.renderRoots = .ok text → other.renderRoots = .ok text →
      ∃ trees same, one.roots.toList.mapM one.read = .ok trees ∧
        other.roots.toList.mapM other.read = .ok same ∧
        trees.map Expr.shape = same.map Expr.shape := by
  constructor
  · intro handle again text given found printed also
    obtain ⟨tree, read, named, written⟩ := first.rendered given printed
    obtain ⟨same, reread, others, spelled⟩ := second.rendered found also
    have texts : tree.outline.text ++ [] = same.outline.text ++ [] := by
      rw [← written, ← spelled]
    obtain ⟨shapes, _⟩ := named.unique same [] [] others nofun nofun texts
    exact ⟨tree, same, read, reread, shapes⟩
  · intro text printed also
    obtain ⟨trees, read, named, written⟩ := first.rendered_roots printed
    obtain ⟨same, reread, others, spelled⟩ := second.rendered_roots also
    exact ⟨trees, same, read, reread, Expr.lines_unique named others (written.symm.trans spelled)⟩

/-- Two sources with different blanks, parentheses and comments have the same root trees, since they
are printed alike. -/
theorem differently_written_sources_have_equal_trees :
    ∃ text trees same,
      ((⟨0, "one.sb", "f(a.x, - 1) \"(\\\""⟩ : Source).ast 8).renderRoots = .ok text ∧
      ((⟨0, "other.sb", "(f)((a) . x, (-1)) // é\n\"(\\\""⟩ : Source).ast 8).renderRoots =
        .ok text ∧
      ((⟨0, "one.sb", "f(a.x, - 1) \"(\\\""⟩ : Source).ast 8).roots.toList.mapM
        ((⟨0, "one.sb", "f(a.x, - 1) \"(\\\""⟩ : Source).ast 8).read = .ok trees ∧
      ((⟨0, "other.sb", "(f)((a) . x, (-1)) // é\n\"(\\\""⟩ : Source).ast 8).roots.toList.mapM
        ((⟨0, "other.sb", "(f)((a) . x, (-1)) // é\n\"(\\\""⟩ : Source).ast 8).read =
          .ok same ∧
      trees.map Expr.shape = same.map Expr.shape := by
  have first := Source.renderRoots_eq ⟨0, "one.sb", "f(a.x, - 1) \"(\\\""⟩ 8 (by decide)
  have second :=
    Source.renderRoots_eq ⟨0, "other.sb", "(f)((a) . x, (-1)) // é\n\"(\\\""⟩ 8 (by decide)
  have texts :
      ((⟨0, "other.sb", "(f)((a) . x, (-1)) // é\n\"(\\\""⟩ : Source).outcome 8).roots.map
          (fun root => root.render ++ "\n") =
        ((⟨0, "one.sb", "f(a.x, - 1) \"(\\\""⟩ : Source).outcome 8).roots.map
          fun root => root.render ++ "\n" := by decide +kernel
  rw [texts] at second
  obtain ⟨_, roots⟩ := printer_is_faithful _ _
    (Source.ast_printable ⟨0, "one.sb", "f(a.x, - 1) \"(\\\""⟩ 8 (by decide))
    (Source.ast_printable ⟨0, "other.sb", "(f)((a) . x, (-1)) // é\n\"(\\\""⟩ 8 (by decide))
  obtain ⟨trees, same, read, reread, shapes⟩ := roots _ first second
  exact ⟨_, trees, same, first, second, read, reread, shapes⟩

end Cascade
