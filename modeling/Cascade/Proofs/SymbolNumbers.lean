import Cascade.Proofs.StoreCalls
import Cascade.Proofs.TextTokens

/-!
# Texts are numbered as they first occur

A store interns the text of a name, a string or a field right before it stores the node. These nodes
are stored in the order of their tokens, so the table holds the distinct texts of the tokens that
are used up as they first occur, and every node has the symbol of its token.
-/
namespace Cascade

open Cascade.Expr (nodesAll)

namespace Interner

/-- An interned text is found. -/
theorem find?_intern (interner : Interner) (text : String) :
    (interner.intern text).2.find? text = some (interner.intern text).1 := by
  unfold intern
  split
  · next number known => rw [find?, known, Option.map_some]
  · rw [find?, Std.HashMap.getElem?_insert_self, Option.map_some]

/-- A text that was found is still found after another one was interned. -/
theorem find?_intern_keeps {interner : Interner} {old : String} {symbol : Symbol}
    (found : interner.find? old = some symbol) (text : String) :
    (interner.intern text).2.find? old = some symbol := by
  unfold intern
  split
  · exact found
  · next unknown =>
    have other : text ≠ old := by
      rintro rfl
      rw [find?, unknown] at found
      cases found
    rwa [find?, Std.HashMap.getElem?_insert, if_neg (by simpa using other)]

/-- The symbol of a text is its place among the texts. -/
theorem symbol_of_find? {interner : Interner} {text : String} {symbol : Symbol}
    (found : interner.find? text = some symbol) :
    symbol = .ofIndex (interner.texts.toList.idxOf text) := by
  obtain ⟨number, known, rfl⟩ := Option.map_eq_some_iff.mp found
  have interned : interner.intern text = (.ofIndex number, interner) := by
    unfold intern
    split
    · next again => rw [known] at again; cases again; rfl
    · next unknown => rw [known] at unknown; cases unknown
  have place := interner.symbol_intern text
  rwa [interned] at place

end Interner

/-- The symbol of a stored node, if it has a text. -/
def Node.symbol? : Node → Option Symbol
  | .str text => some text
  | .identifier name | .field _ name => some name
  | _ => none

/-- The node is stored for the expression: it is of its variant, and has the symbol of its text. -/
structure Expr.StoredAs (symbols : Interner) (expr : Expr Span) (node : Node) : Prop where
  /-- The variant is that of the expression. -/
  kind : node.kind = expr.kind
  /-- The symbol is the one that the text is found under. -/
  symbol : ∀ text, expr.text? = some text →
    ∃ symbol, node.symbol? = some symbol ∧ symbols.find? text = some symbol

namespace Ast

/-- So many texts were interned and the expressions stored one after the other, as these nodes. -/
structure Wrote (ast : Ast) (texts : List String) (exprs : List (Expr Span)) (nodes : List Node) :
    Prop where
  /-- The arena holds the nodes. -/
  arena : ast.arena.Holds nodes
  /-- As long as their places fit their words they are found. -/
  records : nodes.length < 2 ^ 32 → ast.Records nodes
  /-- The table has the texts as they first occur. -/
  texts : ast.symbols.texts.toList = texts.eraseDups
  /-- Each node is stored for its expression. -/
  stored : List.Forall₂ (Expr.StoredAs ast.symbols) exprs nodes

namespace Wrote

variable {ast other : Ast} {texts : List String} {exprs : List (Expr Span)} {nodes : List Node}

/-- Roots and lists do not matter. -/
theorem congr (wrote : ast.Wrote texts exprs nodes) (arena : other.arena = ast.arena)
    (spans : other.spans = ast.spans) (ordinals : other.ordinals = ast.ordinals)
    (symbols : other.symbols = ast.symbols) : other.Wrote texts exprs nodes where
  arena := arena ▸ wrote.arena
  records few := ⟨arena ▸ wrote.arena, spans ▸ (wrote.records few).spans,
    ordinals ▸ (wrote.records few).ordinals⟩
  texts := symbols ▸ wrote.texts
  stored := symbols ▸ wrote.stored

/-- A text is interned behind the others. -/
theorem intern (wrote : ast.Wrote texts exprs nodes) (text : String) :
    (ast.intern text).2.Wrote (texts ++ [text]) exprs nodes where
  arena := wrote.arena
  records few := ⟨wrote.arena, (wrote.records few).spans, (wrote.records few).ordinals⟩
  texts := by
    have interned : ast.symbols.Interned texts _ := ⟨wrote.texts, rfl⟩
    exact (interned.intern text).distinct
  stored := by
    refine wrote.stored.imp fun expr node stored => ⟨stored.kind, fun old there => ?_⟩
    obtain ⟨symbol, given, found⟩ := stored.symbol old there
    exact ⟨symbol, given, Interner.find?_intern_keeps found text⟩

/-- A node is written behind the others. -/
theorem push (wrote : ast.Wrote texts exprs nodes) {expr : Expr Span} {node : Node}
    (stored : expr.StoredAs ast.symbols node) (span : Span) :
    (ast.push node span).2.Wrote texts (exprs ++ [expr]) (nodes ++ [node]) where
  arena := (Arena.push_holds wrote.arena node).2
  records few := by
    rw [List.length_append] at few
    have fewer := Nat.lt_of_succ_lt few
    exact (wrote.records fewer).push fewer node span
  texts := wrote.texts
  stored := List.rel_append wrote.stored (.cons stored .nil)

end Wrote

/-- The store was written by storing the expressions one after the other, each with its text. -/
def WroteAll (ast : Ast) (exprs : List (Expr Span)) : Prop :=
  ∃ nodes, ast.Wrote (exprs.filterMap Expr.text?) exprs nodes

namespace WroteAll

variable {ast : Ast} {exprs : List (Expr Span)} {expr : Expr Span}

/-- Nothing was written to the empty store. -/
theorem empty : Ast.empty.WroteAll [] :=
  ⟨[], Records.empty.arena, fun _ => .empty, rfl, .nil⟩

/-- A node without a text is written behind the others. -/
theorem push (wrote : ast.WroteAll exprs) {node : Node} (kind : node.kind = expr.kind)
    (plain : expr.text? = none) (span : Span) :
    (ast.push node span).2.WroteAll (exprs ++ [expr]) := by
  obtain ⟨nodes, wrote⟩ := wrote
  have stored : expr.StoredAs ast.symbols node := by
    refine ⟨kind, ?_⟩
    rw [plain]
    exact nofun
  rw [WroteAll, List.filterMap_append, List.filterMap_cons_none plain, List.filterMap_nil,
    List.append_nil]
  exact ⟨_, wrote.push stored span⟩

/-- A node with a text is written behind the others, once the text is interned. -/
theorem pushText (wrote : ast.WroteAll exprs) {text : String} {node : Symbol → Node}
    (kind : ∀ symbol, (node symbol).kind = expr.kind)
    (symbol : ∀ symbol, (node symbol).symbol? = some symbol) (named : expr.text? = some text)
    (span : Span) :
    ((ast.intern text).2.push (node (ast.intern text).1) span).2.WroteAll (exprs ++ [expr]) := by
  obtain ⟨nodes, wrote⟩ := wrote
  have stored : expr.StoredAs (ast.intern text).2.symbols (node (ast.intern text).1) := by
    refine ⟨kind _, fun other same => ?_⟩
    obtain rfl := Option.some.inj (named.symm.trans same)
    exact ⟨_, symbol _, Interner.find?_intern ast.symbols text⟩
  rw [WroteAll, List.filterMap_append, List.filterMap_cons_some named, List.filterMap_nil]
  exact ⟨_, (wrote.intern text).push stored span⟩

/-- Handles in lists do not matter. -/
theorem pushList (wrote : ast.WroteAll exprs) (handles : List Handle) :
    (ast.pushList handles).2.WroteAll exprs := by
  obtain ⟨nodes, wrote⟩ := wrote
  rw [pushList_lists]
  exact ⟨nodes, wrote.congr rfl rfl rfl rfl⟩

end WroteAll

mutual

/-- Storing a tree writes its nodes behind the others. -/
theorem insert_wroteAll {ast : Ast} {exprs : List (Expr Span)} (expr : Expr Span)
    (wrote : ast.WroteAll exprs) : (ast.insert expr).2.WroteAll (exprs ++ expr.nodes) := by
  match expr with
  | .bool span value => exact wrote.push rfl rfl span
  | .int span value => exact wrote.push rfl rfl span
  | .str span text => exact wrote.pushText (fun _ => rfl) (fun _ => rfl) rfl span
  | .identifier span name => exact wrote.pushText (fun _ => rfl) (fun _ => rfl) rfl span
  | .binary span op lhs rhs =>
    have below := insert_wroteAll rhs (insert_wroteAll lhs wrote)
    rw [Expr.nodes, ← List.append_assoc, ← List.append_assoc]
    exact below.push rfl rfl span
  | .unary span op operand =>
    have below := insert_wroteAll operand wrote
    rw [Expr.nodes, ← List.append_assoc]
    exact below.push rfl rfl span
  | .index span target position =>
    have below := insert_wroteAll position (insert_wroteAll target wrote)
    rw [Expr.nodes, ← List.append_assoc, ← List.append_assoc]
    exact below.push rfl rfl span
  | .call span callee arguments =>
    have below := insertAll_wroteAll arguments (insert_wroteAll callee wrote)
    rw [Expr.nodes, ← List.append_assoc, ← List.append_assoc]
    exact (below.pushList _).push rfl rfl span
  | .primitive span access target =>
    have below := insert_wroteAll target wrote
    rw [Expr.nodes, ← List.append_assoc]
    exact below.push rfl rfl span
  | .field span target name =>
    have below := insert_wroteAll target wrote
    rw [Expr.nodes, ← List.append_assoc]
    exact below.pushText (fun _ => rfl) (fun _ => rfl) rfl span

/-- Storing trees writes the nodes of each behind those before it. -/
theorem insertAll_wroteAll {ast : Ast} {before : List (Expr Span)} (exprs : List (Expr Span))
    (wrote : ast.WroteAll before) :
    (ast.insertAll exprs).2.WroteAll (before ++ nodesAll exprs) := by
  match exprs with
  | [] => rwa [nodesAll, List.append_nil]
  | expr :: exprs =>
    have others := insertAll_wroteAll exprs (insert_wroteAll expr wrote)
    rw [nodesAll, ← List.append_assoc]
    exact others

end

/-- Storing roots writes the nodes of each behind those before it. -/
theorem insertRoots_wroteAll {ast : Ast} {before : List (Expr Span)} (exprs : List (Expr Span))
    (wrote : ast.WroteAll before) :
    (ast.insertRoots exprs).WroteAll (before ++ nodesAll exprs) := by
  induction exprs generalizing ast before with
  | nil => rwa [nodesAll, List.append_nil]
  | cons expr exprs ih =>
    obtain ⟨nodes, first⟩ := insert_wroteAll expr wrote
    have rooted : ((ast.insert expr).2.pushRoot (ast.insert expr).1).WroteAll
        (before ++ expr.nodes) := ⟨nodes, first.congr rfl rfl rfl rfl⟩
    rw [nodesAll, ← List.append_assoc]
    exact ih rooted

end Ast

/-- The node is stored with the span for the token: for a string or a name that it is, or for a
field that it names behind a dot. Its symbol is the one of the text of the token, the place of the
text in the table. -/
structure Token.StoredAs (token : Token) (tokens : List Token) (symbols : Interner) (node : Node)
    (span : Span) : Prop where
  /-- The token is the node or names it. -/
  origin : (token.kind = .string ∧ node.kind = .str ∧ span = token.span) ∨
    (token.kind = .identifier ∧ node.kind = .identifier ∧ span = token.span) ∨
    (token.kind = .identifier ∧ node.kind = .field ∧ ∃ dot, [dot, token] <:+: tokens ∧
      dot.kind = .mark .dot ∧ span = selectorSpan dot token)
  /-- The symbol is found under the text of the token. -/
  found : node.symbol? = symbols.find? token.text
  /-- The symbol is the place of the text. -/
  symbol : node.symbol? = some (.ofIndex (symbols.texts.toList.idxOf token.text))

/-- A token that labels an expression is stored as the node that is stored for the expression. -/
theorem Token.Labels.storedAs {token : Token} {tokens : List Token} {symbols : Interner}
    {expr : Expr Span} {node : Node} (labels : token.Labels tokens expr)
    (stored : expr.StoredAs symbols node) : token.StoredAs tokens symbols node expr.note where
  origin := by
    rw [stored.kind]
    cases labels with
    | identifier name => exact .inr (.inl ⟨name, rfl, rfl⟩)
    | string string => exact .inl ⟨string, rfl, rfl⟩
    | field name neighbours dotted =>
      exact .inr (.inr ⟨name, rfl, _, neighbours, dotted, rfl⟩)
  found := by
    obtain ⟨symbol, given, found⟩ := stored.symbol _ labels.text?
    rw [given, found]
  symbol := by
    obtain ⟨symbol, given, found⟩ := stored.symbol _ labels.text?
    rw [given, Interner.symbol_of_find? found]

/-- Tokens that label expressions are stored as the nodes that are stored for these. -/
theorem Token.storedAs_of_labels {tokens texts : List Token} {symbols : Interner}
    {named : List (Expr Span)} {written : List (Node × Span)}
    (labels : List.Forall₂ (Token.Labels tokens) texts named)
    (stored : List.Forall₂ (fun expr (pair : Node × Span) =>
      expr.StoredAs symbols pair.1 ∧ pair.2 = expr.note) named written) :
    List.Forall₂ (fun token (pair : Node × Span) => token.StoredAs tokens symbols pair.1 pair.2)
      texts written := by
  induction labels generalizing written with
  | nil =>
    cases stored
    exact .nil
  | cons first _ ih =>
    obtain ⟨⟨node, span⟩, others, ⟨head, rfl⟩, tail, rfl⟩ := List.forall₂_cons_left_iff.mp stored
    exact .cons (first.storedAs head) (ih tail)

/-- Nodes with texts are stored for expressions with texts. -/
theorem Expr.filter_storedAs {symbols : Interner} {exprs : List (Expr Span)} {nodes : List Node}
    (stored : List.Forall₂ (Expr.StoredAs symbols) exprs nodes) :
    List.Forall₂ (fun expr (pair : Node × Span) =>
        expr.StoredAs symbols pair.1 ∧ pair.2 = expr.note)
      (exprs.filter fun expr => expr.kind.isText)
      ((nodes.zip (exprs.map Expr.note)).filter fun pair => pair.1.kind.isText) := by
  induction stored with
  | nil => exact .nil
  | @cons expr node exprs nodes first _ ih =>
    rw [List.map_cons, List.zip_cons_cons, List.filter_cons, List.filter_cons, first.kind]
    split
    · exact .cons ⟨first, rfl⟩ ih
    · exact ih

/-- Two nodes have one symbol exactly if their tokens have one text, as long as there is a symbol
for every text. -/
theorem Token.StoredAs.symbol_eq_iff {one other : Token} {tokens : List Token} {symbols : Interner}
    {node node' : Node} {span span' : Span} (stored : one.StoredAs tokens symbols node span)
    (stored' : other.StoredAs tokens symbols node' span')
    (first : one.text ∈ symbols.texts.toList) (second : other.text ∈ symbols.texts.toList)
    (few : symbols.size ≤ Symbol.limit) :
    node.symbol? = node'.symbol? ↔ one.text = other.text := by
  have below {text : String} (known : text ∈ symbols.texts.toList) :
      symbols.texts.toList.idxOf text < Symbol.limit :=
    Nat.lt_of_lt_of_le (List.idxOf_lt_length_of_mem known) few
  rw [stored.symbol, stored'.symbol, Option.some.injEq]
  constructor
  · intro same
    have places := congrArg Symbol.index same
    rw [Symbol.index_ofIndex (below first), Symbol.index_ofIndex (below second)] at places
    exact (List.idxOf_inj first).mp places
  · intro same
    rw [same]

namespace Source

/-- The store of a source was written by storing its nodes. -/
theorem ast_wroteAll (source : Source) (limit : Nat) :
    (source.ast limit).WroteAll (source.nodes limit) := by
  have ast : source.ast limit = _ := Session.program_ast _
  have roots := Ast.insertRoots_wroteAll (source.outcome limit).roots .empty
  have whole := Ast.insertAll_wroteAll (source.outcome limit).completed roots
  rw [List.nil_append, ← Expr.nodesAll_append] at whole
  rw [ast]
  exact whole

/-- Where the bytes of a source are numbered in 32 bits there is a symbol for every text of its
tokens. -/
theorem few_texts {source : Source} (small : source.content.utf8ByteSize < 2 ^ 32)
    {consumed ahead : List Token} (tokens : source.tokenStream.tokens = consumed ++ ahead) :
    ((consumed.filter Token.isText).map Token.text).eraseDups.length ≤ Symbol.limit := by
  have distinct := length_eraseDups_le ((consumed.filter Token.isText).map Token.text)
  rw [List.length_map] at distinct
  have fewer := List.length_filter_le Token.isText consumed
  have all := source.tokens_length
  rw [tokens, List.length_append] at all
  have limit : Symbol.limit = 2 ^ 32 - 1 := rfl
  omega

end Source

/-- Symbols number the texts of names and strings as they first occur in what is used up of a
source, whether the parse succeeds or not. The machine stands where the session does, and the table
has the distinct texts of the names and strings used up, in the order of their first occurrence. The
nodes with texts are stored one for each of these tokens, in their order, each with the symbol of
the text of its token. So two of them have one symbol exactly if their texts are equal, as long as
there is a symbol for every text, which is so where the bytes of the source are numbered in 32 bits;
then the handles give these nodes. -/
theorem symbols_number_first_occurrences (source : Source) (limit : Nat) :
    ∃ consumed nodes machine,
      ((Machine.program ()).run (.start source limit)).run =
        some (.ok ((Session.start source limit).program.1, machine)) ∧
      machine.session = (Session.start source limit).program.2 ∧
      source.tokenStream.tokens = consumed ++ (Session.start source limit).program.2.ahead ∧
      (source.ast limit).arena.Holds nodes ∧
      let texts := consumed.filter Token.isText
      let symbols := (source.ast limit).symbols
      let written := (nodes.zip (source.ast limit).spans.toList).filter fun pair =>
        pair.1.kind.isText
      nodes.length = (source.ast limit).spans.size ∧
      symbols.texts.toList = (texts.map Token.text).eraseDups ∧
      List.Forall₂ (fun token (pair : Node × Span) =>
        token.StoredAs source.tokenStream.tokens symbols pair.1 pair.2) texts written ∧
      (symbols.size ≤ Symbol.limit → ∀ one ∈ texts.zip written, ∀ other ∈ texts.zip written,
        (one.2.1.symbol? = other.2.1.symbol? ↔ one.1.text = other.1.text)) ∧
      (source.content.utf8ByteSize < 2 ^ 32 → symbols.size ≤ Symbol.limit ∧
        ∀ handle place, (source.ast limit).ordinals[handle]? = some place →
          ∃ node, nodes[place]? = some node ∧ (source.ast limit).get handle = .ok node) := by
  obtain ⟨consumed, tokens, labels⟩ := source.labels limit
  obtain ⟨nodes, wrote⟩ := source.ast_wroteAll limit
  obtain ⟨machine, ran, stands, _⟩ := Machine.does_program (Session.start source limit) _
    (Machine.start_session source limit) (Machine.start_depth source limit)
  have texts := wrote.texts
  rw [← Expr.filterMap_text?, Token.texts_of_labels labels] at texts
  have stored := Token.storedAs_of_labels labels (Expr.filter_storedAs wrote.stored)
  rw [← source.ast_spans] at stored
  have length : nodes.length = (source.ast limit).spans.size := by
    rw [← wrote.stored.length_eq, ← Array.length_toList, source.ast_spans, List.length_map]
  refine ⟨consumed, nodes, machine, ran, stands, tokens, wrote.arena, length, texts, stored,
    fun few one first other second => ?_, fun small => ⟨?_, ?_⟩⟩
  · have known {token : Token} (among : token ∈ consumed.filter Token.isText) :
        token.text ∈ (source.ast limit).symbols.texts.toList := by
      rw [texts, List.mem_eraseDups]
      exact List.mem_map_of_mem among
    exact (List.forall₂_zip stored first).symbol_eq_iff (List.forall₂_zip stored second)
      (known (List.of_mem_zip first).1) (known (List.of_mem_zip second).1) few
  · have few := Source.few_texts small tokens
    rw [← texts] at few
    exact few
  · intro handle place there
    have fits : nodes.length < 2 ^ 32 := by
      rw [← wrote.arena.length]
      exact (source.nodeCount limit small).trans_lt (source.size_lt limit small)
    have records := wrote.records fits
    obtain ⟨node, found, rfl⟩ := (records.ordinals handle place).mp there
    obtain ⟨inside, _⟩ := List.getElem?_eq_some_iff.mp found
    exact ⟨node, found, records.get (Nat.lt_trans inside fits) found⟩

/-- An index that nothing closes is an error, and yet its texts and those of the call before it are
numbered. The string has the text of the name before it and the field that of the callee, so there
are three texts for five tokens. -/
theorem symbols_of_open_index :
    (Session.start ⟨0, "open.sb", "f(x, \"x\").f[y"⟩ 8).program.1 =
      .error (.unclosedDelimiter ⟨1, 12⟩ "[") ∧
    ((⟨0, "open.sb", "f(x, \"x\").f[y"⟩ : Source).ast 8).symbols.texts.toList = ["f", "x", "y"] ∧
    ((⟨0, "open.sb", "f(x, \"x\").f[y"⟩ : Source).ast 8).symbols.size ≤ Symbol.limit := by
  obtain ⟨consumed, _, _, _, _, tokens, _, _, texts, _, _, sized⟩ :=
    symbols_number_first_occurrences ⟨0, "open.sb", "f(x, \"x\").f[y"⟩ 8
  have ahead : (Session.start ⟨0, "open.sb", "f(x, \"x\").f[y"⟩ 8).program.2.ahead = [] := by
    decide +kernel
  rw [ahead, List.append_nil] at tokens
  rw [← tokens] at texts
  have small : "f(x, \"x\").f[y".utf8ByteSize < 2 ^ 32 := by decide
  refine ⟨by decide +kernel, texts.trans (by decide +kernel), (sized small).1⟩

end Cascade
