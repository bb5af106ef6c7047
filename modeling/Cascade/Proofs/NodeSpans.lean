import Cascade.Proofs.Lookahead
import Cascade.Proofs.MachineRuns
import Cascade.Proofs.ParserCalls
import Cascade.Proofs.SpannedText

/-!
# Nodes and the tokens that introduce them

A leaf is introduced by its token, an operation by its operator and an index or a call by its opening
bracket. The span of such a node is that of its token. A selection is introduced by two tokens, a dot
and a selector, and its span is as long as both together, whatever stands between them: it covers
both exactly if nothing does. From left to right the nodes start at tokens of their own.
-/
namespace Cascade

namespace Expr

variable {α : Type}

mutual

/-- The nodes of a tree, each with what is below it and behind that. -/
def nodes : Expr α → List (Expr α)
  | .bool note value => [.bool note value]
  | .int note value => [.int note value]
  | .str note text => [.str note text]
  | .identifier note name => [.identifier note name]
  | .binary note op lhs rhs => lhs.nodes ++ (rhs.nodes ++ [.binary note op lhs rhs])
  | .unary note op operand => operand.nodes ++ [.unary note op operand]
  | .index note target position =>
    target.nodes ++ (position.nodes ++ [.index note target position])
  | .call note callee arguments =>
    callee.nodes ++ (nodesAll arguments ++ [.call note callee arguments])
  | .primitive note access target => target.nodes ++ [.primitive note access target]
  | .field note target name => target.nodes ++ [.field note target name]

/-- The nodes of trees, one tree after the other. -/
def nodesAll : List (Expr α) → List (Expr α)
  | [] => []
  | expr :: exprs => expr.nodes ++ nodesAll exprs

end

/-- The nodes of a tree are those below it and its own. -/
theorem nodes_children (expr : Expr α) : expr.nodes = nodesAll expr.children ++ [expr] := by
  cases expr <;> simp [nodes, nodesAll, children]

/-- The nodes of trees are those of each. -/
theorem mem_nodesAll {node : Expr α} {exprs : List (Expr α)} :
    node ∈ nodesAll exprs ↔ ∃ expr ∈ exprs, node ∈ expr.nodes := by
  induction exprs with
  | nil => simp [nodesAll]
  | cons expr exprs ih => simp [nodesAll, ih]

/-- The nodes of trees and of others behind them. -/
theorem nodesAll_append (exprs others : List (Expr α)) :
    nodesAll (exprs ++ others) = nodesAll exprs ++ nodesAll others := by
  induction exprs with
  | nil => rfl
  | cons expr exprs ih => rw [List.cons_append, nodesAll, nodesAll, ih, List.append_assoc]

mutual

/-- Where the nodes of a tree start, in the order in which they are written. -/
def starts : Expr Span → List Position
  | .bool span _ | .int span _ | .str span _ | .identifier span _ => [span.start]
  | .binary span _ lhs rhs => lhs.starts ++ span.start :: rhs.starts
  | .unary span _ operand => span.start :: operand.starts
  | .index span target position => target.starts ++ span.start :: position.starts
  | .call span callee arguments => callee.starts ++ span.start :: startsAll arguments
  | .primitive span _ target | .field span target _ => target.starts ++ [span.start]

/-- Where the nodes of trees start, one tree after the other. -/
def startsAll : List (Expr Span) → List Position
  | [] => []
  | expr :: exprs => expr.starts ++ startsAll exprs

end

/-- A single tree starts where it does alone. -/
@[simp]
theorem startsAll_singleton (expr : Expr Span) : startsAll [expr] = expr.starts :=
  List.append_nil _

end Expr

/-- The token introduces the node: it is the leaf, the operator or the opening bracket of the node,
which has its span. -/
inductive Token.Introduces (token : Token) : Expr Span → Prop where
  /-- A leaf is introduced by the token that it is. -/
  | leaf {expr : Expr Span} : token.leaf? = some expr → token.Introduces expr
  /-- An operator introduces the operation. -/
  | binary {op : BinaryOp} {lhs rhs : Expr Span} : token.kind.binaryOp? = some op →
    token.Introduces (.binary token.span op lhs rhs)
  /-- An operator before its operand introduces the operation. -/
  | unary {op : UnaryOp} {operand : Expr Span} : token.kind.unaryOp? = some op →
    token.Introduces (.unary token.span op operand)
  /-- A bracket introduces an index. -/
  | index {target position : Expr Span} : token.kind = .mark .openBracket →
    token.Introduces (.index token.span target position)
  /-- A parenthesis introduces a call. -/
  | call {callee : Expr Span} {arguments : List (Expr Span)} : token.kind = .mark .openParen →
    token.Introduces (.call token.span callee arguments)

/-- A leaf has the span of its token. -/
theorem leaf?_note {token : Token} {expr : Expr Span} (alone : token.leaf? = some expr) :
    expr.note = token.span ∧ expr.nodes = [expr] ∧ expr.starts = [token.start] := by
  unfold Token.leaf? at alone
  split at alone
  · cases alone; exact ⟨rfl, rfl, rfl⟩
  · cases alone; exact ⟨rfl, rfl, rfl⟩
  · cases alone; exact ⟨rfl, rfl, rfl⟩
  · cases alone; exact ⟨rfl, rfl, rfl⟩
  · obtain ⟨value, _, rfl⟩ := Option.map_eq_some_iff.mp alone
    exact ⟨rfl, rfl, rfl⟩
  · cases alone

/-- A node that a token introduces has the span of the token. -/
theorem Token.Introduces.note {token : Token} {node : Expr Span}
    (introduces : token.Introduces node) : node.note = token.span := by
  cases introduces with
  | leaf alone => exact (leaf?_note alone).1
  | binary | unary | index | call => rfl

namespace Expr

/-- The node is introduced by one of the tokens, or by a dot and the selector behind it. -/
inductive IntroducedBy (tokens : List Token) : Expr Span → Prop where
  /-- One token introduces the node. -/
  | token {token : Token} {node : Expr Span} : token ∈ tokens → token.Introduces node →
    IntroducedBy tokens node
  /-- A dot and the selector behind it introduce the node. -/
  | selector {target : Expr Span} {dot token : Token} {selector : Selector} :
    [dot, token] <:+: tokens → dot.kind = .mark .dot → acceptSelector token.kind = some selector →
    IntroducedBy tokens (selected target dot token selector)

/-- Every node of the tree is introduced by the tokens. -/
def Introduced (tokens : List Token) (expr : Expr Span) : Prop :=
  ∀ node ∈ expr.nodes, node.IntroducedBy tokens

/-- The nodes of a tree are introduced if its own is and those below it are. -/
theorem introduced_children {tokens : List Token} {expr : Expr Span} :
    expr.Introduced tokens ↔
      (∀ child ∈ expr.children, child.Introduced tokens) ∧ expr.IntroducedBy tokens := by
  have below : (∀ node ∈ nodesAll expr.children, node.IntroducedBy tokens) ↔
      ∀ child ∈ expr.children, child.Introduced tokens := by
    constructor
    · intro each child member node inside
      exact each node (mem_nodesAll.mpr ⟨child, member, inside⟩)
    · intro each node inside
      obtain ⟨child, member, inside⟩ := mem_nodesAll.mp inside
      exact each child member node inside
  rw [Introduced, nodes_children, List.forall_mem_append, below, List.forall_mem_singleton]

end Expr

/-- The trees that the goal carries along. -/
def Goal.carried : Goal → List (Expr Span)
  | .run _ lhs => [lhs]
  | .chain target | .link target => [target]
  | _ => []

section

variable {context : ParseContext} {goal : Goal} {room : Nat} {tokens rest all : List Token}
  {values completed : List (Expr Span)} {failure : Failure}

/-- Behind what was given, places among those of tokens follow that of the token before them. -/
theorem sublist_behind (given : List Position) {here : Position}
    {found behind places : List Position} (inside : (found ++ behind).Sublist places) :
    (given ++ here :: found ++ behind).Sublist (given ++ here :: places) := by
  rw [List.append_assoc, List.cons_append]
  exact (inside.cons_cons here).append_left given

/-- A token between what was found and what is behind may be left out. -/
theorem sublist_before {here : Position} {found behind places : List Position}
    (inside : (found ++ here :: behind).Sublist places) : (found ++ behind).Sublist places :=
  ((List.sublist_cons_self here behind).append_left found).trans inside

/-- Trees start behind a tree if they start among the tokens behind it. -/
theorem sublist_then {expr : Expr Span} {exprs : List (Expr Span)} {behind middle places :
    List Position} (first : (Expr.startsAll [expr] ++ middle).Sublist places)
    (later : (Expr.startsAll exprs ++ behind).Sublist middle) :
    (Expr.startsAll (expr :: exprs) ++ behind).Sublist places := by
  rw [Expr.startsAll_singleton] at first
  rw [Expr.startsAll, List.append_assoc]
  exact (later.append_left expr.starts).trans first

/-- A selection is a node above its target. -/
theorem selected_children (target : Expr Span) (dot token : Token) (selector : Selector) :
    (selected target dot token selector).children = [target] := by
  cases selector <;> rfl

/-- A selection starts at its dot, behind its target. -/
theorem selected_starts (target : Expr Span) (dot token : Token) (selector : Selector) :
    (selected target dot token selector).starts = target.starts ++ [dot.start] := by
  cases selector <;> rfl

/-- The nodes of what is parsed are introduced by the tokens, if those of what was given are. -/
theorem Succeeds.introduced (succeeds : Succeeds goal room tokens values rest)
    (inside : tokens <:+ all) (given : ∀ expr ∈ goal.carried, expr.Introduced all) :
    ∀ value ∈ values, value.Introduced all := by
  induction succeeds with
  | expression _ ih => exact ih inside given
  | primary parsed _ first chain =>
    have target := first inside given
    exact chain (parsed.usesUp.suffix.trans inside) target
  | @unary room token op tokens rest operand found parsed ih =>
    have behind : tokens <:+ all := (List.suffix_cons token tokens).trans inside
    have below := ih behind given
    have here : token ∈ all := inside.subset List.mem_cons_self
    rw [List.forall_mem_singleton, Expr.introduced_children]
    exact ⟨below, .token here (.unary found)⟩
  | descend _ _ parsed _ first run =>
    have lhs := first inside given
    exact run (parsed.usesUp.suffix.trans inside) lhs
  | run_end _ => exact given
  | @operator room token op tokens middle rest lhs rhs expr found parsed _ operand run =>
    have behind : tokens <:+ all := (List.suffix_cons token tokens).trans inside
    have left := given lhs (.head _)
    have right := operand behind (List.forall_mem_nil _) rhs (.head _)
    have here : token ∈ all := inside.subset List.mem_cons_self
    refine run (parsed.usesUp.suffix.trans behind) ?_
    refine List.forall_mem_singleton.mpr (Expr.introduced_children.mpr ⟨?_, ?_⟩)
    · exact List.forall_mem_cons.mpr ⟨left, List.forall_mem_singleton.mpr right⟩
    · exact .token here (.binary found)
  | chain_end _ => exact given
  | chain_link linked _ link chain =>
    have next := link inside given
    exact chain (linked.usesUp.suffix.trans inside) next
  | @index target position room opener closer tokens rest opens closes _ ih =>
    have behind : tokens <:+ all := (List.suffix_cons opener tokens).trans inside
    have outer := given target (.head _)
    have inner := ih behind (List.forall_mem_nil _)
    have here : opener ∈ all := inside.subset List.mem_cons_self
    refine List.forall_mem_singleton.mpr (Expr.introduced_children.mpr ⟨?_, ?_⟩)
    · exact List.forall_mem_cons.mpr ⟨outer, inner⟩
    · exact .token here (.index opens)
  | @call_empty target room opener closer rest opens closes =>
    have here : opener ∈ all := inside.subset List.mem_cons_self
    exact List.forall_mem_singleton.mpr
      (Expr.introduced_children.mpr ⟨given, .token here (.call opens)⟩)
  | @call target arguments room opener closer tokens rest opens closes _ _ ih =>
    have behind : tokens <:+ all := (List.suffix_cons opener tokens).trans inside
    have callee := given target (.head _)
    have others := ih behind (List.forall_mem_nil _)
    have here : opener ∈ all := inside.subset List.mem_cons_self
    refine List.forall_mem_singleton.mpr (Expr.introduced_children.mpr ⟨?_, ?_⟩)
    · exact List.forall_mem_cons.mpr ⟨callee, others⟩
    · exact .token here (.call opens)
  | @selector target selector room dot token rest dotted accepted =>
    have neighbours : [dot, token] <:+: all :=
      List.IsInfix.trans ⟨[], rest, rfl⟩ inside.isInfix
    refine List.forall_mem_singleton.mpr (Expr.introduced_children.mpr ⟨?_, ?_⟩)
    · rw [selected_children]
      exact given
    · exact .selector neighbours dotted accepted
  | last_argument _ _ ih => exact ih inside given
  | @argument argument arguments room comma tokens middle rest parsed _ _ first others =>
    have behind : middle <:+ all :=
      (List.suffix_cons comma middle).trans (parsed.usesUp.suffix.trans inside)
    have argument := first inside given argument (.head _)
    exact List.forall_mem_cons.mpr ⟨argument, others behind given⟩
  | @leaf expr room token rest alone =>
    have here : token ∈ all := inside.subset List.mem_cons_self
    have single : expr.nodes = [expr] := (leaf?_note alone).2.1
    rw [List.forall_mem_singleton, Expr.Introduced, single, List.forall_mem_singleton]
    exact .token here (.leaf alone)
  | @group expr room opener closer tokens rest opens closes _ ih =>
    exact ih ((List.suffix_cons opener tokens).trans inside) given

/-- So are the nodes of what a failed parse hands out. -/
theorem Fails.introduced (fails : Fails context goal room tokens failure rest completed)
    (inside : tokens <:+ all) (given : ∀ expr ∈ goal.carried, expr.Introduced all) :
    ∀ value ∈ completed, value.Introduced all := by
  induction fails with
  | too_deep | unary_too_deep | no_primary | too_large => exact List.forall_mem_nil _
  | expression _ ih | primary _ ih | descend _ _ _ ih | link _ ih | argument _ ih =>
    exact ih inside given
  | chain parsed _ ih | run _ _ parsed _ ih | chain_link parsed _ ih =>
    exact ih (parsed.usesUp.suffix.trans inside) (parsed.introduced inside given)
  | unary _ _ ih | group _ _ ih =>
    exact ih ((List.suffix_cons _ _).trans inside) (List.forall_mem_nil _)
  | operand _ _ ih | index _ _ ih | call _ _ _ ih =>
    have behind := ih ((List.suffix_cons _ _).trans inside) (List.forall_mem_nil _)
    exact List.forall_mem_cons.mpr ⟨given _ (.head _), behind⟩
  | operator found parsed _ ih =>
    have behind := (List.suffix_cons _ _).trans inside
    have right := parsed.introduced behind (List.forall_mem_nil _)
    refine ih (parsed.usesUp.suffix.trans behind) (List.forall_mem_singleton.mpr ?_)
    refine Expr.introduced_children.mpr ⟨?_, .token (inside.subset List.mem_cons_self)
      (.binary found)⟩
    exact List.forall_mem_cons.mpr ⟨given _ (.head _), right⟩
  | unclosed_index _ parsed _ | unclosed_call _ _ parsed _ =>
    have behind := parsed.introduced ((List.suffix_cons _ _).trans inside) (List.forall_mem_nil _)
    exact List.forall_mem_cons.mpr ⟨given _ (.head _), behind⟩
  | unclosed_group _ parsed _ =>
    exact parsed.introduced ((List.suffix_cons _ _).trans inside) (List.forall_mem_nil _)
  | selector => exact given
  | later_argument parsed _ _ ih =>
    have first := parsed.introduced inside (List.forall_mem_nil _)
    have behind := (List.suffix_cons _ _).trans (parsed.usesUp.suffix.trans inside)
    exact List.forall_mem_cons.mpr ⟨first _ (.head _), ih behind (List.forall_mem_nil _)⟩

/-- What is parsed starts at tokens that it uses up, in their order and behind what was given. -/
theorem Succeeds.starts (succeeds : Succeeds goal room tokens values rest) :
    (Expr.startsAll values ++ rest.map Token.start).Sublist
      (Expr.startsAll goal.carried ++ tokens.map Token.start) := by
  induction succeeds with
  | expression _ ih => exact ih
  | primary _ _ first chain => exact chain.trans first
  | unary _ _ ih =>
    simp only [Goal.carried, Expr.startsAll_singleton, Expr.starts] at ih ⊢
    exact sublist_behind [] ih
  | descend _ _ _ _ first run => exact run.trans first
  | run_end _ => exact .refl _
  | operator _ _ _ operand run =>
    refine run.trans ?_
    simp only [Goal.carried, Expr.startsAll_singleton, Expr.starts] at operand ⊢
    exact sublist_behind _ operand
  | chain_end _ => exact .refl _
  | chain_link _ _ link chain => exact chain.trans link
  | index _ _ _ ih =>
    simp only [Goal.carried, Expr.startsAll_singleton, Expr.starts] at ih ⊢
    exact sublist_behind _ (sublist_before ih)
  | @call_empty target room opener closer rest _ _ =>
    have inside : ([] ++ rest.map Token.start).Sublist ((closer :: rest).map Token.start) :=
      List.sublist_cons_self _ _
    simp only [Goal.carried, Expr.startsAll_singleton, Expr.starts]
    exact sublist_behind _ inside
  | call _ _ _ _ ih =>
    simp only [Goal.carried, Expr.startsAll_singleton, Expr.starts]
    exact sublist_behind _ (sublist_before ih)
  | @selector target selector room dot token rest _ _ =>
    have inside : ([] ++ rest.map Token.start).Sublist ((token :: rest).map Token.start) :=
      List.sublist_cons_self _ _
    simp only [Goal.carried, Expr.startsAll_singleton, selected_starts]
    exact sublist_behind _ inside
  | last_argument _ _ ih => exact ih
  | argument _ _ _ first others => exact sublist_then (sublist_before first) others
  | leaf alone =>
    rw [Expr.startsAll_singleton, (leaf?_note alone).2.2]
    exact .refl _
  | @group expr room opener closer tokens rest _ _ _ ih =>
    exact (sublist_before ih).cons opener.start

/-- What a failed parse hands out starts so as well. -/
theorem Fails.starts (fails : Fails context goal room tokens failure rest completed) :
    (Expr.startsAll completed ++ rest.map Token.start).Sublist
      (Expr.startsAll goal.carried ++ tokens.map Token.start) := by
  induction fails with
  | too_deep | no_primary => exact .refl _
  | unary_too_deep | too_large => exact List.sublist_cons_self _ _
  | expression _ ih | primary _ ih | descend _ _ _ ih | link _ ih | argument _ ih => exact ih
  | chain parsed _ ih | run _ _ parsed _ ih | chain_link parsed _ ih =>
    exact ih.trans parsed.starts
  | unary _ _ ih | group _ _ ih => exact ih.cons _
  | operand _ _ ih | index _ _ ih | call _ _ _ ih =>
    exact sublist_then (.refl _) (ih.cons _)
  | operator _ parsed _ ih =>
    have operand := parsed.starts
    refine ih.trans ?_
    simp only [Goal.carried, Expr.startsAll_singleton, Expr.starts] at operand ⊢
    exact sublist_behind _ operand
  | unclosed_index _ parsed _ | unclosed_call _ _ parsed _ =>
    exact sublist_then (.refl _) (parsed.starts.cons _)
  | unclosed_group _ parsed _ => exact parsed.starts.cons _
  | selector => exact (List.sublist_cons_self _ _).append_left _
  | later_argument parsed _ _ ih => exact sublist_then (sublist_before parsed.starts) ih

end

/-- The nodes of the trees of a program are introduced by its tokens. -/
theorem parseProgram_introduced (context : ParseContext) {tokens all : List Token}
    (inside : tokens <:+ all) :
    ∀ expr ∈ (parseProgram context tokens).roots ++ (parseProgram context tokens).completed,
      expr.Introduced all := by
  induction tokens using program_induction context with
  | ended =>
    rw [parseProgram]
    exact List.forall_mem_nil _
  | failed tokens failure rest completed some fails =>
    rw [parseProgram_failed some fails]
    exact fails.introduced inside (List.forall_mem_nil _)
  | done tokens root rest succeeds ih =>
    have first := succeeds.introduced inside (List.forall_mem_nil _) root (.head _)
    have others := ih (succeeds.usesUp.suffix.trans inside)
    rw [parseProgram_done succeeds]
    exact List.forall_mem_cons.mpr ⟨first, others⟩

/-- The nodes of the trees of a program start at its tokens, in their order. -/
theorem parseProgram_starts (context : ParseContext) (tokens : List Token) :
    (Expr.startsAll ((parseProgram context tokens).roots ++
        (parseProgram context tokens).completed) ++
      (parseProgram context tokens).rest.map Token.start).Sublist (tokens.map Token.start) := by
  induction tokens using program_induction context with
  | ended =>
    rw [parseProgram]
    exact .refl _
  | failed tokens failure rest completed some fails =>
    rw [parseProgram_failed some fails]
    exact fails.starts
  | done tokens root rest succeeds ih =>
    rw [parseProgram_done succeeds]
    exact sublist_then succeeds.starts ih

namespace Ast

open Cascade.Expr (nodesAll)

/-- A stored tree has the span of its own node under its handle. -/
theorem Stored.span? {ast : Ast} {handle : Handle} {start : Nat} {expr : Expr Span}
    (stored : ast.Stored handle start expr) : ast.span? handle = some expr.note := by
  cases expr with
  | bool span value =>
    have placed : ast.At handle (.bool value) span start := stored
    exact placed.span?
  | int span value =>
    have placed : ast.At handle (.int value) span start := stored
    exact placed.span?
  | str span text =>
    obtain ⟨symbol, _, placed⟩ := stored
    exact placed.span?
  | identifier span name =>
    obtain ⟨symbol, _, placed⟩ := stored
    exact placed.span?
  | binary span op lhs rhs =>
    obtain ⟨left, right, _, _, placed⟩ := stored
    exact placed.span?
  | unary span op operand =>
    obtain ⟨inner, _, placed⟩ := stored
    exact placed.span?
  | index span target position =>
    obtain ⟨outer, inner, _, _, placed⟩ := stored
    exact placed.span?
  | call span callee arguments =>
    obtain ⟨called, handles, range, _, _, _, placed⟩ := stored
    exact placed.span?
  | primitive span access target =>
    obtain ⟨inner, _, placed⟩ := stored
    exact placed.span?
  | field span target name =>
    obtain ⟨inner, symbol, _, _, placed⟩ := stored
    exact placed.span?

mutual

/-- Inserting a tree appends the spans of its nodes. -/
theorem insert_spans (ast : Ast) (expr : Expr Span) :
    (ast.insert expr).2.spans.toList = ast.spans.toList ++ expr.nodes.map Expr.note := by
  match expr with
  | .bool .. | .int .. | .str .. | .identifier .. => exact Array.toList_push ..
  | .binary span op lhs rhs =>
    have pushed : (ast.insert (.binary span op lhs rhs)).2.spans =
      ((ast.insert lhs).2.insert rhs).2.spans.push span := rfl
    rw [pushed, Array.toList_push, insert_spans _ rhs, insert_spans ast lhs]
    simp [Expr.nodes, Expr.note]
  | .unary span op operand =>
    have pushed : (ast.insert (.unary span op operand)).2.spans =
      (ast.insert operand).2.spans.push span := rfl
    rw [pushed, Array.toList_push, insert_spans ast operand]
    simp [Expr.nodes, Expr.note]
  | .index span target position =>
    have pushed : (ast.insert (.index span target position)).2.spans =
      ((ast.insert target).2.insert position).2.spans.push span := rfl
    rw [pushed, Array.toList_push, insert_spans _ position, insert_spans ast target]
    simp [Expr.nodes, Expr.note]
  | .call span callee arguments =>
    have pushed : (ast.insert (.call span callee arguments)).2.spans =
      ((ast.insert callee).2.insertAll arguments).2.spans.push span :=
      congrArg (fun ast => ast.spans.push span)
        (pushList_lists ((ast.insert callee).2.insertAll arguments).2
          ((ast.insert callee).2.insertAll arguments).1)
    rw [pushed, Array.toList_push, insertAll_spans _ arguments, insert_spans ast callee]
    simp [Expr.nodes, Expr.note]
  | .primitive span access target =>
    have pushed : (ast.insert (.primitive span access target)).2.spans =
      (ast.insert target).2.spans.push span := rfl
    rw [pushed, Array.toList_push, insert_spans ast target]
    simp [Expr.nodes, Expr.note]
  | .field span target name =>
    have pushed : (ast.insert (.field span target name)).2.spans =
      (ast.insert target).2.spans.push span := rfl
    rw [pushed, Array.toList_push, insert_spans ast target]
    simp [Expr.nodes, Expr.note]

/-- Inserting trees appends the spans of their nodes. -/
theorem insertAll_spans (ast : Ast) (exprs : List (Expr Span)) :
    (ast.insertAll exprs).2.spans.toList =
      ast.spans.toList ++ (nodesAll exprs).map Expr.note := by
  match exprs with
  | [] => exact (List.append_nil _).symm
  | expr :: exprs =>
    have further : (ast.insertAll (expr :: exprs)).2 = ((ast.insert expr).2.insertAll exprs).2 :=
      rfl
    rw [further, insertAll_spans _ exprs, insert_spans ast expr, nodesAll, List.map_append,
      List.append_assoc]

end

/-- Inserting roots appends the spans of their nodes. -/
theorem insertRoots_spans (ast : Ast) (exprs : List (Expr Span)) :
    (ast.insertRoots exprs).spans.toList = ast.spans.toList ++ (nodesAll exprs).map Expr.note := by
  induction exprs generalizing ast with
  | nil => exact (List.append_nil _).symm
  | cons expr exprs ih =>
    have further := ih ((ast.insert expr).2.pushRoot (ast.insert expr).1)
    have rooted : ((ast.insert expr).2.pushRoot (ast.insert expr).1).spans =
      (ast.insert expr).2.spans := rfl
    rw [rooted, insert_spans] at further
    rw [nodesAll, List.map_append, ← List.append_assoc]
    exact further

end Ast

namespace Source

open Cascade.Expr (nodesAll startsAll)

/-- The trees that parsing a source leaves behind: the roots, and behind them what else was complete
where the parse stopped. -/
def trees (source : Source) (limit : Nat) : List (Expr Span) :=
  (source.outcome limit).roots ++ (source.outcome limit).completed

/-- The nodes that parsing a source leaves behind, in the order in which they are stored. -/
def nodes (source : Source) (limit : Nat) : List (Expr Span) := nodesAll (source.trees limit)

/-- The store of a source has the spans of its nodes. -/
theorem ast_spans (source : Source) (limit : Nat) :
    (source.ast limit).spans.toList = (source.nodes limit).map Expr.note := by
  have ast : source.ast limit = _ := Session.program_ast _
  rw [ast, Ast.insertAll_spans, Ast.insertRoots_spans, nodes, trees, Expr.nodesAll_append,
    List.map_append]
  exact List.nil_append _

/-- Every handle that parsing a source gave out is that of a node, and the tree at it is read with
the spans of the node and of what is below it. -/
theorem handle_shows (source : Source) (limit : Nat) (small : source.content.utf8ByteSize < 2 ^ 32)
    {handle : Handle} {place : Nat}
    (there : (source.ast limit).ordinals[handle]? = some place) :
    ∃ node ∈ source.nodes limit, (source.ast limit).span? handle = some node.note ∧
      ∃ tree, (source.ast limit).read handle = .ok tree ∧
        tree.map (source.ast limit).span? = node.map some := by
  have sound : (source.ast limit).Sound := (Session.start_sound limit small).program.store
  obtain ⟨pushed, records⟩ := sound.tables
  have inside := records.place_lt there
  have ast : source.ast limit = ((Ast.empty.insertRoots (source.outcome limit).roots).insertAll
    (source.outcome limit).completed).2 := Session.program_ast _
  have member : ∀ expr ∈ source.trees limit, ∀ node ∈ expr.nodes, node ∈ source.nodes limit :=
    fun expr tree node below => Expr.mem_nodesAll.mpr ⟨expr, tree, below⟩
  have each : ∀ place, place < (source.ast limit).nodeCount → ∃ other node start,
      node ∈ source.nodes limit ∧ (source.ast limit).Stored other start node ∧
        start + Expr.sizeAll node.children = place := by
    rw [ast]
    refine Ast.places_of_trees (fun expr => ∀ node ∈ expr.nodes, node ∈ source.nodes limit)
      (source.size_lt limit small) ?_ ?_ ?_ ?_
    · intro expr kept child below node found
      refine kept node ?_
      rw [Expr.nodes_children]
      exact List.mem_append_left _ (Expr.mem_nodesAll.mpr ⟨child, below, found⟩)
    · intro handle start expr kept stored
      refine ⟨handle, expr, start, kept expr ?_, stored, rfl⟩
      rw [Expr.nodes_children]
      exact List.mem_append_right _ (.head _)
    · exact fun root found => member root (List.mem_append_left _ found)
    · exact fun expr found => member expr (List.mem_append_right _ found)
  obtain ⟨other, node, start, kept, stored, last⟩ := each place inside
  obtain ⟨_, _, _, ordinal⟩ := stored.children
  rw [last] at ordinal
  obtain rfl := records.handle_unique there ordinal
  have deep : node.height ≤ (source.ast limit).depthLimit := by
    have within := sound.place_lt_depthLimit there
    have size := node.size_children
    have high := node.height_le_size
    omega
  exact ⟨node, kept, stored.span?, stored.read deep⟩

end Source

/-- A dot is written as a single codepoint. -/
theorem Token.written_of_dot {dot : Token} (dotted : dot.kind = .mark .dot) :
    dot.lexeme.written = ['.'] := by
  rw [Token.lexeme_of_mark dotted]
  rfl

/-- A selection has the span of its dot and its selector. -/
theorem selected_note (target : Expr Span) (dot token : Token) (selector : Selector) :
    (selected target dot token selector).note = ⟨dot.start, dot.width + token.width⟩ := by
  cases selector <;> rfl

/-- The store has the spans of the nodes, and what is read at a handle has them where they belong.
From left to right the nodes start at tokens of their own. A node that one token introduces covers
what this token is written as. The span of a selection starts at its dot and is as long as the dot
and the selector, so it covers both, and all that stands between them, only if nothing does. -/
theorem node_spans_cover_tokens (source : Source) (limit : Nat) :
    (source.ast limit).spans.toList = (source.nodes limit).map Expr.note ∧
    (source.content.utf8ByteSize < 2 ^ 32 → ∀ handle place,
      (source.ast limit).ordinals[handle]? = some place →
        ∃ node ∈ source.nodes limit, (source.ast limit).span? handle = some node.note ∧
          ∃ tree, (source.ast limit).read handle = .ok tree ∧
            tree.map (source.ast limit).span? = node.map some) ∧
    (Expr.startsAll (source.trees limit)).Sublist (source.tokenStream.tokens.map Token.start) ∧
    ∀ node ∈ source.nodes limit,
      (∃ token ∈ source.tokenStream.tokens, token.Introduces node ∧
        node.note = token.span ∧ source.Covers node.note token.lexeme.written) ∨
      ∃ target dot token selector before gap after,
        node = selected target dot token selector ∧ dot.kind = .mark .dot ∧
        acceptSelector token.kind = some selector ∧
        [dot, token] <:+: source.tokenStream.tokens ∧ Trivia gap ∧
        source.chars = before ++ '.' :: (gap ++ (token.lexeme.written ++ after)) ∧
        node.note = ⟨placeAfter before, 1 + token.width⟩ ∧
        (source.Covers node.note ('.' :: (gap ++ token.lexeme.written)) ↔ gap = []) := by
  refine ⟨source.ast_spans limit, ?_, ?_, ?_⟩
  · intro small handle place there
    exact source.handle_shows limit small there
  · have starts := parseProgram_starts (Session.start source limit).context
      (Session.start source limit).ahead
    exact (List.sublist_append_left _ _).trans starts
  · intro node member
    obtain ⟨expr, tree, below⟩ := Expr.mem_nodesAll.mp member
    have introduced : expr.Introduced source.tokenStream.tokens :=
      parseProgram_introduced (Session.start source limit).context (List.suffix_refl _) expr tree
    cases introduced node below with
    | token here introduces =>
      have covers := source.token_covers here
      rw [← introduces.note] at covers
      exact .inl ⟨_, here, introduces, introduces.note, covers⟩
    | @selector target dot token selector neighbours dotted accepted =>
      right
      have dotWritten := Token.written_of_dot dotted
      have valid : token.kind ≠ .invalid := valid_of_accepted accepted rfl
      obtain ⟨before, gap, after, trivia, split, start⟩ :=
        source.neighbours_split neighbours (valid_of_mark dotted) valid
      have split : source.chars = before ++ '.' :: (gap ++ (token.lexeme.written ++ after)) := by
        rw [split, dotWritten]
        rfl
      have note : (selected target dot token selector).note =
          ⟨placeAfter before, 1 + token.width⟩ := by
        have single : dot.width = 1 := congrArg List.length dotWritten
        rw [selected_note, start, single]
      have oneLine : '\n' ∉ '.' :: token.lexeme.written := by
        obtain ⟨_, _, _, _, single⟩ := source.token_split (neighbours.subset (.tail _ (.head _)))
        rw [List.mem_cons, not_or]
        exact ⟨by decide, single⟩
      refine ⟨target, dot, token, selector, before, gap, after, rfl, dotted, accepted, neighbours,
        trivia, split, note, ?_⟩
      rw [note]
      constructor
      · intro covers
        have length : 1 + token.width = ('.' :: (gap ++ token.lexeme.written)).length :=
          covers.length
        have width : token.width = token.lexeme.written.length := rfl
        rw [List.length_cons, List.length_append] at length
        exact List.length_eq_zero_iff.mp (by omega)
      · rintro rfl
        have long : 1 + token.width = ('.' :: token.lexeme.written).length := Nat.add_comm ..
        rw [long]
        exact Source.covers_of_split split oneLine

/-- The handle of the root shows the tree of a field of an index with the spans of its nodes. -/
theorem field_of_index_is_shown :
    (⟨0, "t.sb", "x[0].y"⟩ : Source).content.utf8ByteSize < 2 ^ 32 ∧
      ∃ root ∈ ((⟨0, "t.sb", "x[0].y"⟩ : Source).ast 8).roots.toList, ∃ place,
        ((⟨0, "t.sb", "x[0].y"⟩ : Source).ast 8).ordinals[root]? = some place ∧
        ∃ node ∈ (⟨0, "t.sb", "x[0].y"⟩ : Source).nodes 8,
          ((⟨0, "t.sb", "x[0].y"⟩ : Source).ast 8).span? root = some node.note ∧
          ∃ tree, ((⟨0, "t.sb", "x[0].y"⟩ : Source).ast 8).read root = .ok tree ∧
            tree.map ((⟨0, "t.sb", "x[0].y"⟩ : Source).ast 8).span? = node.map some := by
  have small : (⟨0, "t.sb", "x[0].y"⟩ : Source).content.utf8ByteSize < 2 ^ 32 := by decide
  have rooted : ((⟨0, "t.sb", "x[0].y"⟩ : Source).ast 8).roots.toList ≠ [] := by decide +kernel
  obtain ⟨root, member⟩ := List.exists_mem_of_ne_nil _ rooted
  obtain ⟨place, there⟩ := (Session.start_sound 8 small).program.store.roots root member
  exact ⟨small, root, member, place, there,
    (node_spans_cover_tokens ⟨0, "t.sb", "x[0].y"⟩ 8).2.1 small root place there⟩

/-- A blank behind a dot takes the place of the last codepoint of the selector under the span, and a
line end takes the span over the end of its line. -/
theorem spaced_selector_is_not_covered :
    ((⟨0, "t.sb", "a. b"⟩ : Source).ast 8).spans.toList = [⟨⟨1, 1⟩, 1⟩, ⟨⟨1, 2⟩, 2⟩] ∧
      (⟨0, "t.sb", "a. b"⟩ : Source).under ⟨⟨1, 2⟩, 2⟩ = ". ".toList ∧
      ¬ (⟨0, "t.sb", "a. b"⟩ : Source).Covers ⟨⟨1, 2⟩, 2⟩ ". b".toList ∧
      ((⟨0, "t.sb", "a.\nbc"⟩ : Source).ast 8).spans.toList = [⟨⟨1, 1⟩, 1⟩, ⟨⟨1, 2⟩, 3⟩] ∧
      ∀ text, ¬ (⟨0, "t.sb", "a.\nbc"⟩ : Source).Covers ⟨⟨1, 2⟩, 3⟩ text := by
  refine ⟨by decide +kernel, by decide +kernel, ?_, by decide +kernel, ?_⟩
  · intro covers
    exact absurd covers.length (by decide +kernel)
  · intro text covers
    have under : (⟨0, "t.sb", "a.\nbc"⟩ : Source).under ⟨⟨1, 2⟩, 3⟩ = ".\n".toList := by
      decide +kernel
    have short : (".\n".toList : List Char).length = 2 := by decide +kernel
    have length := covers.length
    rw [← covers.under, under, short] at length
    cases length

end Cascade
