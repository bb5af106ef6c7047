import Cascade.Proofs.NodeSpans

/-!
# Tokens with texts and the nodes they become

Names and strings are the tokens that have texts, and each of them becomes one node when it is used
up: a name, a string or, behind a dot, a field (`Token.Labels`). The nodes stand in the order of the
tokens, whatever the parse does in between and wherever it stops (`Brings`).
-/
namespace Cascade

open Cascade.Expr (nodesAll)

/-- Whether nodes of the variant have a text. -/
def NodeKind.isText : NodeKind → Bool
  | .str | .identifier | .field => true
  | _ => false

/-- Whether the token is a name or a string. -/
def Token.isText (token : Token) : Bool := token.kind = .identifier ∨ token.kind = .string

namespace Expr

variable {α : Type}

/-- The variant as which the node is stored. -/
def kind : Expr α → NodeKind
  | .bool .. => .bool
  | .int .. => .int
  | .str .. => .str
  | .identifier .. => .identifier
  | .binary .. => .binary
  | .unary .. => .unary
  | .index .. => .index
  | .call .. => .call
  | .primitive .. => .primitive
  | .field .. => .field

/-- The text of the node itself, if it has one. -/
def text? : Expr α → Option String
  | .str _ text => some text
  | .identifier _ name | .field _ _ name => some name
  | _ => none

/-- The nodes of trees that have texts. -/
def textNodes (exprs : List (Expr α)) : List (Expr α) :=
  (nodesAll exprs).filter fun node => node.kind.isText

/-- The nodes with texts of trees and of others behind them. -/
theorem textNodes_append (exprs others : List (Expr α)) :
    textNodes (exprs ++ others) = textNodes exprs ++ textNodes others := by
  rw [textNodes, nodesAll_append, List.filter_append]
  rfl

/-- A node without a text has the nodes with texts that are below it. -/
theorem textNodes_above {expr : Expr α} (plain : expr.kind.isText = false) :
    textNodes [expr] = textNodes expr.children := by
  rw [textNodes, nodesAll, nodes_children, nodesAll, List.append_nil, List.filter_append,
    List.filter_singleton, plain]
  exact List.append_nil _

/-- A node with a text is behind those below it. -/
theorem textNodes_text {expr : Expr α} (text : expr.kind.isText = true) :
    textNodes [expr] = textNodes expr.children ++ [expr] := by
  rw [textNodes, nodesAll, nodes_children, nodesAll, List.append_nil, List.filter_append,
    List.filter_singleton, text]
  rfl

/-- Only nodes with texts have texts. -/
theorem filterMap_text? (exprs : List (Expr Span)) :
    (exprs.filter fun expr => expr.kind.isText).filterMap text? =
      exprs.filterMap text? := by
  rw [List.filterMap_filter]
  congr 1
  funext expr
  cases expr <;> rfl

end Expr

/-- A token that is accepted where names and strings are not has no text. -/
theorem isText_of_accepted {β : Type} {accept : TokenKind → Option β} {token : Token} {value : β}
    (accepted : accept token.kind = some value) (name : accept .identifier = none)
    (string : accept .string = none) : token.isText = false := by
  refine decide_eq_false ?_
  rintro (same | same) <;> rw [same] at accepted
  · rw [name] at accepted
    cases accepted
  · rw [string] at accepted
    cases accepted

/-- A mark has no text. -/
theorem isText_of_mark {token : Token} {sign : Mark} (marked : token.kind = .mark sign) :
    token.isText = false := by
  rw [Token.isText, marked]
  rfl

/-- The token is the node, a name or a string, or behind a dot the name of the field. -/
inductive Token.Labels (tokens : List Token) (token : Token) : Expr Span → Prop where
  /-- The token is a name. -/
  | identifier : token.kind = .identifier →
    token.Labels tokens (.identifier token.span token.text)
  /-- The token is a string. -/
  | string : token.kind = .string → token.Labels tokens (.str token.span token.text)
  /-- The token is the name behind a dot. -/
  | field {target : Expr Span} {dot : Token} : token.kind = .identifier →
    [dot, token] <:+: tokens → dot.kind = .mark .dot →
    token.Labels tokens (.field (selectorSpan dot token) target token.text)

/-- A node that a token labels has a text. -/
theorem Token.Labels.isText {tokens : List Token} {token : Token} {node : Expr Span}
    (labels : token.Labels tokens node) : node.kind.isText = true := by
  cases labels <;> rfl

/-- The text of the node is that of the token. -/
theorem Token.Labels.text? {tokens : List Token} {token : Token} {node : Expr Span}
    (labels : token.Labels tokens node) : node.text? = some token.text := by
  cases labels <;> rfl

/-- Nodes that tokens label have the texts of the tokens. -/
theorem Token.texts_of_labels {tokens texts : List Token} {named : List (Expr Span)}
    (labels : List.Forall₂ (Token.Labels tokens) texts named) :
    named.filterMap Expr.text? = texts.map Token.text := by
  induction labels with
  | nil => rfl
  | cons first _ ih => rw [List.filterMap_cons_some first.text?, ih, List.map_cons]

/-- A token that is an expression on its own labels it if it has a text, and otherwise the
expression has none. -/
theorem leaf?_labels {token : Token} {expr : Expr Span} (tokens : List Token)
    (alone : token.leaf? = some expr) : expr.children = [] ∧
      (token.isText = true ∧ token.Labels tokens expr ∨
        token.isText = false ∧ expr.kind.isText = false) := by
  have kind : token.kind = token.lexeme.kind := rfl
  have text : token.text = token.lexeme.text := rfl
  rw [Token.isText, kind]
  unfold Token.leaf? at alone
  split at alone
  · next written => cases alone; rw [written]; exact ⟨rfl, .inr ⟨rfl, rfl⟩⟩
  · next written => cases alone; rw [written]; exact ⟨rfl, .inr ⟨rfl, rfl⟩⟩
  · next content written =>
    cases alone
    rw [written] at kind text ⊢
    have labels : token.Labels tokens (.str token.span token.text) := .string kind
    rw [text] at labels
    exact ⟨rfl, .inl ⟨rfl, labels⟩⟩
  · next name written =>
    cases alone
    rw [written] at kind text ⊢
    have labels : token.Labels tokens (.identifier token.span token.text) := .identifier kind
    rw [text] at labels
    exact ⟨rfl, .inl ⟨rfl, labels⟩⟩
  · next digits written =>
    obtain ⟨value, _, rfl⟩ := Option.map_eq_some_iff.mp alone
    rw [written]
    exact ⟨rfl, .inr ⟨rfl, rfl⟩⟩
  · cases alone

/-- Using up the tokens down to the rest leaves, behind the nodes with texts that were given, one
node for each name and string among the tokens used up, in their order. -/
def Brings (all tokens rest : List Token) (given values : List (Expr Span)) : Prop :=
  ∃ used added, tokens = used ++ rest ∧
    Expr.textNodes values = Expr.textNodes given ++ added ∧
    List.Forall₂ (Token.Labels all) (used.filter Token.isText) added

namespace Brings

variable {all tokens middle rest : List Token} {given between values : List (Expr Span)}

/-- No tokens bring nothing. -/
theorem refl (all tokens : List Token) (given : List (Expr Span)) :
    Brings all tokens tokens given given :=
  ⟨[], [], rfl, (List.append_nil _).symm, .nil⟩

/-- What tokens bring is behind what those before them did. -/
theorem trans (early : Brings all tokens middle given between)
    (late : Brings all middle rest between values) : Brings all tokens rest given values := by
  obtain ⟨used, added, rfl, there, labels⟩ := early
  obtain ⟨more, others, rfl, here, further⟩ := late
  refine ⟨used ++ more, added ++ others, (List.append_assoc ..).symm, ?_, ?_⟩
  · rw [here, there, List.append_assoc]
  · rw [List.filter_append]
    exact List.rel_append labels further

/-- A token without a text brings nothing. -/
theorem skip {token : Token} (plain : token.isText = false)
    (brings : Brings all tokens rest given values) :
    Brings all (token :: tokens) rest given values := by
  obtain ⟨used, added, rfl, there, labels⟩ := brings
  refine ⟨token :: used, added, rfl, there, ?_⟩
  rwa [List.filter_cons_of_neg (by rw [plain]; exact Bool.false_ne_true)]

/-- A token with a text brings the node that it labels. -/
theorem one {token : Token} {node : Expr Span} (text : token.isText = true)
    (labels : token.Labels all node)
    (added : Expr.textNodes values = Expr.textNodes given ++ [node]) :
    Brings all (token :: rest) rest given values := by
  refine ⟨[token], [node], rfl, added, ?_⟩
  rw [List.filter_singleton, text]
  exact .cons labels .nil

/-- Trees that stand before the others stay before what is brought. -/
theorem behind (first : List (Expr Span)) (brings : Brings all tokens rest given values) :
    Brings all tokens rest (first ++ given) (first ++ values) := by
  obtain ⟨used, added, same, there, labels⟩ := brings
  refine ⟨used, added, same, ?_, labels⟩
  rw [Expr.textNodes_append, Expr.textNodes_append, there, List.append_assoc]

/-- Only the nodes with texts matter. -/
theorem congr (brings : Brings all tokens rest given between)
    (same : Expr.textNodes values = Expr.textNodes between) :
    Brings all tokens rest given values := by
  obtain ⟨used, added, tokens, there, labels⟩ := brings
  exact ⟨used, added, tokens, same.trans there, labels⟩

end Brings

section

variable {context : ParseContext} {goal : Goal} {room : Nat} {tokens rest all : List Token}
  {values completed : List (Expr Span)} {failure : Failure}

/-- A selector without a text adds no node with a text, and the name of a field adds the field. -/
theorem brings_selector {target : Expr Span} {selector : Selector} {dot token : Token}
    (inside : dot :: token :: rest <:+ all) (dotted : dot.kind = .mark .dot)
    (accepted : acceptSelector token.kind = some selector) :
    Brings all (dot :: token :: rest) rest [target] [selected target dot token selector] := by
  refine .skip (isText_of_mark dotted) ?_
  cases selector with
  | access access =>
    have selects : token.kind.access? = some access := by
      unfold acceptSelector at accepted
      split at accepted
      · cases accepted
      · obtain ⟨_, found, same⟩ := Option.map_eq_some_iff.mp accepted
        cases same
        exact found
    have plain : token.isText = false := isText_of_accepted selects rfl rfl
    exact .skip plain (.congr (.refl all rest [target]) (Expr.textNodes_above rfl))
  | field =>
    have named : token.kind = .identifier := by
      unfold acceptSelector at accepted
      split at accepted
      · assumption
      · obtain ⟨_, _, same⟩ := Option.map_eq_some_iff.mp accepted
        cases same
    have neighbours : [dot, token] <:+: all := List.IsInfix.trans ⟨[], rest, rfl⟩ inside.isInfix
    have text : token.isText = true := decide_eq_true (.inl named)
    exact .one text (.field named neighbours dotted) (Expr.textNodes_text rfl)

/-- What is parsed has the nodes that its tokens bring. -/
theorem Succeeds.brings (succeeds : Succeeds goal room tokens values rest)
    (inside : tokens <:+ all) : Brings all tokens rest goal.carried values := by
  induction succeeds with
  | expression _ ih => exact ih inside
  | primary parsed _ first chain =>
    exact (first inside).trans (chain (parsed.usesUp.suffix.trans inside))
  | @unary room token op tokens rest operand found _ ih =>
    have below := ih ((List.suffix_cons token tokens).trans inside)
    exact .skip (isText_of_accepted found rfl rfl) (below.congr (Expr.textNodes_above rfl))
  | descend _ _ parsed _ first run =>
    exact (first inside).trans (run (parsed.usesUp.suffix.trans inside))
  | run_end _ => exact .refl ..
  | @operator room token op tokens middle rest lhs rhs expr found parsed _ operand run =>
    have behind := (List.suffix_cons token tokens).trans inside
    have both := (operand behind).behind [lhs]
    have folded : Brings all tokens middle [lhs] [.binary token.span op lhs rhs] :=
      both.congr (Expr.textNodes_above rfl)
    exact .skip (isText_of_accepted found rfl rfl)
      (folded.trans (run (parsed.usesUp.suffix.trans behind)))
  | chain_end _ => exact .refl ..
  | chain_link linked _ link chain =>
    exact (link inside).trans (chain (linked.usesUp.suffix.trans inside))
  | @index target position room opener closer tokens rest opens closes _ ih =>
    have both := (ih ((List.suffix_cons opener tokens).trans inside)).behind [target]
    have closed := both.trans (.skip (isText_of_mark closes) (.refl ..))
    exact .skip (isText_of_mark opens) (closed.congr (Expr.textNodes_above rfl))
  | @call_empty target room opener closer rest opens closes =>
    have closed := Brings.skip (isText_of_mark closes) (.refl all rest [target])
    exact .skip (isText_of_mark opens) (closed.congr (Expr.textNodes_above rfl))
  | @call target arguments room opener closer tokens rest opens closes _ _ ih =>
    have both := (ih ((List.suffix_cons opener tokens).trans inside)).behind [target]
    have closed := both.trans (.skip (isText_of_mark closes) (.refl ..))
    exact .skip (isText_of_mark opens) (closed.congr (Expr.textNodes_above rfl))
  | selector dotted accepted => exact brings_selector inside dotted accepted
  | last_argument _ _ ih => exact ih inside
  | @argument argument arguments room comma tokens middle rest parsed separates _ first others =>
    have behind := (List.suffix_cons comma middle).trans (parsed.usesUp.suffix.trans inside)
    have separated := (first inside).trans (.skip (isText_of_mark separates) (.refl ..))
    exact separated.trans ((others behind).behind [argument])
  | @leaf expr room token rest alone =>
    obtain ⟨single, ⟨text, labels⟩ | ⟨plain, none⟩⟩ := leaf?_labels all alone
    · have added : Expr.textNodes [expr] = Expr.textNodes [] ++ [expr] := by
        rw [Expr.textNodes_text labels.isText, single]
      exact .one text labels added
    · have same : Expr.textNodes [expr] = Expr.textNodes [] := by
        rw [Expr.textNodes_above none, single]
      exact .skip plain (.congr (.refl ..) same)
  | @group expr room opener closer tokens rest opens closes _ ih =>
    have whole := ih ((List.suffix_cons opener tokens).trans inside)
    exact .skip (isText_of_mark opens) (whole.trans (.skip (isText_of_mark closes) (.refl ..)))

/-- So has what a failed parse hands out. -/
theorem Fails.brings (fails : Fails context goal room tokens failure rest completed)
    (inside : tokens <:+ all) : Brings all tokens rest goal.carried completed := by
  induction fails with
  | too_deep | no_primary => exact .refl ..
  | unary_too_deep found => exact .skip (isText_of_accepted found rfl rfl) (.refl ..)
  | @too_large room token digits rest written _ =>
    have plain : token.isText = false := by
      rw [Token.isText, show token.kind = token.lexeme.kind from rfl, written]
      rfl
    exact .skip plain (.refl ..)
  | expression _ ih | primary _ ih | descend _ _ _ ih | link _ ih | argument _ ih =>
    exact ih inside
  | chain parsed _ ih | run _ _ parsed _ ih | chain_link parsed _ ih =>
    exact (parsed.brings inside).trans (ih (parsed.usesUp.suffix.trans inside))
  | unary found _ ih =>
    exact .skip (isText_of_accepted found rfl rfl) (ih ((List.suffix_cons _ _).trans inside))
  | group opens _ ih =>
    exact .skip (isText_of_mark opens) (ih ((List.suffix_cons _ _).trans inside))
  | @operand _ _ _ _ _ lhs _ _ found _ ih =>
    have behind := ih ((List.suffix_cons _ _).trans inside)
    exact .skip (isText_of_accepted found rfl rfl) (behind.behind [lhs])
  | @index target _ _ _ _ _ _ opens _ ih | @call target _ _ _ _ _ _ opens _ _ ih =>
    have behind := ih ((List.suffix_cons _ _).trans inside)
    exact .skip (isText_of_mark opens) (behind.behind [target])
  | @operator room token op tokens middle rest lhs rhs failure completed found parsed _ ih =>
    have behind := (List.suffix_cons token tokens).trans inside
    have both := (parsed.brings behind).behind [lhs]
    have folded : Brings all tokens middle [lhs] [.binary token.span op lhs rhs] :=
      both.congr (Expr.textNodes_above rfl)
    exact .skip (isText_of_accepted found rfl rfl)
      (folded.trans (ih (parsed.usesUp.suffix.trans behind)))
  | @unclosed_index target _ _ _ _ _ opens parsed _
  | @unclosed_call target _ _ _ _ _ opens _ parsed _ =>
    have behind := parsed.brings ((List.suffix_cons _ _).trans inside)
    exact .skip (isText_of_mark opens) (behind.behind [target])
  | unclosed_group opens parsed _ =>
    exact .skip (isText_of_mark opens) (parsed.brings ((List.suffix_cons _ _).trans inside))
  | selector dotted _ => exact .skip (isText_of_mark dotted) (.refl ..)
  | @later_argument argument _ comma _ middle _ _ _ parsed separates _ ih =>
    have behind := (List.suffix_cons comma middle).trans (parsed.usesUp.suffix.trans inside)
    have separated := (parsed.brings inside).trans (.skip (isText_of_mark separates) (.refl ..))
    exact separated.trans ((ih behind).behind [argument])

end

/-- The trees of a program have the nodes that its tokens bring. -/
theorem parseProgram_brings (context : ParseContext) {tokens all : List Token}
    (inside : tokens <:+ all) :
    Brings all tokens (parseProgram context tokens).rest []
      ((parseProgram context tokens).roots ++ (parseProgram context tokens).completed) := by
  induction tokens using program_induction context with
  | ended =>
    rw [parseProgram]
    exact .refl ..
  | failed tokens failure rest completed some fails =>
    rw [parseProgram_failed some fails]
    exact fails.brings inside
  | done tokens root rest succeeds ih =>
    have first := succeeds.brings inside
    have others := ih (succeeds.usesUp.suffix.trans inside)
    rw [parseProgram_done succeeds]
    exact first.trans (others.behind [root])

/-- The nodes with texts are those that the tokens label that are used up. -/
theorem Source.labels (source : Source) (limit : Nat) :
    ∃ consumed, source.tokenStream.tokens =
        consumed ++ (Session.start source limit).program.2.ahead ∧
      List.Forall₂ (Token.Labels source.tokenStream.tokens) (consumed.filter Token.isText)
        ((source.nodes limit).filter fun node => node.kind.isText) := by
  rw [Session.program_ahead]
  obtain ⟨consumed, added, tokens, same, labels⟩ :=
    parseProgram_brings (Session.start source limit).context
      (List.suffix_refl source.tokenStream.tokens)
  have texts : (source.nodes limit).filter (fun node => node.kind.isText) = added := same
  rw [texts]
  exact ⟨consumed, tokens, labels⟩

end Cascade
