import Cascade.Proofs.Reports
import Cascade.Proofs.ViablePrefix

/-!
# Layout does not matter

Where the tokens stand decides nothing: a parse of the tokens moved to the start of every text takes
the same steps and gives the same trees, failures and reports, moved there too. Two sources whose
tokens agree in kind and text are the same source there, whatever blanks, comments and lines are
between the tokens, so parsing leaves the same behind for both, except for the places.
-/
namespace Cascade

/-- The span at the start of every text. -/
def Span.unplaced (span : Span) : Span := ⟨.first, span.length⟩

/-- The tree with its spans at the start of every text. -/
def Expr.unplaced (expr : Expr Span) : Expr Span := expr.map Span.unplaced

/-- The token at the start of every text. A malformed one is told by its text alone. -/
def Token.unplaced (token : Token) : Token :=
  match token.lexeme with
  | .stray character => ⟨.unterminated character.toString, .first⟩
  | lexeme => ⟨lexeme, .first⟩

/-- The error at the start of every text. -/
def SyntaxError.unplaced : SyntaxError → SyntaxError
  | .expectedExpression _ found => .expectedExpression .first found
  | .unclosedDelimiter _ delimiter => .unclosedDelimiter .first delimiter
  | .expectedSelector _ found => .expectedSelector .first found
  | .integerTooLarge _ digits => .integerTooLarge .first digits
  | .nestingTooDeep _ limit => .nestingTooDeep .first limit
  | .invalidToken _ => .invalidToken .first

/-- The diagnostic about no columns at the start of every text. -/
def Diagnostic.unplaced (diagnostic : Diagnostic) : Diagnostic :=
  { diagnostic with span := ⟨.first, 0⟩ }

/-- The failure at the start of every text. -/
def Failure.unplaced (failure : Failure) : Failure :=
  ⟨failure.error.unplaced, failure.reports.map Diagnostic.unplaced⟩

/-- What the goal has been given is at the start of every text. -/
def Goal.unplaced : Goal → Goal
  | .expression => .expression
  | .tier loosest => .tier loosest
  | .run common lhs => .run common lhs.unplaced
  | .chain target => .chain target.unplaced
  | .link target => .link target.unplaced
  | .arguments => .arguments
  | .primary => .primary

namespace Token

variable {token : Token}

/-- A token keeps its kind. -/
@[simp]
theorem kind_unplaced (token : Token) : token.unplaced.kind = token.kind := by
  obtain ⟨lexeme, start⟩ := token
  cases lexeme <;> rfl

/-- A token that is a mark is so at the start of every text. -/
theorem mark_unplaced {sign : Mark} (marked : token.kind = .mark sign) :
    token.unplaced.kind = .mark sign := by
  rwa [kind_unplaced]

/-- A token keeps its text. -/
@[simp]
theorem text_unplaced (token : Token) : token.unplaced.text = token.text := by
  obtain ⟨lexeme, start⟩ := token
  cases lexeme <;> rfl

/-- A token keeps its description. -/
@[simp]
theorem description_unplaced (token : Token) : token.unplaced.description = token.description := by
  obtain ⟨lexeme, start⟩ := token
  cases lexeme <;> rfl

/-- A valid token keeps its lexeme. -/
theorem lexeme_unplaced (valid : token.kind ≠ .invalid) :
    token.unplaced.lexeme = token.lexeme := by
  obtain ⟨lexeme, start⟩ := token
  cases lexeme with
  | stray character => exact absurd rfl valid
  | _ => rfl

/-- A token stands at the start of every text. -/
theorem start_unplaced (token : Token) : token.unplaced.start = .first := by
  obtain ⟨lexeme, start⟩ := token
  cases lexeme <;> rfl

/-- A valid token keeps the length of its span. -/
theorem span_unplaced (valid : token.kind ≠ .invalid) :
    token.unplaced.span = token.span.unplaced := by
  rw [span, span, width, width, lexeme_unplaced valid, start_unplaced]
  rfl

/-- Tokens of one kind and text are one token at the start of every text. -/
theorem unplaced_of_face {one other : Token} (same : one.face = other.face) :
    one.unplaced = other.unplaced := by
  by_cases valid : one.kind = .invalid
  · obtain ⟨lexeme, start⟩ := one
    obtain ⟨again, place⟩ := other
    obtain ⟨kind, text⟩ := Prod.mk.inj same
    change lexeme.kind = again.kind at kind
    change lexeme.text = again.text at text
    cases lexeme <;> cases valid <;> cases again <;> cases kind <;>
      exact congrArg (fun text => (⟨.unterminated text, .first⟩ : Token)) text
  · have lexeme := lexeme_of_face same valid
    obtain ⟨lexeme, start⟩ := one
    cases lexeme
    rfl

/-- Tokens of the same kinds and texts are the same tokens at the start of every text. -/
theorem map_unplaced_of_faces {tokens others : List Token}
    (faces : tokens.map face = others.map face) :
    tokens.map unplaced = others.map unplaced := by
  induction tokens generalizing others with
  | nil =>
    obtain rfl := List.map_eq_nil_iff.mp faces.symm
    rfl
  | cons token tokens ih =>
    obtain ⟨other, behind, rfl, same, later⟩ := List.map_eq_cons_iff.mp faces.symm
    rw [List.map_cons, List.map_cons, ih later.symm, unplaced_of_face same.symm]

/-- What a token is by itself it is at the start of every text. -/
theorem leaf?_unplaced {expr : Expr Span} (alone : token.leaf? = some expr) :
    token.unplaced.leaf? = some expr.unplaced := by
  have valid := valid_of_leaf alone
  unfold leaf? at alone
  unfold leaf?
  rw [lexeme_unplaced valid, span_unplaced valid]
  split at alone
  · cases alone
    rfl
  · cases alone
    rfl
  · cases alone
    rfl
  · cases alone
    rfl
  · obtain ⟨value, small, rfl⟩ := Option.map_eq_some_iff.mp alone
    rw [small]
    rfl
  · cases alone

end Token

/-- A target keeps the length of its span under a selector. -/
theorem selected_unplaced {target : Expr Span} {dot token : Token} (selector : Selector)
    (dotted : dot.kind ≠ .invalid) (valid : token.kind ≠ .invalid) :
    selected target.unplaced dot.unplaced token.unplaced selector =
      (selected target dot token selector).unplaced := by
  have columns : selectorSpan dot.unplaced token.unplaced = (selectorSpan dot token).unplaced := by
    rw [selectorSpan, selectorSpan, Token.width, Token.width, Token.width, Token.width,
      Token.lexeme_unplaced dotted, Token.lexeme_unplaced valid, Token.start_unplaced]
    rfl
  cases selector with
  | access access => rw [selected, columns]; rfl
  | field => rw [selected, columns, Token.text_unplaced]; rfl

/-- A token that does not come first does not do so at the start of every text. -/
theorem Lacks.unplaced {β : Type} {accept : TokenKind → Option β} {tokens : List Token}
    (lacks : Lacks accept tokens) : Lacks accept (tokens.map Token.unplaced) := by
  cases tokens with
  | nil => exact nofun
  | cons token rest =>
    intro first same
    cases same
    rw [Token.kind_unplaced]
    exact lacks token rfl

section

variable {context other : ParseContext} {goal : Goal} {room : Nat} {tokens rest : List Token}
  {values completed : List (Expr Span)} {failure : Failure}

/-- A success is one at the start of every text. -/
theorem Succeeds.unplaced (succeeds : Succeeds goal room tokens values rest) :
    Succeeds goal.unplaced room (tokens.map Token.unplaced) (values.map Expr.unplaced)
      (rest.map Token.unplaced) := by
  induction succeeds with
  | expression _ ih => exact .expression ih
  | primary _ _ first chain => exact .primary first chain
  | @unary _ token op _ _ operand found _ ih =>
    have again : token.unplaced.kind.unaryOp? = some op := by rwa [Token.kind_unplaced]
    have parsed := Succeeds.unary again ih
    rw [Token.span_unplaced (valid_of_accepted found rfl)] at parsed
    exact parsed
  | descend outer lacks _ _ first run => exact .descend outer lacks.unplaced first run
  | run_end lacks => exact .run_end lacks.unplaced
  | @operator _ token op _ _ _ lhs rhs expr found _ _ operand run =>
    have again : token.unplaced.kind.binaryOp? = some op := by rwa [Token.kind_unplaced]
    have columns := Token.span_unplaced (valid_of_accepted found rfl)
    refine .operator again operand ?_
    rw [columns]
    exact run
  | chain_end lacks => exact .chain_end lacks.unplaced
  | chain_link _ _ link chain => exact .chain_link link chain
  | index opens closes _ ih =>
    have opening := Token.mark_unplaced opens
    have closing := Token.mark_unplaced closes
    rw [List.map_singleton, Expr.unplaced, Expr.map, ← Token.span_unplaced (valid_of_mark opens)]
    exact .index opening closing ih
  | call_empty opens closes =>
    have opening := Token.mark_unplaced opens
    have closing := Token.mark_unplaced closes
    rw [List.map_singleton, Expr.unplaced, Expr.map, ← Token.span_unplaced (valid_of_mark opens)]
    exact .call_empty opening closing
  | @call target arguments _ opener _ _ _ opens closes lacks _ ih =>
    have opening := Token.mark_unplaced opens
    have closing := Token.mark_unplaced closes
    have same : (Expr.call opener.span target arguments).unplaced =
        .call opener.span.unplaced target.unplaced (arguments.map Expr.unplaced) := by
      rw [Expr.unplaced, Expr.map, Expr.mapAll_eq_map]
      rfl
    rw [List.map_singleton, same, ← Token.span_unplaced (valid_of_mark opens)]
    exact .call opening closing lacks.unplaced ih
  | @selector target selector _ dot token _ dotted accepted =>
    have marked := Token.mark_unplaced dotted
    have selects : acceptSelector token.unplaced.kind = some selector := by
      rwa [Token.kind_unplaced]
    rw [List.map_singleton, ← selected_unplaced selector (valid_of_mark dotted)
      (valid_of_accepted accepted rfl)]
    exact .selector marked selects
  | last_argument _ lacks ih => exact .last_argument ih lacks.unplaced
  | argument _ separates _ first others =>
    exact .argument first (Token.mark_unplaced separates) others
  | leaf alone => exact .leaf (Token.leaf?_unplaced alone)
  | group opens closes _ ih =>
    exact .group (Token.mark_unplaced opens) (Token.mark_unplaced closes) ih

namespace Failure

/-- An invalid token is invalid at the start of every text. -/
theorem unlessInvalid_unplaced {one : Failure} (same : one.unplaced = failure.unplaced)
    (tokens : List Token) :
    (unlessInvalid (tokens.map Token.unplaced) one).unplaced =
      (unlessInvalid tokens failure).unplaced := by
  cases tokens with
  | nil => exact same
  | cons token rest =>
    rw [List.map_cons, unlessInvalid, unlessInvalid, Token.kind_unplaced]
    by_cases invalid : token.kind = .invalid
    · rw [if_pos invalid, if_pos invalid]
      rfl
    · rw [if_neg invalid, if_neg invalid]
      exact same

/-- A missing expression is missing at the start of every text. -/
theorem expectedExpression_unplaced (context other : ParseContext) (tokens : List Token) :
    (expectedExpression other (tokens.map Token.unplaced)).unplaced =
      (expectedExpression context tokens).unplaced := by
  refine unlessInvalid_unplaced ?_ tokens
  cases tokens with
  | nil => rfl
  | cons token rest =>
    simp only [List.map_cons, Token.description_unplaced]
    rfl

/-- A missing selector is missing at the start of every text. -/
theorem expectedSelector_unplaced (context other : ParseContext) (tokens : List Token) :
    (expectedSelector other (tokens.map Token.unplaced)).unplaced =
      (expectedSelector context tokens).unplaced := by
  refine unlessInvalid_unplaced ?_ tokens
  cases tokens with
  | nil => rfl
  | cons token rest =>
    simp only [List.map_cons, Token.description_unplaced]
    rfl

/-- A bracket is not closed at the start of every text. -/
theorem unclosed_unplaced (context other : ParseContext) (close : Mark) (opener : Token)
    (tokens : List Token) :
    (unclosed other close opener.unplaced (tokens.map Token.unplaced)).unplaced =
      (unclosed context close opener tokens).unplaced := by
  refine unlessInvalid_unplaced ?_ tokens
  cases tokens with
  | nil =>
    simp only [List.map_nil, Token.text_unplaced]
    rfl
  | cons token rest =>
    simp only [List.map_cons, Token.description_unplaced, Token.text_unplaced]
    rfl

/-- A number is too large at the start of every text. -/
theorem integerTooLarge_unplaced (token : Token) (digits : String) :
    (integerTooLarge token.unplaced digits).unplaced = (integerTooLarge token digits).unplaced :=
  rfl

/-- The nesting limit is passed at the start of every text. -/
theorem tooDeep_unplaced (limits : other.limit = context.limit) (tokens : List Token) :
    (tooDeep other (tokens.map Token.unplaced)).unplaced = (tooDeep context tokens).unplaced := by
  rw [tooDeep, tooDeep, limits]
  rfl

end Failure

/-- The goal fails at the start of every text. -/
def Goal.FailsUnplaced (other : ParseContext) (goal : Goal) (room : Nat) (tokens : List Token)
    (failure : Failure) (rest : List Token) (completed : List (Expr Span)) : Prop :=
  ∃ again, again.unplaced = failure.unplaced ∧
    Fails other goal.unplaced room (tokens.map Token.unplaced) again (rest.map Token.unplaced)
      (completed.map Expr.unplaced)

/-- A goal fails for what another fails for if a rule leads from the one to the other. -/
theorem Goal.FailsUnplaced.imp {further : Goal} {more : Nat} {before : List Token}
    {others : List (Expr Span)}
    (fails : goal.FailsUnplaced other room tokens failure rest completed)
    (rule : ∀ again, Fails other goal.unplaced room (tokens.map Token.unplaced) again
        (rest.map Token.unplaced) (completed.map Expr.unplaced) →
      Fails other further.unplaced more (before.map Token.unplaced) again
        (rest.map Token.unplaced) (others.map Expr.unplaced)) :
    further.FailsUnplaced other more before failure rest others := by
  obtain ⟨again, same, fails⟩ := fails
  exact ⟨again, same, rule again fails⟩

/-- A failure is one at the start of every text, under the same limit. -/
theorem Fails.unplaced (limits : other.limit = context.limit)
    (fails : Fails context goal room tokens failure rest completed) :
    goal.FailsUnplaced other room tokens failure rest completed := by
  induction fails with
  | too_deep => exact ⟨_, Failure.tooDeep_unplaced limits _, .too_deep⟩
  | expression _ ih => exact ih.imp fun _ => .expression
  | primary _ ih => exact ih.imp fun _ => .primary
  | chain parsed _ ih => exact ih.imp fun _ => .chain parsed.unplaced
  | @unary_too_deep token op _ found =>
    have accepted : token.unplaced.kind.unaryOp? = some op := by rwa [Token.kind_unplaced]
    exact ⟨_, Failure.tooDeep_unplaced limits _, .unary_too_deep accepted⟩
  | @unary _ token op _ _ _ _ found _ ih =>
    have accepted : token.unplaced.kind.unaryOp? = some op := by rwa [Token.kind_unplaced]
    exact ih.imp fun _ => .unary accepted
  | descend outer lacks _ ih => exact ih.imp fun _ => .descend outer lacks.unplaced
  | run outer lacks parsed _ ih =>
    exact ih.imp fun _ => .run outer lacks.unplaced parsed.unplaced
  | @operand _ token op _ _ _ _ _ found _ ih =>
    have accepted : token.unplaced.kind.binaryOp? = some op := by rwa [Token.kind_unplaced]
    exact ih.imp fun _ => .operand accepted
  | @operator _ token op _ _ _ _ _ _ _ found parsed _ ih =>
    have accepted : token.unplaced.kind.binaryOp? = some op := by rwa [Token.kind_unplaced]
    have columns := Token.span_unplaced (valid_of_accepted found rfl)
    refine ih.imp fun _ fails => .operator accepted parsed.unplaced ?_
    rw [columns]
    exact fails
  | link _ ih => exact ih.imp fun _ => .link
  | chain_link linked _ ih => exact ih.imp fun _ => .chain_link linked.unplaced
  | index opens _ ih => exact ih.imp fun _ => .index (Token.mark_unplaced opens)
  | unclosed_index opens parsed lacks =>
    exact ⟨_, Failure.unclosed_unplaced _ _ _ _ _,
      .unclosed_index (Token.mark_unplaced opens) parsed.unplaced lacks.unplaced⟩
  | call opens lacks _ ih =>
    exact ih.imp fun _ => .call (Token.mark_unplaced opens) lacks.unplaced
  | unclosed_call opens nonempty parsed lacks =>
    have opening := Token.mark_unplaced opens
    exact ⟨_, Failure.unclosed_unplaced _ _ _ _ _,
      .unclosed_call opening nonempty.unplaced parsed.unplaced lacks.unplaced⟩
  | selector dotted lacks =>
    have marked := Token.mark_unplaced dotted
    exact ⟨_, Failure.expectedSelector_unplaced _ _ _, .selector marked lacks.unplaced⟩
  | argument _ ih => exact ih.imp fun _ => .argument
  | later_argument parsed separates _ ih =>
    exact ih.imp fun _ => .later_argument parsed.unplaced (Token.mark_unplaced separates)
  | @no_primary _ tokens none =>
    refine ⟨_, Failure.expectedExpression_unplaced _ _ _, .no_primary ?_⟩
    cases tokens with
    | nil => exact nofun
    | cons token rest =>
      intro first same
      cases same
      rw [Token.kind_unplaced]
      exact none token rfl
  | @too_large _ token digits _ written large =>
    have number : token.kind = .number := congrArg Lexeme.kind written
    have again : token.unplaced.lexeme = .number digits := by
      rw [Token.lexeme_unplaced (by rw [number]; nofun), written]
    exact ⟨_, Failure.integerTooLarge_unplaced token digits, .too_large again large⟩
  | group opens _ ih => exact ih.imp fun _ => .group (Token.mark_unplaced opens)
  | unclosed_group opens parsed lacks =>
    exact ⟨_, Failure.unclosed_unplaced _ _ _ _ _,
      .unclosed_group (Token.mark_unplaced opens) parsed.unplaced lacks.unplaced⟩

/-- What a program gives, at the start of every text. -/
structure ProgramOutcome.Unplaced (bare : ProgramOutcome) (outcome : ProgramOutcome) : Prop where
  /-- The roots are there. -/
  roots : bare.roots = outcome.roots.map Expr.unplaced
  /-- So is the failure, with what was complete before it. -/
  stop : bare.stop.map (Prod.map Failure.unplaced id) =
    outcome.stop.map (Prod.map Failure.unplaced (List.map Expr.unplaced))

/-- A program is one at the start of every text, under the same limit. -/
theorem parseProgram_unplaced (limits : other.limit = context.limit) (tokens : List Token) :
    (parseProgram other (tokens.map Token.unplaced)).Unplaced (parseProgram context tokens) := by
  induction tokens using program_induction context with
  | ended =>
    rw [List.map_nil, parseProgram, parseProgram]
    exact ⟨rfl, rfl⟩
  | failed tokens failure rest completed some fails =>
    obtain ⟨again, same, moved⟩ := Fails.unplaced limits fails
    have none : tokens.map Token.unplaced ≠ [] := mt List.map_eq_nil_iff.mp some
    rw [← limits] at moved
    rw [parseProgram_failed some fails, parseProgram_failed none moved]
    refine ⟨rfl, ?_⟩
    rw [Option.map_some, Option.map_some, Prod.map, Prod.map, same]
    rfl
  | done tokens root rest succeeds ih =>
    have again := succeeds.unplaced
    rw [← limits] at again
    rw [parseProgram_done succeeds, parseProgram_done again]
    exact ⟨congrArg (root.unplaced :: ·) ih.roots, ih.stop⟩

end

namespace Ast

/-- The store with its spans at the start of every text. -/
def unplaced (ast : Ast) : Ast := { ast with spans := ast.spans.map Span.unplaced }

/-- The empty store has no spans. -/
theorem empty_unplaced : Ast.empty.unplaced = Ast.empty := by
  simp only [unplaced, Ast.empty, Array.map_empty]

/-- A node that is pushed keeps its handle at the start of every text. -/
theorem push_unplaced (ast : Ast) (node : Node) (span : Span) :
    ast.unplaced.push node span.unplaced =
      ((ast.push node span).1, (ast.push node span).2.unplaced) := by
  simp only [push, unplaced, Array.map_push, Array.size_map]

/-- Texts are interned alike. -/
theorem intern_unplaced (ast : Ast) (text : String) :
    ast.unplaced.intern text = ((ast.intern text).1, (ast.intern text).2.unplaced) := rfl

/-- Lists are stored alike. -/
theorem pushList_unplaced (ast : Ast) (handles : List Handle) :
    ast.unplaced.pushList handles =
      ((ast.pushList handles).1, (ast.pushList handles).2.unplaced) := by
  unfold pushList
  by_cases none : handles.isEmpty = true
  · rw [if_pos none, if_pos none]
  · rw [if_neg none, if_neg none]
    rfl

mutual

/-- A tree is stored under the same handle at the start of every text. -/
theorem insert_unplaced (ast : Ast) : (expr : Expr Span) →
    ast.unplaced.insert expr.unplaced = ((ast.insert expr).1, (ast.insert expr).2.unplaced)
  | .bool span value => push_unplaced ast _ span
  | .int span value => push_unplaced ast _ span
  | .str span text => push_unplaced (ast.intern text).2 _ span
  | .identifier span name => push_unplaced (ast.intern name).2 _ span
  | .binary span op lhs rhs => by
    have left := insert_unplaced ast lhs
    have right := insert_unplaced (ast.insert lhs).2 rhs
    rw [Expr.unplaced] at left right
    simp only [Expr.unplaced, Expr.map, insert, left, right, push_unplaced]
  | .unary span op operand => by
    have inner := insert_unplaced ast operand
    rw [Expr.unplaced] at inner
    simp only [Expr.unplaced, Expr.map, insert, inner, push_unplaced]
  | .index span target position => by
    have outer := insert_unplaced ast target
    have inner := insert_unplaced (ast.insert target).2 position
    rw [Expr.unplaced] at outer inner
    simp only [Expr.unplaced, Expr.map, insert, outer, inner, push_unplaced]
  | .call span callee arguments => by
    have called := insert_unplaced ast callee
    have given := insertAll_unplaced (ast.insert callee).2 arguments
    rw [Expr.unplaced] at called
    simp only [Expr.unplaced, Expr.map, Expr.mapAll_eq_map, insert, called]
    rw [show arguments.map (Expr.map Span.unplaced) = arguments.map Expr.unplaced from rfl, given]
    simp only [pushList_unplaced, push_unplaced]
  | .primitive span access target => by
    have inner := insert_unplaced ast target
    rw [Expr.unplaced] at inner
    simp only [Expr.unplaced, Expr.map, insert, inner, push_unplaced]
  | .field span target name => by
    have inner := insert_unplaced ast target
    rw [Expr.unplaced] at inner
    simp only [Expr.unplaced, Expr.map, insert, inner, intern_unplaced, push_unplaced]

/-- Trees are stored under the same handles at the start of every text. -/
theorem insertAll_unplaced (ast : Ast) : (exprs : List (Expr Span)) →
    ast.unplaced.insertAll (exprs.map Expr.unplaced) =
      ((ast.insertAll exprs).1, (ast.insertAll exprs).2.unplaced)
  | [] => rfl
  | expr :: exprs => by
    have head := insert_unplaced ast expr
    have tail := insertAll_unplaced (ast.insert expr).2 exprs
    simp only [List.map_cons, insertAll, head, tail]

end

/-- Roots are stored alike at the start of every text. -/
theorem insertRoots_unplaced (ast : Ast) (exprs : List (Expr Span)) :
    ast.unplaced.insertRoots (exprs.map Expr.unplaced) = (ast.insertRoots exprs).unplaced := by
  induction exprs generalizing ast with
  | nil => rfl
  | cons expr exprs ih =>
    have head := insert_unplaced ast expr
    have further := ih ((ast.insert expr).2.pushRoot (ast.insert expr).1)
    rw [insertRoots] at further ⊢
    rw [List.map_cons, List.foldl_cons, head]
    exact further

/-- What is read does not depend on the spans. -/
theorem readWithin_unplaced (ast : Ast) (depth : Nat) :
    ast.unplaced.readWithin depth = ast.readWithin depth := by
  induction depth with
  | zero => rfl
  | succ depth ih =>
    funext handle
    simp only [readWithin, ih]
    rfl

/-- What is printed does not depend on the spans. -/
theorem renderRoots_unplaced (ast : Ast) : ast.unplaced.renderRoots = ast.renderRoots := by
  have printed : ast.unplaced.render = ast.render := by
    funext handle
    have read : ast.unplaced.read handle = ast.read handle :=
      congrFun (ast.readWithin_unplaced ast.depthLimit) handle
    rw [render, render, read]
  rw [renderRoots, renderRoots, printed]
  rfl

end Ast

namespace ProgramOutcome.Unplaced

variable {bare outcome : ProgramOutcome}

/-- The failures agree, or there is none. -/
theorem stop_cases (unplaced : bare.Unplaced outcome) :
    bare.stop = none ∧ outcome.stop = none ∨
      ∃ failure completed again others, bare.stop = some (failure, completed) ∧
        outcome.stop = some (again, others) ∧ failure.unplaced = again.unplaced ∧
        completed = others.map Expr.unplaced := by
  have same := unplaced.stop
  cases stop : outcome.stop with
  | none =>
    rw [stop, Option.map_none, Option.map_eq_none_iff] at same
    exact .inl ⟨same, rfl⟩
  | some found =>
    rw [stop, Option.map_some, Option.map_eq_some_iff] at same
    obtain ⟨⟨failure, completed⟩, there, pair⟩ := same
    obtain ⟨failures, trees⟩ := Prod.mk.inj pair
    exact .inr ⟨failure, completed, found.1, found.2, there, rfl, failures, trees⟩

/-- What was complete is the same. -/
theorem completed (unplaced : bare.Unplaced outcome) :
    bare.completed = outcome.completed.map Expr.unplaced := by
  rw [ProgramOutcome.completed, ProgramOutcome.completed]
  rcases unplaced.stop_cases with ⟨there, stop⟩ | ⟨_, _, _, _, there, stop, _, trees⟩
  · rw [there, stop]
    rfl
  · rw [there, stop]
    exact trees

/-- What is reported is the same. -/
theorem reports (unplaced : bare.Unplaced outcome) :
    bare.reports.map Diagnostic.unplaced = outcome.reports.map Diagnostic.unplaced := by
  rw [ProgramOutcome.reports, ProgramOutcome.reports]
  rcases unplaced.stop_cases with ⟨there, stop⟩ | ⟨_, _, _, _, there, stop, failures, _⟩
  · rw [there, stop]
  · rw [there, stop]
    exact congrArg Failure.reports failures

end ProgramOutcome.Unplaced

/-- The answer of a program without places. -/
def ProgramOutcome.answer (outcome : ProgramOutcome) : Except SyntaxError Unit :=
  match outcome.stop with
  | none => .ok ()
  | some (failure, _) => .error failure.unplaced.error

/-- The diagnostics of the parser, without their columns. -/
def DiagnosticLog.parserReports (log : DiagnosticLog) : List Diagnostic :=
  (log.entries.filter fun diagnostic => 2000 ≤ diagnostic.code).map Diagnostic.unplaced

/-- What the lexer reports is no diagnostic of the parser. -/
theorem problemInView_lexical (rest : List Token) :
    (problemInView rest).filter (fun diagnostic => 2000 ≤ diagnostic.code) = [] := by
  by_cases valid : ∀ token ∈ rest.head?, token.kind ≠ .invalid
  · rw [problemInView_valid valid, List.filter_nil]
  · push Not at valid
    obtain ⟨token, first, invalid⟩ := valid
    obtain ⟨report, problem, viewed⟩ := problemInView_invalid first invalid
    have code := problem.code
    have lexical : ¬ 2000 ≤ report.code := by
      simp only [List.mem_cons, List.not_mem_nil, or_false] at code
      omega
    rw [viewed, List.filter_cons_of_neg (by simpa using lexical), List.filter_nil]

namespace Source

variable {source : Source} {limit : Nat} {bare : ProgramOutcome}

/-- Parsing a source answers what its program does without places. -/
theorem answer_unplaced (unplaced : bare.Unplaced (source.outcome limit)) :
    (Session.start source limit).program.1.mapError SyntaxError.unplaced = bare.answer := by
  rw [ProgramOutcome.answer]
  rcases unplaced.stop_cases with ⟨there, stop⟩ | ⟨_, _, _, _, there, stop, failures, _⟩
  · have success := (Session.program_ok (Session.start source limit)).mpr stop
    rw [success, there]
    rfl
  · have stopped : (parseProgram _ _).stop = _ := stop
    rw [there]
    simp only [failures, Session.program, stopped]
    rfl

/-- A source leaves the store that its program leaves without places. -/
theorem ast_unplaced (unplaced : bare.Unplaced (source.outcome limit)) :
    (source.ast limit).unplaced =
      ((Ast.empty.insertRoots bare.roots).insertAll bare.completed).2 := by
  have stored : source.ast limit = ((Ast.empty.insertRoots (source.outcome limit).roots).insertAll
      (source.outcome limit).completed).2 := Session.program_ast _
  have roots := Ast.insertRoots_unplaced Ast.empty (source.outcome limit).roots
  rw [Ast.empty_unplaced] at roots
  rw [stored, unplaced.roots, unplaced.completed, roots, Ast.insertAll_unplaced]

/-- The parser reports of a source what its program does without places. -/
theorem reports_unplaced (unplaced : bare.Unplaced (source.outcome limit)) :
    (Session.start source limit).program.2.log.parserReports =
      (bare.reports.map Diagnostic.unplaced).filter fun diagnostic => 2000 ≤ diagnostic.code := by
  rw [DiagnosticLog.parserReports, source.log_entries, List.filter_append,
    problemInView_lexical, List.nil_append, unplaced.reports, List.filter_map]
  rfl

/-- Sources whose tokens agree in kind and text have one program without places. -/
theorem outcome_unplaced {one other : Source} (faces : one.faces = other.faces) (limit : Nat) :
    ∃ bare : ProgramOutcome, bare.Unplaced (one.outcome limit) ∧
      bare.Unplaced (other.outcome limit) := by
  have parsed (source : Source) : (parseProgram ⟨limit, .first⟩
      (source.tokenStream.tokens.map Token.unplaced)).Unplaced (source.outcome limit) := by
    have limits : (⟨limit, .first⟩ : ParseContext).limit =
      (Session.start source limit).context.limit := rfl
    exact parseProgram_unplaced limits _
  have second := parsed other
  rw [← Token.map_unplaced_of_faces faces] at second
  exact ⟨_, parsed one, second⟩

end Source

/-- The tree depends on the tokens and not on their layout. Parses of two sources whose tokens agree
in kind and text, under one limit, give the same answer, the same store and the same text, and the
parser reports the same; only the places in errors, spans and reports may differ. -/
theorem layout_does_not_matter (one other : Source) (limit : Nat)
    (faces : one.faces = other.faces) :
    (Session.start one limit).program.1.mapError SyntaxError.unplaced =
        (Session.start other limit).program.1.mapError SyntaxError.unplaced ∧
      (one.ast limit).unplaced = (other.ast limit).unplaced ∧
      (one.ast limit).renderRoots = (other.ast limit).renderRoots ∧
      (Session.start one limit).program.2.log.parserReports =
        (Session.start other limit).program.2.log.parserReports := by
  obtain ⟨bare, first, second⟩ := Source.outcome_unplaced faces limit
  have stores : (one.ast limit).unplaced = (other.ast limit).unplaced := by
    rw [Source.ast_unplaced first, Source.ast_unplaced second]
  refine ⟨?_, stores, ?_, ?_⟩
  · rw [Source.answer_unplaced first, Source.answer_unplaced second]
  · rw [← (one.ast limit).renderRoots_unplaced, stores, Ast.renderRoots_unplaced]
  · rw [Source.reports_unplaced first, Source.reports_unplaced second]

/-- A stray letter in the one source and a string without its closing quote in the other, with the
same text, stop the parse of a call alike, though the call stands on other lines. -/
theorem layout_of_malformed_call_does_not_matter :
    (⟨0, "one.sb", "f[0](x, é)"⟩ : Source).faces =
      (⟨1, "other.sb", "f [ 0 ] // call\n( x,\n \"é\n)"⟩ : Source).faces ∧
    (Session.start ⟨0, "one.sb", "f[0](x, é)"⟩ 8).program.1 = .error (.invalidToken ⟨1, 9⟩) ∧
    (Session.start ⟨1, "other.sb", "f [ 0 ] // call\n( x,\n \"é\n)"⟩ 8).program.1 =
      .error (.invalidToken ⟨3, 2⟩) ∧
    ((⟨0, "one.sb", "f[0](x, é)"⟩ : Source).ast 8).unplaced =
      ((⟨1, "other.sb", "f [ 0 ] // call\n( x,\n \"é\n)"⟩ : Source).ast 8).unplaced := by
  have faces : (⟨0, "one.sb", "f[0](x, é)"⟩ : Source).faces =
      (⟨1, "other.sb", "f [ 0 ] // call\n( x,\n \"é\n)"⟩ : Source).faces := by decide +kernel
  obtain ⟨_, stores, _⟩ := layout_does_not_matter _ _ 8 faces
  exact ⟨faces, by decide +kernel, by decide +kernel, stores⟩

end Cascade
