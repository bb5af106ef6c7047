import Cascade.Expr.Parser

/-!
# The parser as rules

What the parser does is written here as two sets of rules, one for its successes and one for its
failures. A rule says what a step does with the tokens in front of it, so a fact about all parses is
an induction on the rules. Every outcome of the parser comes from the rules, and the rules of
success give nothing the parser does not.
-/
namespace Cascade

variable {α β : Type}

/-- What a stretch of tokens is parsed as. -/
inductive Goal where
  /-- An expression that begins afresh. -/
  | expression
  /-- An expression at a tier. -/
  | tier (tier : Tier)
  /-- What a run of operators of the tier makes of its first operand. -/
  | run (tier : Tier) (lhs : Expr Span)
  /-- What a run of indices, calls and selectors makes of a target. -/
  | chain (target : Expr Span)
  /-- What one index, call or selector makes of a target. -/
  | link (target : Expr Span)
  /-- One argument or more, with commas between them. -/
  | arguments
  /-- A literal, a name or an expression in parentheses. -/
  | primary

/-- No token that would be accepted comes first. -/
def Lacks (accept : TokenKind → Option β) (tokens : List Token) : Prop :=
  ∀ token ∈ tokens.head?, accept token.kind = none

/-- The first token is not taken exactly if it is not accepted. -/
theorem take?_eq_none {accept : TokenKind → Option β} {tokens : List Token} :
    take? accept tokens = none ↔ Lacks accept tokens := by
  cases tokens <;> simp [take?, Lacks]

/-- A token that was taken is accepted as its value. -/
theorem take?_accepted {accept : TokenKind → Option β} {tokens : List Token}
    {taken : Taken β tokens} (found : take? accept tokens = some taken) :
    accept taken.token.kind = some taken.value := by
  cases tokens with
  | nil => cases found
  | cons token rest =>
    obtain ⟨value, accepted, rfl⟩ := Option.map_eq_some_iff.mp found
    exact accepted

/-- An accepted token is taken. -/
theorem take?_cons {accept : TokenKind → Option β} {token : Token} {rest : List Token} {value : β}
    (accepted : accept token.kind = some value) :
    take? accept (token :: rest) = some ⟨value, token, rest, rfl⟩ := by
  rw [take?, accepted, Option.map_some]

/-- Fewer tokens are left once one is taken. -/
theorem rest_lt {tokens rest : List Token} {token : Token} (same : tokens = token :: rest) :
    rest.length < tokens.length := by
  rw [same]
  exact Nat.lt_succ_self rest.length

/-- A mark is accepted as itself. -/
theorem acceptMark_eq_some {sign : Mark} {kind : TokenKind} {value : Unit} :
    acceptMark sign kind = some value ↔ kind = .mark sign := by
  simp [acceptMark]

/-- A mark that is asked for is taken. -/
theorem take?_mark {sign : Mark} {token : Token} {rest : List Token}
    (there : token.kind = .mark sign) :
    take? (acceptMark sign) (token :: rest) = some ⟨(), token, rest, rfl⟩ :=
  take?_cons (acceptMark_eq_some.mpr there)

/-- A token of the kind of a mark is the mark. -/
theorem Token.lexeme_of_mark {token : Token} {sign : Mark} (marked : token.kind = .mark sign) :
    token.lexeme = .mark sign := by
  unfold Token.kind Lexeme.kind at marked
  split at marked <;> cases marked
  assumption

/-- An operator between operands is accepted at its own tier. -/
theorem acceptBinary_eq_some {tier : Tier} {kind : TokenKind} {op : BinaryOp} :
    acceptBinary tier kind = some op ↔ kind.binaryOp? = some op ∧ op.tier = tier := by
  simp [acceptBinary, Option.filter_eq_some_iff]

/-- An operator before an operand is accepted at its own tier. -/
theorem acceptUnary_eq_some {tier : Tier} {kind : TokenKind} {op : UnaryOp} :
    acceptUnary tier kind = some op ↔ kind.unaryOp? = some op ∧ op.tier = tier := by
  simp [acceptUnary, Option.filter_eq_some_iff]

/-- The mark with which a target is continued. -/
def Continuation.mark : Continuation → Mark
  | .index => .openBracket
  | .call => .openParen
  | .selector => .dot

/-- A target is continued by three marks. -/
theorem acceptContinuation_eq_some {kind : TokenKind} {continuation : Continuation} :
    acceptContinuation kind = some continuation ↔ kind = .mark continuation.mark := by
  constructor
  · intro accepted
    unfold acceptContinuation at accepted
    split at accepted <;> cases accepted <;> rfl
  · rintro rfl
    cases continuation <;> rfl

/-- The expression that a token is on its own. -/
def Token.leaf? (token : Token) : Option (Expr Span) :=
  match token.lexeme with
  | .keyword .trueWord => some (.bool token.span true)
  | .keyword .falseWord => some (.bool token.span false)
  | .string content => some (.str token.span content)
  | .identifier name => some (.identifier token.span name)
  | .number digits => (decimalLong? digits).map (.int token.span)
  | _ => none

/-- The kinds of the tokens that may be an expression on their own. -/
def leafKinds : List TokenKind :=
  [.identifier, .number, .string, .keyword .trueWord, .keyword .falseWord]

/-- A primary may begin with a token of the kind. -/
def TokenKind.BeginsPrimary (kind : TokenKind) : Prop := kind = .mark .openParen ∨ kind ∈ leafKinds

/-- Whether a primary may begin so can be decided. -/
instance : DecidablePred TokenKind.BeginsPrimary := fun kind =>
  inferInstanceAs (Decidable (kind = .mark .openParen ∨ kind ∈ leafKinds))

/-- A token that is an expression on its own has one of these kinds. -/
theorem leaf?_kind {token : Token} {expr : Expr Span} (alone : token.leaf? = some expr) :
    token.kind ∈ leafKinds := by
  have same : token.kind = token.lexeme.kind := rfl
  unfold Token.leaf? at alone
  rw [same]
  split at alone
  · next written => rw [written]; decide
  · next written => rw [written]; decide
  · next written => rw [written]; show TokenKind.string ∈ leafKinds; decide
  · next written => rw [written]; show TokenKind.identifier ∈ leafKinds; decide
  · next written => rw [written]; show TokenKind.number ∈ leafKinds; decide
  · cases alone

/-- With so much room the goal takes up the tokens down to the rest and gives the values. All goals
but arguments give one value. -/
inductive Succeeds : Goal → Nat → List Token → List (Expr Span) → List Token → Prop where
  | expression {room : Nat} {tokens rest : List Token} {expr : Expr Span} :
    Succeeds (.tier .lowest) room tokens [expr] rest →
    Succeeds .expression (room + 1) tokens [expr] rest
  | primary {room : Nat} {tokens middle rest : List Token} {target expr : Expr Span} :
    Succeeds .primary room tokens [target] middle →
    Succeeds (.chain target) room middle [expr] rest →
    Succeeds (.tier .postfixChain) room tokens [expr] rest
  | unary {room : Nat} {token : Token} {op : UnaryOp} {tokens rest : List Token}
      {operand : Expr Span} :
    token.kind.unaryOp? = some op →
    Succeeds (.tier op.tier) room tokens [operand] rest →
    Succeeds (.tier op.tier) (room + 1) (token :: tokens) [.unary token.span op operand] rest
  | descend {tier : Tier} {room : Nat} {tokens middle rest : List Token} {lhs expr : Expr Span} :
    tier ≠ .postfixChain → Lacks (acceptUnary tier) tokens →
    Succeeds (.tier tier.tighter) room tokens [lhs] middle →
    Succeeds (.run tier lhs) room middle [expr] rest →
    Succeeds (.tier tier) room tokens [expr] rest
  | run_end {tier : Tier} {lhs : Expr Span} {room : Nat} {tokens : List Token} :
    Lacks (acceptBinary tier) tokens →
    Succeeds (.run tier lhs) room tokens [lhs] tokens
  | operator {room : Nat} {token : Token} {op : BinaryOp} {tokens middle rest : List Token}
      {lhs rhs expr : Expr Span} :
    token.kind.binaryOp? = some op →
    Succeeds (.tier op.tier.tighter) room tokens [rhs] middle →
    Succeeds (.run op.tier (.binary token.span op lhs rhs)) room middle [expr] rest →
    Succeeds (.run op.tier lhs) room (token :: tokens) [expr] rest
  | chain_end {target : Expr Span} {room : Nat} {tokens : List Token} :
    Lacks acceptContinuation tokens →
    Succeeds (.chain target) room tokens [target] tokens
  | chain_link {target next expr : Expr Span} {room : Nat} {tokens middle rest : List Token} :
    Succeeds (.link target) room tokens [next] middle →
    Succeeds (.chain next) room middle [expr] rest →
    Succeeds (.chain target) room tokens [expr] rest
  | index {target position : Expr Span} {room : Nat} {opener closer : Token}
      {tokens rest : List Token} :
    opener.kind = .mark .openBracket → closer.kind = .mark .closeBracket →
    Succeeds .expression room tokens [position] (closer :: rest) →
    Succeeds (.link target) room (opener :: tokens) [.index opener.span target position] rest
  | call_empty {target : Expr Span} {room : Nat} {opener closer : Token} {rest : List Token} :
    opener.kind = .mark .openParen → closer.kind = .mark .closeParen →
    Succeeds (.link target) room (opener :: closer :: rest) [.call opener.span target []] rest
  | call {target : Expr Span} {arguments : List (Expr Span)} {room : Nat} {opener closer : Token}
      {tokens rest : List Token} :
    opener.kind = .mark .openParen → closer.kind = .mark .closeParen →
    Lacks (acceptMark .closeParen) tokens →
    Succeeds .arguments room tokens arguments (closer :: rest) →
    Succeeds (.link target) room (opener :: tokens) [.call opener.span target arguments] rest
  | selector {target : Expr Span} {selector : Selector} {room : Nat} {dot token : Token}
      {rest : List Token} :
    dot.kind = .mark .dot → acceptSelector token.kind = some selector →
    Succeeds (.link target) room (dot :: token :: rest) [selected target dot token selector] rest
  | last_argument {argument : Expr Span} {room : Nat} {tokens rest : List Token} :
    Succeeds .expression room tokens [argument] rest → Lacks (acceptMark .comma) rest →
    Succeeds .arguments room tokens [argument] rest
  | argument {argument : Expr Span} {arguments : List (Expr Span)} {room : Nat} {comma : Token}
      {tokens middle rest : List Token} :
    Succeeds .expression room tokens [argument] (comma :: middle) → comma.kind = .mark .comma →
    Succeeds .arguments room middle arguments rest →
    Succeeds .arguments room tokens (argument :: arguments) rest
  | leaf {expr : Expr Span} {room : Nat} {token : Token} {rest : List Token} :
    token.leaf? = some expr →
    Succeeds .primary room (token :: rest) [expr] rest
  | group {expr : Expr Span} {room : Nat} {opener closer : Token} {tokens rest : List Token} :
    opener.kind = .mark .openParen → closer.kind = .mark .closeParen →
    Succeeds .expression room tokens [expr] (closer :: rest) →
    Succeeds .primary room (opener :: tokens) [expr] rest

/-- With so much room the goal fails at the rest of the tokens, after the expressions it gives. -/
inductive Fails (context : ParseContext) :
    Goal → Nat → List Token → Failure → List Token → List (Expr Span) → Prop where
  | too_deep {tokens : List Token} :
    Fails context .expression 0 tokens (.tooDeep context tokens) tokens []
  | expression {room : Nat} {tokens rest : List Token} {failure : Failure}
      {completed : List (Expr Span)} :
    Fails context (.tier .lowest) room tokens failure rest completed →
    Fails context .expression (room + 1) tokens failure rest completed
  | primary {room : Nat} {tokens rest : List Token} {failure : Failure}
      {completed : List (Expr Span)} :
    Fails context .primary room tokens failure rest completed →
    Fails context (.tier .postfixChain) room tokens failure rest completed
  | chain {room : Nat} {tokens middle rest : List Token} {target : Expr Span} {failure : Failure}
      {completed : List (Expr Span)} :
    Succeeds .primary room tokens [target] middle →
    Fails context (.chain target) room middle failure rest completed →
    Fails context (.tier .postfixChain) room tokens failure rest completed
  | unary_too_deep {token : Token} {op : UnaryOp} {tokens : List Token} :
    token.kind.unaryOp? = some op →
    Fails context (.tier op.tier) 0 (token :: tokens) (.tooDeep context tokens) tokens []
  | unary {room : Nat} {token : Token} {op : UnaryOp} {tokens rest : List Token}
      {failure : Failure} {completed : List (Expr Span)} :
    token.kind.unaryOp? = some op →
    Fails context (.tier op.tier) room tokens failure rest completed →
    Fails context (.tier op.tier) (room + 1) (token :: tokens) failure rest completed
  | descend {tier : Tier} {room : Nat} {tokens rest : List Token} {failure : Failure}
      {completed : List (Expr Span)} :
    tier ≠ .postfixChain → Lacks (acceptUnary tier) tokens →
    Fails context (.tier tier.tighter) room tokens failure rest completed →
    Fails context (.tier tier) room tokens failure rest completed
  | run {tier : Tier} {room : Nat} {tokens middle rest : List Token} {lhs : Expr Span}
      {failure : Failure} {completed : List (Expr Span)} :
    tier ≠ .postfixChain → Lacks (acceptUnary tier) tokens →
    Succeeds (.tier tier.tighter) room tokens [lhs] middle →
    Fails context (.run tier lhs) room middle failure rest completed →
    Fails context (.tier tier) room tokens failure rest completed
  | operand {room : Nat} {token : Token} {op : BinaryOp} {tokens rest : List Token}
      {lhs : Expr Span} {failure : Failure} {completed : List (Expr Span)} :
    token.kind.binaryOp? = some op →
    Fails context (.tier op.tier.tighter) room tokens failure rest completed →
    Fails context (.run op.tier lhs) room (token :: tokens) failure rest (lhs :: completed)
  | operator {room : Nat} {token : Token} {op : BinaryOp} {tokens middle rest : List Token}
      {lhs rhs : Expr Span} {failure : Failure} {completed : List (Expr Span)} :
    token.kind.binaryOp? = some op →
    Succeeds (.tier op.tier.tighter) room tokens [rhs] middle →
    Fails context (.run op.tier (.binary token.span op lhs rhs)) room middle failure rest
      completed →
    Fails context (.run op.tier lhs) room (token :: tokens) failure rest completed
  | link {target : Expr Span} {room : Nat} {tokens rest : List Token} {failure : Failure}
      {completed : List (Expr Span)} :
    Fails context (.link target) room tokens failure rest completed →
    Fails context (.chain target) room tokens failure rest completed
  | chain_link {target next : Expr Span} {room : Nat} {tokens middle rest : List Token}
      {failure : Failure} {completed : List (Expr Span)} :
    Succeeds (.link target) room tokens [next] middle →
    Fails context (.chain next) room middle failure rest completed →
    Fails context (.chain target) room tokens failure rest completed
  | index {target : Expr Span} {room : Nat} {opener : Token} {tokens rest : List Token}
      {failure : Failure} {completed : List (Expr Span)} :
    opener.kind = .mark .openBracket →
    Fails context .expression room tokens failure rest completed →
    Fails context (.link target) room (opener :: tokens) failure rest (target :: completed)
  | unclosed_index {target position : Expr Span} {room : Nat} {opener : Token}
      {tokens rest : List Token} :
    opener.kind = .mark .openBracket →
    Succeeds .expression room tokens [position] rest → Lacks (acceptMark .closeBracket) rest →
    Fails context (.link target) room (opener :: tokens)
      (.unclosed context .closeBracket opener rest) rest [target, position]
  | call {target : Expr Span} {room : Nat} {opener : Token} {tokens rest : List Token}
      {failure : Failure} {completed : List (Expr Span)} :
    opener.kind = .mark .openParen → Lacks (acceptMark .closeParen) tokens →
    Fails context .arguments room tokens failure rest completed →
    Fails context (.link target) room (opener :: tokens) failure rest (target :: completed)
  | unclosed_call {target : Expr Span} {arguments : List (Expr Span)} {room : Nat}
      {opener : Token} {tokens rest : List Token} :
    opener.kind = .mark .openParen → Lacks (acceptMark .closeParen) tokens →
    Succeeds .arguments room tokens arguments rest → Lacks (acceptMark .closeParen) rest →
    Fails context (.link target) room (opener :: tokens)
      (.unclosed context .closeParen opener rest) rest (target :: arguments)
  | selector {target : Expr Span} {room : Nat} {dot : Token} {tokens : List Token} :
    dot.kind = .mark .dot → Lacks acceptSelector tokens →
    Fails context (.link target) room (dot :: tokens) (.expectedSelector context tokens) tokens
      [target]
  | argument {room : Nat} {tokens rest : List Token} {failure : Failure}
      {completed : List (Expr Span)} :
    Fails context .expression room tokens failure rest completed →
    Fails context .arguments room tokens failure rest completed
  | later_argument {argument : Expr Span} {room : Nat} {comma : Token}
      {tokens middle rest : List Token} {failure : Failure} {completed : List (Expr Span)} :
    Succeeds .expression room tokens [argument] (comma :: middle) → comma.kind = .mark .comma →
    Fails context .arguments room middle failure rest completed →
    Fails context .arguments room tokens failure rest (argument :: completed)
  | no_primary {room : Nat} {tokens : List Token} :
    (∀ token ∈ tokens.head?, ¬ token.kind.BeginsPrimary) →
    Fails context .primary room tokens (.expectedExpression context tokens) tokens []
  | too_large {room : Nat} {token : Token} {digits : String} {rest : List Token} :
    token.lexeme = .number digits → decimalLong? digits = none →
    Fails context .primary room (token :: rest) (.integerTooLarge token digits) rest []
  | group {room : Nat} {opener : Token} {tokens rest : List Token} {failure : Failure}
      {completed : List (Expr Span)} :
    opener.kind = .mark .openParen →
    Fails context .expression room tokens failure rest completed →
    Fails context .primary room (opener :: tokens) failure rest completed
  | unclosed_group {expr : Expr Span} {room : Nat} {opener : Token} {tokens rest : List Token} :
    opener.kind = .mark .openParen →
    Succeeds .expression room tokens [expr] rest → Lacks (acceptMark .closeParen) rest →
    Fails context .primary room (opener :: tokens)
      (.unclosed context .closeParen opener rest) rest [expr]

/-! ## The parser follows the rules -/

/-- The outcome comes from the rules for the goal. -/
def Outcome.Follows (context : ParseContext) (goal : Goal) (room : Nat) (tokens : List Token)
    (values : α → List (Expr Span)) : Outcome α → Prop
  | .done value rest => Succeeds goal room tokens (values value) rest
  | .stuck failure rest completed => Fails context goal room tokens failure rest completed

/-- An outcome for one goal is one for another if the rules lead from the one to the other. -/
theorem Outcome.Follows.imp {context : ParseContext} {goal further : Goal} {room more : Nat}
    {tokens before : List Token} {values : α → List (Expr Span)} {outcome : Outcome α}
    (follows : outcome.Follows context goal room tokens values)
    (success : ∀ value rest, Succeeds goal room tokens (values value) rest →
      Succeeds further more before (values value) rest)
    (failure : ∀ failure rest completed,
      Fails context goal room tokens failure rest completed →
      Fails context further more before failure rest completed) :
    outcome.Follows context further more before values := by
  cases outcome with
  | done value rest => exact success value rest follows
  | stuck failed rest completed => exact failure failed rest completed follows

/-- The one value of an expression. -/
def single (expr : Expr Span) : List (Expr Span) := [expr]

/-- What a chain makes of the target that a link has made is what it makes of the first target. -/
theorem Outcome.Follows.of_link {context : ParseContext} {target next : Expr Span} {room : Nat}
    {before tokens : List Token} {outcome : Outcome (Expr Span)}
    (follows : outcome.Follows context (.chain next) room tokens single)
    (link : Succeeds (.link target) room before [next] tokens) :
    outcome.Follows context (.chain target) room before single := by
  cases outcome with
  | done expr rest => exact .chain_link link follows
  | stuck failure rest completed => exact .chain_link link follows

mutual

/-- An expression that begins afresh is parsed by the rules. -/
theorem parseExpression_follows (context : ParseContext) (room : Nat) (tokens : List Token) :
    (parseExpression context room tokens).1.Follows context .expression room tokens single := by
  cases room with
  | zero => rw [parseExpression]; exact .too_deep
  | succ room =>
    rw [parseExpression]
    apply (parseTier_follows context .lowest room tokens).imp
    · exact fun _ _ succeeds => .expression succeeds
    · exact fun _ _ _ fails => .expression fails
termination_by 16 * tokens.length + 14

/-- An expression at a tier is parsed by the rules. -/
theorem parseTier_follows (context : ParseContext) (tier : Tier) (room : Nat)
    (tokens : List Token) :
    (parseTier context tier room tokens).1.Follows context (.tier tier) room tokens single := by
  rw [parseTier]
  split
  · next inner =>
    have bounded := Tier.rank_le tier
    subst inner
    have first := parsePrimary_follows context room tokens
    split
    · next stuck => rw [stuck] at first; exact .primary first
    · next target rest shorter parsed =>
      have fewer : rest.length < tokens.length := shorter
      rw [parsed] at first
      apply (parseChain_follows context room target tokens.length rest shorter).imp
      · exact fun _ _ succeeds => .primary first succeeds
      · exact fun _ _ _ fails => .chain first fails
  · next outer =>
    split
    · next op token operandTokens same found =>
      obtain ⟨unary, placed⟩ := acceptUnary_eq_some.mp (take?_accepted found)
      have fewer := rest_lt same
      subst same placed
      split
      · exact .unary_too_deep unary
      · next room =>
        have operand := parseTier_follows context op.tier room operandTokens
        split
        · next stuck => rw [stuck] at operand; exact .unary unary operand
        · next parsed => rw [parsed] at operand; exact .unary unary operand
    · next absent =>
      have lacks := take?_eq_none.mp absent
      have looser := Tier.rank_tighter outer
      have bounded := Tier.rank_le tier.tighter
      have first := parseTier_follows context tier.tighter room tokens
      split
      · next stuck => rw [stuck] at first; exact .descend outer lacks first
      · next lhs rest shorter parsed =>
        have fewer : rest.length < tokens.length := shorter
        rw [parsed] at first
        apply (parseRun_follows context tier room lhs tokens.length rest shorter).imp
        · exact fun _ _ succeeds => .descend outer lacks first succeeds
        · exact fun _ _ _ fails => .run outer lacks first fails
termination_by 16 * tokens.length + (12 - tier.rank)

/-- A run of operators is parsed by the rules. -/
theorem parseRun_follows (context : ParseContext) (tier : Tier) (room : Nat) (lhs : Expr Span)
    (bound : Nat) (tokens : List Token) (within : tokens.length < bound) :
    (parseRun context tier room lhs bound tokens within).1.Follows context (.run tier lhs) room
      tokens single := by
  rw [parseRun]
  split
  · next absent => exact .run_end (take?_eq_none.mp absent)
  · next op token operandTokens same found =>
    obtain ⟨binary, placed⟩ := acceptBinary_eq_some.mp (take?_accepted found)
    have fewer := rest_lt same
    subst same placed
    have operand := parseTier_follows context op.tier.tighter room operandTokens
    split
    · next stuck => rw [stuck] at operand; exact .operand binary operand
    · next rhs rest shorter parsed =>
      have left : rest.length < operandTokens.length := shorter
      rw [parsed] at operand
      apply (parseRun_follows context op.tier room (.binary token.span op lhs rhs) bound rest _).imp
      · exact fun _ _ succeeds => .operator binary operand succeeds
      · exact fun _ _ _ fails => .operator binary operand fails
termination_by 16 * tokens.length

/-- A run of indices, calls and selectors is parsed by the rules. -/
theorem parseChain_follows (context : ParseContext) (room : Nat) (target : Expr Span) (bound : Nat)
    (tokens : List Token) (within : tokens.length < bound) :
    (parseChain context room target bound tokens within).1.Follows context (.chain target) room
      tokens single := by
  rw [parseChain]
  split
  · next absent => exact .chain_end (take?_eq_none.mp absent)
  · next opener inside same found =>
    have opens := acceptContinuation_eq_some.mp (take?_accepted found)
    have fewer := rest_lt same
    subst same
    have position := parseExpression_follows context room inside
    split
    · next stuck => rw [stuck] at position; exact .link (.index opens position)
    · next index closing shorter parsed =>
      rw [parsed] at position
      split
      · next absent => exact .link (.unclosed_index opens position (take?_eq_none.mp absent))
      · next closer rest closed found =>
        have closes := acceptMark_eq_some.mp (take?_accepted found)
        have left : rest.length < inside.length := Nat.lt_trans (rest_lt closed) shorter
        subst closed
        have link : Succeeds (.link target) room (opener :: inside)
            [.index opener.span target index] rest := .index opens closes position
        exact (parseChain_follows context room _ bound rest _).of_link link
  · next opener inside same found =>
    have opens := acceptContinuation_eq_some.mp (take?_accepted found)
    have fewer := rest_lt same
    subst same
    split
    · next closer rest closed found =>
      have closes := acceptMark_eq_some.mp (take?_accepted found)
      have left := rest_lt closed
      subst closed
      have link : Succeeds (.link target) room (opener :: closer :: rest)
          [.call opener.span target []] rest := .call_empty opens closes
      exact (parseChain_follows context room _ bound rest _).of_link link
    · next absent =>
      have more := take?_eq_none.mp absent
      have given := parseArguments_follows context room inside
      split
      · next stuck => rw [stuck] at given; exact .link (.call opens more given)
      · next arguments closing shorter parsed =>
        rw [parsed] at given
        split
        · next absent => exact .link (.unclosed_call opens more given (take?_eq_none.mp absent))
        · next closer rest closed found =>
          have closes := acceptMark_eq_some.mp (take?_accepted found)
          have left : rest.length < inside.length := Nat.lt_trans (rest_lt closed) shorter
          subst closed
          have link : Succeeds (.link target) room (opener :: inside)
              [.call opener.span target arguments] rest := .call opens closes more given
          exact (parseChain_follows context room _ bound rest _).of_link link
  · next dot following same found =>
    have dotted := acceptContinuation_eq_some.mp (take?_accepted found)
    have fewer := rest_lt same
    subst same
    split
    · next absent => exact .link (.selector dotted (take?_eq_none.mp absent))
    · next selector token rest taken found =>
      have left := rest_lt taken
      subst taken
      have link : Succeeds (.link target) room (dot :: token :: rest)
          [selected target dot token selector] rest := .selector dotted (take?_accepted found)
      exact (parseChain_follows context room _ bound rest _).of_link link
termination_by 16 * tokens.length

/-- Arguments are parsed by the rules. -/
theorem parseArguments_follows (context : ParseContext) (room : Nat) (tokens : List Token) :
    (parseArguments context room tokens).1.Follows context .arguments room tokens id := by
  rw [parseArguments]
  have first := parseExpression_follows context room tokens
  split
  · next stuck => rw [stuck] at first; exact .argument first
  · next argument following shorter parsed =>
    rw [parsed] at first
    split
    · next absent => exact .last_argument first (take?_eq_none.mp absent)
    · next comma later same found =>
      have separates := acceptMark_eq_some.mp (take?_accepted found)
      have fewer : later.length < tokens.length := Nat.lt_trans (rest_lt same) shorter
      subst same
      have others := parseArguments_follows context room later
      split
      · next stuck => rw [stuck] at others; exact .later_argument first separates others
      · next parsed => rw [parsed] at others; exact .argument first separates others
termination_by 16 * tokens.length + 15

/-- A primary is parsed by the rules. -/
theorem parsePrimary_follows (context : ParseContext) (room : Nat) (tokens : List Token) :
    (parsePrimary context room tokens).1.Follows context .primary room tokens single := by
  cases tokens with
  | nil => rw [parsePrimary]; exact .no_primary nofun
  | cons token rest =>
    rw [parsePrimary.eq_2]
    split
    · next written => exact .leaf (by rw [Token.leaf?, written])
    · next written => exact .leaf (by rw [Token.leaf?, written])
    · next content written => exact .leaf (by rw [Token.leaf?, written])
    · next name written => exact .leaf (by rw [Token.leaf?, written])
    · next digits written =>
      split
      · next value small =>
        exact .leaf (by simp only [Token.leaf?, written, small, Option.map_some])
      · next large => exact .too_large written large
    · next written =>
      have opens : token.kind = .mark .openParen := congrArg Lexeme.kind written
      have inside := parseExpression_follows context room rest
      split
      · next stuck => rw [stuck] at inside; exact .group opens inside
      · next inner closing shorter parsed =>
        rw [parsed] at inside
        split
        · next absent => exact .unclosed_group opens inside (take?_eq_none.mp absent)
        · next closer left closed found =>
          subst closed
          exact .group opens (acceptMark_eq_some.mp (take?_accepted found)) inside
    · next noTrue noFalse noString noName noNumber noGroup =>
      apply Fails.no_primary
      intro first found
      cases found
      have same : token.kind = token.lexeme.kind := rfl
      rw [same]
      cases written : token.lexeme with
      | mark sign => cases sign <;> first | decide | exact absurd written noGroup
      | keyword word =>
        cases word <;> first | decide | exact absurd written noTrue | exact absurd written noFalse
      | identifier name => exact absurd written (noName name)
      | number digits => exact absurd written (noNumber digits)
      | string content => exact absurd written (noString content)
      | unterminated content => show ¬ TokenKind.BeginsPrimary .invalid; decide
      | stray character => show ¬ TokenKind.BeginsPrimary .invalid; decide
termination_by 16 * tokens.length

end

/-- The parser, asked for the goal, takes up the tokens down to the rest and gives the values. A
link is parsed if the chain goes on behind it. -/
def Goal.Parses (context : ParseContext) (room : Nat) (tokens : List Token)
    (values : List (Expr Span)) (rest : List Token) : Goal → Prop
  | .expression => ∃ expr left, values = [expr] ∧
      parseExpression context room tokens = ⟨.done expr rest, left⟩
  | .tier loosest => ∃ expr left, values = [expr] ∧
      parseTier context loosest room tokens = ⟨.done expr rest, left⟩
  | .run common lhs => ∃ expr, values = [expr] ∧ ∀ bound within, ∃ left,
      parseRun context common room lhs bound tokens within = ⟨.done expr rest, left⟩
  | .chain target => ∃ expr, values = [expr] ∧ ∀ bound within, ∃ left,
      parseChain context room target bound tokens within = ⟨.done expr rest, left⟩
  | .link target => ∃ next, values = [next] ∧ ∀ bound within, ∃ left,
      parseChain context room target bound tokens within =
        parseChain context room next bound rest left
  | .arguments => ∃ left, parseArguments context room tokens = ⟨.done values rest, left⟩
  | .primary => ∃ expr left, values = [expr] ∧
      parsePrimary context room tokens = ⟨.done expr rest, left⟩

/-- A leaf is parsed as itself. -/
theorem parsePrimary_leaf (context : ParseContext) (room : Nat) {token : Token} {rest : List Token}
    {expr : Expr Span} (alone : token.leaf? = some expr) :
    ∃ left, parsePrimary context room (token :: rest) = ⟨.done expr rest, left⟩ := by
  refine ⟨Nat.lt_succ_self _, ?_⟩
  rw [parsePrimary.eq_2]
  unfold Token.leaf? at alone
  split at alone
  · next written => cases alone; simp only [written]
  · next written => cases alone; simp only [written]
  · next written => cases alone; simp only [written]
  · next written => cases alone; simp only [written]
  · next digits written =>
    obtain ⟨value, small, rfl⟩ := Option.map_eq_some_iff.mp alone
    simp only [written]
    split
    · next found => rw [small] at found; cases found; rfl
    · next absent => rw [small] at absent; cases absent
  · cases alone

section Steps

variable {context : ParseContext} {room bound : Nat} {token opener closer : Token}
  {tokens middle rest : List Token} {target lhs rhs : Expr Span}

/-- An operator before an operand has a tier of its own. -/
theorem UnaryOp.tier_outer (op : UnaryOp) : op.tier ≠ .postfixChain := by
  cases op <;> decide

/-- At the tightest tier the links behind a primary are parsed. -/
theorem parseTier_links {shorter : rest.length < tokens.length}
    (parsed : parsePrimary context room tokens = ⟨.done target rest, shorter⟩) :
    parseTier context .postfixChain room tokens =
      parseChain context room target tokens.length rest shorter := by
  rw [parseTier, dif_pos rfl, parsed]

/-- At the tier of an operator before an operand the operand is parsed a level deeper. -/
theorem parseTier_unary {op : UnaryOp} (found : token.kind.unaryOp? = some op)
    {shorter : rest.length < tokens.length}
    (parsed : parseTier context op.tier room tokens = ⟨.done target rest, shorter⟩) :
    parseTier context op.tier (room + 1) (token :: tokens) =
      ⟨.done (.unary token.span op target) rest, Nat.lt_succ_of_lt shorter⟩ := by
  rw [parseTier, dif_neg op.tier_outer, take?_cons (acceptUnary_eq_some.mpr ⟨found, rfl⟩)]
  dsimp only
  rw [parsed]

/-- At the other tiers the operators behind a first operand are parsed. -/
theorem parseTier_operators {tier : Tier} (outer : tier ≠ .postfixChain)
    (lacks : Lacks (acceptUnary tier) tokens) {shorter : rest.length < tokens.length}
    (parsed : parseTier context tier.tighter room tokens = ⟨.done lhs rest, shorter⟩) :
    parseTier context tier room tokens =
      parseRun context tier room lhs tokens.length rest shorter := by
  rw [parseTier, dif_neg outer, take?_eq_none.mpr lacks]
  dsimp only
  rw [parsed]

/-- Behind an operator and its operand the other operators are parsed. -/
theorem parseRun_operator {op : BinaryOp} (found : token.kind.binaryOp? = some op)
    {shorter : rest.length < tokens.length}
    (parsed : parseTier context op.tier.tighter room tokens = ⟨.done rhs rest, shorter⟩)
    (within : (token :: tokens).length < bound) :
    ∃ left, parseRun context op.tier room lhs bound (token :: tokens) within =
      parseRun context op.tier room (.binary token.span op lhs rhs) bound rest left := by
  refine ⟨Nat.lt_trans (Nat.lt_succ_of_lt shorter) within, ?_⟩
  rw [parseRun, take?_cons (acceptBinary_eq_some.mpr ⟨found, rfl⟩)]
  dsimp only
  rw [parsed]

/-- Behind an index that is closed the other links are parsed. -/
theorem parseChain_index {position : Expr Span} (opens : opener.kind = .mark .openBracket)
    (closes : closer.kind = .mark .closeBracket)
    {shorter : (closer :: rest).length < tokens.length}
    (parsed : parseExpression context room tokens = ⟨.done position (closer :: rest), shorter⟩)
    (within : (opener :: tokens).length < bound) :
    ∃ left, parseChain context room target bound (opener :: tokens) within =
      parseChain context room (.index opener.span target position) bound rest left := by
  have continues : acceptContinuation opener.kind = some .index :=
    acceptContinuation_eq_some.mpr opens
  rw [parseChain, take?_cons continues]
  dsimp only
  rw [parsed]
  dsimp only
  rw [take?_mark closes]
  exact ⟨_, rfl⟩

/-- Behind a call without arguments the other links are parsed. -/
theorem parseChain_call_empty (opens : opener.kind = .mark .openParen)
    (closes : closer.kind = .mark .closeParen)
    (within : (opener :: closer :: rest).length < bound) :
    ∃ left, parseChain context room target bound (opener :: closer :: rest) within =
      parseChain context room (.call opener.span target []) bound rest left := by
  have continues : acceptContinuation opener.kind = some .call :=
    acceptContinuation_eq_some.mpr opens
  rw [parseChain, take?_cons continues]
  dsimp only
  rw [take?_mark closes]
  exact ⟨_, rfl⟩

/-- Behind a call with arguments that is closed the other links are parsed. -/
theorem parseChain_call {arguments : List (Expr Span)} (opens : opener.kind = .mark .openParen)
    (closes : closer.kind = .mark .closeParen) (more : Lacks (acceptMark .closeParen) tokens)
    {shorter : (closer :: rest).length < tokens.length}
    (parsed : parseArguments context room tokens = ⟨.done arguments (closer :: rest), shorter⟩)
    (within : (opener :: tokens).length < bound) :
    ∃ left, parseChain context room target bound (opener :: tokens) within =
      parseChain context room (.call opener.span target arguments) bound rest left := by
  have continues : acceptContinuation opener.kind = some .call :=
    acceptContinuation_eq_some.mpr opens
  rw [parseChain, take?_cons continues]
  dsimp only
  rw [take?_eq_none.mpr more]
  dsimp only
  rw [parsed]
  dsimp only
  rw [take?_mark closes]
  exact ⟨_, rfl⟩

/-- Behind a selector the other links are parsed. -/
theorem parseChain_selector {dot : Token} {selector : Selector} (dotted : dot.kind = .mark .dot)
    (accepted : acceptSelector token.kind = some selector)
    (within : (dot :: token :: rest).length < bound) :
    ∃ left, parseChain context room target bound (dot :: token :: rest) within =
      parseChain context room (selected target dot token selector) bound rest left := by
  have continues : acceptContinuation dot.kind = some .selector :=
    acceptContinuation_eq_some.mpr dotted
  rw [parseChain, take?_cons continues]
  dsimp only
  rw [take?_cons accepted]
  exact ⟨_, rfl⟩

/-- Behind an argument and a comma the other arguments are parsed. -/
theorem parseArguments_comma {argument : Expr Span} {arguments : List (Expr Span)} {comma : Token}
    (separates : comma.kind = .mark .comma) {shorter : (comma :: middle).length < tokens.length}
    (parsed : parseExpression context room tokens = ⟨.done argument (comma :: middle), shorter⟩)
    {fewer : rest.length < middle.length}
    (later : parseArguments context room middle = ⟨.done arguments rest, fewer⟩) :
    ∃ left, parseArguments context room tokens = ⟨.done (argument :: arguments) rest, left⟩ := by
  refine ⟨Nat.lt_trans fewer (Nat.lt_trans (Nat.lt_succ_self _) shorter), ?_⟩
  rw [parseArguments, parsed]
  dsimp only
  rw [take?_mark separates]
  dsimp only
  rw [later]

/-- A primary that is a group is the expression between its parentheses. -/
theorem parsePrimary_group {expr : Expr Span} (opens : opener.kind = .mark .openParen)
    (closes : closer.kind = .mark .closeParen)
    {shorter : (closer :: rest).length < tokens.length}
    (parsed : parseExpression context room tokens = ⟨.done expr (closer :: rest), shorter⟩) :
    ∃ left, parsePrimary context room (opener :: tokens) = ⟨.done expr rest, left⟩ := by
  refine ⟨Nat.lt_succ_of_lt (Nat.lt_trans (Nat.lt_succ_self _) shorter), ?_⟩
  rw [parsePrimary.eq_2]
  simp only [Token.lexeme_of_mark opens]
  rw [parsed]
  dsimp only
  rw [take?_mark closes]

end Steps

/-- What the rules of success give is what the parser gives. -/
theorem Succeeds.parses (context : ParseContext) {goal : Goal} {room : Nat}
    {tokens rest : List Token} {values : List (Expr Span)}
    (succeeds : Succeeds goal room tokens values rest) :
    goal.Parses context room tokens values rest := by
  induction succeeds with
  | expression _ ih =>
    obtain ⟨expr, left, single, parsed⟩ := ih
    refine ⟨expr, left, single, ?_⟩
    rw [parseExpression, parsed]
  | primary _ _ first chain =>
    obtain ⟨_, shorter, ⟨⟩, parsed⟩ := first
    obtain ⟨expr, single, chained⟩ := chain
    obtain ⟨left, chained⟩ := chained _ shorter
    exact ⟨expr, left, single, (parseTier_links parsed).trans chained⟩
  | unary found _ ih =>
    obtain ⟨_, shorter, ⟨⟩, parsed⟩ := ih
    exact ⟨_, Nat.lt_succ_of_lt shorter, rfl, parseTier_unary found parsed⟩
  | descend outer lacks _ _ first run =>
    obtain ⟨_, shorter, ⟨⟩, parsed⟩ := first
    obtain ⟨expr, single, folded⟩ := run
    obtain ⟨left, folded⟩ := folded _ shorter
    exact ⟨expr, left, single, (parseTier_operators outer lacks parsed).trans folded⟩
  | run_end lacks =>
    refine ⟨_, rfl, fun bound within => ⟨within, ?_⟩⟩
    rw [parseRun, take?_eq_none.mpr lacks]
  | operator found _ _ operand run =>
    obtain ⟨_, _, ⟨⟩, parsed⟩ := operand
    obtain ⟨expr, single, folded⟩ := run
    refine ⟨expr, single, fun bound within => ?_⟩
    obtain ⟨left, same⟩ := parseRun_operator found parsed within
    rw [same]
    exact folded bound left
  | chain_end lacks =>
    refine ⟨_, rfl, fun bound within => ⟨within, ?_⟩⟩
    rw [parseChain, take?_eq_none.mpr lacks]
  | chain_link _ _ link chain =>
    obtain ⟨_, ⟨⟩, linked⟩ := link
    obtain ⟨expr, single, chained⟩ := chain
    refine ⟨expr, single, fun bound within => ?_⟩
    obtain ⟨left, same⟩ := linked bound within
    rw [same]
    exact chained bound left
  | index opens closes _ ih =>
    obtain ⟨_, _, ⟨⟩, parsed⟩ := ih
    exact ⟨_, rfl, fun _ within => parseChain_index opens closes parsed within⟩
  | call_empty opens closes =>
    exact ⟨_, rfl, fun _ within => parseChain_call_empty opens closes within⟩
  | call opens closes more _ ih =>
    obtain ⟨_, parsed⟩ := ih
    exact ⟨_, rfl, fun _ within => parseChain_call opens closes more parsed within⟩
  | selector dotted accepted =>
    exact ⟨_, rfl, fun _ within => parseChain_selector dotted accepted within⟩
  | last_argument _ lacks ih =>
    obtain ⟨_, shorter, ⟨⟩, parsed⟩ := ih
    refine ⟨shorter, ?_⟩
    rw [parseArguments, parsed]
    dsimp only
    rw [take?_eq_none.mpr lacks]
  | argument _ separates _ first others =>
    obtain ⟨_, _, ⟨⟩, parsed⟩ := first
    obtain ⟨_, later⟩ := others
    exact parseArguments_comma separates parsed later
  | leaf alone =>
    obtain ⟨left, parsed⟩ := parsePrimary_leaf context _ alone
    exact ⟨_, left, rfl, parsed⟩
  | group opens closes _ ih =>
    obtain ⟨_, _, ⟨⟩, parsed⟩ := ih
    obtain ⟨left, grouped⟩ := parsePrimary_group opens closes parsed
    exact ⟨_, left, rfl, grouped⟩

end Cascade
