import Cascade.Proofs.Program

/-!
# The parser looks one token ahead

A step of the parser sees the tokens it uses up, none of them invalid, and the first token behind
them. So what it made of the tokens it used up it makes of them wherever they stand before a token
like the one it saw, and with more room for nesting as well, unless the room was what it failed for.
-/
namespace Cascade

variable {context : ParseContext} {goal : Goal} {room : Nat} {tokens rest : List Token}
  {values completed : List (Expr Span)} {failure : Failure}

/-- The tokens are used up down to the rest, and none of those that are is invalid. -/
def UsesUp (tokens rest : List Token) : Prop :=
  ∃ used, tokens = used ++ rest ∧ ∀ token ∈ used, token.kind ≠ .invalid

namespace UsesUp

variable {token : Token} {middle : List Token}

/-- Nothing may be used up. -/
theorem refl (tokens : List Token) : UsesUp tokens tokens := ⟨[], rfl, nofun⟩

/-- A valid token is used up before others. -/
theorem cons (valid : token.kind ≠ .invalid) (later : UsesUp tokens rest) :
    UsesUp (token :: tokens) rest := by
  obtain ⟨used, rfl, each⟩ := later
  exact ⟨token :: used, rfl, List.forall_mem_cons.mpr ⟨valid, each⟩⟩

/-- Tokens are used up one stretch after the other. -/
theorem trans (first : UsesUp tokens middle) (later : UsesUp middle rest) :
    UsesUp tokens rest := by
  obtain ⟨used, rfl, each⟩ := first
  obtain ⟨behind, rfl, others⟩ := later
  refine ⟨used ++ behind, (List.append_assoc ..).symm, ?_⟩
  exact List.forall_mem_append.mpr ⟨each, others⟩

/-- A valid token behind tokens that are used up is used up with them. -/
theorem next (first : UsesUp tokens (token :: rest)) (valid : token.kind ≠ .invalid) :
    UsesUp tokens rest :=
  first.trans (cons valid (refl rest))

end UsesUp

/-- A token that is accepted is valid if invalid tokens are not. -/
theorem valid_of_accepted {β : Type} {accept : TokenKind → Option β} {token : Token} {value : β}
    (accepted : accept token.kind = some value) (refused : accept .invalid = none) :
    token.kind ≠ .invalid := by
  intro invalid
  rw [invalid, refused] at accepted
  cases accepted

/-- A mark is valid. -/
theorem valid_of_mark {token : Token} {sign : Mark} (marked : token.kind = .mark sign) :
    token.kind ≠ .invalid := by
  rw [marked]
  nofun

/-- A token that is an expression on its own is valid. -/
theorem valid_of_leaf {token : Token} {expr : Expr Span} (alone : token.leaf? = some expr) :
    token.kind ≠ .invalid := by
  intro invalid
  have leaf := leaf?_kind alone
  rw [invalid] at leaf
  exact absurd leaf (by decide)

/-- A success uses up valid tokens only. -/
theorem Succeeds.usesUp (succeeds : Succeeds goal room tokens values rest) :
    UsesUp tokens rest := by
  induction succeeds with
  | expression _ ih => exact ih
  | primary _ _ first chain => exact first.trans chain
  | unary found _ ih => exact ih.cons (valid_of_accepted found rfl)
  | descend _ _ _ _ first run => exact first.trans run
  | run_end _ => exact .refl _
  | operator found _ _ operand run =>
    exact (operand.trans run).cons (valid_of_accepted found rfl)
  | chain_end _ => exact .refl _
  | chain_link _ _ link chain => exact link.trans chain
  | index opens closes _ ih => exact (ih.next (valid_of_mark closes)).cons (valid_of_mark opens)
  | call_empty opens closes =>
    exact ((UsesUp.refl _).cons (valid_of_mark closes)).cons (valid_of_mark opens)
  | call opens closes _ _ ih => exact (ih.next (valid_of_mark closes)).cons (valid_of_mark opens)
  | selector dotted accepted =>
    exact ((UsesUp.refl _).cons (valid_of_accepted accepted rfl)).cons (valid_of_mark dotted)
  | last_argument _ _ ih => exact ih
  | argument _ separates _ first others =>
    exact (first.next (valid_of_mark separates)).trans others
  | leaf alone => exact (UsesUp.refl _).cons (valid_of_leaf alone)
  | group opens closes _ ih => exact (ih.next (valid_of_mark closes)).cons (valid_of_mark opens)

/-- A failure uses up valid tokens only. -/
theorem Fails.usesUp (fails : Fails context goal room tokens failure rest completed) :
    UsesUp tokens rest := by
  induction fails with
  | too_deep => exact .refl _
  | expression _ ih => exact ih
  | primary _ ih => exact ih
  | chain parsed _ ih => exact parsed.usesUp.trans ih
  | unary_too_deep found => exact (UsesUp.refl _).cons (valid_of_accepted found rfl)
  | unary found _ ih => exact ih.cons (valid_of_accepted found rfl)
  | descend _ _ _ ih => exact ih
  | run _ _ parsed _ ih => exact parsed.usesUp.trans ih
  | operand found _ ih => exact ih.cons (valid_of_accepted found rfl)
  | operator found parsed _ ih =>
    exact (parsed.usesUp.trans ih).cons (valid_of_accepted found rfl)
  | link _ ih => exact ih
  | chain_link linked _ ih => exact linked.usesUp.trans ih
  | index opens _ ih => exact ih.cons (valid_of_mark opens)
  | unclosed_index opens parsed _ => exact parsed.usesUp.cons (valid_of_mark opens)
  | call opens _ _ ih => exact ih.cons (valid_of_mark opens)
  | unclosed_call opens _ parsed _ => exact parsed.usesUp.cons (valid_of_mark opens)
  | selector dotted _ => exact (UsesUp.refl _).cons (valid_of_mark dotted)
  | argument _ ih => exact ih
  | later_argument parsed separates _ ih =>
    exact (parsed.usesUp.next (valid_of_mark separates)).trans ih
  | no_primary _ => exact .refl _
  | @too_large _ token digits _ written _ =>
    have number : token.kind = .number := congrArg Lexeme.kind written
    exact (UsesUp.refl _).cons (by rw [number]; nofun)
  | group opens _ ih => exact ih.cons (valid_of_mark opens)
  | unclosed_group opens parsed _ => exact parsed.usesUp.cons (valid_of_mark opens)

/-- The parser, asked for the goal, stops at the rest of the tokens with the failure and with what
was complete by then. -/
def Goal.Stops (context : ParseContext) (room : Nat) (tokens : List Token) (failure : Failure)
    (rest : List Token) (completed : List (Expr Span)) : Goal → Prop
  | .expression => parseExpression context room tokens = ⟨.stuck failure rest completed, trivial⟩
  | .tier loosest => parseTier context loosest room tokens =
      ⟨.stuck failure rest completed, trivial⟩
  | .run common lhs => ∀ bound within, parseRun context common room lhs bound tokens within =
      ⟨.stuck failure rest completed, trivial⟩
  | .chain target | .link target => ∀ bound within,
      parseChain context room target bound tokens within = ⟨.stuck failure rest completed, trivial⟩
  | .arguments => parseArguments context room tokens = ⟨.stuck failure rest completed, trivial⟩
  | .primary => parsePrimary context room tokens = ⟨.stuck failure rest completed, trivial⟩

/-- Where no primary begins the parser expects an expression. -/
theorem parsePrimary_none (context : ParseContext) (room : Nat)
    (none : ∀ token ∈ tokens.head?, ¬ token.kind.BeginsPrimary) :
    parsePrimary context room tokens =
      ⟨.stuck (.expectedExpression context tokens) tokens [], trivial⟩ := by
  cases tokens with
  | nil => rw [parsePrimary]
  | cons token rest =>
    have other := none token rfl
    have same : token.kind = token.lexeme.kind := rfl
    rw [parsePrimary.eq_2]
    split <;> first
      | rfl
      | next written => rw [same, written] at other; exact absurd (by decide) other
      | next written =>
        rw [same, written] at other
        exact absurd (.inr (by simp [Lexeme.kind, leafKinds])) other

/-- A number that is too large stops the parser behind it. -/
theorem parsePrimary_large (context : ParseContext) (room : Nat) {token : Token} {digits : String}
    (written : token.lexeme = .number digits) (large : decimalLong? digits = none) :
    parsePrimary context room (token :: rest) =
      ⟨.stuck (.integerTooLarge token digits) rest [], trivial⟩ := by
  rw [parsePrimary.eq_2]
  simp only [written]
  split
  · next found => rw [large] at found; cases found
  · rfl

section Steps

variable {bound : Nat} {token opener : Token} {target position : Expr Span}
  {arguments : List (Expr Span)}

/-- An operator before an operand stops the parser where its operand does. -/
theorem parseTier_unary_stuck {op : UnaryOp} (found : token.kind.unaryOp? = some op)
    (stuck : parseTier context op.tier room tokens = ⟨.stuck failure rest completed, trivial⟩) :
    parseTier context op.tier (room + 1) (token :: tokens) =
      ⟨.stuck failure rest completed, trivial⟩ := by
  rw [parseTier, dif_neg op.tier_outer, take?_cons (acceptUnary_eq_some.mpr ⟨found, rfl⟩)]
  dsimp only
  rw [stuck]

/-- A first operand stops the parser at its tier. -/
theorem parseTier_operand_stuck {tier : Tier} (outer : tier ≠ .postfixChain)
    (lacks : Lacks (acceptUnary tier) tokens)
    (stuck : parseTier context tier.tighter room tokens =
      ⟨.stuck failure rest completed, trivial⟩) :
    parseTier context tier room tokens = ⟨.stuck failure rest completed, trivial⟩ := by
  rw [parseTier, dif_neg outer, take?_eq_none.mpr lacks]
  dsimp only
  rw [stuck]

/-- The operand behind an operator stops the parser with what stands before it. -/
theorem parseRun_stuck {op : BinaryOp} (found : token.kind.binaryOp? = some op)
    (stuck : parseTier context op.tier.tighter room tokens =
      ⟨.stuck failure rest completed, trivial⟩)
    (within : (token :: tokens).length < bound) :
    parseRun context op.tier room target bound (token :: tokens) within =
      ⟨.stuck failure rest (target :: completed), trivial⟩ := by
  rw [parseRun, take?_cons (acceptBinary_eq_some.mpr ⟨found, rfl⟩)]
  dsimp only
  rw [stuck]

/-- A position stops the parser with its target. -/
theorem parseChain_index_stuck (opens : opener.kind = .mark .openBracket)
    (stuck : parseExpression context room tokens = ⟨.stuck failure rest completed, trivial⟩)
    (within : (opener :: tokens).length < bound) :
    parseChain context room target bound (opener :: tokens) within =
      ⟨.stuck failure rest (target :: completed), trivial⟩ := by
  have continues : acceptContinuation opener.kind = some .index :=
    acceptContinuation_eq_some.mpr opens
  rw [parseChain, take?_cons continues]
  dsimp only
  rw [stuck]

/-- An index that is not closed stops the parser. -/
theorem parseChain_index_open (opens : opener.kind = .mark .openBracket)
    (lacks : Lacks (acceptMark .closeBracket) rest) {shorter : rest.length < tokens.length}
    (parsed : parseExpression context room tokens = ⟨.done position rest, shorter⟩)
    (within : (opener :: tokens).length < bound) :
    parseChain context room target bound (opener :: tokens) within =
      ⟨.stuck (.unclosed context .closeBracket opener rest) rest [target, position],
        trivial⟩ := by
  have continues : acceptContinuation opener.kind = some .index :=
    acceptContinuation_eq_some.mpr opens
  rw [parseChain, take?_cons continues]
  dsimp only
  rw [parsed]
  dsimp only
  rw [take?_eq_none.mpr lacks]

/-- Arguments stop the parser with what is called. -/
theorem parseChain_call_stuck (opens : opener.kind = .mark .openParen)
    (more : Lacks (acceptMark .closeParen) tokens)
    (stuck : parseArguments context room tokens = ⟨.stuck failure rest completed, trivial⟩)
    (within : (opener :: tokens).length < bound) :
    parseChain context room target bound (opener :: tokens) within =
      ⟨.stuck failure rest (target :: completed), trivial⟩ := by
  have continues : acceptContinuation opener.kind = some .call :=
    acceptContinuation_eq_some.mpr opens
  rw [parseChain, take?_cons continues]
  dsimp only
  rw [take?_eq_none.mpr more]
  dsimp only
  rw [stuck]

/-- A call that is not closed stops the parser. -/
theorem parseChain_call_open (opens : opener.kind = .mark .openParen)
    (more : Lacks (acceptMark .closeParen) tokens) (lacks : Lacks (acceptMark .closeParen) rest)
    {shorter : rest.length < tokens.length}
    (parsed : parseArguments context room tokens = ⟨.done arguments rest, shorter⟩)
    (within : (opener :: tokens).length < bound) :
    parseChain context room target bound (opener :: tokens) within =
      ⟨.stuck (.unclosed context .closeParen opener rest) rest (target :: arguments),
        trivial⟩ := by
  have continues : acceptContinuation opener.kind = some .call :=
    acceptContinuation_eq_some.mpr opens
  rw [parseChain, take?_cons continues]
  dsimp only
  rw [take?_eq_none.mpr more]
  dsimp only
  rw [parsed]
  dsimp only
  rw [take?_eq_none.mpr lacks]

/-- A dot without a selector stops the parser. -/
theorem parseChain_no_selector {dot : Token} (dotted : dot.kind = .mark .dot)
    (lacks : Lacks acceptSelector rest) (within : (dot :: rest).length < bound) :
    parseChain context room target bound (dot :: rest) within =
      ⟨.stuck (.expectedSelector context rest) rest [target], trivial⟩ := by
  have continues : acceptContinuation dot.kind = some .selector :=
    acceptContinuation_eq_some.mpr dotted
  rw [parseChain, take?_cons continues]
  dsimp only
  rw [take?_eq_none.mpr lacks]

/-- The arguments behind a comma stop the parser with the one before it. -/
theorem parseArguments_stuck {comma : Token} {middle : List Token}
    (separates : comma.kind = .mark .comma) {shorter : (comma :: middle).length < tokens.length}
    (parsed : parseExpression context room tokens = ⟨.done target (comma :: middle), shorter⟩)
    (stuck : parseArguments context room middle = ⟨.stuck failure rest completed, trivial⟩) :
    parseArguments context room tokens =
      ⟨.stuck failure rest (target :: completed), trivial⟩ := by
  rw [parseArguments, parsed]
  dsimp only
  rw [take?_mark separates]
  dsimp only
  rw [stuck]

/-- The expression in a group stops the parser. -/
theorem parsePrimary_group_stuck (opens : opener.kind = .mark .openParen)
    (stuck : parseExpression context room tokens = ⟨.stuck failure rest completed, trivial⟩) :
    parsePrimary context room (opener :: tokens) = ⟨.stuck failure rest completed, trivial⟩ := by
  rw [parsePrimary.eq_2]
  simp only [Token.lexeme_of_mark opens]
  rw [stuck]

/-- A group that is not closed stops the parser. -/
theorem parsePrimary_group_open (opens : opener.kind = .mark .openParen)
    (lacks : Lacks (acceptMark .closeParen) rest) {shorter : rest.length < tokens.length}
    (parsed : parseExpression context room tokens = ⟨.done target rest, shorter⟩) :
    parsePrimary context room (opener :: tokens) =
      ⟨.stuck (.unclosed context .closeParen opener rest) rest [target], trivial⟩ := by
  rw [parsePrimary.eq_2]
  simp only [Token.lexeme_of_mark opens]
  rw [parsed]
  dsimp only
  rw [take?_eq_none.mpr lacks]

end Steps

/-- What the rules of failure give is what the parser gives. -/
theorem Fails.stops (fails : Fails context goal room tokens failure rest completed) :
    goal.Stops context room tokens failure rest completed := by
  induction fails with
  | too_deep => rw [Goal.Stops, parseExpression]
  | expression _ ih => rw [Goal.Stops, parseExpression]; exact ih
  | primary _ ih =>
    have stuck : parsePrimary context _ _ = _ := ih
    rw [Goal.Stops, parseTier, dif_pos rfl, stuck]
  | chain parsed _ ih =>
    obtain ⟨_, shorter, ⟨⟩, parsed⟩ := parsed.parses context
    exact (parseTier_links parsed).trans (ih _ shorter)
  | @unary_too_deep token op tokens found =>
    rw [Goal.Stops, parseTier, dif_neg op.tier_outer,
      take?_cons (acceptUnary_eq_some.mpr ⟨found, rfl⟩)]
  | unary found _ ih => exact parseTier_unary_stuck found ih
  | descend outer lacks _ ih => exact parseTier_operand_stuck outer lacks ih
  | run outer lacks parsed _ ih =>
    obtain ⟨_, shorter, ⟨⟩, parsed⟩ := parsed.parses context
    exact (parseTier_operators outer lacks parsed).trans (ih _ shorter)
  | operand found _ ih => exact fun _ within => parseRun_stuck found ih within
  | operator found parsed _ ih =>
    obtain ⟨_, _, ⟨⟩, parsed⟩ := parsed.parses context
    intro bound within
    obtain ⟨left, same⟩ := parseRun_operator found parsed within
    rw [same]
    exact ih bound left
  | link _ ih => exact ih
  | chain_link linked _ ih =>
    obtain ⟨_, ⟨⟩, linked⟩ := linked.parses context
    intro bound within
    obtain ⟨left, same⟩ := linked bound within
    rw [same]
    exact ih bound left
  | index opens _ ih => exact fun _ within => parseChain_index_stuck opens ih within
  | unclosed_index opens parsed lacks =>
    obtain ⟨_, _, ⟨⟩, parsed⟩ := parsed.parses context
    exact fun _ within => parseChain_index_open opens lacks parsed within
  | call opens more _ ih => exact fun _ within => parseChain_call_stuck opens more ih within
  | unclosed_call opens more parsed lacks =>
    obtain ⟨_, parsed⟩ := parsed.parses context
    exact fun _ within => parseChain_call_open opens more lacks parsed within
  | selector dotted lacks => exact fun _ within => parseChain_no_selector dotted lacks within
  | argument _ ih =>
    have stuck : parseExpression context _ _ = _ := ih
    rw [Goal.Stops, parseArguments, stuck]
  | later_argument parsed separates _ ih =>
    obtain ⟨_, _, ⟨⟩, parsed⟩ := parsed.parses context
    exact parseArguments_stuck separates parsed ih
  | no_primary none => exact parsePrimary_none context _ none
  | too_large written large => exact parsePrimary_large context _ written large
  | group opens _ ih => exact parsePrimary_group_stuck opens ih
  | unclosed_group opens parsed lacks =>
    obtain ⟨_, _, ⟨⟩, parsed⟩ := parsed.parses context
    exact parsePrimary_group_open opens lacks parsed

/-! ## Only the next token is seen -/

/-- Behind the same tokens stands the same token or the same end. -/
theorem head?_append_congr {other : List Token} (same : other.head? = rest.head?)
    (used : List Token) : (used ++ other).head? = (used ++ rest).head? := by
  rw [List.head?_append, List.head?_append, same]

/-- No token comes first that would be accepted, whatever stands behind it. -/
theorem Lacks.of_head? {β : Type} {accept : TokenKind → Option β} {one other : List Token}
    (lacks : Lacks accept one) (same : other.head? = one.head?) : Lacks accept other := by
  intro token first
  exact lacks token (same ▸ first)

/-- The goal gives the values for the tokens used up, before every row of tokens that begins as the
rest does and with no less room. -/
def Goal.Repeats (goal : Goal) (room : Nat) (used rest : List Token) (values : List (Expr Span)) :
    Prop :=
  ∀ other more, other.head? = rest.head? → room ≤ more →
    Succeeds goal more (used ++ other) values other

/-- The goal gives the values for the tokens down to the rest, and for what is used up of them
elsewhere. -/
def Goal.RepeatedFrom (goal : Goal) (room : Nat) (tokens rest : List Token)
    (values : List (Expr Span)) : Prop :=
  ∃ used, tokens = used ++ rest ∧ goal.Repeats room used rest values

namespace Goal.RepeatedFrom

variable {inner : Goal} {one : List (Expr Span)} {middle : List Token}

/-- What is repeated a level deeper is repeated behind the tokens in front of it. -/
theorem deeper (repeated : inner.RepeatedFrom room tokens rest one) (front : List Token)
    (succeeds : ∀ {more : Nat} {part other : List Token},
      Succeeds inner more part one other → Succeeds goal (more + 1) (front ++ part) values other) :
    goal.RepeatedFrom (room + 1) (front ++ tokens) rest values := by
  obtain ⟨used, rfl, repeats⟩ := repeated
  refine ⟨front ++ used, (List.append_assoc ..).symm, fun other more same wider => ?_⟩
  obtain ⟨more, rfl⟩ := Nat.exists_eq_succ_of_ne_zero (Nat.ne_zero_of_lt wider)
  rw [List.append_assoc]
  exact succeeds (repeats other more same (Nat.le_of_succ_le_succ wider))

/-- What is repeated goes on with what is repeated behind it. -/
theorem andThen {next : Expr Span} {after : Goal}
    (repeated : inner.RepeatedFrom room tokens middle one)
    (follows : after.RepeatedFrom room middle rest [next]) (front : List Token)
    (succeeds : ∀ {more : Nat} {part between other : List Token},
      part.head? = tokens.head? → Succeeds inner more part one between →
      Succeeds after more between [next] other → Succeeds goal more (front ++ part) values other) :
    goal.RepeatedFrom room (front ++ tokens) rest values := by
  obtain ⟨used, rfl, repeats⟩ := repeated
  obtain ⟨behind, rfl, later⟩ := follows
  refine ⟨front ++ (used ++ behind), by simp only [List.append_assoc], ?_⟩
  intro other more same wider
  have between := head?_append_congr same behind
  simp only [List.append_assoc]
  exact succeeds (head?_append_congr between used) (repeats _ more between wider)
    (later other more same wider)

/-- What is repeated before a closing token is repeated between two tokens. -/
theorem enclosed {opener closer : Token}
    (repeated : inner.RepeatedFrom room tokens (closer :: rest) one)
    (succeeds : ∀ {more : Nat} {part other : List Token}, part.head? = tokens.head? →
      Succeeds inner more part one (closer :: other) →
      Succeeds goal more (opener :: part) values other) :
    goal.RepeatedFrom room (opener :: tokens) rest values := by
  obtain ⟨used, rfl, repeats⟩ := repeated
  refine ⟨opener :: (used ++ [closer]), by simp, fun other more _ wider => ?_⟩
  have closing : (closer :: other).head? = (closer :: rest).head? := rfl
  rw [List.cons_append, List.append_assoc, List.singleton_append]
  exact succeeds (head?_append_congr closing used) (repeats _ more closing wider)

end Goal.RepeatedFrom

/-- A success depends on the tokens used up and on the first of the rest. -/
theorem Succeeds.elsewhere (succeeds : Succeeds goal room tokens values rest) :
    goal.RepeatedFrom room tokens rest values := by
  induction succeeds with
  | expression _ ih => exact ih.deeper [] .expression
  | primary _ _ first chain => exact first.andThen chain [] fun _ => .primary
  | @unary _ token _ _ _ _ found _ ih => exact ih.deeper [token] (.unary found)
  | descend outer lacks _ _ first run =>
    exact first.andThen run [] fun same => .descend outer (lacks.of_head? same)
  | run_end lacks => exact ⟨[], rfl, fun _ _ same _ => .run_end (lacks.of_head? same)⟩
  | @operator _ token _ _ _ _ _ _ _ found _ _ operand run =>
    exact operand.andThen run [token] fun _ => .operator found
  | chain_end lacks => exact ⟨[], rfl, fun _ _ same _ => .chain_end (lacks.of_head? same)⟩
  | chain_link _ _ link chain => exact link.andThen chain [] fun _ => .chain_link
  | index opens closes _ ih => exact ih.enclosed fun _ => .index opens closes
  | @call_empty _ _ opener closer _ opens closes =>
    exact ⟨[opener, closer], rfl, fun _ _ _ _ => .call_empty opens closes⟩
  | call opens closes lacks _ ih =>
    exact ih.enclosed fun same => .call opens closes (lacks.of_head? same)
  | @selector _ _ _ dot token _ dotted accepted =>
    exact ⟨[dot, token], rfl, fun _ _ _ _ => .selector dotted accepted⟩
  | last_argument _ lacks ih =>
    obtain ⟨used, rfl, inside⟩ := ih
    exact ⟨used, rfl, fun other more same wider =>
      .last_argument (inside other more same wider) (lacks.of_head? same)⟩
  | @argument _ _ _ comma _ _ _ _ separates _ first others =>
    obtain ⟨used, rfl, first⟩ := first
    obtain ⟨behind, rfl, others⟩ := others
    refine ⟨used ++ comma :: behind, ?_, fun other more same wider => ?_⟩
    · rw [List.append_assoc, List.cons_append]
    · rw [List.append_assoc, List.cons_append]
      exact .argument (first (comma :: (behind ++ other)) more rfl wider) separates
        (others _ more same wider)
  | @leaf _ _ token _ alone => exact ⟨[token], rfl, fun _ _ _ _ => .leaf alone⟩
  | group opens closes _ ih => exact ih.enclosed fun _ => .group opens closes

/-- The parse stopped at a token, or at the end, that could not go on: neither the room for nesting
nor the size of a number was what it stopped for. -/
def SyntaxError.AtToken : SyntaxError → Prop
  | .expectedExpression .. | .unclosedDelimiter .. | .expectedSelector .. | .invalidToken .. => True
  | .integerTooLarge .. | .nestingTooDeep .. => False

/-- The goal fails behind the tokens used up, before every row of tokens that begins as the rest
does and with no less room. -/
def Goal.Refuses (goal : Goal) (room : Nat) (used rest : List Token) : Prop :=
  ∀ context other more, other.head? = rest.head? → room ≤ more →
    ∃ failure completed, Fails context goal more (used ++ other) failure other completed

/-- The goal fails at the rest of the tokens, and behind what is used up of them elsewhere. -/
def Goal.RefusedFrom (goal : Goal) (room : Nat) (tokens rest : List Token) : Prop :=
  ∃ used, tokens = used ++ rest ∧ goal.Refuses room used rest

namespace Goal.RefusedFrom

variable {inner : Goal}

/-- What is refused is refused behind the tokens in front of it. -/
theorem behind (refused : inner.RefusedFrom room tokens rest) (front : List Token)
    (fails : ∀ {context : ParseContext} {more : Nat} {part other : List Token} {failure : Failure}
      {completed : List (Expr Span)}, part.head? = tokens.head? → room ≤ more →
      Fails context inner more part failure other completed →
      ∃ all, Fails context goal more (front ++ part) failure other all) :
    goal.RefusedFrom room (front ++ tokens) rest := by
  obtain ⟨used, rfl, refuses⟩ := refused
  refine ⟨front ++ used, (List.append_assoc ..).symm, fun context other more same wider => ?_⟩
  obtain ⟨failure, _, stopped⟩ := refuses context other more same wider
  rw [List.append_assoc]
  exact ⟨failure, fails (head?_append_congr same used) wider stopped⟩

/-- What is refused a level deeper is refused behind the tokens in front of it. -/
theorem deeper (refused : inner.RefusedFrom room tokens rest) (front : List Token)
    (fails : ∀ {context : ParseContext} {more : Nat} {part other : List Token} {failure : Failure}
      {completed : List (Expr Span)}, Fails context inner more part failure other completed →
      ∃ all, Fails context goal (more + 1) (front ++ part) failure other all) :
    goal.RefusedFrom (room + 1) (front ++ tokens) rest := by
  obtain ⟨used, rfl, refuses⟩ := refused
  refine ⟨front ++ used, (List.append_assoc ..).symm, fun context other more same wider => ?_⟩
  obtain ⟨more, rfl⟩ := Nat.exists_eq_succ_of_ne_zero (Nat.ne_zero_of_lt wider)
  obtain ⟨failure, _, stopped⟩ := refuses context other more same (Nat.le_of_succ_le_succ wider)
  rw [List.append_assoc]
  exact ⟨failure, fails stopped⟩

/-- What is repeated before a token that cannot go on is refused behind the tokens in front. -/
theorem open_at {values : List (Expr Span)} (repeated : inner.RepeatedFrom room tokens rest values)
    (front : List Token)
    (fails : ∀ {context : ParseContext} {more : Nat} {part other : List Token},
      part.head? = tokens.head? → other.head? = rest.head? →
      Succeeds inner more part values other →
      ∃ failure all, Fails context goal more (front ++ part) failure other all) :
    goal.RefusedFrom room (front ++ tokens) rest := by
  obtain ⟨used, rfl, repeats⟩ := repeated
  refine ⟨front ++ used, (List.append_assoc ..).symm, fun context other more same wider => ?_⟩
  rw [List.append_assoc]
  exact fails (head?_append_congr same used) same (repeats other more same wider)

end Goal.RefusedFrom

/-- A failure at a token depends on the tokens used up and on that token. -/
theorem Fails.elsewhere (fails : Fails context goal room tokens failure rest completed)
    (atToken : failure.error.AtToken) : goal.RefusedFrom room tokens rest := by
  -- What succeeded before the failure is repeated in front of what was used up behind it, so the
  -- token in view there is the same one; only the last step sees the token that stopped the parse.
  induction fails with
  | too_deep => exact atToken.elim
  | expression _ ih => exact (ih atToken).deeper [] fun stopped => ⟨_, .expression stopped⟩
  | primary _ ih => exact (ih atToken).behind [] fun _ _ stopped => ⟨_, .primary stopped⟩
  | chain parsed _ ih =>
    obtain ⟨used, rfl, first⟩ := parsed.elsewhere
    exact (ih atToken).behind used fun same wider stopped =>
      ⟨_, .chain (first _ _ same wider) stopped⟩
  | unary_too_deep => exact atToken.elim
  | @unary _ token _ _ _ _ _ found _ ih =>
    exact (ih atToken).deeper [token] fun stopped => ⟨_, .unary found stopped⟩
  | descend outer lacks _ ih =>
    exact (ih atToken).behind [] fun same _ stopped =>
      ⟨_, .descend outer (lacks.of_head? same) stopped⟩
  | run outer lacks parsed _ ih =>
    obtain ⟨used, rfl, first⟩ := parsed.elsewhere
    exact (ih atToken).behind used fun same wider stopped =>
      ⟨_, .run outer (lacks.of_head? (head?_append_congr same used)) (first _ _ same wider)
        stopped⟩
  | @operand _ token _ _ _ _ _ _ found _ ih =>
    exact (ih atToken).behind [token] fun _ _ stopped => ⟨_, .operand found stopped⟩
  | @operator _ token _ _ _ _ _ _ _ _ found parsed _ ih =>
    obtain ⟨used, rfl, operand⟩ := parsed.elsewhere
    exact (ih atToken).behind (token :: used) fun same wider stopped =>
      ⟨_, .operator found (operand _ _ same wider) stopped⟩
  | link _ ih => exact (ih atToken).behind [] fun _ _ stopped => ⟨_, .link stopped⟩
  | chain_link linked _ ih =>
    obtain ⟨used, rfl, link⟩ := linked.elsewhere
    exact (ih atToken).behind used fun same wider stopped =>
      ⟨_, .chain_link (link _ _ same wider) stopped⟩
  | @index _ _ opener _ _ _ _ opens _ ih =>
    exact (ih atToken).behind [opener] fun _ _ stopped => ⟨_, .index opens stopped⟩
  | @unclosed_index _ _ _ opener _ _ opens parsed lacks =>
    exact .open_at parsed.elsewhere [opener] fun _ same inside =>
      ⟨_, _, .unclosed_index opens inside (lacks.of_head? same)⟩
  | @call _ _ opener _ _ _ _ opens lacks _ ih =>
    exact (ih atToken).behind [opener] fun same _ stopped =>
      ⟨_, .call opens (lacks.of_head? same) stopped⟩
  | @unclosed_call _ _ _ opener _ _ opens nonempty parsed lacks =>
    exact .open_at parsed.elsewhere [opener] fun first same inside =>
      ⟨_, _, .unclosed_call opens (nonempty.of_head? first) inside (lacks.of_head? same)⟩
  | @selector _ _ dot _ dotted lacks =>
    exact ⟨[dot], rfl, fun context other more same _ =>
      ⟨_, _, .selector dotted (lacks.of_head? same)⟩⟩
  | argument _ ih => exact (ih atToken).behind [] fun _ _ stopped => ⟨_, .argument stopped⟩
  | @later_argument _ _ comma _ _ _ _ _ parsed separates _ ih =>
    obtain ⟨used, rfl, first⟩ := parsed.elsewhere
    rw [List.append_cons]
    refine (ih atToken).behind (used ++ [comma]) fun _ wider stopped => ?_
    rw [List.append_assoc]
    exact ⟨_, .later_argument (first _ _ rfl wider) separates stopped⟩
  | no_primary none =>
    refine ⟨[], rfl, fun context other more same _ => ⟨_, _, .no_primary ?_⟩⟩
    intro token first
    exact none token (same ▸ first)
  | too_large => exact atToken.elim
  | @group _ opener _ _ _ _ opens _ ih =>
    exact (ih atToken).behind [opener] fun _ _ stopped => ⟨_, .group opens stopped⟩
  | @unclosed_group _ _ opener _ _ opens parsed lacks =>
    exact .open_at parsed.elsewhere [opener] fun _ same inside =>
      ⟨_, _, .unclosed_group opens inside (lacks.of_head? same)⟩

/-- A program uses up valid tokens only. -/
theorem parseProgram_usesUp (context : ParseContext) (tokens : List Token) :
    UsesUp tokens (parseProgram context tokens).rest := by
  fun_induction parseProgram context tokens with
  | case1 => exact .refl _
  | case2 token tail failure rest completed _ stuck =>
    have follows := parseExpression_follows context context.limit (token :: tail)
    rw [stuck] at follows
    exact Fails.usesUp follows
  | case3 token tail root rest shorter parsed later ih =>
    have follows := parseExpression_follows context context.limit (token :: tail)
    rw [parsed] at follows
    exact (Succeeds.usesUp follows).trans ih

/-- A program that does not stop leaves no tokens. -/
theorem parseProgram_finished (finished : (parseProgram context tokens).stop = none) :
    (parseProgram context tokens).rest = [] := by
  fun_induction parseProgram context tokens with
  | case1 => rfl
  | case2 => cases finished
  | case3 token tail root rest shorter parsed later ih => exact ih finished

/-- No token of a program is invalid. -/
theorem Program.valid {limit : Nat} {roots : List (Expr Span)}
    (program : Program limit tokens roots) : ∀ token ∈ tokens, token.kind ≠ .invalid := by
  have finished := ((parseProgram_iff ⟨limit, .first⟩ tokens roots).mp program).1
  obtain ⟨used, split, valid⟩ := parseProgram_usesUp ⟨limit, .first⟩ tokens
  rw [parseProgram_finished finished, List.append_nil] at split
  rwa [split]

/-- A root in front of the tokens is the first of the program. -/
theorem parseProgram_done {root : Expr Span}
    (succeeds : Succeeds .expression context.limit tokens [root] rest) :
    parseProgram context tokens =
      { parseProgram context rest with roots := root :: (parseProgram context rest).roots } := by
  obtain ⟨_, shorter, ⟨⟩, parsed⟩ := succeeds.parses context
  cases tokens with
  | nil => cases shorter
  | cons token tail => rw [parseProgram, parsed]

/-- A root in front of the tokens leaves the program to what follows it. -/
theorem parseProgram_root {root : Expr Span}
    (succeeds : Succeeds .expression context.limit tokens [root] rest) :
    (parseProgram context tokens).stop = (parseProgram context rest).stop := by
  rw [parseProgram_done succeeds]

/-- A failure in front of the tokens stops the program. -/
theorem parseProgram_failed (nonempty : tokens ≠ [])
    (fails : Fails context .expression context.limit tokens failure rest completed) :
    parseProgram context tokens = ⟨[], some (failure, completed), rest⟩ := by
  have stuck : parseExpression context context.limit tokens = _ := fails.stops
  cases tokens with
  | nil => exact absurd rfl nonempty
  | cons token tail => rw [parseProgram, stuck]

/-- What holds of no tokens, of tokens at whose front an expression fails, and of tokens behind whose
first root it holds, holds of all tokens that are parsed as a program. -/
theorem program_induction (context : ParseContext) {motive : List Token → Prop}
    (ended : motive [])
    (failed : ∀ tokens failure rest completed, tokens ≠ [] →
      Fails context .expression context.limit tokens failure rest completed → motive tokens)
    (done : ∀ tokens root rest, Succeeds .expression context.limit tokens [root] rest →
      motive rest → motive tokens)
    (tokens : List Token) : motive tokens := by
  fun_induction parseProgram context tokens with
  | case1 => exact ended
  | case2 token tail failure rest completed _ stuck =>
    have follows := parseExpression_follows context context.limit (token :: tail)
    rw [stuck] at follows
    exact failed _ failure rest completed (List.cons_ne_nil _ _) follows
  | case3 token tail root rest shorter parsed later ih =>
    have follows := parseExpression_follows context context.limit (token :: tail)
    rw [parsed] at follows
    exact done _ root rest follows ih

/-- A program that stops at a token goes wrong before every row of tokens that begins with that
token, however much room there is. -/
theorem parseProgram_elsewhere
    (stopped : (parseProgram context tokens).stop = some (failure, completed))
    (atToken : failure.error.AtToken) :
    ∃ used, tokens = used ++ (parseProgram context tokens).rest ∧
      ∀ (elsewhere : ParseContext) (other : List Token),
        other.head? = (parseProgram context tokens).rest.head? →
        context.limit ≤ elsewhere.limit → (parseProgram elsewhere (used ++ other)).stop ≠ none := by
  fun_induction parseProgram context tokens with
  | case1 => cases stopped
  | case2 token tail failed rest others _ stuck =>
    cases stopped
    have follows := parseExpression_follows context context.limit (token :: tail)
    rw [stuck] at follows
    obtain ⟨used, split, refuses⟩ := Fails.elsewhere follows atToken
    refine ⟨used, split, fun elsewhere other same wider => ?_⟩
    obtain ⟨_, _, fails⟩ := refuses elsewhere other elsewhere.limit same wider
    have first := head?_append_congr same used
    rw [← split] at first
    have nonempty : used ++ other ≠ [] := by
      intro empty
      rw [empty] at first
      cases first
    rw [parseProgram_failed nonempty fails]
    exact Option.some_ne_none _
  | case3 token tail root middle shorter parsed later ih =>
    have follows := parseExpression_follows context context.limit (token :: tail)
    rw [parsed] at follows
    obtain ⟨used, split, repeats⟩ := Succeeds.elsewhere follows
    obtain ⟨behind, rest, refuses⟩ := ih stopped
    refine ⟨used ++ behind, ?_, fun elsewhere other same wider => ?_⟩
    · rw [split, List.append_assoc, ← rest]
    · have next := head?_append_congr same behind
      rw [← rest] at next
      rw [List.append_assoc, parseProgram_root (repeats _ elsewhere.limit next wider)]
      exact refuses elsewhere other same wider

end Cascade
