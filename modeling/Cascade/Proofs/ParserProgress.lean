import Cascade.Proofs.MachineEnds
import Cascade.Proofs.ParserCalls

/-!
# The parser makes progress

Every part of the parser comes to an end, however large the nesting limit is and however deep the
parser is: what bounds the recursion is the text. A part that calls another one before it has taken
a token calls one of lower rank, and the ranks fall along the tiers (`Part.Enters`). Behind a token
it may call any part. So the tokens that are left and the rank of the part, in this order, get
smaller with every call.
-/
namespace Cascade

namespace Machine

variable {machine : Machine}

/-- The parts of the parser that take tokens. -/
inductive Part where
  /-- An expression that begins afresh. -/
  | expression
  /-- An expression whose loosest operator is of the tier or tighter. -/
  | tier (loosest : Tier)
  /-- An expression at a tier of operators before an operand. -/
  | prefixed (loosest : Tier)
  /-- An expression at a tier of operators between operands. -/
  | binary (common : Tier)
  /-- The operators of a tier behind a first operand. -/
  | operators (common : Tier)
  /-- A primary with what continues it. -/
  | postfixed
  /-- What continues a target. -/
  | links
  /-- An index, a call or a selector. -/
  | link (continuation : Continuation)
  /-- An index. -/
  | index
  /-- A call. -/
  | call
  /-- A selector. -/
  | selector
  /-- What stands in front of the parenthesis that closes a call. -/
  | given
  /-- The arguments of a call. -/
  | arguments
  /-- A literal, a name or an expression in parentheses. -/
  | primary
  /-- A number. -/
  | integer
  /-- An expression in parentheses. -/
  | group
  deriving DecidableEq, Repr

namespace Part

/-- What holds of the part at work, whatever it is handed. -/
def Each (part : Part) (holds : {α : Type} → Run (Except SyntaxError α) → Prop) : Prop :=
  match part with
  | .expression => holds (Machine.expression.run ())
  | .tier loosest => holds (Machine.tier.run loosest)
  | .prefixed loosest => holds (Machine.prefixed.run loosest)
  | .binary common => holds (Machine.binary.run common)
  | .operators common => ∀ lhs, holds (Machine.operators.run (common, lhs))
  | .postfixed => holds (Machine.postfixed.run ())
  | .links => ∀ target, holds (Machine.links.run target)
  | .link continuation => ∀ target, holds (Machine.link.run (target, continuation))
  | .index => ∀ target, holds (Machine.index.run target)
  | .call => ∀ callee, holds (Machine.call.run callee)
  | .selector => ∀ target, holds (Machine.selector target)
  | .given => holds (Machine.given.run ())
  | .arguments => ∀ before, holds (Machine.arguments.run before)
  | .primary => holds (Machine.primary.run ())
  | .integer => ∀ digits, holds (Machine.integer digits)
  | .group => holds (Machine.group.run ())

/-- How many tokens the part uses up at least if it succeeds. -/
def minimum : Part → Nat
  | .operators _ | .links | .given => 0
  | _ => 1

/-- Whether the part takes the token that whoever calls it has in view, without a look at it. -/
def takesToken : Part → Bool
  | .link _ | .index | .call | .selector | .integer | .group => true
  | _ => false

/-- The part comes to an end on the machine, and makes progress if it succeeds. A part that takes
the token in view is at work only where there is one. -/
def Progresses (part : Part) (machine : Machine) : Prop :=
  (part.takesToken = true → machine.current ≠ none) →
    part.Each fun step => Uses part.minimum step machine

/-- A part that looks at the token in view is at work anywhere. -/
theorem Progresses.anywhere {part : Part} (progresses : part.Progresses machine)
    (looks : part.takesToken = false) : part.Each fun step => Uses part.minimum step machine := by
  apply progresses
  rw [looks]
  exact fun takes => absurd takes Bool.false_ne_true

/-- The part may call the other one before it has taken a token. -/
inductive Enters : Part → Part → Prop where
  | expression : Enters .expression (.tier .lowest)
  | prefixed {op : UnaryOp} : Enters (.tier op.tier) (.prefixed op.tier)
  | binary {common : Tier} : common ≠ .postfixChain → Enters (.tier common) (.binary common)
  | postfixed : Enters (.tier .postfixChain) .postfixed
  | operand {loosest : Tier} : Enters (.prefixed loosest) (.tier loosest.tighter)
  | firstOperand {common : Tier} : Enters (.binary common) (.tier common.tighter)
  | primary : Enters .postfixed .primary
  | link {continuation : Continuation} : Enters .links (.link continuation)
  | index : Enters (.link .index) .index
  | call : Enters (.link .call) .call
  | selector : Enters (.link .selector) .selector
  | arguments : Enters .given .arguments
  | argument : Enters .arguments .expression
  | integer : Enters .primary .integer
  | group : Enters .primary .group

/-- The rank of a part. It is high at the loosest tier. -/
def rank : Part → Nat
  | .given => 29
  | .arguments => 28
  | .expression => 27
  | .tier loosest => 4 + 2 * (11 - loosest.rank)
  | .prefixed common | .binary common => 5 + 2 * (11 - common.tighter.rank)
  | .postfixed => 3
  | .primary | .links => 2
  | .link _ => 1
  | .operators _ | .index | .call | .selector | .integer | .group => 0

/-- A part calls parts of lower rank until it has taken a token. -/
theorem Enters.rank_lt {caller callee : Part} (enters : Enters caller callee) :
    callee.rank < caller.rank := by
  cases enters with
  | @prefixed op => cases op <;> decide
  | @binary common inner =>
    have next := Tier.rank_tighter inner
    have last := Tier.rank_le common.tighter
    show 5 + 2 * (11 - common.tighter.rank) < 4 + 2 * (11 - common.rank)
    omega
  | operand | firstOperand =>
    simp only [rank]
    omega
  | link => exact Nat.one_lt_two
  | _ => decide

/-- A part that is at work on tokens may call another one on tokens: on the same ones if it may do
so before it has taken a token, and on any that are left when it has taken some. Nesting plays no
part in it. -/
inductive Calls : Part × List Token → Part × List Token → Prop where
  /-- No token was taken. -/
  | atOnce {caller callee : Part} (tokens : List Token) (enters : Enters caller callee) :
    Calls (caller, tokens) (callee, tokens)
  /-- Tokens were taken. -/
  | later {tokens rest : List Token} (caller callee : Part) (behind : rest <:+ tokens)
    (taken : rest.length < tokens.length) : Calls (caller, tokens) (callee, rest)

/-- There is no endless chain of calls: each leaves fewer tokens, or as many to a part of lower
rank. -/
theorem calls_wellFounded : WellFounded fun callee caller => Calls caller callee := by
  let size (call : Part × List Token) : Nat × Nat := (call.2.length, call.1.rank)
  have ordered := InvImage.wf size (Prod.lex Nat.lt_wfRel Nat.lt_wfRel).wf
  refine Subrelation.wf (fun {callee caller} calls => ?_) ordered
  cases calls with
  | atOnce tokens enters => exact Prod.Lex.right _ enters.rank_lt
  | later _ _ _ taken => exact Prod.Lex.left _ _ taken

/-! ## What a part does if the parts it calls do so -/

/-- All that the part may call on what is ahead of the machine makes progress. -/
def Supported (part : Part) (machine : Machine) : Prop :=
  ∀ callee later, Calls (part, machine.ahead) (callee, later.ahead) → callee.Progresses later

variable {part callee : Part}

/-- What the part may call before it has taken a token makes progress where no token was taken. -/
theorem Supported.atOnce {later : Machine} (supported : part.Supported machine)
    (enters : Enters part callee) (same : later.ahead = machine.ahead) :
    callee.Progresses later := by
  apply supported callee later
  rw [same]
  exact .atOnce machine.ahead enters

/-- Every part makes progress where a token was taken. -/
theorem Supported.later {later : Machine} (supported : part.Supported machine) (callee : Part)
    (behind : later.ahead <:+ machine.ahead) (taken : later.ahead.length < machine.ahead.length) :
    callee.Progresses later :=
  supported callee later (.later part callee behind taken)

/-- Every part makes progress behind a token that was taken. -/
theorem Supported.behind {later : Machine} {token : Token} {rest : List Token}
    (supported : part.Supported machine) (first : machine.ahead = token :: rest) (callee : Part)
    (behind : later.ahead <:+ rest) : callee.Progresses later := by
  apply supported.later
  · rw [first]
    exact behind.trans (List.suffix_cons token rest)
  · rw [first]
    exact Nat.lt_succ_of_le behind.length_le

/-- Expressions that begin afresh make progress. -/
theorem Supported.expression (supported : Part.expression.Supported machine) :
    Part.expression.Progresses machine := by
  intro _
  show Uses 1 (Machine.expression.run ()) machine
  rw [ReaderT.run, Machine.expression]
  have inside (deeper : Machine) (same : deeper.ahead = machine.ahead) :
      Uses 1 (Machine.tier.run .lowest) deeper := (supported.atOnce .expression same).anywhere rfl
  apply Uses.nested machine inside (Nat.le_refl (1 + 0))
  · exact fun error later => .error error 1 later
  · exact fun value later => .pure (.ok value) later

/-- Expressions of a tier make progress. -/
theorem Supported.tier {loosest : Tier} (supported : (Part.tier loosest).Supported machine) :
    (Part.tier loosest).Progresses machine := by
  intro _
  show Uses 1 (Machine.tier.run loosest) machine
  by_cases inner : loosest = .postfixChain
  · subst inner
    rw [ReaderT.run, Machine.tier]
    exact (supported.atOnce .postfixed rfl).anywhere rfl
  · by_cases infixed : ∀ op : UnaryOp, op.tier ≠ loosest
    · rw [tier_binary inner infixed]
      exact (supported.atOnce (.binary inner) rfl).anywhere rfl
    · obtain ⟨op, rfl⟩ : ∃ op : UnaryOp, op.tier = loosest := by simpa using infixed
      rw [tier_unary]
      exact (supported.atOnce .prefixed rfl).anywhere rfl

/-- Expressions with an operator in front make progress. -/
theorem Supported.prefixed {loosest : Tier}
    (supported : (Part.prefixed loosest).Supported machine) :
    (Part.prefixed loosest).Progresses machine := by
  intro _
  show Uses 1 (Machine.prefixed.run loosest) machine
  rw [ReaderT.run, Machine.prefixed]
  apply Uses.eaten _ _ (Nat.le_refl (0 + 1))
  · exact fun later same => (supported.atOnce .operand same).anywhere rfl
  · intro op token later first
    have inside (deeper : Machine) (same : deeper.ahead = later.ahead) :
        Uses 1 (Machine.prefixed.run loosest) deeper :=
      (supported.behind first (.prefixed loosest) (same ▸ List.suffix_refl _)).anywhere rfl
    dsimp only
    apply Uses.nested later inside (Nat.zero_le (1 + 0))
    · exact fun error final => .error error 0 final
    · exact fun operand final => .stored (.unary op operand) token.span final

/-- Expressions with operators between operands make progress. -/
theorem Supported.binary {common : Tier} (supported : (Part.binary common).Supported machine) :
    (Part.binary common).Progresses machine := by
  intro _
  show Uses 1 (Machine.binary.run common) machine
  rw [ReaderT.run, Machine.binary]
  have first : Uses 1 (Machine.tier.run common.tighter) machine :=
    (supported.atOnce .firstOperand rfl).anywhere rfl
  apply first.andThen (Nat.le_refl (1 + 0))
  · exact fun error later => .error error 1 later
  · exact fun lhs later behind spent =>
      (supported.later (.operators common) behind spent).anywhere rfl lhs

/-- Runs of operators come to an end. -/
theorem Supported.operators {common : Tier}
    (supported : (Part.operators common).Supported machine) :
    (Part.operators common).Progresses machine := by
  intro _ lhs
  show Uses 0 (Machine.operators.run (common, lhs)) machine
  rw [ReaderT.run, Machine.operators]
  apply Uses.eaten _ _ (Nat.zero_le (0 + 1))
  · exact fun later same => .pure (.ok lhs) later
  · intro op token later first
    have operand : Uses 1 (Machine.tier.run common.tighter) later :=
      (supported.behind first (.tier common.tighter) (List.suffix_refl _)).anywhere rfl
    apply operand.andThen (Nat.zero_le (1 + 0))
    · exact fun error final => .error error 0 final
    · intro rhs final behind _
      apply Uses.behind (Ends.store (·.push (.binary op lhs rhs) token.span) final)
        (fun _ _ same => same)
      intro folded stored same
      exact (supported.behind first (.operators common) (same ▸ behind)).anywhere rfl folded

/-- Primaries with what continues them make progress. -/
theorem Supported.postfixed (supported : Part.postfixed.Supported machine) :
    Part.postfixed.Progresses machine := by
  intro _
  show Uses 1 (Machine.postfixed.run ()) machine
  rw [ReaderT.run, Machine.postfixed]
  have first : Uses 1 (Machine.primary.run ()) machine :=
    (supported.atOnce .primary rfl).anywhere rfl
  apply first.andThen (Nat.le_refl (1 + 0))
  · exact fun error later => .error error 1 later
  · exact fun target later behind spent =>
      (supported.later .links behind spent).anywhere rfl target

/-- What continues a target comes to an end. -/
theorem Supported.links (supported : Part.links.Supported machine) :
    Part.links.Progresses machine := by
  intro _ target
  show Uses 0 (Machine.links.run target) machine
  rw [ReaderT.run, Machine.links]
  apply Uses.behind (Ends.peek acceptContinuation machine) (fun _ _ told => told.1)
  intro found later told
  cases found with
  | none => exact .pure (.ok target) later
  | some continuation =>
    obtain ⟨same, there⟩ := told
    have more : later.ahead ≠ [] := same ▸ there (Option.some_ne_none continuation)
    have next : Uses 1 (Machine.link.run (target, continuation)) later :=
      supported.atOnce .link same (fun _ => inView more) target
    apply next.andThen (Nat.zero_le (1 + 0))
    · exact fun error final => .error error 0 final
    · exact fun value final behind spent =>
        (supported.later .links (same ▸ behind) (same ▸ spent)).anywhere rfl value

/-- Links make progress. -/
theorem Supported.link {continuation : Continuation}
    (supported : (Part.link continuation).Supported machine) :
    (Part.link continuation).Progresses machine := by
  intro viewed target
  show Uses 1 (Machine.link.run (target, continuation)) machine
  cases continuation with
  | index =>
    rw [ReaderT.run, Machine.link]
    exact supported.atOnce .index rfl (fun _ => viewed rfl) target
  | call =>
    rw [ReaderT.run, Machine.link]
    exact supported.atOnce .call rfl (fun _ => viewed rfl) target
  | selector =>
    rw [ReaderT.run, Machine.link]
    exact supported.atOnce .selector rfl (fun _ => viewed rfl) target

/-- Indices make progress. -/
theorem Supported.index (supported : Part.index.Supported machine) :
    Part.index.Progresses machine := by
  intro viewed target
  obtain ⟨opener, inside, first⟩ := ahead_of_inView (viewed rfl)
  show Uses 1 (Machine.index.run target) machine
  rw [ReaderT.run, Machine.index]
  apply Uses.token first
  intro opened same
  have position : Uses 1 (Machine.expression.run ()) opened :=
    (supported.behind first .expression (same ▸ List.suffix_refl _)).anywhere rfl
  apply position.andThen (Nat.zero_le (1 + 0))
  · exact fun error later => .error error 0 later
  · intro position later _ _
    apply (Uses.closing .closeBracket opener later).andThen (Nat.zero_le (1 + 0))
    · exact fun error final => .error error 0 final
    · exact fun _ final _ _ => .stored (.index target position) opener.span final

/-- Calls make progress. -/
theorem Supported.call (supported : Part.call.Supported machine) :
    Part.call.Progresses machine := by
  intro viewed callee
  obtain ⟨opener, inside, first⟩ := ahead_of_inView (viewed rfl)
  show Uses 1 (Machine.call.run callee) machine
  rw [ReaderT.run, Machine.call]
  apply Uses.token first
  intro opened same
  have handles : Uses 0 (Machine.given.run ()) opened :=
    (supported.behind first .given (same ▸ List.suffix_refl _)).anywhere rfl
  apply handles.andThen (Nat.zero_le (0 + 0))
  · exact fun error later => .error error 0 later
  · intro handles later _ _
    apply (Uses.closing .closeParen opener later).andThen (Nat.zero_le (1 + 0))
    · exact fun error final => .error error 0 final
    · intro _ closed _ _
      apply Uses.behind (Ends.store (·.pushList handles) closed) (fun _ _ same => same)
      exact fun range final _ => .stored (.call callee range) opener.span final

/-- Selectors make progress. -/
theorem selector_progresses (machine : Machine) : Part.selector.Progresses machine := by
  intro viewed target
  obtain ⟨dot, behind, first⟩ := ahead_of_inView (viewed rfl)
  show Uses 1 (Machine.selector target) machine
  rw [Machine.selector]
  apply Uses.token first
  intro dotted same
  apply Uses.behind (Ends.peek acceptSelector dotted) (fun _ _ told => told.1)
  intro found later told
  cases found with
  | none => exact .fail .expectedSelector 0 later
  | some accepted =>
    have more : later.ahead ≠ [] := told.1 ▸ told.2 (Option.some_ne_none accepted)
    obtain ⟨token, rest, next⟩ := ahead_of_inView (inView more)
    apply Uses.fewer (Uses.token next _) (Nat.zero_le (0 + 1))
    intro taken _
    cases accepted with
    | access access =>
      exact .stored (.primitive access target) (selectorSpan dot token) taken
    | field =>
      apply Uses.behind (Ends.store (·.intern token.text) taken) (fun _ _ same => same)
      exact fun name final _ => .stored (.field target name) (selectorSpan dot token) final

/-- What stands in front of the parenthesis that closes a call comes to an end. -/
theorem Supported.given (supported : Part.given.Supported machine) :
    Part.given.Progresses machine := by
  intro _
  show Uses 0 (Machine.given.run ()) machine
  rw [ReaderT.run, Machine.given]
  apply Uses.behind (Ends.peek (acceptMark .closeParen) machine) (fun _ _ told => told.1)
  intro found later told
  cases found with
  | none =>
    have arguments : Uses 1 (Machine.arguments.run []) later :=
      (supported.atOnce .arguments told.1).anywhere rfl []
    exact arguments.fewer (Nat.zero_le 1)
  | some _ => exact .pure (.ok []) later

/-- Arguments make progress. -/
theorem Supported.arguments (supported : Part.arguments.Supported machine) :
    Part.arguments.Progresses machine := by
  intro _ before
  show Uses 1 (Machine.arguments.run before) machine
  rw [ReaderT.run, Machine.arguments]
  have first : Uses 1 (Machine.expression.run ()) machine :=
    (supported.atOnce .argument rfl).anywhere rfl
  apply first.andThen (Nat.le_refl (1 + 0))
  · exact fun error later => .error error 1 later
  · intro argument later behind spent
    apply Uses.eaten _ _ (Nat.zero_le (0 + 1))
    · exact fun final _ => .pure (.ok (before ++ [argument])) final
    · intro _ comma final separated
      have shorter : final.ahead <:+ later.ahead := by
        rw [separated]
        exact List.suffix_cons comma final.ahead
      have fewer := shorter.length_le
      have further : Uses 1 (Machine.arguments.run (before ++ [argument])) final :=
        (supported.later .arguments (shorter.trans behind) (by omega)).anywhere rfl _
      exact further.fewer (Nat.zero_le 1)

/-- Numbers make progress. -/
theorem integer_progresses (machine : Machine) : Part.integer.Progresses machine := by
  intro viewed digits
  obtain ⟨token, rest, first⟩ := ahead_of_inView (viewed rfl)
  show Uses 1 (Machine.integer digits) machine
  rw [Machine.integer]
  apply Uses.token first
  intro later _
  cases decimalLong? digits with
  | none => exact .fail _ 0 later
  | some value => exact .stored (.int value) token.span later

/-- Groups make progress. -/
theorem Supported.group (supported : Part.group.Supported machine) :
    Part.group.Progresses machine := by
  intro viewed
  obtain ⟨opener, inside, first⟩ := ahead_of_inView (viewed rfl)
  show Uses 1 (Machine.group.run ()) machine
  rw [ReaderT.run, Machine.group]
  apply Uses.token first
  intro opened same
  have inner : Uses 1 (Machine.expression.run ()) opened :=
    (supported.behind first .expression (same ▸ List.suffix_refl _)).anywhere rfl
  apply inner.andThen (Nat.zero_le (1 + 0))
  · exact fun error later => .error error 0 later
  · intro inner later _ _
    apply (Uses.closing .closeParen opener later).andThen (Nat.zero_le (1 + 0))
    · exact fun error final => .error error 0 final
    · exact fun _ final _ _ => .pure (.ok inner) final

/-- Primaries make progress. -/
theorem Supported.primary (supported : Part.primary.Supported machine) :
    Part.primary.Progresses machine := by
  intro _
  show Uses 1 (Machine.primary.run ()) machine
  rw [ReaderT.run, Machine.primary]
  have seen : Ends get machine fun found later => found = machine ∧ later = machine :=
    ⟨machine, machine, rfl, List.suffix_refl _, rfl, rfl⟩
  apply Uses.behind seen (fun _ _ told => by rw [told.2])
  intro found later told
  rw [told.1, told.2]
  have viewed {lexeme : Lexeme} (there : machine.current.map Token.lexeme = some lexeme) :
      machine.current ≠ none := by
    intro none
    rw [none] at there
    cases there
  split
  · next there => exact .literal _ (viewed there)
  · next there => exact .literal _ (viewed there)
  · next digits there => exact supported.atOnce .integer rfl (fun _ => viewed there) digits
  · next there => exact .textual _ _ (viewed there)
  · next there => exact .textual _ _ (viewed there)
  · next there => exact supported.atOnce .group rfl (fun _ => viewed there)
  · exact .fail .expectedExpression 1 _

/-- A part makes progress if all that it may call does. -/
theorem Supported.progresses (supported : part.Supported machine) : part.Progresses machine := by
  cases part with
  | expression => exact supported.expression
  | tier => exact supported.tier
  | prefixed => exact supported.prefixed
  | binary => exact supported.binary
  | operators => exact supported.operators
  | postfixed => exact supported.postfixed
  | links => exact supported.links
  | link => exact supported.link
  | index => exact supported.index
  | call => exact supported.call
  | selector => exact selector_progresses machine
  | given => exact supported.given
  | arguments => exact supported.arguments
  | primary => exact supported.primary
  | integer => exact integer_progresses machine
  | group => exact supported.group

/-- Every part makes progress on every machine. -/
theorem progresses (part : Part) (machine : Machine) : part.Progresses machine := by
  -- The induction is on the calls, so neither the limit nor the depth of the machine matters.
  induction work : (part, machine.ahead) using calls_wellFounded.induction generalizing part machine
    with
  | _ work ih =>
    subst work
    apply Supported.progresses
    exact fun callee later calls => ih (callee, later.ahead) calls callee later rfl

end Part

/-- The loop of a program goes round so often on the machine, and then ends with the result and the
other machine. A round that fails is the last one; any other makes a root. -/
inductive Rounds : Machine → Nat → Except SyntaxError Unit → Machine → Prop where
  /-- There is no token in view. -/
  | ended {machine : Machine} (none : machine.current = none) : Rounds machine 0 (.ok ()) machine
  /-- There is one, and the expression at it fails. -/
  | failed {machine later : Machine} {error : SyntaxError} (viewed : machine.current ≠ none)
    (ran : ((expression.run ()).run machine).run = some (.ok (.error error, later))) :
    Rounds machine 1 (.error error) later
  /-- There is one, and the expression at it becomes a root. -/
  | again {machine later final : Machine} {root : Handle} {count : Nat}
    {result : Except SyntaxError Unit} (viewed : machine.current ≠ none)
    (ran : ((expression.run ()).run machine).run = some (.ok (.ok root, later)))
    (others : Rounds { later with ast := later.ast.pushRoot root } count result final) :
    Rounds machine (count + 1) result final

/-- What is left behind an expression is behind a token if the expression is complete. -/
theorem expression_uses {later : Machine} {result : Except SyntaxError Handle}
    (ran : ((expression.run ()).run machine).run = some (.ok (result, later))) :
    later.ahead <:+ machine.ahead ∧
      ∀ root, result = .ok root → later.ahead.length + 1 ≤ machine.ahead.length := by
  have uses : Uses 1 (expression.run ()) machine :=
    (Part.progresses .expression machine).anywhere rfl
  obtain ⟨reply, final, done, behind, spent⟩ := uses
  obtain ⟨rfl, rfl⟩ : reply = result ∧ final = later := by simpa [ran, eq_comm] using done
  exact ⟨behind, spent⟩

namespace Rounds

variable {later : Machine} {count : Nat} {result : Except SyntaxError Unit}

/-- The rounds are what a program does. -/
theorem run (rounds : Rounds machine count result later) :
    ((program ()).run machine).run = some (.ok (result, later)) := by
  have state (machine : Machine) :
      ((get : Run Machine).run machine).run = some (.ok (machine, machine)) := rfl
  induction rounds with
  | ended none =>
    rw [program, run_bind (state _), none]
    rfl
  | failed viewed ran =>
    obtain ⟨token, there⟩ := Option.ne_none_iff_exists'.mp viewed
    rw [program, run_bind (state _), there]
    exact run_bind ran
  | again viewed ran _ ih =>
    obtain ⟨token, there⟩ := Option.ne_none_iff_exists'.mp viewed
    rw [program, run_bind (state _), there]
    exact (run_bind ran).trans ih

/-- Every round but one that fails uses up a token, and that one has a token in view. So there are
no more rounds than tokens. Without a failure the rounds go on until no token is left. -/
theorem count_le (rounds : Rounds machine count result later) :
    later.ahead <:+ machine.ahead ∧ count ≤ machine.ahead.length ∧
      (result = .ok () → later.ahead = []) := by
  induction rounds with
  | @ended machine none =>
    have empty : machine.ahead = [] := by rw [ahead, none]
    exact ⟨List.suffix_refl _, Nat.zero_le _, fun _ => empty⟩
  | failed viewed ran =>
    obtain ⟨token, rest, first⟩ := ahead_of_inView viewed
    have one := List.length_pos_of_ne_nil (first ▸ List.cons_ne_nil token rest)
    refine ⟨(expression_uses ran).1, one, fun success => ?_⟩
    cases success
  | @again machine later final root count result viewed ran _ ih =>
    obtain ⟨early, spent⟩ := expression_uses ran
    obtain ⟨late, rounds, complete⟩ := ih
    have rounds : count ≤ later.ahead.length := rounds
    have fewer := spent root rfl
    exact ⟨late.trans early, by omega, complete⟩

end Rounds

/-- The loop of a program ends on every machine. -/
theorem exists_rounds (machine : Machine) :
    ∃ count result later, Rounds machine count result later := by
  induction tokens : machine.ahead.length using Nat.strongRecOn generalizing machine with
  | _ tokens ih =>
    by_cases none : machine.current = none
    · exact ⟨0, _, _, .ended none⟩
    · have uses : Uses 1 (expression.run ()) machine :=
        (Part.progresses .expression machine).anywhere rfl
      obtain ⟨result, later, ran, behind, spent⟩ := uses
      cases result with
      | error error => exact ⟨1, _, _, .failed none ran⟩
      | ok root =>
        have fewer := spent root rfl
        let rooted : Machine := { later with ast := later.ast.pushRoot root }
        have same : rooted.ahead = later.ahead := rfl
        obtain ⟨count, result, final, others⟩ := ih _ (by omega) rooted (congrArg List.length same)
        exact ⟨count + 1, result, final, .again none ran others⟩

/-- A program ends on every machine, and goes round at most as often as tokens are ahead. -/
theorem program_ends (machine : Machine) :
    ∃ count result later, Rounds machine count result later ∧
      ((program ()).run machine).run = some (.ok (result, later)) ∧
      later.ahead <:+ machine.ahead ∧ count ≤ machine.ahead.length ∧
      (result = .ok () → later.ahead = []) := by
  obtain ⟨count, result, later, rounds⟩ := exists_rounds machine
  exact ⟨count, result, later, rounds, rounds.run, rounds.count_le⟩

end Machine

open Machine (Part)

/-- Parsing comes to an end, whatever the nesting limit and the state of the parser are. There is no
endless chain of calls among the parts of the parser, in which nesting plays no part: every call is
on fewer tokens, or on the same ones to a part of lower rank. Every part comes to an end on every
machine, with a value or an error; it uses up tokens from those ahead, in their order, and the parts
that succeed, but for those that may find nothing to take, use up one at least. So a program goes
round at most as often as tokens are ahead, and it succeeds only if none is left. What it does on a
machine at the start of a source is what a session does. -/
theorem parsing_makes_progress (source : Source) (limit : Nat) :
    (WellFounded fun callee caller => Part.Calls caller callee) ∧
    (∀ (part : Part) (machine : Machine), (part.takesToken = true → machine.current ≠ none) →
      part.Each fun step => Machine.Uses part.minimum step machine) ∧
    (∀ machine : Machine, ∃ count result later, Machine.Rounds machine count result later ∧
      ((Machine.program ()).run machine).run = some (.ok (result, later)) ∧
      later.ahead <:+ machine.ahead ∧ count ≤ machine.ahead.length ∧
      (result = .ok () → later.ahead = [])) ∧
    ∃ count result later, Machine.Rounds (.start source limit) count result later ∧
      (Session.start source limit).program = (result, later.session) ∧
      count ≤ source.tokenStream.tokens.length ∧ (result = .ok () → later.ahead = []) := by
  refine ⟨Part.calls_wellFounded, Part.progresses, Machine.program_ends, ?_⟩
  have first := Machine.start_session source limit
  have tokens : (Machine.start source limit).ahead = source.tokenStream.tokens :=
    congrArg Session.ahead first
  obtain ⟨count, result, later, rounds, ran, _, few, complete⟩ :=
    Machine.program_ends (.start source limit)
  obtain ⟨final, done, stands, _⟩ :=
    Machine.does_program (.start source limit) _ first (Machine.start_depth source limit)
  obtain ⟨same, rfl⟩ : (Session.start source limit).program.1 = result ∧ final = later := by
    simpa [ran, eq_comm] using done
  exact ⟨count, result, final, rounds, Prod.ext same stands.symm, tokens ▸ few, complete⟩

/-- An index makes progress where its bracket is in view. Two roots of eleven tokens are parsed in
at most eleven rounds, and no token is left. -/
theorem index_and_call_make_progress :
    (Machine.start ⟨0, "t.sb", "[y] z"⟩ 3).current ≠ none ∧
    (∀ target, Machine.Uses 1 (Machine.index.run target) (.start ⟨0, "t.sb", "[y] z"⟩ 3)) ∧
    ∃ count later, Machine.Rounds (.start ⟨0, "t.sb", "f(-x, 1)[y] z"⟩ 3) count (.ok ()) later ∧
      count ≤ 11 ∧ later.ahead = [] := by
  obtain ⟨_, parts, _, count, result, later, rounds, parsed, few, complete⟩ :=
    parsing_makes_progress ⟨0, "t.sb", "f(-x, 1)[y] z"⟩ 3
  have viewed : (Machine.start ⟨0, "t.sb", "[y] z"⟩ 3).current ≠ none := by
    rw [Option.ne_none_iff_isSome]
    decide +kernel
  have good : (Session.start ⟨0, "t.sb", "f(-x, 1)[y] z"⟩ 3).program.1.isOk = true := by
    decide +kernel
  rw [parsed] at good
  obtain rfl : result = .ok () := by
    cases result with
    | error error => cases good
    | ok value => rfl
  have tokens : (⟨0, "t.sb", "f(-x, 1)[y] z"⟩ : Source).tokenStream.tokens.length = 11 := by
    decide +kernel
  exact ⟨viewed, parts .index _ fun _ => viewed, count, later, rounds, tokens ▸ few, complete rfl⟩

end Cascade
