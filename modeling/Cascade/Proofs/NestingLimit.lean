import Mathlib.Data.Nat.Find
import Cascade.Proofs.Reports

/-!
# The nesting limit

The limit is either what a parse fails for or of no account: a parse that gets by under a limit, and
one that fails for something else, comes out the same under every greater one. It is what a parse
fails for only if there are no fewer tokens than levels, so a great enough limit is never passed.
-/
namespace Cascade

variable {context : ParseContext} {goal : Goal} {room more limit : Nat}
  {tokens rest : List Token} {values completed : List (Expr Span)} {failure : Failure}

/-- The nesting limit was what the parse stopped for. -/
def SyntaxError.TooDeep : SyntaxError → Prop
  | .nestingTooDeep .. => True
  | _ => False

/-- What the token in view is refused for is not the nesting limit. -/
theorem Failure.not_tooDeep_unlessInvalid (other : ¬ failure.error.TooDeep) (tokens : List Token) :
    ¬ (unlessInvalid tokens failure).error.TooDeep := by
  unfold unlessInvalid
  split
  · exact other
  · split
    · exact not_false
    · exact other

/-- How many more tokens than levels of nesting there are at least when the goal fails for want of
room. -/
def Goal.slack : Goal → Nat
  | .expression | .arguments => 0
  | .tier _ | .run _ _ | .chain _ | .link _ | .primary => 1

/-- No tokens come up while tokens are used up. -/
theorem UsesUp.length_le (used : UsesUp tokens rest) : rest.length ≤ tokens.length := by
  obtain ⟨before, rfl, _⟩ := used
  rw [List.length_append]
  exact Nat.le_add_left ..

/-- What fails for want of room has no fewer tokens than levels of nesting, as every level but the
first takes up a token. -/
theorem Fails.room_le (fails : Fails context goal room tokens failure rest completed)
    (deep : failure.error.TooDeep) : room + goal.slack ≤ tokens.length := by
  induction fails with
  | too_deep => exact Nat.zero_le _
  | chain parsed _ ih | run _ _ parsed _ ih | operator _ parsed _ ih | chain_link parsed _ ih
  | later_argument parsed _ _ ih =>
    have shorter := parsed.usesUp.length_le
    have within := ih deep
    simp only [Goal.slack, List.length_cons] at *
    omega
  | unclosed_index _ _ _ | unclosed_call _ _ _ _ | selector _ _ | no_primary _
  | unclosed_group _ _ _ =>
    refine absurd deep (Failure.not_tooDeep_unlessInvalid ?_ _)
    exact not_false
  | too_large _ _ => exact deep.elim
  | unary_too_deep _ =>
    simp only [Goal.slack, List.length_cons]
    omega
  | expression _ ih | primary _ ih | unary _ _ ih | descend _ _ _ ih | operand _ _ ih | link _ ih
  | index _ _ ih | call _ _ _ ih | argument _ ih | group _ _ ih =>
    have within := ih deep
    simp only [Goal.slack, List.length_cons] at *
    omega

/-- A success is the same with more room. -/
theorem Succeeds.widen (succeeds : Succeeds goal room tokens values rest) (wider : room ≤ more) :
    Succeeds goal more tokens values rest := by
  obtain ⟨used, rfl, repeats⟩ := succeeds.elsewhere
  exact repeats rest more rfl wider

/-- A failure is the same with more room, if it is not for want of room. -/
theorem Fails.widen (fails : Fails context goal room tokens failure rest completed)
    (other : ¬ failure.error.TooDeep) (wider : room ≤ more) (limit : Nat) :
    Fails ⟨limit, context.stop⟩ goal more tokens failure rest completed := by
  induction fails generalizing more with
  | too_deep | unary_too_deep _ => exact absurd trivial other
  | expression _ ih =>
    cases more with
    | zero => exact absurd wider (Nat.not_succ_le_zero _)
    | succ more => exact .expression (ih other (Nat.le_of_succ_le_succ wider))
  | primary _ ih => exact .primary (ih other wider)
  | chain parsed _ ih => exact .chain (parsed.widen wider) (ih other wider)
  | unary found _ ih =>
    cases more with
    | zero => exact absurd wider (Nat.not_succ_le_zero _)
    | succ more => exact .unary found (ih other (Nat.le_of_succ_le_succ wider))
  | descend outer lacks _ ih => exact .descend outer lacks (ih other wider)
  | run outer lacks parsed _ ih => exact .run outer lacks (parsed.widen wider) (ih other wider)
  | operand found _ ih => exact .operand found (ih other wider)
  | operator found parsed _ ih => exact .operator found (parsed.widen wider) (ih other wider)
  | link _ ih => exact .link (ih other wider)
  | chain_link linked _ ih => exact .chain_link (linked.widen wider) (ih other wider)
  | index opens _ ih => exact .index opens (ih other wider)
  | unclosed_index opens parsed lacks => exact .unclosed_index opens (parsed.widen wider) lacks
  | call opens lacks _ ih => exact .call opens lacks (ih other wider)
  | unclosed_call opens nonempty parsed lacks =>
    exact .unclosed_call opens nonempty (parsed.widen wider) lacks
  | selector dotted lacks => exact .selector dotted lacks
  | argument _ ih => exact .argument (ih other wider)
  | later_argument parsed separates _ ih =>
    exact .later_argument (parsed.widen wider) separates (ih other wider)
  | no_primary none => exact .no_primary none
  | too_large written large => exact .too_large written large
  | group opens _ ih => exact .group opens (ih other wider)
  | unclosed_group opens parsed lacks => exact .unclosed_group opens (parsed.widen wider) lacks

/-- The program stopped for the nesting limit. -/
def ProgramOutcome.TooDeep (outcome : ProgramOutcome) : Prop :=
  ∃ failure completed, outcome.stop = some (failure, completed) ∧ failure.error.TooDeep

/-- A program that stops for the nesting limit has no fewer tokens than the limit. -/
theorem parseProgram_limit_le (deep : (parseProgram context tokens).TooDeep) :
    context.limit ≤ tokens.length := by
  induction tokens using program_induction context with
  | ended =>
    obtain ⟨_, _, stopped, _⟩ := deep
    rw [parseProgram] at stopped
    cases stopped
  | failed tokens failure rest completed some fails =>
    obtain ⟨_, _, stopped, tooDeep⟩ := deep
    rw [parseProgram_failed some fails] at stopped
    cases stopped
    exact fails.room_le tooDeep
  | done tokens root rest succeeds ih =>
    have later : (parseProgram context rest).TooDeep := by
      rwa [ProgramOutcome.TooDeep, parseProgram_root succeeds] at deep
    exact Nat.le_trans (ih later) succeeds.usesUp.length_le

/-- A program that does not stop for the nesting limit is the same under every greater one. -/
theorem parseProgram_widen (other : ¬ (parseProgram context tokens).TooDeep)
    (wider : context.limit ≤ limit) :
    parseProgram ⟨limit, context.stop⟩ tokens = parseProgram context tokens := by
  induction tokens using program_induction context with
  | ended => rw [parseProgram, parseProgram]
  | failed tokens failure rest completed some fails =>
    rw [parseProgram_failed some fails] at other ⊢
    have shallow : ¬ failure.error.TooDeep := fun deep => other ⟨_, _, rfl, deep⟩
    exact parseProgram_failed some (fails.widen shallow wider limit)
  | done tokens root rest succeeds ih =>
    rw [ProgramOutcome.TooDeep, parseProgram_root succeeds] at other
    rw [parseProgram_done succeeds, parseProgram_done (succeeds.widen wider), ih other]

/-- The error for the nesting limit tells the limit. -/
theorem Reported.limit_eq {place : Position} {entries : List Diagnostic}
    (reported : Reported context tokens rest (.nestingTooDeep place limit) entries) :
    limit = context.limit := by
  cases reported
  rfl

namespace Session

/-- A session stops for the nesting limit exactly if its program does, and tells the limit. -/
theorem tooDeep_iff {session : Session} :
    session.outcome.TooDeep ↔
      ∃ place, session.program.1 = .error (.nestingTooDeep place session.context.limit) := by
  constructor
  · rintro ⟨failure, completed, stopped, deep⟩
    have stop : (parseProgram session.context session.ahead).stop = some (failure, completed) :=
      stopped
    have reported := parseProgram_reported stop
    have answer : session.program.1 = .error failure.error := by simp only [program, stop]
    rw [answer]
    cases error : failure.error with
    | nestingTooDeep place limit =>
      rw [error] at reported
      rw [reported.limit_eq]
      exact ⟨place, rfl⟩
    | _ => rw [error] at deep; exact deep.elim
  · rintro ⟨place, failed⟩
    obtain ⟨failure, completed, stopped, error⟩ := program_error failed
    exact ⟨failure, completed, stopped, by rw [error]; trivial⟩

/-- What a session does depends on the nesting limit only as far as its program does. -/
theorem program_congr {session : Session} {context : ParseContext}
    (same : parseProgram context session.ahead = session.outcome) :
    { session with context }.program =
      (session.program.1, { session.program.2 with context }) := by
  have outcome : parseProgram session.context session.ahead = session.outcome := rfl
  cases stop : session.outcome.stop with
  | none => simp only [program, same, outcome, stop, moveOn]
  | some found => simp only [program, same, outcome, stop, moveOn, fail]

end Session

namespace Source

variable {source : Source}

/-- A source that does not stop for the nesting limit is parsed alike under every greater one. -/
theorem program_widen (other : ¬ (source.outcome limit).TooDeep) (wider : limit ≤ more) :
    (Session.start source more).program =
      ((Session.start source limit).program.1,
        { (Session.start source limit).program.2 with
          context := (Session.start source more).context }) :=
  @Session.program_congr (Session.start source limit) _ (parseProgram_widen other wider)

/-- A source does not stop for the nesting limit if the limit is greater than it has tokens. -/
theorem not_tooDeep (few : source.tokenStream.tokens.length < limit) :
    ¬ (source.outcome limit).TooDeep :=
  fun deep => Nat.not_le_of_lt few (parseProgram_limit_le deep)

/-- There is a least nesting limit for which a source does not stop. -/
theorem exists_threshold (source : Source) :
    ∃ threshold, ¬ (source.outcome threshold).TooDeep ∧
      ∀ limit < threshold, (source.outcome limit).TooDeep := by
  classical
  have enough : ∃ limit, ¬ (source.outcome limit).TooDeep :=
    ⟨_, not_tooDeep (Nat.lt_succ_self _)⟩
  exact ⟨Nat.find enough, Nat.find_spec enough, fun limit below =>
    not_not.mp (Nat.find_min enough below)⟩

end Source

end Cascade
